/-
What a call pays. Relayers deposit on accounts the call opens and on no
others; whatever the program closes is emptied, to the wallet that the
records name for it.
-/
import Passdari.Books.RentLedger
import Passdari.Books.VoucherTokens

namespace Passdari

open Wire Token2022

/-- The wallet a record names as the payer of its rent. -/
def Record.rentPayer? : Record → Option Address
  | .counter _ => none
  | .business b => some b.rentPayer
  | .receipt r => some r.rentPayer
  | .card c => some c.rentPayer
  | .voucher v => some v.rentPayer
  | .cardNft n => some n.rentPayer

/-- The wallet that the records name for the rent on an account. -/
inductive Owed (P : Platform) (s : State) : Address → Address → Prop
  | record {a r w} : s.record? a = some r → r.rentPayer? = some w → Owed P s a w
  | cardMint {a c mint bump} : s.card? a = some c →
      findProgramAddress P (.cardMint a c.nftCycle) = some (mint, bump) → Owed P s mint c.rentPayer
  | cardToken {a c mint bump} : s.card? a = some c →
      findProgramAddress P (.cardMint a c.nftCycle) = some (mint, bump) →
      Owed P s (.ata c.customer mint) c.rentPayer
  | voucherMint {a v} : s.voucher? a = some v → Owed P s v.mint v.rentPayer
  | voucherToken {a v token x} : s.voucher? a = some v → s.tokens.accounts.lookup token = some x →
    x.mint = v.mint →
      Owed P s token v.rentPayer

/-- The accounts that a call's relayer pays for, when the call opens them. -/
inductive PaidFor : Action → Address → Address → Prop
  | counter {accs} : PaidFor (.program (.initializeCounter accs)) accs.owner accs.counter
  | business {accs args} : PaidFor (.program (.registerBusiness accs args)) accs.relayer accs.business
  | receipt {accs secretHash band} : PaidFor (.program (.issueReceipt accs secretHash band)) accs.relayer
    accs.receipt
  | card {accs secret} : PaidFor (.program (.claimReceipt accs secret)) accs.relayer accs.card
  | cardMint {accs uri} : PaidFor (.program (.mintCardNft accs uri)) accs.relayer accs.mint
  | cardToken {accs uri} : PaidFor (.program (.mintCardNft accs uri)) accs.relayer accs.customerToken
  | voucher {accs voucherId uri} : PaidFor (.program (.mintVoucher accs voucherId uri)) accs.relayer
    accs.voucher
  | voucherMint {accs voucherId uri} : PaidFor (.program (.mintVoucher accs voucherId uri)) accs.relayer
    accs.mint
  | voucherToken {accs voucherId uri} :
      PaidFor (.program (.mintVoucher accs voucherId uri)) accs.relayer accs.customerToken
  | receivingToken {accs} : PaidFor (.program (.transferVoucher accs)) accs.relayer accs.toToken

/-- The accounts of an older layout that a call's relayer pays for, when the call makes them longer. -/
inductive Grows : Action → Address → Address → Prop
  | card {accs} : Grows (.program (.migrateCard accs)) accs.relayer accs.card
  | business {accs} : Grows (.program (.migrateBusiness accs)) accs.relayer accs.business

/-- The NFT's mint and the customer's account for it, of a card. -/
def NftAccount (P : Platform) (card : Address) (c : LoyaltyCard) (a : Address) : Prop :=
  ∃ mint bump, findProgramAddress P (.cardMint card c.nftCycle) = some (mint, bump) ∧
    (a = mint ∨ a = .ata c.customer mint)

/-- A deposit of `payer` on an account the call opens. -/
structure Opens (tx : Tx) (s : State) (action : Action) (payer a : Address) : Prop where
  paidFor : PaidFor action payer a
  free : ¬s.InUse a
  signed : payer ∈ tx.signers
  derived : a.canSign = false

/-- What a payment of a call is for. -/
inductive Pays (P : Platform) (tx : Tx) (s : State) (action : Action) : Payment → Prop
  | deposit {payer a rent} : Opens tx s action payer a → Pays P tx s action (.topUp .deposit payer a rent)
  | growth {payer a rent} : Grows action payer a → payer ∈ tx.signers → a.canSign = false →
      Pays P tx s action (.topUp .deposit payer a rent)
  | refund {a w} : Owed P s a w → Pays P tx s action (.empty .refund a w)
  /-- A card that names nobody. -/
  | blank {accs voucherId uri c a} : action = .program (.mintVoucher accs voucherId uri) →
      s.card? accs.card = some c → c.rentPayer = .default → NftAccount P accs.card c a →
      Pays P tx s action (.empty .refund a accs.relayer)
  | withdraw {a w} : Pays P tx s action (.empty .withdraw a w)
  | send {source dest amount} : source ∈ tx.signers ∨ amount = 0 →
    Pays P tx s action (.send source dest amount)

/-- A call's only payment is what a wallet pays for an account it opens itself. -/
def PaysOwn (tx : Tx) (s : State) (ps : List Payment) : Prop :=
  ∃ payer a rent, ps = [.topUp .plain payer a rent] ∧ (payer ∈ tx.signers ∨ rent - s.lamports a = 0)

variable {P : Platform} {tx : Tx} {s s' : State} {c : Call} {cs : List Change} {calls : List TokenCall}
  {ps : List Payment} {action : Action} {a : Address}

theorem forall_burnCardNftPayments {Q : Payment → Prop} {card cardMint cardToken destination : Address}
    {customer : Option Address} {x : Option (Account Address)}
    (htoken : Q (.empty .refund cardToken destination))
    (hmint : Q (.empty .refund cardMint destination)) :
    ∀ q ∈ burnCardNftPayments tx card cardMint cardToken customer destination x, Q q := by
  unfold burnCardNftPayments
  rw [List.forall_mem_append]
  refine ⟨?_, by simpa using hmint⟩
  cases x with
  | none => simp
  | some x =>
    rw [Option.elim_some]
    cases cardTokenCloser tx card customer x with
    | none => simp
    | some who => simpa using htoken

theorem forall_closeMintPayments {Q : Payment → Prop} {voucher mint rentPayer : Address} {m : Mint Address}
    (hclose : Q (.empty .refund mint rentPayer)) : ∀ q ∈ closeMintPayments voucher mint rentPayer m, Q q := by
  unfold closeMintPayments
  split
  · simpa using hclose
  · simp

/-- **What every call pays.** -/
theorem Effect.pays (h : Effect P tx s action cs calls ps) :
    (∀ q ∈ ps, Pays P tx s action q) ∨ PaysOwn tx s ps := by
  cases h with
  | initializeCounter hs hf hfree =>
    simp only [List.forall_mem_singleton]
    exact .inl (.deposit ⟨.counter, hfree, hs, by rw [findProgramAddress_eq hf]; rfl⟩)
  | registerBusiness _ hs hf hfree =>
    simp only [List.forall_mem_singleton]
    exact .inl (.deposit ⟨.business, hfree, hs, by rw [findProgramAddress_eq hf]; rfl⟩)
  | closeBusiness hb _ _ hpayer =>
    simp only [List.forall_mem_singleton, ← hpayer]
    exact .inl (.refund (.record hb rfl))
  | issueReceipt _ _ _ _ hs hf hfree =>
    simp only [List.forall_mem_singleton]
    exact .inl (.deposit ⟨.receipt, hfree, hs, by rw [findProgramAddress_eq hf]; rfl⟩)
  | claimReceipt _ hr _ hs _ hf _ hfree _ hpayer =>
    left
    rw [List.forall_mem_append, List.forall_mem_singleton, ← hpayer]
    refine ⟨?_, .refund (.record hr rfl)⟩
    split
    · next hc =>
      rw [List.forall_mem_singleton]
      exact .deposit ⟨.card, hfree hc, hs, by rw [findProgramAddress_eq hf]; rfl⟩
    · simp
  | reclaimExpiredReceipt hr _ hpayer =>
    simp only [List.forall_mem_singleton, ← hpayer]
    exact .inl (.refund (.record hr rfl))
  | closeDeadCard hc _ _ _ hpayer =>
    simp only [List.forall_mem_singleton, ← hpayer]
    exact .inl (.refund (.record hc rfl))
  | mintCardNft _ _ _ hs _ _ _ hf _ hfree hat hfree' =>
    left
    rw [List.forall_mem_cons, List.forall_mem_singleton]
    exact ⟨.deposit ⟨.cardMint, hfree, hs, by rw [findProgramAddress_eq hf]; rfl⟩,
      .deposit ⟨.cardToken, hfree', hs, by rw [hat]; rfl⟩⟩
  | retireIdleCardNft hc _ hcustomer hpayer hf hat =>
    have hc := State.card?_eq_some.mpr hc
    rw [← hpayer, hat, ← hcustomer]
    exact .inl (forall_burnCardNftPayments (.refund (.cardToken hc hf)) (.refund (.cardMint hc hf)))
  | mintVoucher _ hc _ hs hv hfree hm hfree' hct hfree'' _ _ hcustomer hcm hat _ _ _ hdest =>
    left
    have hc := State.card?_eq_some.mpr hc
    rw [List.forall_mem_append]
    constructor
    · simp only [List.forall_mem_cons]
      exact ⟨.deposit ⟨.voucher, hfree, hs, by rw [findProgramAddress_eq hv]; rfl⟩,
        .deposit ⟨.voucherMint, hfree', hs, by rw [findProgramAddress_eq hm]; rfl⟩,
        .deposit ⟨.voucherToken, hfree'', hs, by rw [hct]; rfl⟩,
        .deposit ⟨.voucherMint, hfree', hs, by rw [findProgramAddress_eq hm]; rfl⟩, (by simp)⟩
    · split
      · rw [← hcustomer] at hat
        split at hdest
        · next hblank =>
          rw [hdest]
          exact forall_burnCardNftPayments (.blank rfl hc hblank ⟨_, _, hcm, .inr hat⟩)
            (.blank rfl hc hblank ⟨_, _, hcm, .inl rfl⟩)
        · rw [hdest, hat]
          exact forall_burnCardNftPayments (.refund (.cardToken hc hcm)) (.refund (.cardMint hc hcm))
      · simp
  | transferVoucher hv _ _ hs _ hmint hpayer hx _ _ hxm _ _ hat hopens =>
    left
    rw [List.forall_mem_append]
    constructor
    · split
      · next ho =>
        rw [List.forall_mem_singleton]
        exact .deposit ⟨.receivingToken, hopens.mp ho, hs, by rw [hat]; rfl⟩
      · simp
    · rw [← hpayer]
      cases fromTokenCloser tx _ _ with
      | none => simp
      | some who =>
        rw [Option.elim_some, List.forall_mem_singleton]
        exact .refund (.voucherToken (State.voucher?_eq_some.mpr hv) hx (hxm.trans hmint.symm))
  | redeemVoucher _ _ _ hv _ _ _ _ _ hmint hpayer hx _ _ hxm =>
    left
    rw [List.forall_mem_append, List.forall_mem_append, List.forall_mem_singleton, ← hpayer]
    refine ⟨⟨?_, forall_closeMintPayments (hmint ▸ .refund (.voucherMint (State.voucher?_eq_some.mpr hv)))⟩,
      .refund (.record hv rfl)⟩
    split
    · rw [List.forall_mem_singleton]
      exact .refund (.voucherToken (State.voucher?_eq_some.mpr hv) hx (hxm.trans hmint.symm))
    · simp
  | @closeExpiredVoucher _ _ _ _ _ _ x hv _ _ _ hmint hpayer _ _ _ hx hxm =>
    left
    rw [List.forall_mem_append, List.forall_mem_append, List.forall_mem_singleton, ← hpayer]
    refine ⟨⟨?_, forall_closeMintPayments (hmint ▸ .refund (.voucherMint (State.voucher?_eq_some.mpr hv)))⟩,
      .refund (.record hv rfl)⟩
    cases x with
    | none => simp
    | some y =>
      rw [Option.elim_some]
      split
      · rw [List.forall_mem_singleton]
        exact .refund (.voucherToken (State.voucher?_eq_some.mpr hv) hx ((hxm y rfl).trans hmint.symm))
      · simp
  | @migrateCard _ _ _ _ _ _ _ n _ hs _ _ _ _ ha _ _ hn =>
    left
    rw [List.forall_mem_cons]
    refine ⟨.growth .card hs (by rw [(createProgramAddress_eq_some.mp ha).2]; rfl), ?_⟩
    cases n with
    | none => simp
    | some x =>
      obtain ⟨hr, hpayer⟩ := hn x rfl
      rw [Option.elim_some, List.forall_mem_singleton, hpayer]
      exact .refund (.record hr rfl)
  | migrateBusiness hs _ _ _ ha =>
    simp only [List.forall_mem_singleton]
    exact .inl (.growth .business hs (by rw [(createProgramAddress_eq_some.mp ha).2]; rfl))
  | pay hs =>
    simp only [List.forall_mem_singleton]
    exact .inl (.send (hs.imp_left And.left))
  | openMint _ _ hs | openToken _ _ hs => exact .inr ⟨_, _, _, rfl, hs⟩
  | closeToken =>
    simp only [List.forall_mem_singleton]
    exact .inl .withdraw
  | updateBusinessConfig | transferStamps | presentVoucher | cancelPresentation | handOver | token =>
    exact .inl (by simp)

/-- Whatever a call pays is covered. -/
theorem Effect.sound (h : Effect P tx s action cs calls ps) (hsig : ∀ a ∈ tx.signers, a.canSign = true) :
    Sound s.purse ps := by
  rcases h.pays with hpays | ⟨payer, a, rent, rfl, hs⟩
  · refine Sound.of_forall fun q hq p => ?_
    cases hpays q hq with
    | deposit ho => exact ⟨.inl ⟨rfl, ho.derived⟩, .inl (hsig _ ho.signed)⟩
    | growth _ hs ha => exact ⟨.inl ⟨rfl, ha⟩, .inl (hsig _ hs)⟩
    | refund | blank => exact .inl rfl
    | withdraw => exact .inr rfl
    | send hs => exact hs.imp_left (hsig _)
  · exact ⟨⟨.inr rfl, hs.imp_left (hsig _)⟩, trivial⟩

/-! ## Whatever is closed is emptied -/

theorem burnCardNft_emptied {card cardMint cardToken destination dest auth : Address}
    {customer : Option Address}
    {x : Option (Account Address)} {k : TokenCall}
    (hk : k ∈ burnCardNftCalls tx card cardMint cardToken customer destination x)
    (hop : k.op = .close a dest auth) :
    ∃ q ∈ burnCardNftPayments tx card cardMint cardToken customer destination x, q.Empties a := by
  unfold burnCardNftCalls at hk
  unfold burnCardNftPayments
  rcases List.mem_append.mp hk with hk | hk
  · cases x with
    | none => cases hk
    | some x =>
      rw [Option.elim_some] at hk ⊢
      rcases List.mem_append.mp hk with hk | hk
      · split at hk
        · rw [List.mem_singleton] at hk
          subst hk
          cases hop
        · cases hk
      · cases hwho : cardTokenCloser tx card customer x with
        | none => rw [hwho] at hk; cases hk
        | some who =>
          rw [hwho, Option.elim_some, List.mem_singleton] at hk
          subst hk
          cases hop
          exact ⟨_, List.mem_append_left _ List.mem_cons_self, .refund, destination, rfl, .inl rfl⟩
  · rw [List.mem_singleton] at hk
    subst hk
    cases hop
    exact ⟨_, List.mem_append_right _ List.mem_cons_self, .refund, destination, rfl, .inl rfl⟩

theorem closeMint_emptied {voucher mint rentPayer dest auth : Address} {m : Mint Address} {k : TokenCall}
    (hk : k ∈ closeMintCalls tx voucher mint rentPayer m) (hop : k.op = .close a dest auth) :
    ∃ q ∈ closeMintPayments voucher mint rentPayer m, q.Empties a := by
  unfold closeMintCalls at hk
  unfold closeMintPayments
  split at hk
  · next hm =>
    rw [List.mem_singleton] at hk
    subst hk
    cases hop
    exact ⟨_, by rw [if_pos hm]; exact List.mem_cons_self, .refund, rentPayer, rfl, .inl rfl⟩
  · cases hk

/-- A mint or token account that a call closes is emptied. -/
theorem Effect.closes_paid (h : Effect P tx s action cs calls ps) {k : TokenCall} (hk : k ∈ calls)
    {dest auth : Address} (hop : k.op = .close a dest auth) : ∃ q ∈ ps, q.Empties a := by
  cases h with
  | mintCardNft =>
    simp only [mintCardNftCalls, List.mem_cons, List.not_mem_nil, or_false] at hk
    rcases hk with rfl | rfl | rfl | rfl | rfl | rfl <;> cases hop
  | retireIdleCardNft => exact burnCardNft_emptied hk hop
  | mintVoucher =>
    rcases List.mem_append.mp hk with hk | hk
    · simp only [mintVoucherCalls, List.mem_cons, List.not_mem_nil, or_false] at hk
      rcases hk with rfl | rfl | rfl | rfl | rfl | rfl <;> cases hop
    · split at hk
      · next hr =>
        rw [if_pos hr]
        obtain ⟨q, hq, he⟩ := burnCardNft_emptied hk hop
        exact ⟨q, List.mem_append_right _ hq, he⟩
      · cases hk
  | presentVoucher => exact absurd hop (forall_presentVoucherCalls (Q := fun k => k.op ≠ _) (by simp)
    (by simp) k hk)
  | @transferVoucher accs _ _ x =>
    unfold transferVoucherCalls at hk
    rcases List.mem_append.mp hk with hk | hk
    · split at hk
      · rw [List.mem_singleton] at hk
        subst hk
        cases hop
      · cases hk
    rcases List.mem_cons.mp hk with rfl | hk
    · cases hop
    cases hwho : fromTokenCloser tx accs x with
    | none => rw [hwho] at hk; cases hk
    | some who =>
      rw [hwho, Option.elim_some, List.mem_singleton] at hk
      subst hk
      cases hop
      rw [Option.elim_some]
      exact ⟨_, List.mem_append_right _ List.mem_cons_self, .refund, accs.rentPayer, rfl, .inl rfl⟩
  | @redeemVoucher accs _ _ _ _ x =>
    rcases List.mem_append.mp hk with hk | hk
    · simp only [redeemCalls, List.mem_cons] at hk
      rcases hk with rfl | rfl | hk
      · cases hop
      · cases hop
      split at hk
      · next hc =>
        rw [List.mem_singleton] at hk
        subst hk
        cases hop
        rw [if_pos hc]
        exact ⟨_, List.mem_append_left _ (List.mem_append_left _ List.mem_cons_self), .refund, accs.rentPayer,
          rfl, .inl rfl⟩
      · cases hk
    · obtain ⟨q, hq, he⟩ := closeMint_emptied hk hop
      exact ⟨q, List.mem_append_left _ (List.mem_append_right _ hq), he⟩
  | @closeExpiredVoucher accs _ _ _ _ _ x =>
    rcases List.mem_append.mp hk with hk | hk
    · cases x with
      | none => cases hk
      | some x =>
        simp only [burnExpiredCalls, Option.elim_some] at hk ⊢
        rcases List.mem_append.mp hk with hk | hk
        · split at hk
          · rcases List.mem_append.mp hk with hk | hk
            · split at hk
              · rw [List.mem_singleton] at hk
                subst hk
                cases hop
              · cases hk
            · rw [List.mem_singleton] at hk
              subst hk
              cases hop
          · cases hk
        · split at hk
          · next hc =>
            rw [List.mem_singleton] at hk
            subst hk
            cases hop
            rw [if_pos hc]
            exact ⟨_, List.mem_append_left _ (List.mem_append_left _ List.mem_cons_self), .refund,
              accs.rentPayer, rfl, .inl rfl⟩
          · cases hk
    · obtain ⟨q, hq, he⟩ := closeMint_emptied hk hop
      exact ⟨q, List.mem_append_left _ (List.mem_append_right _ hq), he⟩
  | cancelPresentation | openMint | openToken =>
    rw [List.mem_singleton] at hk
    subst hk
    cases hop
  | @closeToken account dest =>
    rw [List.mem_singleton] at hk
    subst hk
    cases hop
    exact ⟨_, List.mem_cons_self, .withdraw, dest, rfl, .inr rfl⟩
  | token hnone =>
    rw [List.mem_singleton] at hk
    subst hk
    cases hop
    cases hnone
  | _ => cases hk

/-- A program account that a call closes is emptied. -/
theorem Effect.closed_paid (h : Effect P tx s action cs calls ps) :
    ∀ k ∈ cs, k.after = none → ∃ q ∈ ps, q.Empties k.addr := by
  have hrefund : ∀ {l : List Payment} {a dest}, Payment.empty .refund a dest ∈ l → ∃ q ∈ l, q.Empties a :=
    fun hmem => ⟨_, hmem, .refund, _, rfl, .inl rfl⟩
  cases h with
  | closeBusiness | reclaimExpiredReceipt =>
    rw [List.forall_mem_singleton]
    exact fun _ => hrefund List.mem_cons_self
  | claimReceipt =>
    simp only [List.forall_mem_cons]
    exact ⟨(by simp), fun _ => hrefund (List.mem_append_right _ List.mem_cons_self), (by simp), by simp⟩
  | closeDeadCard =>
    simp only [List.forall_mem_cons]
    exact ⟨(by simp), fun _ => hrefund List.mem_cons_self, by simp⟩
  | redeemVoucher | closeExpiredVoucher =>
    simp only [List.forall_mem_cons]
    exact ⟨(by simp), fun _ => hrefund (List.mem_append_right _ List.mem_cons_self), by simp⟩
  | @migrateCard _ _ _ _ _ _ _ n =>
    rw [List.forall_mem_cons]
    refine ⟨(by simp), ?_⟩
    cases n with
    | none => simp
    | some x =>
      rw [Option.elim_some, List.forall_mem_singleton]
      exact fun _ => hrefund (List.mem_cons_of_mem _ List.mem_cons_self)
  | _ => simp

end Passdari
