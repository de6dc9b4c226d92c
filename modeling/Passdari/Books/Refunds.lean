/-
Refunds. Whatever a call closes, all that is on it goes to the wallet named
beforehand on the account that governs it; apart from what relayers pay for
new accounts nobody else's balance changes, and lamports are only moved.
-/
import Passdari.Books.Cards
import Passdari.Books.Rent
import Passdari.Lib.Transfers

namespace Passdari

open Wire Token2022

/-- What is of a voucher at `V`: its own account, its mint, and accounts for its token. -/
def VoucherAccount (s : State) (V : Address) (v : Voucher) (a : Address) : Prop :=
  a = V ∨ a = v.mint ∨ ∃ x, s.tokens.accounts.lookup a = some x ∧ x.mint = v.mint

/-- The wallet that the rent on a closed account is due to: the one that the receipt, card, voucher, shop or
old NFT record names which the call is about. -/
inductive Refundable (P : Platform) (s : State) : Action → Address → Address → Prop
  | claimed {accs secret r} : s.receipt? accs.receipt = some r →
      Refundable P s (.program (.claimReceipt accs secret)) accs.receipt r.rentPayer
  | reclaimed {accs r} : s.receipt? accs.receipt = some r →
      Refundable P s (.program (.reclaimExpiredReceipt accs)) accs.receipt r.rentPayer
  /-- A card that names nobody leaves the rent of its NFT to the relayer. -/
  | cashedIn {accs voucherId uri c a} : s.card? accs.card = some c → NftAccount P accs.card c a →
      Refundable P s (.program (.mintVoucher accs voucherId uri)) a
        (if c.rentPayer = .default then accs.relayer else c.rentPayer)
  | nftRetired {accs c a} : s.card? accs.card = some c → NftAccount P accs.card c a →
      Refundable P s (.program (.retireIdleCardNft accs)) a c.rentPayer
  | transferred {accs v x} : s.voucher? accs.voucher = some v →
    s.tokens.accounts.lookup accs.fromToken = some x →
      x.mint = v.mint → Refundable P s (.program (.transferVoucher accs)) accs.fromToken v.rentPayer
  | redeemed {accs v a} : s.voucher? accs.voucher = some v → VoucherAccount s accs.voucher v a →
      Refundable P s (.program (.redeemVoucher accs)) a v.rentPayer
  | expired {accs v a} : s.voucher? accs.voucher = some v → VoucherAccount s accs.voucher v a →
      Refundable P s (.program (.closeExpiredVoucher accs)) a v.rentPayer
  | dead {accs c} : s.card? accs.card = some c →
    Refundable P s (.program (.closeDeadCard accs)) accs.card c.rentPayer
  | shop {accs b} : s.business? accs.business = some b →
      Refundable P s (.program (.closeBusiness accs)) accs.business b.rentPayer
  | oldNft {accs n} : s.record? accs.record = some (.cardNft n) →
      Refundable P s (.program (.migrateCard accs)) accs.record n.rentPayer

/-- An address belongs to one program, and is a mint or a token account, not both. -/
structure State.OneOwner (s : State) : Prop where
  program : ∀ a, s.tokens.InUse a → s.program.lookup a = none
  oneKind : s.tokens.OneKind

variable {P : Platform} {tx : Tx} {s s' start : State} {hist : History} {c : Call} {cs : List Change}
  {calls : List TokenCall} {ps : List Payment} {action : Action} {a w : Address} {i : Instruction}

/-! ## One owner -/

/-- A program account that is there after a step was there before, or its address was free. -/
theorem Step.program_was (h : Step P s c s' cs calls ps) {data : List Byte}
    (hd : s'.program.lookup a = some data) :
    (s.program.lookup a).isSome = true ∨ ¬s.InUse a ∧ a ∈ cs.map Change.addr := by
  rcases h.changed.lookup a with ⟨-, hsame⟩ | ⟨x, hx, rfl, ⟨-, hgone⟩ | ⟨r, rest, hr, -, -⟩⟩
  · exact .inl (by rw [← hsame, hd]; rfl)
  · rw [hgone] at hd
    cases hd
  · cases hbefore : x.before with
    | some q =>
      obtain ⟨data, hdata, -⟩ := Option.bind_eq_some_iff.mp ((h.changed.before x hx).trans hbefore)
      exact .inl (by rw [hdata]; rfl)
    | none =>
      have hface : ∀ {f}, s.face? x.addr = some f → (s.program.lookup x.addr).isSome = true := fun hf => by
        obtain ⟨data, hdata, -⟩ := Option.bind_eq_some_iff.mp hf
        rw [hdata]
        rfl
      rcases h.effect.before_none x hx hbefore with hfree | ⟨_, hf, -⟩ | ⟨_, _, -, -, hf⟩
      · exact .inr ⟨hfree, List.mem_map_of_mem hx⟩
      · exact .inl (hface hf)
      · exact .inl (hface hf)

/-- What a call opens in the token program is no account of this program. -/
theorem Effect.opens_apart (h : Effect P tx s action cs calls ps) {k : TokenCall} (hk : k ∈ calls)
    (hop : k.op.opens = some a) : a ∉ cs.map Change.addr := by
  have hfree := h.opens_free k hk hop
  have hrecord : ∀ {b r}, s.record? b = some r → a ≠ b := fun hb he => hfree (he ▸ State.inUse_of_record? hb)
  cases h with
  | @mintVoucher accs voucherId uri b _ _ _ _ _ _ _ _ destination retired hb hc _ _ hf _ hm _ hat =>
    have hvoucher : ∀ k ∈ mintVoucherCalls tx accs (voucherName b.toBusinessV1) uri ++
        (if retired = true then burnCardNftCalls tx accs.card accs.cardMint accs.cardToken
          (some accs.customer)
          destination (s.tokens.accounts.lookup accs.cardToken) else []), k.op.opens ≠ some accs.voucher := by
      rw [List.forall_mem_append]
      constructor
      · have hmint : accs.mint ≠ accs.voucher := by
          rw [findProgramAddress_eq hf, findProgramAddress_eq hm]
          simp
        have htoken : accs.customerToken ≠ accs.voucher := by
          rw [hat, findProgramAddress_eq hf]
          simp
        simp [mintVoucherCalls, hmint, htoken]
      · split
        · exact forall_burnCardNftCalls (by simp) (by simp) (by simp) (by simp)
        · simp
    simp only [List.map_cons, List.map_nil, List.mem_cons, List.not_mem_nil, or_false, not_or]
    exact ⟨hrecord hb, hrecord hc, fun he => hvoucher k hk (he ▸ hop)⟩
  | transferVoucher hv | retireIdleCardNft hv =>
    rw [List.map_singleton, List.mem_singleton]
    exact hrecord hv
  | redeemVoucher hb _ _ hv | closeExpiredVoucher hv hb =>
    simp only [List.map_cons, List.map_nil, List.mem_cons, List.not_mem_nil, or_false, not_or]
    exact ⟨hrecord hb, hrecord hv⟩
  | mintCardNft | presentVoucher | cancelPresentation | openMint | openToken | closeToken | token =>
    simp
  | _ => cases hk

theorem Step.oneOwner (h : Step P s c s' cs calls ps) (ho : s.OneOwner) : s'.OneOwner where
  oneKind := run_invariant Tokens.OneKind (fun _ _ {_ _} hk hd => hd.oneKind hk) h.tokens ho.oneKind
  program a ha := by
    cases hd : s'.program.lookup a with
    | none => rfl
    | some data =>
      exfalso
      by_cases hthere : s.tokens.InUse a
      · rcases h.program_was hd with hp | ⟨hfree, -⟩
        · rw [ho.program a hthere] at hp
          cases hp
        · exact hfree (State.inUse_iff.mpr (.inr (.inl hthere)))
      · obtain ⟨k, hk, hop⟩ : ∃ k ∈ calls, k.op.opens = some a := by
          by_contra hno
          push Not at hno
          exact run_invariant (fun t => ¬t.InUse a) (fun k hk {_ _} hi hd => hd.not_inUse hi (hno k hk))
            h.tokens
            hthere ha
        rcases h.program_was hd with hp | ⟨-, hmem⟩
        · exact h.effect.opens_free k hk hop (State.inUse_iff.mpr (.inl hp))
        · exact h.effect.opens_apart hk hop hmem

/-! ## The bill of a call -/

/-- What a relayer is to bring an account up to. -/
structure TopUp where
  payer : Address
  addr : Address
  rent : Nat

/-- Deposits of a relayer, then everything on the accounts closed, to one wallet. -/
def bill (tops : List TopUp) (closing : List Address) (w : Address) : List Payment :=
  tops.map (fun t => .topUp .deposit t.payer t.addr t.rent) ++ closing.map fun a => .empty .refund a w

theorem burnCardNft_bill (tx : Tx) (card cardMint cardToken : Address) (customer : Option Address)
    (destination : Address) (x : Option (Account Address)) : ∃ closing : List Address,
      burnCardNftPayments tx card cardMint cardToken customer destination x =
        closing.map (fun a => .empty .refund a destination) ∧ (∀ a ∈ closing, a = cardToken ∨ a = cardMint) ∧
      (cardToken ≠ cardMint → closing.Nodup) := by
  unfold burnCardNftPayments
  cases x with
  | none => exact ⟨[cardMint], rfl, by simp, by simp⟩
  | some x =>
    rw [Option.elim_some]
    cases cardTokenCloser tx card customer x with
    | none => exact ⟨[cardMint], rfl, by simp, by simp⟩
    | some who => exact ⟨[cardToken, cardMint], rfl, by simp, by simp⟩

theorem closeVoucher_bill (voucher mint token rentPayer : Address) (m : Mint Address) (closes : Bool) :
    ∃ closing : List Address,
      (if closes = true then [.empty .refund token rentPayer] else []) ++ closeMintPayments voucher mint
      rentPayer m ++
        [.empty .refund voucher rentPayer] = closing.map (fun a => Payment.empty .refund a rentPayer) ∧
      (∀ a ∈ closing, a = voucher ∨ a = mint ∨ a = token ∧ closes = true) ∧
      (voucher ≠ mint → (closes = true → token ≠ mint ∧ token ≠ voucher) → closing.Nodup) := by
  unfold closeMintPayments
  refine ⟨(if closes = true then [token] else []) ++
    (if m.closeAuthority = some voucher then [mint] else []) ++
    [voucher], ?_, ?_, fun hvm htoken => ?_⟩
  · split <;> split <;> rfl
  · split <;> split <;> simp_all
  · split
    · next hc =>
      obtain ⟨htm, htv⟩ := htoken hc
      split <;> simp [htm, htv, hvm.symm]
    · split <;> simp [hvm.symm]

/-- **The bill of every instruction.** -/
theorem Effect.billed (ho : s.OneOwner) (h : Effect P tx s (.program i) cs calls ps) :
    ∃ tops closing w, ps = bill tops closing w ∧ closing.Nodup ∧ ∀ a ∈ closing,
    Refundable P s (.program i) a w := by
  have hopen : ∀ {payer a rent}, ∃ tops closing w,
    [Payment.topUp .deposit payer a rent] = bill tops closing w ∧
      closing.Nodup ∧ ∀ a ∈ closing, Refundable P s (.program i) a w := fun {payer a rent} =>
    ⟨[⟨payer, a, rent⟩], [], .default, rfl, List.nodup_nil, (by simp)⟩
  -- an account of this program, a mint and a token account are at different addresses
  have hapart : ∀ {V M X : Address} {r : Record} {m : Mint Address}, s.record? V = some r →
      s.tokens.mints.lookup M = some m → V ≠ M ∧
        ((∃ x, s.tokens.accounts.lookup X = some x) → X ≠ M ∧ X ≠ V) := by
    intro V M X r m hV hM
    have hno : ∀ {Y}, s.tokens.InUse Y → Y ≠ V := fun hY he => by
      rw [State.record?, ← he, ho.program _ hY] at hV
      cases hV
    refine ⟨(hno (Tokens.inUse_of_mint hM)).symm, ?_⟩
    intro hex
    obtain ⟨x, hx⟩ := hex
    refine ⟨?_, hno (Tokens.inUse_of_account hx)⟩
    intro heq
    subst heq
    rcases ho.oneKind X with h0 | h0
    · cases h0.symm.trans hM
    · cases h0.symm.trans hx
  cases h with
  | initializeCounter | registerBusiness | issueReceipt | migrateBusiness => exact hopen
  | mintCardNft => exact ⟨[⟨_, _, _⟩, ⟨_, _, _⟩], [], .default, rfl, List.nodup_nil, (by simp)⟩
  | updateBusinessConfig | transferStamps | presentVoucher | cancelPresentation =>
    exact ⟨[], [], .default, rfl, List.nodup_nil, (by simp)⟩
  | @closeBusiness accs b hb _ _ hpayer =>
    refine ⟨[], [accs.business], accs.rentPayer, rfl, List.nodup_singleton _, ?_⟩
    rw [List.forall_mem_singleton, ← hpayer]
    exact .shop (State.business?_eq_some.mpr hb)
  | @claimReceipt accs _ _ _ r _ _ x _ hr _ _ _ _ _ _ _ hpayer =>
    refine ⟨if x = none then [⟨accs.relayer, accs.card, P.minimumBalance LoyaltyCard.space⟩] else [],
      [accs.receipt], accs.rentPayer, by split <;> rfl, List.nodup_singleton _, ?_⟩
    rw [List.forall_mem_singleton, ← hpayer]
    exact .claimed (State.receipt?_eq_some.mpr hr)
  | @reclaimExpiredReceipt accs r hr _ hpayer =>
    refine ⟨[], [accs.receipt], accs.rentPayer, rfl, List.nodup_singleton _, ?_⟩
    rw [List.forall_mem_singleton, ← hpayer]
    exact .reclaimed (State.receipt?_eq_some.mpr hr)
  | @closeDeadCard accs _ c _ _ hc _ _ _ hpayer =>
    refine ⟨[], [accs.card], accs.rentPayer, rfl, List.nodup_singleton _, ?_⟩
    rw [List.forall_mem_singleton, ← hpayer]
    exact .dead (State.card?_eq_some.mpr hc)
  | @retireIdleCardNft accs c _ _ _ hc _ hcustomer hpayer hf hat =>
    have hne : accs.cardToken ≠ accs.cardMint := by
      rw [hat, findProgramAddress_eq hf]
      simp
    obtain ⟨closing, hp, hclosing, hnodup⟩ := burnCardNft_bill tx accs.card accs.cardMint accs.cardToken none
      accs.rentPayer (s.tokens.accounts.lookup accs.cardToken)
    refine ⟨[], closing, accs.rentPayer, hp, hnodup hne, fun a ha => ?_⟩
    rw [← hpayer]
    refine .nftRetired (State.card?_eq_some.mpr hc) ⟨_, _, hf, ?_⟩
    rw [hcustomer, ← hat]
    exact (hclosing a ha).symm
  | @mintVoucher accs voucherId uri b x _ _ _ _ _ _ _ destination retired hb hc _ _ _ _ _ _ _ _ _ _ hcustomer
    hcm hat
      _ _ _ hdest =>
    have hne : accs.cardToken ≠ accs.cardMint := by
      rw [hat, findProgramAddress_eq hcm]
      simp
    obtain ⟨closing, hp, hclosing, hnodup⟩ := burnCardNft_bill tx accs.card accs.cardMint accs.cardToken
      (some accs.customer) destination (s.tokens.accounts.lookup accs.cardToken)
    have hw : destination = if x.rentPayer = .default then accs.relayer else x.rentPayer := by
      split at hdest
      · next h0 => rw [if_pos h0, hdest]
      · next h0 => rw [if_neg h0, hdest]
    refine ⟨[⟨accs.relayer, accs.voucher, P.minimumBalance Voucher.space⟩,
      ⟨accs.relayer, accs.mint, P.minimumBalance voucherMintLen⟩,
      ⟨accs.relayer, accs.customerToken, P.minimumBalance (tokenAccountLen false)⟩,
      ⟨accs.relayer, accs.mint, P.minimumBalance (voucherMintLen + metadataLen (voucherName b.toBusinessV1)
        voucherSymbol uri.val)⟩], if retired = true then closing else [], destination, ?_, ?_, ?_⟩
    · rw [hp]
      split <;> rfl
    · split
      · exact hnodup hne
      · exact List.nodup_nil
    · split
      · intro a ha
        rw [hw]
        refine .cashedIn (State.card?_eq_some.mpr hc) ⟨_, _, hcm, ?_⟩
        rw [hcustomer, ← hat]
        exact (hclosing a ha).symm
      · simp
  | @transferVoucher accs v m x opens hv _ _ _ _ hmint hpayer hx _ _ hxm =>
    refine ⟨if opens = true then
      [⟨accs.relayer, accs.toToken, P.minimumBalance (tokenAccountLen m.nonTransferable)⟩]
      else [], (fromTokenCloser tx accs x).elim [] fun _ => [accs.fromToken], accs.rentPayer, ?_, ?_, ?_⟩
    · cases fromTokenCloser tx accs x <;> split <;> rfl
    · cases fromTokenCloser tx accs x <;> simp
    · rw [← hpayer]
      cases fromTokenCloser tx accs x with
      | none => simp
      | some who =>
        rw [Option.elim_some, List.forall_mem_singleton]
        exact .transferred (State.voucher?_eq_some.mpr hv) hx (hxm.trans hmint.symm)
  | @redeemVoucher accs _ v _ m' x _ _ _ _ _ hv hm _ _ _ _ hmint hpayer hx _ _ hxm =>
    obtain ⟨closing, hp, hclosing, hnodup⟩ := closeVoucher_bill accs.voucher accs.mint accs.holderToken
      accs.rentPayer m' (decide (x.closeAuthority = some accs.voucher))
    simp only [decide_eq_true_eq] at hp hclosing hnodup
    obtain ⟨hvm, htoken⟩ := hapart hv hm
    refine ⟨[], closing, accs.rentPayer, hp, hnodup hvm fun _ => htoken ⟨x, hx⟩, fun a ha => ?_⟩
    rw [← hpayer]
    refine .redeemed (State.voucher?_eq_some.mpr hv) ?_
    rcases hclosing a ha with rfl | rfl | ⟨rfl, -⟩
    · exact .inl rfl
    · exact .inr (.inl hmint.symm)
    · exact .inr (.inr ⟨x, hx, hxm.trans hmint.symm⟩)
  | @closeExpiredVoucher accs _ v _ m' _ x hv _ hm _ hmint hpayer _ _ _ hx hxm =>
    obtain ⟨closing, hp, hclosing, hnodup⟩ := closeVoucher_bill accs.voucher accs.mint accs.holderToken
      accs.rentPayer m' (x.any fun x => x.closeAuthority = some accs.voucher)
    obtain ⟨hvm, htoken⟩ := hapart hv hm
    refine ⟨[], closing, accs.rentPayer, ?_, hnodup hvm fun hc => ?_, fun a ha => ?_⟩
    · rw [bill, List.map_nil, List.nil_append, ← hp]
      cases x with
      | none => rfl
      | some x => simp only [Option.elim_some, Option.any_some, decide_eq_true_eq]
    · obtain ⟨y, rfl, -⟩ := Option.any_eq_true .. |>.mp hc
      exact htoken ⟨y, hx⟩
    · rw [← hpayer]
      refine .expired (State.voucher?_eq_some.mpr hv) ?_
      rcases hclosing a ha with rfl | rfl | ⟨rfl, hc⟩
      · exact .inl rfl
      · exact .inr (.inl hmint.symm)
      · obtain ⟨y, rfl, -⟩ := Option.any_eq_true .. |>.mp hc
        exact .inr (.inr ⟨y, hx, (hxm y rfl).trans hmint.symm⟩)
  | @migrateCard accs _ _ _ _ _ _ n _ _ _ _ _ _ _ _ _ hn =>
    refine ⟨[⟨accs.relayer, accs.card, P.minimumBalance LoyaltyCard.space⟩], n.elim [] fun _ => [accs.record],
      accs.rentPayer, by cases n <;> rfl, by cases n <;> simp, ?_⟩
    cases n with
    | none => simp
    | some x =>
      obtain ⟨hr, hpayer⟩ := hn x rfl
      rw [Option.elim_some, List.forall_mem_singleton, hpayer]
      exact .oldNft hr

/-- The transfers that empty the accounts. -/
def refunds (p : Purse) (closing : List Address) (w : Address) : List (Transfer Address) :=
  closing.map fun a => ⟨a, w, p.lamports a⟩

@[simp] theorem map_source_refunds (p : Purse) (closing : List Address) (w : Address) :
    (refunds p closing w).map Transfer.source = closing := by
  rw [refunds, List.map_map]
  exact List.map_id closing

variable {p : Purse} {tops : List TopUp} {closing : List Address}

theorem Funded.front : ∀ {ps qs : List Payment} {p : Purse}, Funded p (ps ++ qs) → Funded p ps
  | [], _, _, _ => trivial
  | _ :: _, _, _, h => ⟨h.1, Funded.front h.2⟩

theorem settle_append {qs : List Payment} : p.settle (ps ++ qs) = (p.settle ps).settle qs := List.foldl_append

theorem balances_move (kind : MoveKind) {source : Address} (dest : Address) {n : Nat}
    (hle : n ≤ p.lamports source) :
    Transfer.Balances [⟨source, dest, n⟩] p.lamports (p.move kind source dest n).lamports :=
  Transfer.Balances.one (x := ⟨source, dest, n⟩) hle

/-- The deposits are made by their payers, on the accounts they are for. -/
theorem settle_tops : ∀ {tops : List TopUp} {p : Purse},
    Funded p (tops.map fun t => .topUp .deposit t.payer t.addr t.rent) →
    ∃ l : List (Transfer Address),
      Transfer.Balances l p.lamports
      (p.settle (tops.map fun t => .topUp .deposit t.payer t.addr t.rent)).lamports ∧
      ∀ x ∈ l, ∃ t ∈ tops, x.source = t.payer ∧ x.dest = t.addr
  | [], p, _ => ⟨[], .nil _, by simp⟩
  | t :: tops, p, h => by
    obtain ⟨hf, hrest⟩ := h
    obtain ⟨l, hb, hl⟩ := settle_tops hrest
    have hmem : ∀ x ∈ l, ∃ u ∈ t :: tops, x.source = u.payer ∧ x.dest = u.addr := fun x hx => by
      obtain ⟨u, hu, he⟩ := hl x hx
      exact ⟨u, List.mem_cons_of_mem _ hu, he⟩
    by_cases h0 : t.rent - p.lamports t.addr = 0
    · have hsame : p.pay (.topUp .deposit t.payer t.addr t.rent) = p := if_pos h0
      rw [hsame] at hb
      refine ⟨l, ?_, hmem⟩
      rw [List.map_cons, Purse.settle, List.foldl_cons, hsame]
      exact hb
    · have hmove : p.pay (.topUp .deposit t.payer t.addr t.rent) =
          p.move .deposit t.payer t.addr (t.rent - p.lamports t.addr) := if_neg h0
      refine ⟨⟨t.payer, t.addr, t.rent - p.lamports t.addr⟩ :: l, ?_, ?_⟩
      · rw [hmove] at hb
        rw [List.map_cons, Purse.settle, List.foldl_cons, hmove]
        exact (balances_move _ _ hf).trans hb
      · rw [List.forall_mem_cons]
        exact ⟨⟨t, List.mem_cons_self, rfl, rfl⟩, hmem⟩

/-- Nobody has to pay for accounts that have their rent already. -/
theorem settle_tops_covered : ∀ {tops : List TopUp} {p : Purse}, (∀ t ∈ tops, t.rent ≤ p.lamports t.addr) →
    p.settle (tops.map fun t => .topUp .deposit t.payer t.addr t.rent) = p
  | [], _, _ => rfl
  | t :: tops, p, h => by
    have h0 : t.rent - p.lamports t.addr = 0 := Nat.sub_eq_zero_of_le (h t List.mem_cons_self)
    have hsame : p.pay (.topUp .deposit t.payer t.addr t.rent) = p := if_pos h0
    rw [List.map_cons, Purse.settle, List.foldl_cons, hsame]
    exact settle_tops_covered fun u hu => h u (List.mem_cons_of_mem _ hu)

/-- Different accounts, emptied to a wallet that is none of them, give all they had. -/
theorem settle_closing : ∀ {closing : List Address} {p : Purse}, closing.Nodup → w ∉ closing →
    Transfer.Balances (refunds p closing w) p.lamports
      (p.settle (closing.map fun a => .empty .refund a w)).lamports
  | [], p, _, _ => .nil _
  | a :: closing, p, hn, hw => by
    obtain ⟨ha, hn⟩ := List.nodup_cons.mp hn
    rw [List.mem_cons, not_or] at hw
    have hrest := settle_closing (p := p.pay (.empty .refund a w)) hn hw.2
    have hsame : refunds (p.pay (.empty .refund a w)) closing w = refunds p closing w := by
      refine List.map_congr_left fun b hb => ?_
      have hba : b ≠ a := fun he => ha (he ▸ hb)
      have hbw : b ≠ w := fun he => hw.2 (he ▸ hb)
      simp only [Purse.pay, Purse.move, Function.update_of_ne hbw, Function.update_of_ne hba]
    rw [hsame] at hrest
    exact (balances_move .refund w (Nat.le_refl _)).trans hrest

/-- **What a bill moves**, when no payer is itself closed, or nothing is left to pay. -/
theorem settle_bill (hf : Funded p (bill tops closing w)) (hn : closing.Nodup) (hw : w ∉ closing)
    (haddr : ∀ t ∈ tops, t.addr ∉ closing)
    (hpayer : (∀ t ∈ tops, t.payer ∉ closing) ∨ ∀ t ∈ tops, t.rent ≤ p.lamports t.addr) :
    ∃ deposits : List (Transfer Address), (∀ x ∈ deposits, ∃ t ∈ tops, x.source = t.payer ∧ x.dest = t.addr) ∧
      Transfer.Balances
      (deposits ++ refunds p closing w) p.lamports (p.settle (bill tops closing w)).lamports := by
  rw [bill, settle_append]
  rcases hpayer with hpayer | hcovered
  · obtain ⟨deposits, hb, hl⟩ := settle_tops hf.front
    refine ⟨deposits, hl, hb.trans ?_⟩
    have hsame : refunds p closing w =
        refunds (p.settle (tops.map fun t => .topUp .deposit t.payer t.addr t.rent)) closing w := by
      refine List.map_congr_left fun a ha => ?_
      have hframe := hb.frame (k := a) fun x hx => by
        obtain ⟨t, ht, hs, hd⟩ := hl x hx
        exact ⟨fun he => hpayer t ht (hs ▸ he ▸ ha), fun he => haddr t ht (hd ▸ he ▸ ha)⟩
      rw [hframe]
    rw [hsame]
    exact settle_closing hn hw
  · rw [settle_tops_covered hcovered]
    exact ⟨[], by simp, settle_closing hn hw⟩

/-! ## What is refunded is closed -/

theorem burnCardNft_refund {card cardMint cardToken destination : Address} {customer : Option Address}
    {x : Option (Account Address)}
    (hq : Payment.empty .refund a w ∈ burnCardNftPayments tx card cardMint cardToken customer destination x) :
    ∃ k ∈ burnCardNftCalls tx card cardMint cardToken customer destination x, ∃ auth,
    k.op = .close a w auth := by
  unfold burnCardNftPayments at hq
  unfold burnCardNftCalls
  rcases List.mem_append.mp hq with hq | hq
  · cases x with
    | none => cases hq
    | some x =>
      rw [Option.elim_some] at hq ⊢
      cases hwho : cardTokenCloser tx card customer x with
      | none => rw [hwho] at hq; cases hq
      | some who =>
        rw [hwho, Option.elim_some, List.mem_singleton, Payment.empty.injEq] at hq
        obtain ⟨-, rfl, rfl⟩ := hq
        exact ⟨_, List.mem_append_left _ (List.mem_append_right _ List.mem_cons_self), who.2, rfl⟩
  · rw [List.mem_singleton, Payment.empty.injEq] at hq
    obtain ⟨-, rfl, rfl⟩ := hq
    exact ⟨_, List.mem_append_right _ List.mem_cons_self, card, rfl⟩

theorem closeMint_refund (tx : Tx) {voucher mint rentPayer : Address} {m : Mint Address}
    (hq : Payment.empty .refund a w ∈ closeMintPayments voucher mint rentPayer m) :
    ∃ k ∈ closeMintCalls tx voucher mint rentPayer m, ∃ auth, k.op = .close a w auth := by
  unfold closeMintPayments at hq
  unfold closeMintCalls
  split at hq
  · next hc =>
    rw [List.mem_singleton, Payment.empty.injEq] at hq
    obtain ⟨-, rfl, rfl⟩ := hq
    exact ⟨_, by rw [if_pos hc]; exact List.mem_cons_self, voucher, rfl⟩
  · cases hq

/-- A refund comes from an account of the program that the call closes, whose payee is no account, or from
what the token program closes for it. -/
theorem Effect.refund_closes (h : Effect P tx s action cs calls ps) (hq : Payment.empty .refund a w ∈ ps) :
    (¬s.InUse w ∧ ∃ k ∈ cs, k.addr = a ∧ k.after = none ∧ k.before.isSome = true) ∨
      ∃ k ∈ calls, ∃ auth, k.op = .close a w auth := by
  cases h with
  | closeBusiness _ hu | reclaimExpiredReceipt _ hu =>
    rw [List.mem_singleton, Payment.empty.injEq] at hq
    obtain ⟨-, rfl, rfl⟩ := hq
    exact .inl ⟨hu, _, List.mem_cons_self, rfl, rfl, rfl⟩
  | claimReceipt _ _ _ _ hu =>
    rcases List.mem_append.mp hq with hq | hq
    · split at hq
      · simp at hq
      · cases hq
    · rw [List.mem_singleton, Payment.empty.injEq] at hq
      obtain ⟨-, rfl, rfl⟩ := hq
      exact .inl ⟨hu, _, List.mem_cons_of_mem _ List.mem_cons_self, rfl, rfl, rfl⟩
  | closeDeadCard _ _ hu =>
    rw [List.mem_singleton, Payment.empty.injEq] at hq
    obtain ⟨-, rfl, rfl⟩ := hq
    exact .inl ⟨hu, _, List.mem_cons_of_mem _ List.mem_cons_self, rfl, rfl, rfl⟩
  | retireIdleCardNft => exact .inr (burnCardNft_refund hq)
  | mintVoucher =>
    rcases List.mem_append.mp hq with hq | hq
    · simp at hq
    · split at hq
      · next hr =>
        obtain ⟨k, hk, hop⟩ := burnCardNft_refund hq
        exact .inr ⟨k, List.mem_append_right _ (by rw [if_pos hr]; exact hk), hop⟩
      · cases hq
  | @transferVoucher accs _ _ x =>
    rcases List.mem_append.mp hq with hq | hq
    · split at hq
      · simp at hq
      · cases hq
    · cases hwho : fromTokenCloser tx accs x with
      | none => rw [hwho] at hq; cases hq
      | some who =>
        rw [hwho, Option.elim_some, List.mem_singleton, Payment.empty.injEq] at hq
        obtain ⟨-, rfl, rfl⟩ := hq
        unfold transferVoucherCalls
        rw [hwho, Option.elim_some]
        exact .inr ⟨_, List.mem_append_right _ (List.mem_cons_of_mem _ List.mem_cons_self), who.2, rfl⟩
  | @redeemVoucher accs _ _ m _ x _ _ _ _ _ _ _ _ _ hu =>
    rcases List.mem_append.mp hq with hq | hq
    · rcases List.mem_append.mp hq with hq | hq
      · split at hq
        · next hc =>
          rw [List.mem_singleton, Payment.empty.injEq] at hq
          obtain ⟨-, rfl, rfl⟩ := hq
          have hmem : ⟨pdaCtx tx accs.voucher, .close accs.holderToken accs.rentPayer accs.voucher⟩ ∈
              redeemCalls tx accs m.decimals x := by simp [redeemCalls, hc]
          exact .inr ⟨_, List.mem_append_left _ hmem, accs.voucher, rfl⟩
        · cases hq
      · obtain ⟨k, hk, hop⟩ := closeMint_refund tx hq
        exact .inr ⟨k, List.mem_append_right _ hk, hop⟩
    · rw [List.mem_singleton, Payment.empty.injEq] at hq
      obtain ⟨-, rfl, rfl⟩ := hq
      exact .inl ⟨hu, _, List.mem_cons_of_mem _ List.mem_cons_self, rfl, rfl, rfl⟩
  | @closeExpiredVoucher accs _ _ m _ _ x _ _ _ hu =>
    rcases List.mem_append.mp hq with hq | hq
    · rcases List.mem_append.mp hq with hq | hq
      · cases x with
        | none => cases hq
        | some x =>
          rw [Option.elim_some] at hq
          split at hq
          · next hc =>
            rw [List.mem_singleton, Payment.empty.injEq] at hq
            obtain ⟨-, rfl, rfl⟩ := hq
            have hmem : ⟨pdaCtx tx accs.voucher, .close accs.holderToken accs.rentPayer accs.voucher⟩ ∈
                burnExpiredCalls tx accs m.decimals (some x) := by simp [burnExpiredCalls, hc]
            exact .inr ⟨_, List.mem_append_left _ hmem, accs.voucher, rfl⟩
          · cases hq
      · obtain ⟨k, hk, hop⟩ := closeMint_refund tx hq
        exact .inr ⟨k, List.mem_append_right _ hk, hop⟩
    · rw [List.mem_singleton, Payment.empty.injEq] at hq
      obtain ⟨-, rfl, rfl⟩ := hq
      exact .inl ⟨hu, _, List.mem_cons_of_mem _ List.mem_cons_self, rfl, rfl, rfl⟩
  | @migrateCard _ _ _ _ _ _ _ n hu =>
    rcases List.mem_cons.mp hq with hq | hq
    · cases hq
    · cases n with
      | none => cases hq
      | some x =>
        rw [Option.elim_some, List.mem_singleton, Payment.empty.injEq] at hq
        obtain ⟨-, rfl, rfl⟩ := hq
        exact .inl ⟨hu, _, List.mem_cons_of_mem _ List.mem_cons_self, rfl, rfl, rfl⟩
  | _ => simp at hq

/-- No call opens what it closes. -/
theorem Effect.closes_apart (h : Effect P tx s (.program i) cs calls ps) {k : TokenCall} (hk : k ∈ calls)
    {dest auth : Address} (hop : k.op = .close a dest auth) : ∀ k ∈ calls, k.op.opens ≠ some a := by
  cases h with
  | mintCardNft =>
    simp only [mintCardNftCalls, List.mem_cons, List.not_mem_nil, or_false] at hk
    rcases hk with rfl | rfl | rfl | rfl | rfl | rfl <;> cases hop
  | retireIdleCardNft => exact forall_burnCardNftCalls (by simp) (by simp) (by simp) (by simp)
  | @mintVoucher accs _ _ _ _ _ _ _ _ _ _ _ destination _ _ _ _ _ _ _ hm _ hct _ _ _ _ hcm hat =>
    have ha : a = accs.cardToken ∨ a = accs.cardMint := by
      rcases List.mem_append.mp hk with hk | hk
      · simp only [mintVoucherCalls, List.mem_cons, List.not_mem_nil, or_false] at hk
        rcases hk with rfl | rfl | rfl | rfl | rfl | rfl <;> cases hop
      · split at hk
        · refine forall_burnCardNftCalls
            (Q := fun k => k.op = .close a dest auth → a = accs.cardToken ∨ a = accs.cardMint)
            ?_ ?_ ?_ ?_ k hk hop <;> simp +contextual [eq_comm]
        · cases hk
    have hmint : accs.mint ≠ a := by
      rw [findProgramAddress_eq hm]
      rcases ha with rfl | rfl
      · rw [hat]
        simp
      · rw [findProgramAddress_eq hcm]
        simp
    have htoken : accs.customerToken ≠ a := by
      rw [hct]
      rcases ha with rfl | rfl
      · rw [hat, findProgramAddress_eq hm, findProgramAddress_eq hcm]
        exact fun he => by cases (Address.ata.inj he).2
      · rw [findProgramAddress_eq hcm]
        simp
    rw [List.forall_mem_append]
    constructor
    · simp [mintVoucherCalls, hmint, htoken]
    · split
      · exact forall_burnCardNftCalls (by simp) (by simp) (by simp) (by simp)
      · simp
  | presentVoucher => exact forall_presentVoucherCalls (by simp) (by simp)
  | @transferVoucher accs _ m x opens _ _ _ _ _ _ _ hx _ _ _ _ _ _ hopens =>
    have ha : accs.fromToken = a :=
      forall_transferVoucherCalls (Q := fun k => k.op = .close a dest auth → accs.fromToken = a) (by simp)
        (by simp)
        (by simp +contextual) (by simp +contextual) k hk hop
    have hthere : s.InUse a := ha ▸ State.inUse_iff.mpr (.inr (.inl (Tokens.inUse_of_account hx)))
    refine forall_transferVoucherCalls (fun ho => ?_) (by simp) (by simp) (by simp)
    simp only [Op.opens, ne_eq, Option.some.injEq]
    intro heq
    subst heq
    exact hopens.mp ho hthere
  | redeemVoucher =>
    rw [List.forall_mem_append]
    exact ⟨forall_redeemCalls (by simp) (by simp) (by simp), forall_closeMintCalls (by simp)⟩
  | closeExpiredVoucher =>
    rw [List.forall_mem_append]
    exact ⟨forall_burnExpiredCalls (by simp) (by simp) (by simp), forall_closeMintCalls (by simp)⟩
  | cancelPresentation => simp
  | _ => cases hk

/-- **What is refunded was there and is closed**, and goes elsewhere. -/
theorem Step.refunded (h : Step P s c s' cs calls ps) (ho : s.OneOwner) (hi : c.action = .program i)
    (hq : Payment.empty .refund a w ∈ ps) : s.Held a ∧ ¬s'.Held a ∧ a ≠ w := by
  have heff := h.effect
  rw [hi] at heff
  rcases heff.refund_closes hq with ⟨hfree, k, hk, rfl, hafter, hbefore⟩ | ⟨k, hk, auth, hop⟩
  · obtain ⟨r, hr⟩ := Option.isSome_iff_exists.mp hbefore
    have hrecord := (h.changed.before k hk).trans hr
    refine ⟨State.held_of_record? hrecord, ?_, fun he => hfree (he ▸ State.inUse_of_record? hrecord)⟩
    intro hor
    rcases hor with hp | ht
    · rw [h.changed.closed k hk hafter] at hp
      cases hp
    · have hno : ¬s.tokens.InUse k.addr := fun hthere => by
        rw [State.record?, ho.program _ hthere] at hrecord
        cases hrecord
      refine run_invariant (fun t => ¬t.InUse k.addr)
        (fun d hd {_ _} hi hdid => hdid.not_inUse hi fun hopens => ?_)
        h.tokens hno ht
      exact heff.opens_free d hd hopens (State.inUse_of_record? hrecord)
  · obtain ⟨hthere, hgone, hne⟩ := run_closes h.tokens ho.oneKind (heff.closes_apart hk hop) hk hop
    refine ⟨.inr hthere, ?_, hne⟩
    intro hor
    rcases hor with hp | ht
    · obtain ⟨data, hdata⟩ := Option.isSome_iff_exists.mp hp
      rcases h.program_was hdata with hsome | ⟨hfree, -⟩
      · rw [ho.program _ hthere] at hsome
        cases hsome
      · exact hfree (State.inUse_iff.mpr (.inr (.inl hthere)))
    · exact hgone ht

/-! ## Who pays -/

/-- Rent of `payer` for an account the call opens, or brings up to date. -/
def RentOf (tx : Tx) (s : State) (action : Action) (payer a : Address) : Prop :=
  Opens tx s action payer a ∨ Grows action payer a ∧ payer ∈ tx.signers

theorem Effect.rent (h : Effect P tx s action cs calls (bill tops closing w)) {t : TopUp} (ht : t ∈ tops) :
    RentOf tx s action t.payer t.addr := by
  have hmem : Payment.topUp .deposit t.payer t.addr t.rent ∈ bill tops closing w :=
    List.mem_append_left _
      (List.mem_map_of_mem (f := fun t : TopUp => Payment.topUp .deposit t.payer t.addr t.rent) ht)
  rcases h.pays with hpays | ⟨payer, b, rent, he, -⟩
  · cases hpays _ hmem with
    | deposit ho => exact .inl ho
    | growth hg hs => exact .inr ⟨hg, hs⟩
  · rw [he, List.mem_singleton] at hmem
    cases hmem

/-- What a relayer pays for is there afterwards. -/
theorem Step.rent_held (h : Step P s c s' cs calls ps) {payer : Address}
    (hr : RentOf c.tx s c.action payer a) :
    s'.Held a := by
  rcases hr with ho | ⟨hg, -⟩
  · exact h.opens_held ho
  · obtain ⟨tx, action⟩ := c
    cases hg with
    | card | business =>
      obtain ⟨he, hc, -⟩ := h
      cases he
      exact State.held_of_record? (hc.record? List.mem_cons_self)

/-- A wallet that is about to be emptied itself pays nothing for the account that receives a voucher. -/
theorem transferVoucher_relayer {accs : TransferVoucher} {m : Mint Address}
    (h : transferVoucher P tx accs s = .ok s')
    (hm : s.tokens.mints.lookup accs.mint = some m) (hu : s.InUse accs.relayer)
    (hfree : ¬s.InUse accs.toToken) :
    P.minimumBalance (tokenAccountLen m.nonTransferable) ≤ s.lamports accs.toToken := by
  simp only [transferVoucher, Except.bind_eq_ok, load_eq_ok, loadMint_eq_ok, loadToken_eq_ok, signer_eq_ok,
    systemAccount_eq_ok, exists_const] at h
  obtain ⟨_, _, _, _, _, _, _, _, _, s₁, hrecv, -⟩ := h
  rw [receivingToken, if_neg hfree] at hrecv
  simp only [createAssociatedToken, createAddress, Except.bind_eq_ok, check_eq_ok, loadMint_eq_ok,
    exists_const] at hrecv
  obtain ⟨-, m', hm', s₂, ⟨-, htop⟩, -⟩ := hrecv
  rw [hm, Option.some.injEq] at hm'
  subst hm'
  rcases transferLamports_eq_ok.mp htop with ⟨h0, -⟩ | ⟨-, -, hno, -⟩
  · omega
  · exact absurd hu hno

/-- What is due a refund cannot sign, but for accounts of a voucher's token. -/
theorem Refundable.derived (h : Refundable P s action a w) (hw : s.WellPlaced) : a.canSign = false ∨
    (∃ accs, action = .program (.transferVoucher accs) ∧ a = accs.fromToken) ∨
      ∀ payer b, ¬PaidFor action payer b ∧ ¬Grows action payer b := by
  have hnft : ∀ {card c}, NftAccount P card c a → a.canSign = false := by
    intro card c hex
    obtain ⟨mint, bump, hf, rfl | rfl⟩ := hex
    · rw [findProgramAddress_eq hf]
      rfl
    · rfl
  cases h with
  | claimed hr | reclaimed hr =>
    obtain ⟨hash, hat⟩ := hw.receipt (State.receipt?_eq_some.mp hr)
    rw [hat]
    exact .inl rfl
  | cashedIn _ hn | nftRetired _ hn => exact .inl (hnft hn)
  | transferred => exact .inr (.inl ⟨_, rfl, rfl⟩)
  | redeemed | expired => exact .inr (.inr fun payer b => ⟨(fun h => by cases h), (fun h => by cases h)⟩)
  | dead hc =>
    rw [hw.card (State.card?_eq_some.mp hc)]
    exact .inl rfl
  | shop hb =>
    rw [hw.business (State.business?_eq_some.mp hb)]
    exact .inl rfl
  | oldNft hn =>
    obtain ⟨mint, hat⟩ := hw.placed (State.face?_of_record? hn)
    rw [hat]
    exact .inl rfl

/-- The rent of a bill. -/
theorem Effect.rent_topUp {accs : TransferVoucher}
    (h : Effect P tx s (.program (.transferVoucher accs)) cs calls ps)
    {payer b : Address} {rent : Nat} (hq : Payment.topUp .deposit payer b rent ∈ ps) :
    payer = accs.relayer ∧ ¬s.InUse accs.toToken ∧ b = accs.toToken ∧ ∃ m,
    s.tokens.mints.lookup accs.mint = some m ∧
      rent = P.minimumBalance (tokenAccountLen m.nonTransferable) := by
  cases h with
  | @transferVoucher _ v m x opens _ hm _ _ _ _ _ _ _ _ _ _ _ _ hopens =>
    rcases List.mem_append.mp hq with hq | hq
    · split at hq
      · next ho =>
        rw [List.mem_singleton, Payment.topUp.injEq] at hq
        obtain ⟨-, rfl, rfl, rfl⟩ := hq
        exact ⟨rfl, hopens.mp ho, rfl, m, hm, rfl⟩
      · cases hq
    · cases hwho : fromTokenCloser tx accs x with
      | none => rw [hwho] at hq; cases hq
      | some who =>
        rw [hwho, Option.elim_some, List.mem_singleton] at hq
        cases hq

/-- A wallet that pays for an account is not closed by the same call, unless there is nothing left to pay. -/
theorem Step.payers_stay (h : Step P s c s' cs calls (bill tops closing w)) (hw : s.WellPlaced)
    (hp : perform P c s = .ok s') (hdue : ∀ a ∈ closing, Refundable P s c.action a w) :
    (∀ t ∈ tops, t.payer ∉ closing) ∨ ∀ t ∈ tops, t.rent ≤ s.lamports t.addr := by
  by_cases hno : ∀ t ∈ tops, t.payer ∉ closing
  · exact .inl hno
  push Not at hno
  obtain ⟨t, ht, hmem⟩ := hno
  have hrent := h.effect.rent ht
  rcases (hdue _ hmem).derived hw with hder | ⟨accs, hact, hfrom⟩ | hnone
  · have hsigned : t.payer ∈ c.tx.signers := hrent.elim Opens.signed And.right
    rw [h.signers _ hsigned] at hder
    cases hder
  · right
    obtain ⟨tx, action⟩ := c
    subst hact
    have hmem : ∀ u ∈ tops, Payment.topUp .deposit u.payer u.addr u.rent ∈ bill tops closing w := fun u hu =>
      List.mem_append_left _ (List.mem_map_of_mem
        (f := fun u : TopUp => Payment.topUp .deposit u.payer u.addr u.rent) hu)
    obtain ⟨hrelayer, -⟩ := h.effect.rent_topUp (hmem t ht)
    have hu : s.InUse accs.relayer := by
      rw [← hrelayer, hfrom]
      have heff := h.effect
      generalize bill tops closing w = ps at heff
      cases heff with
      | transferVoucher _ _ _ _ _ _ _ hx =>
        exact State.inUse_iff.mpr (.inr (.inl (Tokens.inUse_of_account hx)))
    intro u hu'
    obtain ⟨-, hfree, haddr, m, hm, hrent⟩ := h.effect.rent_topUp (hmem u hu')
    rw [haddr, hrent]
    exact transferVoucher_relayer hp hm hu hfree
  · rcases hrent with ho | ⟨hg, -⟩
    · exact absurd ho.paidFor (hnone _ _).1
    · exact absurd hg (hnone _ _).2

theorem Run.oneOwner (h : Run P start hist s) (hw : start.WellPlaced) (ho : start.OneOwner) : s.OneOwner :=
  (Run.induct (I := fun _ s => s.OneOwner) h hw ho fun _ _ ho hst => hst.oneOwner ho).2

/-! ## Every refund -/

/-- **No call can redirect a refund.** Each account a call closes is emptied, once and in full, to the wallet
that the governing account named before the call; besides that only the relayer's rent for new accounts moves,
so no other balance changes and nothing is made or lost. -/
theorem refunds_on_record (h : Run P start hist s) (hw : start.WellPlaced) (ho : start.OneOwner)
    (hn : Next P s c s')
    (hi : c.action = .program i) : ∃ deposits refunds : List (Transfer Address),
      Transfer.Balances (deposits ++ refunds) s.lamports s'.lamports ∧
      (∀ x ∈ deposits, RentOf c.tx s c.action x.source x.dest) ∧
      (refunds.map Transfer.source).Nodup ∧
      (∀ a, a ∈ refunds.map Transfer.source ↔ s.Held a ∧ ¬s'.Held a) ∧
      (∀ x ∈ refunds, x.amount = s.lamports x.source ∧ s'.lamports x.source = 0 ∧
        Refundable P s c.action x.source x.dest) ∧
      ∀ F : Finset Address, (∀ x ∈ deposits ++ refunds, x.source ∈ F ∧ x.dest ∈ F) →
        ∑ a ∈ F, s'.lamports a = ∑ a ∈ F, s.lamports a := by
  have hws := h.wellPlaced hw
  have hone := Run.oneOwner h hw ho
  obtain ⟨cs, calls, ps, hst⟩ := hn.step hws
  have heff := hst.effect
  rw [hi] at heff
  obtain ⟨tops, closing, w, rfl, hnodup, hdue⟩ := heff.billed hone
  have hclosed : ∀ a ∈ closing, s.Held a ∧ ¬s'.Held a ∧ a ≠ w := fun a ha =>
    hst.refunded hone hi (List.mem_append_right _ (List.mem_map_of_mem (f :=
      fun a => Payment.empty .refund a w) ha))
  have hwout : w ∉ closing := fun hmem => (hclosed w hmem).2.2 rfl
  have hrent : ∀ t ∈ tops, RentOf c.tx s c.action t.payer t.addr := fun t ht => hst.effect.rent ht
  have haddr : ∀ t ∈ tops, t.addr ∉ closing := fun t ht hmem =>
    (hclosed _ hmem).2.1 (hst.rent_held (hrent t ht))
  have hpayer := hst.payers_stay hws hn.2 (by rw [hi]; exact hdue)
  obtain ⟨deposits, hdep, hbal⟩ := settle_bill hst.funded hnodup hwout haddr hpayer
  have hlamports : (s.purse.settle (bill tops closing w)).lamports = s'.lamports :=
    (congrArg Purse.lamports hst.purse).symm
  rw [hlamports] at hbal
  refine ⟨deposits, refunds s.purse closing w, hbal, ?_, ?_, ?_, ?_, fun F hF => hbal.total hF⟩
  · intro x hx
    obtain ⟨t, ht, hs, hd⟩ := hdep x hx
    rw [hs, hd]
    exact hrent t ht
  · rwa [map_source_refunds]
  · intro a
    rw [map_source_refunds]
    refine ⟨fun ha => ⟨(hclosed a ha).1, (hclosed a ha).2.1⟩, fun ⟨hthere, hgone⟩ => ?_⟩
    by_contra hno
    refine hgone (hst.held_kept hthere ?_)
    intro q hq hex
    obtain ⟨kind, dest, rfl, -⟩ := hex
    rcases List.mem_append.mp hq with hq | hq
    · obtain ⟨t, -, he⟩ := List.mem_map.mp hq
      cases he
    · obtain ⟨b, hb, he⟩ := List.mem_map.mp hq
      cases he
      exact hno hb
  · intro x hx
    obtain ⟨a, ha, rfl⟩ := List.mem_map.mp hx
    refine ⟨rfl, ?_, by rw [hi]; exact hdue a ha⟩
    refine hbal.emptied (List.mem_append_right _ hx) rfl fun y hy hya => ?_
    rcases List.mem_append.mp hy with hy | hy
    · obtain ⟨t, ht, -, hd⟩ := hdep y hy
      exact haddr t ht (hd ▸ hya ▸ ha)
    · obtain ⟨b, -, rfl⟩ := List.mem_map.mp hy
      have hwa : w = a := hya
      exact hwout (hwa ▸ ha)

theorem Sample.start_oneOwner : Sample.start.OneOwner := ⟨fun _ _ => rfl, fun _ => .inl rfl⟩

/-- A claim closes the receipt: its rent goes to whoever paid for it. -/
theorem refunds_on_record_claimed : ∃ hist s s', Run Sample.platform Sample.start hist s ∧
    Next Sample.platform s (Sample.claim 1020 9 7) s' ∧
    (s.receipt? (.receipt Sample.shop (Sample.hash 7) 255)).isSome = true ∧
    ∃ deposits refunds : List (Transfer Address),
    Transfer.Balances (deposits ++ refunds) s.lamports s'.lamports ∧
      ∀ x ∈ refunds, Refundable Sample.platform s (Sample.claim 1020 9 7).action x.source x.dest := by
  obtain ⟨hist, s, hrun, -, hp⟩ := Leads.run (P := Sample.platform) (s := Sample.start)
    (l := [Sample.register 1000 1 0, Sample.issue 1010 7])
    (p := fun s => (s.receipt? (.receipt Sample.shop (Sample.hash 7) 255)).isSome &&
      Leads Sample.platform s [Sample.claim 1020 9 7] fun _ => true) (by decide +kernel)
  obtain ⟨hthere, hp⟩ := Bool.and_eq_true_iff.mp hp
  obtain ⟨s', hn, -⟩ := Leads.step hp
  obtain ⟨deposits, refunds, hbal, -, -, -, hdue, -⟩ :=
    refunds_on_record hrun Sample.start_empty.wellPlaced Sample.start_oneOwner hn rfl
  exact ⟨hist, s, s', hrun, hn, hthere, deposits, refunds, hbal, fun x hx => (hdue x hx).2.2⟩

end Passdari
