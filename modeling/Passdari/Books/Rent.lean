/-
Where the rent goes. Every refund goes to the wallet on record, and that is
the wallet that paid, as long as the NFT of a card and the account of a
gifted voucher are paid for by the wallet on record too.
-/
import Passdari.Books.CardTokens

namespace Passdari

open Wire Token2022

variable {P : Platform} {tx : Tx} {s s' start : State} {hist : History} {c : Call} {cs : List Change}
  {calls : List TokenCall} {ps : List Payment} {action : Action} {a w payer M X : Address} {m : Mint Address}
  {t t' : Tokens Address}

/-! ## What is there -/

/-- The program or the token program has an account at `a`. -/
def State.Held (s : State) (a : Address) : Prop := (s.program.lookup a).isSome = true ∨ s.tokens.InUse a

theorem State.Held.inUse (h : s.Held a) : s.InUse a := State.inUse_iff.mpr (h.imp_right .inl)

theorem State.held_of_record? {r : Record} (h : s.record? a = some r) : s.Held a := by
  rw [State.record?, Option.bind_eq_some_iff] at h
  obtain ⟨data, hd, -⟩ := h
  exact .inl (by rw [hd]; rfl)

theorem Tokens.inUse_of_account {x : Account Address} (hx : t.accounts.lookup X = some x) : t.InUse X := by
  by_contra hn
  rw [(not_inUse.mp hn).2] at hx
  cases hx

/-- An account goes only when it is emptied. -/
theorem Step.held_kept (h : Step P s c s' cs calls ps) (ha : s.Held a) (hno : ∀ q ∈ ps, ¬q.Empties a) :
    s'.Held a := by
  rcases ha with ha | ha
  · left
    rcases h.changed.lookup a with ⟨-, hsame⟩ | ⟨k, hk, rfl, ⟨hafter, -⟩ | ⟨r, rest, -, hdata, -⟩⟩
    · rwa [hsame]
    · obtain ⟨q, hq, he⟩ := h.effect.closed_paid k hk hafter
      exact absurd he (hno q hq)
    · rw [hdata]
      rfl
  · refine .inr (run_inUse h.tokens ha fun k hk dest auth hop => ?_)
    obtain ⟨q, hq, he⟩ := h.effect.closes_paid hk hop
    exact hno q hq he

/-- What a relayer pays for is there afterwards. -/
theorem Step.opens_held (h : Step P s c s' cs calls ps) (ho : Opens c.tx s c.action payer a) : s'.Held a := by
  obtain ⟨tx, action⟩ := c
  obtain ⟨hp, hfree, -, -⟩ := ho
  cases hp with
  | counter | business =>
    obtain ⟨he, hc, -⟩ := h
    cases he
    exact State.held_of_record? (hc.record? List.mem_cons_self)
  | receipt =>
    obtain ⟨he, hc, -⟩ := h
    cases he
    exact State.held_of_record? (hc.record? (List.mem_cons_of_mem _ List.mem_cons_self))
  | card | voucher =>
    obtain ⟨he, hc, -⟩ := h
    cases he
    exact State.held_of_record?
      (hc.record? (List.mem_cons_of_mem _ (List.mem_cons_of_mem _ List.mem_cons_self)))
  | cardMint =>
    obtain ⟨m, _, hm, -⟩ := h.cardNft_new
    exact .inr (Tokens.inUse_of_mint hm)
  | cardToken =>
    obtain ⟨_, _, _, -, -, -, -, hat, -, -⟩ := h.mintCardNft
    obtain ⟨_, y, -, -, hy, -⟩ := h.cardNft_new
    rw [hat]
    exact .inr (Tokens.inUse_of_account hy)
  | voucherMint =>
    obtain ⟨_, -, hm, -⟩ := h.minted
    exact .inr (Tokens.inUse_of_mint hm)
  | voucherToken =>
    obtain ⟨_, -, -, hy⟩ := h.minted
    exact .inr (Tokens.inUse_of_account hy)
  | @receivingToken accs =>
    obtain ⟨he, -, hrun, -⟩ := h
    cases he with
    | @transferVoucher _ _ m x opens _ _ _ _ _ _ _ hx _ _ _ _ _ _ hopens =>
      rw [hopens.mpr hfree] at hrun
      obtain ⟨t, hinit, hrest⟩ := run_cons_eq_ok.mp hrun
      have hthere : t.InUse accs.toToken := by
        generalize s.tokens = t₀ at hinit
        cases hinit with
        | initializeAccount => exact Tokens.inUse_of_account (Store.lookup_insert_self _ _ _)
      refine .inr (run_inUse hrest hthere fun k hk dest auth hop => ?_)
      -- what is closed is the sender's account, and that was there before
      have hk' : k ∈ transferVoucherCalls tx accs true m.decimals x := List.mem_cons_of_mem _ hk
      have hne : accs.fromToken ≠ accs.toToken := fun he =>
        hfree (State.inUse_iff.mpr (.inr (.inl (Tokens.inUse_of_account (he ▸ hx)))))
      have hother : ∀ k ∈ transferVoucherCalls tx accs true m.decimals x,
        k.op ≠ .close accs.toToken dest auth :=
        forall_transferVoucherCalls (by simp) (by simp) (by simp [hne]) (by simp [hne])
      exact hother k hk' hop

/-- Where there are deposits, there is an account. -/
theorem Step.held (hi : ∀ a, depositsOn a s.journal ≠ [] → s.Held a) (hs : s.Current)
    (h : Step P s c s' cs calls ps)
    (hd : depositsOn a s'.journal ≠ []) : s'.Held a := by
  have hpurse : s'.journal = (s.purse.settle ps).journal := congrArg Purse.journal h.purse
  rw [hpurse] at hd
  rcases depositsOn_before (h.effect.sound h.signers) hd with ⟨hbefore, hno⟩ | ⟨q, hq, payer, rent, rfl⟩
  · exact h.held_kept (hi a hbefore) hno
  · rcases h.effect.pays with hpays | ⟨_, _, _, rfl, -⟩
    · obtain ⟨hnoCard, hnoBusiness⟩ := h.effect.not_migration hs
      cases hpays _ hq with
      | deposit ho => exact h.opens_held ho
      | growth hg =>
        generalize haction : c.action = action at hg
        cases hg with
        | card => exact absurd haction (hnoCard _)
        | business => exact absurd haction (hnoBusiness _)
    · rw [List.mem_singleton] at hq
      cases hq

/-! ## Who pays for what -/

def Address.isRecord : Address → Bool
  | .counter .. | .business .. | .card .. | .receipt .. | .voucher .. | .cardNft .. => true
  | _ => false

/-- What a relayer pays for, by its address. -/
inductive Place (s : State) (a : Address) : Action → Address → Prop
  | record {i relayer} : a.isRecord = true → Place s a i relayer
  | cardNft {accs uri} : accs.mint.isCardMint = true → (a = accs.mint ∨ a = .ata accs.customer accs.mint) →
      Place s a (.program (.mintCardNft accs uri)) accs.relayer
  | voucher {accs voucherId uri} : accs.mint.isVoucherMint = true → ¬s.InUse accs.mint →
      (a = accs.mint ∨ a = .ata accs.customer accs.mint) →
      Place s a (.program (.mintVoucher accs voucherId uri)) accs.relayer
  | gift {accs v} : s.voucher? accs.voucher = some v → v.mint = accs.mint → accs.toToken = a →
      a = .ata accs.newOwner accs.mint → Place s a (.program (.transferVoucher accs)) accs.relayer

theorem Effect.place (h : Effect P tx s action cs calls ps) (hp : PaidFor action payer a) :
    Place s a action payer := by
  cases hp with
  | counter =>
    cases h with
    | initializeCounter _ hf => exact .record (by rw [findProgramAddress_eq hf]; rfl)
  | business =>
    cases h with
    | registerBusiness _ _ hf => exact .record (by rw [findProgramAddress_eq hf]; rfl)
  | receipt =>
    cases h with
    | issueReceipt _ _ _ _ _ hf => exact .record (by rw [findProgramAddress_eq hf]; rfl)
  | card =>
    cases h with
    | claimReceipt _ _ _ _ _ hf => exact .record (by rw [findProgramAddress_eq hf]; rfl)
  | cardMint =>
    cases h with
    | mintCardNft _ _ _ _ _ _ _ hf => exact .cardNft (by rw [findProgramAddress_eq hf]; rfl) (.inl rfl)
  | cardToken =>
    cases h with
    | mintCardNft _ _ _ _ _ _ _ hf _ _ hat =>
      exact .cardNft (by rw [findProgramAddress_eq hf]; rfl) (.inr hat)
  | voucher =>
    cases h with
    | mintVoucher _ _ _ _ hf => exact .record (by rw [findProgramAddress_eq hf]; rfl)
  | voucherMint =>
    cases h with
    | mintVoucher _ _ _ _ _ _ hf hfree =>
      exact .voucher (by rw [findProgramAddress_eq hf]; rfl) hfree (.inl rfl)
  | voucherToken =>
    cases h with
    | mintVoucher _ _ _ _ _ _ hf hfree hat =>
      exact .voucher (by rw [findProgramAddress_eq hf]; rfl) hfree (.inr hat)
  | receivingToken =>
    cases h with
    | transferVoucher hv _ _ _ _ hmint _ _ _ _ _ _ _ hat =>
      exact .gift (State.voucher?_eq_some.mpr hv) hmint rfl hat

theorem PaidFor.payer_eq {payer' a' : Address} (h : PaidFor action payer a) (h' : PaidFor action payer' a') :
    payer' = payer := by
  cases h <;> cases h' <;> rfl

/-- The wallets on record pay: for an NFT of a card the one the card names, for the account of a new holder
the one the voucher names; and no account is left over from an earlier voucher that somebody else paid for. -/
def PaysAsRecorded (st : Taken) : Prop :=
  match st.label.action with
  | .program (.mintCardNft accs _) => ∀ x, st.pre.card? accs.card = some x → accs.relayer = x.rentPayer
  | .program (.transferVoucher accs) =>
    ∀ v, st.pre.voucher? accs.voucher = some v → ¬st.pre.InUse accs.toToken → accs.relayer = v.rentPayer
  | .program (.mintVoucher accs _ _) => ∀ X x, st.pre.tokens.accounts.lookup X = some x → x.mint = accs.mint →
      PaidBy st.pre.journal X accs.relayer
  | _ => True

theorem Address.not_voucherMint (hM : M.isCardMint = true) : M.isVoucherMint = false := by
  cases M <;> first | rfl | cases hM

/-- A deposit on the NFT of a card is made by the wallet that the card names. -/
theorem Step.nft_payer (ht : s.VoucherTokens P) (h : Step P s c s' cs calls ps)
    (hpay : PaysAsRecorded ⟨s, c, s'⟩)
    (ho : Opens c.tx s c.action payer a) {A : Address} {n : UInt32} {bump : UInt8} {o : Address}
    (ha : a = .cardMint A n bump ∨ a = .ata o (.cardMint A n bump)) :
    ∃ x, s.card? A = some x ∧ payer = x.rentPayer := by
  obtain ⟨tx, action⟩ := c
  have hplace := h.effect.place ho.paidFor
  have hmint : ∀ {mint owner}, a = mint ∨ a = .ata owner mint → mint ≠ .cardMint A n bump →
      (∀ o m, mint ≠ .ata o m) → False := by
    intro mint owner h hne hata
    rcases ha with rfl | rfl <;> rcases h with h | h
    · exact hne h.symm
    · cases h
    · exact hata _ _ h.symm
    · cases h
      exact hne rfl
  cases hplace with
  | record hr => rcases ha with rfl | rfl <;> cases hr
  | @cardNft accs _ hM hat =>
    obtain ⟨x, bump', _, hx, -, hf, -⟩ := h.mintCardNft
    have hfa := findProgramAddress_eq hf
    by_cases he : accs.mint = .cardMint A n bump
    · rw [he, Address.cardMint.injEq] at hfa
      exact ⟨x, hfa.1 ▸ hx, hpay x hx⟩
    · exact (hmint hat he (by rw [hfa]; exact (by simp))).elim
  | voucher hM _ hat =>
    refine (hmint hat ?_ ?_).elim <;> intros <;> rintro he <;> rw [he] at hM <;> cases hM
  | gift hv hvm _ hat =>
    have hM := ht.isVoucherMint hv
    rw [hvm] at hM
    refine (hmint (.inr hat) ?_ ?_).elim <;> intros <;> rintro he <;> rw [he] at hM <;> cases hM

theorem Step.owed_payer (ht : s.VoucherTokens P) (h : Step P s c s' cs calls ps)
    (hpay : PaysAsRecorded ⟨s, c, s'⟩)
    (howed : Owed P s a w) (ho : Opens c.tx s c.action payer a) : payer = w := by
  have hnot : ∀ {p : Prop}, s.tokens.InUse a → p :=
    fun hu => absurd (State.inUse_iff.mpr (.inr (.inl hu))) ho.free
  have hsame : ∀ {A x M bump}, s.card? A = some x →
    findProgramAddress P (.cardMint A x.nftCycle) = some (M, bump) →
      (a = M ∨ ∃ o, a = .ata o M) → payer = x.rentPayer := by
    intro A x M bump hx hf ha
    rw [findProgramAddress_eq hf] at ha
    have : ∃ y, s.card? A = some y ∧ payer = y.rentPayer := by
      rcases ha with ha | ⟨o, ha⟩
      · exact h.nft_payer ht hpay ho (o := .default) (.inl ha)
      · exact h.nft_payer ht hpay ho (.inr ha)
    obtain ⟨y, hy, hp⟩ := this
    rw [hx, Option.some.injEq] at hy
    rw [hp, hy]
  cases howed with
  | record hr => exact absurd (State.inUse_of_record? hr) ho.free
  | cardMint hx hf => exact hsame hx hf (.inl rfl)
  | cardToken hx hf => exact hsame hx hf (.inr ⟨_, rfl⟩)
  | voucherMint hv =>
    obtain ⟨m, hm, -⟩ := ht.minted _ _ hv
    exact hnot (Tokens.inUse_of_mint hm)
  | voucherToken _ hx => exact hnot (Tokens.inUse_of_account hx)

/-- A record names the payer it named before the step, or is new and names whoever pays for it. -/
theorem Effect.record_payers (hw : s.WellPlaced) (hs : s.Current) (h : Effect P tx s action cs calls ps) :
    ∀ k ∈ cs, ∀ r w, k.after = some r → r.rentPayer? = some w →
      (∃ q, k.before = some q ∧ q.rentPayer? = some w) ∨ Opens tx s action w k.addr := by
  obtain ⟨hnoCard, hnoBusiness⟩ := h.not_migration hs
  cases h with
  | initializeCounter =>
    simp only [List.forall_mem_singleton]
    intro _ w heq
    cases heq
    intro heq'
    cases heq'
  | registerBusiness _ hs hf hfree hok =>
    obtain ⟨-, -, -, rfl⟩ := registerBusinessHandler_eq_ok.mp hok
    simp only [List.forall_mem_singleton]
    intro _ w heq
    cases heq
    intro heq'
    cases heq'
    exact .inr ⟨.business, hfree, hs, by rw [findProgramAddress_eq hf]; rfl⟩
  | updateBusinessConfig _ _ _ _ hok =>
    obtain ⟨-, -, -, rfl⟩ := updateBusinessConfigHandler_eq_ok.mp hok
    simp only [List.forall_mem_singleton]
    intro _ w heq
    cases heq
    intro heq'
    cases heq'
    exact .inl ⟨_, rfl, rfl⟩
  | issueReceipt _ _ _ _ hs hf hfree hok =>
    obtain ⟨-, _, _, _, -, -, -, -, rfl, rfl⟩ := issueReceiptHandler_eq_ok hok
    simp only [List.forall_mem_cons]
    refine ⟨?_, ?_, by simp⟩ <;> rintro _ w ⟨⟩ ⟨⟩
    · exact .inl ⟨_, rfl, rfl⟩
    · exact .inr ⟨.receipt, hfree, hs, by rw [findProgramAddress_eq hf]; rfl⟩
  | @claimReceipt accs secret b b' r bump c' c hb _ _ hs _ hf _ hfree hown _ hok =>
    obtain ⟨-, -, hstamp, _, _, _, -, -, rfl⟩ := claimReceiptHandler_spec (hw.business_ne_default hb) hown hok
    obtain ⟨-, _, _, _, _, -, -, -, -, -, rfl⟩ := stampCard_eq_ok hstamp
    simp only [List.forall_mem_cons]
    refine ⟨?_, by simp, ?_, by simp⟩ <;> rintro _ w ⟨⟩ ⟨⟩
    · exact .inl ⟨_, rfl, rfl⟩
    · cases c with
      | none => exact .inr ⟨.card, hfree rfl, hs, by rw [findProgramAddress_eq hf]; rfl⟩
      | some x => exact .inl ⟨_, rfl, rfl⟩
  | transferStamps _ _ _ _ _ _ _ _ _ hok =>
    obtain ⟨-, _, _, _, _, -, -, -, -, rfl, rfl⟩ := transferStampsHandler_eq_ok hok
    simp only [List.forall_mem_cons]
    refine ⟨?_, ?_, by simp⟩ <;> rintro _ w ⟨⟩ ⟨⟩ <;> exact .inl ⟨_, rfl, rfl⟩
  | mintVoucher _ _ _ hs hf hfree _ _ _ _ _ _ _ _ _ hok =>
    obtain ⟨-, -, hcash, _, _, _, -, -, -, rfl, rfl⟩ := mintVoucherHandler_eq_ok hok
    obtain ⟨_, -, rfl⟩ := cashIn_eq_ok hcash
    simp only [List.forall_mem_cons]
    refine ⟨?_, ?_, ?_, by simp⟩ <;> rintro _ w ⟨⟩ ⟨⟩
    · exact .inl ⟨_, rfl, rfl⟩
    · exact .inl ⟨_, rfl, rfl⟩
    · exact .inr ⟨.voucher, hfree, hs, by rw [findProgramAddress_eq hf]; rfl⟩
  | retireIdleCardNft | transferVoucher =>
    simp only [List.forall_mem_singleton]
    intro _ w heq
    cases heq
    intro heq'
    cases heq'
    exact .inl ⟨_, rfl, rfl⟩
  | closeDeadCard | redeemVoucher | closeExpiredVoucher =>
    simp only [List.forall_mem_cons]
    refine ⟨?_, by simp, by simp⟩
    intro _ w heq
    cases heq
    intro heq'
    cases heq'
    exact .inl ⟨_, rfl, rfl⟩
  | migrateCard => exact absurd rfl (hnoCard _)
  | migrateBusiness => exact absurd rfl (hnoBusiness _)
  | closeBusiness | reclaimExpiredReceipt => simp
  | mintCardNft | presentVoucher | cancelPresentation | pay | handOver | openMint | openToken | closeToken
  | token => simp

/-- A mint or a token account is opened at a free address. -/
theorem Effect.opens_free (h : Effect P tx s action cs calls ps) :
    ∀ k ∈ calls, k.op.opens = some X → ¬s.InUse X := by
  cases h with
  | mintCardNft _ _ _ _ _ _ _ _ _ hfree _ hfree' =>
    simp only [mintCardNftCalls, List.forall_mem_cons, Op.opens, Option.some.injEq]
    refine ⟨?_, by simp, ?_, by simp, by simp, by simp, by simp⟩
    · intro heq
      subst heq
      exact hfree
    · intro heq
      subst heq
      exact hfree'
  | retireIdleCardNft => exact forall_burnCardNftCalls (by simp) (by simp) (by simp) (by simp)
  | mintVoucher _ _ _ _ _ _ _ hfree _ hfree' =>
    rw [List.forall_mem_append]
    constructor
    · simp only [mintVoucherCalls, List.forall_mem_cons, Op.opens, Option.some.injEq]
      refine ⟨?_, ?_, by simp, by simp, by simp, by simp, by simp⟩
      · intro heq
        subst heq
        exact hfree
      · intro heq
        subst heq
        exact hfree'
    · split
      · exact forall_burnCardNftCalls (by simp) (by simp) (by simp) (by simp)
      · simp
  | presentVoucher => exact forall_presentVoucherCalls (by simp) (by simp)
  | transferVoucher _ _ _ _ _ _ _ _ _ _ _ _ _ _ hopens =>
    refine forall_transferVoucherCalls (fun ho => ?_) (by simp) (by simp) (by simp)
    simp only [Op.opens, Option.some.injEq]
    intro heq
    subst heq
    exact hopens.mp ho
  | redeemVoucher =>
    rw [List.forall_mem_append]
    exact ⟨forall_redeemCalls (by simp) (by simp) (by simp),
      forall_closeMintCalls (by simp)⟩
  | closeExpiredVoucher =>
    rw [List.forall_mem_append]
    exact ⟨forall_burnExpiredCalls (by simp) (by simp) (by simp),
      forall_closeMintCalls (by simp)⟩
  | openToken _ hfree | openMint _ hfree =>
    simp only [List.forall_mem_singleton, Op.opens, Option.some.injEq]
    intro heq
    subst heq
    exact hfree
  | @token op _ hop =>
    simp only [List.forall_mem_singleton]
    intro ho
    cases op <;> cases ho <;> cases hop
  | cancelPresentation | closeToken => simp
  | _ => simp

/-! ## The grounds -/

/-- The program's accounts are at the addresses of its records. -/
theorem State.WellPlaced.isRecord (hw : s.WellPlaced) {data : List Byte}
    (h : s.program.lookup a = some data) :
    a.isRecord = true := by
  obtain ⟨f, -, hf⟩ := hw.faced h
  cases f with
  | receipt | cardNft =>
    obtain ⟨_, rfl⟩ := hf
    rfl
  | _ =>
    obtain rfl := hf
    rfl

/-- What is known of the accounts behind the rent. -/
structure Grounds (P : Platform) (s : State) : Prop where
  placed : s.WellPlaced
  current : s.Current
  mints : PlacedMints s.tokens
  vouchers : s.VoucherTokens P
  numbered : s.Numbered P
  nfts : s.CardNfts P
  heldNfts : s.HeldNfts

theorem Run.grounds (h : Run P start hist s) (hs : start.Empty) : Grounds P s :=
  ⟨h.wellPlaced hs.wellPlaced, h.current hs, h.placedMints hs, h.voucherTokens hs, h.numbered hs,
    h.cardNfts hs, h.heldNfts hs⟩

/-- Where no NFT is, nothing is held for one: neither a mint nor an account of the customer's. -/
theorem Grounds.not_held (hg : Grounds P s) {A : Address} {n : UInt32} {bump : UInt8} {o : Address}
    (hnone : s.tokens.mints.lookup (.cardMint A n bump) = none)
    (hacc : s.tokens.accounts.lookup (.ata o (.cardMint A n bump)) = none) :
    ¬s.Held (.cardMint A n bump) ∧ ¬s.Held (.ata o (.cardMint A n bump)) := by
  constructor
  · intro hor
    rcases hor with hp | ht
    · obtain ⟨data, hd⟩ := Option.isSome_iff_exists.mp hp
      cases hg.placed.isRecord hd
    · refine not_inUse.mpr ⟨hnone, ?_⟩ ht
      cases hx : s.tokens.accounts.lookup (.cardMint A n bump) with
      | none => rfl
      | some x => obtain ⟨_, hk⟩ | ⟨_, hk⟩ := hg.vouchers.accounts _ x hx <;> cases hk
  · intro hor
    rcases hor with hp | ht
    · obtain ⟨data, hd⟩ := Option.isSome_iff_exists.mp hp
      cases hg.placed.isRecord hd
    · refine not_inUse.mpr ⟨?_, hacc⟩ ht
      cases hm : s.tokens.mints.lookup (.ata o (.cardMint A n bump)) with
      | none => rfl
      | some m => obtain ⟨_, hk⟩ | hk | hk := hg.mints _ m hm <;> cases hk

/-- No NFT is there of a cycle that its card is not in. -/
theorem Grounds.no_nft (hg : Grounds P s) {A : Address} {n : UInt32} (bump : UInt8) {business o : Address}
    {b : UInt8}
    (hA : A = .card business o b) (hno : ∀ x, s.card? A = some x → x.nftCycle ≠ n) :
    s.tokens.mints.lookup (.cardMint A n bump) = none ∧
      s.tokens.accounts.lookup (.ata o (.cardMint A n bump)) = none := by
  have hmint : s.tokens.mints.lookup (.cardMint A n bump) = none := by
    cases hm : s.tokens.mints.lookup (.cardMint A n bump) with
    | none => rfl
    | some m =>
      obtain ⟨x, _, hx, hf⟩ := (hg.nfts A n bump m hm).current
      have := findProgramAddress_eq hf
      simp only [Address.cardMint.injEq] at this
      exact absurd this.2.1.symm (hno x hx)
  refine ⟨hmint, ?_⟩
  cases hx : s.tokens.accounts.lookup (.ata o (.cardMint A n bump)) with
  | none => rfl
  | some x =>
    subst hA
    obtain ⟨m, hm⟩ := hg.heldNfts _ _ _ _ _ x hx
    rw [hmint] at hm
    cases hm

/-! ## One step -/

/-- The ledger of the rent: deposits are on accounts that are there, and everything owed is owed to its
payer. -/
structure State.RentBooks (P : Platform) (s : State) : Prop where
  held : ∀ a, depositsOn a s.journal ≠ [] → s.Held a
  paid : ∀ a w, Owed P s a w → PaidBy s.journal a w
  covered : Covered s.purse
  returned : RentReturned s.journal

theorem State.RentBooks.vacant (hb : s.RentBooks P) (ha : ¬s.Held a) : PaidBy s.journal a w := by
  have : depositsOn a s.journal = [] := by
    by_contra hd
    exact ha (hb.held a hd)
  rw [PaidBy, this]
  simp

/-- The deposits made in the step on `a` are `w`'s, and so were those before it. -/
def OwedNow (s : State) (c : Call) (a w : Address) : Prop :=
  PaidBy s.journal a w ∧ ∀ payer, Opens c.tx s c.action payer a → payer = w

/-- A wallet that is owed rent on a record after the step is owed it before, or pays it now. -/
theorem Step.owed_record (hg : Grounds P s) (hb : s.RentBooks P) (h : Step P s c s' cs calls ps) {r : Record}
    (hr : s'.record? a = some r) (hw : r.rentPayer? = some w) : Owed P s a w ∨ OwedNow s c a w := by
  by_cases ha : a ∈ cs.map Change.addr
  · obtain ⟨k, hk, rfl⟩ := List.mem_map.mp ha
    rw [h.changed.record? hk] at hr
    rcases h.effect.record_payers hg.placed hg.current k hk r w hr hw with ⟨q, hq, hqw⟩ | ho
    · exact .inl (.record ((h.changed.before k hk).trans hq) hqw)
    · exact .inr ⟨hb.vacant fun hh => ho.free hh.inUse, fun payer ho' => ho.paidFor.payer_eq ho'.paidFor⟩
  · rw [h.changed.record?_frame ha] at hr
    exact .inl (.record hr hw)

/-- The same for the accounts of a card NFT. -/
theorem Step.owed_nft (hg : Grounds P s) (hb : s.RentBooks P) (h : Step P s c s' cs calls ps)
    (hpay : PaysAsRecorded ⟨s, c, s'⟩) {A : Address} {x' : LoyaltyCard} {bump : UInt8}
    (hx' : s'.card? A = some x')
    (hf : findProgramAddress P (.cardMint A x'.nftCycle) = some (M, bump))
    (ha : a = M ∨ a = .ata x'.customer M) :
    Owed P s a x'.rentPayer ∨ OwedNow s c a x'.rentPayer := by
  have hM := findProgramAddress_eq hf
  have hadr := (h.wellPlaced hg.placed).card (State.card?_eq_some.mp hx')
  -- a card in a new cycle has no NFT yet, and who pays for it now is the wallet the card names
  have hnew : (∀ x, s.card? A = some x → x.nftCycle ≠ x'.nftCycle ∧ x'.rentPayer = x.rentPayer) →
      OwedNow s c a x'.rentPayer := by
    intro hno
    obtain ⟨hmint, hacc⟩ := hg.no_nft bump hadr fun x hx => (hno x hx).1
    obtain ⟨hmint, hacc⟩ := hg.not_held hmint hacc
    subst hM
    refine ⟨?_, fun payer ho => ?_⟩
    · rcases ha with rfl | rfl
      · exact hb.vacant hmint
      · exact hb.vacant hacc
    · obtain ⟨x, hx, rfl⟩ := h.nft_payer hg.vouchers hpay ho ha
      exact (hno x hx).2.symm
  rcases h.cardLife hg.placed hg.current A with hsame | hlife
  · have hx := hsame.symm.trans hx'
    rcases ha with rfl | rfl
    · exact .inl (.cardMint hx hf)
    · exact .inl (.cardToken hx hf)
  rw [hx'] at hlife
  generalize hbefore : s.card? A = before at hlife
  cases hlife with
  | opened => exact .inr (hnew (by rw [hbefore]; exact (by simp)))
  | @kept x _ hcustomer hpayer hcycle =>
    rw [hcycle] at hf
    rw [hcustomer] at ha
    rw [hpayer]
    rcases ha with rfl | rfl
    · exact .inl (.cardMint hbefore hf)
    · exact .inl (.cardToken hbefore hf)
  | @nextNft x _ _ _ _ hpayer hcycle =>
    refine .inr (hnew fun y hy => ?_)
    rw [hbefore, Option.some.injEq] at hy
    subst hy
    refine ⟨fun he => ?_, hpayer⟩
    rw [he] at hcycle
    omega

/-- A voucher's mint is owed to the wallet it was owed to before the step, or the voucher is minted now. -/
theorem Step.owed_voucherMint (hb : s.RentBooks P) (h : Step P s c s' cs calls ps) {V : Address}
    {v' : Voucher}
    (hv' : s'.voucher? V = some v') :
    (∃ v, s.voucher? V = some v ∧ v'.mint = v.mint ∧ v'.rentPayer = v.rentPayer) ∨
      ∃ accs voucherId uri, c.action = .program (.mintVoucher accs voucherId uri) ∧ v'.mint = accs.mint ∧
        v'.rentPayer = accs.relayer ∧ OwedNow s c v'.mint v'.rentPayer := by
  rcases h.voucher_goes_on hv' with ⟨v, hv, hmint, -, -, -, hpayer, -⟩ | ⟨accs, voucherId, uri, hact, rfl, -⟩
  · exact .inl ⟨v, hv, hmint, hpayer⟩
  · obtain ⟨tx, action⟩ := c
    subst hact
    have hfree := h.mintVoucher_free.1
    obtain ⟨_, _, _, _, v, _, -, -, -, -, -, -, -, hok, -, -, hv⟩ := h.mintVoucher
    obtain ⟨-, -, -, _, _, _, -, -, -, -, rfl⟩ := mintVoucherHandler_eq_ok hok
    rw [hv', Option.some.injEq] at hv
    subst hv
    exact .inr ⟨accs, voucherId, uri, rfl, rfl, rfl, hb.vacant fun hh => hfree hh.inUse,
      fun payer ho => PaidFor.voucher.payer_eq ho.paidFor⟩

/-- The same for an account that holds a voucher's token. -/
theorem Step.owed_voucherToken (hg : Grounds P s) (hb : s.RentBooks P) (h : Step P s c s' cs calls ps)
    (hpay : PaysAsRecorded ⟨s, c, s'⟩) {V : Address} {v' : Voucher} {x' : Account Address}
    (hv' : s'.voucher? V = some v') (hx' : s'.tokens.accounts.lookup X = some x') (hm : x'.mint = v'.mint) :
    Owed P s X v'.rentPayer ∨ OwedNow s c X v'.rentPayer := by
  have hnew : ∀ payer, (∃ x, s.tokens.accounts.lookup X = some x) → Opens c.tx s c.action payer X →
    payer = v'.rentPayer :=
    fun payer ⟨x, hx⟩ ho => absurd (State.inUse_iff.mpr (.inr (.inl (Tokens.inUse_of_account hx)))) ho.free
  rcases run_account_was h.tokens hx' with ⟨k, hk, owner, io, hop⟩ | ⟨x, hx, hxm⟩
  · -- the account is opened now
    have hfree := h.effect.opens_free k hk (by rw [hop]; rfl)
    refine .inr ⟨hb.vacant fun hh => hfree hh.inUse, fun payer ho => ?_⟩
    rcases h.owed_voucherMint hb hv' with ⟨v, hv, hmint, hpayer⟩ | ⟨accs, voucherId, uri, hact, -, hpayer, -⟩
    · have hM := hg.vouchers.isVoucherMint hv
      rw [← hmint, ← hm] at hM
      have hat := h.placed_accounts hg.vouchers.accounts X x' hx'
      obtain ⟨tx, action⟩ := c
      have hplace := h.effect.place ho.paidFor
      have hder := ho.derived
      rcases hat with ⟨k, rfl⟩ | ⟨o, rfl⟩
      · -- the only key that cannot sign is the system program's own address, which is in use
        have : Address.key k = .default := by simpa [Address.canSign] using hder
        exact absurd (State.inUse_iff.mpr (.inr (.inr (.inr this)))) hfree
      cases hplace with
      | record hr => cases hr
      | cardNft hmint' hat' =>
        rcases hat' with hat' | hat'
        · rw [← hat'] at hmint'
          cases hmint'
        · simp only [Address.ata.injEq] at hat'
          rw [hat'.2, Address.not_voucherMint hmint'] at hM
          cases hM
      | voucher hmint' hfree' hat' =>
        rcases hat' with hat' | hat'
        · rw [← hat'] at hmint'
          cases hmint'
        · simp only [Address.ata.injEq] at hat'
          obtain ⟨m, hmm, -⟩ := hg.vouchers.minted V v hv
          rw [← hmint, ← hm, hat'.2] at hmm
          exact absurd (State.inUse_iff.mpr (.inr (.inl (Tokens.inUse_of_mint hmm)))) hfree'
      | gift hv₂ hmint₂ hto hat' =>
        simp only [Address.ata.injEq] at hat'
        have hV := hg.vouchers.mint_inj hg.numbered hv hv₂ (by rw [hmint₂, ← hat'.2, hm, hmint])
        subst hV
        rw [hpayer]
        exact hpay v hv (hto ▸ hfree)
    · rw [hpayer]
      rw [hact] at ho
      exact PaidFor.voucher.payer_eq ho.paidFor
  · obtain ⟨v, hv, hmint, hpayer⟩ | ⟨accs, voucherId, uri, hact, hmint, hpayer, -⟩ :=
      h.owed_voucherMint hb hv'
    · rw [hpayer]
      exact .inl (.voucherToken hv hx (hxm.trans (hm.trans hmint)))
    · obtain ⟨tx, action⟩ := c
      subst hact
      refine .inr ⟨?_, fun payer ho => hnew payer ⟨x, hx⟩ ho⟩
      rw [hpayer]
      exact hpay X x hx (hxm.trans (hm.trans hmint))

/-- Whoever is owed rent after a step was owed it before, or paid all of it. -/
theorem Step.owed_before (hg : Grounds P s) (hb : s.RentBooks P) (h : Step P s c s' cs calls ps)
    (hpay : PaysAsRecorded ⟨s, c, s'⟩) (howed : Owed P s' a w) : Owed P s a w ∨ OwedNow s c a w := by
  cases howed with
  | record hr hw => exact h.owed_record hg hb hr hw
  | cardMint hx hf => exact h.owed_nft hg hb hpay hx hf (.inl rfl)
  | cardToken hx hf => exact h.owed_nft hg hb hpay hx hf (.inr rfl)
  | voucherMint hv =>
    rcases h.owed_voucherMint hb hv with ⟨v, hv₀, hmint, hpayer⟩ | ⟨_, _, _, -, -, -, hnow⟩
    · rw [hmint, hpayer]
      exact .inl (.voucherMint hv₀)
    · exact .inr hnow
  | voucherToken hv hx hm => exact h.owed_voucherToken hg hb hpay hv hx hm

/-- From an empty start cards name who pays for them. -/
def State.CardPayers (s : State) : Prop := ∀ A x, s.card? A = some x → x.rentPayer ≠ .default

theorem Step.cardPayers (hw : s.WellPlaced) (hs : s.Current) (hp : s.CardPayers)
    (h : Step P s c s' cs calls ps) :
    s'.CardPayers := by
  intro A x' hx'
  rcases h.cardLife hw hs A with hsame | hlife
  · exact hp A x' (hsame.symm.trans hx')
  rw [hx'] at hlife
  generalize hbefore : s.card? A = before at hlife
  cases hlife with
  | opened ho =>
    intro hdef
    have := h.signers _ ho.signed
    rw [hdef] at this
    cases this
  | kept _ hpayer | nextNft _ hpayer => exact hpayer ▸ hp A _ hbefore

theorem Run.cardPayers (h : Run P start hist s) (hs : start.Empty) : s.CardPayers := by
  refine h.induct_empty (I := fun _ s => s.CardPayers) hs ?_ fun _ hw hcur hi hst => hst.cardPayers hw hcur hi
  intro A x hx
  rw [State.card?, State.record?, hs.program] at hx
  cases hx

/-- **One step keeps the ledger**, when the wallets on record pay. -/
theorem Step.rentBooks (hg : Grounds P s) (hp : s.CardPayers) (hb : s.RentBooks P)
    (h : Step P s c s' cs calls ps)
    (hpay : PaysAsRecorded ⟨s, c, s'⟩) : s'.RentBooks P := by
  have hpurse : s'.purse = s.purse.settle ps := h.purse
  have hjournal : s'.journal = (s.purse.settle ps).journal := congrArg Purse.journal hpurse
  have hsound := h.effect.sound h.signers
  have hopens : ∀ q ∈ ps, ∀ payer a, q.Deposits payer a → Opens c.tx s c.action payer a := by
    intro _ hq payer a hex
    obtain ⟨rent, rfl⟩ := hex
    rcases h.effect.pays with hpays | ⟨_, _, _, rfl, -⟩
    · obtain ⟨hnoCard, hnoBusiness⟩ := h.effect.not_migration hg.current
      cases hpays _ hq with
      | deposit ho => exact ho
      | growth hgrow =>
        generalize haction : c.action = action at hgrow
        cases hgrow with
        | card => exact absurd haction (hnoCard _)
        | business => exact absurd haction (hnoBusiness _)
    · rw [List.mem_singleton] at hq
      cases hq
  have hrefunds : ∀ b dest, Payment.empty .refund b dest ∈ ps → Owed P s b dest := by
    intro b dest hq
    rcases h.effect.pays with hpays | ⟨_, _, _, rfl, -⟩
    · cases hpays _ hq with
      | refund howed => exact howed
      | blank _ hc hblank => exact absurd hblank (hp _ _ hc)
    · rw [List.mem_singleton] at hq
      cases hq
  have hreturned : RentReturned (s.purse.settle ps).journal ∧ Covered (s.purse.settle ps) :=
    RentReturned.settle hb.returned hb.covered hsound fun b dest hq => ⟨hb.paid b dest (hrefunds b dest hq),
      fun q hq' payer hd => h.owed_payer hg.vouchers hpay (hrefunds b dest hq) (hopens q hq' payer b hd)⟩
  refine ⟨fun a ha => h.held hb.held hg.current ha, fun a w howed => ?_, hpurse ▸ hreturned.2,
    hjournal ▸ hreturned.1⟩
  rw [hjournal]
  rcases h.owed_before hg hb hpay howed with hbefore | ⟨hpaid, hdep⟩
  · exact (hb.paid a w hbefore).settle hsound fun q hq payer hd =>
      h.owed_payer hg.vouchers hpay hbefore (hopens q hq payer a hd)
  · exact hpaid.settle hsound fun q hq payer hd => hdep payer (hopens q hq payer a hd)

/-! ## Runs -/

theorem State.Empty.rentBooks (hs : s.Empty) : s.RentBooks P := by
  have hnone : ∀ a, depositsOn a s.journal = [] := fun a => by rw [hs.journal]; rfl
  refine ⟨fun a ha => absurd (hnone a) ha, fun a w _ => ?_, ⟨fun a _ => hnone a, fun a _ => ?_⟩, ?_⟩
  · rw [PaidBy, hnone]
    simp
  · rw [depositSum, State.purse, hnone]
    exact Nat.zero_le _
  · rw [hs.journal]
    trivial

theorem Run.rentBooks (h : Run P start hist s) (hs : start.Empty) (hpay : ∀ st ∈ hist, PaysAsRecorded st) :
    s.RentBooks P := by
  refine h.induct_empty (I := fun hist s => (∀ st ∈ hist, PaysAsRecorded st) → s.RentBooks P) hs
    (fun _ => hs.rentBooks) ?_ hpay
  intro hist s c s' cs calls ps hr _ _ hi hst hpay
  exact hst.rentBooks (hr.grounds hs) (hr.cardPayers hs)
    (hi fun st hmem => hpay st (List.mem_cons_of_mem _ hmem))
    (hpay _ List.mem_cons_self)

/-- **Rent goes back to the wallet that paid it**, in every run in which the wallets on record pay. -/
theorem rent_returned (h : Run P start hist s) (hs : start.Empty) (hpay : ∀ st ∈ hist, PaysAsRecorded st) :
    RentReturned s.journal := (h.rentBooks hs hpay).returned

/-- Another relayer pays for the card's NFT; when the customer cashes in, that rent goes to the first one. -/
theorem nft_rent_misdirected : ∃ hist s, Run Sample.platform Sample.start hist s ∧
    ¬RentReturned s.journal := by
  obtain ⟨hist, s, hrun, -, hp⟩ := Leads.run (P := Sample.platform) (s := Sample.start)
    (l := [Sample.register 1000 1 0, Sample.issue 1010 7, Sample.claim 1020 9 7,
      Sample.mintNft 1025 9 (Sample.key 3), Sample.cashIn 1030 9 0])
    (p := fun s => decide (¬RentReturned s.journal)) (by decide +kernel)
  exact ⟨hist, s, hrun, of_decide_eq_true hp⟩

/-- Here the wallet on record pays for the NFT, and cashing in gives it all back. -/
theorem rent_returned_cashed_in : ∃ hist s, Run Sample.platform Sample.start hist s ∧
    (s.voucher? (Sample.voucher 0)).isSome = true ∧ RentReturned s.journal := by
  obtain ⟨hist, s, hrun, hcalls, hp⟩ := Leads.run (P := Sample.platform) (s := Sample.start)
    (l := [Sample.register 1000 1 0, Sample.issue 1010 7, Sample.claim 1020 9 7])
    (p := fun s => (s.card? (Sample.card 9)).all (fun x => x.rentPayer = Sample.key 2) &&
      Leads Sample.platform s [Sample.mintNft 1025 9 (Sample.key 2)] fun s =>
        s.tokens.accounts.entries.all (fun e => e.2.mint ≠ Sample.voucherMint 0) &&
          Leads Sample.platform s [Sample.cashIn 1030 9 0] fun s => (s.voucher? (Sample.voucher 0)).isSome)
    (by decide +kernel)
  obtain ⟨hcard, hp⟩ := Bool.and_eq_true_iff.mp hp
  obtain ⟨s₁, hmint, hp⟩ := Leads.step hp
  obtain ⟨hfresh, hp⟩ := Bool.and_eq_true_iff.mp hp
  obtain ⟨s₂, hcash, hlive⟩ := Leads.step hp
  have hrun₂ := (hrun.step hmint).step hcash
  refine ⟨_, s₂, hrun₂, hlive, rent_returned hrun₂ Sample.start_empty ?_⟩
  simp only [List.forall_mem_cons]
  refine ⟨?_, ?_, fun st hst => ?_⟩
  · intro X x hx hxm
    exact absurd hxm (of_decide_eq_true (List.all_eq_true.mp hfresh _ (AList.mem_lookup_iff.mp hx)))
  · intro x hx
    rw [show s.card? (Sample.card 9) = some x from hx] at hcard
    exact (of_decide_eq_true hcard).symm
  · have hmem := List.mem_map_of_mem (f := fun st => st.label) hst
    rw [hcalls] at hmem
    unfold PaysAsRecorded
    rcases List.mem_cons.mp (List.mem_reverse.mp hmem) with h | hmem
    · rw [h]; trivial
    rcases List.mem_cons.mp hmem with h | hmem
    · rw [h]; trivial
    · rw [List.mem_singleton.mp hmem]; trivial

end Passdari
