/-
Rent nobody can get back. A voucher or a card may close the token accounts
that were given to it, as long as it is there itself. Several accounts can be
given to one voucher, and both its ends close only one of them; here is what
each call must mind so that none is left behind, and what then holds in every
state of a run.
-/
import Passdari.Books.CloseRights

namespace Passdari

open Wire Token2022

variable {P : Platform} {tx : Tx} {s s' start : State} {hist : History} {c : Call} {cs : List Change}
  {calls : List TokenCall} {ps : List Payment} {a A V M X : Address} {v : Voucher} {x x' : Account Address}

/-! ## What a call must mind -/

/-- Of every token account there is. -/
def State.Every (s : State) (p : Address → Account Address → Prop) : Prop :=
  ∀ X x, s.tokens.accounts.lookup X = some x → p X x

instance (s : State) (p : Address → Account Address → Prop) [∀ X x, Decidable (p X x)] :
    Decidable (s.Every p) :=
  decidable_of_iff (∀ e ∈ s.tokens.accounts.entries, p e.1 e.2)
    ⟨fun h _ _ hx => h _ (Store.mem_entries_of_lookup hx),
      fun h _ he => h _ _ (Store.lookup_of_mem_entries he)⟩

/-- No account but these is the voucher's to close. -/
def State.OnlyNamedBy (s : State) (V : Address) (l : List Address) : Prop :=
  s.Every fun X x => x.closeAuthority = some V → X ∈ l

instance (s : State) (V : Address) (l : List Address) : Decidable (s.OnlyNamedBy V l) :=
  inferInstanceAs (Decidable (s.Every _))

/-- The rent of no account that is a voucher's or a card's to close is due to `payer`. -/
def State.OwesNothing (s : State) (payer : Address) : Prop :=
  s.Every fun _ x => ∀ a ∈ x.closeAuthority,
    (∀ v ∈ s.voucher? a, v.rentPayer ≠ payer) ∧ ∀ y ∈ s.card? a, y.rentPayer ≠ payer

instance (s : State) (payer : Address) : Decidable (s.OwesNothing payer) :=
    inferInstanceAs (Decidable (s.Every _))

/-- A plain transfer out of an account that is a voucher's to close is from an associated account, in time;
and while such an account is left empty, who holds the token can give it back. -/
def State.SafeToSend (s : State) (now : Int64) (src mint dest : Address) : Prop :=
  (∀ x ∈ s.tokens.accounts.lookup src, ∀ V ∈ x.closeAuthority, ∀ v ∈ s.voucher? V,
    src = .ata x.owner x.mint ∧ now ≤ v.expiresAt) ∧
  ((s.Every fun X x => x.mint = mint → x.closeAuthority.any Address.isVoucher = true → X = dest) ∨
    ∀ y ∈ s.tokens.accounts.lookup dest, y.owner.canSign = true)

instance (s : State) (now : Int64) (src mint dest : Address) : Decidable (s.SafeToSend now src mint dest) :=
  inferInstanceAs (Decidable ((∀ x ∈ s.tokens.accounts.lookup src, ∀ V ∈ x.closeAuthority, ∀ v ∈ s.voucher? V,
    src = .ata x.owner x.mint ∧ now ≤ v.expiresAt) ∧
    ((s.Every fun X x => x.mint = mint → x.closeAuthority.any Address.isVoucher = true → X = dest) ∨
      ∀ y ∈ s.tokens.accounts.lookup dest, y.owner.canSign = true)))

/-- What each call must mind. -/
def Action.careful (s : State) (now : Int64) : Action → Bool
  | .program (.mintCardNft accs _) =>
    decide (∀ y ∈ s.card? accs.card, ¬s.InUse y.rentPayer ∧ y.nftCycle.toNat + 1 < 2 ^ 32)
  | .program (.mintVoucher accs _ _) => decide (¬s.InUse accs.relayer)
  | .program (.presentVoucher accs) => decide (∀ v ∈ s.voucher? accs.voucher, ¬s.InUse v.rentPayer)
  | .program (.transferVoucher accs) =>
    accs.newOwner.canSign || decide (s.OnlyNamedBy accs.voucher [accs.fromToken, accs.toToken])
  | .program (.redeemVoucher accs) => decide (s.OnlyNamedBy accs.voucher [accs.holderToken])
  | .program (.closeExpiredVoucher accs) => decide (s.OnlyNamedBy accs.voucher [accs.holderToken])
  | .wallet (.openToken _ account _ _ _ _) => decide (s.OwesNothing account)
  | .wallet (.token (.transfer src mint dest _ amount _) _) =>
    amount == 0 || src == dest || decide (s.SafeToSend now src mint dest)
  | _ => true

/-- A plain transfer of something to the account at `X` from another. -/
def Action.sendsTo (X : Address) : Action → Bool
  | .wallet (.token (.transfer src _ dest _ amount _) _) => dest == X && src != X && amount != 0
  | _ => false

/-- A call is careful when it minds that, the clock is not within ninety days of its end, and no emptied
account that is a voucher's to close is still empty when the voucher expires. -/
def Call.careful (s : State) (c : Call) : Bool :=
  c.action.careful s c.tx.now && decide (c.tx.now.toInt + voucherValidSeconds.toInt < Int64.maxValue.toInt) &&
    decide (s.Every fun X x => x.amount = 0 → ∀ V ∈ x.closeAuthority, ∀ v ∈ s.voucher? V,
      c.tx.now ≤ v.expiresAt ∨ c.action.sendsTo X = true)

/-! ## What is the case then -/

def Address.isCard : Address → Bool
  | .card .. => true
  | _ => false

/-- An account of the voucher's that is empty: its owner can still be given the token back. -/
structure Emptied (hist : History) (s : State) (X : Address) (x : Account Address) (v : Voucher) : Prop where
  associated : X = .ata x.owner x.mint
  inTime : ∀ st ∈ hist, st.label.tx.now ≤ v.expiresAt
  holder : ∀ Y y, s.tokens.accounts.lookup Y = some y → y.mint = x.mint → 0 < y.amount →
    y.owner.canSign = true

/-- What is known of an account that is the voucher's to close. -/
structure NamesVoucher (hist : History) (s : State) (X : Address) (x : Account Address) (v : Voucher) :
    Prop where
  mint : x.mint = v.mint
  owner : x.owner.canSign = true
  payer : ¬s.InUse v.rentPayer
  emptied : x.amount = 0 → Emptied hist s X x v

/-- What is known of an account that is the card's to close: it holds the card's NFT. -/
structure NamesCard (P : Platform) (s : State) (A X : Address) (x : Account Address) (y : LoyaltyCard) :
    Prop where
  payer : ¬s.InUse y.rentPayer
  cycle : y.nftCycle.toNat + 1 < 2 ^ 32
  holds : ∃ M bump md, findProgramAddress P (.cardMint A y.nftCycle) = some (M, bump) ∧
    X = .ata y.customer M ∧
    x = mintedCardToken A M y.customer ∧ s.tokens.mints.lookup M = some (mintedCardMint A md)

/-- **What holds of every state of a careful run.** -/
structure Tidy (P : Platform) (hist : History) (s : State) : Prop where
  vouchers : ∀ V v, s.voucher? V = some v → v.rentPayer.canSign = true ∧
    v.expiresAt.toInt < Int64.maxValue.toInt
  cards : ∀ A y, s.card? A = some y → y.rentPayer.canSign = true ∧ 0 ≤ y.lastStampTs.toInt ∧
    y.lastStampTs.toInt + cardNftIdleSeconds.toInt < Int64.maxValue.toInt
  plain : ∀ X x, s.tokens.accounts.lookup X = some x → x.mint.isVoucherMint = true → Plain X x
  frozen : ∀ X x, s.tokens.accounts.lookup X = some x → x.mint.isVoucherMint = true → x.frozen = true →
    0 < x.amount
  voucher : ∀ X x V, s.tokens.accounts.lookup X = some x → x.closeAuthority = some V → V.isVoucher = true →
    ∃ v, s.voucher? V = some v ∧ NamesVoucher hist s X x v
  card : ∀ X x A, s.tokens.accounts.lookup X = some x → x.closeAuthority = some A → A.isCard = true →
    ∃ y, s.card? A = some y ∧ NamesCard P s A X x y

/-! ## Each part is kept -/

theorem careful_parts (h : c.careful s = true) : c.action.careful s c.tx.now = true ∧
    c.tx.now.toInt + voucherValidSeconds.toInt < Int64.maxValue.toInt ∧
    s.Every fun X x => x.amount = 0 → ∀ V ∈ x.closeAuthority, ∀ v ∈ s.voucher? V,
      c.tx.now ≤ v.expiresAt ∨ c.action.sendsTo X = true := by
  simp only [Call.careful, Bool.and_eq_true, decide_eq_true_eq] at h
  exact ⟨h.1.1, h.1.2, h.2⟩

theorem Step.tidy_vouchers (h : Step P s c s' cs calls ps)
    (hlate : c.tx.now.toInt + voucherValidSeconds.toInt < Int64.maxValue.toInt)
    (hi : ∀ V v, s.voucher? V = some v → v.rentPayer.canSign = true ∧
      v.expiresAt.toInt < Int64.maxValue.toInt) :
    ∀ V v, s'.voucher? V = some v → v.rentPayer.canSign = true ∧
    v.expiresAt.toInt < Int64.maxValue.toInt := by
  intro V v' hv'
  rcases h.voucher V with hsame | hch
  · exact hi V v' (hsame.symm.trans hv')
  have heff := h.effect
  have hsig := h.signers
  rw [hv'] at hch
  generalize hv : s.voucher? V = before at hch
  generalize c.action = action at hch heff
  cases hch with
  | minted _ _ _ _ _ _ hexp =>
    refine ⟨hsig _ ?_, hexp.trans_lt hlate⟩
    cases heff with
    | mintVoucher _ _ _ hrelayer => exact hrelayer
  | @handed _ v =>
    obtain ⟨hpayer, hexp⟩ := hi V v hv
    exact ⟨hpayer, hexp⟩

theorem Step.tidy_cards (hw : s.WellPlaced) (hs : s.Current) (h : Step P s c s' cs calls ps)
    (hlate : c.tx.now.toInt + voucherValidSeconds.toInt < Int64.maxValue.toInt) (h0 : 0 ≤ c.tx.now.toInt)
    (hi : ∀ A y, s.card? A = some y → y.rentPayer.canSign = true ∧ 0 ≤ y.lastStampTs.toInt ∧
      y.lastStampTs.toInt + cardNftIdleSeconds.toInt < Int64.maxValue.toInt) :
    ∀ A y, s'.card? A = some y → y.rentPayer.canSign = true ∧ 0 ≤ y.lastStampTs.toInt ∧
      y.lastStampTs.toInt + cardNftIdleSeconds.toInt < Int64.maxValue.toInt := by
  intro A y' hy'
  rcases h.cardLife hw hs A with hsame | hlife
  · exact hi A y' (hsame.symm.trans hy')
  have hpayer : y'.rentPayer.canSign = true := by
    rw [hy'] at hlife
    generalize hy : s.card? A = before at hlife
    cases hlife with
    | opened ho => exact h.signers _ ho.signed
    | kept _ hpayer | nextNft _ hpayer => exact hpayer ▸ (hi A _ hy).1
  refine ⟨hpayer, ?_⟩
  rcases h.card hw A with hsame | hch
  · exact (hi A y' (hsame.symm.trans hy')).2
  have hno := (h.effect.not_migration hs).1
  rw [hy'] at hch
  generalize hy : s.card? A = before at hch
  generalize c.action = action at hch hno
  cases hch with
  | stamped _ _ _ _ _ _ _ hstamp =>
    obtain ⟨-, _, _, _, _, -, -, -, -, -, rfl⟩ := stampCard_eq_ok hstamp
    exact ⟨h0, hlate⟩
  | sent _ _ _ _ hok | received _ _ _ hok =>
    obtain ⟨-, _, _, _, _, -, -, -, -, rfl, rfl⟩ := transferStampsHandler_eq_ok hok
    exact (hi A _ hy).2
  | cashedIn _ _ _ _ _ hcash =>
    obtain ⟨_, -, rfl⟩ := cashIn_eq_ok hcash
    exact (hi A _ hy).2
  | nftRetired => exact (hi A _ hy).2
  | migrated => exact absurd rfl (hno _)

theorem Step.tidy_frozen (ht : s.VoucherTokens P) (h : Step P s c s' cs calls ps)
    (ho : c.action.ordinary = true)
    (hi : ∀ X x, s.tokens.accounts.lookup X = some x → x.mint.isVoucherMint = true → x.frozen = true →
      0 < x.amount) :
    ∀ X x, s'.tokens.accounts.lookup X = some x → x.mint.isVoucherMint = true → x.frozen = true →
    0 < x.amount := by
  intro X x' hx' hM hf
  rcases h.frozen_since ho hx' hf with ⟨accs, hact, rfl⟩ | ⟨x, hx, hfx, hmint, hn⟩
  · obtain ⟨v, x, hv, hmint, hx, hone, hxm⟩ : ∃ v x, s.voucher? accs.voucher = some v ∧ v.mint = accs.mint ∧
        s.tokens.accounts.lookup accs.holderToken = some x ∧ x.amount = 1 ∧ x.mint = accs.mint := by
      have heff := h.effect
      rw [hact] at heff
      cases heff with
      | presentVoucher hv _ hmint hx hone _ hxm =>
        exact ⟨_, _, State.voucher?_eq_some.mpr hv, hmint, hx, hone, hxm⟩
    by_contra h0
    have hMx : x.mint.isVoucherMint = true := by
      rw [hxm, ← hmint]
      exact ht.isVoucherMint hv
    obtain ⟨_, he, -⟩ | ⟨_, _, _, _, _, he, -⟩ | ⟨_, he, -⟩ | ⟨_, he, -⟩ :=
      h.holder_after ho hx hMx (by omega) hx' (by omega) <;> rw [hact] at he <;> cases he
  · rw [← hn]
    exact hi X x hx (hmint ▸ hM) hfx

/-! ### Accounts that are a voucher's to close -/

/-- The minting of a voucher gives it the customer's account, with the token on it. -/
theorem Step.named_minted {accs id uri} (hw : s.WellPlaced)
    (h : Step P s ⟨tx, .program (.mintVoucher accs id uri)⟩ s' cs calls ps)
    (hcare : Action.careful s tx.now (.program (.mintVoucher accs id uri)) = true)
    (hx' : s'.tokens.accounts.lookup accs.customerToken = some x') :
    ∃ v, s'.voucher? accs.voucher = some v ∧ NamesVoucher hist s' accs.customerToken x' v := by
  obtain ⟨_, -, -, hx⟩ := h.minted
  rw [hx', Option.some.injEq] at hx
  subst hx
  obtain ⟨_, _, _, _, v, _, -, -, -, hcustomer, -, -, -, hok, -, -, hv⟩ := h.mintVoucher
  obtain ⟨-, -, -, _, _, _, -, -, -, -, rfl⟩ := mintVoucherHandler_eq_ok hok
  have hrelayer : accs.relayer ∈ tx.signers := by
    obtain ⟨heff, -⟩ := h
    cases heff with
    | mintVoucher _ _ _ hrelayer => exact hrelayer
  have hfree : ¬s.InUse accs.relayer := of_decide_eq_true hcare
  exact ⟨_, hv, rfl, h.signers _ hcustomer, h.key_free hw rfl (h.signers _ hrelayer) hfree (by simp),
    fun h0 => by cases h0⟩

/-- And so does presenting it. -/
theorem Step.named_presented {accs} (hw : s.WellPlaced) (ht : s.VoucherTokens P)
    (hpayers : ∀ V v, s.voucher? V = some v → v.rentPayer.canSign = true ∧
      v.expiresAt.toInt < Int64.maxValue.toInt)
    (h : Step P s ⟨tx, .program (.presentVoucher accs)⟩ s' cs calls ps)
    (hcare : Action.careful s tx.now (.program (.presentVoucher accs)) = true)
    (hx' : s'.tokens.accounts.lookup accs.holderToken = some x') :
    ∃ v, s'.voucher? accs.voucher = some v ∧ NamesVoucher hist s' accs.holderToken x' v := by
  obtain ⟨v, x, hv, hsame, howner, hmint, hx, hone, hxm, hxo⟩ : ∃ v x, s.voucher? accs.voucher = some v ∧
      s'.voucher? accs.voucher = s.voucher? accs.voucher ∧ accs.owner ∈ tx.signers ∧ v.mint = accs.mint ∧
      s.tokens.accounts.lookup accs.holderToken = some x ∧ x.amount = 1 ∧ x.mint = accs.mint ∧
        x.owner = accs.owner := by
    obtain ⟨heff, hc, -⟩ := h
    cases heff with
    | presentVoucher hv howner hmint hx hone _ hxm hxo =>
      refine ⟨_, _, State.voucher?_eq_some.mpr hv, ?_, howner, hmint, hx, hone, hxm, hxo⟩
      rw [State.voucher?, hc.record?_frame (by simp)]
      rfl
  have hholder := h.same_holder rfl hx hx'
  have hfree : ¬s.InUse v.rentPayer := of_decide_eq_true hcare v hv
  refine ⟨v, hsame.trans hv, ?_, ?_, h.key_free hw rfl (hpayers _ v hv).1 hfree (by simp), fun h0 => ?_⟩
  · rw [← hholder.mint, hxm, hmint]
  · rw [← hholder.owner, hxo]
    exact h.signers _ howner
  · have hM : x.mint.isVoucherMint = true := by
      rw [hxm, ← hmint]
      exact ht.isVoucherMint hv
    obtain ⟨_, he, -⟩ | ⟨_, _, _, _, _, he, -⟩ | ⟨_, he, -⟩ | ⟨_, he, -⟩ :=
      h.holder_after rfl hx hM (by omega) hx' h0 <;> cases he

/-- While the token of a voucher is with a holder, nobody else has any. -/
theorem Grounds.one_holder (hg : Grounds P s) (hcons : s.tokens.Conserved v.mint) (hv : s.voucher? V = some v)
    {Y : Address} {y : Account Address} (hx : s.tokens.accounts.lookup X = some x) (hxm : x.mint = v.mint)
    (hxn : 0 < x.amount) (hy : s.tokens.accounts.lookup Y = some y) (hym : y.mint = v.mint)
    (hyn : 0 < y.amount) : Y = X := by
  obtain ⟨m, hm, hvm⟩ := hg.vouchers.minted V v hv
  refine Tokens.Carries.unique ⟨y, hy, hym, hyn⟩ ⟨x, hx, hxm, hxn⟩ ?_
  rw [hcons, Tokens.supply, hm]
  exact hvm.supply

/-- A call about the mint of a live voucher is about that voucher. -/
theorem Grounds.same_voucher (hg : Grounds P s) (hv : s.voucher? V = some v) {V' : Address} {v' : Voucher}
    (hv' : s.voucher? V' = some v') (hm : v'.mint = v.mint) : V' = V :=
    hg.vouchers.mint_inj hg.numbered hv hv' hm

/-- The new holder of a token, while an account of its voucher's is empty, can give it back. -/
theorem Step.new_holder (hg : Grounds P s) (h : Step P s c s' cs calls ps) (ho : c.action.ordinary = true)
    (hcare : c.action.careful s c.tx.now = true)
    (hplain : ∀ X x, s'.tokens.accounts.lookup X = some x → x.mint.isVoucherMint = true → Plain X x)
    (hv : s.voucher? V = some v) (hx : s.tokens.accounts.lookup X = some x) (hxm : x.mint = v.mint)
    (hxc : x.closeAuthority = some V) (hx' : s'.tokens.accounts.lookup X = some x') (h0 : x'.amount = 0)
    {Y : Address} {y' : Account Address} (hy' : s'.tokens.accounts.lookup Y = some y')
    (hym : y'.mint = v.mint)
    (hyn : 0 < y'.amount) :
    (∃ y, s.tokens.accounts.lookup Y = some y ∧ 0 < y.amount ∧ y.mint = y'.mint ∧ y.owner = y'.owner) ∨
      y'.owner.canSign = true := by
  have hM : y'.mint.isVoucherMint = true := hym ▸ hg.vouchers.isVoucherMint hv
  have hYX : X ≠ Y := by
    intro heq
    subst heq
    rw [hx', Option.some.injEq] at hy'
    subst hy'
    omega
  obtain ⟨y, hy, hn⟩ | ⟨accs, id, uri, hact, hmint⟩ | ⟨accs, hact, rfl, hmint⟩ | ⟨src, hact⟩ :=
    h.holder_before ho hy' hM hyn
  · have hs := h.same_holder ho hy hy'
    exact .inl ⟨y, hy, hn, hs.mint, hs.owner⟩
  · obtain ⟨tx, action⟩ := c
    subst hact
    obtain ⟨m, hm, -⟩ := hg.vouchers.minted V v hv
    refine absurd (State.inUse_iff.mpr (.inr (.inl (Tokens.inUse_of_mint hm)))) ?_
    rw [← hym, ← hmint]
    exact h.mintVoucher_free.1
  · obtain ⟨tx, action⟩ := c
    subst hact
    obtain ⟨v₁, z, hv₁, hz, hzn, hv₁m, hat⟩ : ∃ v₁ z, s.voucher? accs.voucher = some v₁ ∧
        s.tokens.accounts.lookup accs.fromToken = some z ∧ z.amount = 1 ∧ v₁.mint = accs.mint ∧
        accs.toToken = .ata accs.newOwner accs.mint := by
      obtain ⟨heff, -⟩ := h
      cases heff with
      | transferVoucher hv₁ _ _ _ _ hmint _ hz hzn _ _ _ _ hat =>
        exact ⟨_, _, State.voucher?_eq_some.mpr hv₁, hz, hzn, hmint, hat⟩
    obtain rfl := hg.same_voucher hv hv₁ (hv₁m.trans (hmint.trans hym))
    rw [Action.careful, Bool.or_eq_true, decide_eq_true_eq] at hcare
    rcases hcare with hsign | honly
    · right
      rwa [(hplain _ _ hy' hM).owner accs.newOwner (hmint ▸ hat)]
    · obtain rfl | rfl : X = accs.fromToken ∨ X = accs.toToken := by simpa using honly X x hx hxc
      · rw [h.sender_closed hx hxc] at hx'
        cases hx'
      · exact absurd rfl hYX
  · obtain ⟨-, y, hy, howner⟩ := h.sent_to hact hy'
    obtain ⟨auth, amount, decimals, cpi, hact, hne, hn⟩ := hact
    rw [hact, Action.careful, Bool.or_eq_true, Bool.or_eq_true, beq_iff_eq, beq_iff_eq, decide_eq_true_eq]
      at hcare
    rcases hcare with (h0 | he) | ⟨-, hother | hsign⟩
    · omega
    · exact absurd he hne
    · have hXV : V.isVoucher = true := by
        rw [hg.placed.voucher (State.voucher?_eq_some.mp hv)]
        rfl
      exact absurd (hother X x hx (hxm.trans hym.symm) (by rw [hxc]; exact hXV)) hYX
    · exact .inr (howner ▸ hsign y hy)

/-- The voucher of an account that is its to close does not end without it. -/
theorem Step.named_not_ended (h : Step P s c s' cs calls ps) (hcare : c.action.careful s c.tx.now = true)
    (hx : s.tokens.accounts.lookup X = some x) (hxc : x.closeAuthority = some V)
    (hx' : s'.tokens.accounts.lookup X = some x') : ¬c.action.ends V := by
  refine h.not_ended hx hxc hx' fun holderToken hend => ?_
  obtain ⟨accs, hact, rfl, rfl⟩ | ⟨accs, hact, rfl, rfl⟩ := hend <;>
  · rw [hact, Action.careful, decide_eq_true_eq] at hcare
    simpa using hcare X x hx hxc

/-- An empty account is still one to which the token can be given back. -/
theorem Step.emptied_kept (hg : Grounds P s) (h : Step P s c s' cs calls ps) (ho : c.action.ordinary = true)
    (hcare : c.careful s = true)
    (hplain : ∀ X x, s'.tokens.accounts.lookup X = some x → x.mint.isVoucherMint = true → Plain X x)
    (hv : s.voucher? V = some v) (hi : Emptied hist s X x v) (hx : s.tokens.accounts.lookup X = some x)
    (hxm : x.mint = v.mint) (hxc : x.closeAuthority = some V) (hxn : x.amount = 0)
    (hx' : s'.tokens.accounts.lookup X = some x') (h0 : x'.amount = 0) :
    Emptied (⟨s, c, s'⟩ :: hist) s' X x' v := by
  obtain ⟨hact, -, hevery⟩ := careful_parts hcare
  have hs := h.same_holder ho hx hx'
  refine ⟨?_, ?_, fun Y y' hy' hym hyn => ?_⟩
  · rw [← hs.mint, ← hs.owner]
    exact hi.associated
  · rw [List.forall_mem_cons]
    refine ⟨(hevery X x hx hxn V hxc v hv).resolve_right fun hsends => ?_, hi.inTime⟩
    -- it is not empty any more when somebody sends the token back
    have : ∃ src mint, c.action.Sends src mint X := by
      generalize c.action = action at hsends
      unfold Action.sendsTo at hsends
      split at hsends
      · next src mint dest auth amount decimals cpi =>
        simp only [Bool.and_eq_true, beq_iff_eq, bne_iff_ne] at hsends
        obtain ⟨⟨rfl, hne⟩, hn⟩ := hsends
        exact ⟨src, mint, auth, amount, decimals, cpi, rfl, hne, Nat.pos_of_ne_zero hn⟩
      · cases hsends
    obtain ⟨src, mint, hto⟩ := this
    have := (h.sent_to hto hx').1
    omega
  · have hym' : y'.mint = v.mint := hym.trans (hs.mint.symm.trans hxm)
    rcases h.new_holder hg ho hact hplain hv hx hxm hxc hx' h0 hy' hym' hyn with
      ⟨y, hy, hn, hm, howner⟩ | hsign
    · rw [← howner]
      exact hi.holder Y y hy (hm.trans (hym'.trans hxm.symm)) hn
    · exact hsign

/-- An account that is emptied by its holder is one to which the token can be given back. -/
theorem Step.emptied_now (hg : Grounds P s) (hcons : s.tokens.Conserved v.mint)
    (h : Step P s c s' cs calls ps)
    (ho : c.action.ordinary = true) (hcare : c.careful s = true) (hclock : ClockForward (⟨s, c, s'⟩ :: hist))
    (hplain : ∀ X x, s'.tokens.accounts.lookup X = some x → x.mint.isVoucherMint = true → Plain X x)
    (hv : s.voucher? V = some v) (hx : s.tokens.accounts.lookup X = some x) (hxm : x.mint = v.mint)
    (hxc : x.closeAuthority = some V) (hxn : 0 < x.amount) (hx' : s'.tokens.accounts.lookup X = some x')
    (h0 : x'.amount = 0) : Emptied (⟨s, c, s'⟩ :: hist) s' X x' v := by
  obtain ⟨hact, -, -⟩ := careful_parts hcare
  have hs := h.same_holder ho hx hx'
  have hM : x.mint.isVoucherMint = true := hxm ▸ hg.vouchers.isVoucherMint hv
  have hend := h.named_not_ended hact hx hxc hx'
  obtain ⟨dest, hsends⟩ : ∃ dest, c.action.Sends X x.mint dest := by
    obtain ⟨tx, action⟩ := c
    obtain ⟨accs, rfl, rfl⟩ | hsends | ⟨accs, rfl, hmint⟩ | ⟨accs, rfl, hmint⟩ :=
      h.holder_after ho hx hM hxn hx' h0
    · obtain ⟨v₁, hv₁, hv₁m⟩ : ∃ v₁, s.voucher? accs.voucher = some v₁ ∧ v₁.mint = x.mint := by
        obtain ⟨heff, -⟩ := h
        cases heff with
        | transferVoucher hv₁ _ _ _ _ hmint _ hz _ _ hzm =>
          rw [hx, Option.some.injEq] at hz
          subst hz
          exact ⟨_, State.voucher?_eq_some.mpr hv₁, hmint.trans hzm.symm⟩
      obtain rfl := hg.same_voucher hv hv₁ (hv₁m.trans hxm)
      rw [h.sender_closed hx hxc] at hx'
      cases hx'
    · exact hsends
    · refine absurd (.inl ⟨accs, rfl, ?_⟩) hend
      obtain ⟨heff, -⟩ := h
      cases heff with
      | redeemVoucher _ _ _ hv₁ _ _ _ _ _ hv₁m =>
        exact hg.same_voucher hv (State.voucher?_eq_some.mpr hv₁) (hv₁m.trans (hmint.trans hxm))
    · refine absurd (.inr ⟨accs, rfl, ?_⟩) hend
      obtain ⟨heff, -⟩ := h
      cases heff with
      | closeExpiredVoucher hv₁ _ _ _ hv₁m =>
        exact hg.same_voucher hv (State.voucher?_eq_some.mpr hv₁) (hv₁m.trans (hmint.trans hxm))
  obtain ⟨hat, hexp⟩ : X = .ata x.owner x.mint ∧ c.tx.now ≤ v.expiresAt := by
    obtain ⟨auth, amount, decimals, cpi, haction, hne, hn⟩ := hsends
    rw [haction, Action.careful, Bool.or_eq_true, Bool.or_eq_true, beq_iff_eq, beq_iff_eq, decide_eq_true_eq]
      at hact
    rcases hact with (hzero | he) | ⟨hsafe, -⟩
    · omega
    · exact absurd he hne
    · exact hsafe x hx V hxc v hv
  refine ⟨?_, ?_, fun Y y' hy' hym hyn => ?_⟩
  · rw [← hs.mint, ← hs.owner]
    exact hat
  · rw [List.forall_mem_cons]
    refine ⟨hexp, fun st hst => ?_⟩
    have := (List.pairwise_cons.mp hclock.2).1 st hst
    rw [Int64.le_iff_toInt_le] at hexp ⊢
    exact Int.le_trans this hexp
  · have hym' : y'.mint = v.mint := hym.trans (hs.mint.symm.trans hxm)
    rcases h.new_holder hg ho hact hplain hv hx hxm hxc hx' h0 hy' hym' hyn with ⟨y, hy, hn, hm, -⟩ | hsign
    · obtain rfl := hg.one_holder hcons hv hx hxm hxn hy (hm.trans hym') hn
      rw [hx', Option.some.injEq] at hy'
      subst hy'
      omega
    · exact hsign

/-- **An account that is a voucher's to close stays one**, and the voucher stays with it. -/
theorem Step.named_kept (hg : Grounds P s) (hcons : s.tokens.Conserved v.mint) (h : Step P s c s' cs calls ps)
    (ho : c.action.ordinary = true) (hcare : c.careful s = true) (hclock : ClockForward (⟨s, c, s'⟩ :: hist))
    (hpayers : ∀ V v, s.voucher? V = some v → v.rentPayer.canSign = true ∧
      v.expiresAt.toInt < Int64.maxValue.toInt)
    (hplain : ∀ X x, s'.tokens.accounts.lookup X = some x → x.mint.isVoucherMint = true → Plain X x)
    (hv : s.voucher? V = some v) (hi : NamesVoucher hist s X x v) (hx : s.tokens.accounts.lookup X = some x)
    (hxc : x.closeAuthority = some V) (hx' : s'.tokens.accounts.lookup X = some x') :
    ∃ v', s'.voucher? V = some v' ∧ NamesVoucher (⟨s, c, s'⟩ :: hist) s' X x' v' := by
  obtain ⟨hact, -, -⟩ := careful_parts hcare
  have hs := h.same_holder ho hx hx'
  obtain ⟨v', hv', hmint, hexp, hpayer⟩ := h.voucher_stays hv (h.named_not_ended hact hx hxc hx')
  refine ⟨v', hv', ?_, ?_, ?_, fun h0 => ?_⟩
  · rw [← hs.mint, hi.mint, hmint]
  · rw [← hs.owner]
    exact hi.owner
  · rw [hpayer]
    refine h.key_free hg.placed ho (hpayers V v hv).1 hi.payer fun payer mint owner io rent hopen => ?_
    rw [hopen, Action.careful, decide_eq_true_eq] at hact
    exact (hact X x hx V hxc).1 v hv rfl
  · have hemptied : Emptied (⟨s, c, s'⟩ :: hist) s' X x' v := by
      rcases Nat.eq_zero_or_pos x.amount with hn | hn
      · exact h.emptied_kept hg ho hcare hplain hv (hi.emptied hn) hx hi.mint hxc hn hx' h0
      · exact h.emptied_now hg hcons ho hcare hclock hplain hv hx hi.mint hxc hn hx' h0
    exact ⟨hemptied.associated, fun st hst => hexp ▸ hemptied.inTime st hst, hemptied.holder⟩

/-! ### Accounts that are a card's to close -/

/-- The minting of a card's NFT gives the card the account it is in. -/
theorem Step.nft_minted {accs uri} (hw : s.WellPlaced)
    (h : Step P s ⟨tx, .program (.mintCardNft accs uri)⟩ s' cs calls ps)
    (hpayers : ∀ A y, s.card? A = some y → y.rentPayer.canSign = true)
    (hcare : Action.careful s tx.now (.program (.mintCardNft accs uri)) = true)
    (hx' : s'.tokens.accounts.lookup accs.customerToken = some x') :
    ∃ y, s'.card? accs.card = some y ∧ NamesCard P s' accs.card accs.customerToken x' y := by
  obtain ⟨y, bump, name, hy, hcustomer, hf, -, hat, rfl, hsame⟩ := h.mintCardNft
  obtain ⟨hm, hx⟩ := run_mintCardNftCalls h.tokens
  rw [hx', Option.some.injEq] at hx
  subst hx
  have hy' : s'.card? accs.card = some y := by rw [State.card?, hsame]; exact hy
  obtain ⟨hfree, hcycle⟩ : ¬s.InUse y.rentPayer ∧ y.nftCycle.toNat + 1 < 2 ^ 32 :=
    of_decide_eq_true hcare y hy
  refine ⟨y, hy', h.key_free hw rfl (hpayers _ y hy) hfree (by simp), hcycle, accs.mint, bump, _, hf, ?_, ?_,
    hm⟩
  · rw [hcustomer]
    exact hat
  · rw [hcustomer]

/-- The card's mint and the customer's account for it are the card's alone. -/
theorem sealed_minted (A M customer : Address) (md : Metadata Address) :
    Sealed A (mintedCardMint A md) (mintedCardToken A M customer) := ⟨rfl, rfl, rfl, rfl, rfl, rfl, rfl, rfl⟩

/-- A step that does not burn the card's NFT burns none of its mint. -/
theorem Step.spares (hg : Grounds P s) (h : Step P s c s' cs calls ps) (ho : c.action.ordinary = true)
    {y : LoyaltyCard} {bump : UInt8} (hy : s.card? A = some y)
    (hf : findProgramAddress P (.cardMint A y.nftCycle) = some (M, bump)) (hm : s.tokens.InUse M)
    (hno : ¬Burns c.tx s A M y.customer calls ps) : ∀ k ∈ calls, k.op.Spares M := by
  intro k hk
  have hmakes := h.effect.makes ho k hk
  have heff := h.effect
  have hburns : ¬BurnsNftOf s A c.action := fun hb => by
    obtain ⟨y', M', bump', hy', hf', hb⟩ := heff.burns hb
    obtain ⟨rfl, rfl⟩ := current_nft hy hf hy' hf'
    exact hno hb
  refine ⟨hmakes.reassigns, fun src auth amount decimals hop => ?_⟩
  rw [hop] at hmakes
  generalize c.action = action at hmakes heff hburns
  have hM := findProgramAddress_eq hf
  have hvoucher : ∀ {V v}, s.record? V = some (.voucher v) → v.mint ≠ M := fun hv he => by
    have := hg.vouchers.isVoucherMint (State.voucher?_eq_some.mpr hv)
    rw [he, hM] at this
    cases this
  cases hmakes with
  | retireBurn =>
    cases heff with
    | retireIdleCardNft _ _ _ _ hf' =>
      have he := (findProgramAddress_eq hf').symm.trans hM
      simp only [Address.cardMint.injEq] at he
      exact hburns (.inl ⟨_, rfl, he.1⟩)
  | cashBurn =>
    cases heff with
    | mintVoucher _ _ _ _ _ _ _ _ _ _ _ _ _ hf' =>
      have he := (findProgramAddress_eq hf').symm.trans hM
      simp only [Address.cardMint.injEq] at he
      exact hburns (.inr ⟨_, _, _, rfl, he.1, hm⟩)
  | redeemBurn =>
    cases heff with
    | redeemVoucher _ _ _ hv _ _ _ _ _ hmint => exact hvoucher hv hmint
  | expiredBurn =>
    cases heff with
    | closeExpiredVoucher hv _ _ _ hmint => exact hvoucher hv hmint

/-- **An account that is a card's to close stays one**, with the card's NFT. -/
theorem Step.nft_kept (hg : Grounds P s) (hgranted : s.Granted P) (h : Step P s c s' cs calls ps)
    (ho : c.action.ordinary = true) (hcare : c.careful s = true)
    (hpayers : ∀ A y, s.card? A = some y → y.rentPayer.canSign = true) {y : LoyaltyCard}
    (hy : s.card? A = some y)
    (hi : NamesCard P s A X x y) (hx : s.tokens.accounts.lookup X = some x) (hxc : x.closeAuthority = some A)
    (hx' : s'.tokens.accounts.lookup X = some x') :
    ∃ y', s'.card? A = some y' ∧ NamesCard P s' A X x' y' := by
  obtain ⟨hact, -, -⟩ := careful_parts hcare
  obtain ⟨M, bump, md, hf, rfl, rfl, hm⟩ := hi.holds
  have hM := findProgramAddress_eq hf
  have hno : ¬Burns c.tx s A M y.customer calls ps := fun hb => by
    have := h.burnsClean hg.placed hg.vouchers hg.heldNfts hgranted A y M bump hy hf hb
    rw [hx'] at this
    cases this
  have hof : CardNftOf P s A M (mintedCardMint A md) := by
    have := hg.nfts A y.nftCycle bump _ (by rw [← hM]; exact hm)
    rwa [← hM] at this
  have hunsigned := h.card_unsigned hg.placed hm hof fun z hz hb => by
    rw [hy, Option.some.injEq] at hz
    exact hno (hz ▸ hb)
  have hspares := h.spares hg ho hy hf (Tokens.inUse_of_mint hm) hno
  obtain ⟨hm', hsame⟩ := run_sealed h.tokens hm hx (sealed_minted A M y.customer md) fun k hk =>
    ⟨hunsigned k hk, hspares k hk⟩
  rw [hx', Option.some.injEq] at hsame
  subst hsame
  have hpayer : ¬s'.InUse y.rentPayer := by
    refine h.key_free hg.placed ho (hpayers A y hy) hi.payer fun payer mint owner io rent hopen => ?_
    rw [hopen, Action.careful, decide_eq_true_eq] at hact
    exact (hact _ _ hx A hxc).2 y hy rfl
  rcases h.cardLife hg.placed hg.current A with hcard | hlife
  · exact ⟨y, hcard.trans hy, hpayer, hi.cycle, M, bump, md, hf, rfl, rfl, hm'⟩
  rw [hy] at hlife
  generalize hafter : s'.card? A = after at hlife
  cases hlife with
  | @kept _ y' hcustomer hrent hcycle =>
    refine ⟨y', rfl, hrent ▸ hpayer, hcycle ▸ hi.cycle, M, bump, md, hcycle ▸ hf, ?_, ?_, hm'⟩
    · rw [hcustomer]
    · rw [hcustomer]
  | nextNft _ _ _ hf' hb =>
    obtain ⟨-, rfl⟩ := current_nft hy hf hy hf'
    exact absurd hb hno
  | closed hf' hfree =>
    obtain ⟨-, rfl⟩ := current_nft hy hf hy hf'
    exact absurd (Tokens.inUse_of_mint hm) hfree

/-! ### All of it -/

theorem Step.tidy (hg : Grounds P s) (hgranted : s.Granted P)
    (hcons : ∀ M, M.isVoucherMint = true → s.tokens.Conserved M) (h : Step P s c s' cs calls ps)
    (ho : c.action.ordinary = true) (hcare : c.careful s = true) (hclock : ClockForward (⟨s, c, s'⟩ :: hist))
    (hi : Tidy P hist s) : Tidy P (⟨s, c, s'⟩ :: hist) s' := by
  obtain ⟨hact, hlate, -⟩ := careful_parts hcare
  have hplain := h.plain ho hi.plain
  have hcardPayers : ∀ A y, s.card? A = some y → y.rentPayer.canSign = true :=
    fun A y hy => (hi.cards A y hy).1
  refine ⟨h.tidy_vouchers hlate hi.vouchers, ?_, hplain, h.tidy_frozen hg.vouchers ho hi.frozen, ?_, ?_⟩
  · exact h.tidy_cards hg.placed hg.current hlate (hclock.1 _ List.mem_cons_self) hi.cards
  · intro X x' V hx' hxc hV
    obtain ⟨x, hx, hxc₀⟩ | ⟨accs, uri, hc, rfl, rfl⟩ | ⟨accs, id, uri, hc, rfl, rfl⟩ | ⟨accs, hc, rfl, rfl⟩ :=
      h.named_before ho hx' hxc
    · obtain ⟨v, hv, hn⟩ := hi.voucher X x V hx hxc₀ hV
      have hM : v.mint.isVoucherMint = true := hg.vouchers.isVoucherMint hv
      exact h.named_kept hg (hcons _ hM) ho hcare hclock hi.vouchers hplain hv hn hx hxc₀ hx'
    · obtain ⟨tx, action⟩ := c
      subst hc
      obtain ⟨y, -, -, hy, -⟩ := h.mintCardNft
      rw [hg.placed.card (State.card?_eq_some.mp hy)] at hV
      cases hV
    · obtain ⟨tx, action⟩ := c
      subst hc
      exact h.named_minted hg.placed hact hx'
    · obtain ⟨tx, action⟩ := c
      subst hc
      exact h.named_presented hg.placed hg.vouchers hi.vouchers hact hx'
  · intro X x' A hx' hxc hA
    obtain ⟨x, hx, hxc₀⟩ | ⟨accs, uri, hc, rfl, rfl⟩ | ⟨accs, id, uri, hc, rfl, rfl⟩ | ⟨accs, hc, rfl, rfl⟩ :=
      h.named_before ho hx' hxc
    · obtain ⟨y, hy, hn⟩ := hi.card X x A hx hxc₀ hA
      exact h.nft_kept hg hgranted ho hcare hcardPayers hy hn hx hxc₀ hx'
    · obtain ⟨tx, action⟩ := c
      subst hc
      exact h.nft_minted hg.placed hcardPayers hact hx'
    · obtain ⟨tx, action⟩ := c
      subst hc
      obtain ⟨_, _, _, _, _, _, -, -, -, -, -, -, hf, -⟩ := h.mintVoucher
      rw [findProgramAddress_eq hf] at hA
      cases hA
    · obtain ⟨tx, action⟩ := c
      subst hc
      have heff := h.effect
      cases heff with
      | presentVoucher hv =>
        rw [hg.placed.voucher hv] at hA
        cases hA

/-- Nobody's token account is a voucher's or a card's to close. -/
def State.NamesNone (s : State) : Prop :=
  s.Every fun _ x => ∀ a ∈ x.closeAuthority, a.isVoucher = false ∧ a.isCard = false

instance (s : State) : Decidable s.NamesNone := inferInstanceAs (Decidable (s.Every _))

/-- Every call of the history is an ordinary one, and minded what it must. -/
def Mindful (hist : History) : Prop := ∀ st ∈ hist, st.label.action.ordinary = true ∧
  st.label.careful st.pre = true

theorem State.Empty.tidy (hs : s.Empty) (hnone : s.NamesNone) : Tidy P [] s := by
  have hkey : ∀ X x, s.tokens.accounts.lookup X = some x → x.mint.isVoucherMint = true → False := by
    intro X x hx hM
    obtain ⟨⟨k, hk⟩, -⟩ := hs.accounts hx
    rw [hk] at hM
    cases hM
  refine ⟨?_, ?_, fun X x hx hM => (hkey X x hx hM).elim, fun X x hx hM => (hkey X x hx hM).elim, ?_, ?_⟩
  · intro V v hv
    rw [State.voucher?, State.record?, hs.program] at hv
    cases hv
  · intro A y hy
    rw [State.card?, State.record?, hs.program] at hy
    cases hy
  · intro X x V hx hxc hV
    rw [(hnone X x hx V hxc).1] at hV
    cases hV
  · intro X x A hx hxc hA
    rw [(hnone X x hx A hxc).2] at hA
    cases hA

theorem Run.tidy (h : Run P start hist s) (hs : start.Empty) (hnone : start.NamesNone) (hmind : Mindful hist)
    (hclock : ClockForward hist) : Tidy P hist s := by
  refine h.induct_empty (I := fun hist s => Mindful hist → ClockForward hist → Tidy P hist s) hs
    (fun _ _ => hs.tidy hnone) ?_ hmind hclock
  intro hist s c s' cs calls ps hr hw hcur ih hst hmind hclock
  obtain ⟨⟨ho, hcare⟩, hrest⟩ := List.forall_mem_cons.mp hmind
  have hearlier : ClockForward hist :=
    ⟨(List.forall_mem_cons.mp hclock.1).2, (List.pairwise_cons.mp hclock.2).2⟩
  exact hst.tidy (hr.grounds hs) (hr.granted hs) (fun _ hM => hr.conserved hs hM) ho hcare hclock
    (ih hrest hearlier)

end Passdari
