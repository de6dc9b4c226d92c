/-
A shop nobody looks after any more. Once its offer has run out, its vouchers
have expired and its cards have not been used for a year, anybody can end its
vouchers and cards and then close it, with no signature of anyone, unless one
of its vouchers is blocked or one of its cards cannot be cleared. Those stay
as they are for as long as nobody signs anything.
-/
import Passdari.Books.Drain
import Passdari.Books.Retirement
import Passdari.Lib.HeldTokens

namespace Passdari

open Wire Token2022

variable {P : Platform} {tx : Tx} {s s' start : State} {hist later : History} {c : Call} {cs : List Change}
  {calls : List TokenCall} {ps : List Payment} {action : Action} {A M X V a : Address} {z : LoyaltyCard}
  {v : Voucher} {b : Business} {bump : UInt8} {now : Int64}

/-! ## What needs no signature -/

/-- The instructions that clear away what has had its time. -/
inductive Clears : Action → Prop
  | voucher (accs) : Clears (.program (.closeExpiredVoucher accs))
  | nft (accs) : Clears (.program (.retireIdleCardNft accs))
  | card (accs) : Clears (.program (.closeDeadCard accs))
  | shop (accs) : Clears (.program (.closeBusiness accs))
  | receipt (accs) : Clears (.program (.reclaimExpiredReceipt accs))

/-- Where such an instruction changes tokens. -/
inductive Touches (s : State) : Action → Address → Prop
  | voucherMint {accs} : Touches s (.program (.closeExpiredVoucher accs)) accs.mint
  | voucherToken {accs x} : s.tokens.accounts.lookup accs.holderToken = some x → x.mint = accs.mint →
      Touches s (.program (.closeExpiredVoucher accs)) accs.holderToken
  | cardMint {accs} : Touches s (.program (.retireIdleCardNft accs)) accs.cardMint
  | cardToken {accs} : Touches s (.program (.retireIdleCardNft accs)) accs.cardToken

theorem Effect.unsigned (h : Effect P tx s action cs calls ps) (htx : tx.signers = []) :
    Clears action ∨ cs = [] ∧ ∀ k ∈ calls, k.ctx.signers = [] := by
  have hno : ∀ {k}, k ∉ tx.signers := by simp [htx]
  cases h with
  | closeExpiredVoucher => exact .inl (.voucher _)
  | retireIdleCardNft => exact .inl (.nft _)
  | closeDeadCard => exact .inl (.card _)
  | closeBusiness => exact .inl (.shop _)
  | reclaimExpiredReceipt => exact .inl (.receipt _)
  | pay => exact .inr ⟨rfl, by simp⟩
  | openMint | openToken | closeToken | token => exact .inr ⟨rfl, by simpa using htx⟩
  | initializeCounter hs | registerBusiness hs | updateBusinessConfig hs | migrateBusiness hs
  | handOver hs => exact absurd hs hno
  | presentVoucher _ hs | cancelPresentation _ hs | migrateCard _ hs => exact absurd hs hno
  | mintCardNft _ _ hs | mintVoucher _ _ hs | transferVoucher _ _ hs | claimReceipt _ _ hs =>
    exact absurd hs hno
  | issueReceipt _ _ _ hs | transferStamps _ _ _ hs => exact absurd hs hno
  | redeemVoucher _ _ _ _ _ hs => exact absurd hs hno

/-! ## What it leaves alone -/

theorem Step.clears_frame (h : Step P s c s' cs calls ps) (hc : Clears c.action)
    (hX : ¬Touches s c.action X) :
    s'.tokens.mints.lookup X = s.tokens.mints.lookup X ∧
      s'.tokens.accounts.lookup X = s.tokens.accounts.lookup X := by
  refine run_frame h.tokens ?_
  obtain ⟨tx, action⟩ := c
  obtain ⟨he, -⟩ := h
  cases hc with
  | voucher accs =>
    cases he with
    | @closeExpiredVoucher _ _ _ m _ _ x _ _ _ _ _ _ _ _ _ hx hmint =>
      have hM : X ≠ accs.mint := fun he => hX (he ▸ .voucherMint)
      rw [List.forall_mem_append]
      refine ⟨?_, forall_closeMintCalls (by simpa [Op.touched] using hM)⟩
      cases x with
      | none => simp [burnExpiredCalls]
      | some y =>
        have hT : X ≠ accs.holderToken := fun he => hX (he ▸ .voucherToken hx (hmint y rfl))
        exact forall_burnExpiredCalls (by simpa [Op.touched] using hT) (by simp [Op.touched, hT, hM])
          (by simpa [Op.touched] using hT)
  | nft accs =>
    have hM : X ≠ accs.cardMint := fun he => hX (he ▸ .cardMint)
    have hT : X ≠ accs.cardToken := fun he => hX (he ▸ .cardToken)
    cases he with
    | retireIdleCardNft =>
      exact forall_burnCardNftCalls (by simp [Op.touched, hT, hM]) (by simpa [Op.touched] using hT)
        (fun _ => by simpa [Op.touched] using hT) (by simpa [Op.touched] using hM)
  | card | shop | receipt =>
    cases he
    simp

theorem Step.unsigned_frame (h : Step P s c s' cs calls ps) (htx : c.tx.signers = []) (hu : s.tokens.InUse X)
    (hX : ¬Touches s c.action X) :
    s'.tokens.mints.lookup X = s.tokens.mints.lookup X ∧
      s'.tokens.accounts.lookup X = s.tokens.accounts.lookup X := by
  rcases h.effect.unsigned htx with hc | ⟨-, hcalls⟩
  · exact h.clears_frame hc hX
  · exact run_kept_of_unsigned h.tokens hcalls hu

theorem Effect.clears (h : Effect P tx s action cs calls ps) (hc : Clears action) :
    (∀ k ∈ calls, k.op.opens = none) ∧ ∀ y ∈ cs, y.before ≠ none := by
  cases hc with
  | voucher =>
    cases h
    refine ⟨?_, by simp⟩
    rw [List.forall_mem_append]
    exact ⟨forall_burnExpiredCalls rfl (fun _ => rfl) rfl, forall_closeMintCalls rfl⟩
  | nft =>
    cases h
    exact ⟨forall_burnCardNftCalls (fun _ => rfl) rfl (fun _ => rfl) rfl, by simp⟩
  | card | shop | receipt =>
    cases h
    simp

theorem Step.clears_free (h : Step P s c s' cs calls ps) (hc : Clears c.action) (ha : ¬s.InUse a) :
    ¬s'.InUse a := by
  obtain ⟨hopens, hwritten⟩ := h.effect.clears hc
  rw [State.inUse_iff, not_or, not_or] at ha
  obtain ⟨hp, ht, hrest⟩ := ha
  have htokens : ¬s'.tokens.InUse a := run_invariant (fun t => ¬t.InUse a)
    (fun k hk _ _ hfree hd => hd.not_inUse hfree (by rw [hopens k hk]; simp)) h.tokens ht
  rw [State.inUse_iff, not_or, not_or]
  refine ⟨fun hp' => ?_, htokens, fun hor => ?_⟩
  · rcases h.changed.lookup a with ⟨-, hsame⟩ | ⟨y, hy, rfl, -⟩
    · exact hp (hsame ▸ hp')
    · obtain ⟨q, hq⟩ := Option.ne_none_iff_exists'.mp (hwritten y hy)
      obtain ⟨data, hd, -⟩ := Option.bind_eq_some_iff.mp ((h.changed.before y hy).trans hq)
      exact hp (by rw [hd]; rfl)
  · rcases hor with hf | hdef
    · rcases h.foreign a hf with hf | ⟨-, hact⟩
      · exact hrest (.inl hf)
      · rw [hact] at hc
        cases hc
    · exact hrest (.inr hdef)

theorem Step.unsigned_card (hw : s.WellPlaced) (h : Step P s c s' cs calls ps) (htx : c.tx.signers = [])
    (A : Address) :
    s'.card? A = s.card? A ∨
      (∃ accs z n, c.action = .program (.retireIdleCardNft accs) ∧ accs.card = A ∧ s.card? A = some z ∧
        s'.card? A = some { z with nftCycle := n }) ∨
      ∃ accs z, c.action = .program (.closeDeadCard accs) ∧ accs.card = A ∧ s.card? A = some z ∧
        z.stamps = 0 ∧ s'.card? A = none := by
  rcases h.effect.unsigned htx with hc | ⟨rfl, -⟩
  case inr => exact .inl (by rw [State.card?, h.changed.record?_frame (by simp), State.card?])
  rcases h.card hw A with hsame | hch
  · exact .inl hsame
  obtain ⟨tx, action⟩ := c
  generalize hbefore : s.card? A = before, hafter : s'.card? A = after at hch
  cases hch with
  | nftRetired hadr => exact .inr (.inl ⟨_, _, _, rfl, hadr, rfl, rfl⟩)
  | closed hadr h0 => exact .inr (.inr ⟨_, _, rfl, hadr, rfl, h0, rfl⟩)
  | _ => cases hc

/-! ## Cards that can be cleared -/

/-- The card at `A` can be cleared away: it has no stamps on it, and its NFT, if it has one, can be retired.
-/
structure Clearable (P : Platform) (s : State) (A : Address) (z : LoyaltyCard) : Prop where
  stamps : z.stamps = 0
  nft : ∀ M bump m, findProgramAddress P (.cardMint A z.nftCycle) = some (M, bump) →
    s.tokens.mints.lookup M = some m →
      z.nftCycle.toNat + 1 < 2 ^ 32 ∧ ¬s.Refuses A (.ata z.customer M) false z.rentPayer

/-- The NFT of a card, and the customer's account for it, are touched by its own retirement alone. -/
theorem Step.touches_nft (hacc : PlacedAccounts s.tokens) (ht : s.VoucherTokens P)
    (h : Step P s c s' cs calls ps) (hf : findProgramAddress P (.cardMint A z.nftCycle) = some (M, bump))
    (hX : X = M ∨ X = .ata z.customer M) (htouch : Touches s c.action X) :
    ∃ accs, c.action = .program (.retireIdleCardNft accs) ∧ accs.card = A := by
  have hM := findProgramAddress_eq hf
  subst hM
  obtain ⟨tx, action⟩ := c
  obtain ⟨he, -⟩ := h
  generalize hY : X = Y at htouch
  have hvoucherMint : ∀ {accs}, Effect P tx s (.program (.closeExpiredVoucher accs)) cs calls ps →
      accs.mint.isVoucherMint = true := by
    intro accs he
    cases he with
    | closeExpiredVoucher hv _ _ _ hmint => exact hmint ▸ ht.isVoucherMint (State.voucher?_eq_some.mpr hv)
  have hcardMint : ∀ {accs}, Effect P tx s (.program (.retireIdleCardNft accs)) cs calls ps →
      accs.cardMint = .cardMint A z.nftCycle bump → accs.card = A := by
    intro accs he heq
    cases he with
    | retireIdleCardNft _ _ _ _ hf' =>
      have := heq.symm.trans (findProgramAddress_eq hf')
      rw [Address.cardMint.injEq] at this
      exact this.1.symm
  cases htouch with
  | voucherMint =>
    have hvm := hvoucherMint he
    rw [← hY] at hvm
    rcases hX with rfl | rfl <;> cases hvm
  | @voucherToken accs x hx hmint =>
    have hvm := hvoucherMint he
    rw [← hY] at hx
    rcases hX with rfl | rfl
    · rcases hacc _ x hx with ⟨_, hk⟩ | ⟨_, hk⟩ <;> cases hk
    · rw [← hmint, hacc.mint_eq hx] at hvm
      cases hvm
  | @cardMint accs =>
    rcases hX with rfl | rfl
    · exact ⟨accs, rfl, hcardMint he hY.symm⟩
    · cases he with
      | retireIdleCardNft _ _ _ _ hf' => cases hY.trans (findProgramAddress_eq hf')
  | @cardToken accs =>
    have hat : accs.cardToken = .ata accs.customer accs.cardMint := by
      cases he with
      | retireIdleCardNft _ _ _ _ _ hat => exact hat
    have hY := hY.trans hat
    rcases hX with rfl | rfl
    · cases hY
    · rw [Address.ata.injEq] at hY
      exact ⟨accs, rfl, hcardMint he hY.2.symm⟩

theorem Step.retires_clearable {accs} (h : Step P s ⟨tx, .program (.retireIdleCardNft accs)⟩ s' cs calls ps)
    (hz : s.card? accs.card = some z) :
    z.nftCycle.toNat + 1 < 2 ^ 32 ∧ ∀ M bump, findProgramAddress P (.cardMint accs.card z.nftCycle) = some
      (M, bump) → ¬s.Refuses accs.card (.ata z.customer M) false z.rentPayer := by
  have hrec := State.card?_eq_some.mp hz
  obtain ⟨he, -, hr, -⟩ := h
  cases he with
  | @retireIdleCardNft _ _ _ _ n hc _ hcustomer hpayer hf hat _ _ _ hn =>
    rw [hc, Option.some.injEq, Record.card.injEq] at hrec
    subst hrec
    have := n.toNat_lt
    refine ⟨by rw [addU32_eq_ok] at hn; simpa [hn] using this, fun M bump hf' hex => ?_⟩
    rw [hf, Option.some.injEq, Prod.mk.injEq] at hf'
    obtain ⟨rfl, rfl⟩ := hf'
    obtain ⟨x, hx, hg, hd, hc⟩ := hex
    rw [hcustomer, ← hat] at hx
    rw [hx] at hr
    exact hd (hpayer.trans (burnCardNftCalls_free hr hx hc hg))

/-- A card that cannot be cleared is not, and stays so, when nobody signs. -/
theorem Step.stays_uncleared (hs : s.NftSound P) (ht : s.VoucherTokens P) (h : Step P s c s' cs calls ps)
    (htx : c.tx.signers = []) (hz : s.card? A = some z) (hno : ¬Clearable P s A z) :
    ∃ z', s'.card? A = some z' ∧ z'.business = z.business ∧ ¬Clearable P s' A z' := by
  have hcard := h.unsigned_card hs.placed htx A
  by_cases h0 : z.stamps = 0
  · -- it is the NFT that is in the way, and that is not touched
    obtain ⟨M, bump, m, hf, hm, hstuck⟩ : ∃ M bump m, findProgramAddress P (.cardMint A z.nftCycle) = some
        (M, bump) ∧ s.tokens.mints.lookup M = some m ∧
        (z.nftCycle.toNat + 1 < 2 ^ 32 → s.Refuses A (.ata z.customer M) false z.rentPayer) := by
      by_contra hall
      exact hno ⟨h0, fun M bump m hf hm => by_contra fun hnot => hall ⟨M, bump, m, hf, hm, fun hcycle =>
        by_contra fun hfree => hnot ⟨hcycle, hfree⟩⟩⟩
    have hnot : ∀ accs, c.action = .program (.retireIdleCardNft accs) → accs.card ≠ A := by
      intro accs hact hA
      obtain ⟨tx, action⟩ := c
      subst hact hA
      obtain ⟨hcycle, hfree⟩ := h.retires_clearable hz
      exact hfree M bump hf (hstuck hcycle)
    have htouch : ∀ X, X = M ∨ X = .ata z.customer M → ¬Touches s c.action X := by
      intro X hX ht'
      obtain ⟨accs, hact, hA⟩ := h.touches_nft hs.accounts ht hf hX ht'
      exact hnot accs hact hA
    have hm' : s'.tokens.mints.lookup M = some m :=
      (h.unsigned_frame htx (Tokens.inUse_of_mint hm) (htouch M (.inl rfl))).1.trans hm
    have hstuck' : z.nftCycle.toNat + 1 < 2 ^ 32 → s'.Refuses A (.ata z.customer M) false z.rentPayer := by
      intro hcycle
      obtain ⟨x, hx, hrest⟩ := hstuck hcycle
      have hu : s.tokens.InUse (.ata z.customer M) := by
        by_contra hfree
        cases (not_inUse.mp hfree).2.symm.trans hx
      exact ⟨x, (h.unsigned_frame htx hu (htouch _ (.inr rfl))).2.trans hx, hrest⟩
    rcases hcard with hsame | ⟨accs, _, _, hact, hA, -⟩ | ⟨accs, _, hact, hA, -⟩
    · refine ⟨z, hsame.trans hz, rfl, fun hclear => ?_⟩
      obtain ⟨hcycle, hfree⟩ := hclear.nft M bump m hf hm'
      exact hfree (hstuck' hcycle)
    · exact absurd hA (hnot accs hact)
    · obtain ⟨tx, action⟩ := c
      subst hact hA
      obtain ⟨he, -⟩ := h
      cases he with
      | closeDeadCard hc _ _ _ _ _ hf' _ _ _ hfree =>
        obtain ⟨rfl, rfl⟩ := current_nft hz hf (State.card?_eq_some.mpr hc) hf'
        exact absurd (Tokens.inUse_of_mint hm) hfree
  · rcases hcard with hsame | ⟨accs, z', n, -, -, hz', hafter⟩ | ⟨accs, z', -, -, hz', hstamps, -⟩
    · exact ⟨z, hsame.trans hz, rfl, fun hclear => h0 hclear.stamps⟩
    · rw [hz, Option.some.injEq] at hz'
      subst hz'
      exact ⟨_, hafter, rfl, fun hclear => h0 hclear.stamps⟩
    · rw [hz, Option.some.injEq] at hz'
      subst hz'
      exact absurd hstamps h0

/-! ## Vouchers that are blocked -/

theorem Step.stays_blocked {m : Mint Address} (hl : Live P s V v b m) (hn : s.Numbered P)
    (h : Step P s c s' cs calls ps) (htx : c.tx.signers = []) (hblock : Blocked s V v) :
    s'.voucher? V = some v ∧ Blocked s' V v := by
  have hno : ∀ {k}, k ∉ c.tx.signers := by simp [htx]
  have hexp : ∀ accs, c.action = .program (.closeExpiredVoucher accs) → accs.voucher ≠ V := by
    intro accs hact hV
    obtain ⟨tx, action⟩ := c
    subst hact hV
    exact hl.free_of_expired h.effect hblock
  constructor
  · rcases h.voucher V with hsame | hch
    · exact hsame.trans hl.voucher
    obtain ⟨tx, action⟩ := c
    rw [hl.voucher] at hch
    generalize s'.voucher? V = after at hch
    cases hch with
    | handed _ hs | redeemed _ _ _ _ hs => exact absurd hs hno
    | expired hV => exact absurd hV (hexp _ rfl)
  · obtain ⟨X, x, hx, hmint, hrest⟩ := hblock
    have hvm := hl.isVoucherMint
    have hu : s.tokens.InUse X := by
      by_contra hfree
      cases (not_inUse.mp hfree).2.symm.trans hx
    refine ⟨X, x, (h.unsigned_frame htx hu fun htouch => ?_).2.trans hx, hmint, hrest⟩
    obtain ⟨tx, action⟩ := c
    obtain ⟨he, -⟩ := h
    cases htouch with
    | voucherMint =>
      cases he with
      | closeExpiredVoucher hv₁ _ _ _ hm₁ =>
        have hM := hm₁ ▸ hl.tokens.isVoucherMint (State.voucher?_eq_some.mpr hv₁)
        cases (hl.tokens.accounts.not_mint hM).symm.trans hx
    | voucherToken hy hym =>
      rw [hx, Option.some.injEq] at hy
      subst hy
      cases he with
      | closeExpiredVoucher hv₁ _ _ _ hm₁ =>
        exact hexp _ rfl (hl.tokens.mint_inj hn hl.voucher (State.voucher?_eq_some.mpr hv₁)
          (hm₁.trans (hym.symm.trans hmint)))
    | cardMint =>
      cases he with
      | retireIdleCardNft _ _ _ _ hf =>
        rw [findProgramAddress_eq hf] at hx
        rcases hl.tokens.accounts _ x hx with ⟨_, hk⟩ | ⟨_, hk⟩ <;> cases hk
    | cardToken =>
      cases he with
      | retireIdleCardNft _ _ _ _ hf hat =>
        rw [hat] at hx
        rw [← hmint, hl.tokens.accounts.mint_eq hx, findProgramAddress_eq hf] at hvm
        cases hvm

/-! ## In the way for good -/

def Unsigned (hist : History) : Prop := ∀ st ∈ hist, st.label.tx.signers = []

theorem Unsigned.one {st : Taken} (h : st.label.tx.signers = []) : Unsigned [st] := by
  intro x hx
  rw [List.mem_singleton.mp hx, h]

theorem Unsigned.append (h : Unsigned later) (h' : Unsigned hist) : Unsigned (later ++ hist) := by
  intro st hst
  rcases List.mem_append.mp hst with hst | hst
  · exact h st hst
  · exact h' st hst

theorem Run.stays_uncleared (hrun : Run P start hist s) (hs : start.Empty) (hlater : Run P s later s')
    (hall : Unsigned later) (hz : s.card? A = some z) (hno : ¬Clearable P s A z) :
    ∃ z', s'.card? A = some z' ∧ z'.business = z.business ∧ ¬Clearable P s' A z' := by
  induction hlater with
  | nil => exact ⟨z, hz, rfl, hno⟩
  | step hmid hnext ih =>
    obtain ⟨x, hx, hbus, hnox⟩ := ih fun st hmem => hall st (List.mem_cons_of_mem _ hmem)
    have hrun₁ := Runs.Run.append hrun hmid
    have hsound := Run.nftSound hrun₁ hs.nftSound
    obtain ⟨_, _, _, hst⟩ := hnext.step hsound.placed
    obtain ⟨y, hy, hbus', hnoy⟩ := hst.stays_uncleared hsound (Run.voucherTokens hrun₁ hs)
      (hall _ List.mem_cons_self) hx hnox
    exact ⟨y, hy, hbus'.trans hbus, hnoy⟩

theorem Run.stays_blocked (hrun : Run P start hist s) (hs : start.Empty) (hlater : Run P s later s')
    (hall : Unsigned later) (hv : s.voucher? V = some v) (hblock : Blocked s V v) :
    s'.voucher? V = some v ∧ Blocked s' V v := by
  induction hlater with
  | nil => exact ⟨hv, hblock⟩
  | step hmid hnext ih =>
    obtain ⟨hv₁, hblock₁⟩ := ih fun st hmem => hall st (List.mem_cons_of_mem _ hmem)
    have hrun₁ := Runs.Run.append hrun hmid
    obtain ⟨b, hb, -⟩ := Run.business_of_voucher hrun₁ hs hv₁
    obtain ⟨m, hl⟩ := Run.live hrun₁ hs hv₁ hb
    obtain ⟨_, _, _, hst⟩ := hnext.step hl.placed
    exact hst.stays_blocked hl (Run.numbered hrun₁ hs) (hall _ List.mem_cons_self) hblock₁

def CardsClearable (P : Platform) (s : State) (a : Address) : Prop :=
  ∀ A z, s.card? A = some z → z.business = a → Clearable P s A z

/-- A shop that was closed without a signature had nothing in the way. -/
theorem Run.nothing_in_the_way (hrun : Run P start hist s) (hs : start.Empty) (hlater : Run P s later s')
    (hall : Unsigned later) (hgone : s'.business? a = none) : Free s a ∧ CardsClearable P s a := by
  have hrun' := Runs.Run.append hrun hlater
  constructor
  · intro V v hv hbus hblock
    obtain ⟨hv', -⟩ := hrun.stays_blocked hs hlater hall hv hblock
    obtain ⟨x, hx, -⟩ := Run.business_of_voucher hrun' hs hv'
    cases (hbus ▸ hgone).symm.trans hx
  · intro A z hz hbus
    by_contra hno
    obtain ⟨z', hz', hbus', -⟩ := hrun.stays_uncleared hs hlater hall hz hno
    obtain ⟨x, hx, -⟩ := Run.business_of_card hrun' hs hz'
    rw [hbus', hbus, hgone] at hx
    cases hx

/-! ## What is left of the rest -/

/-- A card nobody uses any more: a year has passed since its last stamp, and the wallet that paid for it can
be paid back. -/
structure Disused (now : Int64) (s : State) (z : LoyaltyCard) : Prop where
  payer : ¬s.InUse z.rentPayer
  dead : ∃ since, subI64 now z.lastStampTs = .ok since ∧ cardDeadSeconds ≤ since

/-- The shop's offer has run out, its vouchers have expired and its cards are disused. -/
structure Abandoned (now : Int64) (s : State) (a : Address) (b : Business) : Prop where
  shop : s.business? a = some b
  lock : b.termsLockedUntil ≤ now
  payer : ¬s.InUse b.rentPayer
  vouchers : Due now s a
  cards : ∀ A z, s.card? A = some z → z.business = a → Disused now s z

/-- A card of the state after was one before, with the same data but for the NFT. -/
theorem Step.unsigned_card_before (hw : s.WellPlaced) (h : Step P s c s' cs calls ps)
    (htx : c.tx.signers = [])
    {z' : LoyaltyCard} (hz' : s'.card? A = some z') :
    ∃ z, s.card? A = some z ∧ z' = { z with nftCycle := z'.nftCycle } := by
  rcases h.unsigned_card hw htx A with hsame | ⟨_, z, n, -, -, hz, hafter⟩ | ⟨_, _, -, -, -, -, hafter⟩
  · exact ⟨z', hsame.symm.trans hz', rfl⟩
  · rw [hz', Option.some.injEq] at hafter
    subst hafter
    exact ⟨z, hz, rfl⟩
  · cases hz'.symm.trans hafter

theorem Step.abandoned (hw : s.WellPlaced) (h : Step P s c s' cs calls ps) (htx : c.tx.signers = [])
    (hc : Clears c.action) (hopen : s'.business? a ≠ none) (hab : Abandoned now s a b) :
    ∃ b', Abandoned now s' a b' := by
  obtain ⟨b', hb', hlock, hpayer⟩ : ∃ b', s'.business? a = some b' ∧
      b'.termsLockedUntil = b.termsLockedUntil ∧ b'.rentPayer = b.rentPayer := by
    rcases h.shop hw a with hsame | hch
    · exact ⟨b, hsame.trans hab.shop, rfl, rfl⟩
    obtain ⟨tx, action⟩ := c
    rw [hab.shop] at hch
    generalize s'.business? a = after at hch hopen ⊢
    cases hch with
    | closed => exact absurd rfl hopen
    | cardClosed | voucherExpired => exact ⟨_, rfl, rfl, rfl⟩
    | _ => cases hc
  refine ⟨b', hb', hlock ▸ hab.lock, hpayer ▸ h.clears_free hc hab.payer, fun V v hv hbus => ?_,
    fun A z hz hbus => ?_⟩
  · have hv₀ : s.voucher? V = some v := by
      rcases h.voucher V with hsame | hch
      · exact hsame.symm.trans hv
      obtain ⟨tx, action⟩ := c
      rw [hv] at hch
      generalize s.voucher? V = before at hch ⊢
      cases hch <;> cases hc
    obtain ⟨hexp, hfree⟩ := hab.vouchers V v hv₀ hbus
    exact ⟨hexp, h.clears_free hc hfree⟩
  · obtain ⟨z₀, hz₀, he⟩ := h.unsigned_card_before hw htx hz
    rw [he] at hbus ⊢
    obtain ⟨hfree, hdead⟩ := hab.cards A z₀ hz₀ hbus
    exact ⟨h.clears_free hc hfree, hdead⟩

/-- The NFT that would be a retired card's next is not there yet. -/
theorem Step.no_next_nft (hs : s.NftSound P) (h : Step P s c s' cs calls ps) (hc : Clears c.action)
    (hz : s.card? A = some z) {n : UInt32} (hn : n ≠ z.nftCycle)
    (hf : findProgramAddress P (.cardMint A n) = some (M, bump)) : s'.tokens.mints.lookup M = none := by
  have hM := findProgramAddress_eq hf
  have hnone : s.tokens.mints.lookup M = none := by
    cases hm : s.tokens.mints.lookup M with
    | none => rfl
    | some m =>
      rw [hM] at hm
      obtain ⟨x, _, hx, hf'⟩ := (hs.nfts A n bump m hm).current
      rw [hz, Option.some.injEq] at hx
      subst hx
      have := findProgramAddress_eq hf'
      rw [Address.cardMint.injEq] at this
      exact absurd this.2.1 hn
  cases hm : s'.tokens.mints.lookup M with
  | none => rfl
  | some m =>
    obtain ⟨k, hk, m₀, hop⟩ := run_opens_mint h.tokens hnone hm
    have := (h.effect.clears hc).1 k hk
    rw [hop] at this
    cases this

theorem Step.cards_clearable (hs : s.NftSound P) (ht : s.VoucherTokens P) (h : Step P s c s' cs calls ps)
    (htx : c.tx.signers = []) (hc : Clears c.action)
    (hfind : ∀ A n, ∃ M bump, findProgramAddress P (.cardMint A n) = some (M, bump))
    (hcl : CardsClearable P s a) : CardsClearable P s' a := by
  intro A z' hz' hbus
  obtain ⟨z, hz, he⟩ := h.unsigned_card_before hs.placed htx hz'
  obtain ⟨M, bump, hf⟩ := hfind A z.nftCycle
  have hclear := hcl A z hz (by rw [he] at hbus; exact hbus)
  have hstamps : z'.stamps = 0 := by
    rw [he]
    exact hclear.stamps
  by_cases hret : ∃ accs, c.action = .program (.retireIdleCardNft accs) ∧ accs.card = A
  · obtain ⟨x, hx, hcycle⟩ := (h.retired hs hz hf (.inl hret)).cycle
    rw [hz', Option.some.injEq] at hx
    subst hx
    refine ⟨hstamps, fun M' bump' m hf' hm => ?_⟩
    cases (h.no_next_nft hs hc hz (fun he => by rw [he] at hcycle; omega) hf').symm.trans hm
  · have hsame : z' = z := by
      rcases h.unsigned_card hs.placed htx A with hsame | ⟨accs, _, _, hact, hA, -⟩
        | ⟨_, _, -, -, -, -, hgone⟩
      · exact Option.some.inj (hz'.symm.trans (hsame.trans hz))
      · exact absurd ⟨accs, hact, hA⟩ hret
      · cases hz'.symm.trans hgone
    subst hsame
    refine ⟨hstamps, fun M' bump' m hf' hm => ?_⟩
    have hframe : ∀ X, X = M' ∨ X = .ata z'.customer M' → s'.tokens.mints.lookup X = s.tokens.mints.lookup X ∧
        s'.tokens.accounts.lookup X = s.tokens.accounts.lookup X := fun X hX =>
      h.clears_frame hc fun htouch => hret (h.touches_nft hs.accounts ht hf' hX htouch)
    obtain ⟨hcycle, hfree⟩ := hclear.nft M' bump' m hf' ((hframe _ (.inl rfl)).1.symm.trans hm)
    refine ⟨hcycle, fun hex => hfree ?_⟩
    obtain ⟨x, hx, hrest⟩ := hex
    exact ⟨x, (hframe _ (.inr rfl)).2.symm.trans hx, hrest⟩

/-! ## One card after the other -/

/-- The shop is as good as closed but for its cards, and every one of them can be cleared. -/
structure Closing (P : Platform) (now : Int64) (s : State) (a : Address) (b : Business) : Prop where
  abandoned : Abandoned now s a b
  vouchers : b.openVouchers = 0
  cards : CardsClearable P s a

theorem Closing.closes_card (h : Closing P now s a b) (hs : s.NftSound P) (hz : s.card? A = some z)
    (hbus : z.business = a) (hf : findProgramAddress P (.cardMint A z.nftCycle) = some (M, bump))
    (hm : s.tokens.mints.lookup M = none) :
    ∃ s', Next P s ⟨⟨now, []⟩, .program (.closeDeadCard ⟨A, a, M, z.rentPayer⟩)⟩ s' := by
  have hrec := State.card?_eq_some.mp hz
  have hb := State.business?_eq_some.mp h.abandoned.shop
  obtain ⟨hpayer, since, hsince, hdead⟩ := h.abandoned.cards A z hz hbus
  have haddr : createProgramAddress P (.card z.business z.customer) z.bump = some A :=
    createProgramAddress_eq_some.mpr ⟨hs.offCurve A _ hrec, hs.placed.card hrec⟩
  have hfree : ¬s.TokenOwned M := by
    have hx : s.tokens.accounts.lookup M = none := by
      cases hx : s.tokens.accounts.lookup M with
      | none => rfl
      | some x =>
        rw [findProgramAddress_eq hf] at hx
        rcases hs.accounts _ x hx with ⟨_, hk⟩ | ⟨_, hk⟩ <;> cases hk
    exact not_inUse.mpr ⟨hm, hx⟩
  obtain ⟨s₁, hst⟩ := store_business_ok { b with openCards := satSubU32 b.openCards 1 } hb rfl rfl rfl rfl
  refine ⟨close s₁ A z.rentPayer, (by simp), ?_⟩
  show closeDeadCard P ⟨now, []⟩ ⟨A, a, M, z.rentPayer⟩ s = .ok _
  simp only [closeDeadCard, Except.bind_eq_ok, load_eq_ok, systemAccount_eq_ok, seedsConstraintWith_eq_ok,
    closeConstraint_eq_ok, seedsConstraint_eq_ok, check_eq_ok, require_eq_ok, exists_const]
  exact ⟨z, hrec, b, hb, hpayer, haddr, ⟨rfl, fun he => hpayer (he ▸ State.inUse_of_record? hrec)⟩, hbus.symm,
    bump, hf, (h.cards A z hz hbus).stamps, since, hsince, hdead, hfree, s₁, hst, rfl⟩

theorem Closing.step {b' : Business} (h : Closing P now s a b) (hrun : Run P start hist s) (hs : start.Empty)
    (hst : Step P s c s' cs calls ps) (htx : c.tx.signers = []) (hc : Clears c.action)
    (hfind : ∀ A n, ∃ M bump, findProgramAddress P (.cardMint A n) = some (M, bump))
    (hb' : s'.business? a = some b') (h0 : b'.openVouchers = b.openVouchers) : Closing P now s' a b' := by
  have hsound := hrun.nftSound hs.nftSound
  obtain ⟨b₁, hab⟩ := hst.abandoned hsound.placed htx hc (by rw [hb']; simp) h.abandoned
  obtain rfl := Option.some.inj (hab.shop.symm.trans hb')
  exact ⟨hab, h0.trans h.vouchers, hst.cards_clearable hsound (hrun.voucherTokens hs) htx hc hfind h.cards⟩

theorem Run.card_closed (hrun : Run P start hist s) (hs : start.Empty) (h : Closing P now s a b)
    (hfind : ∀ A n, ∃ M bump, findProgramAddress P (.cardMint A n) = some (M, bump))
    (hz : s.card? A = some z) (hbus : z.business = a)
    (hf : findProgramAddress P (.cardMint A z.nftCycle) = some (M, bump))
    (hm : s.tokens.mints.lookup M = none) :
    ∃ later s' b', Run P s later s' ∧ Unsigned later ∧ Closing P now s' a b' ∧
      b'.openCards.toNat + 1 = b.openCards.toNat := by
  have hsound := hrun.nftSound hs.nftSound
  obtain ⟨s', hnext⟩ := h.closes_card hsound hz hbus hf hm
  obtain ⟨_, _, _, hst⟩ := hnext.step hsound.placed
  obtain ⟨b₀, z₀, hb₀, -, -, -, hb'⟩ := hst.closeDeadCard
  obtain rfl := Option.some.inj (hb₀.symm.trans h.abandoned.shop)
  obtain ⟨x, hx, hpos⟩ := hrun.business_of_card hs hz
  rw [hbus, h.abandoned.shop, Option.some.injEq] at hx
  subst hx
  exact ⟨_, s', _, Runs.Run.nil.step hnext, .one rfl, h.step hrun hs hst rfl (.card _) hfind hb' rfl,
    toNat_satSub_one hpos⟩

theorem Run.card_cleared (hrun : Run P start hist s) (hs : start.Empty) (h : Closing P now s a b)
    (hfind : ∀ A n, ∃ M bump, findProgramAddress P (.cardMint A n) = some (M, bump))
    (hz : s.card? A = some z) (hbus : z.business = a) :
    ∃ later s' b', Run P s later s' ∧ Unsigned later ∧ Closing P now s' a b' ∧
      b'.openCards.toNat + 1 = b.openCards.toNat := by
  have hsound := hrun.nftSound hs.nftSound
  obtain ⟨M, bump, hf⟩ := hfind A z.nftCycle
  cases hm : s.tokens.mints.lookup M with
  | none => exact hrun.card_closed hs h hfind hz hbus hf hm
  | some m =>
    obtain ⟨hpayer, since, hsince, hdead⟩ := h.abandoned.cards A z hz hbus
    have hdue : SweepDue s ⟨now, []⟩ z :=
      ⟨(by simp), hpayer, since, hsince, Int64.le_trans (by decide) hdead⟩
    obtain ⟨s₁, hok⟩ := (hsound.sweeps_iff hz hf hm hdue).mpr ((h.cards A z hz hbus).nft M bump m hf hm)
    have hnext : Next P s ⟨⟨now, []⟩, .program (.retireIdleCardNft (z.retirement A M))⟩ s₁ := ⟨(by simp), hok⟩
    obtain ⟨_, _, _, hst⟩ := hnext.step hsound.placed
    have hb₁ : s₁.business? a = some b := by
      rcases hst.shop hsound.placed a with hsame | hch
      · exact hsame.trans h.abandoned.shop
      · cases hch
    have h₁ := h.step hrun hs hst rfl (.nft _) hfind hb₁ rfl
    obtain ⟨z₁, hz₁, hcycle⟩ := (hst.retired hsound hz hf (.inl ⟨_, rfl, rfl⟩)).cycle
    have hbus₁ : z₁.business = a := by
      obtain ⟨z₀, hz₀, he⟩ := hst.unsigned_card_before hsound.placed rfl hz₁
      rw [hz, Option.some.injEq] at hz₀
      subst hz₀
      rw [he]
      exact hbus
    obtain ⟨M₁, bump₁, hf₁⟩ := hfind A z₁.nftCycle
    have hm₁ := hst.no_next_nft hsound (.nft _) hz (fun he => by rw [he] at hcycle; omega) hf₁
    obtain ⟨later, s', b', hlater, hall, h', hcount⟩ :=
      Run.card_closed (hrun.step hnext) hs h₁ hfind hz₁ hbus₁ hf₁ hm₁
    exact ⟨later ++ [⟨s, _, s₁⟩], s', b', (Runs.Run.nil.step hnext).append hlater, hall.append (.one rfl), h',
      hcount⟩

theorem State.exists_card (h : 0 < s.liveCards a) : ∃ A z, s.card? A = some z ∧ z.business = a := by
  obtain ⟨A, r, hr, hw⟩ := State.exists_of_total_pos h
  cases r with
  | card z =>
    simp only [cardOf] at hw
    split at hw
    · next hbus => exact ⟨A, z, State.card?_eq_some.mpr hr, hbus⟩
    · exact absurd hw (Nat.lt_irrefl 0)
  | _ => exact absurd hw (Nat.lt_irrefl 0)

theorem Run.cards_cleared (hs : start.Empty) {n : Nat} (hrun : Run P start hist s) (h : Closing P now s a b)
    (hfind : ∀ A n, ∃ M bump, findProgramAddress P (.cardMint A n) = some (M, bump))
    (hn : b.openCards.toNat = n) :
    ∃ later s' b', Run P s later s' ∧ Unsigned later ∧ Closing P now s' a b' ∧ b'.openCards = 0 := by
  induction n generalizing hist s b with
  | zero => exact ⟨[], s, b, .nil, (fun _ hmem => by cases hmem), h, UInt32.toNat_inj.mp hn⟩
  | succ n ih =>
    have hlive : 0 < s.liveCards a := by
      rw [hrun.openCards hs, State.figure_of_some h.abandoned.shop, hn]
      exact Nat.succ_pos n
    obtain ⟨A, z, hz, hbus⟩ := State.exists_card hlive
    obtain ⟨round, s₁, b₁, hround, hall, h₁, hcount⟩ := hrun.card_cleared hs h hfind hz hbus
    obtain ⟨later, s', b', hlater, hall', h', h0⟩ := ih (hrun.append hround) h₁ (by omega)
    exact ⟨later ++ round, s', b', hround.append hlater, hall'.append hall, h', h0⟩

/-! ## The whole -/

/-- The vouchers go first. What is cleaned up next to them leaves the cards alone. -/
theorem Run.vouchers_cleared (hrun : Run P start hist s) (hs : start.Empty) (hab : Abandoned now s a b)
    (hfind : ∀ A n, ∃ M bump, findProgramAddress P (.cardMint A n) = some (M, bump)) (hfree : Free s a)
    (hcl : CardsClearable P s a) :
    ∃ later s' b', Run P s later s' ∧ Unsigned later ∧ Closing P now s' a b' := by
  obtain ⟨later, s', b', hlater, hall, hb', h0⟩ := hrun.drained hs hab.shop rfl hab.vouchers hfree
  have hkept : (∃ b, Abandoned now s' a b) ∧ CardsClearable P s' a := by
    clear hb'
    induction hlater with
    | nil => exact ⟨⟨b, hab⟩, hcl⟩
    | step hmid hnext ih =>
      obtain ⟨⟨b₁, hab₁⟩, hcl₁⟩ := ih fun st hmem => hall st (List.mem_cons_of_mem _ hmem)
      obtain ⟨accs, hlabel⟩ := hall _ List.mem_cons_self
      have hlabel : _ = _ := hlabel
      subst hlabel
      have hrun₁ := Runs.Run.append hrun hmid
      have hsound := Run.nftSound hrun₁ hs.nftSound
      obtain ⟨_, _, _, hst⟩ := hnext.step hsound.placed
      refine ⟨hst.abandoned hsound.placed rfl (.voucher accs) (fun hgone => ?_) hab₁,
        hst.cards_clearable hsound (Run.voucherTokens hrun₁ hs) rfl (.voucher accs) hfind hcl₁⟩
      rcases hst.shop hsound.placed a with hsame | hch
      · cases hgone.symm.trans (hsame.trans hab₁.shop)
      · rw [hgone, hab₁.shop] at hch
        cases hch
  obtain ⟨⟨b₁, hab₁⟩, hcl₁⟩ := hkept
  obtain rfl := Option.some.inj (hab₁.shop.symm.trans hb')
  refine ⟨later, s', b₁, hlater, fun st hmem => ?_, hab₁, h0, hcl₁⟩
  obtain ⟨_, hlabel⟩ := hall st hmem
  rw [hlabel]

theorem Closing.closes (h : Closing P now s a b) (hrun : Run P start hist s) (hs : start.Empty)
    (h0 : b.openCards = 0) : ∃ s', Next P s ⟨⟨now, []⟩, .program (.closeBusiness ⟨a, b.rentPayer⟩)⟩ s' := by
  have hb := State.business?_eq_some.mp h.abandoned.shop
  refine ⟨close s a b.rentPayer, (by simp), ?_⟩
  show closeBusiness P ⟨now, []⟩ ⟨a, b.rentPayer⟩ s = .ok _
  simp only [closeBusiness, Except.bind_eq_ok, load_eq_ok, systemAccount_eq_ok, seedsConstraintWith_eq_ok,
    closeConstraint_eq_ok, closeBusinessHandler_eq_ok, exists_const]
  exact ⟨b, hb, h.abandoned.payer, hrun.business_seeds hs h.abandoned.shop,
    ⟨rfl, fun he => h.abandoned.payer (he ▸ State.inUse_of_record? hb)⟩,
    ⟨h.abandoned.lock, h0, h.vouchers⟩, rfl⟩

/-- **An abandoned shop can be closed with no signature of anyone**, its vouchers and cards before it, exactly
when none of its vouchers is blocked and every card of it can be cleared. -/
theorem abandoned_shop_iff (hrun : Run P start hist s) (hs : start.Empty) (hab : Abandoned now s a b)
    (hfind : ∀ A n, ∃ M bump, findProgramAddress P (.cardMint A n) = some (M, bump)) :
    (∃ later s', Run P s later s' ∧ Unsigned later ∧ s'.business? a = none) ↔
      Free s a ∧ CardsClearable P s a := by
  constructor
  · intro hex
    obtain ⟨later, s', hlater, hall, hgone⟩ := hex
    exact hrun.nothing_in_the_way hs hlater hall hgone
  · intro hor
    obtain ⟨hfree, hcl⟩ := hor
    obtain ⟨clean, s₁, b₁, hclean, hall₁, h₁⟩ := hrun.vouchers_cleared hs hab hfind hfree hcl
    have hrun₁ := Runs.Run.append hrun hclean
    obtain ⟨cleared, s₂, b₂, hcleared, hall₂, h₂, h0⟩ := Run.cards_cleared hs hrun₁ h₁ hfind rfl
    have hrun₂ := Runs.Run.append hrun₁ hcleared
    obtain ⟨s', hnext⟩ := h₂.closes hrun₂ hs h0
    obtain ⟨_, _, _, hst⟩ := hnext.step (Run.wellPlaced hrun₂ hs.wellPlaced)
    obtain ⟨-, -, -, hgone, -⟩ := hst.closeBusiness
    exact ⟨_, s', (hclean.append hcleared).step hnext, (Unsigned.one rfl).append (hall₂.append hall₁), hgone⟩

namespace Sample

/-- A customer earned a voucher and minted an NFT, and nobody did anything since. -/
def leftAlone : List Call :=
  [register 1000 1 0, issue 1010 7, claim 1020 9 7, cashIn 1030 9 0, mintNft 1040 9 (key 2)]

def late : Int64 := 40000000

def deserted (s : State) : Bool :=
  (s.business? shop).any (fun b => b.termsLockedUntil ≤ late ∧ ¬s.InUse b.rentPayer) &&
    s.program.entries.all (fun e => (Record.parse e.2).all fun r =>
      r.voucher?.all (fun v => v.expiresAt < late ∧ ¬s.InUse v.rentPayer) &&
        r.card?.all (fun z => z.stamps = 0 ∧ z.nftCycle = 0 ∧ z.lastStampTs = 1020 ∧ ¬s.InUse z.rentPayer)) &&
    s.tokens.accounts.entries.all (fun e => !e.2.cpiGuard) &&
    (s.voucher? (voucher 0)).isSome && (s.tokens.mints.lookup (nft 9 0)).isSome

end Sample

/-- A shop with a voucher, a card and its NFT left over is cleared away. -/
theorem abandoned_shop_iff_cleared : ∃ hist s later s', Run Sample.platform Sample.start hist s ∧
    (s.voucher? (Sample.voucher 0)).isSome = true ∧
    (s.tokens.mints.lookup (Sample.nft 9 0)).isSome = true ∧
    Run Sample.platform s later s' ∧ Unsigned later ∧ s'.business? Sample.shop = none := by
  have hleads : Leads Sample.platform Sample.start Sample.leftAlone Sample.deserted = true := by
    decide +kernel
  obtain ⟨hist, s, hrun, -, hp⟩ := Leads.run hleads
  simp only [Sample.deserted, Bool.and_eq_true, Option.any_eq_true, Option.all_eq_true, List.all_eq_true,
    decide_eq_true_eq, Bool.not_eq_true'] at hp
  obtain ⟨⟨⟨⟨⟨b, hb, hlock, hpayer⟩, hrecords⟩, hguard⟩, hvoucher⟩, hnft⟩ := hp
  have hrecord : ∀ {a r}, s.record? a = some r →
      (∀ v, r.voucher? = some v → v.expiresAt < Sample.late ∧ ¬s.InUse v.rentPayer) ∧
        ∀ z, r.card? = some z →
          z.stamps = 0 ∧ z.nftCycle = 0 ∧ z.lastStampTs = 1020 ∧ ¬s.InUse z.rentPayer := by
    intro a r hr
    obtain ⟨data, hd, hp⟩ := Option.bind_eq_some_iff.mp hr
    exact hrecords _ (Store.mem_entries_of_lookup hd) r hp
  have hoff : ∀ {X : Address} {x : Account Address}, s.tokens.accounts.lookup X = some x →
    x.cpiGuard = false :=
    fun hx => hguard _ (Store.mem_entries_of_lookup hx)
  have hab : Abandoned Sample.late s Sample.shop b := by
    refine ⟨hb, hlock, hpayer, fun V v hv _ => (hrecord (State.voucher?_eq_some.mp hv)).1 v rfl,
      fun A z hz _ => ?_⟩
    obtain ⟨-, -, hlast, hfree⟩ := (hrecord (State.card?_eq_some.mp hz)).2 z rfl
    exact ⟨hfree, 39998980, by rw [hlast]; rfl, by decide⟩
  have hunblocked : Free s Sample.shop := by
    intro V v _ _ hblock
    obtain ⟨X, x, hx, -, -, -, hg, -⟩ := hblock
    cases hg.symm.trans (hoff hx)
  have hcl : CardsClearable Sample.platform s Sample.shop := by
    intro A z hz _
    obtain ⟨hstamps, hcycle, -⟩ := (hrecord (State.card?_eq_some.mp hz)).2 z rfl
    refine ⟨hstamps, fun M bump m _ _ => ⟨by rw [hcycle]; decide, fun hex => ?_⟩⟩
    obtain ⟨x, hx, hg, -⟩ := hex
    cases hg.symm.trans (hoff hx)
  obtain ⟨later, s', hlater, hall, hgone⟩ :=
    (abandoned_shop_iff hrun Sample.start_empty hab fun A n => ⟨_, 255, rfl⟩).mpr ⟨hunblocked, hcl⟩
  exact ⟨hist, s, later, s', hrun, hvoucher, hnft, hlater, hall, hgone⟩

end Passdari
