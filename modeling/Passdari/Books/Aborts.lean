/-
Where an instruction aborts on its arithmetic. After fewer than 2³²
instructions every counter still has room and every time lies behind the
clock, so that nothing leaves its type but the stamps of a card, which are
counted in a byte: a claim in order for a card that holds 255 of them has no
refusal of its own for that, and aborts.
-/
import Passdari.Books.Bounds
import Passdari.Books.RateLimits
import Passdari.Effect.Overflows

namespace Passdari

open Wire Token2022

variable {P : Platform} {tx : Tx} {s s' start : State} {hist : History} {c : Call} {now : Int64} {n : Nat}
  {accs : ClaimReceipt} {secret : Bytes32} {x y : LoyaltyCard}

/-- The card may have a stamp now: its cooldown is over, and the day has room for one. -/
structure StampDue (now : Int64) (x : LoyaltyCard) : Prop where
  cooldown : x.lastStampTs = 0 ∨ stampCooldownSeconds.toInt ≤ now.toInt - x.lastStampTs.toInt
  limit : 86400 ≤ now.toInt - x.claimsWindowStart.toInt ∨ x.claimsThisWindow < maxClaimsPerCardPerDay

/-- A claim with everything it needs: a valid receipt whose time is not over, for a card that may have a stamp
now. -/
structure ClaimInOrder (P : Platform) (s : State) (tx : Tx) (accs : ClaimReceipt) (secret : Bytes32)
    (x : LoyaltyCard) :
    Prop where
  business : ∃ b, s.business? accs.business = some b
  receipt : ∃ r, s.receipt? accs.receipt = some r ∧ r.rentPayer = accs.rentPayer ∧ tx.now ≤ r.expiresAt
  secret : ∃ bump, findProgramAddress P (.receipt accs.business (P.keccak secret)) = some (accs.receipt, bump)
  customer : accs.customer ∈ tx.signers
  relayer : accs.relayer ∈ tx.signers
  rentPayer : ¬s.InUse accs.rentPayer
  address : ∃ bump, findProgramAddress P (.card accs.business accs.customer) = some (accs.card, bump)
  card : s.card? accs.card = some x
  due : StampDue tx.now x

/-! ## The stamp -/

theorem Past.inRange {t : Int64} (h : Past now.toInt t) : InRange (now.toInt - t.toInt) := by
  have := now.toInt_lt
  obtain ⟨h0, hle⟩ := h
  exact ⟨by omega, by omega⟩

theorem Past.sub {t : Int64} (h : Past now.toInt t) :
    subI64 now t = .ok (now - t) ∧ (now - t).toInt = now.toInt - t.toInt := by
  have hsub : subI64 now t = .ok (now - t) := by
    rw [subI64, check_pos ⟨h.inRange.1, h.inRange.2⟩]
    rfl
  exact ⟨hsub, subI64_eq_ok.mp hsub⟩

theorem LoyaltyCard.Within.stampFits (h : x.Within n now.toInt) (hst : x.stamps.toNat + 1 < 2 ^ 8)
    (hl : x.lifetimeStamps.toNat + 1 < 2 ^ 32) : StampFits now x :=
  ⟨fun _ => h.lastStampTs.inRange, h.claimsWindowStart.inRange, hst, hl⟩

/-- A stamp only overflows where one is due, and then it is the card's 256th. -/
theorem stampCard_eq_overflow (h : stampCard now x = .error .overflow) (hx : x.Within n now.toInt)
    (hl : x.lifetimeStamps.toNat + 1 < 2 ^ 32) : StampDue now x ∧ x.stamps = 255 := by
  have hstamps : ¬x.stamps.toNat + 1 < 2 ^ 8 := fun hst =>
    stampCard_avoids (e := .overflow) (by simp) (by simp) (fun _ => hx.stampFits hst hl) h
  refine ⟨?_, ?_⟩
  · unfold stampCard at h
    obtain ⟨_, hcool, h⟩ :=
      (checkCooldown_avoids (e := .overflow) (by simp) fun _ _ => hx.lastStampTs.inRange).of_bind_error h
    obtain ⟨elapsed, helapsed, h⟩ := (subI64_avoids fun _ => hx.claimsWindowStart.inRange).of_bind_error h
    obtain ⟨_, hroom, -⟩ := require_no_overflow.of_bind_error h
    refine ⟨(checkCooldown_eq_ok hcool).imp_right ?_, ?_⟩
    · intro hex
      obtain ⟨since, hsince, hle⟩ := hex
      rw [← hsince]
      exact Int64.le_iff_toInt_le.mp hle
    · by_cases hday : 86400 ≤ elapsed
      · refine .inl ?_
        rw [← subI64_eq_ok.mp helapsed]
        exact Int64.le_iff_toInt_le.mp hday
      · rw [if_neg hday] at hroom
        exact .inr (require_eq_ok.mp hroom)
  · have := x.stamps.toNat_lt
    refine UInt8.toNat_inj.mp ?_
    show x.stamps.toNat = 255
    omega

/-- Where a stamp is due, only the sums are left to do. -/
theorem StampDue.stampCard_eq (h : StampDue now x) (hx : x.Within n now.toInt) : ∃ y : LoyaltyCard,
    stampCard now x = (addU8 x.stamps 1 >>= fun st => addU32 x.lifetimeStamps 1 >>= fun li =>
      pure { y with stamps := st, lastStampTs := now, lifetimeStamps := li }) := by
  have hcool : checkCooldown now x = .ok () := by
    unfold checkCooldown
    split
    · next h0 =>
      obtain ⟨hsub, hval⟩ := hx.lastStampTs.sub
      have hle : stampCooldownSeconds ≤ now - x.lastStampTs := by
        rw [Int64.le_iff_toInt_le, hval]
        exact h.cooldown.resolve_left h0
      rw [hsub, Except.ok_bind]
      exact require_pos hle
    · rfl
  obtain ⟨hsub, hval⟩ := hx.claimsWindowStart.sub
  have hday : (86400 : Int64) ≤ now - x.claimsWindowStart ↔
    (86400 : Int) ≤ now.toInt - x.claimsWindowStart.toInt := by
    rw [Int64.le_iff_toInt_le, hval]
    rfl
  have hcount : ∀ k : UInt32, k < maxClaimsPerCardPerDay → addU32 k 1 = .ok (k + 1) := by
    intro k hk
    have := UInt32.lt_iff_toNat_lt.mp hk
    have hmax : maxClaimsPerCardPerDay.toNat = 20 := rfl
    have hone : (1 : UInt32).toNat = 1 := rfl
    rw [addU32, check_pos (by omega)]
    rfl
  unfold stampCard
  rw [hcool, Except.ok_bind, hsub, Except.ok_bind]
  by_cases hover : (86400 : Int64) ≤ now - x.claimsWindowStart
  · refine ⟨{ x with claimsWindowStart := now, claimsThisWindow := 0 + 1 }, ?_⟩
    rw [if_pos hover]
    dsimp only
    rw [require_pos (by decide), Except.ok_bind, hcount 0 (by decide), Except.ok_bind]
  · have hroom := h.limit.resolve_left (hday.not.mp hover)
    refine ⟨{ x with claimsThisWindow := x.claimsThisWindow + 1 }, ?_⟩
    rw [if_neg hover]
    dsimp only
    rw [require_pos hroom, Except.ok_bind, hcount _ hroom, Except.ok_bind]

theorem StampDue.aborts (h : StampDue now x) (hx : x.Within n now.toInt) (hst : x.stamps = 255) :
    stampCard now x = .error .overflow := by
  obtain ⟨y, heq⟩ := h.stampCard_eq hx
  rw [heq, hst]
  rfl

theorem StampDue.stamps (h : StampDue now x) (hx : x.Within n now.toInt) (hst : x.stamps.toNat + 1 < 2 ^ 8)
    (hl : x.lifetimeStamps.toNat + 1 < 2 ^ 32) : ∃ y, stampCard now x = .ok y := by
  obtain ⟨y, heq⟩ := h.stampCard_eq hx
  have hst' : addU8 x.stamps 1 = .ok (x.stamps + 1) := by
    rw [addU8, check_pos (by simpa using hst)]
    rfl
  have hl' : addU32 x.lifetimeStamps 1 = .ok (x.lifetimeStamps + 1) := by
    rw [addU32, check_pos (by simpa using hl)]
    rfl
  rw [heq, hst', Except.ok_bind, hl']
  exact ⟨_, rfl⟩

/-! ## The claim -/

/-- A claim only overflows where it is in order, for a card that is full. -/
theorem claimReceipt_eq_overflow (h : claimReceipt P tx accs secret s = .error .overflow)
    (hb : s.Bounded n tx.now.toInt) (h0 : 0 ≤ tx.now.toInt) (hn : n + 1 < 2 ^ 32) :
    ∃ x, ClaimInOrder P s tx accs secret x ∧ x.stamps = 255 := by
  unfold claimReceipt at h
  obtain ⟨b, hbus, h⟩ := (load_avoids rfl).of_bind_error h
  obtain ⟨r, hr, h⟩ := (load_avoids rfl).of_bind_error h
  obtain ⟨_, hcustomer, h⟩ := (signer_avoids rfl).of_bind_error h
  obtain ⟨_, hrelayer, h⟩ := (signer_avoids rfl).of_bind_error h
  obtain ⟨_, hpayer, h⟩ := (systemAccount_avoids rfl).of_bind_error h
  obtain ⟨bump, hseeds, h⟩ := (seedsConstraint_avoids rfl).of_bind_error h
  obtain ⟨⟨s₁, x⟩, hcard, h⟩ := (createIfNeeded_avoids rfl).of_bind_error h
  obtain ⟨_, hclose, h⟩ := (closeConstraint_avoids rfl).of_bind_error h
  have hhandler : claimReceiptHandler P tx.now accs bump secret b r x = .error .overflow := by
    by_contra hne
    exact Except.Avoids.bind hne (fun _ _ => (store_avoids rfl).bind fun _ _ => store_avoids rfl) h
  -- the card is there already, or it is a new one without a stamp
  have hold : s.card? accs.card = some x ∨ x = LoyaltyCard.account.zeroed := by
    rcases createIfNeeded_eq_ok hcard with ⟨-, hx⟩ | ⟨hnew, -⟩
    · exact .inl (State.card?_eq_some.mpr hx)
    · exact .inr hnew
  have hwb : b.Within n tx.now.toInt := hb.within _ _ (load_eq_ok.mp hbus)
  obtain ⟨hwx, hlife⟩ : x.Within n tx.now.toInt ∧ x.lifetimeStamps.toNat ≤ n := by
    rcases hold with hx | rfl
    · exact ⟨hb.within _ _ (State.card?_eq_some.mp hx), hb.lifetime_le hx⟩
    · exact ⟨zeroed_within h0, Nat.zero_le n⟩
  unfold claimReceiptHandler at hhandler
  obtain ⟨⟨receipt, receiptBump⟩, hfound, h⟩ := (demand_avoids (Failure.ne_system rfl)).of_bind_error hhandler
  obtain ⟨_, hsecret, h⟩ := require_no_overflow.of_bind_error h
  obtain ⟨_, htime, h⟩ := require_no_overflow.of_bind_error h
  have hcards := hwb.totalCards
  have hopens := hwb.openCards
  have hissued := hwb.totalStampsIssued
  obtain ⟨⟨b₁, x₁⟩, hopen, h⟩ := (openCard_avoids fun _ _ => ⟨by omega, by omega⟩).of_bind_error h
  obtain ⟨htotal, hsame, hlast, hwindow, hcount, hlife₁⟩ : b₁.totalStampsIssued = b.totalStampsIssued ∧
      x₁.stamps = x.stamps ∧ x₁.lastStampTs = x.lastStampTs ∧ x₁.claimsWindowStart = x.claimsWindowStart ∧
      x₁.claimsThisWindow = x.claimsThisWindow ∧ x₁.lifetimeStamps = x.lifetimeStamps := by
    obtain ⟨-, _, _, -, -, rfl, rfl⟩ | ⟨-, rfl, rfl⟩ :=
      openCard_eq_ok hopen <;> exact ⟨rfl, rfl, rfl, rfl, rfl, rfl⟩
  have hstamp : stampCard tx.now x₁ = .error .overflow := by
    by_contra hne
    refine Except.Avoids.bind hne
      (fun _ _ => (addU64_avoids fun _ => ?_).bind fun _ _ => Except.avoids_pure _) h
    rw [htotal]
    simp only [UInt64.toNat_one]
    omega
  obtain ⟨-, -, hwx₁⟩ := openCard_within hopen hwb hwx
  obtain ⟨hdue, hfull⟩ := stampCard_eq_overflow hstamp hwx₁ (by rw [hlife₁]; omega)
  rw [hsame] at hfull
  rcases hold with hx | rfl
  · obtain ⟨hrent, -⟩ := closeConstraint_eq_ok.mp hclose
    have hfound : findProgramAddress P (.receipt accs.business (P.keccak secret)) = some
      (accs.receipt, receiptBump) := by
      rw [demand_eq_ok.mp hfound, ← require_eq_ok.mp hsecret]
    refine ⟨x, ⟨⟨b, State.business?_eq_some.mpr (load_eq_ok.mp hbus)⟩,
      ⟨r, State.receipt?_eq_some.mpr (load_eq_ok.mp hr), hrent, require_eq_ok.mp htime⟩,
      ⟨receiptBump, hfound⟩, signer_eq_ok.mp hcustomer, signer_eq_ok.mp hrelayer,
      systemAccount_eq_ok.mp hpayer, ⟨bump, seedsConstraint_eq_ok.mp hseeds⟩, hx, ?_⟩, hfull⟩
    exact ⟨by rw [← hlast]; exact hdue.cooldown, by rw [← hwindow, ← hcount]; exact hdue.limit⟩
  · cases hfull

/-- What is left of a claim that is in order: the stamp, and the three accounts. -/
theorem ClaimInOrder.claim_eq (h : ClaimInOrder P s tx accs secret x) (hw : s.WellPlaced) (hcur : s.Current) :
    ∃ b, s.business? accs.business = some b ∧ claimReceipt P tx accs secret s =
      (stampCard tx.now x >>= fun y => addU64 b.totalStampsIssued 1 >>= fun total =>
        store Business.account s accs.business { b with totalStampsIssued := total } >>= fun s =>
          store LoyaltyCard.account (close s accs.receipt accs.rentPayer) accs.card y) := by
  obtain ⟨b, hb⟩ := h.business
  obtain ⟨r, hr, hrent, htime⟩ := h.receipt
  obtain ⟨receiptBump, hsecret⟩ := h.secret
  obtain ⟨bump, hcard⟩ := h.address
  have hbrec := State.business?_eq_some.mp hb
  have hxrec := State.card?_eq_some.mp h.card
  have hload : load Business.account s accs.business = .ok b := load_eq_ok.mpr hbrec
  have hloadR : load Receipt.account s accs.receipt = .ok r := load_eq_ok.mpr (State.receipt?_eq_some.mp hr)
  have hseeds : seedsConstraint P (.card accs.business accs.customer) accs.card = .ok bump :=
    seedsConstraint_eq_ok.mpr hcard
  have hneeded : createIfNeeded P tx LoyaltyCard.account s accs.relayer accs.card = .ok (s, x) := by
    obtain ⟨data, hdata, hparse⟩ := Option.bind_eq_some_iff.mp hxrec
    obtain ⟨q, hq, hlen⟩ := hcur _ _ hdata
    have hsame : q = .card x := Option.some.inj (hq.symm.trans hparse)
    have hsize : data.length = LoyaltyCard.account.space := by rw [hlen, hsame]; rfl
    rw [createIfNeeded, if_pos (State.inUse_iff.mpr (.inl (by rw [hdata]; rfl))),
      show load LoyaltyCard.account s accs.card = .ok x from load_eq_ok.mpr hxrec, Except.ok_bind, hdata,
      check_pos (by simp [hsize])]
    rfl
  have hne : accs.receipt ≠ accs.rentPayer := ne_of_not_inUse (State.receipt?_eq_some.mp hr) h.rentPayer
  have hclose : closeConstraint accs.receipt r.rentPayer accs.rentPayer = .ok () :=
    closeConstraint_eq_ok.mpr ⟨hrent, hne⟩
  have hopen : openCard accs bump b x = .ok (b, x) := by
    have hat := hw.card hxrec
    rw [findProgramAddress_eq hcard, Address.card.injEq] at hat
    have hbus : x.business ≠ .default := by
      rw [← hat.1]
      exact hw.business_ne_default hbrec
    rw [openCard, if_neg hbus]
    rfl
  have hcustomer : signer tx accs.customer = .ok () := signer_eq_ok.mpr h.customer
  have hrelayer : signer tx accs.relayer = .ok () := signer_eq_ok.mpr h.relayer
  have hpayer : systemAccount s accs.rentPayer = .ok () := systemAccount_eq_ok.mpr h.rentPayer
  have hfound : demand (findProgramAddress P (.receipt accs.business (P.keccak secret)))
      (Failure.system .invalidSeeds) = .ok (accs.receipt, receiptBump) := demand_eq_ok.mpr hsecret
  refine ⟨b, hb, ?_⟩
  simp only [claimReceipt, claimReceiptHandler, hload, hloadR, hcustomer, hrelayer, hpayer, hseeds, hneeded,
    hclose, hfound, require_pos, htime, hopen, Except.ok_bind, bind_assoc, pure_bind]

theorem ClaimInOrder.aborts (h : ClaimInOrder P s tx accs secret x) (hw : s.WellPlaced) (hcur : s.Current)
    (hx : x.Within n tx.now.toInt) (hst : x.stamps = 255) :
    claimReceipt P tx accs secret s = .error .overflow := by
  obtain ⟨b, -, heq⟩ := h.claim_eq hw hcur
  rw [heq, h.due.aborts hx hst]
  rfl

/-- A claim in order goes through while the card is not full. -/
theorem ClaimInOrder.claims (h : ClaimInOrder P s tx accs secret x) (hw : s.WellPlaced) (hcur : s.Current)
    (hb : s.Bounded n tx.now.toInt) (hn : n + 1 < 2 ^ 32) (hst : x.stamps.toNat + 1 < 2 ^ 8) :
    ∃ s', claimReceipt P tx accs secret s = .ok s' := by
  obtain ⟨b, hbus, heq⟩ := h.claim_eq hw hcur
  have hbrec := State.business?_eq_some.mp hbus
  have hxrec := State.card?_eq_some.mp h.card
  have hlife := hb.lifetime_le h.card
  have hissued : b.totalStampsIssued.toNat ≤ n := Business.Within.totalStampsIssued (hb.within _ _ hbrec)
  obtain ⟨y, hy⟩ := h.due.stamps (hb.within _ _ hxrec) hst (by omega)
  have htotal : addU64 b.totalStampsIssued 1 = .ok (b.totalStampsIssued + 1) := by
    rw [addU64, check_pos (by simp only [UInt64.toNat_one]; omega)]
    rfl
  obtain ⟨s₁, h₁⟩ := store_business_ok { b with totalStampsIssued := b.totalStampsIssued + 1 } hbrec rfl rfl
    rfl rfl
  obtain ⟨r, hr, -⟩ := h.receipt
  have hbc : accs.business ≠ accs.card := ne_of_record? hbrec hxrec (by simp)
  have hrc : accs.receipt ≠ accs.card := ne_of_record? (State.receipt?_eq_some.mp hr) hxrec (by simp)
  have hx₁ : (close s₁ accs.receipt accs.rentPayer).record? accs.card = some (.card x) := by
    rw [← hxrec]
    refine State.record?_of_lookup ?_
    rw [close, Store.lookup_erase, if_neg hrc.symm, store_program h₁ hbc.symm]
  obtain ⟨s₂, h₂⟩ := store_ok (T := LoyaltyCard.account) (y := y) hx₁ (by
    show (Record.card y).bytes.length ≤ (Record.card x).bytes.length
    simp [Record.bytes, LoyaltyCard.layout_sized _])
  rw [heq, hy, Except.ok_bind, htotal, Except.ok_bind, h₁, Except.ok_bind]
  exact ⟨s₂, h₂⟩

/-! ## Every other instruction -/

theorem process_no_overflow {i : Instruction} (hb : s.Bounded n tx.now.toInt)
    (hnow : 0 ≤ tx.now.toInt ∧ tx.now.toInt ≤ 2 ^ 62) (hn : n + 1 < 2 ^ 32)
    (hclaim : ∀ accs secret, i ≠ .claimReceipt accs secret) : (process P tx i s).Avoids .overflow := by
  have hbusiness : ∀ {a b}, s.business? a = some b → b.Within n tx.now.toInt := fun h =>
    hb.within _ _ (State.business?_eq_some.mp h)
  have hcard : ∀ {a x}, s.card? a = some x → x.Within n tx.now.toInt := fun h =>
    hb.within _ _ (State.card?_eq_some.mp h)
  cases i with
  | initializeCounter => exact initializeHandler_no_overflow
  | registerBusiness => exact registerBusiness_no_overflow hnow.1
  | updateBusinessConfig => exact updateBusinessConfig_no_overflow hnow.1
  | issueReceipt =>
    refine issueReceipt_no_overflow fun b h => ⟨(hbusiness h).receiptsWindowStart.inRange, ?_⟩
    have := b.receiptTtlSeconds.toNat_lt
    exact ⟨by omega, by omega⟩
  | claimReceipt => exact absurd rfl (hclaim _ _)
  | mintCardNft => exact mintCardNft_no_overflow
  | mintVoucher =>
    refine mintVoucher_avoids rfl (by simp) (by simp) (by simp) (fun _ _ => (by simp)) fun _ b x hbus hx => ?_
    have hwb := hbusiness hbus
    have hissued := hwb.totalVouchersIssued
    have hopened := hwb.openVouchers
    have hcycle := (hcard hx).nftCycle
    have hvalid : voucherValidSeconds.toInt = 7776000 := by decide
    exact ⟨⟨by omega, by omega⟩, by omega, by omega, by omega⟩
  | transferStamps => exact transferStamps_no_overflow
  | transferVoucher => exact transferVoucher_avoids rfl (by simp) (by simp) fun _ _ => (by simp)
  | presentVoucher => exact presentVoucher_avoids rfl (by simp) (by simp) fun _ _ => (by simp)
  | cancelPresentation => exact cancelPresentation_avoids rfl (by simp) (by simp)
  | redeemVoucher =>
    refine redeemVoucher_avoids rfl (by simp) (by simp) (fun _ _ => (by simp)) fun _ b h => ?_
    have := (hbusiness h).totalRedemptions
    omega
  | reclaimExpiredReceipt => exact reclaimExpiredReceipt_avoids rfl fun _ _ => (by simp)
  | closeExpiredVoucher => exact closeExpiredVoucher_avoids rfl (by simp) fun _ _ => (by simp)
  | closeDeadCard => exact closeDeadCard_no_overflow fun _ h => (hcard h).lastStampTs.inRange
  | closeBusiness => exact closeBusiness_no_overflow
  | migrateCard => exact migrateCard_no_overflow
  | migrateBusiness => exact migrateBusiness_no_overflow
  | retireIdleCardNft =>
    refine retireIdleCardNft_no_overflow fun _ h => ⟨(hcard h).lastStampTs.inRange, ?_⟩
    have := (hcard h).nftCycle
    omega

/-! ## A card that fills up -/

namespace Sample

/-- A day apart, one for each stamp. -/
def day (n : Nat) : Int64 := Int64.ofNat (1000000 + 86400 * n)

theorem toInt_day (hn : n ≤ 256) : (day n).toInt = 1000000 + 86400 * n := by
  rw [day, Int64.toInt_ofNat_of_lt (by omega)]
  push_cast
  rfl

def claimAccs (n : Nat) : ClaimReceipt :=
  ⟨shop, .receipt shop (hash (UInt8.ofNat n)) 255, Sample.card 9, key 9, key 2, key 2⟩

/-- The card has a stamp for each of the first `n` receipts. -/
structure Filling (n : Nat) (hist : History) (s : State) : Prop where
  run : Run platform Sample.start hist s
  clock : ClockForward hist
  past : ∀ st ∈ hist, st.label.tx.now.toInt ≤ (day n).toInt
  length : instructions hist = 2 * n + 1
  issuing : ∃ b, Issuing s n b
  stamps : ∃ x, s.card? (Sample.card 9) = some x ∧ x.stamps.toNat = n

/-- The next receipt is out, and the claim for it in order. -/
structure Claimable (n : Nat) (hist : History) (s : State) (x : LoyaltyCard) : Prop where
  run : Run platform Sample.start hist s
  clock : ClockForward hist
  past : ∀ st ∈ hist, st.label.tx.now.toInt ≤ (day (n + 1)).toInt
  length : instructions hist = 2 * n + 2
  issuing : ∃ b, Issuing s (n + 1) b
  order : ClaimInOrder platform s ⟨day (n + 1), [key 9, key 2]⟩ (claimAccs n) (hash (UInt8.ofNat n)) x
  stamps : x.stamps.toNat = n

theorem Filling.issued (h : Filling n hist s) (hn : n < 256) : ∃ hist' s' x, Claimable n hist' s' x := by
  obtain ⟨b, hissuing⟩ := h.issuing
  obtain ⟨x, hx, hst⟩ := h.stamps
  have hday := toInt_day (Nat.le_of_lt hn)
  have hnow := toInt_day (n := n + 1) hn
  have hb := h.run.bounded start_empty h.clock (by omega) h.past
  have hwx : x.Within _ _ := hb.within _ _ (State.card?_eq_some.mp hx)
  have hwb : b.Within _ _ := hb.within _ _ (State.business?_eq_some.mp hissuing.present)
  obtain ⟨-, hwindow⟩ := hwb.receiptsWindowStart
  obtain ⟨-, hlast⟩ := hwx.lastStampTs
  obtain ⟨-, hbegan⟩ := hwx.claimsWindowStart
  have hroom : (b.window.due 3600 (day (n + 1)).toInt).count < maxReceiptsPerHour.toNat := by
    have hover : (3600 : Int) ≤ (day (n + 1)).toInt - b.window.start := by
      show (3600 : Int) ≤ (day (n + 1)).toInt - b.receiptsWindowStart.toInt
      omega
    rw [Window.due_of_over hover]
    show 0 < maxReceiptsPerHour.toNat
    decide
  obtain ⟨s', b', hnext, hissuing', -⟩ := hissuing.next hn (by omega) hroom
  obtain ⟨cs, calls, ps, hstep⟩ := hnext.step hissuing.placed
  obtain ⟨_, _, r, _, -, -, -, -, hok, -, hr⟩ := hstep.issueReceipt
  obtain ⟨-, _, _, expiresAt, -, -, -, hexpires, -, rfl⟩ := issueReceiptHandler_eq_ok hok
  have hx' : s'.card? (Sample.card 9) = some x := by
    rcases hstep.card hissuing.placed (Sample.card 9) with hsame | hch
    · rw [hsame, hx]
    · cases hch
  have hclock : ∀ st ∈ hist, st.label.tx.now.toInt ≤ (day (n + 1)).toInt := fun st hmem =>
    Int.le_trans (h.past st hmem) (by omega)
  have hdue : StampDue (day (n + 1)) x := by
    have hcooldown : stampCooldownSeconds.toInt = 60 := by decide
    exact ⟨.inr (by omega), .inl (by omega)⟩
  refine ⟨⟨s, issue (day (n + 1)) (UInt8.ofNat n), s'⟩ :: hist, s', x, h.run.step hnext,
    h.clock.cons (show 0 ≤ (day (n + 1)).toInt by omega) hclock,
    List.forall_mem_cons.mpr ⟨Int.le_refl _, hclock⟩, ?_, ⟨b', hissuing'⟩, ?_, hst⟩
  · rw [instructions_cons, h.length]
    rfl
  · exact ⟨⟨b', hissuing'.present⟩,
      ⟨_, hr, rfl, Int64.le_iff_toInt_le.mpr (by dsimp only [issue, call] at hexpires ⊢; omega)⟩,
      ⟨255, rfl⟩, List.mem_cons_self, List.mem_cons_of_mem _ List.mem_cons_self, hissuing'.relayer,
      ⟨255, rfl⟩, hx', hdue⟩

/-- A claim takes nothing from the shop or the relayer. -/
theorem Issuing.claimed {b : Business} (h : Issuing s (n + 1) b)
    (horder : ClaimInOrder platform s ⟨now, [key 9, key 2]⟩ (claimAccs n) (hash (UInt8.ofNat n)) x)
    (hnext : Next platform s ⟨⟨now, [key 9, key 2]⟩,
      .program (.claimReceipt (claimAccs n) (hash (UInt8.ofNat n)))⟩ s') :
    ∃ b', Issuing s' (n + 1) b' := by
  obtain ⟨cs, calls, ps, hstep⟩ := hnext.step h.placed
  have heffect := hstep.effect
  have hchanged := hstep.changed
  have hpurse := hstep.purse
  cases heffect with
  | @claimReceipt _ _ b₀ b' r bump y z hb hr _ _ _ _ hz _ hown _ hok =>
    obtain ⟨-, -, -, _, _, _, -, -, rfl⟩ :=
      claimReceiptHandler_spec (h.placed.business_ne_default hb) hown hok
    have hsame : b₀ = b := by
      have := State.business?_eq_some.mp h.present
      cases hb.symm.trans this
      rfl
    have hsome : z = some x := by
      have := hz.symm.trans (State.card?_eq_some.mp horder.card)
      cases z with
      | none => cases this
      | some z => cases this; rfl
    subst hsame hsome
    have hkept : ∀ a, a ≠ shop → a ≠ .receipt shop (hash (UInt8.ofNat n)) 255 → a ≠ Sample.card 9 →
      ¬s.InUse a →
        ¬s'.InUse a := by
      intro a ha hr hc hfree
      exact hstep.free_kept (by simp [claimAccs, ha, hr, hc]) (by simp) hfree
    have hmore : s.lamports (key 2) ≤ s'.lamports (key 2) := by
      have hl := congrArg (fun p => p.lamports (key 2)) hpurse
      have hne : (key 2 : Address) ≠ .receipt shop (hash (UInt8.ofNat n)) 255 := (fun h => by cases h)
      simp only [State.purse, Purse.settle, reduceCtorEq, if_false, List.nil_append, List.foldl_cons,
        List.foldl_nil, Purse.pay,
        Purse.move, claimAccs, Function.update_self, Function.update_of_ne hne] at hl
      omega
    refine ⟨_, hstep.wellPlaced h.placed, State.business?_eq_some.mpr (hchanged.record? List.mem_cons_self),
      h.authority, h.bump, h.start, fun m hm => ?_, ?_, ?_⟩
    · refine hkept _ (fun h => by cases h) (fun he => ?_) (fun h => by cases h) (h.free m hm)
      have hid : (UInt8.ofNat n).toNat = n :=
        UInt8.toNat_ofNat_of_lt' (show n < 256 by have := m.toNat_lt; omega)
      have := hash_inj (Address.receipt.inj he).2.1
      rw [this, hid] at hm
      omega
    · exact hkept _ (fun h => by cases h) (fun h => by cases h) (fun h => by cases h) h.relayer
    · exact Nat.le_trans h.funds hmore

theorem Claimable.claimed (h : Claimable n hist s x) (hn : n < 255) :
    ∃ hist' s', Filling (n + 1) hist' s' := by
  obtain ⟨b, hissuing⟩ := h.issuing
  have hnow := toInt_day (n := n + 1) (by omega)
  have hb := h.run.bounded start_empty h.clock (by omega) h.past
  have hlen := h.length
  obtain ⟨s', hok⟩ := h.order.claims hissuing.placed (h.run.current start_empty) hb (by omega)
    (by rw [h.stamps]; omega)
  have hnext : Next platform s (claim (day (n + 1)) 9 (UInt8.ofNat n)) s' :=
    ⟨show ∀ a ∈ [key 9, key 2], _ by decide, hok⟩
  obtain ⟨cs, calls, ps, hstep⟩ := hnext.step hissuing.placed
  have hcard : ∃ y, s'.card? (Sample.card 9) = some y ∧ y.stamps.toNat = n + 1 := by
    obtain ⟨_, _, y, _, -, -, -, -, -, -, -, hstamp, hy, -⟩ := hstep.claimReceipt hissuing.placed
    rw [show s.card? (Sample.card 9) = some x from h.order.card] at hstamp
    obtain ⟨-, _, _, st, _, -, -, -, hst, -, rfl⟩ := stampCard_eq_ok hstamp
    refine ⟨_, hy, ?_⟩
    rw [hst]
    exact congrArg (· + 1) h.stamps
  refine ⟨⟨s, claim (day (n + 1)) 9 (UInt8.ofNat n), s'⟩ :: hist, s', h.run.step hnext,
    h.clock.cons (show 0 ≤ (day (n + 1)).toInt by omega) h.past,
    List.forall_mem_cons.mpr ⟨Int.le_refl _, h.past⟩, ?_, ?_, hcard⟩
  · rw [instructions_cons, hlen]
    rfl
  · exact hissuing.claimed h.order hnext

/-- The shop opens and the card gets its first stamp. -/
def firstStamp : List Call := [register 1000000 1 0, issue 1000010 0, claim 1000020 9 0]

theorem firstStamp_filling : ∃ hist s, Filling 1 hist s := by
  obtain ⟨hist, s, hrun, hcalls, hp⟩ := Leads.run (P := platform) (s := Sample.start) (l := firstStamp)
    (p := fun s => (s.business? shop).any
      (fun b => b.authority == key 1 && b.bump == 255 && b.receiptsWindowStart == 1000010) &&
      (s.card? (Sample.card 9)).any (fun x => x.stamps == 1) && decide (¬s.InUse (key 2)) &&
      decide (Receipt.space * 255 ≤ s.lamports (key 2)) &&
      (List.range 255).all fun m => decide (¬s.InUse (.receipt shop (hash (UInt8.ofNat (m + 1))) 255)))
      (by decide +kernel)
  simp only [Bool.and_eq_true, Option.any_eq_true, beq_iff_eq, decide_eq_true_eq, List.all_eq_true,
    List.mem_range] at hp
  obtain ⟨⟨⟨⟨⟨b, hb, ⟨hauth, hbump⟩, hstart⟩, x, hx, hst⟩, hrelayer⟩, hfunds⟩, hfree⟩ := hp
  have hpast : ∀ c ∈ firstStamp.reverse, c.tx.now.toInt ≤ (day 1).toInt := by decide
  refine ⟨hist, s, hrun, .of_calls hcalls (by decide) (by decide), fun st hmem => ?_, ?_, ⟨b, ?_⟩, x, hx, ?_⟩
  · refine hpast _ ?_
    rw [← hcalls]
    exact List.mem_map_of_mem hmem
  · have hcount : instructions hist = (hist.map fun st => st.label).countP fun c => c.action.isProgram := by
      rw [List.countP_map]
      rfl
    rw [hcount, hcalls]
    rfl
  · refine ⟨Run.wellPlaced hrun start_empty.wellPlaced, hb, hauth, hbump, ?_, fun m hm => ?_, hrelayer,
      hfunds⟩
    · rw [hstart]
      decide
    · have hlt : m.toNat < 256 := m.toNat_lt
      have hfree := hfree (m.toNat - 1) (by omega)
      rwa [Nat.sub_add_cancel hm, UInt8.ofNat_toNat] at hfree
  · rw [hst]
    rfl

/-- A card fills up, a stamp a day. -/
theorem filling : ∀ n, n ≤ 254 → ∃ hist s, Filling (n + 1) hist s
  | 0, _ => firstStamp_filling
  | n + 1, hn => by
    obtain ⟨hist, s, h⟩ := filling n (by omega)
    obtain ⟨hist₁, s₁, x, h₁⟩ := h.issued (by omega)
    exact h₁.claimed (by omega)

/-- One more claim in order, for a card that is full. -/
theorem ceiling : ∃ hist s x, Claimable 255 hist s x := by
  obtain ⟨hist, s, h⟩ := filling 254 (Nat.le_refl _)
  exact h.issued (by omega)

theorem Claimable.full (h : Claimable 255 hist s x) : x.stamps = 255 := UInt8.toNat_inj.mp h.stamps

end Sample

/-! ## Where arithmetic aborts -/

/-- **Where arithmetic aborts.** In a run of fewer than 2³² instructions, whose clock never goes back, an
instruction aborts with an overflow exactly when it is a claim in order for a card that holds 255 stamps. -/
theorem aborts_iff (h : Run P start hist s) (hs : start.Empty) (hclock : ClockForward hist)
    (hpast : ∀ st ∈ hist, st.label.tx.now.toInt ≤ c.tx.now.toInt)
    (hnow : 0 ≤ c.tx.now.toInt ∧ c.tx.now.toInt ≤ 2 ^ 62) (hlen : instructions hist + 1 < 2 ^ 32) :
    perform P c s = .error .overflow ↔ ∃ accs secret x, c.action = .program (.claimReceipt accs secret) ∧
      ClaimInOrder P s c.tx accs secret x ∧ x.stamps = 255 := by
  have hb := h.bounded hs hclock hnow.1 hpast
  obtain ⟨tx, action⟩ := c
  constructor
  · intro hover
    cases action with
    | wallet w => exact absurd hover act_no_overflow
    | program i =>
      by_cases hclaim : ∃ accs secret, i = .claimReceipt accs secret
      · obtain ⟨accs, secret, rfl⟩ := hclaim
        obtain ⟨x, hx, hfull⟩ := claimReceipt_eq_overflow hover hb hnow.1 hlen
        exact ⟨accs, secret, x, rfl, hx, hfull⟩
      · refine absurd hover (process_no_overflow hb hnow hlen fun accs secret hi => ?_)
        exact hclaim ⟨accs, secret, hi⟩
  · intro hex
    obtain ⟨accs, secret, x, rfl, hx, hfull⟩ := hex
    exact hx.aborts (h.wellPlaced hs.wellPlaced) (h.current hs)
      (hb.within _ _ (State.card?_eq_some.mp hx.card)) hfull

/-- The 256th stamp of a card. -/
theorem aborts_iff_ceiling : ∃ hist s, Run Sample.platform Sample.start hist s ∧
    perform Sample.platform (Sample.claim (Sample.day 256) 9 255) s = .error .overflow := by
  obtain ⟨hist, s, x, h⟩ := Sample.ceiling
  have hlen := h.length
  refine ⟨hist, s, h.run,
    (aborts_iff h.run Sample.start_empty h.clock h.past ⟨by decide, by decide⟩ (by omega)).mpr ?_⟩
  exact ⟨Sample.claimAccs 255, Sample.hash 255, x, rfl, h.order, h.full⟩

/-- A claim in order, the 256th of a card, aborts. -/
theorem claim_at_ceiling_aborts : ∃ hist s x, Run Sample.platform Sample.start hist s ∧ ClockForward hist ∧
    (∀ st ∈ hist, st.label.tx.now.toInt ≤ (Sample.day 256).toInt) ∧ (Sample.day 256).toInt ≤ 2 ^ 62 ∧
    instructions hist + 1 < 2 ^ 32 ∧
    ClaimInOrder Sample.platform s ⟨Sample.day 256, [Sample.key 9, Sample.key 2]⟩ (Sample.claimAccs 255)
      (Sample.hash 255) x ∧
    perform Sample.platform (Sample.claim (Sample.day 256) 9 255) s = .error .overflow := by
  obtain ⟨hist, s, x, h⟩ := Sample.ceiling
  have hlen := h.length
  have hb := h.run.bounded Sample.start_empty h.clock (by decide) h.past
  exact ⟨hist, s, x, h.run, h.clock, h.past, by decide, by omega, h.order,
    h.order.aborts (h.run.wellPlaced Sample.start_empty.wellPlaced) (h.run.current Sample.start_empty)
      (hb.within _ _ (State.card?_eq_some.mp h.order.card)) h.full⟩

end Passdari
