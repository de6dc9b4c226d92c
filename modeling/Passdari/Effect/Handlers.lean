/-
What each handler accepts and computes, one lemma a handler. Later proofs
use these and never unfold a handler.
-/
import Passdari.Instructions.Migrations
import Passdari.Instructions.Vouchers

namespace Passdari

open Wire

theorem registerBusinessHandler_eq_ok {now : Int64} {accs bump args} {blank b : Business} :
    registerBusinessHandler now accs bump args blank = .ok b ↔
      SettingsOk args.name args.category args.rewardLabel args.stampsRequired args.receiptTtlSeconds ∧
      checkTermsLock now 0 args.termsLockedUntil = .ok () ∧ args.currency.len ≤ maxCurrencyLen ∧
      b = { blank with
        authority := accs.authority
        name := args.name
        category := args.category
        rewardLabel := args.rewardLabel
        stampsRequired := args.stampsRequired
        minPurchaseAmount := args.minPurchaseAmount
        currency := args.currency
        receiptTtlSeconds := args.receiptTtlSeconds
        totalCards := 0
        totalStampsIssued := 0
        totalVouchersIssued := 0
        totalRedemptions := 0
        bump := bump
        termsLockedUntil := args.termsLockedUntil
        openCards := 0
        rentPayer := accs.relayer
        openVouchers := 0 } := by
  simp only [registerBusinessHandler, Except.bind_eq_ok, checkSettings_eq_ok, require_eq_ok,
    Except.pure_eq_ok, exists_const, @eq_comm _ b]
  constructor
  · intro h
    obtain ⟨h1, ⟨⟩, h2, h3, h4⟩ := h
    exact ⟨h1, h2, h3, h4⟩
  · intro h
    obtain ⟨h1, h2, h3, h4⟩ := h
    exact ⟨h1, (), h2, h3, h4⟩

theorem updateBusinessConfigHandler_eq_ok {now : Int64} {args} {b b' : Business} :
    updateBusinessConfigHandler now args b = .ok b' ↔
      SettingsOk b.name b.category args.rewardLabel args.stampsRequired args.receiptTtlSeconds ∧
      b.termsLockedUntil ≤ now ∧ checkTermsLock now b.termsLockedUntil args.termsLockedUntil = .ok () ∧
      b' = { b with
        termsLockedUntil := args.termsLockedUntil
        rewardLabel := args.rewardLabel
        stampsRequired := args.stampsRequired
        minPurchaseAmount := args.minPurchaseAmount
        receiptTtlSeconds := args.receiptTtlSeconds } := by
  simp only [updateBusinessConfigHandler, Except.bind_eq_ok, checkSettings_eq_ok, require_eq_ok,
    Except.pure_eq_ok, exists_const, @eq_comm _ b']
  constructor
  · intro h
    obtain ⟨h1, h2, ⟨⟩, h3, h4⟩ := h
    exact ⟨h1, h2, h3, h4⟩
  · intro h
    obtain ⟨h1, h2, h3, h4⟩ := h
    exact ⟨h1, h2, (), h3, h4⟩

theorem closeBusinessHandler_eq_ok {now : Int64} {b : Business} {u : Unit} :
    closeBusinessHandler now b = .ok u ↔ b.termsLockedUntil ≤ now ∧ b.openCards = 0 ∧ b.openVouchers = 0 := by
  simp only [closeBusinessHandler, Except.bind_eq_ok, require_eq_ok, exists_const]

/-- The receipt of a shop whose hour is not used up; the hour starts again once it is over. -/
theorem issueReceiptHandler_eq_ok {now : Int64} {accs bump band} {b b' : Business} {r : Receipt}
    (h : issueReceiptHandler now accs bump band b = .ok (b', r)) :
    band ≠ 0 ∧ ∃ (elapsed : Int64) (thisWindow : UInt32) (expiresAt : Int64),
      elapsed.toInt = now.toInt - b.receiptsWindowStart.toInt ∧
      (if 3600 ≤ elapsed then 0 else b.receiptsThisWindow) < maxReceiptsPerHour ∧
      thisWindow.toNat = (if 3600 ≤ elapsed then 0 else b.receiptsThisWindow).toNat + 1 ∧
      expiresAt.toInt = now.toInt + b.receiptTtlSeconds.toNat ∧
      b' = { b with
        receiptsWindowStart := if 3600 ≤ elapsed then now else b.receiptsWindowStart
        receiptsThisWindow := thisWindow } ∧
      r = { business := accs.business, amountBand := band, issuedAt := now, expiresAt := expiresAt, bump :=
        bump,
            rentPayer := accs.relayer } := by
  have httl : (Int64.ofNat b.receiptTtlSeconds.toNat).toInt = b.receiptTtlSeconds.toNat := by
    have := b.receiptTtlSeconds.toNat_lt
    exact Int64.toInt_ofNat_of_lt (by omega)
  simp only [issueReceiptHandler, Except.bind_eq_ok, require_eq_ok, Except.pure_eq_ok, exists_const,
    Prod.mk.injEq, addI64_eq_ok, addU32_eq_ok, subI64_eq_ok] at h
  obtain ⟨hband, elapsed, helapsed, hroom, n, hn, e, he, rfl, rfl⟩ := h
  refine ⟨hband, elapsed, n, e, helapsed, ?_⟩
  by_cases h3600 : 3600 ≤ elapsed
  · simp only [if_pos h3600] at hroom hn he ⊢
    exact ⟨hroom, hn, by rw [he, httl], trivial, trivial⟩
  · simp only [if_neg h3600] at hroom hn he ⊢
    exact ⟨hroom, hn, by rw [he, httl], trivial, trivial⟩

/-- A new card is opened with the shop's present terms; one that was there is left alone. -/
theorem openCard_eq_ok {accs bump} {b b' : Business} {c c' : LoyaltyCard}
    (h : openCard accs bump b c = .ok (b', c')) :
    (c.business = .default ∧ ∃ totalCards openCards, totalCards.toNat = b.totalCards.toNat + 1 ∧
      openCards.toNat = b.openCards.toNat + 1 ∧
      b' = { b with totalCards := totalCards, openCards := openCards } ∧
      c' = { c with
        business := accs.business
        customer := accs.customer
        bump := bump
        stampsRequiredSnapshot := b.stampsRequired
        rentPayer := accs.relayer
        rewardsEarned := 0 }) ∨
    c.business ≠ .default ∧ b' = b ∧ c' = c := by
  unfold openCard at h
  split at h
  · next hnew =>
    simp only [Except.bind_eq_ok, addU32_eq_ok, Except.pure_eq_ok, Prod.mk.injEq] at h
    obtain ⟨tc, htc, oc, hoc, rfl, rfl⟩ := h
    exact .inl ⟨hnew, tc, oc, by simpa using htc, by simpa using hoc, rfl, rfl⟩
  · next hold =>
    cases h
    exact .inr ⟨hold, rfl, rfl⟩

theorem checkCooldown_eq_ok {now : Int64} {c : LoyaltyCard} {u : Unit} (h : checkCooldown now c = .ok u) :
    c.lastStampTs = 0 ∨
      ∃ since : Int64, since.toInt = now.toInt - c.lastStampTs.toInt ∧ stampCooldownSeconds ≤ since := by
  unfold checkCooldown at h
  split at h
  · simp only [Except.bind_eq_ok, subI64_eq_ok, require_eq_ok] at h
    exact .inr h
  · next h0 => exact .inl (not_not.mp h0)

/-- One stamp, after the cooldown and within the day's limit. -/
theorem stampCard_eq_ok {now : Int64} {c c' : LoyaltyCard} (h : stampCard now c = .ok c') :
    checkCooldown now c = .ok () ∧
    ∃ (elapsed : Int64) (thisWindow : UInt32) (stamps : UInt8) (lifetime : UInt32),
      elapsed.toInt = now.toInt - c.claimsWindowStart.toInt ∧
      (if 86400 ≤ elapsed then 0 else c.claimsThisWindow) < maxClaimsPerCardPerDay ∧
      thisWindow.toNat = (if 86400 ≤ elapsed then 0 else c.claimsThisWindow).toNat + 1 ∧
      stamps.toNat = c.stamps.toNat + 1 ∧ lifetime.toNat = c.lifetimeStamps.toNat + 1 ∧
      c' = { c with
        claimsWindowStart := if 86400 ≤ elapsed then now else c.claimsWindowStart
        claimsThisWindow := thisWindow
        stamps := stamps
        lastStampTs := now
        lifetimeStamps := lifetime } := by
  simp only [stampCard, Except.bind_eq_ok, require_eq_ok, Except.pure_eq_ok, exists_const, addU32_eq_ok,
    addU8_eq_ok, subI64_eq_ok] at h
  obtain ⟨⟨⟩, hcool, elapsed, helapsed, hroom, n, hn, st, hst, l, hl, rfl⟩ := h
  refine ⟨hcool, elapsed, n, st, l, helapsed, ?_⟩
  by_cases hday : 86400 ≤ elapsed
  · simp only [if_pos hday] at hroom hn hst hl ⊢
    exact ⟨hroom, hn, by simpa using hst, by simpa using hl, trivial⟩
  · simp only [if_neg hday] at hroom hn hst hl ⊢
    exact ⟨hroom, hn, by simpa using hst, by simpa using hl, trivial⟩

theorem claimReceiptHandler_eq_ok {P : Platform} {now : Int64} {accs bump secret} {b b' : Business}
    {r : Receipt}
    {c c' : LoyaltyCard} (h : claimReceiptHandler P now accs bump secret b r c = .ok (b', c')) :
    (∃ receiptBump, findProgramAddress P (.receipt accs.business (P.keccak secret)) =
      some (accs.receipt, receiptBump)) ∧ now ≤ r.expiresAt ∧
    ∃ b₁ c₁ total, openCard accs bump b c = .ok (b₁, c₁) ∧ stampCard now c₁ = .ok c' ∧
      total.toNat = b₁.totalStampsIssued.toNat + 1 ∧ b' = { b₁ with totalStampsIssued := total } := by
  simp only [claimReceiptHandler, Except.bind_eq_ok, demand_eq_ok, require_eq_ok, Except.pure_eq_ok,
    exists_const, addU64_eq_ok, Prod.mk.injEq, Prod.exists] at h
  obtain ⟨a, receiptBump, hf, rfl, hexp, b₁, c₁, hopen, c₂, hstamp, total, htotal, rfl, rfl⟩ := h
  exact ⟨⟨receiptBump, hf⟩, hexp, b₁, c₁, total, hopen, hstamp, by simpa using htotal, rfl⟩

/-- The card a claim stamps: the one that is there, or a new one under the shop's present terms. -/
def claimedCard (accs : ClaimReceipt) (bump : UInt8) (b : Business) (c : Option LoyaltyCard) : LoyaltyCard :=
  c.getD { LoyaltyCard.account.zeroed with
    business := accs.business
    customer := accs.customer
    bump := bump
    stampsRequiredSnapshot := b.stampsRequired
    rentPayer := accs.relayer
    rewardsEarned := 0 }

/-- What a claim comes to, when a card that is there is a card of the shop. -/
theorem claimReceiptHandler_spec {P : Platform} {now : Int64} {accs bump secret} {b b' : Business}
    {r : Receipt}
    {c : Option LoyaltyCard} {c' : LoyaltyCard} (hbus : accs.business ≠ .default)
    (hown : ∀ x, c = some x → x.business = accs.business ∧ x.customer = accs.customer)
    (h : claimReceiptHandler P now accs bump secret b r (c.getD LoyaltyCard.account.zeroed) = .ok (b', c')) :
    (∃ receiptBump, findProgramAddress P (.receipt accs.business (P.keccak secret)) =
      some (accs.receipt, receiptBump)) ∧ now ≤ r.expiresAt ∧
      stampCard now (claimedCard accs bump b c) = .ok c' ∧
    ∃ totalCards openCards total, openCards.toNat = b.openCards.toNat + (if c = none then 1 else 0) ∧
      total.toNat = b.totalStampsIssued.toNat + 1 ∧
      b' = { b with totalCards := totalCards, openCards := openCards, totalStampsIssued := total } := by
  obtain ⟨hsecret, hexp, b₁, c₁, total, hopen, hstamp, htotal, rfl⟩ := claimReceiptHandler_eq_ok h
  refine ⟨hsecret, hexp, ?_⟩
  cases c with
  | none =>
    rcases openCard_eq_ok hopen with ⟨-, tc, oc, -, hoc, rfl, rfl⟩ | ⟨hne, -, -⟩
    · exact ⟨hstamp, tc, oc, total, hoc, htotal, rfl⟩
    · exact absurd rfl hne
  | some x =>
    rcases openCard_eq_ok hopen with ⟨hdef, -⟩ | ⟨-, rfl, rfl⟩
    · exact absurd ((hown x rfl).1.symm.trans hdef) hbus
    · exact ⟨hstamp, b₁.totalCards, b₁.openCards, total, rfl, htotal, rfl⟩

/-- Stamps moved between two cards. -/
theorem transferStampsHandler_eq_ok {amount : UInt8} {c d c' d' : LoyaltyCard}
    (h : transferStampsHandler amount c d = .ok (c', d')) :
    0 < amount.toNat ∧ ∃ cs cl ds dl, cs.toNat + amount.toNat = c.stamps.toNat ∧
      cl.toNat + amount.toNat = c.lifetimeStamps.toNat ∧ ds.toNat = d.stamps.toNat + amount.toNat ∧
      dl.toNat = d.lifetimeStamps.toNat + amount.toNat ∧
      c' = { c with stamps := cs, lifetimeStamps := cl } ∧
        d' = { d with stamps := ds, lifetimeStamps := dl } := by
  have hmoved : (UInt32.ofNat amount.toNat).toNat = amount.toNat := by
    exact UInt32.toNat_ofNat_of_lt' (Nat.lt_trans amount.toNat_lt (by decide))
  simp only [transferStampsHandler, Except.bind_eq_ok, require_eq_ok, Except.pure_eq_ok, exists_const,
    subU8_eq_ok, Prod.mk.injEq, UInt32.le_iff_toNat_le, hmoved, UInt8.lt_iff_toNat_lt] at h
  obtain ⟨hpos, -, hroom, cs, hcs, hlife, hlroom, rfl, rfl⟩ := h
  refine ⟨hpos, cs, _, _, _, hcs, ?_, ?_, ?_, rfl, rfl⟩
  · rw [UInt32.toNat_sub_of_le _ _ (UInt32.le_iff_toNat_le.mpr (by rwa [hmoved])), hmoved]
    omega
  · rw [UInt8.toNat_add, Nat.mod_eq_of_lt hroom]
  · rw [UInt32.toNat_add, hmoved, Nat.mod_eq_of_lt hlroom]

theorem cashIn_eq_ok {b : Business} {c c' : LoyaltyCard} (h : cashIn b c = .ok c') :
    ∃ stamps, stamps.toNat + c.stampsRequiredSnapshot.toNat = c.stamps.toNat ∧
      c' = { c with
        stamps := stamps
        rewardsEarned := satAddU32 c.rewardsEarned 1
        stampsRequiredSnapshot := b.stampsRequired } := by
  simp only [cashIn, Except.bind_eq_ok, require_eq_ok, Except.pure_eq_ok, exists_const, subU8_eq_ok] at h
  obtain ⟨-, st, hst, rfl⟩ := h
  exact ⟨st, hst, rfl⟩

/-- A card with enough stamps passes the threshold check, whatever the shop asks for by now. -/
theorem cashIn_ok {b : Business} {c : LoyaltyCard} (h : c.stampsRequiredSnapshot ≤ c.stamps) :
    ∃ c', cashIn b c = .ok c' := by
  have hle := UInt8.le_iff_toNat_le.mp h
  obtain ⟨n, hn⟩ : ∃ n, subU8 c.stamps c.stampsRequiredSnapshot = .ok n :=
    ⟨c.stamps - c.stampsRequiredSnapshot, subU8_eq_ok.mpr (by rw [UInt8.toNat_sub_of_le _ _ h]; omega)⟩
  simp only [cashIn, Except.bind_eq_ok, require_eq_ok, Except.pure_eq_ok, exists_const]
  exact ⟨_, h, n, hn, rfl⟩

theorem mintVoucherHandler_eq_ok {now : Int64} {accs : MintVoucher} {bump voucherId uri} {b b' : Business}
    {c c' : LoyaltyCard} {v : Voucher}
    (h : mintVoucherHandler now accs bump voucherId uri b c = .ok (b', c', v)) :
    uri.len ≤ maxVoucherUriLen ∧ voucherId = b.totalVouchersIssued ∧ cashIn b c = .ok c' ∧
    ∃ expiresAt totalVouchersIssued openVouchers, expiresAt.toInt = now.toInt + voucherValidSeconds.toInt ∧
      totalVouchersIssued.toNat = b.totalVouchersIssued.toNat + 1 ∧
      openVouchers.toNat = b.openVouchers.toNat + 1 ∧
      b' = { b with totalVouchersIssued := totalVouchersIssued, openVouchers := openVouchers } ∧
      v = { business := accs.business, owner := accs.customer, mint := accs.mint, voucherId := voucherId,
            mintedAt := now, bump := bump, rentPayer := accs.relayer, expiresAt := expiresAt } := by
  simp only [mintVoucherHandler, Except.bind_eq_ok, require_eq_ok, Except.pure_eq_ok, exists_const,
    addI64_eq_ok, addU64_eq_ok, addU32_eq_ok, Prod.mk.injEq] at h
  obtain ⟨huri, hid, c₁, hcash, e, he, tv, htv, ov, hov, rfl, rfl, rfl⟩ := h
  exact ⟨huri, hid, hcash, e, tv, ov, he, by simpa using htv, by simpa using hov, rfl, rfl⟩

end Passdari
