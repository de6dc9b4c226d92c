/-
The limits a shop's settings obey, and the rules a commitment date obeys.
-/
import Passdari.Error
import Passdari.State

namespace Passdari

open Wire

def maxNameLen : Nat := 32
def maxCategoryLen : Nat := 20
def maxRewardLabelLen : Nat := 32
def maxCurrencyLen : Nat := 3
def maxStampsRequired : UInt8 := 100
def minReceiptTtlSeconds : UInt32 := 60
def maxReceiptTtlSeconds : UInt32 := 24 * 60 * 60
def maxTermsLockSeconds : Int64 := 365 * 24 * 60 * 60
def minTermsNoticeSeconds : Int64 := 14 * 24 * 60 * 60

/-- `char::is_whitespace`: the characters with the Unicode property White_Space. -/
def isWhitespace (c : Char) : Bool :=
  (0x09 ≤ c.toNat ∧ c.toNat ≤ 0x0D) ∨ c.toNat = 0x20 ∨ c.toNat = 0x85 ∨ c.toNat = 0xA0 ∨ c.toNat = 0x1680 ∨
    (0x2000 ≤ c.toNat ∧ c.toNat ≤ 0x200A) ∨ c.toNat = 0x2028 ∨ c.toNat = 0x2029 ∨ c.toNat = 0x202F ∨
    c.toNat = 0x205F ∨ c.toNat = 0x3000

/-- `str::trim`, as the characters it leaves. -/
def trim (t : Text) : List Char :=
  (((t.val.toList.dropWhile isWhitespace).reverse).dropWhile isWhitespace).reverse

/-- Checks a proposed "committed until" date against the clock and the shop's current promise. Zero means
no commitment, and is always allowed. -/
def checkTermsLock (now currentLock proposed : Int64) : Except Failure Unit :=
  if proposed = 0 then pure ()
  else do
    require (now ≤ proposed) .termsLockInThePast
    let ahead ← subI64 proposed now
    require (ahead ≤ maxTermsLockSeconds) .termsLockTooLong
    -- Bringing the promise forward is allowed, but only with notice.
    if proposed < currentLock then do
      let notice ← subI64 proposed now
      require (minTermsNoticeSeconds ≤ notice) .termsNoticeTooShort
    else pure ()

def checkSettings (name category rewardLabel : Text) (stampsRequired : UInt8) (receiptTtlSeconds : UInt32) :
    Except Failure Unit := do
  require (trim name ≠ []) .businessNameRequired
  require (name.len ≤ maxNameLen) .businessNameTooLong
  require (category.len ≤ maxCategoryLen) .categoryTooLong
  require (trim rewardLabel ≠ []) .rewardLabelRequired
  require (rewardLabel.len ≤ maxRewardLabelLen) .rewardLabelTooLong
  require (1 ≤ stampsRequired) .stampsRequiredTooLow
  require (stampsRequired ≤ maxStampsRequired) .stampsRequiredTooHigh
  require (minReceiptTtlSeconds ≤ receiptTtlSeconds ∧ receiptTtlSeconds ≤ maxReceiptTtlSeconds)
    .receiptTtlOutOfRange

/-! ## What the checks leave -/

/-- Settings `check_settings` accepts. -/
structure SettingsOk (name category rewardLabel : Text) (stampsRequired : UInt8)
    (receiptTtlSeconds : UInt32) : Prop where
  name_nonblank : trim name ≠ []
  name_len : name.len ≤ maxNameLen
  category_len : category.len ≤ maxCategoryLen
  label_nonblank : trim rewardLabel ≠ []
  label_len : rewardLabel.len ≤ maxRewardLabelLen
  stamps_low : 1 ≤ stampsRequired
  stamps_high : stampsRequired ≤ maxStampsRequired
  ttl : minReceiptTtlSeconds ≤ receiptTtlSeconds ∧ receiptTtlSeconds ≤ maxReceiptTtlSeconds

theorem checkSettings_eq_ok {n c r : Text} {s : UInt8} {ttl : UInt32} {u : Unit} :
    checkSettings n c r s ttl = .ok u ↔ SettingsOk n c r s ttl := by
  simp only [checkSettings, Except.bind_eq_ok, require_eq_ok, exists_const]
  exact ⟨fun ⟨h1, h2, h3, h4, h5, h6, h7, h8⟩ => ⟨h1, h2, h3, h4, h5, h6, h7, h8⟩,
    fun ⟨h1, h2, h3, h4, h5, h6, h7, h8⟩ => ⟨h1, h2, h3, h4, h5, h6, h7, h8⟩⟩

/-- A date that passed is no commitment, or lies between now and a year from now. -/
theorem checkTermsLock_range {now lock p : Int64} {u : Unit} (h : checkTermsLock now lock p = .ok u) :
    p = 0 ∨ (now.toInt ≤ p.toInt ∧ p.toInt ≤ now.toInt + 365 * 24 * 60 * 60) := by
  unfold checkTermsLock at h
  split at h
  · next h0 => exact .inl h0
  · simp only [Except.bind_eq_ok, require_eq_ok, subI64_eq_ok, exists_const] at h
    obtain ⟨hpast, ahead, hahead, hlong, -⟩ := h
    refine .inr ⟨Int64.le_iff_toInt_le.mp hpast, ?_⟩
    have hl := Int64.le_iff_toInt_le.mp hlong
    have hm : maxTermsLockSeconds.toInt = 365 * 24 * 60 * 60 := by decide
    omega

end Passdari
