/-
What an instruction can fail with, and the arithmetic that can fail. The
release profile has overflow checks on, so an unchecked `+` or `-` that
leaves its type aborts the transaction (`Failure.overflow`).
-/
import Passdari.Lib.Token2022

namespace Passdari

/-- The program's own errors. -/
inductive ErrorCode
  | customError | invalidAmountBand | receiptExpired | invalidSecret | invalidVoucherId | notEnoughStamps
  | voucherPending | voucherNotPresented | receiptNotYetExpired | stampCooldownActive
  | receiptRateLimitExceeded | claimRateLimitExceeded | uriTooLong | notVoucherHolder | voucherExpired
  | voucherNotExpired | cardNftNotIdle | wrongRentPayer | invalidStampAmount | tooManyStamps | cardNotEmpty
  | cardNotDead | cardNftStillAlive | notACard | cardAlreadyMigrated | businessNameRequired
  | businessNameTooLong | categoryTooLong | rewardLabelRequired | rewardLabelTooLong | currencyTooLong
  | stampsRequiredTooLow | stampsRequiredTooHigh | receiptTtlOutOfRange | termsLockInThePast
  | termsLockTooLong | termsNoticeTooShort | rewardTermsLocked | shopStillHasOpenCards
  | shopOfferStillRunning | shopStillOwesVouchers | notABusiness | businessAlreadyMigrated
  deriving DecidableEq

/-- The errors of the account checks Anchor generates. -/
inductive AnchorError
  | accountNotInitialized | accountOwnedByWrongProgram | accountDiscriminatorMismatch
  | accountDidNotDeserialize | accountDidNotSerialize | accountNotSigner | accountNotSystemOwned
  | constraintSeeds | constraintHasOne | constraintAddress | constraintClose | constraintSpace
  | constraintTokenMint | constraintTokenOwner | constraintAssociated
  | constraintDuplicateMutableAccount
  deriving DecidableEq

/-- The system program's and the runtime's errors. -/
inductive SystemError
  | accountAlreadyInUse | insufficientFunds | missingRequiredSignature | invalidSeeds
  deriving DecidableEq

inductive Failure
  | code (e : ErrorCode)
  | anchor (e : AnchorError)
  | token (e : Token2022.Error)
  | system (e : SystemError)
  | overflow
  deriving DecidableEq

/-- `require!`. -/
def require (p : Prop) [Decidable p] (e : ErrorCode) : Except Failure Unit := check p (.code e)

theorem require_eq_ok {p : Prop} [Decidable p] {e : ErrorCode} {u : Unit} : require p e = .ok u ↔ p :=
  check_eq_ok

theorem require_pos {p : Prop} [Decidable p] {e : ErrorCode} (h : p) : require p e = .ok () := check_pos h

theorem require_neg {p : Prop} [Decidable p] {e : ErrorCode} (h : ¬p) : require p e = .error (.code e) :=
  check_neg h

/-! ## Arithmetic with overflow checks -/

def addU8 (a b : UInt8) : Except Failure UInt8 := do
  check (a.toNat + b.toNat < 2 ^ 8) .overflow
  pure (a + b)

def subU8 (a b : UInt8) : Except Failure UInt8 := do
  check (b.toNat ≤ a.toNat) .overflow
  pure (a - b)

def addU32 (a b : UInt32) : Except Failure UInt32 := do
  check (a.toNat + b.toNat < 2 ^ 32) .overflow
  pure (a + b)

def addU64 (a b : UInt64) : Except Failure UInt64 := do
  check (a.toNat + b.toNat < 2 ^ 64) .overflow
  pure (a + b)

def addI64 (a b : Int64) : Except Failure Int64 := do
  check (-2 ^ 63 ≤ a.toInt + b.toInt ∧ a.toInt + b.toInt < 2 ^ 63) .overflow
  pure (a + b)

def subI64 (a b : Int64) : Except Failure Int64 := do
  check (-2 ^ 63 ≤ a.toInt - b.toInt ∧ a.toInt - b.toInt < 2 ^ 63) .overflow
  pure (a - b)

/-- `saturating_add`. -/
def satAddU32 (a b : UInt32) : UInt32 :=
  if a.toNat + b.toNat < 2 ^ 32 then a + b else UInt32.ofNat (2 ^ 32 - 1)

/-- `saturating_sub`. -/
def satSubU32 (a b : UInt32) : UInt32 := if b.toNat ≤ a.toNat then a - b else 0

def satSubU64 (a b : UInt64) : UInt64 := if b.toNat ≤ a.toNat then a - b else 0

section Arithmetic

theorem addU8_eq_ok {a b c : UInt8} : addU8 a b = .ok c ↔ c.toNat = a.toNat + b.toNat := by
  simp only [addU8, Except.bind_eq_ok, check_eq_ok, Except.pure_eq_ok, exists_const]
  constructor
  · intro hex
    obtain ⟨h, rfl⟩ := hex
    rw [UInt8.toNat_add, Nat.mod_eq_of_lt h]
  · intro h
    have hc := c.toNat_lt
    refine ⟨h ▸ hc, UInt8.toNat_inj.mp ?_⟩
    rw [UInt8.toNat_add, Nat.mod_eq_of_lt (h ▸ hc), h]

theorem subU8_eq_ok {a b c : UInt8} : subU8 a b = .ok c ↔ c.toNat + b.toNat = a.toNat := by
  simp only [subU8, Except.bind_eq_ok, check_eq_ok, Except.pure_eq_ok, exists_const]
  constructor
  · intro hex
    obtain ⟨h, rfl⟩ := hex
    rw [UInt8.toNat_sub_of_le _ _ (UInt8.le_iff_toNat_le.mpr h)]
    omega
  · intro h
    have hle : b.toNat ≤ a.toNat := by omega
    refine ⟨hle, UInt8.toNat_inj.mp ?_⟩
    rw [UInt8.toNat_sub_of_le _ _ (UInt8.le_iff_toNat_le.mpr hle)]
    omega

theorem addU32_eq_ok {a b c : UInt32} : addU32 a b = .ok c ↔ c.toNat = a.toNat + b.toNat := by
  simp only [addU32, Except.bind_eq_ok, check_eq_ok, Except.pure_eq_ok, exists_const]
  constructor
  · intro hex
    obtain ⟨h, rfl⟩ := hex
    rw [UInt32.toNat_add, Nat.mod_eq_of_lt h]
  · intro h
    have hc := c.toNat_lt
    refine ⟨h ▸ hc, UInt32.toNat_inj.mp ?_⟩
    rw [UInt32.toNat_add, Nat.mod_eq_of_lt (h ▸ hc), h]

theorem addU64_eq_ok {a b c : UInt64} : addU64 a b = .ok c ↔ c.toNat = a.toNat + b.toNat := by
  simp only [addU64, Except.bind_eq_ok, check_eq_ok, Except.pure_eq_ok, exists_const]
  constructor
  · intro hex
    obtain ⟨h, rfl⟩ := hex
    rw [UInt64.toNat_add, Nat.mod_eq_of_lt h]
  · intro h
    have hc := c.toNat_lt
    refine ⟨h ▸ hc, UInt64.toNat_inj.mp ?_⟩
    rw [UInt64.toNat_add, Nat.mod_eq_of_lt (h ▸ hc), h]

theorem addI64_eq_ok {a b c : Int64} : addI64 a b = .ok c ↔ c.toInt = a.toInt + b.toInt := by
  simp only [addI64, Except.bind_eq_ok, check_eq_ok, Except.pure_eq_ok, exists_const]
  constructor
  · intro hex
    obtain ⟨h, rfl⟩ := hex
    rw [Int64.toInt_add]
    exact Int.bmod_eq_of_le (by omega) (by omega)
  · intro h
    have hl := c.le_toInt
    have hu := c.toInt_lt
    refine ⟨⟨by omega, by omega⟩, Int64.toInt_inj.mp ?_⟩
    rw [Int64.toInt_add, h]
    exact Int.bmod_eq_of_le (by omega) (by omega)

theorem subI64_eq_ok {a b c : Int64} : subI64 a b = .ok c ↔ c.toInt = a.toInt - b.toInt := by
  simp only [subI64, Except.bind_eq_ok, check_eq_ok, Except.pure_eq_ok, exists_const]
  constructor
  · intro hex
    obtain ⟨h, rfl⟩ := hex
    rw [Int64.toInt_sub]
    exact Int.bmod_eq_of_le (by omega) (by omega)
  · intro h
    have hl := c.le_toInt
    have hu := c.toInt_lt
    refine ⟨⟨by omega, by omega⟩, Int64.toInt_inj.mp ?_⟩
    rw [Int64.toInt_sub, h]
    exact Int.bmod_eq_of_le (by omega) (by omega)

theorem toNat_satSubU32 (a b : UInt32) : (satSubU32 a b).toNat = a.toNat - b.toNat := by
  unfold satSubU32
  split
  · next h => exact UInt32.toNat_sub_of_le _ _ (UInt32.le_iff_toNat_le.mpr h)
  · next h => simp; omega

theorem toNat_satSubU64 (a b : UInt64) : (satSubU64 a b).toNat = a.toNat - b.toNat := by
  unfold satSubU64
  split
  · next h => exact UInt64.toNat_sub_of_le _ _ (UInt64.le_iff_toNat_le.mpr h)
  · next h => simp; omega

theorem toNat_satAddU32 (a b : UInt32) : (satAddU32 a b).toNat = min (a.toNat + b.toNat) (2 ^ 32 - 1) := by
  unfold satAddU32
  split
  · next h => rw [UInt32.toNat_add, Nat.mod_eq_of_lt h]; omega
  · next h => rw [UInt32.toNat_ofNat_of_lt' (by decide)]; omega

end Arithmetic

/-! ## Constants -/

def stampCooldownSeconds : Int64 := 60
def maxReceiptsPerHour : UInt32 := 100
def maxClaimsPerCardPerDay : UInt32 := 20
def maxVoucherUriLen : Nat := 100
def voucherSymbol : String := "PSDR"
def cardSymbol : String := "PSDC"

/-- 90 days. -/
def voucherValidSeconds : Int64 := 90 * 24 * 60 * 60

/-- A year. -/
def cardDeadSeconds : Int64 := 365 * 24 * 60 * 60

/-- 90 days. -/
def cardNftIdleSeconds : Int64 := 90 * 24 * 60 * 60

end Passdari
