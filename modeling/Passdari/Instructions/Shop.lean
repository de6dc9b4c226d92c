/-
A shop's own instructions: `initialize` (left over from the project
template), `register_business`, `update_business_config` and `close_business`.
-/
import Passdari.BusinessRules
import Passdari.Ledger

namespace Passdari

open Wire

variable (P : Platform) (tx : Tx)

/-! ## The template counter -/

structure Initialize where
  counter : Address
  owner : Address

def initializeHandler (accs : Initialize) (s : State) : Except Failure State := do
  signer tx accs.owner
  let bump ← seedsConstraint P (.counter accs.owner) accs.counter
  let s ← create P tx Counter.account s accs.owner accs.counter
  store Counter.account s accs.counter { owner := accs.owner, count := 0, bump := bump }

/-! ## register_business -/

structure RegisterBusiness where
  business : Address
  authority : Address
  relayer : Address

structure RegisterBusinessArgs where
  name : Text
  category : Text
  rewardLabel : Text
  stampsRequired : UInt8
  minPurchaseAmount : UInt64
  currency : Text
  receiptTtlSeconds : UInt32
  termsLockedUntil : Int64

def registerBusinessHandler (now : Int64) (accs : RegisterBusiness) (bump : UInt8)
    (args : RegisterBusinessArgs) (business : Business) : Except Failure Business := do
  checkSettings args.name args.category args.rewardLabel args.stampsRequired args.receiptTtlSeconds
  checkTermsLock now 0 args.termsLockedUntil
  require (args.currency.len ≤ maxCurrencyLen) .currencyTooLong
  pure { business with
    authority := accs.authority
    name := args.name
    category := args.category
    rewardLabel := args.rewardLabel
    stampsRequired := args.stampsRequired
    minPurchaseAmount := args.minPurchaseAmount
    currency := args.currency
    receiptTtlSeconds := args.receiptTtlSeconds
    totalCards := 0
    totalStampsIssued := 0
    totalVouchersIssued := 0
    totalRedemptions := 0
    bump := bump
    termsLockedUntil := args.termsLockedUntil
    openCards := 0
    rentPayer := accs.relayer
    openVouchers := 0 }

def registerBusiness (accs : RegisterBusiness) (args : RegisterBusinessArgs) (s : State) :
    Except Failure State := do
  signer tx accs.authority
  signer tx accs.relayer
  let bump ← seedsConstraint P (.business accs.authority) accs.business
  let s ← create P tx Business.account s accs.relayer accs.business
  let business ← registerBusinessHandler tx.now accs bump args Business.account.zeroed
  store Business.account s accs.business business

/-! ## update_business_config -/

structure UpdateBusinessConfig where
  business : Address
  authority : Address

structure UpdateBusinessConfigArgs where
  rewardLabel : Text
  stampsRequired : UInt8
  minPurchaseAmount : UInt64
  receiptTtlSeconds : UInt32
  termsLockedUntil : Int64

def updateBusinessConfigHandler (now : Int64) (args : UpdateBusinessConfigArgs) (business : Business) :
    Except Failure Business := do
  checkSettings business.name business.category args.rewardLabel args.stampsRequired args.receiptTtlSeconds
  -- While a shop's promise stands, it cannot change what it promised.
  let currentLock := business.termsLockedUntil
  require (currentLock ≤ now) .rewardTermsLocked
  checkTermsLock now currentLock args.termsLockedUntil
  pure { business with
    termsLockedUntil := args.termsLockedUntil
    rewardLabel := args.rewardLabel
    stampsRequired := args.stampsRequired
    minPurchaseAmount := args.minPurchaseAmount
    receiptTtlSeconds := args.receiptTtlSeconds }

/-- The checks on a shop its own authority acts through: the address its authority's seeds and its own
bump make, and that authority recorded on it. -/
def ownBusiness (s : State) (business authority : Address) : Except Failure Business := do
  let b ← load Business.account s business
  seedsConstraintWith P (.business authority) b.bump business
  hasOne b.authority authority
  pure b

def updateBusinessConfig (accs : UpdateBusinessConfig) (args : UpdateBusinessConfigArgs) (s : State) :
    Except Failure State := do
  signer tx accs.authority
  let business ← ownBusiness P s accs.business accs.authority
  let business ← updateBusinessConfigHandler tx.now args business
  store Business.account s accs.business business

/-! ## close_business -/

structure CloseBusiness where
  business : Address
  rentPayer : Address

def closeBusinessHandler (now : Int64) (business : Business) : Except Failure Unit := do
  require (business.termsLockedUntil ≤ now) .shopOfferStillRunning
  require (business.openCards = 0) .shopStillHasOpenCards
  require (business.openVouchers = 0) .shopStillOwesVouchers

/-- The checks of `close = rent_payer, has_one = rent_payer`. -/
def closeConstraint (a recorded rentPayer : Address) : Except Failure Unit := do
  hasOne recorded rentPayer
  check (a ≠ rentPayer) (.anchor .constraintClose)

def closeBusiness (accs : CloseBusiness) (s : State) : Except Failure State := do
  let business ← load Business.account s accs.business
  systemAccount s accs.rentPayer
  seedsConstraintWith P (.business business.authority) business.bump accs.business
  closeConstraint accs.business business.rentPayer accs.rentPayer
  closeBusinessHandler tx.now business
  pure (close s accs.business accs.rentPayer)

end Passdari
