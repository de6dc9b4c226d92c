/-
Receipts, stamps and the cards they sit on: `issue_receipt`, `claim_receipt`,
`reclaim_expired_receipt`, `transfer_stamps` and `close_dead_card`.
-/
import Passdari.Instructions.Shop

namespace Passdari

variable (P : Platform) (tx : Tx)

/-! ## issue_receipt -/

structure IssueReceipt where
  business : Address
  receipt : Address
  authority : Address
  relayer : Address

def issueReceiptHandler (now : Int64) (accs : IssueReceipt) (bump : UInt8) (amountBand : UInt8)
    (business : Business) : Except Failure (Business × Receipt) := do
  require (amountBand ≠ 0) .invalidAmountBand
  let elapsed ← subI64 now business.receiptsWindowStart
  let business :=
    if 3600 ≤ elapsed then { business with receiptsWindowStart := now, receiptsThisWindow := 0 } else business
  require (business.receiptsThisWindow < maxReceiptsPerHour) .receiptRateLimitExceeded
  let receiptsThisWindow ← addU32 business.receiptsThisWindow 1
  let expiresAt ← addI64 now (Int64.ofNat business.receiptTtlSeconds.toNat)
  pure ({ business with receiptsThisWindow := receiptsThisWindow },
    { business := accs.business, amountBand := amountBand, issuedAt := now, expiresAt := expiresAt,
      bump := bump, rentPayer := accs.relayer })

def issueReceipt (accs : IssueReceipt) (secretHash : Bytes32) (amountBand : UInt8) (s : State) :
    Except Failure State := do
  let business ← ownBusiness P s accs.business accs.authority
  signer tx accs.authority
  signer tx accs.relayer
  let bump ← seedsConstraint P (.receipt accs.business secretHash) accs.receipt
  let s ← create P tx Receipt.account s accs.relayer accs.receipt
  let (business, receipt) ← issueReceiptHandler tx.now accs bump amountBand business
  let s ← store Business.account s accs.business business
  store Receipt.account s accs.receipt receipt

/-! ## claim_receipt -/

structure ClaimReceipt where
  business : Address
  receipt : Address
  card : Address
  customer : Address
  relayer : Address
  rentPayer : Address

/-- The first stamp of a new card. -/
def openCard (accs : ClaimReceipt) (bump : UInt8) (business : Business) (card : LoyaltyCard) :
    Except Failure (Business × LoyaltyCard) :=
  if card.business = .default then do
    let totalCards ← addU32 business.totalCards 1
    let openCards ← addU32 business.openCards 1
    pure ({ business with totalCards := totalCards, openCards := openCards },
      { card with
        business := accs.business
        customer := accs.customer
        bump := bump
        stampsRequiredSnapshot := business.stampsRequired
        rentPayer := accs.relayer
        rewardsEarned := 0 })
  else pure (business, card)

/-- The time since a card's last stamp, when it has had one. -/
def checkCooldown (now : Int64) (card : LoyaltyCard) : Except Failure Unit :=
  if card.lastStampTs ≠ 0 then do
    let since ← subI64 now card.lastStampTs
    require (stampCooldownSeconds ≤ since) .stampCooldownActive
  else pure ()

/-- The cooldown and the daily limit of a card, and the stamp. -/
def stampCard (now : Int64) (card : LoyaltyCard) : Except Failure LoyaltyCard := do
  checkCooldown now card
  let elapsed ← subI64 now card.claimsWindowStart
  let card :=
    if 86400 ≤ elapsed then { card with claimsWindowStart := now, claimsThisWindow := 0 } else card
  require (card.claimsThisWindow < maxClaimsPerCardPerDay) .claimRateLimitExceeded
  let claimsThisWindow ← addU32 card.claimsThisWindow 1
  let stamps ← addU8 card.stamps 1
  let lifetimeStamps ← addU32 card.lifetimeStamps 1
  pure { card with
    claimsThisWindow := claimsThisWindow
    stamps := stamps
    lastStampTs := now
    lifetimeStamps := lifetimeStamps }

def claimReceiptHandler (now : Int64) (accs : ClaimReceipt) (bump : UInt8) (secret : Bytes32)
    (business : Business) (receipt : Receipt) (card : LoyaltyCard) :
    Except Failure (Business × LoyaltyCard) := do
  let expected ← demand (findProgramAddress P (.receipt accs.business (P.keccak secret)))
    (.system .invalidSeeds)
  require (expected.1 = accs.receipt) .invalidSecret
  require (now ≤ receipt.expiresAt) .receiptExpired
  let (business, card) ← openCard accs bump business card
  let card ← stampCard now card
  let totalStampsIssued ← addU64 business.totalStampsIssued 1
  pure ({ business with totalStampsIssued := totalStampsIssued }, card)

def claimReceipt (accs : ClaimReceipt) (secret : Bytes32) (s : State) : Except Failure State := do
  let business ← load Business.account s accs.business
  let receipt ← load Receipt.account s accs.receipt
  signer tx accs.customer
  signer tx accs.relayer
  systemAccount s accs.rentPayer
  let bump ← seedsConstraint P (.card accs.business accs.customer) accs.card
  let (s, card) ← createIfNeeded P tx LoyaltyCard.account s accs.relayer accs.card
  closeConstraint accs.receipt receipt.rentPayer accs.rentPayer
  let (business, card) ← claimReceiptHandler P tx.now accs bump secret business receipt card
  let s ← store Business.account s accs.business business
  let s := close s accs.receipt accs.rentPayer
  store LoyaltyCard.account s accs.card card

/-! ## reclaim_expired_receipt -/

structure ReclaimExpiredReceipt where
  receipt : Address
  rentPayer : Address

def reclaimExpiredReceipt (accs : ReclaimExpiredReceipt) (s : State) : Except Failure State := do
  let receipt ← load Receipt.account s accs.receipt
  systemAccount s accs.rentPayer
  closeConstraint accs.receipt receipt.rentPayer accs.rentPayer
  require (receipt.expiresAt ≤ tx.now) .receiptNotYetExpired
  pure (close s accs.receipt accs.rentPayer)

/-! ## transfer_stamps -/

structure TransferStamps where
  business : Address
  fromCard : Address
  toCard : Address
  customer : Address
  relayer : Address

def transferStampsHandler (amount : UInt8) (sender receiver : LoyaltyCard) :
    Except Failure (LoyaltyCard × LoyaltyCard) := do
  require (0 < amount) .invalidStampAmount
  require (amount ≤ sender.stamps) .notEnoughStamps
  -- `checked_add`: a receiver near the top of a byte cannot take any more.
  require (receiver.stamps.toNat + amount.toNat < 2 ^ 8) .tooManyStamps
  let moved := UInt32.ofNat amount.toNat
  let senderStamps ← subU8 sender.stamps amount
  require (moved ≤ sender.lifetimeStamps) .notEnoughStamps
  require (receiver.lifetimeStamps.toNat + moved.toNat < 2 ^ 32) .tooManyStamps
  pure ({ sender with stamps := senderStamps, lifetimeStamps := sender.lifetimeStamps - moved },
    { receiver with
      stamps := receiver.stamps + amount
      lifetimeStamps := receiver.lifetimeStamps + moved })

def transferStamps (accs : TransferStamps) (amount : UInt8) (s : State) : Except Failure State := do
  let _business ← load Business.account s accs.business
  let sender ← load LoyaltyCard.account s accs.fromCard
  let receiver ← load LoyaltyCard.account s accs.toCard
  signer tx accs.customer
  signer tx accs.relayer
  check (accs.fromCard ≠ accs.toCard) (.anchor .constraintDuplicateMutableAccount)
  hasOne sender.business accs.business
  hasOne sender.customer accs.customer
  hasOne receiver.business accs.business
  let (sender, receiver) ← transferStampsHandler amount sender receiver
  let s ← store LoyaltyCard.account s accs.fromCard sender
  store LoyaltyCard.account s accs.toCard receiver

/-! ## close_dead_card -/

structure CloseDeadCard where
  card : Address
  business : Address
  cardMint : Address
  rentPayer : Address

def closeDeadCard (accs : CloseDeadCard) (s : State) : Except Failure State := do
  let card ← load LoyaltyCard.account s accs.card
  let business ← load Business.account s accs.business
  systemAccount s accs.rentPayer
  seedsConstraintWith P (.card card.business card.customer) card.bump accs.card
  closeConstraint accs.card card.rentPayer accs.rentPayer
  check (accs.business = card.business) (.anchor .constraintAddress)
  let _bump ← seedsConstraint P (.cardMint accs.card card.nftCycle) accs.cardMint
  require (card.stamps = 0) .cardNotEmpty
  let since ← subI64 tx.now card.lastStampTs
  require (cardDeadSeconds ≤ since) .cardNotDead
  -- Any data at the mint's address means the card still has an NFT.
  require (¬s.TokenOwned accs.cardMint) .cardNftStillAlive
  let s ← store Business.account s accs.business { business with openCards := satSubU32 business.openCards 1 }
  pure (close s accs.card accs.rentPayer)

end Passdari
