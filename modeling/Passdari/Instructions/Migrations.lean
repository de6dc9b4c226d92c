/-
`migrate_card` and `migrate_business`, which bring accounts of an older
layout up to the current one. Both take the account unchecked and work on
its bytes.
-/
import Passdari.Instructions.Stamps

namespace Passdari

open Wire

variable (P : Platform) (tx : Tx)

/-! ## migrate_card -/

/-- The length of a card before `rent_payer`. -/
def cardLenV1 : Nat := 103

/-- The length of a card before `rewards_earned`. -/
def cardLenV2 : Nat := 135

def stampsAt : Nat := 72
def lifetimeStampsAt : Nat := 93
def snapshotAt : Nat := 101
def businessAt : Nat := 8
def customerAt : Nat := 40
def nftCycleAt : Nat := 97
def bumpAt : Nat := 102

/-- The value a codec reads at an offset. -/
def readAt {α : Type} (c : Codec Byte α) (data : List Byte) (offset : Nat) : Option α :=
  (c.dec (data.drop offset)).map Prod.fst

def pubkeyAt : List Byte → Nat → Option Address := readAt address

/-- `copy_from_slice`, from `offset` on. -/
def overwrite (data : List Byte) (offset : Nat) (bytes : List Byte) : List Byte :=
  data.take offset ++ bytes ++ data.drop (offset + bytes.length)

/-- `resize` to a greater length, which zeroes what it adds. -/
def resize (data : List Byte) (newLen : Nat) : List Byte :=
  data ++ List.replicate (newLen - data.length) (.lit 0)

structure MigrateCard where
  card : Address
  record : Address
  cardMint : Address
  rentPayer : Address
  relayer : Address

/-- What is checked of an old card's bytes: the card its own contents claim to be is at this address, and
the record passed is that of its current NFT. -/
def checkOldCard (accs : MigrateCard) (data : List Byte) : Except Failure Unit := do
  require (cardLenV1 ≤ data.length) .notACard
  require (data.take 8 = LoyaltyCard.discriminator) .notACard
  require (data.length < LoyaltyCard.space) .cardAlreadyMigrated
  let business ← demand (pubkeyAt data businessAt) (.code .notACard)
  let customer ← demand (pubkeyAt data customerAt) (.code .notACard)
  let bump ← demand (readAt u8 data bumpAt) (.code .notACard)
  let expected ← demand (createProgramAddress P (.card business customer) bump) (.code .notACard)
  require (expected = accs.card) .notACard
  let cycle ← demand (readAt u32 data nftCycleAt) (.code .notACard)
  let mint ← demand (findProgramAddress P (.cardMint accs.card cycle)) (.system .invalidSeeds)
  require (accs.cardMint = mint.1) .notACard
  let record ← demand (findProgramAddress P (.cardNft mint.1)) (.system .invalidSeeds)
  require (accs.record = record.1) .notACard

/-- The rewards a card has finished, worked out the old way. -/
def oldRewardsEarned (lifetime : UInt32) (stamps snapshot : UInt8) : UInt32 :=
  if 0 < snapshot then satSubU32 lifetime (UInt32.ofNat stamps.toNat) / UInt32.ofNat snapshot.toNat else 0

/-- The wallet the card's rent goes back to, as far as the chain remembers: the one the old record names,
which is closed here, or the relayer. -/
def recordedPayer (accs : MigrateCard) (s : State) : Except Failure (State × Address) :=
  if (s.program.lookup accs.record).any (· ≠ []) then do
    let recorded ← load CardNft.account s accs.record
    require (accs.rentPayer = recorded.rentPayer) .wrongRentPayer
    pure (close s accs.record accs.rentPayer, recorded.rentPayer)
  else pure (s, accs.relayer)

/-- The grown card's last fields: the payer where the card had none of its own, and the rewards. -/
def fillCard (oldLen : Nat) (payer : Address) (rewardsEarned : UInt32) (data : List Byte) : List Byte :=
  let data := if oldLen < cardLenV2 then overwrite data cardLenV1 payer.toBytes else data
  overwrite data cardLenV2 (u32.enc rewardsEarned)

def migrateCard (accs : MigrateCard) (s : State) : Except Failure State := do
  systemAccount s accs.rentPayer
  signer tx accs.relayer
  let old ← demand (s.program.lookup accs.card) (.code .notACard)
  checkOldCard P accs old
  let extra := P.minimumBalance LoyaltyCard.space - s.lamports accs.card
  let s ← transferLamports tx s .deposit accs.relayer accs.card extra
  let data := resize old LoyaltyCard.space
  let s := { s with program := s.program.insert accs.card data }
  let stamps ← demand (readAt u8 data stampsAt) (.code .notACard)
  let lifetime ← demand (readAt u32 data lifetimeStampsAt) (.code .notACard)
  let snapshot ← demand (readAt u8 data snapshotAt) (.code .notACard)
  let rewardsEarned := oldRewardsEarned lifetime stamps snapshot
  let (s, payer) ← recordedPayer accs s
  pure { s with program := s.program.insert accs.card (fillCard old.length payer rewardsEarned data) }

/-! ## migrate_business -/

structure MigrateBusiness where
  business : Address
  relayer : Address

/-- The current shape of an old shop: no promise that outlasts now, and counts that can only overstate
what is outstanding. -/
def upgradeBusiness (now : Int64) (relayer : Address) (old : BusinessV1) : Business where
  toBusinessV1 := old
  termsLockedUntil := now
  openCards := old.totalCards
  rentPayer := relayer
  openVouchers := UInt32.ofNat
    (min (satSubU64 old.totalVouchersIssued (UInt64.ofNat old.totalRedemptions.toNat)).toNat (2 ^ 32 - 1))

def migrateBusiness (accs : MigrateBusiness) (s : State) : Except Failure State := do
  signer tx accs.relayer
  let data ← demand (s.program.lookup accs.business) (.code .notABusiness)
  require (8 ≤ data.length) .notABusiness
  require (data.take 8 = Business.discriminator) .notABusiness
  require (data.length < Business.space) .businessAlreadyMigrated
  let old ← demand (readAt BusinessV1.layout data 8) (.code .notABusiness)
  let expected ← demand (createProgramAddress P (.business old.authority) old.bump) (.code .notABusiness)
  require (expected = accs.business) .notABusiness
  let extra := P.minimumBalance Business.space - s.lamports accs.business
  let s ← transferLamports tx s .deposit accs.relayer accs.business extra
  let data := resize data Business.space
  let updated := upgradeBusiness tx.now accs.relayer old
  let front := Business.discriminator ++ Business.layout.enc updated
  require (front.length ≤ data.length) .notABusiness
  pure { s with program := s.program.insert accs.business (overwrite data 0 front) }

end Passdari
