/-
Vouchers: `mint_voucher`, `present_voucher`, `cancel_presentation`,
`transfer_voucher`, `redeem_voucher` and `close_expired_voucher`.
-/
import Passdari.Instructions.CardNfts

namespace Passdari

open Wire Token2022

variable (P : Platform) (tx : Tx)

/-! ## mint_voucher -/

structure MintVoucher where
  business : Address
  card : Address
  voucher : Address
  mint : Address
  customerToken : Address
  cardMint : Address
  cardToken : Address
  cardRentPayer : Address
  customer : Address
  relayer : Address

/-- The voucher's mint as `init` leaves it: the voucher is its mint authority, freeze authority, permanent
delegate and close authority. -/
def voucherMint (voucher : Address) : Mint Address where
  mintAuthority := some voucher
  supply := 0
  decimals := 0
  freezeAuthority := some voucher
  closeAuthority := some voucher
  permanentDelegate := some voucher
  nonTransferable := false
  metadata := none

/-- The threshold check and what cashing in does to the card. -/
def cashIn (business : Business) (card : LoyaltyCard) : Except Failure LoyaltyCard := do
  require (card.stampsRequiredSnapshot ≤ card.stamps) .notEnoughStamps
  let stamps ← subU8 card.stamps card.stampsRequiredSnapshot
  -- The next round uses whatever the shop asks for today.
  pure { card with
    stamps := stamps
    rewardsEarned := satAddU32 card.rewardsEarned 1
    stampsRequiredSnapshot := business.stampsRequired }

def mintVoucherHandler (now : Int64) (accs : MintVoucher) (bump : UInt8) (voucherId : UInt64) (uri : Text)
    (business : Business) (card : LoyaltyCard) : Except Failure (Business × LoyaltyCard × Voucher) := do
  require (uri.len ≤ maxVoucherUriLen) .uriTooLong
  require (voucherId = business.totalVouchersIssued) .invalidVoucherId
  let card ← cashIn business card
  let expiresAt ← addI64 now voucherValidSeconds
  let totalVouchersIssued ← addU64 business.totalVouchersIssued 1
  let openVouchers ← addU32 business.openVouchers 1
  pure ({ business with totalVouchersIssued := totalVouchersIssued, openVouchers := openVouchers }, card,
    { business := accs.business, owner := accs.customer, mint := accs.mint, voucherId := voucherId,
      mintedAt := now, bump := bump, rentPayer := accs.relayer, expiresAt := expiresAt })

/-- `format!("{} - {}", business.name, business.reward_label)`. -/
def voucherName (business : BusinessV1) : String := business.name.val ++ " - " ++ business.rewardLabel.val

/-- The token side of minting: the rent its metadata needs, the metadata, one token, the customer's grant
of the right to close their account, and the end of minting. -/
def mintVoucherTokens (accs : MintVoucher) (uri : Text) (business : Business) (signers : List Address)
    (s : State) : Except Failure State := do
  let name := voucherName business.toBusinessV1
  let metadata : Metadata Address :=
    { updateAuthority := accs.voucher, name := name, symbol := voucherSymbol, uri := uri.val }
  let rentNeeded := P.minimumBalance (voucherMintLen + metadataLen name voucherSymbol uri.val)
  let s ← transferLamports tx s .deposit accs.relayer accs.mint (rentNeeded - s.lamports accs.mint)
  let s ← invoke signers s (.initializeMetadata accs.mint accs.voucher metadata)
  let s ← invoke signers s (.mintTo accs.mint accs.customerToken accs.voucher 1 0)
  let s ← invoke tx.signers s (.setCloseAuthority accs.customerToken (some accs.voucher) accs.customer)
  invoke signers s (.setMintAuthority accs.mint .mintTokens none accs.voucher)

/-- Burns the customer's card NFT, when the card has one, sending its rent to whoever the card says paid.
Whether there was one. -/
def retireCardNft (accs : MintVoucher) (card : LoyaltyCard) (s : State) : Except Failure (State × Bool) :=
  if s.TokenOwned accs.cardMint then do
    let destination ←
      if card.rentPayer = .default then pure accs.relayer
      else do
        require (accs.cardRentPayer = card.rentPayer) .wrongRentPayer
        pure accs.cardRentPayer
    let signers ← withSigner P tx (.card card.business card.customer) card.bump
    let s ← burnAndCloseCardNft tx signers accs.card accs.cardMint accs.cardToken (some accs.customer)
      destination s
    pure (s, true)
  else pure (s, false)

def mintVoucher (accs : MintVoucher) (voucherId : UInt64) (uri : Text) (s : State) : Except Failure State :=
    do
  let business ← load Business.account s accs.business
  let card ← load LoyaltyCard.account s accs.card
  signer tx accs.customer
  signer tx accs.relayer
  -- The three accounts `init` makes.
  let voucherBump ← seedsConstraint P (.voucher accs.business voucherId) accs.voucher
  let s ← create P tx Voucher.account s accs.relayer accs.voucher
  let _mintBump ← seedsConstraint P (.voucherMint accs.business voucherId) accs.mint
  let s ← createAddress tx s .deposit accs.relayer accs.mint (P.minimumBalance voucherMintLen)
  let s ← invoke tx.signers s (.initializeMint accs.mint (voucherMint accs.voucher))
  let s ← createAssociatedToken P tx s accs.relayer accs.customerToken accs.customer accs.mint
  -- The other accounts.
  seedsConstraintWith P (.card accs.business accs.customer) card.bump accs.card
  let _cardMintBump ← seedsConstraint P (.cardMint accs.card card.nftCycle) accs.cardMint
  check (accs.cardToken = .ata accs.customer accs.cardMint) (.anchor .constraintAddress)
  let (business, card, voucher) ← mintVoucherHandler tx.now accs voucherBump voucherId uri business card
  let signers ← withSigner P tx (.voucher accs.business voucherId) voucher.bump
  let s ← mintVoucherTokens P tx accs uri business signers s
  let (s, retired) ← retireCardNft P tx accs card s
  let nftCycle ← if retired then addU32 card.nftCycle 1 else pure card.nftCycle
  let s ← store Business.account s accs.business business
  let s ← store LoyaltyCard.account s accs.card { card with nftCycle := nftCycle }
  store Voucher.account s accs.voucher voucher

/-! ## present_voucher, cancel_presentation -/

structure PresentVoucher where
  voucher : Address
  mint : Address
  holderToken : Address
  owner : Address

/-- The constraints on the account said to hold a voucher: it holds one token of the mint, and is frozen
or not as the instruction needs. -/
def holderConstraints (holder : Account Address) (mint : Address) (frozen : Bool) (e : ErrorCode) :
    Except Failure Unit := do
  require (holder.amount = 1) .notVoucherHolder
  require (holder.frozen = frozen) e
  check (holder.mint = mint) (.anchor .constraintTokenMint)

def ownerConstraint (holder : Account Address) (owner : Address) : Except Failure Unit :=
  check (holder.owner = owner) (.anchor .constraintTokenOwner)

/-- The voucher's own signature, from the seeds its record gives. -/
def voucherSigner (voucher : Voucher) : Except Failure (List Address) :=
  withSigner P tx (.voucher voucher.business voucher.voucherId) voucher.bump

def presentVoucher (accs : PresentVoucher) (s : State) : Except Failure State := do
  let voucher ← load Voucher.account s accs.voucher
  let _mint ← loadMint s accs.mint
  let holder ← loadToken s accs.holderToken
  signer tx accs.owner
  hasOne voucher.mint accs.mint
  holderConstraints holder accs.mint false .voucherPending
  ownerConstraint holder accs.owner
  require (tx.now ≤ voucher.expiresAt) .voucherExpired
  let signers ← voucherSigner P tx voucher
  -- The right to close the account is handed over before freezing: a frozen account's authorities
  -- cannot be changed. An account that names another is left alone.
  let s ←
    if holder.closeAuthority = none then
      invoke tx.signers s (.setCloseAuthority accs.holderToken (some accs.voucher) accs.owner)
    else pure s
  invoke signers s (.freeze accs.holderToken accs.mint accs.voucher)

structure CancelPresentation where
  voucher : Address
  mint : Address
  holderToken : Address
  owner : Address

def cancelPresentation (accs : CancelPresentation) (s : State) : Except Failure State := do
  let voucher ← load Voucher.account s accs.voucher
  let _mint ← loadMint s accs.mint
  let holder ← loadToken s accs.holderToken
  signer tx accs.owner
  hasOne voucher.mint accs.mint
  holderConstraints holder accs.mint true .voucherNotPresented
  ownerConstraint holder accs.owner
  let signers ← voucherSigner P tx voucher
  invoke signers s (.thaw accs.holderToken accs.mint accs.voucher)

/-! ## transfer_voucher -/

structure TransferVoucher where
  voucher : Address
  mint : Address
  fromToken : Address
  toToken : Address
  newOwner : Address
  owner : Address
  relayer : Address
  rentPayer : Address

/-- `init_if_needed` on the receiving associated token account. -/
def receivingToken (accs : TransferVoucher) (s : State) : Except Failure State :=
  if s.InUse accs.toToken then do
    let x ← loadToken s accs.toToken
    check (x.mint = accs.mint) (.anchor .constraintTokenMint)
    check (x.owner = accs.newOwner) (.anchor .constraintTokenOwner)
    check (accs.toToken = .ata accs.newOwner accs.mint) (.anchor .constraintAssociated)
    pure s
  else createAssociatedToken P tx s accs.relayer accs.toToken accs.newOwner accs.mint

def transferVoucher (accs : TransferVoucher) (s : State) : Except Failure State := do
  let voucher ← load Voucher.account s accs.voucher
  let mint ← loadMint s accs.mint
  let sender ← loadToken s accs.fromToken
  signer tx accs.owner
  signer tx accs.relayer
  systemAccount s accs.rentPayer
  let s ← receivingToken P tx accs s
  hasOne voucher.mint accs.mint
  hasOne voucher.rentPayer accs.rentPayer
  holderConstraints sender accs.mint false .voucherPending
  ownerConstraint sender accs.owner
  require (tx.now ≤ voucher.expiresAt) .voucherExpired
  let s ← invoke tx.signers s (.transfer accs.fromToken accs.mint accs.toToken accs.owner 1 mint.decimals)
  let signers ← voucherSigner P tx voucher
  -- The sender's account is empty now. Normally the sender can close it; once the voucher has been
  -- presented, that right belongs to the voucher.
  let s ←
    if sender.closeAuthority = none then
      invokeClose tx.signers s accs.fromToken accs.rentPayer accs.owner
    else if sender.closeAuthority = some accs.voucher then
      invokeClose signers s accs.fromToken accs.rentPayer accs.voucher
    else pure s
  store Voucher.account s accs.voucher { voucher with owner := accs.newOwner }

/-! ## redeem_voucher -/

structure RedeemVoucher where
  business : Address
  voucher : Address
  mint : Address
  holderToken : Address
  authority : Address
  relayer : Address
  rentPayer : Address

/-- Closes the mint, when it names the voucher as its close authority. -/
def closeVoucherMint (signers : List Address) (voucher mint rentPayer : Address)
    (m : Mint Address) (s : State) : Except Failure State :=
  if m.closeAuthority = some voucher then invokeClose signers s mint rentPayer voucher else pure s

def redeemVoucher (accs : RedeemVoucher) (s : State) : Except Failure State := do
  let business ← ownBusiness P s accs.business accs.authority
  let voucher ← load Voucher.account s accs.voucher
  let mint ← loadMint s accs.mint
  let holder ← loadToken s accs.holderToken
  signer tx accs.authority
  signer tx accs.relayer
  systemAccount s accs.rentPayer
  hasOne voucher.business accs.business
  hasOne voucher.mint accs.mint
  closeConstraint accs.voucher voucher.rentPayer accs.rentPayer
  holderConstraints holder accs.mint true .voucherNotPresented
  require (tx.now ≤ voucher.expiresAt) .voucherExpired
  let signers ← voucherSigner P tx voucher
  -- A frozen account cannot be burned from, so thaw it first; the burn is the permanent delegate's.
  let s ← invoke signers s (.thaw accs.holderToken accs.mint accs.voucher)
  let s ← invoke signers s (.burn accs.holderToken accs.mint accs.voucher 1 mint.decimals)
  let s ←
    if holder.closeAuthority = some accs.voucher then
      invokeClose signers s accs.holderToken accs.rentPayer accs.voucher
    else pure s
  let m ← loadMint s accs.mint
  let s ← closeVoucherMint signers accs.voucher accs.mint accs.rentPayer m s
  let totalRedemptions ← addU32 business.totalRedemptions 1
  let s ← store Business.account s accs.business
    { business with
      totalRedemptions := totalRedemptions
      openVouchers := satSubU32 business.openVouchers 1 }
  pure (close s accs.voucher accs.rentPayer)

/-! ## close_expired_voucher -/

structure CloseExpiredVoucher where
  voucher : Address
  business : Address
  mint : Address
  holderToken : Address
  rentPayer : Address

/-- What becomes of the token account passed in, when there is one: its tokens burned, thawed first when
they were left presented, and itself closed when the voucher may. -/
def burnExpired (accs : CloseExpiredVoucher) (signers : List Address) (decimals : Nat) (s : State) :
    Except Failure State :=
  if s.TokenOwned accs.holderToken then do
    let holder ← loadToken s accs.holderToken
    require (holder.mint = accs.mint) .notVoucherHolder
    let s ←
      if 0 < holder.amount then do
        let s ←
          if holder.frozen = true then invoke signers s (.thaw accs.holderToken accs.mint accs.voucher)
          else pure s
        invoke signers s (.burn accs.holderToken accs.mint accs.voucher holder.amount decimals)
      else pure s
    if holder.closeAuthority = some accs.voucher then
      invokeClose signers s accs.holderToken accs.rentPayer accs.voucher
    else pure s
  else pure s

def closeExpiredVoucher (accs : CloseExpiredVoucher) (s : State) : Except Failure State := do
  let voucher ← load Voucher.account s accs.voucher
  let business ← load Business.account s accs.business
  let mint ← loadMint s accs.mint
  systemAccount s accs.rentPayer
  hasOne voucher.mint accs.mint
  closeConstraint accs.voucher voucher.rentPayer accs.rentPayer
  check (accs.business = voucher.business) (.anchor .constraintAddress)
  require (voucher.expiresAt < tx.now) .voucherNotExpired
  let signers ← voucherSigner P tx voucher
  let s ← burnExpired accs signers mint.decimals s
  let m ← loadMint s accs.mint
  -- Nothing may be closed while the token still exists somewhere.
  require (m.supply = 0) .notVoucherHolder
  let s ← closeVoucherMint signers accs.voucher accs.mint accs.rentPayer m s
  let s ← store Business.account s accs.business
    { business with openVouchers := satSubU32 business.openVouchers 1 }
  pure (close s accs.voucher accs.rentPayer)

end Passdari
