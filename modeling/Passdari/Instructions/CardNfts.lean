/-
The card NFT: `mint_card_nft`, the burning and closing that cashing in and
the idle sweep share, and `retire_idle_card_nft`.
-/
import Passdari.Instructions.Shop

namespace Passdari

open Wire Token2022

variable (P : Platform) (tx : Tx)

/-! ## mint_card_nft -/

structure MintCardNft where
  business : Address
  card : Address
  mint : Address
  customerToken : Address
  customer : Address
  relayer : Address

/-- The card's mint before it has metadata: the card is its mint authority, permanent delegate and close
authority; it has no freeze authority and cannot be moved. -/
def cardMint (card : Address) : Mint Address where
  mintAuthority := some card
  supply := 0
  decimals := 0
  freezeAuthority := none
  closeAuthority := some card
  permanentDelegate := some card
  nonTransferable := true
  metadata := none

def mintCardNftHandler (accs : MintCardNft) (uri : Text) (business : Business) (card : LoyaltyCard)
    (s : State) :
    Except Failure State := do
  require (uri.len ≤ maxVoucherUriLen) .uriTooLong
  let name := business.name.val
  let metadata : Metadata Address :=
    { updateAuthority := accs.card, name := name, symbol := cardSymbol, uri := uri.val }
  let signers ← withSigner P tx (.card card.business card.customer) card.bump
  let rentNeeded := P.minimumBalance (cardMintLen + metadataLen name cardSymbol uri.val)
  let s ← createAddress tx s .deposit accs.relayer accs.mint rentNeeded
  let s ← invoke tx.signers s (.initializeMint accs.mint (cardMint accs.card))
  let s ← invoke signers s (.initializeMetadata accs.mint accs.card metadata)
  let s ← createAssociatedToken P tx s accs.relayer accs.customerToken accs.customer accs.mint
  let s ← invoke signers s (.mintTo accs.mint accs.customerToken accs.card 1 0)
  -- The customer hands the card the right to close their token account.
  let s ← invoke tx.signers s (.setCloseAuthority accs.customerToken (some accs.card) accs.customer)
  -- Give up the right to mint, so only one of these tokens can ever exist.
  invoke signers s (.setMintAuthority accs.mint .mintTokens none accs.card)

def mintCardNft (accs : MintCardNft) (uri : Text) (s : State) : Except Failure State := do
  let business ← load Business.account s accs.business
  let card ← load LoyaltyCard.account s accs.card
  signer tx accs.customer
  signer tx accs.relayer
  seedsConstraintWith P (.card accs.business accs.customer) card.bump accs.card
  hasOne card.business accs.business
  hasOne card.customer accs.customer
  let _bump ← seedsConstraint P (.cardMint accs.card card.nftCycle) accs.mint
  mintCardNftHandler P tx accs uri business card s

/-! ## burn_and_close_card_nft -/

/-- Burns a card NFT and closes its accounts, sending their rent to `destination`. `signers` are the
transaction's and the card's own; `customer` is given when the customer signed. -/
def burnAndCloseCardNft (signers : List Address) (card cardMint cardToken : Address)
    (customer : Option Address)
    (destination : Address) (s : State) : Except Failure State := do
  let s ←
    if s.TokenOwned cardToken then do
      let state ← loadToken s cardToken
      let s ←
        if 0 < state.amount then invoke signers s (.burn cardToken cardMint card state.amount 0) else pure s
      if state.closeAuthority = some card then
        invokeClose signers s cardToken destination card
      else
        match state.closeAuthority, customer with
        | none, some customer => invokeClose tx.signers s cardToken destination customer
        | _, _ => pure s
    else pure s
  invokeClose signers s cardMint destination card

/-! ## retire_idle_card_nft -/

structure RetireIdleCardNft where
  card : Address
  customer : Address
  cardMint : Address
  cardToken : Address
  rentPayer : Address

def retireIdleCardNft (accs : RetireIdleCardNft) (s : State) : Except Failure State := do
  let card ← load LoyaltyCard.account s accs.card
  systemAccount s accs.rentPayer
  hasOne card.customer accs.customer
  hasOne card.rentPayer accs.rentPayer
  let _bump ← seedsConstraint P (.cardMint accs.card card.nftCycle) accs.cardMint
  check (accs.cardToken = .ata accs.customer accs.cardMint) (.anchor .constraintAddress)
  let since ← subI64 tx.now card.lastStampTs
  require (cardNftIdleSeconds ≤ since) .cardNftNotIdle
  let signers ← withSigner P tx (.card card.business card.customer) card.bump
  let s ← burnAndCloseCardNft tx signers accs.card accs.cardMint accs.cardToken none accs.rentPayer s
  -- The next stamp brings a fresh NFT at a new address, as after cashing in.
  let nftCycle ← addU32 card.nftCycle 1
  store LoyaltyCard.account s accs.card { card with nftCycle := nftCycle }

end Passdari
