/-
What each call does, without bytes: the rules of the program over typed
records. A rule says what the call requires of the state before it, which
records it changes and how, which calls it makes into the token program and
which payments. Invariants are proved over the rules.
-/
import Passdari.Effect.Views
import Passdari.Machine

namespace Passdari

open Wire Token2022

/-- A program account whose record changed: opened, rewritten or closed. -/
structure Change where
  addr : Address
  before : Option Record
  after : Option Record

/-- From `s` to `s'` exactly these records change, and no other account of the program. -/
structure Changed (cs : List Change) (s s' : State) : Prop where
  nodup : (cs.map Change.addr).Nodup
  before : ∀ c ∈ cs, s.record? c.addr = c.before
  closed : ∀ c ∈ cs, c.after = none → s'.program.lookup c.addr = none
  written : ∀ c ∈ cs, ∀ r, c.after = some r → ∃ rest, s'.program.lookup c.addr = some (r.bytes ++ rest) ∧
    ((r.bytes ++ rest).length = r.space ∨
      ∃ old, s.program.lookup c.addr = some old ∧ (r.bytes ++ rest).length = old.length)
  frame : ∀ a, a ∉ cs.map Change.addr → s'.program.lookup a = s.program.lookup a

/-! ## Calls into the token program -/

section Calls

variable (tx : Tx)

/-- With the transaction's own signatures. -/
def ownCtx : Ctx Address := ⟨tx.signers, true⟩

/-- With the signature of a derived address of the program as well. -/
def pdaCtx (pda : Address) : Ctx Address := ⟨pda :: tx.signers, true⟩

def mintCardNftCalls (accs : MintCardNft) (name : String) (uri : Text) : List TokenCall :=
  [⟨ownCtx tx, .initializeMint accs.mint (cardMint accs.card)⟩,
    ⟨pdaCtx tx accs.card, .initializeMetadata accs.mint accs.card
      { updateAuthority := accs.card, name := name, symbol := cardSymbol, uri := uri.val }⟩,
    ⟨ownCtx tx, .initializeAccount accs.customerToken accs.mint accs.customer true⟩,
    ⟨pdaCtx tx accs.card, .mintTo accs.mint accs.customerToken accs.card 1 0⟩,
    ⟨ownCtx tx, .setCloseAuthority accs.customerToken (some accs.card) accs.customer⟩,
    ⟨pdaCtx tx accs.card, .setMintAuthority accs.mint .mintTokens none accs.card⟩]

/-- As whom the token account of a card NFT is closed, if it is. -/
def cardTokenCloser (card : Address) (customer : Option Address) (x : Account Address) :
    Option (Ctx Address × Address) :=
  if x.closeAuthority = some card then some (pdaCtx tx card, card)
  else
    match x.closeAuthority, customer with
    | none, some customer => some (ownCtx tx, customer)
    | _, _ => none

/-- `x` is the token account passed, if it exists. -/
def burnCardNftCalls (card cardMint cardToken : Address) (customer : Option Address) (destination : Address)
    (x : Option (Account Address)) : List TokenCall :=
  (x.elim [] fun x =>
    (if 0 < x.amount then [⟨pdaCtx tx card, .burn cardToken cardMint card x.amount 0⟩] else []) ++
      ((cardTokenCloser tx card customer x).elim [] fun who => [⟨who.1, .close cardToken destination who.2⟩]))
      ++
    [⟨pdaCtx tx card, .close cardMint destination card⟩]

def burnCardNftPayments (card cardMint cardToken : Address) (customer : Option Address)
    (destination : Address)
    (x : Option (Account Address)) : List Payment :=
  (x.elim [] fun x =>
    (cardTokenCloser tx card customer x).elim [] fun _ => [.empty .refund cardToken destination]) ++
    [.empty .refund cardMint destination]

def mintVoucherCalls (accs : MintVoucher) (name : String) (uri : Text) : List TokenCall :=
  [⟨ownCtx tx, .initializeMint accs.mint (voucherMint accs.voucher)⟩,
    ⟨ownCtx tx, .initializeAccount accs.customerToken accs.mint accs.customer true⟩,
    ⟨pdaCtx tx accs.voucher, .initializeMetadata accs.mint accs.voucher
      { updateAuthority := accs.voucher, name := name, symbol := voucherSymbol, uri := uri.val }⟩,
    ⟨pdaCtx tx accs.voucher, .mintTo accs.mint accs.customerToken accs.voucher 1 0⟩,
    ⟨ownCtx tx, .setCloseAuthority accs.customerToken (some accs.voucher) accs.customer⟩,
    ⟨pdaCtx tx accs.voucher, .setMintAuthority accs.mint .mintTokens none accs.voucher⟩]

def presentVoucherCalls (accs : PresentVoucher) (x : Account Address) : List TokenCall :=
  (if x.closeAuthority = none then
    [⟨ownCtx tx, .setCloseAuthority accs.holderToken (some accs.voucher) accs.owner⟩] else []) ++
    [⟨pdaCtx tx accs.voucher, .freeze accs.holderToken accs.mint accs.voucher⟩]

/-- As whom the sender's emptied account is closed, if it is. -/
def fromTokenCloser (accs : TransferVoucher) (x : Account Address) : Option (Ctx Address × Address) :=
  if x.closeAuthority = none then some (ownCtx tx, accs.owner)
  else if x.closeAuthority = some accs.voucher then some (pdaCtx tx accs.voucher, accs.voucher) else none

/-- `opens` says whether the receiving account is new. -/
def transferVoucherCalls (accs : TransferVoucher) (opens : Bool) (decimals : Nat) (x : Account Address) :
    List TokenCall :=
  (if opens = true then [⟨ownCtx tx, .initializeAccount accs.toToken accs.mint accs.newOwner true⟩] else
    []) ++
    ⟨ownCtx tx, .transfer accs.fromToken accs.mint accs.toToken accs.owner 1 decimals⟩ ::
    ((fromTokenCloser tx accs x).elim [] fun who => [⟨who.1, .close accs.fromToken accs.rentPayer who.2⟩])

/-- The thawing, burning and closing of the account that holds a presented voucher. -/
def redeemCalls (accs : RedeemVoucher) (decimals : Nat) (x : Account Address) : List TokenCall :=
  ⟨pdaCtx tx accs.voucher, .thaw accs.holderToken accs.mint accs.voucher⟩ ::
    ⟨pdaCtx tx accs.voucher, .burn accs.holderToken accs.mint accs.voucher 1 decimals⟩ ::
    (if x.closeAuthority = some accs.voucher then
      [⟨pdaCtx tx accs.voucher, .close accs.holderToken accs.rentPayer accs.voucher⟩] else [])

/-- What is done to the account passed to the clean-up of an expired voucher, if there is one. -/
def burnExpiredCalls (accs : CloseExpiredVoucher) (decimals : Nat) (x : Option (Account Address)) :
    List TokenCall :=
  x.elim [] fun x =>
    (if 0 < x.amount then
        (if x.frozen = true then [⟨pdaCtx tx accs.voucher, .thaw accs.holderToken accs.mint accs.voucher⟩]
          else []) ++
        [⟨pdaCtx tx accs.voucher, .burn accs.holderToken accs.mint accs.voucher x.amount decimals⟩]
      else []) ++
    (if x.closeAuthority = some accs.voucher then
      [⟨pdaCtx tx accs.voucher, .close accs.holderToken accs.rentPayer accs.voucher⟩] else [])

/-- The closing of a voucher's mint, when it names the voucher as its close authority. -/
def closeMintCalls (voucher mint rentPayer : Address) (m : Mint Address) : List TokenCall :=
  if m.closeAuthority = some voucher then [⟨pdaCtx tx voucher, .close mint rentPayer voucher⟩] else []

def closeMintPayments (voucher mint rentPayer : Address) (m : Mint Address) : List Payment :=
  if m.closeAuthority = some voucher then [.empty .refund mint rentPayer] else []

end Calls

/-- The new rent payer of a card that is brought up to date: its own if the old layout has one. -/
def MigratedPayer (old : List Byte) (payer rentPayer : Address) : Prop :=
  if old.length < cardLenV2 then rentPayer = payer else readAt address old cardLenV1 = some rentPayer

/-! ## The rules -/

section

variable (P : Platform) (tx : Tx) (s : State)

/-- **What a successful call requires and does.** -/
inductive Effect : Action → List Change → List TokenCall → List Payment → Prop
  | initializeCounter {accs bump} : accs.owner ∈ tx.signers →
      findProgramAddress P (.counter accs.owner) = some (accs.counter, bump) → ¬s.InUse accs.counter →
      Effect (.program (.initializeCounter accs))
        [⟨accs.counter, none, some (.counter ⟨accs.owner, 0, bump⟩)⟩] []
        [.topUp .deposit accs.owner accs.counter (P.minimumBalance Counter.space)]
  | registerBusiness {accs args bump b} : accs.authority ∈ tx.signers → accs.relayer ∈ tx.signers →
      findProgramAddress P (.business accs.authority) = some (accs.business, bump) → ¬s.InUse accs.business →
      registerBusinessHandler tx.now accs bump args Business.account.zeroed = .ok b →
      Effect (.program (.registerBusiness accs args)) [⟨accs.business, none, some (.business b)⟩] []
        [.topUp .deposit accs.relayer accs.business (P.minimumBalance Business.space)]
  | updateBusinessConfig {accs args b b'} : accs.authority ∈ tx.signers →
      s.record? accs.business = some (.business b) → b.authority = accs.authority →
      createProgramAddress P (.business accs.authority) b.bump = some accs.business →
      updateBusinessConfigHandler tx.now args b = .ok b' →
      Effect (.program (.updateBusinessConfig accs args))
        [⟨accs.business, some (.business b), some (.business b')⟩] [] []
  | closeBusiness {accs b} : s.record? accs.business = some (.business b) → ¬s.InUse accs.rentPayer →
      createProgramAddress P (.business b.authority) b.bump = some accs.business →
      b.rentPayer = accs.rentPayer →
      closeBusinessHandler tx.now b = .ok () →
      Effect (.program (.closeBusiness accs)) [⟨accs.business, some (.business b), none⟩] []
        [.empty .refund accs.business accs.rentPayer]
  | issueReceipt {accs secretHash band b b' r bump} : s.record? accs.business = some (.business b) →
      createProgramAddress P (.business accs.authority) b.bump = some accs.business →
      b.authority = accs.authority →
      accs.authority ∈ tx.signers → accs.relayer ∈ tx.signers →
      findProgramAddress P (.receipt accs.business secretHash) = some (accs.receipt, bump) →
      ¬s.InUse accs.receipt → issueReceiptHandler tx.now accs bump band b = .ok (b', r) →
      Effect (.program (.issueReceipt accs secretHash band))
        [⟨accs.business, some (.business b), some (.business b')⟩, ⟨accs.receipt, none, some (.receipt r)⟩] []
        [.topUp .deposit accs.relayer accs.receipt (P.minimumBalance Receipt.space)]
  /-- The card is a new one when there was none (`c = none`). -/
  | claimReceipt {accs secret b b' r bump c'} {c : Option LoyaltyCard} :
      s.record? accs.business = some (.business b) → s.record? accs.receipt = some (.receipt r) →
      accs.customer ∈ tx.signers → accs.relayer ∈ tx.signers → ¬s.InUse accs.rentPayer →
      findProgramAddress P (.card accs.business accs.customer) = some (accs.card, bump) →
      s.record? accs.card = c.map .card → (c = none → ¬s.InUse accs.card) →
      (∀ x, c = some x → x.business = accs.business ∧ x.customer = accs.customer) →
      r.rentPayer = accs.rentPayer →
      claimReceiptHandler P tx.now accs bump secret b r (c.getD LoyaltyCard.account.zeroed) = .ok (b', c') →
      Effect (.program (.claimReceipt accs secret))
        [⟨accs.business, some (.business b), some (.business b')⟩, ⟨accs.receipt, some (.receipt r), none⟩,
          ⟨accs.card, c.map .card, some (.card c')⟩] []
        ((if c = none then [.topUp .deposit accs.relayer accs.card (P.minimumBalance LoyaltyCard.space)]
            else []) ++
          [.empty .refund accs.receipt accs.rentPayer])
  | reclaimExpiredReceipt {accs r} : s.record? accs.receipt = some (.receipt r) → ¬s.InUse accs.rentPayer →
      r.rentPayer = accs.rentPayer → r.expiresAt ≤ tx.now →
      Effect (.program (.reclaimExpiredReceipt accs)) [⟨accs.receipt, some (.receipt r), none⟩] []
        [.empty .refund accs.receipt accs.rentPayer]
  | transferStamps {accs amount b c d c' d'} : s.record? accs.business = some (.business b) →
      s.record? accs.fromCard = some (.card c) → s.record? accs.toCard = some (.card d) →
      accs.customer ∈ tx.signers → accs.relayer ∈ tx.signers → accs.fromCard ≠ accs.toCard →
      c.business = accs.business → c.customer = accs.customer → d.business = accs.business →
      transferStampsHandler amount c d = .ok (c', d') →
      Effect (.program (.transferStamps accs amount))
        [⟨accs.fromCard, some (.card c), some (.card c')⟩, ⟨accs.toCard, some (.card d), some (.card d')⟩] []
        []
  | closeDeadCard {accs b c bump since} : s.record? accs.card = some (.card c) →
      s.record? accs.business = some (.business b) → ¬s.InUse accs.rentPayer →
      createProgramAddress P (.card c.business c.customer) c.bump = some accs.card →
      c.rentPayer = accs.rentPayer → accs.business = c.business →
      findProgramAddress P (.cardMint accs.card c.nftCycle) = some (accs.cardMint, bump) → c.stamps = 0 →
      subI64 tx.now c.lastStampTs = .ok since → cardDeadSeconds ≤ since → ¬s.TokenOwned accs.cardMint →
      Effect (.program (.closeDeadCard accs))
        [⟨accs.business, some (.business b),
            some (.business { b with openCards := satSubU32 b.openCards 1 })⟩,
          ⟨accs.card, some (.card c), none⟩] []
        [.empty .refund accs.card accs.rentPayer]
  | mintCardNft {accs uri b c bump} : s.record? accs.business = some (.business b) →
      s.record? accs.card = some (.card c) → accs.customer ∈ tx.signers → accs.relayer ∈ tx.signers →
      createProgramAddress P (.card accs.business accs.customer) c.bump = some accs.card →
      c.business = accs.business → c.customer = accs.customer →
      findProgramAddress P (.cardMint accs.card c.nftCycle) = some (accs.mint, bump) →
      uri.len ≤ maxVoucherUriLen → ¬s.InUse accs.mint → accs.customerToken = .ata accs.customer accs.mint →
      ¬s.InUse accs.customerToken →
      Effect (.program (.mintCardNft accs uri)) [] (mintCardNftCalls tx accs b.name.val uri)
        [.topUp .deposit accs.relayer accs.mint
            (P.minimumBalance (cardMintLen + metadataLen b.name.val cardSymbol uri.val)),
          .topUp .deposit accs.relayer accs.customerToken (P.minimumBalance (tokenAccountLen true))]
  | retireIdleCardNft {accs c bump since nftCycle} : s.record? accs.card = some (.card c) →
      ¬s.InUse accs.rentPayer → c.customer = accs.customer → c.rentPayer = accs.rentPayer →
      findProgramAddress P (.cardMint accs.card c.nftCycle) = some (accs.cardMint, bump) →
      accs.cardToken = .ata accs.customer accs.cardMint → subI64 tx.now c.lastStampTs = .ok since →
      cardNftIdleSeconds ≤ since →
      createProgramAddress P (.card c.business c.customer) c.bump = some accs.card →
      addU32 c.nftCycle 1 = .ok nftCycle →
      Effect (.program (.retireIdleCardNft accs))
        [⟨accs.card, some (.card c), some (.card { c with nftCycle := nftCycle })⟩]
        (burnCardNftCalls tx accs.card accs.cardMint accs.cardToken none accs.rentPayer
          (s.tokens.accounts.lookup accs.cardToken))
        (burnCardNftPayments tx accs.card accs.cardMint accs.cardToken none accs.rentPayer
          (s.tokens.accounts.lookup accs.cardToken))
  /-- With a card NFT to burn (`retired`) or without one. -/
  | mintVoucher {accs voucherId uri b c b' c' v bump mintBump cardMintBump nftCycle destination}
      {retired : Bool} :
      s.record? accs.business = some (.business b) → s.record? accs.card = some (.card c) →
      accs.customer ∈ tx.signers → accs.relayer ∈ tx.signers →
      findProgramAddress P (.voucher accs.business voucherId) = some (accs.voucher, bump) →
      ¬s.InUse accs.voucher →
      findProgramAddress P (.voucherMint accs.business voucherId) = some (accs.mint, mintBump) →
      ¬s.InUse accs.mint → accs.customerToken = .ata accs.customer accs.mint →
      ¬s.InUse accs.customerToken →
      createProgramAddress P (.card accs.business accs.customer) c.bump = some accs.card →
      c.business = accs.business → c.customer = accs.customer →
      findProgramAddress P (.cardMint accs.card c.nftCycle) = some (accs.cardMint, cardMintBump) →
      accs.cardToken = .ata accs.customer accs.cardMint →
      mintVoucherHandler tx.now accs bump voucherId uri b c = .ok (b', c', v) →
      (retired = true ↔ s.TokenOwned accs.cardMint) →
      (if retired = true then addU32 c.nftCycle 1 else .ok c.nftCycle) = .ok nftCycle →
      (if c.rentPayer = .default then destination = accs.relayer else destination = c.rentPayer) →
      Effect (.program (.mintVoucher accs voucherId uri))
        [⟨accs.business, some (.business b), some (.business b')⟩,
          ⟨accs.card, some (.card c), some (.card { c' with nftCycle := nftCycle })⟩,
          ⟨accs.voucher, none, some (.voucher v)⟩]
        (mintVoucherCalls tx accs (voucherName b.toBusinessV1) uri ++
          if retired = true then burnCardNftCalls tx accs.card accs.cardMint accs.cardToken
          (some accs.customer)
            destination (s.tokens.accounts.lookup accs.cardToken) else [])
        ([.topUp .deposit accs.relayer accs.voucher (P.minimumBalance Voucher.space),
            .topUp .deposit accs.relayer accs.mint (P.minimumBalance voucherMintLen),
            .topUp .deposit accs.relayer accs.customerToken (P.minimumBalance (tokenAccountLen false)),
            .topUp .deposit accs.relayer accs.mint (P.minimumBalance (voucherMintLen +
              metadataLen (voucherName b.toBusinessV1) voucherSymbol uri.val))] ++
          if retired = true then burnCardNftPayments tx accs.card accs.cardMint accs.cardToken
            (some accs.customer) destination (s.tokens.accounts.lookup accs.cardToken) else [])
  | presentVoucher {accs v x} : s.record? accs.voucher = some (.voucher v) → accs.owner ∈ tx.signers →
      v.mint = accs.mint → s.tokens.accounts.lookup accs.holderToken = some x → x.amount = 1 →
      x.frozen = false → x.mint = accs.mint → x.owner = accs.owner → tx.now ≤ v.expiresAt →
      createProgramAddress P (.voucher v.business v.voucherId) v.bump = some accs.voucher →
      Effect (.program (.presentVoucher accs)) [] (presentVoucherCalls tx accs x) []
  | cancelPresentation {accs v x} : s.record? accs.voucher = some (.voucher v) → accs.owner ∈ tx.signers →
      v.mint = accs.mint → s.tokens.accounts.lookup accs.holderToken = some x → x.amount = 1 →
      x.frozen = true → x.mint = accs.mint → x.owner = accs.owner →
      createProgramAddress P (.voucher v.business v.voucherId) v.bump = some accs.voucher →
      Effect (.program (.cancelPresentation accs)) []
        [⟨pdaCtx tx accs.voucher, .thaw accs.holderToken accs.mint accs.voucher⟩] []
  | transferVoucher {accs v m x} {opens : Bool} : s.record? accs.voucher = some (.voucher v) →
      s.tokens.mints.lookup accs.mint = some m → accs.owner ∈ tx.signers → accs.relayer ∈ tx.signers →
      ¬s.InUse accs.rentPayer → v.mint = accs.mint → v.rentPayer = accs.rentPayer →
      s.tokens.accounts.lookup accs.fromToken = some x → x.amount = 1 → x.frozen = false →
      x.mint = accs.mint → x.owner = accs.owner → tx.now ≤ v.expiresAt →
      accs.toToken = .ata accs.newOwner accs.mint → (opens = true ↔ ¬s.InUse accs.toToken) →
      createProgramAddress P (.voucher v.business v.voucherId) v.bump = some accs.voucher →
      Effect (.program (.transferVoucher accs))
        [⟨accs.voucher, some (.voucher v), some (.voucher { v with owner := accs.newOwner })⟩]
        (transferVoucherCalls tx accs opens m.decimals x)
        ((if opens = true then [.topUp .deposit accs.relayer accs.toToken
            (P.minimumBalance (tokenAccountLen m.nonTransferable))] else []) ++
          (fromTokenCloser tx accs x).elim [] fun _ => [.empty .refund accs.fromToken accs.rentPayer])
  | redeemVoucher {accs b v m m' x t totalRedemptions} : s.record? accs.business = some (.business b) →
      createProgramAddress P (.business accs.authority) b.bump = some accs.business →
        b.authority = accs.authority →
      s.record? accs.voucher = some (.voucher v) → s.tokens.mints.lookup accs.mint = some m →
      accs.authority ∈ tx.signers → accs.relayer ∈ tx.signers → ¬s.InUse accs.rentPayer →
      v.business = accs.business → v.mint = accs.mint → v.rentPayer = accs.rentPayer →
      s.tokens.accounts.lookup accs.holderToken = some x → x.amount = 1 → x.frozen = true →
      x.mint = accs.mint → tx.now ≤ v.expiresAt →
      createProgramAddress P (.voucher v.business v.voucherId) v.bump = some accs.voucher →
      run s.tokens (redeemCalls tx accs m.decimals x) = .ok t → t.mints.lookup accs.mint = some m' →
      addU32 b.totalRedemptions 1 = .ok totalRedemptions →
      Effect (.program (.redeemVoucher accs))
        [⟨accs.business, some (.business b), some (.business
            { b with totalRedemptions := totalRedemptions, openVouchers := satSubU32 b.openVouchers 1 })⟩,
          ⟨accs.voucher, some (.voucher v), none⟩]
        (redeemCalls tx accs m.decimals x ++ closeMintCalls tx accs.voucher accs.mint accs.rentPayer m')
        ((if x.closeAuthority = some accs.voucher then
          [.empty .refund accs.holderToken accs.rentPayer] else []) ++
          closeMintPayments accs.voucher accs.mint accs.rentPayer m' ++
          [.empty .refund accs.voucher accs.rentPayer])
  | closeExpiredVoucher {accs b v m m' t} {x : Option (Account Address)} :
      s.record? accs.voucher = some (.voucher v) → s.record? accs.business = some (.business b) →
      s.tokens.mints.lookup accs.mint = some m → ¬s.InUse accs.rentPayer → v.mint = accs.mint →
      v.rentPayer = accs.rentPayer → accs.business = v.business → v.expiresAt < tx.now →
      createProgramAddress P (.voucher v.business v.voucherId) v.bump = some accs.voucher →
      s.tokens.accounts.lookup accs.holderToken = x → (∀ y, x = some y → y.mint = accs.mint) →
      run s.tokens (burnExpiredCalls tx accs m.decimals x) = .ok t → t.mints.lookup accs.mint = some m' →
      m'.supply = 0 →
      Effect (.program (.closeExpiredVoucher accs))
        [⟨accs.business, some (.business b), some (.business
            { b with openVouchers := satSubU32 b.openVouchers 1 })⟩,
          ⟨accs.voucher, some (.voucher v), none⟩]
        (burnExpiredCalls tx accs m.decimals x ++ closeMintCalls tx accs.voucher accs.mint accs.rentPayer m')
        ((x.elim [] fun x =>
            if x.closeAuthority = some accs.voucher then
            [.empty .refund accs.holderToken accs.rentPayer] else []) ++
          closeMintPayments accs.voucher accs.mint accs.rentPayer m' ++
          [.empty .refund accs.voucher accs.rentPayer])
  /-- With the record of the card's current NFT still there (`n = some _`) or without. -/
  | migrateCard {accs old c c' mint mintBump recordBump} {n : Option CardNft} : ¬s.InUse accs.rentPayer →
      accs.relayer ∈ tx.signers → s.program.lookup accs.card = some old → old.length < LoyaltyCard.space →
      s.record? accs.card = none → s.face? accs.card = some (.card c) →
      createProgramAddress P (.card c.business c.customer) c.bump = some accs.card →
      findProgramAddress P (.cardMint accs.card c.nftCycle) = some (mint, mintBump) →
      findProgramAddress P (.cardNft mint) = some (accs.record, recordBump) →
      (∀ x, n = some x → s.record? accs.record = some (.cardNft x) ∧ accs.rentPayer = x.rentPayer) →
      (n = none → ∀ data, s.program.lookup accs.record = some data → data = []) →
      c'.toCardV1 = c → MigratedPayer old (n.elim accs.relayer CardNft.rentPayer) c'.rentPayer →
      c'.rewardsEarned = oldRewardsEarned c.lifetimeStamps c.stamps c.stampsRequiredSnapshot →
      Effect (.program (.migrateCard accs))
        (⟨accs.card, none, some (.card c')⟩ :: n.elim [] fun x => [⟨accs.record, some (.cardNft x), none⟩]) []
        (.topUp .deposit accs.relayer accs.card (P.minimumBalance LoyaltyCard.space) ::
          n.elim [] fun _ => [.empty .refund accs.record accs.rentPayer])
  | migrateBusiness {accs old b} : accs.relayer ∈ tx.signers → s.program.lookup accs.business = some old →
      old.length < Business.space → s.face? accs.business = some (.business b) →
      createProgramAddress P (.business b.authority) b.bump = some accs.business →
      Effect (.program (.migrateBusiness accs))
        [⟨accs.business, s.record? accs.business, some (.business (upgradeBusiness tx.now accs.relayer b))⟩]
          []
        [.topUp .deposit accs.relayer accs.business (P.minimumBalance Business.space)]
  | pay {source dest amount} : source ∈ tx.signers ∧ ¬s.InUse source ∨ amount = 0 →
      Effect (.wallet (.pay source dest amount)) [] [] [.send source dest amount]
  | handOver {a} : a ∈ tx.signers → ¬s.InUse a → Effect (.wallet (.handOver a)) [] [] []
  | openMint {payer mint rent m} : mint ∈ tx.signers → ¬s.InUse mint →
      (payer ∈ tx.signers ∨ rent - s.lamports mint = 0) →
      Effect (.wallet (.openMint payer mint rent m)) [] [⟨⟨tx.signers, false⟩, .initializeMint mint m⟩]
        [.topUp .plain payer mint rent]
  | openToken {payer account mint owner rent} {immutableOwner : Bool} :
      (account ∈ tx.signers ∨ account = .ata owner mint ∧ immutableOwner = true) → ¬s.InUse account →
      (payer ∈ tx.signers ∨ rent - s.lamports account = 0) →
      Effect (.wallet (.openToken payer account mint owner immutableOwner rent)) []
        [⟨⟨tx.signers, false⟩, .initializeAccount account mint owner immutableOwner⟩]
        [.topUp .plain payer account rent]
  | closeToken {account dest authority} {cpi : Bool} :
      Effect (.wallet (.closeToken account dest authority cpi)) []
        [⟨⟨tx.signers, cpi⟩, .close account dest authority⟩] [.empty .withdraw account dest]
  | token {op} {cpi : Bool} : opensNothing op = true →
      Effect (.wallet (.token op cpi)) [] [⟨⟨tx.signers, cpi⟩, op⟩] []

end

/-- A step from `s` to `s'`, as the rules describe it. -/
structure Step (P : Platform) (s : State) (c : Call) (s' : State) (cs : List Change) (calls : List TokenCall)
    (ps : List Payment) : Prop where
  effect : Effect P c.tx s c.action cs calls ps
  changed : Changed cs s s'
  tokens : run s.tokens calls = .ok s'.tokens
  purse : s'.purse = s.purse.settle ps
  foreign : ∀ a ∈ s'.foreign, a ∈ s.foreign ∨ a.canSign = true ∧ c.action = .wallet (.handOver a)
  signers : ∀ a ∈ c.tx.signers, a.canSign = true
  funded : Funded s.purse ps

end Passdari
