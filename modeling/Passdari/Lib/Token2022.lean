/-
Token-2022, as far as its documented rules on mints and token accounts go:
who may mint, spend, burn, freeze and close, and what the extensions used
here (mint close authority, permanent delegate, non-transferable, immutable
owner, CPI guard) and the required memo add. Keys are any type, and what an
instruction was signed by and whether a program issued it is its `Ctx`.

Left out are what no mint here has (transfer fees, hooks, confidential and
interest-bearing balances); multisignature owners; the two owners whose
accounts anybody may burn from, and close to the incinerator: the system
program and the incinerator; and `WithdrawExcessLamports`, with which the
owner of a token account takes what is on it above its rent, and the mint
authority what is on the mint. This changes no mint and no account.
-/
import Passdari.Lib.Checks
import Passdari.Lib.Store

namespace Token2022

inductive Error
  | uninitialized | alreadyInUse | accountFrozen | ownerMismatch | insufficientFunds | mintMismatch
  | mintDecimalsMismatch | fixedSupply | overflow | invalidState | mintCannotFreeze | nonTransferable
  | nonTransferableNeedsImmutableOwner | immutableOwner | nonNativeHasBalance | mintHasSupply
  | authorityTypeNotSupported | cpiGuardBlocked | cpiGuardSettingsLocked | noMemo | invalidAccountData
  deriving DecidableEq

/-- The metadata extension, kept in the mint. -/
structure Metadata (K : Type) where
  updateAuthority : K
  name : String
  symbol : String
  uri : String
  deriving DecidableEq

structure Mint (K : Type) where
  mintAuthority : Option K
  supply : Nat
  decimals : Nat
  freezeAuthority : Option K
  closeAuthority : Option K
  permanentDelegate : Option K
  nonTransferable : Bool
  metadata : Option (Metadata K)
  deriving DecidableEq

structure Account (K : Type) where
  mint : K
  owner : K
  amount : Nat
  delegate : Option K
  delegatedAmount : Nat
  frozen : Bool
  closeAuthority : Option K
  immutableOwner : Bool
  cpiGuard : Bool
  /-- Whether a transfer into it has to come with a memo. -/
  memoTransfer : Bool
  deriving DecidableEq

/-- Who may close the account: its close authority, or its owner when it names none. -/
def Account.closer {K : Type} (a : Account K) : K := a.closeAuthority.getD a.owner

/-- A new, empty account. -/
def Account.fresh {K : Type} (mint owner : K) (immutableOwner : Bool) : Account K where
  mint := mint
  owner := owner
  amount := 0
  delegate := none
  delegatedAmount := 0
  frozen := false
  closeAuthority := none
  immutableOwner := immutableOwner
  cpiGuard := false
  memoTransfer := false

/-- Everything the token program owns. -/
structure Tokens (K : Type) where
  mints : Store K (Mint K)
  accounts : Store K (Account K)

/-- How an instruction reaches the token program: what signed it, and whether another program issued it. -/
structure Ctx (K : Type) where
  signers : List K
  cpi : Bool

inductive AuthorityType
  | mintTokens | freezeAccount | closeMint | permanentDelegate
  deriving DecidableEq

inductive Op (K : Type)
  | initializeMint (mint : K) (m : Mint K)
  | initializeMetadata (mint authority : K) (metadata : Metadata K)
  | initializeAccount (account mint owner : K) (immutableOwner : Bool)
  | mintTo (mint dest authority : K) (amount decimals : Nat)
  | transfer (source mint dest authority : K) (amount decimals : Nat)
  | burn (source mint authority : K) (amount decimals : Nat)
  | approve (source delegate owner : K) (amount : Nat)
  | revoke (source authority : K)
  | setOwner (account new authority : K)
  | setCloseAuthority (account : K) (new : Option K) (authority : K)
  | setMintAuthority (mint : K) (kind : AuthorityType) (new : Option K) (authority : K)
  | freeze (account mint authority : K)
  | thaw (account mint authority : K)
  | close (account dest authority : K)
  | cpiGuard (account owner : K) (on : Bool)
  | memoTransfer (account owner : K) (on : Bool)

variable {K : Type} [DecidableEq K]

/-- The authority an authority type names on a mint. -/
def Mint.authority (m : Mint K) : AuthorityType → Option K
  | .mintTokens => m.mintAuthority
  | .freezeAccount => m.freezeAuthority
  | .closeMint => m.closeAuthority
  | .permanentDelegate => m.permanentDelegate

def Mint.withAuthority (m : Mint K) (new : Option K) : AuthorityType → Mint K
  | .mintTokens => { m with mintAuthority := new }
  | .freezeAccount => { m with freezeAuthority := new }
  | .closeMint => { m with closeAuthority := new }
  | .permanentDelegate => { m with permanentDelegate := new }

/-- `amount` taken from what a delegate was approved for; approved for nothing, it is no delegate. -/
def Account.useDelegate (a : Account K) (amount : Nat) : Account K :=
  { a with
    delegatedAmount := a.delegatedAmount - amount
    delegate := if a.delegatedAmount - amount = 0 then none else a.delegate }

namespace Tokens

def mint (t : Tokens K) (m : K) : Except Error (Mint K) := demand (t.mints.lookup m) .uninitialized

def account (t : Tokens K) (a : K) : Except Error (Account K) := demand (t.accounts.lookup a) .uninitialized

def setMint (t : Tokens K) (a : K) (m : Mint K) : Tokens K := { t with mints := t.mints.insert a m }

def setAccount (t : Tokens K) (a : K) (x : Account K) : Tokens K :=
    { t with accounts := t.accounts.insert a x }

/-- The address holds a mint or a token account. -/
def InUse (t : Tokens K) (a : K) : Prop := a ∈ t.mints ∨ a ∈ t.accounts

instance (t : Tokens K) (a : K) : Decidable (t.InUse a) := inferInstanceAs (Decidable (_ ∨ _))

end Tokens

/-- The account after `authority` was let spend `amount` of it: the mint's permanent delegate, then the
account's own delegate within its approval, then the owner. -/
def spend (ctx : Ctx K) (m : Mint K) (a : Account K) (authority : K) (amount : Nat) :
    Except Error (Account K) := do
  let a' ←
    if m.permanentDelegate = some authority then
      pure a
    else if a.delegate = some authority then do
      check (amount ≤ a.delegatedAmount) .insufficientFunds
      pure (a.useDelegate amount)
    else do
      check (authority = a.owner) .ownerMismatch
      pure a
  check (authority ∈ ctx.signers) .ownerMismatch
  -- An owner's own signature is not taken from another program while the guard is on.
  check (¬(authority = a.owner ∧ a.cpiGuard = true ∧ ctx.cpi = true)) .cpiGuardBlocked
  pure a'

/-- One token instruction. -/
def exec (ctx : Ctx K) (t : Tokens K) : Op K → Except Error (Tokens K)
  | .initializeMint a m => do
    check (¬t.InUse a) .alreadyInUse
    pure (t.setMint a { m with supply := 0 })
  | .initializeMetadata a auth md => do
    let m ← t.mint a
    check (m.mintAuthority = some auth ∧ auth ∈ ctx.signers) .ownerMismatch
    check (m.metadata = none) .alreadyInUse
    pure (t.setMint a { m with metadata := some md })
  | .initializeAccount a mint owner immutableOwner => do
    check (¬t.InUse a) .alreadyInUse
    let m ← t.mint mint
    pure (t.setAccount a (.fresh mint owner (immutableOwner || m.nonTransferable)))
  | .mintTo mint dest auth amount decimals => do
    let x ← t.account dest
    check (x.frozen = false) .accountFrozen
    check (x.mint = mint) .mintMismatch
    let m ← t.mint mint
    check (m.nonTransferable = true → x.immutableOwner = true) .nonTransferableNeedsImmutableOwner
    check (m.decimals = decimals) .mintDecimalsMismatch
    check (m.mintAuthority ≠ none) .fixedSupply
    check (m.mintAuthority = some auth ∧ auth ∈ ctx.signers) .ownerMismatch
    check (m.supply + amount < 2 ^ 64) .overflow
    pure ((t.setMint mint { m with supply := m.supply + amount }).setAccount dest
      { x with amount := x.amount + amount })
  | .transfer src mint dest auth amount decimals => do
    let x ← t.account src
    let y ← t.account dest
    check (x.frozen = false ∧ y.frozen = false) .accountFrozen
    check (amount ≤ x.amount) .insufficientFunds
    check (x.mint = y.mint) .mintMismatch
    check (x.mint = mint) .mintMismatch
    let m ← t.mint mint
    check (m.nonTransferable = false) .nonTransferable
    check (m.decimals = decimals) .mintDecimalsMismatch
    let x' ← spend ctx m x auth amount
    -- A direct transfer is taken to bring the memo, one by another program to come without.
    check (¬(y.memoTransfer = true ∧ ctx.cpi = true)) .noMemo
    if src = dest then pure t
    else pure ((t.setAccount src { x' with amount := x.amount - amount }).setAccount dest
      { y with amount := y.amount + amount })
  | .burn src mint auth amount decimals => do
    let x ← t.account src
    let m ← t.mint mint
    check (x.frozen = false) .accountFrozen
    check (amount ≤ x.amount) .insufficientFunds
    check (x.mint = mint) .mintMismatch
    check (m.decimals = decimals) .mintDecimalsMismatch
    let x' ← spend ctx m x auth amount
    pure ((t.setMint mint { m with supply := m.supply - amount }).setAccount src
      { x' with amount := x.amount - amount })
  | .approve src delegate owner amount => do
    let x ← t.account src
    check (x.frozen = false) .accountFrozen
    check (x.owner = owner ∧ owner ∈ ctx.signers) .ownerMismatch
    check (¬(x.cpiGuard = true ∧ ctx.cpi = true)) .cpiGuardBlocked
    pure (t.setAccount src { x with delegate := some delegate, delegatedAmount := amount })
  | .revoke src auth => do
    let x ← t.account src
    check (x.frozen = false) .accountFrozen
    check ((x.delegate = some auth ∨ x.owner = auth) ∧ auth ∈ ctx.signers) .ownerMismatch
    pure (t.setAccount src { x with delegate := none, delegatedAmount := 0 })
  | .setOwner a new auth => do
    let x ← t.account a
    check (x.frozen = false) .accountFrozen
    check (x.owner = auth ∧ auth ∈ ctx.signers) .ownerMismatch
    check (x.immutableOwner = false) .immutableOwner
    check (x.cpiGuard = false) .cpiGuardBlocked
    pure (t.setAccount a { x with owner := new, delegate := none, delegatedAmount := 0 })
  | .setCloseAuthority a new auth => do
    let x ← t.account a
    check (x.frozen = false) .accountFrozen
    check (x.closer = auth ∧ auth ∈ ctx.signers) .ownerMismatch
    check (¬(x.cpiGuard = true ∧ ctx.cpi = true ∧ new ≠ none)) .cpiGuardBlocked
    pure (t.setAccount a { x with closeAuthority := new })
  | .setMintAuthority a kind new auth => do
    let m ← t.mint a
    check (m.authority kind ≠ none) .authorityTypeNotSupported
    check (m.authority kind = some auth ∧ auth ∈ ctx.signers) .ownerMismatch
    pure (t.setMint a (m.withAuthority new kind))
  | .freeze a mint auth => do
    let x ← t.account a
    check (x.frozen = false) .invalidState
    check (x.mint = mint) .mintMismatch
    let m ← t.mint mint
    check (m.freezeAuthority ≠ none) .mintCannotFreeze
    check (m.freezeAuthority = some auth ∧ auth ∈ ctx.signers) .ownerMismatch
    pure (t.setAccount a { x with frozen := true })
  | .thaw a mint auth => do
    let x ← t.account a
    check (x.frozen = true) .invalidState
    check (x.mint = mint) .mintMismatch
    let m ← t.mint mint
    check (m.freezeAuthority ≠ none) .mintCannotFreeze
    check (m.freezeAuthority = some auth ∧ auth ∈ ctx.signers) .ownerMismatch
    pure (t.setAccount a { x with frozen := false })
  | .close a dest auth => do
    check (a ≠ dest) .invalidAccountData
    match t.accounts.lookup a with
    | some x => do
      check (x.amount = 0) .nonNativeHasBalance
      check (x.closer = auth ∧ auth ∈ ctx.signers) .ownerMismatch
      check (¬(x.cpiGuard = true ∧ ctx.cpi = true ∧ dest ≠ x.owner)) .cpiGuardBlocked
      pure { t with accounts := t.accounts.erase a }
    | none => do
      let m ← t.mint a
      check (m.closeAuthority = some auth ∧ auth ∈ ctx.signers) .ownerMismatch
      check (m.supply = 0) .mintHasSupply
      pure { t with mints := t.mints.erase a }
  | .cpiGuard a owner on => do
    let x ← t.account a
    check (x.owner = owner ∧ owner ∈ ctx.signers) .ownerMismatch
    check (ctx.cpi = false) .cpiGuardSettingsLocked
    pure (t.setAccount a { x with cpiGuard := on })
  | .memoTransfer a owner on => do
    let x ← t.account a
    check (x.owner = owner ∧ owner ∈ ctx.signers) .ownerMismatch
    pure (t.setAccount a { x with memoTransfer := on })

end Token2022
