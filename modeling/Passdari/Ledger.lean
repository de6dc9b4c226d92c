/-
The chain as the program sees it, split by owner: the accounts this program
owns (as bytes), those the token program owns, addresses handed to some
other program, and everybody's lamports. An address in none of them belongs
to the system program, with or without lamports on it.

`journal` is history, newest first: every movement of lamports and what it
was for. No instruction reads it.
-/
import Passdari.Error
import Passdari.State
import Mathlib.Logic.Function.Basic

namespace Passdari

open Wire

/-- Why lamports moved. -/
inductive MoveKind
  /-- A relayer paid for an account an instruction of the program creates or tops up. -/
  | deposit
  /-- An instruction of the program closed the account. -/
  | refund
  /-- A wallet closed a token account or mint itself. -/
  | withdraw
  | plain
  deriving DecidableEq

structure Move where
  kind : MoveKind
  source : Address
  dest : Address
  amount : Nat
  deriving DecidableEq

structure State where
  program : Store Address (List Byte)
  tokens : Token2022.Tokens Address
  foreign : List Address
  lamports : Address → Nat
  journal : List Move

/-- The clock and the signatures a call comes with. -/
structure Tx where
  now : Int64
  signers : List Address

namespace State

/-- The address belongs to a program: this one, the token program or another. -/
def InUse (s : State) (a : Address) : Prop :=
  a ∈ s.program ∨ s.tokens.InUse a ∨ a ∈ s.foreign ∨ a = Address.default

instance (s : State) (a : Address) : Decidable (s.InUse a) := inferInstanceAs (Decidable (_ ∨ _ ∨ _ ∨ _))

/-- The token program owns the account and it has data. -/
abbrev TokenOwned (s : State) (a : Address) : Prop := s.tokens.InUse a

/-- What is stored at an address, as a reader sees it. -/
def record? (s : State) (a : Address) : Option Record := (s.program.lookup a).bind Record.parse

def move (s : State) (kind : MoveKind) (source dest : Address) (amount : Nat) : State :=
  let taken := Function.update s.lamports source (s.lamports source - amount)
  { s with
    lamports := Function.update taken dest (taken dest + amount)
    journal := ⟨kind, source, dest, amount⟩ :: s.journal }

end State

/-! ## Signers and lamports -/

/-- `Signer<'info>`. -/
def signer (tx : Tx) (a : Address) : Except Failure Unit := check (a ∈ tx.signers) (.anchor .accountNotSigner)

/-- `SystemAccount<'info>`. -/
def systemAccount (s : State) (a : Address) : Except Failure Unit :=
  check (¬s.InUse a) (.anchor .accountNotSystemOwned)

/-- The system program's `transfer`, when there is anything to move. -/
def transferLamports (tx : Tx) (s : State) (kind : MoveKind) (source dest : Address) (amount : Nat) :
    Except Failure State :=
  if amount = 0 then pure s
  else do
    check (source ∈ tx.signers) (.system .missingRequiredSignature)
    check (¬s.InUse source) (.system .missingRequiredSignature)
    check (amount ≤ s.lamports source) (.system .insufficientFunds)
    pure (s.move kind source dest amount)

/-- A new account at `a` with `rent` lamports on it: `create_account`, or, when somebody has already sent
lamports there, `transfer` of what is missing, `allocate` and `assign`. The data is the caller's to write. -/
def createAddress (tx : Tx) (s : State) (kind : MoveKind) (payer a : Address) (rent : Nat) :
    Except Failure State := do
  check (¬s.InUse a) (.system .accountAlreadyInUse)
  transferLamports tx s kind payer a (rent - s.lamports a)

/-! ## Program accounts -/

/-- An account type: where its records are, and the room a new one gets. -/
structure AccountType (α : Type) where
  discriminator : List Byte
  layout : Codec Byte α
  space : Nat
  record : α → Record
  /-- The record whose fields are all zero bytes. -/
  zeroed : α
  parse_iff : ∀ data x, Record.parse data = some (record x) ↔
    data.take 8 = discriminator ∧ ∃ rest, layout.dec (data.drop 8) = some (x, rest)
  bytes_record : ∀ x, (record x).bytes = discriminator ++ layout.enc x
  dec_zeroed : ∃ rest, layout.dec (List.replicate (space - 8) (.lit 0)) = some (zeroed, rest)

variable {α : Type}

/-- `Account::try_from`: owner, discriminator, fields. -/
def load (T : AccountType α) (s : State) (a : Address) : Except Failure α := do
  let data ← demand (s.program.lookup a) <|
    if s.InUse a ∨ 0 < s.lamports a then .anchor .accountOwnedByWrongProgram
    else .anchor .accountNotInitialized
  check (data.take 8 = T.discriminator) (.anchor .accountDiscriminatorMismatch)
  let fields ← demand (T.layout.dec (data.drop 8)) (.anchor .accountDidNotDeserialize)
  pure fields.1

/-- The write-back at exit: over the front of the data, which has to have the room. -/
def store (T : AccountType α) (s : State) (a : Address) (x : α) : Except Failure State := do
  let data ← demand (s.program.lookup a) (.anchor .accountDidNotSerialize)
  let front := T.discriminator ++ T.layout.enc x
  check (front.length ≤ data.length) (.anchor .accountDidNotSerialize)
  pure { s with program := s.program.insert a (front ++ data.drop front.length) }

/-- `init`: the payer funds a new account of the type, all zeros, which reads as `T.zeroed`. -/
def create (P : Platform) (tx : Tx) (T : AccountType α) (s : State) (payer a : Address) :
    Except Failure State := do
  let s ← createAddress tx s .deposit payer a (P.minimumBalance T.space)
  pure { s with program := s.program.insert a (List.replicate T.space (.lit 0)) }

/-- `init_if_needed`: a new account, or the one that is there, which has to be of the type and its size. -/
def createIfNeeded (P : Platform) (tx : Tx) (T : AccountType α) (s : State) (payer a : Address) :
    Except Failure (State × α) :=
  if s.InUse a then do
    let x ← load T s a
    check (((s.program.lookup a).map List.length) = some T.space) (.anchor .constraintSpace)
    pure (s, x)
  else do
    let s ← create P tx T s payer a
    pure (s, T.zeroed)

/-- `close = dest`, carried out at exit. -/
def close (s : State) (a dest : Address) : State :=
  { s.move .refund a dest (s.lamports a) with program := s.program.erase a }

/-- The bump and address of `seeds = [..], bump`, which `a` has to be. -/
def seedsConstraint (P : Platform) (seeds : UInt8 → Address) (a : Address) : Except Failure UInt8 := do
  let found ← demand (findProgramAddress P seeds) (.system .invalidSeeds)
  check (a = found.1) (.anchor .constraintSeeds)
  pure found.2

/-- `seeds = [..], bump = bump`. -/
def seedsConstraintWith (P : Platform) (seeds : UInt8 → Address) (bump : UInt8) (a : Address) :
    Except Failure Unit :=
  check (createProgramAddress P seeds bump = some a) (.anchor .constraintSeeds)

def hasOne (recorded a : Address) : Except Failure Unit := check (recorded = a) (.anchor .constraintHasOne)

/-! ## Calls into the token program -/

/-- The signatures a cross-program call carries with signer seeds: the transaction's own and the derived
address the seeds create. -/
def withSigner (P : Platform) (tx : Tx) (seeds : UInt8 → Address) (bump : UInt8) :
    Except Failure (List Address) := do
  let pda ← demand (createProgramAddress P seeds bump) (.system .invalidSeeds)
  pure (pda :: tx.signers)

def liftToken (r : Except Token2022.Error (Token2022.Tokens Address)) :
    Except Failure (Token2022.Tokens Address) :=
  match r with
  | .ok t => .ok t
  | .error e => .error (.token e)

/-- One call into the token program that moves no lamports. -/
def invoke (signers : List Address) (s : State) (op : Token2022.Op Address) : Except Failure State := do
  let t ← liftToken (Token2022.exec ⟨signers, true⟩ s.tokens op)
  pure { s with tokens := t }

/-- `CloseAccount`, whose lamports go to `dest`. -/
def invokeClose (signers : List Address) (s : State) (account dest authority : Address) :
    Except Failure State := do
  let t ← liftToken (Token2022.exec ⟨signers, true⟩ s.tokens (.close account dest authority))
  pure { s.move .refund account dest (s.lamports account) with tokens := t }

/-- `InterfaceAccount<'info, Mint>`. -/
def loadMint (s : State) (a : Address) : Except Failure (Token2022.Mint Address) :=
  demand (s.tokens.mints.lookup a) (.anchor .accountNotInitialized)

/-- `InterfaceAccount<'info, TokenAccount>`. -/
def loadToken (s : State) (a : Address) : Except Failure (Token2022.Account Address) :=
  demand (s.tokens.accounts.lookup a) (.anchor .accountNotInitialized)

/-! ## Sizes in the token program -/

/-- A mint with a metadata pointer, permanent delegate and close authority. -/
def voucherMintLen : Nat := 306

/-- The same, non-transferable. -/
def cardMintLen : Nat := 310

/-- An associated token account; one of a non-transferable mint says so. -/
def tokenAccountLen (nonTransferable : Bool) : Nat := if nonTransferable then 174 else 170

/-- `TokenMetadata::tlv_size_of`, with no additional fields: a discriminator of eight bytes and a length of
four come first. -/
def metadataLen (name symbol uri : String) : Nat :=
  12 + 32 + 32 + (4 + name.utf8ByteSize) + (4 + symbol.utf8ByteSize) + (4 + uri.utf8ByteSize) + 4

/-- The associated token program's `create`. -/
def createAssociatedToken (P : Platform) (tx : Tx) (s : State) (payer account owner mint : Address) :
    Except Failure State := do
  check (account = .ata owner mint) (.system .invalidSeeds)
  let m ← loadMint s mint
  let s ← createAddress tx s .deposit payer account (P.minimumBalance (tokenAccountLen m.nonTransferable))
  invoke tx.signers s (.initializeAccount account mint owner true)

/-! ## The account types -/

def Counter.account : AccountType Counter where
  discriminator := Counter.discriminator
  layout := Counter.layout
  space := Counter.space
  record := .counter
  zeroed := ⟨.default, 0, 0⟩
  parse_iff data x := by
    simp only [Record.parse]
    repeat' split
    all_goals simp_all [Counter.discriminator, Business.discriminator, Receipt.discriminator,
      LoyaltyCard.discriminator, Voucher.discriminator, CardNft.discriminator]
  bytes_record _ := rfl
  dec_zeroed := ⟨_, rfl⟩

def Business.account : AccountType Business where
  discriminator := Business.discriminator
  layout := Business.layout
  space := Business.space
  record := .business
  zeroed :=
    ⟨⟨.default, ⟨"", by decide⟩, ⟨"", by decide⟩, ⟨"", by decide⟩, 0, 0, ⟨"", by decide⟩, 0, 0, 0, 0, 0, 0,
        0, 0⟩, 0, 0, .default, 0⟩
  parse_iff data x := by
    simp only [Record.parse]
    repeat' split
    all_goals simp_all [Counter.discriminator, Business.discriminator, Receipt.discriminator,
      LoyaltyCard.discriminator, Voucher.discriminator, CardNft.discriminator]
  bytes_record _ := rfl
  dec_zeroed := ⟨_, rfl⟩

def Receipt.account : AccountType Receipt where
  discriminator := Receipt.discriminator
  layout := Receipt.layout
  space := Receipt.space
  record := .receipt
  zeroed := ⟨.default, 0, 0, 0, 0, .default⟩
  parse_iff data x := by
    simp only [Record.parse]
    repeat' split
    all_goals simp_all [Counter.discriminator, Business.discriminator, Receipt.discriminator,
      LoyaltyCard.discriminator, Voucher.discriminator, CardNft.discriminator]
  bytes_record _ := rfl
  dec_zeroed := ⟨_, rfl⟩

def LoyaltyCard.account : AccountType LoyaltyCard where
  discriminator := LoyaltyCard.discriminator
  layout := LoyaltyCard.layout
  space := LoyaltyCard.space
  record := .card
  zeroed := ⟨⟨.default, .default, 0, 0, 0, 0, 0, 0, 0, 0⟩, .default, 0⟩
  parse_iff data x := by
    simp only [Record.parse]
    repeat' split
    all_goals simp_all [Counter.discriminator, Business.discriminator, Receipt.discriminator,
      LoyaltyCard.discriminator, Voucher.discriminator, CardNft.discriminator]
  bytes_record _ := rfl
  dec_zeroed := ⟨_, rfl⟩

def Voucher.account : AccountType Voucher where
  discriminator := Voucher.discriminator
  layout := Voucher.layout
  space := Voucher.space
  record := .voucher
  zeroed := ⟨.default, .default, .default, 0, 0, 0, .default, 0⟩
  parse_iff data x := by
    simp only [Record.parse]
    repeat' split
    all_goals simp_all [Counter.discriminator, Business.discriminator, Receipt.discriminator,
      LoyaltyCard.discriminator, Voucher.discriminator, CardNft.discriminator]
  bytes_record _ := rfl
  dec_zeroed := ⟨_, rfl⟩

def CardNft.account : AccountType CardNft where
  discriminator := CardNft.discriminator
  layout := CardNft.layout
  space := CardNft.space
  record := .cardNft
  zeroed := ⟨.default, 0⟩
  parse_iff data x := by
    simp only [Record.parse]
    repeat' split
    all_goals simp_all [Counter.discriminator, Business.discriminator, Receipt.discriminator,
      LoyaltyCard.discriminator, Voucher.discriminator, CardNft.discriminator]
  bytes_record _ := rfl
  dec_zeroed := ⟨_, rfl⟩

end Passdari
