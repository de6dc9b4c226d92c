/-
Addresses and the bytes they are made of.

An address is a key somebody may hold, or is derived: one of the eight seed
families of the program with the bump byte it was hashed with, or the
associated token account of an owner and a mint. Derived addresses are
symbolic, so two of them are equal only when everything hashed into them is
(the standing assumption that derived addresses do not collide), and no key
is one. Their bytes are symbolic as well: the `i`-th byte of the digest.
-/
import Passdari.Lib.Codec

namespace Passdari

open Wire

/-- A `[u8; 32]`: a key, a hash, a secret. -/
structure Bytes32 where
  bytes : List UInt8
  length_eq : bytes.length = 32
  deriving DecidableEq

inductive Address
  | key (k : Bytes32)
  | counter (owner : Address) (bump : UInt8)
  | business (authority : Address) (bump : UInt8)
  | card (business customer : Address) (bump : UInt8)
  | receipt (business : Address) (secretHash : Bytes32) (bump : UInt8)
  | voucher (business : Address) (voucherId : UInt64) (bump : UInt8)
  | voucherMint (business : Address) (voucherId : UInt64) (bump : UInt8)
  | cardMint (card : Address) (nftCycle : UInt32) (bump : UInt8)
  | cardNft (mint : Address) (bump : UInt8)
  | ata (owner mint : Address)
  deriving DecidableEq

/-- A byte of an account: a value, or the `i`-th byte of a derived address. -/
inductive Byte
  | lit (b : UInt8)
  | digest (a : Address) (i : Nat)
  deriving DecidableEq

namespace Address

/-- `Pubkey::default()`, which is also the system program's own address. -/
protected def default : Address := .key ⟨List.replicate 32 0, rfl⟩

/-- Whether a transaction can carry this address's signature: a key can sign, the system program's
address and derived addresses cannot. -/
def canSign : Address → Bool
  | .key k => decide (Address.key k ≠ Address.default)
  | _ => false

def toBytes : Address → List Byte
  | .key k => k.bytes.map .lit
  | a => (List.range 32).map (.digest a)

@[simp] theorem length_toBytes (a : Address) : a.toBytes.length = 32 := by
  cases a <;> simp [toBytes, Bytes32.length_eq]

end Address

namespace Byte

def lit? : Byte → Option UInt8
  | .lit b => some b
  | .digest _ _ => none

/-- The values of a run of bytes none of which is symbolic. -/
def lits : List Byte → Option (List UInt8)
  | [] => some []
  | .lit b :: l => (lits l).map (b :: ·)
  | .digest _ _ :: _ => none

theorem lits_map_lit (l : List UInt8) : lits (l.map .lit) = some l := by
  induction l with
  | nil => rfl
  | cons b l ih => simp [lits, ih]

theorem eq_map_lit_of_lits : ∀ {l : List Byte} {bs}, lits l = some bs → l = bs.map .lit
  | [], _, h => by cases h; rfl
  | .lit b :: l, bs, h => by
    simp only [lits, Option.map_eq_some_iff] at h
    obtain ⟨bs', h', rfl⟩ := h
    simp [eq_map_lit_of_lits h']
  | .digest _ _ :: _, _, h => by cases h

end Byte

/-- One byte that is a value. -/
def byte : Codec Byte UInt8 :=
  Codec.cell.refine Byte.lit? Byte.lit (fun _ => rfl) (fun {a x} h => by
    cases a <;> simp_all [Byte.lit?])

theorem byte_sized : byte.Sized 1 := Codec.cell_sized.refine

/-- The address whose thirty-two bytes these are. -/
def Address.ofBytes (l : { l : List Byte // l.length = 32 }) : Option Address :=
  match l.1 with
  | .digest a _ :: _ => if a.toBytes = l.1 then some a else none
  | _ =>
    match h : Byte.lits l.1 with
    | some bs => some (.key ⟨bs, by
        have := congrArg List.length (Byte.eq_map_lit_of_lits h)
        rw [l.2, List.length_map] at this
        exact this.symm⟩)
    | none => none

theorem Address.ofBytes_toBytes (a : Address) : Address.ofBytes ⟨a.toBytes, a.length_toBytes⟩ = some a := by
  cases a with
  | key k =>
    obtain ⟨bs, hbs⟩ := k
    have hl : Byte.lits (bs.map .lit) = some bs := Byte.lits_map_lit bs
    simp only [Address.ofBytes, Address.toBytes]
    split
    · next heq => cases bs <;> simp at heq
    · split
      · next heq =>
        rw [hl] at heq
        cases heq
        rfl
      · next heq => rw [hl] at heq; cases heq
  | _ => simp [Address.ofBytes, Address.toBytes, List.range_succ_eq_map]

theorem Address.toBytes_of_ofBytes {l : { l : List Byte // l.length = 32 }} {a : Address}
    (h : Address.ofBytes l = some a) : a.toBytes = l.1 := by
  unfold Address.ofBytes at h
  split at h
  · split at h
    · next heq => cases h; exact heq
    · cases h
  · split at h
    · next heq => cases h; exact (Byte.eq_map_lit_of_lits heq).symm
    · cases h

/-- An address: its thirty-two bytes. -/
def address : Codec Byte Address :=
  (Codec.cell.rep 32).refine Address.ofBytes (fun a => ⟨a.toBytes, a.length_toBytes⟩)
    Address.ofBytes_toBytes (fun h => Subtype.ext (Address.toBytes_of_ofBytes h))

theorem address_sized : address.Sized 32 := (Codec.cell_sized.rep 32).refine

/-- What the program takes from outside itself: the hash function, which candidate addresses are off the
curve (so that they can be program addresses at all), and the rent-exempt minimum for a data length. -/
structure Platform where
  keccak : Bytes32 → Bytes32
  offCurve : Address → Bool
  minimumBalance : Nat → Nat

variable (P : Platform)

/-- `Pubkey::create_program_address`, for the seeds of one family and a bump. -/
def createProgramAddress (seeds : UInt8 → Address) (bump : UInt8) : Option Address :=
  if P.offCurve (seeds bump) then some (seeds bump) else none

/-- The search of `Pubkey::find_program_address`, from bump `n` down. -/
def findProgramAddressFrom (seeds : UInt8 → Address) : Nat → Option (Address × UInt8)
  | 0 => if P.offCurve (seeds 0) then some (seeds 0, 0) else none
  | n + 1 =>
    if P.offCurve (seeds (UInt8.ofNat (n + 1))) then some (seeds (UInt8.ofNat (n + 1)), UInt8.ofNat (n + 1))
    else findProgramAddressFrom seeds n

/-- `Pubkey::find_program_address`: the first bump from 255 down that gives an address off the curve. -/
def findProgramAddress (seeds : UInt8 → Address) : Option (Address × UInt8) :=
  findProgramAddressFrom P seeds 255

variable {P} {seeds : UInt8 → Address} {bump : UInt8} {a : Address}

theorem createProgramAddress_eq_some :
    createProgramAddress P seeds bump = some a ↔ P.offCurve a = true ∧ a = seeds bump := by
  unfold createProgramAddress
  split
  · next h => exact ⟨fun he => (by cases he; exact ⟨h, rfl⟩), fun he => (by rw [he.2])⟩
  · next h => exact ⟨fun he => (by cases he), fun ⟨h', he⟩ => absurd (he ▸ h') h⟩

/-- An address that was found is the one its own bump creates. -/
theorem createProgramAddress_of_find (h : findProgramAddress P seeds = some (a, bump)) :
    createProgramAddress P seeds bump = some a := by
  have key : ∀ n, findProgramAddressFrom P seeds n = some (a, bump) →
      createProgramAddress P seeds bump = some a := by
    intro n
    induction n with
    | zero =>
      intro h
      simp only [findProgramAddressFrom] at h
      split at h
      · next hc => cases h; exact if_pos hc
      · cases h
    | succ n ih =>
      intro h
      simp only [findProgramAddressFrom] at h
      split at h
      · next hc => cases h; exact if_pos hc
      · exact ih h
  exact key _ h

theorem findProgramAddress_eq (h : findProgramAddress P seeds = some (a, bump)) : a = seeds bump :=
  (createProgramAddress_eq_some.mp (createProgramAddress_of_find h)).2

end Passdari
