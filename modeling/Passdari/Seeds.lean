/-
The bytes behind a derived address. `find_program_address` hashes the seeds
one after the other, without separators, and a bump byte after them. The
tags of the families are of different lengths and begin one another ("card",
"card_mint", "card_nft"), and what follows them is often the caller's to
choose; still no two lists of seeds run together to the same bytes.
-/
import Passdari.Address

namespace Passdari

open Wire

/-- The seeds of an address the program derives, one constructor a family. -/
inductive Seeds
  | counter (owner : Bytes32)
  | business (authority : Bytes32)
  | card (business customer : Bytes32)
  | receipt (business secretHash : Bytes32)
  | voucher (business : Bytes32) (voucherId : UInt64)
  | voucherMint (business : Bytes32) (voucherId : UInt64)
  | cardMint (card : Bytes32) (nftCycle : UInt32)
  | cardNft (mint : Bytes32)
  deriving DecidableEq

/-- A byte string literal. -/
def ascii (s : String) : List UInt8 := s.toList.map fun c => UInt8.ofNat c.toNat

namespace Seeds

/-- The seeds in the order the program passes them; numbers are little-endian. -/
def parts : Seeds → List (List UInt8)
  | .counter owner => [ascii "counter", owner.bytes]
  | .business authority => [ascii "business", authority.bytes]
  | .card shop customer => [ascii "card", shop.bytes, customer.bytes]
  | .receipt shop secretHash => [ascii "receipt", shop.bytes, secretHash.bytes]
  | .voucher shop voucherId => [ascii "voucher", shop.bytes, Codec.leBytes 8 voucherId.toNat]
  | .voucherMint shop voucherId => [ascii "voucher_mint", shop.bytes, Codec.leBytes 8 voucherId.toNat]
  | .cardMint owner nftCycle => [ascii "card_mint", owner.bytes, Codec.leBytes 4 nftCycle.toNat]
  | .cardNft mint => [ascii "card_nft", mint.bytes]

/-- What is hashed: the seeds one after the other, then the bump. -/
def hashed (x : Seeds) (bump : UInt8) : List UInt8 := x.parts.flatten ++ [bump]

theorem bytes_inj {a b : Bytes32} : a.bytes = b.bytes ↔ a = b := by
  cases a; cases b; simp

theorem u64_inj {m n : UInt64} : Codec.leBytes 8 m.toNat = Codec.leBytes 8 n.toNat ↔ m = n := by
  refine ⟨fun h => UInt64.toNat_inj.mp ?_, fun h => by rw [h]⟩
  have := congrArg Codec.leValue h
  rwa [Codec.leValue_leBytes _ _ m.toNat_lt, Codec.leValue_leBytes _ _ n.toNat_lt] at this

theorem u32_inj {m n : UInt32} : Codec.leBytes 4 m.toNat = Codec.leBytes 4 n.toNat ↔ m = n := by
  refine ⟨fun h => UInt32.toNat_inj.mp ?_, fun h => by rw [h]⟩
  have := congrArg Codec.leValue h
  rwa [Codec.leValue_leBytes _ _ m.toNat_lt, Codec.leValue_leBytes _ _ n.toNat_lt] at this

/-- The seeds are told from the list of them. -/
theorem parts_injective : Function.Injective parts := by
  intro x y h
  cases x <;> cases y <;>
    simp only [parts, List.cons.injEq, and_true, true_and, bytes_inj, u64_inj, u32_inj, reduceCtorEq,
      and_false] at h
  case counter.counter => rw [h]
  case business.business => rw [h]
  case card.card => rw [h.1, h.2]
  case receipt.receipt => rw [h.1, h.2]
  case voucher.voucher => rw [h.1, h.2]
  case voucherMint.voucherMint => rw [h.1, h.2]
  case cardMint.cardMint => rw [h.1, h.2]
  case cardNft.cardNft => rw [h]
  all_goals exact absurd h.1 (by decide)

/-- The length of what is hashed gives the family away, but for one pair. -/
theorem length_flatten (x : Seeds) : x.parts.flatten.length =
    match x with
    | .counter _ => 39
    | .business _ | .cardNft _ => 40
    | .card .. => 68
    | .receipt .. => 71
    | .voucher .. => 47
    | .voucherMint .. => 52
    | .cardMint .. => 45 := by
  cases x <;> simp [parts, Bytes32.length_eq] <;> rfl

/-- Seeds that run together to the same bytes are cut in the same places. -/
theorem map_length_parts {x y : Seeds} (h : x.parts.flatten = y.parts.flatten) :
    x.parts.map List.length = y.parts.map List.length := by
  have hlen := congrArg List.length h
  rw [length_flatten, length_flatten] at hlen
  cases x <;> cases y <;> simp only [Nat.reduceEqDiff] at hlen
  -- of the two families of one length the first letters differ
  case business.cardNft => exact absurd (List.head_eq_of_cons_eq h) (by decide)
  case cardNft.business => exact absurd (List.head_eq_of_cons_eq h) (by decide)
  all_goals simp [parts, Bytes32.length_eq]

theorem hashed_inj {x y : Seeds} {b c : UInt8} (h : x.hashed b = y.hashed c) : x = y ∧ b = c := by
  obtain ⟨hparts, hbump⟩ := List.append_inj' h rfl
  refine ⟨parts_injective ?_, List.singleton_inj.mp hbump⟩
  exact List.eq_iff_flatten_eq.mpr ⟨hparts, map_length_parts hparts⟩

end Seeds

/-- **The seeds of an address are unambiguous**: the same bytes are hashed only for the same family, keys,
number and bump. -/
theorem seeds_unambiguous : Function.Injective fun p : Seeds × UInt8 => p.1.hashed p.2 := by
  intro ⟨x, b⟩ ⟨y, c⟩ h
  obtain ⟨rfl, rfl⟩ := Seeds.hashed_inj h
  rfl

end Passdari
