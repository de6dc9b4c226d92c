/-
Finite stores: a key holds at most one value. A store is Mathlib's `AList`;
what is added here is the sum of a weight over everything stored, and how
one write, or any set of writes, moves it.
-/
import Mathlib.Data.List.AList
import Mathlib.Algebra.Order.BigOperators.Group.List
import Mathlib.Algebra.Order.Ring.Nat
import Mathlib.Tactic.Common

/-- A store of `V`s under keys `K`. -/
abbrev Store (K V : Type) := AList (fun _ : K => V)

namespace Store

variable {K V : Type} [DecidableEq K]

@[simp] theorem lookup_insert_self (m : Store K V) (a : K) (v : V) : (m.insert a v).lookup a = some v :=
  AList.lookup_insert m

@[simp] theorem lookup_erase_self (m : Store K V) (a : K) : (m.erase a).lookup a = none :=
  AList.lookup_erase a m

theorem lookup_insert (m : Store K V) (a b : K) (v : V) :
    (m.insert a v).lookup b = if b = a then some v else m.lookup b := by
  split
  · next h => subst h; exact AList.lookup_insert m
  · next h => exact AList.lookup_insert_ne h

theorem lookup_erase (m : Store K V) (a b : K) :
    (m.erase a).lookup b = if b = a then none else m.lookup b := by
  split
  · next h => subst h; exact AList.lookup_erase b m
  · next h => exact AList.lookup_erase_ne h

/-! ## The sum of a weight -/

/-- The weight of everything stored. -/
def total (w : K → V → Nat) (m : Store K V) : Nat := (m.entries.map fun e => w e.1 e.2).sum

/-- The weight stored under one key. -/
def weight (w : K → V → Nat) (m : Store K V) (a : K) : Nat := (m.lookup a).elim 0 (w a)

variable {w : K → V → Nat} {m m' : Store K V} {a : K} {v : V}

omit [DecidableEq K] in
@[simp] theorem total_empty : total w (∅ : Store K V) = 0 := rfl

theorem weight_of_lookup (h : m.lookup a = some v) : weight w m a = w a v := by simp [weight, h]

theorem weight_of_none (h : m.lookup a = none) : weight w m a = 0 := by simp [weight, h]

/-- Stores that answer every key alike weigh the same. -/
theorem total_congr (h : ∀ a, m.lookup a = m'.lookup a) : total w m = total w m' := by
  have hp : m.entries.Perm m'.entries := by
    refine List.lookup_ext m.nodupKeys m'.nodupKeys fun x y => ?_
    have := h x
    simp only [AList.lookup] at this
    rw [this]
  exact (hp.map _).sum_eq

theorem total_insert_of_none (h : m.lookup a = none) : total w (m.insert a v) = w a v + total w m := by
  simp only [total, AList.entries_insert_of_notMem (AList.lookup_eq_none.mp h), List.map_cons,
    List.sum_cons]

/-- What an erasure takes off the total. -/
theorem total_erase (w : K → V → Nat) (m : Store K V) (a : K) :
    total w (m.erase a) + weight w m a = total w m := by
  cases h : m.lookup a with
  | none =>
    rw [weight_of_none h, Nat.add_zero]
    refine total_congr fun b => ?_
    rw [lookup_erase]
    split
    · next hb => rw [hb, h]
    · rfl
  | some v =>
    have hsame : total w m = total w ((m.erase a).insert a v) := by
      refine total_congr fun b => ?_
      rw [lookup_insert, lookup_erase]
      split
      · next hb => rw [hb, h]
      · rfl
    rw [hsame, total_insert_of_none (lookup_erase_self m a), weight_of_lookup h, Nat.add_comm]

/-- What a write changes the total by. -/
theorem total_insert (w : K → V → Nat) (m : Store K V) (a : K) (v : V) :
    total w (m.insert a v) + weight w m a = total w m + w a v := by
  have hsame : total w (m.insert a v) = total w ((m.erase a).insert a v) := by
    refine total_congr fun b => ?_
    simp only [lookup_insert, lookup_erase]
    split <;> rfl
  have he := total_erase w m a
  rw [hsame, total_insert_of_none (lookup_erase_self m a)]
  omega

/-- Stores that agree outside `as` differ in weight by what is under `as`. -/
theorem total_patch (w : K → V → Nat) : ∀ {as : List K} {m n : Store K V}, as.Nodup →
    (∀ b, b ∉ as → n.lookup b = m.lookup b) →
    total w n + (as.map (weight w m)).sum = total w m + (as.map (weight w n)).sum
  | [], m, m', _, h => by simpa using total_congr fun b => h b (by simp)
  | a :: as, m, m', hn, h => by
    obtain ⟨ha, has⟩ := List.nodup_cons.mp hn
    -- one key at a time: `mid` already answers `a` as `m'` does
    let mid : Store K V := (m'.lookup a).elim (m.erase a) (m.insert a)
    have hmid : ∀ b, mid.lookup b = if b = a then m'.lookup a else m.lookup b := by
      intro b
      cases hl : m'.lookup a with
      | none => simp only [mid, hl, Option.elim, lookup_erase]
      | some v => simp only [mid, hl, Option.elim, lookup_insert]
    have ih := total_patch w (m := mid) (n := m') has (fun b hb => by
      rw [hmid]
      split
      · next hba => rw [hba]
      · next hba => exact h b (by simp [hba, hb]))
    have hone : total w mid + weight w m a = total w m + weight w m' a := by
      cases hl : m'.lookup a with
      | none =>
        have := total_erase w m a
        simp only [mid, hl, Option.elim, weight_of_none hl]
        omega
      | some v =>
        have := total_insert w m a v
        simp only [mid, hl, Option.elim, weight_of_lookup hl]
        exact this
    have hrest : (as.map (weight w mid)).sum = (as.map (weight w m)).sum := by
      congr 1
      refine List.map_congr_left fun b hb => ?_
      have hba : b ≠ a := fun he => ha (he ▸ hb)
      simp only [weight, hmid, hba, if_false]
    simp only [List.map_cons, List.sum_cons]
    omega

/-! ## Bounds -/

theorem mem_entries_of_lookup (h : m.lookup a = some v) : (⟨a, v⟩ : Sigma fun _ : K => V) ∈ m.entries :=
  AList.mem_lookup_iff.mp h

theorem lookup_of_mem_entries (h : (⟨a, v⟩ : Sigma fun _ : K => V) ∈ m.entries) : m.lookup a = some v :=
  AList.mem_lookup_iff.mpr h

theorem weight_le_total (w : K → V → Nat) (m : Store K V) (a : K) : weight w m a ≤ total w m := by
  have := total_erase w m a
  omega

theorem le_total_of_lookup (h : m.lookup a = some v) : w a v ≤ total w m := by
  rw [← weight_of_lookup (w := w) h]; exact weight_le_total w m a

/-- Two different keys' weights are both in the total. -/
theorem weight_add_weight_le (w : K → V → Nat) (m : Store K V) {a b : K} (h : a ≠ b) :
    weight w m a + weight w m b ≤ total w m := by
  have h1 := total_erase w m a
  have h2 := weight_le_total w (m.erase a) b
  have h3 : weight w (m.erase a) b = weight w m b := by
    simp only [weight, lookup_erase, if_neg (Ne.symm h)]
  omega

theorem total_eq_zero_iff : total w m = 0 ↔ ∀ a v, m.lookup a = some v → w a v = 0 := by
  constructor
  · intro h a v hl
    have := le_total_of_lookup (w := w) hl
    omega
  · intro h
    refine List.sum_eq_zero fun x hx => ?_
    obtain ⟨e, he, rfl⟩ := List.mem_map.mp hx
    exact h e.1 e.2 (lookup_of_mem_entries he)

/-- A weight that only one key has. -/
theorem total_of_single (h : ∀ b v, b ≠ a → w b v = 0) : total w m = weight w m a := by
  have he : total w (m.erase a) = 0 := total_eq_zero_iff.mpr fun b v hb => by
    rw [lookup_erase] at hb
    split at hb
    · cases hb
    · next hne => exact h b v hne
  have := total_erase w m a
  omega

/-- A positive total has a key that weighs something. -/
theorem exists_of_total_pos (h : 0 < total w m) : ∃ a v, m.lookup a = some v ∧ 0 < w a v := by
  by_contra hc
  have : total w m = 0 := total_eq_zero_iff.mpr fun a v hl => by
    by_contra hw
    exact hc ⟨a, v, hl, by omega⟩
  omega

end Store
