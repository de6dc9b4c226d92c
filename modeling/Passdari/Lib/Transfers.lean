/-
Transfers between holders. Balances before and after a list of transfers
differ, for each holder, by what it received and what it sent; so nothing
is made or lost, and who takes no part keeps what they had.
-/
import Mathlib.Algebra.BigOperators.Group.Finset.Piecewise
import Mathlib.Algebra.Order.BigOperators.Group.Finset
import Mathlib.Algebra.Order.Ring.Nat

/-- So much goes from one holder to another. -/
structure Transfer (K : Type) where
  source : K
  dest : K
  amount : Nat

namespace Transfer

variable {K : Type} [DecidableEq K] {f g h : K → Nat} {x : Transfer K} {l l' : List (Transfer K)} {k : K}
  {F : Finset K}

def sent (l : List (Transfer K)) (k : K) : Nat := (l.map fun x => if x.source = k then x.amount else 0).sum

def received (l : List (Transfer K)) (k : K) : Nat := (l.map fun x => if x.dest = k then x.amount else 0).sum

/-- The balances `g` are the balances `f` after the transfers. -/
def Balances (l : List (Transfer K)) (f g : K → Nat) : Prop := ∀ k, g k + sent l k = f k + received l k

theorem sent_cons (x : Transfer K) (l : List (Transfer K)) (k : K) :
    sent (x :: l) k = (if x.source = k then x.amount else 0) + sent l k := rfl

theorem received_cons (x : Transfer K) (l : List (Transfer K)) (k : K) :
    received (x :: l) k = (if x.dest = k then x.amount else 0) + received l k := rfl

theorem sent_append : sent (l ++ l') k = sent l k + sent l' k := by
  rw [sent, List.map_append, List.sum_append, sent, sent]

theorem received_append : received (l ++ l') k = received l k + received l' k := by
  rw [received, List.map_append, List.sum_append, received, received]

theorem sent_eq_zero (hk : ∀ x ∈ l, x.source ≠ k) : sent l k = 0 := by
  induction l with
  | nil => rfl
  | cons x l ih =>
    rw [sent_cons, if_neg (hk x List.mem_cons_self), ih fun x hx => hk x (List.mem_cons_of_mem _ hx)]

theorem received_eq_zero (hk : ∀ x ∈ l, x.dest ≠ k) : received l k = 0 := by
  induction l with
  | nil => rfl
  | cons x l ih =>
    rw [received_cons, if_neg (hk x List.mem_cons_self), ih fun x hx => hk x (List.mem_cons_of_mem _ hx)]

theorem le_sent (hx : x ∈ l) : x.amount ≤ sent l x.source := by
  induction l with
  | nil => cases hx
  | cons y l ih =>
    rw [sent_cons]
    rcases List.mem_cons.mp hx with rfl | hx
    · rw [if_pos rfl]
      omega
    · have := ih hx
      omega

namespace Balances

theorem nil (f : K → Nat) : Balances [] f f := fun _ => rfl

/-- One transfer of what is there. -/
theorem one (hle : x.amount ≤ f x.source) :
    Balances [x] f (Function.update (Function.update f x.source (f x.source - x.amount)) x.dest
      (Function.update f x.source (f x.source - x.amount) x.dest + x.amount)) := by
  intro k
  simp only [sent, received, List.map_cons, List.map_nil, List.sum_cons, List.sum_nil, Nat.add_zero,
    Function.update_apply, eq_comm (a := k)]
  by_cases hs : x.source = k
  · subst hs
    by_cases hd : x.dest = x.source
    · simp only [hd, if_true]
      omega
    · simp only [hd, if_true, if_false]
      omega
  · by_cases hd : x.dest = k
    · subst hd
      simp only [hs, Ne.symm hs, if_true, if_false, Nat.add_zero]
    · simp only [hs, hd, if_false]

theorem trans (h₁ : Balances l f g) (h₂ : Balances l' g h) : Balances (l ++ l') f h := by
  intro k
  have e₁ := h₁ k
  have e₂ := h₂ k
  rw [sent_append, received_append]
  omega

/-- Who takes no part keeps what they had. -/
theorem frame (hb : Balances l f g) (hk : ∀ x ∈ l, x.source ≠ k ∧ x.dest ≠ k) : g k = f k := by
  have := hb k
  rwa [sent_eq_zero fun x hx => (hk x hx).1, received_eq_zero fun x hx => (hk x hx).2] at this

/-- Who sends all they had, and receives nothing, is left with nothing. -/
theorem emptied (hb : Balances l f g) (hx : x ∈ l) (hall : x.amount = f x.source)
    (hno : ∀ y ∈ l, y.dest ≠ x.source) :
    g x.source = 0 := by
  have hsum := hb x.source
  have hle := le_sent hx
  rw [received_eq_zero hno] at hsum
  omega

theorem sum_sent (hF : ∀ x ∈ l, x.source ∈ F) : ∑ k ∈ F, sent l k = (l.map amount).sum := by
  induction l with
  | nil => simp [sent]
  | cons x l ih =>
    simp only [sent_cons, Finset.sum_add_distrib, ih fun x hx => hF x (List.mem_cons_of_mem _ hx),
      List.map_cons, List.sum_cons, Finset.sum_ite_eq, hF x List.mem_cons_self, if_true]

theorem sum_received (hF : ∀ x ∈ l, x.dest ∈ F) : ∑ k ∈ F, received l k = (l.map amount).sum := by
  induction l with
  | nil => simp [received]
  | cons x l ih =>
    simp only [received_cons, Finset.sum_add_distrib, ih fun x hx => hF x (List.mem_cons_of_mem _ hx),
      List.map_cons, List.sum_cons, Finset.sum_ite_eq, hF x List.mem_cons_self, if_true]

/-- **Nothing is made or lost.** -/
theorem total (hb : Balances l f g) (hF : ∀ x ∈ l, x.source ∈ F ∧ x.dest ∈ F) :
    ∑ k ∈ F, g k = ∑ k ∈ F, f k := by
  have hsum := Finset.sum_congr (rfl : F = F) fun k _ => hb k
  rw [Finset.sum_add_distrib, Finset.sum_add_distrib, sum_sent fun x hx => (hF x hx).1,
    sum_received fun x hx => (hF x hx).2] at hsum
  omega

end Balances

end Transfer
