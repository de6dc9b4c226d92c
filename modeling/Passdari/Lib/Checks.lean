/-
Fallible steps: what a successful sequence of them went through. A function
written with `do` and `check` is taken apart by `Except.bind_eq_ok` and
`check_eq_ok`, one check at a time, without unfolding anything else.
-/

namespace Except

variable {ε α β : Type}

theorem bind_eq_ok {x : Except ε α} {f : α → Except ε β} {b : β} :
    (x >>= f) = .ok b ↔ ∃ a, x = .ok a ∧ f a = .ok b := by
  cases x with
  | error e => exact ⟨fun h => (by cases h), fun ⟨_, h, _⟩ => (by cases h)⟩
  | ok a => exact ⟨fun h => ⟨a, rfl, h⟩, fun ⟨_, h, hf⟩ => (by cases h; exact hf)⟩

theorem pure_eq_ok {a b : α} : (pure a : Except ε α) = .ok b ↔ a = b :=
  ⟨fun h => (by cases h; rfl), fun h => h ▸ rfl⟩

/-- An optional step before the same continuation. -/
theorem ite_bind_eq_ok {p : Prop} [Decidable p] {x y : Except ε α} {f : α → Except ε β} {b : β} :
    (if p then x >>= f else y >>= f) = .ok b ↔ ∃ a, (if p then x else y) = .ok a ∧ f a = .ok b := by
  split <;> exact bind_eq_ok

theorem ok_bind {a : α} {f : α → Except ε β} : ((.ok a : Except ε α) >>= f) = f a := rfl

theorem error_bind {e : ε} {f : α → Except ε β} : ((.error e : Except ε α) >>= f) = .error e := rfl

/-! ## Failures that cannot happen -/

/-- The step does not fail with `e`. -/
def Avoids (e : ε) (x : Except ε α) : Prop := x ≠ .error e

variable {e : ε} {x : Except ε α} {f : α → Except ε β}

/-- A sequence fails with `e` only where one of its steps does. -/
theorem Avoids.bind (hx : x.Avoids e) (hf : ∀ a, x = .ok a → (f a).Avoids e) : (x >>= f).Avoids e := by
  intro h
  cases x with
  | error e' => exact hx (by cases h; rfl)
  | ok a => exact hf a rfl h

theorem Avoids.ite {p : Prop} [Decidable p] {y : Except ε α} (hx : x.Avoids e) (hy : y.Avoids e) :
    (if p then x else y).Avoids e := by
  split
  · exact hx
  · exact hy

/-- Where a sequence fails and its first step cannot have, a later one did. -/
theorem Avoids.of_bind_error (hx : x.Avoids e) (h : (x >>= f) = .error e) :
    ∃ a, x = .ok a ∧ f a = .error e := by
  cases x with
  | error e' => exact absurd (by cases h; rfl) hx
  | ok a => exact ⟨a, rfl, h⟩

theorem avoids_ok (a : α) : (.ok a : Except ε α).Avoids e := fun h => by cases h

theorem avoids_pure (a : α) : (pure a : Except ε α).Avoids e := fun h => by cases h

theorem avoids_error {e' : ε} (h : e' ≠ e) : (.error e' : Except ε α).Avoids e :=
    fun he => by cases he; exact h rfl

end Except

/-- Goes on when `p` holds, fails with `e` when it does not. -/
def check {ε : Type} (p : Prop) [Decidable p] (e : ε) : Except ε Unit := if p then .ok () else .error e

section

variable {ε α : Type} {p : Prop} [Decidable p] {e : ε}

theorem check_eq_ok {u : Unit} : check p e = .ok u ↔ p := by
  unfold check
  split
  · next h => exact ⟨fun _ => h, fun _ => rfl⟩
  · next h => exact ⟨fun hc => (by cases hc), fun hp => absurd hp h⟩

theorem check_pos (h : p) : check p e = .ok () := if_pos h

theorem check_neg (h : ¬p) : check p e = .error e := if_neg h

/-- A check failed exactly when its condition does not hold, and with its own error. -/
theorem check_eq_error {e' : ε} : check p e = .error e' ↔ ¬p ∧ e = e' := by
  unfold check
  split
  · next h => exact ⟨fun hc => (by cases hc), fun ⟨hn, _⟩ => absurd h hn⟩
  · next h => exact ⟨fun hc => (by cases hc; exact ⟨h, rfl⟩), fun ⟨_, he⟩ => he ▸ rfl⟩

theorem check_avoids {e' : ε} (h : e ≠ e') : (check p e).Avoids e' := fun hc => h (check_eq_error.mp hc).2

/-- A value that has to be there. -/
def demand (o : Option α) (e : ε) : Except ε α := o.elim (.error e) .ok

theorem demand_eq_ok {o : Option α} {a : α} : demand o e = .ok a ↔ o = some a := by
  cases o with
  | none => exact ⟨fun h => (by cases h), fun h => (by cases h)⟩
  | some b => exact ⟨fun h => (by cases h; rfl), fun h => (by cases h; rfl)⟩

theorem demand_eq_error {o : Option α} {e' : ε} : demand o e = .error e' ↔ o = none ∧ e = e' := by
  cases o with
  | none => exact ⟨fun h => (by cases h; exact ⟨rfl, rfl⟩), fun h => h.2 ▸ rfl⟩
  | some b => exact ⟨fun h => (by cases h), fun h => (by cases h.1)⟩

theorem demand_avoids {o : Option α} {e' : ε} (h : e ≠ e') : (demand o e).Avoids e' :=
  fun hd => h (demand_eq_error.mp hd).2

end
