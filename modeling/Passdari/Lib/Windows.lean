/-
Counters that start again. A counter takes a hit while it is below its limit,
and is set back to nothing once a fixed time has gone by since it last
started; it may also be renewed, which sets it back to zero at any time.

Such a counter limits each of its own windows and no other stretch of time:
hits before and after a restart lie as close together as they like. Over any
stretch as long as a window there are at most two windows' worth of them, and
one more for every renewal.
-/
import Mathlib.Tactic.Common

/-- When a counter last started, and the hits since. -/
structure Window where
  start : Int
  count : Nat
  deriving DecidableEq

namespace Window

/-- The counter as it stands at a moment: started again, if its time is over. -/
def due (len now : Int) (w : Window) : Window := if len ≤ now - w.start then ⟨now, 0⟩ else w

def hit (w : Window) : Window := { w with count := w.count + 1 }

/-- A renewed counter. -/
def blank : Window := ⟨0, 0⟩

/-- One for a moment in the stretch of the length `len` from `t`, and nothing for another. -/
def within (t len now : Int) : Nat := if t ≤ now ∧ now < t + len then 1 else 0

variable {t len now now' : Int} {limit n r : Nat} {w : Window}

/-- What is known at a moment of a counter that took `n` hits and was renewed `r` times in the stretch of a
window's length from `t`. While the stretch lasts, either the counter has not started again in it, or it has,
and will not do so with anything to lose a second time. -/
structure Tally (t len : Int) (limit : Nat) (now : Int) (w : Window) (n r : Nat) : Prop where
  started : 0 ≤ w.start
  early : now < t → n = 0
  bound : n ≤ limit * (r + 2)
  inside : now < t + len → n ≤ limit * r + min w.count limit ∨
    n ≤ limit * (r + 1) + min w.count limit ∧ len ≤ now ∧ (t ≤ w.start ∨ w = blank)

theorem due_of_over (h : len ≤ now - w.start) : w.due len now = ⟨now, 0⟩ := if_pos h

theorem due_of_running (h : ¬len ≤ now - w.start) : w.due len now = w := if_neg h

namespace Tally

/-- Before anything has happened. -/
theorem start (h0 : 0 ≤ w.start) : Tally t len limit now w 0 r :=
  ⟨h0, fun _ => rfl, Nat.zero_le _, fun _ => .inl (Nat.zero_le _)⟩

/-- Once the stretch is over only the bound is left to know. -/
theorem lapsed (h0 : 0 ≤ w.start) (hlen : 0 ≤ len) (hb : n ≤ limit * (r + 2)) (hover : t + len ≤ now) :
    Tally t len limit now w n r :=
  ⟨h0, fun h => (by omega), hb, fun h => (by omega)⟩

theorem later (h : Tally t len limit now w n r) (hle : now ≤ now') : Tally t len limit now' w n r := by
  refine ⟨h.started, fun hl => h.early (by omega), h.bound, fun hl => ?_⟩
  rcases h.inside (by omega) with hn | ⟨hn, hnow, hw⟩
  · exact .inl hn
  · exact .inr ⟨hn, by omega, hw⟩

theorem started_due (h : Tally t len limit now w n r) (hlen : 0 ≤ len) : 0 ≤ (w.due len now).start := by
  have := h.started
  unfold due
  split
  · simp only
    omega
  · exact this

/-- **A hit**, on a counter below its limit. -/
theorem hit (h : Tally t len limit now w n r) (hlen : 0 ≤ len) (hroom : (w.due len now).count < limit) :
    Tally t len limit now (w.due len now).hit (n + within t len now) r := by
  have hstarted : 0 ≤ (w.due len now).hit.start := h.started_due hlen
  by_cases hin : t ≤ now ∧ now < t + len
  · have hone : within t len now = 1 := if_pos hin
    rw [hone]
    have h0 := h.started
    suffices hafter : n + 1 ≤ limit * r + min (w.due len now).hit.count limit ∨
        n + 1 ≤ limit * (r + 1) + min (w.due len now).hit.count limit ∧ len ≤ now ∧
          (t ≤ (w.due len now).hit.start ∨ (w.due len now).hit = blank) by
      refine ⟨hstarted, fun hl => (by omega), ?_, fun _ => hafter⟩
      have h1 : limit * (r + 1) = limit * r + limit := Nat.mul_succ limit r
      have h2 : limit * (r + 2) = limit * (r + 1) + limit := Nat.mul_succ limit (r + 1)
      omega
    by_cases hdue : len ≤ now - w.start
    · -- it starts again here, for the first time or with nothing to lose
      have hw : w.due len now = ⟨now, 0⟩ := due_of_over hdue
      rw [hw] at hroom ⊢
      simp only [Window.hit] at hroom ⊢
      have h1 : limit * (r + 1) = limit * r + limit := Nat.mul_succ limit r
      refine .inr ⟨?_, by omega, .inl hin.1⟩
      rcases h.inside hin.2 with hn | ⟨hn, -, hts | hblank⟩
      · omega
      · omega
      · rw [hblank] at hn
        simp only [blank] at hn
        omega
    · have hw : w.due len now = w := due_of_running hdue
      rw [hw] at hroom ⊢
      simp only [Window.hit] at hroom ⊢
      rcases h.inside hin.2 with hn | ⟨hn, hnow, hts | hblank⟩
      · exact .inl (by omega)
      · exact .inr ⟨by omega, hnow, .inl hts⟩
      · rw [hblank] at hdue
        simp only [blank] at hdue
        omega
  · have hnone : within t len now = 0 := if_neg hin
    rw [hnone, Nat.add_zero]
    by_cases hearly : now < t
    · rw [h.early hearly]
      exact start hstarted
    · exact lapsed hstarted hlen h.bound (by omega)

/-- **A renewal.** -/
theorem renew (h : Tally t len limit now w n r) (hlen : 0 ≤ len) :
    Tally t len limit now blank n (r + within t len now) := by
  have h0 : (0 : Int) ≤ blank.start := Int.le_refl 0
  by_cases hin : t ≤ now ∧ now < t + len
  · have hone : within t len now = 1 := if_pos hin
    rw [hone]
    have h1 : limit * (r + 1) = limit * r + limit := Nat.mul_succ limit r
    have h2 : limit * (r + 2) = limit * (r + 1) + limit := Nat.mul_succ limit (r + 1)
    have h3 : limit * (r + 1 + 2) = limit * (r + 2) + limit := Nat.mul_succ limit (r + 2)
    have hb := h.bound
    refine ⟨h0, fun hl => (by omega), by omega, fun _ => ?_⟩
    rcases h.inside hin.2 with hn | ⟨hn, hnow, -⟩
    · refine .inl ?_
      omega
    · have hnext : n ≤ limit * (r + 2) := by omega
      exact .inr ⟨Nat.le_add_right_of_le hnext, hnow, .inr rfl⟩
  · have hnone : within t len now = 0 := if_neg hin
    rw [hnone, Nat.add_zero]
    by_cases hearly : now < t
    · rw [h.early hearly]
      exact start h0
    · exact lapsed h0 hlen h.bound (by omega)

end Tally

end Window
