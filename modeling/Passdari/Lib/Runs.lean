/-
Runs of a transition system, kept with their history. A history is the list
of steps taken, newest first, each with the state before it, its label and
the state after it; a fact about a whole run is a fact about its history,
proved by one of the rules below from what one step does.
-/

namespace Runs

variable {S L : Type}

/-- One step taken: from `pre`, under `label`, to `post`. -/
structure Step (S L : Type) where
  pre : S
  label : L
  post : S

/-- The steps taken so far, newest first. -/
abbrev History (S L : Type) := List (Step S L)

/-- `Run next start hist s`: the steps of `hist`, each allowed by `next`, lead from `start` to `s`. -/
inductive Run (next : S → L → S → Prop) (start : S) : History S L → S → Prop
  | nil : Run next start [] start
  | step {hist s l s'} : Run next start hist s → next s l s' → Run next start (⟨s, l, s'⟩ :: hist) s'

namespace Run

variable {next : S → L → S → Prop} {start s : S} {hist : History S L}

/-- The invariant rule, for invariants that also speak of the history. -/
theorem induct (I : History S L → S → Prop) (hstart : I [] start)
    (hstep : ∀ {hist s l s'}, Run next start hist s → I hist s → next s l s' → I (⟨s, l, s'⟩ :: hist) s')
    (h : Run next start hist s) : I hist s := by
  induction h with
  | nil => exact hstart
  | step hr hn ih => exact hstep hr ih hn

theorem nil_inv (h : Run next start [] s) : s = start := by
  cases h
  rfl

/-- A run ends where its newest step ended. -/
theorem cons_inv {st : Step S L} (h : Run next start (st :: hist) s) :
    Run next start hist st.pre ∧ next st.pre st.label st.post ∧ s = st.post := by
  cases h with
  | step hr hn => exact ⟨hr, hn, rfl⟩

/-- A run passes through each of its steps: one run up to it, the step, one run on from it. -/
theorem split : ∀ {later earlier : History S L} {st : Step S L} {s : S},
    Run next start (later ++ st :: earlier) s →
    Run next start earlier st.pre ∧ next st.pre st.label st.post ∧ Run next st.post later s
  | [], earlier, st, s, h => by
    obtain ⟨hr, hn, rfl⟩ := h.cons_inv
    exact ⟨hr, hn, .nil⟩
  | newest :: later, earlier, st, s, h => by
    obtain ⟨hr, hn, rfl⟩ := h.cons_inv
    obtain ⟨he, hst, hl⟩ := split hr
    exact ⟨he, hst, hl.step hn⟩

theorem of_mem {st : Step S L} (h : Run next start hist s) (hst : st ∈ hist) :
    ∃ earlier later, hist = later ++ st :: earlier ∧ Run next start earlier st.pre ∧
      next st.pre st.label st.post ∧ Run next st.post later s := by
  obtain ⟨later, earlier, rfl⟩ := List.append_of_mem hst
  exact ⟨earlier, later, rfl, h.split⟩

/-- Two runs one after the other. -/
theorem append {mid : S} {later : History S L} (h₁ : Run next start hist mid) (h₂ : Run next mid later s) :
    Run next start (later ++ hist) s := by
  induction h₂ with
  | nil => exact h₁
  | step _ hn ih => exact ih.step hn

/-- The rule for going on: when from each state that has come `k` rounds far a run leads to one that has come
one round further, a run leads all `n` rounds far. -/
theorem rounds {I : Nat → History S L → S → Prop} {n : Nat} (hstart : I 0 [] start)
    (hround : ∀ {k later s}, k < n → Run next start later s → I k later s →
      ∃ round s', Run next s round s' ∧ I (k + 1) (round ++ later) s') :
    ∃ later s, Run next start later s ∧ I n later s := by
  induction n with
  | zero => exact ⟨[], start, .nil, hstart⟩
  | succ n ih =>
    obtain ⟨later, s, hrun, hi⟩ := ih fun hk => hround (Nat.lt_succ_of_lt hk)
    obtain ⟨round, s', hrun', hi'⟩ := hround (Nat.lt_succ_self n) hrun hi
    exact ⟨round ++ later, s', hrun.append hrun', hi'⟩

/-- What holds before every step of a run, proved from what holds of every state reached. -/
theorem forall_steps {P : Step S L → Prop} (h : Run next start hist s)
    (hP : ∀ {earlier : History S L} {st : Step S L}, Run next start earlier st.pre →
      next st.pre st.label st.post → P st) : ∀ st ∈ hist, P st := by
  intro st hst
  obtain ⟨_, _, _, he, hn, _⟩ := h.of_mem hst
  exact hP he hn

/-- What does not hold at first and holds at last came to hold in some step, and held ever since. -/
theorem exists_last_step_becoming {P : S → Prop} (h : Run next start hist s) (h0 : ¬P start) (h1 : P s) :
    ∃ later st earlier, hist = later ++ st :: earlier ∧ ¬P st.pre ∧ P st.post ∧
      ∀ x ∈ later, P x.pre ∧ P x.post := by
  induction h with
  | nil => exact absurd h1 h0
  | @step hist s l s' _ _ ih =>
    by_cases hp : P s
    · obtain ⟨later, st, earlier, rfl, hpre, hpost, hlater⟩ := ih hp
      refine ⟨⟨s, l, s'⟩ :: later, st, earlier, rfl, hpre, hpost, fun x hx => ?_⟩
      rcases List.mem_cons.mp hx with rfl | hx
      · exact ⟨hp, h1⟩
      · exact hlater x hx
    · exact ⟨[], ⟨s, l, s'⟩, hist, rfl, hp, h1, (by simp)⟩

theorem exists_step_becoming {P : S → Prop} (h : Run next start hist s) (h0 : ¬P start) (h1 : P s) :
    ∃ st ∈ hist, ¬P st.pre ∧ P st.post := by
  obtain ⟨later, st, earlier, rfl, hpre, hpost, -⟩ := h.exists_last_step_becoming h0 h1
  exact ⟨st, List.mem_append_right _ List.mem_cons_self, hpre, hpost⟩

end Run

end Runs
