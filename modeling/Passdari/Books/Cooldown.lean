/-
Stamps are a while apart. A card carries the time of its last claim, so that
the next one is compared with it; a card that was closed in between had been
idle for far longer. The time zero stands for a card that has no stamp yet.
-/
import Passdari.Books.RateLimits

namespace Passdari

open Wire Token2022

variable {P : Platform} {s s' start : State} {hist : History} {c : Call} {cs : List Change}
  {calls : List TokenCall} {ps : List Payment} {a : Address}

/-- The time of the newest claim on the card `a`. -/
def lastClaim (a : Address) (hist : History) : Option Int64 :=
  (hist.find? fun st => st.label.action.claimsOn a).map fun st => st.label.tx.now

/-- The two claims on the card `a` are a cooldown apart, unless the first was at the time zero. -/
def Spaced (a : Address) (newer older : Taken) : Prop :=
  newer.label.action.claimsOn a = true → older.label.action.claimsOn a = true →
    older.label.tx.now ≠ 0 →
    older.label.tx.now.toInt + stampCooldownSeconds.toInt ≤ newer.label.tx.now.toInt

theorem lastClaim_cons_true {st : Taken} (h : st.label.action.claimsOn a = true) :
    lastClaim a (st :: hist) = some st.label.tx.now := by
  simp only [lastClaim, List.find?_cons, h, Option.map_some]

theorem lastClaim_cons_false {st : Taken} (h : st.label.action.claimsOn a = false) :
    lastClaim a (st :: hist) = lastClaim a hist := by
  simp only [lastClaim, List.find?_cons, h]

/-- Of a clock that never runs backwards, the newest time is the latest. -/
theorem le_lastClaim : ∀ {hist : History} {t : Int64}, ClockKept hist → lastClaim a hist = some t →
    ∀ st ∈ hist, st.label.action.claimsOn a = true → st.label.tx.now.toInt ≤ t.toInt
  | [], _, _, _, _, hst, _ => by cases hst
  | first :: hist, t, hclock, ht, st, hst, hclaim => by
    obtain ⟨hpast, hclock⟩ := List.pairwise_cons.mp hclock
    cases hfirst : first.label.action.claimsOn a with
    | true =>
      rw [lastClaim_cons_true hfirst, Option.some.injEq] at ht
      subst ht
      rcases List.mem_cons.mp hst with rfl | hst
      · exact Int.le_refl _
      · exact hpast st hst
    | false =>
      rw [lastClaim_cons_false hfirst] at ht
      rcases List.mem_cons.mp hst with rfl | hst
      · rw [hfirst] at hclaim
        cases hclaim
      · exact le_lastClaim hclock ht st hst hclaim

/-- Of claims that are a cooldown apart, all but the newest lie a cooldown before it. -/
theorem spaced_lastClaim : ∀ {hist : History} {t : Int64}, hist.Pairwise (Spaced a) →
    lastClaim a hist = some t → ∀ st ∈ hist, st.label.action.claimsOn a = true → st.label.tx.now ≠ 0 →
      st.label.tx.now = t ∨ st.label.tx.now.toInt + stampCooldownSeconds.toInt ≤ t.toInt
  | [], _, _, _, _, hst, _, _ => by cases hst
  | first :: hist, t, hspaced, ht, st, hst, hclaim, h0 => by
    obtain ⟨hfirsts, hspaced⟩ := List.pairwise_cons.mp hspaced
    cases hfirst : first.label.action.claimsOn a with
    | true =>
      rw [lastClaim_cons_true hfirst, Option.some.injEq] at ht
      subst ht
      rcases List.mem_cons.mp hst with rfl | hst
      · exact .inl rfl
      · exact .inr (hfirsts st hst hfirst hclaim h0)
    | false =>
      rw [lastClaim_cons_false hfirst] at ht
      rcases List.mem_cons.mp hst with rfl | hst
      · rw [hfirst] at hclaim
        cases hclaim
      · exact spaced_lastClaim hspaced ht st hst hclaim h0

/-- What is known of the claims on the card `a`: the card has the time of the last; and once the card is gone
they all lie a cooldown back. -/
structure Cooled (a : Address) (hist : History) (s : State) : Prop where
  card : ∀ x, s.card? a = some x → lastClaim a hist = some x.lastStampTs
  gone : s.card? a = none → ∀ st ∈ hist, st.label.action.claimsOn a = true → ∀ now, Present hist now →
    st.label.tx.now.toInt + stampCooldownSeconds.toInt ≤ now

/-- **A card knows when its last stamp was.** -/
theorem Step.cooled (hw : s.WellPlaced) (hcur : s.Current) (hclock : ClockKept (⟨s, c, s'⟩ :: hist))
    (hi : Cooled a hist s) (h : Step P s c s' cs calls ps) : Cooled a (⟨s, c, s'⟩ :: hist) s' := by
  obtain ⟨hpast, hkept⟩ := List.pairwise_cons.mp hclock
  cases hclaim : c.action.claimsOn a with
  | true =>
    obtain ⟨tx, action⟩ := c
    obtain ⟨accs, secret, rfl, rfl⟩ := Action.claimsOn_eq_true.mp hclaim
    obtain ⟨b, r, y, bump, -, -, -, -, -, -, -, hok, hy, -⟩ := h.claimReceipt hw
    refine ⟨fun x hx => ?_, fun hnone => ?_⟩
    · rw [hy, Option.some.injEq] at hx
      rw [lastClaim_cons_true hclaim, ← hx, (stampCard_hit hok).2.2]
    · rw [hy] at hnone
      cases hnone
  | false =>
    have hbefore : ∀ {st}, st ∈ (⟨s, c, s'⟩ :: hist : History) → st.label.action.claimsOn a = true →
      st ∈ hist := by
      intro st hst hst'
      rcases List.mem_cons.mp hst with rfl | hst
      · rw [hclaim] at hst'
        cases hst'
      · exact hst
    refine ⟨fun y hy => ?_, fun hgone st hst hst' now hnow => ?_⟩
    · obtain ⟨x, hx, -, hlast⟩ := h.card_window_kept hw hcur hclaim hy
      rw [lastClaim_cons_false hclaim, hlast]
      exact hi.card x hx
    · have hst := hbefore hst hst'
      cases hx : s.card? a with
      | none => exact hi.gone hx st hst hst' now fun st' hmem => hnow st' (List.mem_cons_of_mem _ hmem)
      | some x =>
        -- the card is closed by this step, a year after its last stamp
        have hle := le_lastClaim hkept (hi.card x hx) st hst hst'
        have hyear := h.card_closed_idle hw hx hgone
        have hlate : c.tx.now.toInt ≤ now := hnow _ List.mem_cons_self
        have h1 : cardDeadSeconds.toInt = 31536000 := by decide
        have h2 : stampCooldownSeconds.toInt = 60 := by decide
        omega

theorem Step.claim_spaced (hw : s.WellPlaced) (hclock : ClockKept (⟨s, c, s'⟩ :: hist)) (hi : Cooled a hist s)
    (hspaced : hist.Pairwise (Spaced a)) (h : Step P s c s' cs calls ps) :
    ∀ older ∈ hist, Spaced a ⟨s, c, s'⟩ older := by
  intro older hmem hclaim holder hne
  obtain ⟨hpast, hkept⟩ := List.pairwise_cons.mp hclock
  obtain ⟨tx, action⟩ := c
  obtain ⟨accs, secret, rfl, rfl⟩ := Action.claimsOn_eq_true.mp hclaim
  obtain ⟨b, r, y, bump, -, -, -, -, -, -, -, hok, -⟩ := h.claimReceipt hw
  cases hx : s.card? accs.card with
  | none => exact hi.gone hx older hmem holder _ hpast
  | some x =>
    rw [hx] at hok
    have hlast := le_lastClaim hkept (hi.card x hx) older hmem holder
    rcases checkCooldown_eq_ok (stampCard_eq_ok hok).1 with h0 | ⟨since, hsince, hcool⟩
    -- the card passes for a new one, as its last stamp was at the time zero; the older one was before that
    · rcases spaced_lastClaim hspaced (hi.card x hx) older hmem holder hne with hlatest | hbefore
      · exact absurd (hlatest.trans h0) hne
      · obtain ⟨last, hlast, hat⟩ := Option.map_eq_some_iff.mp (hi.card x hx)
        have hle := hpast last (List.mem_of_find?_eq_some hlast)
        rw [hat] at hle
        exact Int.le_trans hbefore hle
    · have hcool := Int64.le_iff_toInt_le.mp hcool
      have : since.toInt = tx.now.toInt - x.lastStampTs.toInt := hsince
      show older.label.tx.now.toInt + stampCooldownSeconds.toInt ≤ tx.now.toInt
      omega

/-- **Stamps are a cooldown apart.** A live card carries the time of the last claim on it; and any two claims
on one card, also when it was closed and opened again between them, are a cooldown apart, unless the first was
at the time zero, which stands for none. -/
theorem claims_spaced (h : Run P start hist s) (hs : start.Empty) (hclock : ClockKept hist) (a : Address) :
    (∀ x, s.card? a = some x → lastClaim a hist = some x.lastStampTs) ∧ hist.Pairwise (Spaced a) := by
  have hboth := h.induct_empty (I := fun hist s => ClockKept hist → Cooled a hist s ∧
    hist.Pairwise (Spaced a))
    hs ?_ ?_ hclock
  · exact ⟨hboth.1.card, hboth.2⟩
  · intro _
    refine ⟨⟨fun x hx => ?_, fun _ st hst => ?_⟩, .nil⟩
    · rw [State.card?, State.record?, hs.program] at hx
      cases hx
    · cases hst
  · intro hist s c s' cs calls ps _ hw hcur hi hst hclock
    obtain ⟨hcooled, hspaced⟩ := hi (List.pairwise_cons.mp hclock).2
    exact ⟨hst.cooled hw hcur hclock hcooled,
      List.pairwise_cons.mpr ⟨hst.claim_spaced hw hclock hcooled hspaced, hspaced⟩⟩

/-- Two stamps on one card, a minute apart. -/
theorem claims_spaced_twice : ∃ hist s, Run Sample.platform Sample.start hist s ∧ hist.length = 5 ∧
    (s.card? (Sample.card 9)).isSome = true ∧
    (∀ x, s.card? (Sample.card 9) = some x → lastClaim (Sample.card 9) hist = some x.lastStampTs) ∧
    hist.Pairwise (Spaced (Sample.card 9)) := by
  obtain ⟨hist, s, hrun, hcalls, hp⟩ := Leads.run (P := Sample.platform) (s := Sample.start)
    (l := [Sample.register 1000 9 0, Sample.issue 1010 7, Sample.issue 1011 8, Sample.claim 1020 9 7,
      Sample.claim 1080 9 8])
    (p := fun s => (s.card? (Sample.card 9)).isSome) (by decide +kernel)
  have hclock : ClockKept hist := ClockKept.of_calls hcalls (by decide)
  exact ⟨hist, s, hrun, by simpa using congrArg List.length hcalls, hp,
    claims_spaced hrun Sample.start_empty hclock (Sample.card 9)⟩

end Passdari
