/-
Moving a shop's commitment. The rules for a date say that a promise may
always be prolonged, and shortened with two weeks' notice; but an edit is
only accepted once the promise has run out, so while it runs neither is.
-/
import Passdari.Books.CleanUp
import Passdari.Books.Settings

namespace Passdari

open Wire Token2022

variable {P : Platform} {tx : Tx} {s start : State} {hist : History} {b : Business} {now lock p : Int64}

/-- A date at most a year ahead that prolongs the promise, or comes with two weeks' notice. -/
def Extends (now lock p : Int64) : Prop :=
  now.toInt ≤ p.toInt ∧ p.toInt - now.toInt ≤ maxTermsLockSeconds.toInt ∧
    (lock.toInt ≤ p.toInt ∨ minTermsNoticeSeconds.toInt ≤ p.toInt - now.toInt)

/-- A date at most a year ahead that shortens the promise with less notice than that. -/
def ShortNotice (now lock p : Int64) : Prop :=
  p ≠ 0 ∧ now.toInt ≤ p.toInt ∧ p.toInt - now.toInt ≤ maxTermsLockSeconds.toInt ∧ p.toInt < lock.toInt ∧
    p.toInt - now.toInt < minTermsNoticeSeconds.toInt

/-- The edit keeps what is promised and proposes a date only. -/
structure KeepsTerms (args : UpdateBusinessConfigArgs) (b : Business) : Prop where
  rewardLabel : args.rewardLabel = b.rewardLabel
  stampsRequired : args.stampsRequired = b.stampsRequired
  minPurchaseAmount : args.minPurchaseAmount = b.minPurchaseAmount
  receiptTtlSeconds : args.receiptTtlSeconds = b.receiptTtlSeconds

/-- The promise can be moved: the edit goes through where it prolongs or gives notice, and is refused for
short notice exactly where it does not. -/
def Movable (P : Platform) (s : State) (tx : Tx) (accs : UpdateBusinessConfig)
    (args : UpdateBusinessConfigArgs)
    (b : Business) : Prop :=
  (Extends tx.now b.termsLockedUntil args.termsLockedUntil →
    ∃ s' b', updateBusinessConfig P tx accs args s = .ok s' ∧ s'.business? accs.business = some b' ∧
      b'.termsLockedUntil = args.termsLockedUntil) ∧
  (updateBusinessConfig P tx accs args s = .error (.code .termsNoticeTooShort) ↔
    ShortNotice tx.now b.termsLockedUntil args.termsLockedUntil)

theorem updateBusinessConfig_locked {accs : UpdateBusinessConfig} {args : UpdateBusinessConfigArgs}
    (hoff : s.OffCurve P) (hw : s.WellPlaced) (hb : s.business? accs.business = some b)
    (hauth : b.authority = accs.authority)
    (hsig : accs.authority ∈ tx.signers)
    (hset : SettingsOk b.name b.category args.rewardLabel args.stampsRequired args.receiptTtlSeconds)
    (hlock : tx.now < b.termsLockedUntil) :
    updateBusinessConfig P tx accs args s = .error (.code .rewardTermsLocked) := by
  have hrec := State.business?_eq_some.mp hb
  have hat := hw.business hrec
  have hown : ownBusiness P s accs.business accs.authority = .ok b :=
    ownBusiness_eq_ok.mpr ⟨hrec, createProgramAddress_eq_some.mpr ⟨hoff _ _ hrec, hauth ▸ hat⟩, hauth⟩
  have hhandler : updateBusinessConfigHandler tx.now args b = .error (.code .rewardTermsLocked) := by
    have hsettings : checkSettings b.name b.category args.rewardLabel args.stampsRequired
      args.receiptTtlSeconds = .ok () :=
      checkSettings_eq_ok.mpr hset
    simp only [updateBusinessConfigHandler, hsettings, require_neg (Int64.not_le.mpr hlock), Except.ok_bind,
      Except.error_bind]
  have hsigner : signer tx accs.authority = .ok () := check_pos hsig
  rw [updateBusinessConfig, hsigner, Except.ok_bind, hown, Except.ok_bind, hhandler, Except.error_bind]

/-- **A running promise cannot be moved**: what is said of prolonging it and of winding it down holds of an
edit exactly when it says nothing of the date proposed. -/
theorem running_promise_movable_iff {accs : UpdateBusinessConfig} {args : UpdateBusinessConfigArgs}
    (h : Run P start hist s) (hs : start.Empty) (hb : s.business? accs.business = some b)
    (hauth : b.authority = accs.authority)
    (hsig : accs.authority ∈ tx.signers) (hkeeps : KeepsTerms args b) (hlock : tx.now < b.termsLockedUntil) :
    Movable P s tx accs args b ↔ ¬Extends tx.now b.termsLockedUntil args.termsLockedUntil ∧
      ¬ShortNotice tx.now b.termsLockedUntil args.termsLockedUntil := by
  have hset : SettingsOk b.name b.category args.rewardLabel args.stampsRequired args.receiptTtlSeconds := by
    rw [hkeeps.rewardLabel, hkeeps.stampsRequired, hkeeps.receiptTtlSeconds]
    exact ((h.valid hs).1 _ _ hb).settings
  have hlocked := updateBusinessConfig_locked (h.offCurve hs) (Run.wellPlaced h hs.wellPlaced) hb hauth hsig
    hset hlock
  constructor
  · intro hex
    obtain ⟨hext, hshort⟩ := hex
    constructor
    · intro he
      obtain ⟨s', -, hok, -⟩ := hext he
      rw [hlocked] at hok
      cases hok
    · intro hn
      have := hshort.mpr hn
      rw [hlocked] at this
      cases this
  · intro hex
    obtain ⟨hext, hshort⟩ := hex
    refine ⟨fun he => absurd he hext, fun he => ?_, fun hn => absurd hn hshort⟩
    rw [hlocked] at he
    cases he

namespace Sample

def prolonging (date : Int64) : UpdateBusinessConfigArgs := ⟨rewardLabel, 1, 0, 600, date⟩

end Sample

theorem running_promise_movable_tried : ∃ hist s b, Run Sample.platform Sample.start hist s ∧
    s.business? Sample.shop = some b ∧
    (Movable Sample.platform s ⟨1010, [Sample.key 1]⟩ ⟨Sample.shop, Sample.key 1⟩ (Sample.prolonging 3000) b ↔
      ¬Extends 1010 b.termsLockedUntil 3000 ∧ ¬ShortNotice 1010 b.termsLockedUntil 3000) := by
  obtain ⟨hist, s, hrun, -, hp⟩ := Leads.run (P := Sample.platform) (s := Sample.start)
    (l := [Sample.register 1000 1 2000])
    (p := fun s => (s.business? Sample.shop).any fun b : Business => b.authority == Sample.key 1 &&
      b.rewardLabel == (Sample.prolonging 3000).rewardLabel && b.stampsRequired == 1 && b.minPurchaseAmount ==
      0 &&
      b.receiptTtlSeconds == 600 && decide (1010 < b.termsLockedUntil)) (by decide +kernel)
  obtain ⟨b, hb, hall⟩ := (Option.any_eq_true _ _).mp hp
  simp only [Bool.and_eq_true, beq_iff_eq, decide_eq_true_eq] at hall
  obtain ⟨⟨⟨⟨⟨hauth, hlabel⟩, hstamps⟩, hmin⟩, httl⟩, hlock⟩ := hall
  exact ⟨hist, s, b, hrun, hb, running_promise_movable_iff hrun Sample.start_empty hb hauth List.mem_cons_self
    ⟨hlabel.symm, hstamps.symm, hmin.symm, httl.symm⟩ hlock⟩

/-- **A shop that wants to stand by its offer for longer cannot say so**: with its promise running until 2000,
the same offer until 3000 is refused at 1010. -/
theorem longer_promise_refused : ∃ hist s b, Run Sample.platform Sample.start hist s ∧
    s.business? Sample.shop = some b ∧
    KeepsTerms (Sample.prolonging 3000) b ∧ 1010 < b.termsLockedUntil ∧ Extends 1010 b.termsLockedUntil 3000 ∧
    updateBusinessConfig Sample.platform ⟨1010, [Sample.key 1]⟩ ⟨Sample.shop, Sample.key 1⟩
    (Sample.prolonging 3000) s =
      .error (.code .rewardTermsLocked) := by
  obtain ⟨hist, s, hrun, -, hp⟩ := Leads.run (P := Sample.platform) (s := Sample.start)
    (l := [Sample.register 1000 1 2000])
    (p := fun s => (s.business? Sample.shop).any fun b : Business => b.authority == Sample.key 1 &&
      b.rewardLabel == (Sample.prolonging 3000).rewardLabel && b.stampsRequired == 1 && b.minPurchaseAmount ==
      0 &&
      b.receiptTtlSeconds == 600 && b.termsLockedUntil == 2000) (by decide +kernel)
  obtain ⟨b, hb, hall⟩ := (Option.any_eq_true _ _).mp hp
  simp only [Bool.and_eq_true, beq_iff_eq] at hall
  obtain ⟨⟨⟨⟨⟨hauth, hlabel⟩, hstamps⟩, hmin⟩, httl⟩, hlock⟩ := hall
  have hkeeps : KeepsTerms (Sample.prolonging 3000) b := ⟨hlabel.symm, hstamps.symm, hmin.symm, httl.symm⟩
  have hbefore : (1010 : Int64) < b.termsLockedUntil := by
    rw [hlock]
    decide
  refine ⟨hist, s, b, hrun, hb, hkeeps, hbefore, ?_, ?_⟩
  · rw [hlock]
    exact ⟨by decide, by decide, .inl (by decide)⟩
  · refine updateBusinessConfig_locked (hrun.offCurve Sample.start_empty)
      (Run.wellPlaced hrun Sample.start_empty.wellPlaced)
      hb hauth List.mem_cons_self ?_ hbefore
    rw [hkeeps.rewardLabel, hkeeps.stampsRequired, hkeeps.receiptTtlSeconds]
    exact ((Run.valid hrun Sample.start_empty).1 _ _ hb).settings

end Passdari
