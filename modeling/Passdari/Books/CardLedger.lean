/-
A card's own ledger. What a card has ever been credited, less what is on it,
is what its rewards have cost since it was opened; stamps passed from card
to card change neither side of that.
-/
import Passdari.Books.Cards

namespace Passdari

open Wire Token2022

variable {P : Platform} {s s' start : State} {hist : History} {c : Call} {cs : List Change}
  {calls : List TokenCall} {ps : List Payment} {a : Address} {st : Taken}

/-- What the step takes off the card at `a`, when it cashes that card in: the threshold of its round. -/
def consumedBy (a : Address) (st : Taken) : Option Nat :=
  match st.label.action with
  | .program (.mintVoucher accs _ _) =>
    if accs.card = a then (st.pre.card? a).map fun x => x.stampsRequiredSnapshot.toNat else none
  | _ => none

/-- The steps since the card at `a` was last opened: those it was there before. -/
def sinceOpened (a : Address) (hist : History) : History := hist.takeWhile fun st => (st.pre.card? a).isSome

/-- The thresholds the card at `a` was cashed in at since it was last opened, newest first. -/
def consumed (a : Address) (hist : History) : List Nat := (sinceOpened a hist).filterMap (consumedBy a)

/-- The ledger of a card that was cashed in at the thresholds `spent`. -/
structure LedgerOf (x : LoyaltyCard) (spent : List Nat) : Prop where
  lifetime : x.lifetimeStamps.toNat = x.stamps.toNat + spent.sum
  rewards : x.rewardsEarned.toNat = min spent.length (2 ^ 32 - 1)

theorem consumed_cons_none (h : st.pre.card? a = none) : consumed a (st :: hist) = [] := by
  rw [consumed, sinceOpened, List.takeWhile_cons, h]
  rfl

theorem consumed_cons_some (h : (st.pre.card? a).isSome = true) :
    consumed a (st :: hist) = (consumedBy a st).toList ++ consumed a hist := by
  rw [consumed, sinceOpened, List.takeWhile_cons, if_pos h, List.filterMap_cons]
  cases consumedBy a st <;> rfl

theorem consumedBy_eq_some {n : Nat} : consumedBy a st = some n ↔ ∃ accs voucherId uri x,
    st.label.action = .program (.mintVoucher accs voucherId uri) ∧ accs.card = a ∧ st.pre.card? a = some x ∧
    x.stampsRequiredSnapshot.toNat = n := by
  unfold consumedBy
  split
  · next accs voucherId uri h =>
    rw [h]
    constructor
    · intro hn
      split at hn
      · next ha =>
        obtain ⟨x, hx, rfl⟩ := Option.map_eq_some_iff.mp hn
        exact ⟨accs, voucherId, uri, x, rfl, ha, hx, rfl⟩
      · cases hn
    · intro hex
      obtain ⟨_, _, _, x, heq, ha, hx, rfl⟩ := hex
      cases heq
      rw [if_pos ha, hx]
      rfl
  · next h =>
    refine ⟨(by simp), ?_⟩
    intro hex
    obtain ⟨accs, voucherId, uri, x, hact, -⟩ := hex
    exact absurd hact (h accs voucherId uri)

/-- A stamp, a cash-in and a transfer each keep the ledger of the card. -/
theorem LedgerOf.stamped {now : Int64} {x y : LoyaltyCard} {spent : List Nat} (h : LedgerOf x spent)
    (hs : stampCard now x = .ok y) : LedgerOf y spent := by
  obtain ⟨-, _, _, stamps, lifetime, -, -, -, hst, hl, rfl⟩ := stampCard_eq_ok hs
  have := h.lifetime
  exact ⟨by simp only; omega, h.rewards⟩

theorem LedgerOf.cashedIn {b : Business} {x y : LoyaltyCard} {spent : List Nat} (h : LedgerOf x spent)
    (hc : cashIn b x = .ok y) : LedgerOf y (x.stampsRequiredSnapshot.toNat :: spent) := by
  obtain ⟨stamps, hst, rfl⟩ := cashIn_eq_ok hc
  have hl := h.lifetime
  have hr := h.rewards
  constructor
  · simp only [List.sum_cons]
    omega
  · simp only [toNat_satAddU32, List.length_cons, hr, UInt32.toNat_one]
    omega

theorem LedgerOf.transferred {amount : UInt8} {x x' y y' : LoyaltyCard}
    (h : transferStampsHandler amount x y = .ok (x', y')) :
    (∀ {spent}, LedgerOf x spent → LedgerOf x' spent) ∧ ∀ {spent}, LedgerOf y spent → LedgerOf y' spent := by
  obtain ⟨-, cs, cl, ds, dl, hcs, hcl, hds, hdl, rfl, rfl⟩ := transferStampsHandler_eq_ok h
  constructor
  · intro spent hl
    have := hl.lifetime
    exact ⟨by simp only; omega, hl.rewards⟩
  · intro spent hl
    have := hl.lifetime
    exact ⟨by simp only; omega, hl.rewards⟩

/-- **Every card's ledger is exact.** -/
theorem Run.ledger (h : Run P start hist s) (hs : start.Empty) :
    ∀ a x, s.card? a = some x → LedgerOf x (consumed a hist) := by
  refine h.induct_empty (I := fun hist s => ∀ a x, s.card? a = some x → LedgerOf x (consumed a hist)) hs ?_ ?_
  · intro a x hx
    rw [State.card?, State.record?, hs.program] at hx
    cases hx
  · intro hist s c s' cs calls ps hr hw hcur hi hst a y hy
    cases hcons : consumedBy a ⟨s, c, s'⟩ with
    | some n =>
      obtain ⟨accs, voucherId, uri, x, hact, rfl, hx, rfl⟩ := consumedBy_eq_some.mp hcons
      obtain ⟨tx, action⟩ := c
      subst hact
      obtain ⟨_, x₀, _, z, _, _, -, hx₀, -, -, -, -, -, hok, -, ⟨_, hz⟩, -⟩ := hst.mintVoucher
      obtain ⟨-, -, hcash, -⟩ := mintVoucherHandler_eq_ok hok
      have hx : s.card? accs.card = some x := hx
      rw [hx, Option.some.injEq] at hx₀
      subst hx₀
      rw [hy, Option.some.injEq] at hz
      rw [consumed_cons_some (by simp only [hx]; rfl), hcons]
      have hl := (hi _ x hx).cashedIn hcash
      subst hz
      exact ⟨hl.lifetime, hl.rewards⟩
    | none =>
      have hkeep : ∀ x, s.card? a = some x → (LedgerOf x (consumed a hist) → LedgerOf y (consumed a hist)) →
          LedgerOf y (consumed a (⟨s, c, s'⟩ :: hist)) := by
        intro x hx hxy
        rw [consumed_cons_some (by simp only [hx]; rfl), hcons]
        exact hxy (hi a x hx)
      rcases hst.card hw a with hsame | hch
      · exact hkeep y (hsame.symm.trans hy) id
      have hm := hst.effect.not_migration hcur
      obtain ⟨tx, action⟩ := c
      rw [hy] at hch
      generalize hbefore : s.card? a = before at hch hkeep
      cases hch with
      | stamped _ _ _ _ _ _ _ hst =>
        cases before with
        | none =>
          rw [consumed_cons_none hbefore]
          exact LedgerOf.stamped ⟨rfl, rfl⟩ hst
        | some x => exact hkeep x rfl fun hl => hl.stamped hst
      | sent _ _ _ _ hok => exact hkeep _ rfl (LedgerOf.transferred hok).1
      | received _ _ _ hok => exact hkeep _ rfl (LedgerOf.transferred hok).2
      | cashedIn hadr =>
        exact absurd (consumedBy_eq_some.mpr ⟨_, _, _, _, rfl, hadr, hbefore, rfl⟩)
          (by rw [hcons]; exact (by simp))
      | nftRetired => exact hkeep _ rfl fun hl => ⟨hl.lifetime, hl.rewards⟩
      | migrated => exact absurd rfl (hm.1 _)

/-- A transfer between cards keeps every card, and its ledger. -/
theorem Step.transferred (hw : s.WellPlaced) (h : Step P s c s' cs calls ps) {accs amount}
    (hact : c.action = .program (.transferStamps accs amount)) {x : LoyaltyCard} {spent : List Nat}
    (hx : s.card? a = some x) (hl : LedgerOf x spent) : ∃ y, s'.card? a = some y ∧ LedgerOf y spent := by
  obtain ⟨tx, action⟩ := c
  subst hact
  rcases h.card hw a with hsame | hch
  · exact ⟨x, hsame.trans hx, hl⟩
  rw [hx] at hch
  generalize s'.card? a = after at hch
  cases hch with
  | sent _ _ _ _ hok => exact ⟨_, rfl, (LedgerOf.transferred hok).1 hl⟩
  | received _ _ _ hok => exact ⟨_, rfl, (LedgerOf.transferred hok).2 hl⟩

theorem Run.transferred (h : Run P start hist s) (hw : start.WellPlaced) (htr : ∀ st ∈ hist, ∃ accs amount,
    st.label.action = .program (.transferStamps accs amount)) {x : LoyaltyCard} {spent : List Nat}
    (hx : start.card? a = some x) (hl : LedgerOf x spent) : ∃ y, s.card? a = some y ∧ LedgerOf y spent := by
  induction hist generalizing s with
  | nil =>
    obtain rfl := h.nil_inv
    exact ⟨x, hx, hl⟩
  | cons st hist ih =>
    obtain ⟨hr, hn, rfl⟩ := h.cons_inv
    obtain ⟨y, hy, hly⟩ := ih hr fun st hst => htr st (List.mem_cons_of_mem _ hst)
    have hw' := Run.wellPlaced hr hw
    obtain ⟨_, _, _, hst⟩ := hn.step hw'
    obtain ⟨accs, amount, hact⟩ := htr st List.mem_cons_self
    exact hst.transferred hw' hact hy hly

/-- A card whose lifetime covers its stamps refuses a transfer for want of stamps only when it has too few. -/
theorem transferStampsHandler_refused {amount : UInt8} {x y : LoyaltyCard}
    (hle : x.stamps.toNat ≤ x.lifetimeStamps.toNat)
    (h : transferStampsHandler amount x y = .error (.code .notEnoughStamps)) : x.stamps < amount := by
  by_contra hlt
  have hle' := UInt8.le_iff_toNat_le.mp (UInt8.not_lt.mp hlt)
  have hmoved : UInt32.ofNat amount.toNat ≤ x.lifetimeStamps := by
    rw [UInt32.le_iff_toNat_le, UInt32.toNat_ofNat_of_lt' (Nat.lt_trans amount.toNat_lt (by decide))]
    omega
  obtain ⟨n, hn⟩ : ∃ n, subU8 x.stamps amount = .ok n :=
    ⟨x.stamps - amount, subU8_eq_ok.mpr (by rw [UInt8.toNat_sub_of_le _ _ (UInt8.not_lt.mp hlt)]; omega)⟩
  simp only [transferStampsHandler, require_pos (UInt8.not_lt.mp hlt), hn, require_pos hmoved, Except.ok_bind]
    at h
  by_cases hpos : 0 < amount
  · rw [require_pos hpos, Except.ok_bind] at h
    by_cases hroom : y.stamps.toNat + amount.toNat < 2 ^ 8
    · rw [require_pos hroom, Except.ok_bind] at h
      by_cases hlroom : y.lifetimeStamps.toNat + (UInt32.ofNat amount.toNat).toNat < 2 ^ 32
      · rw [require_pos hlroom] at h
        cases h
      · rw [require_neg hlroom] at h
        cases h
    · rw [require_neg hroom] at h
      cases h
  · rw [require_neg hpos] at h
    cases h

/-- **A card's own ledger is exact, and transfers cannot fake rewards.** What a card was ever credited covers
its stamps, and the difference is what its cash-ins have cost since it was opened, as many as it counts;
transfers leave both alone, and the check of `lifetime_stamps` in them never fails. -/
theorem card_ledger_exact (h : Run P start hist s) (hs : start.Empty) :
    (∀ a x, s.card? a = some x → x.stamps.toNat ≤ x.lifetimeStamps.toNat ∧
      x.lifetimeStamps.toNat - x.stamps.toNat = (consumed a hist).sum ∧
      x.rewardsEarned.toNat = min (consumed a hist).length (2 ^ 32 - 1)) ∧
    (∀ later s', Run P s later s' →
      (∀ st ∈ later, ∃ accs amount, st.label.action = .program (.transferStamps accs amount)) →
      ∀ a x, s.card? a = some x → ∃ y, s'.card? a = some y ∧
        y.lifetimeStamps.toNat - y.stamps.toNat = x.lifetimeStamps.toNat - x.stamps.toNat ∧
        y.rewardsEarned = x.rewardsEarned) ∧
    ∀ a x y amount, s.card? a = some x → transferStampsHandler amount x y = .error (.code .notEnoughStamps) →
      x.stamps < amount := by
  have hledger := h.ledger hs
  have hle : ∀ a x, s.card? a = some x → x.stamps.toNat ≤ x.lifetimeStamps.toNat := fun a x hx => by
    have := (hledger a x hx).lifetime
    omega
  refine ⟨fun a x hx => ?_, fun later s' hlater htr a x hx => ?_, fun a x y amount hx hok =>
    transferStampsHandler_refused (hle a x hx) hok⟩
  · have hl := hledger a x hx
    have := hl.lifetime
    exact ⟨hle a x hx, by omega, hl.rewards⟩
  · have hl := hledger a x hx
    obtain ⟨y, hy, hly⟩ := Run.transferred hlater (h.wellPlaced hs.wellPlaced) htr hx hl
    have := hl.lifetime
    have := hly.lifetime
    exact ⟨y, hy, by omega, UInt32.toNat_inj.mp (hly.rewards.trans hl.rewards.symm)⟩

/-- A card with one stamp that was cashed in at one stamp. -/
theorem card_ledger_exact_cashed_in : ∃ hist s x, Run Sample.platform Sample.start hist s ∧
    s.card? (Sample.card 9) = some x ∧ x.rewardsEarned = 1 ∧ (consumed (Sample.card 9) hist).sum = 1 := by
  obtain ⟨hist, s, hrun, -, hp⟩ := Leads.run (P := Sample.platform) (s := Sample.start)
    (l := [Sample.register 1000 1 0, Sample.issue 1010 7, Sample.claim 1020 9 7, Sample.cashIn 1030 9 0])
    (p := fun s => (s.card? (Sample.card 9)).any fun x : LoyaltyCard =>
      decide (x.rewardsEarned = 1 ∧ x.lifetimeStamps = 1 ∧ x.stamps = 0)) (by decide +kernel)
  obtain ⟨x, hx, hcounts⟩ := (Option.any_eq_true ..).mp hp
  obtain ⟨hone, hlife, hstamps⟩ := of_decide_eq_true hcounts
  obtain ⟨-, hsum, -⟩ := (card_ledger_exact hrun Sample.start_empty).1 _ _ hx
  rw [hlife, hstamps] at hsum
  exact ⟨hist, s, x, hrun, hx, hone, hsum.symm⟩

end Passdari
