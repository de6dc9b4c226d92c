/-
Rewards already earned. A round is finished under the threshold on the card;
what the shop asks for today is taken over by the cash-in that starts the
next one. So the stamps on a card cover a cash-in exactly as long as they
cover the rounds before it, each at what was asked for when it began.
-/
import Passdari.Effect.Refusals
import Passdari.Books.Cards

namespace Passdari

open Wire Token2022

variable {P : Platform} {s s' start : State} {hist : History} {c : Call} {cs : List Change}
  {calls : List TokenCall} {ps : List Payment} {a : Address} {tx : Tx} {ds : List Call}

/-! ## Calls one after the other, whether they succeed or not -/

/-- The state after a call: a failed one leaves everything as it was. -/
def attempt (P : Platform) (c : Call) (s : State) : State := (perform P c s).toOption.getD s

/-- The state after the calls. -/
def attempts (P : Platform) : List Call → State → State
  | [], s => s
  | c :: ds, s => attempts P ds (attempt P c s)

/-- What the shop asks for when the call starts a new round of the card at `a`. -/
def asksFor (P : Platform) (a : Address) (c : Call) (s : State) : Option Nat :=
  match c.action with
  | .program (.mintVoucher accs _ _) =>
    if accs.card = a ∧ (perform P c s).toOption.isSome then
      (s.business? accs.business).map fun b => b.stampsRequired.toNat
    else none
  | _ => none

/-- The thresholds of the rounds the calls start, oldest first. -/
def asked (P : Platform) (a : Address) : List Call → State → List Nat
  | [], _ => []
  | c :: ds, s => (asksFor P a c s).toList ++ asked P a ds (attempt P c s)

/-- The call cashes in the card at `a`. -/
def Call.cashesIn (a : Address) (c : Call) : Bool :=
  match c.action with
  | .program (.mintVoucher accs _ _) => accs.card = a
  | _ => false

/-- The call changes the settings of a shop. -/
def Call.editsShop (c : Call) : Bool :=
  match c.action with
  | .program (.updateBusinessConfig ..) => true
  | _ => false

theorem Call.cashesIn_iff : c.cashesIn a = true ↔
    ∃ accs voucherId uri, c.action = .program (.mintVoucher accs voucherId uri) ∧ accs.card = a := by
  unfold Call.cashesIn
  split
  · next accs voucherId uri h =>
    rw [h, decide_eq_true_iff]
    refine ⟨fun ha => ⟨accs, voucherId, uri, rfl, ha⟩, ?_⟩
    intro hex
    obtain ⟨_, _, _, heq, ha⟩ := hex
    cases heq
    exact ha
  · next h =>
    refine ⟨fun hf => (by cases hf), ?_⟩
    intro hex
    obtain ⟨accs, voucherId, uri, hact, -⟩ := hex
    exact absurd hact (h accs voucherId uri)

theorem Call.editsShop_iff : c.editsShop = true ↔
    ∃ accs args, c.action = .program (.updateBusinessConfig accs args) := by
  unfold Call.editsShop
  split
  · next accs args h => exact ⟨fun _ => ⟨accs, args, h⟩, fun _ => rfl⟩
  · next h =>
    refine ⟨fun hf => (by cases hf), ?_⟩
    intro hex
    obtain ⟨accs, args, hact⟩ := hex
    exact absurd hact (h accs args)

theorem attempt_ok (h : perform P c s = .ok s') : attempt P c s = s' := by
  rw [attempt, h]
  rfl

theorem attempt_error {e : Failure} (h : perform P c s = .error e) : attempt P c s = s := by
  rw [attempt, h]
  rfl

theorem asksFor_error {e : Failure} (h : perform P c s = .error e) : asksFor P a c s = none := by
  unfold asksFor
  split
  · rw [h, if_neg (by simp [Except.toOption])]
  · rfl

/-- An attempt to cash in or to change the settings keeps the account of the card. -/
theorem attempt_covers (hw : s.WellPlaced) (hsig : ∀ a ∈ c.tx.signers, a.canSign = true)
    (hc : c.cashesIn a = true ∨ c.editsShop = true) {x : LoyaltyCard} (hx : s.card? a = some x) :
    (attempt P c s).WellPlaced ∧ ∃ y, (attempt P c s).card? a = some y ∧
      y.stamps.toNat + x.stampsRequiredSnapshot.toNat + (asksFor P a c s).toList.sum =
        x.stamps.toNat + y.stampsRequiredSnapshot.toNat := by
  cases hp : perform P c s with
  | error e =>
    rw [attempt_error hp, asksFor_error hp]
    exact ⟨hw, x, hx, by simp⟩
  | ok s' =>
    rw [attempt_ok hp]
    have hn : Next P s c s' := ⟨hsig, hp⟩
    obtain ⟨cs, calls, ps, hst⟩ := hn.step hw
    refine ⟨hst.wellPlaced hw, ?_⟩
    obtain ⟨tx, action⟩ := c
    rcases hc with hc | hc
    · obtain ⟨accs, voucherId, uri, hact, rfl⟩ := Call.cashesIn_iff.mp hc
      subst hact
      obtain ⟨b, x₀, _, z, _, _, hb, hx₀, -, -, -, -, -, hok, -, ⟨_, hz⟩, -⟩ := hst.mintVoucher
      obtain ⟨-, -, hcash, -⟩ := mintVoucherHandler_eq_ok hok
      rw [hx, Option.some.injEq] at hx₀
      subst hx₀
      obtain ⟨stamps, hs, rfl⟩ := cashIn_eq_ok hcash
      refine ⟨_, hz, ?_⟩
      have hasks : asksFor P accs.card ⟨tx, .program (.mintVoucher accs voucherId uri)⟩ s =
          some b.stampsRequired.toNat := by
        simp only [asksFor, hp, hb]
        rfl
      rw [hasks]
      simp only [Option.toList_some, List.sum_cons, List.sum_nil]
      omega
    · obtain ⟨accs, args, hact⟩ := Call.editsShop_iff.mp hc
      subst hact
      rcases hst.card hw a with hsame | hch
      · exact ⟨x, hsame.trans hx, by simp [asksFor]⟩
      · rw [hx] at hch
        generalize s'.card? a = after at hch
        cases hch

theorem attempts_covers : ∀ {ds : List Call} {s : State} {x : LoyaltyCard}, s.WellPlaced →
    (∀ c ∈ ds, (∀ a ∈ c.tx.signers, a.canSign = true) ∧ (c.cashesIn a = true ∨ c.editsShop = true)) →
    s.card? a = some x → (attempts P ds s).WellPlaced ∧ ∃ y, (attempts P ds s).card? a = some y ∧
      y.stamps.toNat + x.stampsRequiredSnapshot.toNat + (asked P a ds s).sum =
        x.stamps.toNat + y.stampsRequiredSnapshot.toNat
  | [], _, x, hw, _, hx => ⟨hw, x, hx, by simp [asked]⟩
  | c :: ds, s, x, hw, hds, hx => by
    obtain ⟨hsig, hc⟩ := hds c List.mem_cons_self
    obtain ⟨hw', y, hy, hsum⟩ := attempt_covers hw hsig hc hx
    obtain ⟨hwz, z, hz, hrest⟩ := attempts_covers hw' (fun c hc => hds c (List.mem_cons_of_mem _ hc)) hy
    refine ⟨hwz, z, hz, ?_⟩
    rw [asked, List.sum_append]
    omega

theorem asksFor_eq_none (h : c.cashesIn a = false) : asksFor P a c s = none := by
  unfold asksFor
  split
  · next accs voucherId uri hact =>
    refine if_neg fun hc => ?_
    have := Call.cashesIn_iff.mpr ⟨accs, voucherId, uri, hact, hc.1⟩
    rw [h] at this
    cases this
  · rfl

theorem length_asked_le : ∀ (ds : List Call) (s : State),
    (asked P a ds s).length ≤ ds.countP (Call.cashesIn a)
  | [], _ => Nat.le_refl 0
  | c :: ds, s => by
    have ih := length_asked_le ds (attempt P c s)
    rw [asked, List.length_append, List.countP_cons]
    cases hc : c.cashesIn a with
    | false =>
      rw [asksFor_eq_none hc]
      simpa using ih
    | true =>
      have : (asksFor P a c s).toList.length ≤ 1 := by cases asksFor P a c s <;> simp
      simp only [if_true]
      omega

/-- **What a cash-in needs is the rounds before it.** Whatever the shop asks for in between and whichever
calls fail, the stamps on a card cover the next cash-in exactly while they cover the round on the card and
every round begun since; with the rounds no dearer than the one on the card, as many cash-ins as it has
rewards all pass. -/
theorem earned_rewards_stand (h : Run P start hist s) (hs : start.Empty) {x : LoyaltyCard}
    (hx : s.card? a = some x)
    (hds : ∀ c ∈ ds, (∀ a ∈ c.tx.signers, a.canSign = true) ∧ (c.cashesIn a = true ∨ c.editsShop = true))
    (hsig : ∀ a ∈ c.tx.signers, a.canSign = true) (hc : c.cashesIn a = true) :
    (x.stampsRequiredSnapshot.toNat + (asked P a ds s).sum ≤ x.stamps.toNat →
      perform P c (attempts P ds s) ≠ .error (.code .notEnoughStamps)) ∧
    (x.stamps.toNat < x.stampsRequiredSnapshot.toNat + (asked P a ds s).sum →
      ∀ s', perform P c (attempts P ds s) ≠ .ok s') ∧
    (ds.countP (Call.cashesIn a) < x.stamps.toNat / x.stampsRequiredSnapshot.toNat →
      (∀ n ∈ asked P a ds s, n ≤ x.stampsRequiredSnapshot.toNat) →
      perform P c (attempts P ds s) ≠ .error (.code .notEnoughStamps)) := by
  have hw := h.wellPlaced hs.wellPlaced
  obtain ⟨hw', y, hy, hsum⟩ := attempts_covers (P := P) hw hds hx
  obtain ⟨accs, voucherId, uri, hact, rfl⟩ := Call.cashesIn_iff.mp hc
  obtain ⟨tx, action⟩ := c
  subst hact
  have hpass : x.stampsRequiredSnapshot.toNat + (asked P accs.card ds s).sum ≤ x.stamps.toNat →
      perform P ⟨tx, .program (.mintVoucher accs voucherId uri)⟩ (attempts P ds s) ≠
        .error (.code .notEnoughStamps) := by
    intro hle
    refine mintVoucher_avoids rfl nofun nofun nofun (fun z hz _ => ?_) nofun
    rw [hy, Option.some.injEq] at hz
    subst hz
    rw [UInt8.le_iff_toNat_le]
    omega
  refine ⟨hpass, fun hlt s' hok => ?_, fun hcount hle => hpass ?_⟩
  · have hn : Next P (attempts P ds s) ⟨tx, .program (.mintVoucher accs voucherId uri)⟩ s' := ⟨hsig, hok⟩
    obtain ⟨cs, calls, ps, hst⟩ := hn.step hw'
    obtain ⟨b, z, _, _, _, _, -, hz, -, -, -, -, -, hok, -⟩ := hst.mintVoucher
    obtain ⟨-, -, hcash, -⟩ := mintVoucherHandler_eq_ok hok
    obtain ⟨stamps, hs, -⟩ := cashIn_eq_ok hcash
    rw [hy, Option.some.injEq] at hz
    subst hz
    omega
  · have hlen : (asked P accs.card ds s).length ≤ _ := length_asked_le ds s
    have hcost := List.sum_le_card_nsmul _ _ hle
    rw [Nat.nsmul_eq_mul] at hcost
    have hrounds : ((asked P accs.card ds s).length + 1) * x.stampsRequiredSnapshot.toNat ≤ x.stamps.toNat :=
      (Nat.mul_le_mul_right _ (by omega)).trans (Nat.div_mul_le_self _ _)
    rw [Nat.succ_mul] at hrounds
    omega

/-- What a call fails with. -/
def refusal (P : Platform) (c : Call) (s : State) : Option Failure :=
  match perform P c s with
  | .error e => some e
  | .ok _ => none

theorem refusal_eq_some {e : Failure} : refusal P c s = some e ↔ perform P c s = .error e := by
  unfold refusal
  split
  · next e' h => rw [h, Option.some.injEq, Except.error.injEq]
  · next s' h =>
    rw [h]
    exact ⟨fun hn => (by cases hn), fun hn => (by cases hn)⟩

/-- A customer with two stamps for a round of one, and a shop that goes on to ask for five. -/
def Sample.twoStamps : List Call :=
  [Sample.register 1000 1 0, Sample.issue 1010 7, Sample.claim 1020 9 7, Sample.issue 100000 8,
    Sample.claim 100010 9 8]

/-- The first of two cash-ins passes, the second one needs what the shop asks for now. -/
theorem second_reward_refused : ∃ hist s x, Run Sample.platform Sample.start hist s ∧
    s.card? (Sample.card 9) = some x ∧ x.stamps.toNat / x.stampsRequiredSnapshot.toNat = 2 ∧
    asked Sample.platform (Sample.card 9) [Sample.update 100020 5 0, Sample.cashIn 100030 9 0] s = [5] ∧
    perform Sample.platform (Sample.cashIn 100040 9 1)
      (attempts Sample.platform [Sample.update 100020 5 0, Sample.cashIn 100030 9 0] s) =
        .error (.code .notEnoughStamps) := by
  obtain ⟨hist, s, hr, -, hp⟩ := Leads.run (P := Sample.platform) (s := Sample.start) (l := Sample.twoStamps)
    (p := fun s => (s.card? (Sample.card 9)).any fun x =>
      x.stamps.toNat / x.stampsRequiredSnapshot.toNat = 2 ∧
      asked Sample.platform (Sample.card 9) [Sample.update 100020 5 0, Sample.cashIn 100030 9 0] s = [5] ∧
      refusal Sample.platform (Sample.cashIn 100040 9 1)
        (attempts Sample.platform [Sample.update 100020 5 0, Sample.cashIn 100030 9 0] s) =
          some (.code .notEnoughStamps))
    (by decide +kernel)
  obtain ⟨x, hx, hp⟩ := Option.any_eq_true .. |>.mp hp
  obtain ⟨hn, hasked, hrefused⟩ := of_decide_eq_true hp
  exact ⟨hist, s, x, hr, hx, hn, hasked, refusal_eq_some.mp hrefused⟩

theorem earned_rewards_stand_edited : ∃ hist s x, Run Sample.platform Sample.start hist s ∧
    s.card? (Sample.card 9) = some x ∧ x.stampsRequiredSnapshot.toNat + (asked Sample.platform (Sample.card 9)
      [Sample.update 100020 5 0] s).sum ≤ x.stamps.toNat ∧
    perform Sample.platform (Sample.cashIn 100030 9 0)
    (attempts Sample.platform [Sample.update 100020 5 0] s) ≠
      .error (.code .notEnoughStamps) := by
  obtain ⟨hist, s, hr, -, hp⟩ := Leads.run (P := Sample.platform) (s := Sample.start) (l := Sample.twoStamps)
    (p := fun s => (s.card? (Sample.card 9)).any fun x => x.stampsRequiredSnapshot.toNat +
      (asked Sample.platform (Sample.card 9) [Sample.update 100020 5 0] s).sum ≤ x.stamps.toNat)
    (by decide +kernel)
  obtain ⟨x, hx, hp⟩ := Option.any_eq_true .. |>.mp hp
  have hle := of_decide_eq_true hp
  exact ⟨hist, s, x, hr, hx, hle,
    (earned_rewards_stand (c := Sample.cashIn 100030 9 0) hr Sample.start_empty hx (by decide +kernel)
      (by decide +kernel) (by decide +kernel)).1 hle⟩

end Passdari
