/-
Runs by the rules. Accounts stay at their own addresses whatever is done, so
that every step of a run is a step of the rules; from an empty start every
account is of the current layout and fills its room. The induction rules
below hand out both, and what one step does to a sum over all records.
-/
import Passdari.Effect.Refines

namespace Passdari

open Wire Token2022

variable {P : Platform} {s s' : State} {c : Call} {cs : List Change} {calls : List TokenCall}
  {ps : List Payment}

/-! ## Placement -/

theorem State.WellPlaced.business_ne_default (hw : s.WellPlaced) {a : Address} {b : Business}
    (hb : s.record? a = some (.business b)) : a ≠ .default := by
  rw [hw.business hb, Address.default]
  exact Address.noConfusion

/-- Every record a rule writes is at its own address. -/
theorem Effect.placed {tx : Tx} {a : Action} (hw : s.WellPlaced) (h : Effect P tx s a cs calls ps) :
    ∀ c ∈ cs, ∀ r, c.after = some r → r.face.At c.addr := by
  have hstays : ∀ {a : Address} {r q : Record}, s.record? a = some r → q.face.At a = r.face.At a →
      q.face.At a := fun hr he => he ▸ hw.placed (State.face?_of_record? hr)
  cases h with
  | initializeCounter _ hf =>
    simp only [List.forall_mem_singleton, Option.some.injEq]
    intro _ heq
    subst heq
    exact findProgramAddress_eq hf
  | registerBusiness _ _ hf _ hok =>
    simp only [List.forall_mem_singleton, Option.some.injEq]
    intro _ heq
    subst heq
    obtain ⟨-, -, -, rfl⟩ := registerBusinessHandler_eq_ok.mp hok
    exact findProgramAddress_eq hf
  | updateBusinessConfig _ hb _ _ hok =>
    simp only [List.forall_mem_singleton, Option.some.injEq]
    intro _ heq
    subst heq
    obtain ⟨-, -, -, rfl⟩ := updateBusinessConfigHandler_eq_ok.mp hok
    exact hstays hb rfl
  | issueReceipt hb _ _ _ _ hf _ hok =>
    simp only [List.forall_mem_cons, Option.some.injEq, List.not_mem_nil, false_imp_iff, implies_true,
      and_true]
    obtain ⟨-, _, _, _, -, -, -, -, rfl, rfl⟩ := issueReceiptHandler_eq_ok hok
    refine ⟨?_, ?_⟩
    · intro _ heq
      subst heq
      exact hstays hb rfl
    · intro _ heq
      subst heq
      exact ⟨_, findProgramAddress_eq hf⟩
  | @claimReceipt accs secret b b' r bump c' c hb hr _ _ _ hf hc _ hown _ hok =>
    simp only [List.forall_mem_cons, Option.some.injEq, reduceCtorEq, List.not_mem_nil, false_imp_iff,
      implies_true, and_true, true_and]
    obtain ⟨-, -, hstamp, tc, oc, ts, -, -, rfl⟩ :=
      claimReceiptHandler_spec (hw.business_ne_default hb) hown hok
    obtain ⟨-, _, _, _, _, -, -, -, -, -, rfl⟩ := stampCard_eq_ok hstamp
    refine ⟨?_, ?_⟩
    · intro _ heq
      subst heq
      exact hstays hb rfl
    · intro _ heq
      subst heq
      cases c with
      | none => exact findProgramAddress_eq hf
      | some x =>
        have hx := hw.card (c := x) hc
        exact hx
  | transferStamps _ hc hd _ _ _ _ _ _ hok =>
    simp only [List.forall_mem_cons, Option.some.injEq, List.not_mem_nil, false_imp_iff, implies_true,
      and_true]
    obtain ⟨-, _, _, _, _, -, -, -, -, rfl, rfl⟩ := transferStampsHandler_eq_ok hok
    refine ⟨?_, ?_⟩
    · intro _ heq
      subst heq
      exact hstays hc rfl
    · intro _ heq
      subst heq
      exact hstays hd rfl
  | closeDeadCard _ hb =>
    simp only [List.forall_mem_cons, Option.some.injEq, reduceCtorEq, List.not_mem_nil, false_imp_iff,
      implies_true, and_true]
    intro _ heq
    subst heq
    exact hstays hb rfl
  | retireIdleCardNft hc =>
    simp only [List.forall_mem_singleton, Option.some.injEq]
    intro _ heq
    subst heq
    exact hstays hc rfl
  | mintVoucher hb hc _ _ hf _ _ _ _ _ _ _ _ _ _ hok =>
    simp only [List.forall_mem_cons, Option.some.injEq, List.not_mem_nil, false_imp_iff, implies_true,
      and_true]
    obtain ⟨-, -, hcash, _, _, _, -, -, -, rfl, rfl⟩ := mintVoucherHandler_eq_ok hok
    obtain ⟨_, -, rfl⟩ := cashIn_eq_ok hcash
    refine ⟨?_, ?_, ?_⟩
    · intro _ heq
      subst heq
      exact hstays hb rfl
    · intro _ heq
      subst heq
      exact hstays hc rfl
    · intro _ heq
      subst heq
      exact findProgramAddress_eq hf
  | transferVoucher hv =>
    simp only [List.forall_mem_singleton, Option.some.injEq]
    intro _ heq
    subst heq
    exact hstays hv rfl
  | redeemVoucher hb | closeExpiredVoucher _ hb =>
    simp only [List.forall_mem_cons, Option.some.injEq, reduceCtorEq, List.not_mem_nil, false_imp_iff,
      implies_true, and_true]
    intro _ heq
    subst heq
    exact hstays hb rfl
  | @migrateCard _ _ _ _ _ _ _ n _ _ _ _ _ hf _ _ _ _ _ hcard =>
    simp only [List.forall_mem_cons, Option.some.injEq]
    refine ⟨?_, ?_⟩
    · intro _ heq
      subst heq
      rw [Record.face, hcard]
      exact hw.placed hf
    · cases n <;> simp
  | migrateBusiness _ _ _ hf =>
    simp only [List.forall_mem_singleton, Option.some.injEq]
    intro _ heq
    subst heq
    exact hw.placed hf
  | closeBusiness | reclaimExpiredReceipt =>
    simp only [List.forall_mem_singleton, reduceCtorEq, false_imp_iff, implies_true]
  | mintCardNft | presentVoucher | cancelPresentation | pay | handOver | openMint | openToken | closeToken
  | token => simp

theorem readAt_rentPayer (c : LoyaltyCard) (rest : List Byte) :
    readAt address ((Record.card c).bytes ++ rest) cardLenV1 = some c.rentPayer := by
  refine readAt_append (p := LoyaltyCard.discriminator ++ CardV1.layout.enc c.toCardV1)
    (q := u32.enc c.rewardsEarned ++ rest) ?_ ?_
  · simp only [Record.bytes, LoyaltyCard.layout_enc, List.append_assoc]
  · rw [List.length_append, CardV1.layout_sized]; rfl

/-- What is at a changed address afterwards, and what is anywhere else. -/
theorem Changed.lookup (h : Changed cs s s') (a : Address) :
    (a ∉ cs.map Change.addr ∧ s'.program.lookup a = s.program.lookup a) ∨
    ∃ c ∈ cs, c.addr = a ∧ (c.after = none ∧ s'.program.lookup a = none ∨
      ∃ r rest, c.after = some r ∧ s'.program.lookup a = some (r.bytes ++ rest) ∧
        ((r.bytes ++ rest).length = r.space ∨
          ∃ old, s.program.lookup a = some old ∧ (r.bytes ++ rest).length = old.length)) := by
  by_cases ha : a ∈ cs.map Change.addr
  · obtain ⟨c, hc, rfl⟩ := List.mem_map.mp ha
    refine .inr ⟨c, hc, rfl, ?_⟩
    cases hr : c.after with
    | none => exact .inl ⟨rfl, h.closed c hc hr⟩
    | some r =>
      obtain ⟨rest, hrest, hlen⟩ := h.written c hc r hr
      exact .inr ⟨r, rest, rfl, hrest, hlen⟩
  · exact .inl ⟨ha, h.frame a ha⟩

/-- **Accounts stay where they belong.** -/
theorem Step.wellPlaced (hw : s.WellPlaced) (h : Step P s c s' cs calls ps) : s'.WellPlaced where
  faced {a data} hd := by
    rcases h.changed.lookup a with ⟨-, ha⟩ | ⟨x, hx, rfl, ⟨-, ha⟩ | ⟨r, rest, hr, ha, -⟩⟩
    · exact hw.faced (ha.symm.trans hd)
    · rw [ha] at hd; cases hd
    · rw [ha, Option.some.injEq] at hd
      subst hd
      exact ⟨r.face, Face.parse_bytes_append r rest, h.effect.placed hw x hx r hr⟩
  legible {a data x} hd hx hlen := by
    rcases h.changed.lookup a with ⟨-, ha⟩ | ⟨y, hy, rfl, ⟨-, ha⟩ | ⟨r, rest, hr, ha, -⟩⟩
    · exact hw.legible (ha.symm.trans hd) hx hlen
    · rw [ha] at hd; cases hd
    · rw [ha, Option.some.injEq] at hd
      subst hd
      rw [Face.parse_bytes_append, Option.some.injEq] at hx
      cases r <;> simp only [Record.face, reduceCtorEq] at hx
      rw [readAt_rentPayer]
      rfl

theorem State.Empty.wellPlaced (h : s.Empty) : s.WellPlaced where
  faced hd := by rw [h.program] at hd; cases hd
  legible hd := by rw [h.program] at hd; cases hd

/-! ## Current accounts -/

/-- Every account is of the current layout and fills its room. -/
def State.Current (s : State) : Prop :=
  ∀ a data, s.program.lookup a = some data → ∃ r, Record.parse data = some r ∧ data.length = r.space

theorem State.Empty.current (h : s.Empty) : s.Current := fun a data hd => by
  rw [h.program] at hd
  cases hd

/-- No account is there that does not read as a record. -/
theorem State.Current.lookup_none (h : s.Current) {a : Address} (ha : s.record? a = none) :
    s.program.lookup a = none := by
  cases hd : s.program.lookup a with
  | none => rfl
  | some data =>
    obtain ⟨r, hr, -⟩ := h a data hd
    rw [State.record?, hd, Option.bind_some, hr] at ha
    cases ha

/-- No rule turns an account of one kind into one of another. -/
theorem Effect.same_space {tx : Tx} {a : Action} (h : Effect P tx s a cs calls ps) :
    ∀ c ∈ cs, ∀ r q, c.after = some r → c.before = some q → r.space = q.space := by
  cases h with
  | @claimReceipt _ _ _ _ _ _ _ c =>
    cases c <;> simp +contextual [Record.space]
  | @migrateCard _ _ _ _ _ _ _ n => cases n <;> simp
  | @migrateBusiness accs old b _ hold _ hf =>
    simp only [List.forall_mem_singleton, Option.some.injEq]
    intro _ q heq
    subst heq
    intro hq
    rw [State.face?_of_record? hq, Option.some.injEq] at hf
    cases q <;> simp only [Record.face, reduceCtorEq] at hf
    rfl
  | _ => simp +contextual [Record.space]

/-- **From an empty start every account stays current.** -/
theorem Step.current (hs : s.Current) (h : Step P s c s' cs calls ps) : s'.Current := fun a data hd => by
  rcases h.changed.lookup a with ⟨-, ha⟩ | ⟨x, hx, rfl, ⟨-, ha⟩ | ⟨r, rest, hr, ha, hlen⟩⟩
  · exact hs a data (ha.symm.trans hd)
  · rw [ha] at hd; cases hd
  · rw [ha, Option.some.injEq] at hd
    subst hd
    refine ⟨r, Record.parse_bytes_append r rest, ?_⟩
    rcases hlen with hlen | ⟨old, hold, hlen⟩
    · exact hlen
    · obtain ⟨q, hq, hsize⟩ := hs _ old hold
      have hbefore := h.changed.before x hx
      rw [State.record?, hold, Option.bind_some, hq] at hbefore
      rw [hlen, hsize, h.effect.same_space x hx r q hr hbefore.symm]

/-! ## Sums over all records -/

/-- The weight of every record there is. -/
def State.total (w : Address → Record → Nat) (s : State) : Nat :=
  Store.total (fun a data => (Record.parse data).elim 0 (w a)) s.program

/-- The weight of a record that may be there. -/
def Change.weigh (w : Address → Record → Nat) (a : Address) (r : Option Record) : Nat := r.elim 0 (w a)

@[simp] theorem Change.weigh_none (w : Address → Record → Nat) (a : Address) : Change.weigh w a none = 0 :=
    rfl

@[simp] theorem Change.weigh_some (w : Address → Record → Nat) (a : Address) (r : Record) :
    Change.weigh w a (some r) = w a r := rfl

theorem weight_eq (w : Address → Record → Nat) (s : State) (a : Address) :
    Store.weight (fun a data => (Record.parse data).elim 0 (w a)) s.program a = Change.weigh w a
    (s.record? a) := by
  rw [Store.weight, State.record?, Change.weigh]
  cases s.program.lookup a <;> rfl

theorem Changed.record? (h : Changed cs s s') {x : Change} (hx : x ∈ cs) : s'.record? x.addr = x.after := by
  cases hr : x.after with
  | none => rw [State.record?, h.closed x hx hr]; rfl
  | some r =>
    obtain ⟨rest, hrest, -⟩ := h.written x hx r hr
    rw [State.record?, hrest, Option.bind_some, Record.parse_bytes_append]

theorem Changed.record?_frame (h : Changed cs s s') {a : Address} (ha : a ∉ cs.map Change.addr) :
    s'.record? a = s.record? a := State.record?_of_lookup (h.frame a ha)

/-- What the changed records weighed, and what they weigh now. -/
def outgoing (w : Address → Record → Nat) (cs : List Change) : Nat :=
  (cs.map fun x => Change.weigh w x.addr x.before).sum

def incoming (w : Address → Record → Nat) (cs : List Change) : Nat :=
  (cs.map fun x => Change.weigh w x.addr x.after).sum

@[simp] theorem outgoing_nil (w : Address → Record → Nat) : outgoing w [] = 0 := rfl
@[simp] theorem incoming_nil (w : Address → Record → Nat) : incoming w [] = 0 := rfl

@[simp] theorem outgoing_cons (w : Address → Record → Nat) (x : Change) (cs : List Change) :
    outgoing w (x :: cs) = Change.weigh w x.addr x.before + outgoing w cs := rfl

@[simp] theorem incoming_cons (w : Address → Record → Nat) (x : Change) (cs : List Change) :
    incoming w (x :: cs) = Change.weigh w x.addr x.after + incoming w cs := rfl

/-- **What a step does to a sum**: what the changed records weighed goes, what they weigh now comes. -/
theorem Changed.total (h : Changed cs s s') (w : Address → Record → Nat) :
    s'.total w + outgoing w cs = s.total w + incoming w cs := by
  let w' : Address → List Byte → Nat := fun a data => (Record.parse data).elim 0 (w a)
  have hp := Store.total_patch w' h.nodup h.frame
  have hb : cs.map (Store.weight w' s.program ∘ Change.addr) =
      cs.map fun x => Change.weigh w x.addr x.before :=
    List.map_congr_left fun x hx => by rw [Function.comp, weight_eq, h.before x hx]
  have ha : cs.map (Store.weight w' s'.program ∘ Change.addr) =
      cs.map fun x => Change.weigh w x.addr x.after :=
    List.map_congr_left fun x hx => by rw [Function.comp, weight_eq, h.record? hx]
  rw [List.map_map, List.map_map, hb, ha] at hp
  exact hp

/-- A record that is there weighs in. -/
theorem State.le_total {w : Address → Record → Nat} {a : Address} {r : Record} (h : s.record? a = some r) :
    w a r ≤ s.total w := by
  have := Store.weight_le_total (fun a data => (Record.parse data).elim 0 (w a)) s.program a
  rwa [weight_eq, h] at this

/-- A weight that only records at one address have. -/
theorem State.total_at {w : Address → Record → Nat} {a : Address} (h : ∀ b r, b ≠ a → w b r = 0) :
    s.total w = Change.weigh w a (s.record? a) := by
  rw [← weight_eq]
  refine Store.total_of_single fun b data hb => ?_
  cases Record.parse data with
  | none => rfl
  | some r => exact h b r hb

theorem State.total_eq_zero {w : Address → Record → Nat} (h : ∀ a r, s.record? a = some r → w a r = 0) :
    s.total w = 0 := by
  refine Store.total_eq_zero_iff.mpr fun a data hd => ?_
  cases hr : Record.parse data with
  | none => rfl
  | some r => exact h a r (by rw [State.record?, hd, Option.bind_some, hr])

theorem State.exists_of_total_pos {w : Address → Record → Nat} (h : 0 < s.total w) :
    ∃ a r, s.record? a = some r ∧ 0 < w a r := by
  obtain ⟨a, data, hd, hpos⟩ := Store.exists_of_total_pos h
  cases hr : Record.parse data with
  | none => rw [hr] at hpos; exact absurd hpos (Nat.lt_irrefl 0)
  | some r => exact ⟨a, r, by rw [State.record?, hd, Option.bind_some, hr], by rwa [hr] at hpos⟩

theorem State.Empty.total (h : s.Empty) (w : Address → Record → Nat) : s.total w = 0 :=
  State.total_eq_zero fun a r hr => by
    rw [State.record?, h.program] at hr
    cases hr

/-! ## Induction over runs -/

section

variable {start : State} {hist : History}

/-- The invariant rule for runs between well-placed states: each step is a step of the rules. -/
theorem Run.induct {I : History → State → Prop} (h : Run P start hist s) (hw : start.WellPlaced)
    (h0 : I [] start)
    (hstep : ∀ {hist s c s' cs calls ps}, Run P start hist s → s.WellPlaced → I hist s →
      Step P s c s' cs calls ps → I (⟨s, c, s'⟩ :: hist) s') : s.WellPlaced ∧ I hist s := by
  refine Runs.Run.induct (fun hist s => s.WellPlaced ∧ I hist s) ⟨hw, h0⟩ ?_ h
  intro hist s c s' hr hex
  obtain ⟨hws, hi⟩ := hex
  intro hn
  obtain ⟨cs, calls, ps, hst⟩ := hn.step hws
  exact ⟨hst.wellPlaced hws, hstep hr hws hi hst⟩

theorem Run.wellPlaced (h : Run P start hist s) (hw : start.WellPlaced) : s.WellPlaced :=
  (Run.induct (I := fun _ _ => True) h hw trivial fun _ _ _ _ => trivial).1

/-- The invariant rule for runs from an empty program state. -/
theorem Run.induct_empty {I : History → State → Prop} (h : Run P start hist s) (hs : start.Empty)
    (h0 : I [] start)
    (hstep : ∀ {hist s c s' cs calls ps}, Run P start hist s → s.WellPlaced → s.Current → I hist s →
      Step P s c s' cs calls ps → I (⟨s, c, s'⟩ :: hist) s') : I hist s := by
  have := Run.induct (I := fun hist s => s.Current ∧ I hist s) h hs.wellPlaced ⟨hs.current, h0⟩
    fun hr hw hi hst => ⟨hst.current hi.1, hstep hr hw hi.1 hi.2 hst⟩
  exact this.2.2

theorem Run.current (h : Run P start hist s) (hs : start.Empty) : s.Current :=
  (Run.induct (I := fun _ s => s.Current) h hs.wellPlaced hs.current fun _ _ hi hst => hst.current hi).2

end

/-- From an empty start nothing is ever migrated. -/
theorem Effect.not_migration {tx : Tx} {a : Action} (hs : s.Current) (h : Effect P tx s a cs calls ps) :
    (∀ accs, a ≠ .program (.migrateCard accs)) ∧ ∀ accs, a ≠ .program (.migrateBusiness accs) := by
  cases h with
  | migrateCard _ _ hold hlen hnone =>
    rw [hs.lookup_none hnone] at hold
    cases hold
  | migrateBusiness _ hold hlen hf =>
    obtain ⟨r, hr, hsize⟩ := hs _ _ hold
    rw [State.face?, hold, Option.bind_some, Face.parse_of_record hr, Option.some.injEq] at hf
    cases r <;> simp only [Record.face, reduceCtorEq] at hf
    rw [hsize] at hlen
    exact absurd hlen (Nat.lt_irrefl _)
  | _ => simp

end Passdari
