/-
What migration leaves of the settings rules. It copies the old fields as
they are, so a shop or a card comes out of it obeying the rules exactly when
it went in obeying them; from there on the rules keep themselves, shop by
shop.
-/
import Passdari.Books.Settings

namespace Passdari

open Wire Token2022

variable {P : Platform} {tx : Tx} {s s' start : State} {hist : History} {c : Call} {cs : List Change}
  {calls : List TokenCall} {ps : List Payment} {a : Address}

/-- The account the step migrates, if it migrates one, obeys the rules from then on. -/
def MigratedRuled (st : Taken) : Prop :=
  match st.label.action with
  | .program (.migrateBusiness accs) => ∃ b, st.post.business? accs.business = some b ∧
    RuledShop b.toBusinessV1
  | .program (.migrateCard accs) => ∃ c, st.post.card? accs.card = some c ∧ RuledCard c.toCardV1
  | _ => True

/-- A card that is cashed in at the shop `a` pays for it. -/
def SpendsSome (a : Address) (st : Taken) : Prop :=
  match st.label.action with
  | .program (.mintVoucher accs _ _) => accs.business = a → ∃ x y, st.pre.card? accs.card = some x ∧
      st.post.card? accs.card = some y ∧ y.stamps.toNat + 1 ≤ x.stamps.toNat
  | _ => True

/-- The name and category of the shop at `a` do not stand in the way of new settings that are valid
themselves. -/
def State.Editable (s : State) (a : Address) : Prop :=
  ∀ b, s.business? a = some b → ∀ rewardLabel stampsRequired receiptTtlSeconds,
    trim rewardLabel ≠ [] → rewardLabel.len ≤ maxRewardLabelLen → 1 ≤ stampsRequired →
    stampsRequired ≤ maxStampsRequired → minReceiptTtlSeconds ≤ receiptTtlSeconds →
    receiptTtlSeconds ≤ maxReceiptTtlSeconds →
    checkSettings b.name b.category rewardLabel stampsRequired receiptTtlSeconds = .ok ()

theorem State.RuledAt.editable (h : s.RuledAt a) : s.Editable a := fun b hb _ _ _ h1 h2 h3 h4 h5 h6 =>
  have hr := h.shop b hb
  checkSettings_eq_ok.mpr ⟨hr.name_nonblank, hr.name_len, hr.category_len, h1, h2, h3, h4, h5, h6⟩

/-- What a step does at a shop that obeys the rules, with its cards. -/
structure KeepsRules (a : Address) (st : Taken) : Prop where
  ruled : st.post.RuledAt a
  migrated : MigratesAt a st → MigratedRuled st
  spends : SpendsSome a st
  editable : st.post.Editable a

/-- What is migrated comes out obeying the rules exactly when it went in obeying them. -/
theorem Step.migrated_ruled (h : Step P s c s' cs calls ps) :
    MigratedRuled ⟨s, c, s'⟩ ↔ MigratesRuled ⟨s, c, s'⟩ := by
  obtain ⟨tx, action⟩ := c
  cases action with
  | wallet => exact Iff.rfl
  | program i =>
    cases i with
    | migrateBusiness accs =>
      obtain ⟨b, hf, hb⟩ := h.migrateBusiness
      simp only [MigratedRuled, MigratesRuled, hf, hb, Option.some.injEq, Face.business.injEq,
        exists_eq_left']
      rfl
    | migrateCard accs =>
      obtain ⟨x, hf, hx⟩ := h.migrateCard
      simp only [MigratedRuled, MigratesRuled, hf, hx, Option.some.injEq, Face.card.injEq, exists_eq_left']
    | _ => exact Iff.rfl

theorem Step.spends_some (h : Step P s c s' cs calls ps) (hs : s.RuledAt a) : SpendsSome a ⟨s, c, s'⟩ := by
  obtain ⟨tx, action⟩ := c
  unfold SpendsSome
  split
  · next accs _ _ ha =>
    cases ha
    intro hat
    obtain ⟨_, x, _, _, _, _, -, hx, -, -, hbus, -, -, hok, -, ⟨_, hy⟩, -⟩ := h.mintVoucher
    obtain ⟨-, -, hcash, -⟩ := mintVoucherHandler_eq_ok hok
    obtain ⟨st, hst, rfl⟩ := cashIn_eq_ok hcash
    have := UInt8.le_iff_toNat_le.mp (hs.cards _ _ hx (hbus.trans hat))
    simp only [UInt8.toNat_one] at this
    exact ⟨x, _, hx, hy, by simp only; omega⟩
  · trivial

theorem Run.ruledAt (h : Run P start hist s) (hw : start.WellPlaced) (hr : start.RuledAt a)
    (hm : ∀ st ∈ hist, MigratesAt a st → MigratesRuled st) : s.RuledAt a := by
  refine (h.induct (I := fun hist s => (∀ st ∈ hist, MigratesAt a st → MigratesRuled st) → s.RuledAt a) hw
    (fun _ => hr) ?_).2 hm
  intro hist s c s' cs calls ps _ hws hi hst hm
  exact hst.ruledAt hws (hi fun st hmem => hm st (List.mem_cons_of_mem _ hmem)) (hm _ List.mem_cons_self)

/-- **When migration re-establishes the settings rules.** Whatever older accounts there are: each account
comes out of its migration obeying the rules exactly when it went in obeying them. So a shop and its cards
obey them in every state of a run, everything cashed in there is paid for and valid edits go through, exactly
when what could be read of them at the start obeyed them, and so did each of them when it was migrated. -/
theorem migration_ruled_iff (h : Run P start hist s) (hw : start.WellPlaced) :
    (∀ st ∈ hist, MigratedRuled st ↔ MigratesRuled st) ∧ ∀ a,
      ((start.RuledAt a ∧ ∀ st ∈ hist, KeepsRules a st) ↔
        start.RuledAt a ∧ ∀ st ∈ hist, MigratesAt a st → MigratesRuled st) := by
  have hmigrated : ∀ st ∈ hist, MigratedRuled st ↔ MigratesRuled st := by
    intro st hst
    obtain ⟨_, _, _, hbefore, hn, -⟩ := h.of_mem hst
    obtain ⟨_, _, _, hstep⟩ := hn.step (Run.wellPlaced hbefore hw)
    exact hstep.migrated_ruled
  refine ⟨hmigrated, fun a => and_congr_right fun hr => ⟨fun hall st hst hat => ?_, fun hm st hst => ?_⟩⟩
  · exact (hmigrated st hst).mp ((hall st hst).migrated hat)
  · obtain ⟨earlier, later, rfl, hbefore, hn, -⟩ := h.of_mem hst
    obtain ⟨_, _, _, hstep⟩ := hn.step (Run.wellPlaced hbefore hw)
    have hpre : st.pre.RuledAt a := Run.ruledAt hbefore hw hr fun st hmem =>
      hm st (List.mem_append_right _ (List.mem_cons_of_mem _ hmem))
    have hpost : st.post.RuledAt a := hstep.ruledAt (Run.wellPlaced hbefore hw) hpre (hm st hst)
    exact ⟨hpost, fun hat => (hmigrated st hst).mpr (hm st hst hat), hstep.spends_some hpre, hpost.editable⟩

/-- A shop and a card that ask for no stamps, in accounts of their old sizes, stay that way when migrated, and
a voucher is then minted for nothing. -/
theorem migrated_without_threshold : (Sample.oldShopData 0).length = 193 ∧
    (Sample.oldCardData 0).length = 103 ∧ ∃ hist s b x, Run Sample.platform (Sample.oldStart 0 0) hist s ∧
    (Sample.oldStart 0 0).WellPlaced ∧ s.business? Sample.shop = some b ∧ b.stampsRequired = 0 ∧
    b.totalStampsIssued = 0 ∧ b.totalVouchersIssued = 1 ∧ s.card? (Sample.card 9) = some x ∧
    x.stampsRequiredSnapshot = 0 ∧ ¬∀ st ∈ hist, MigratedRuled st := by
  obtain ⟨hist₁, s₁, hrun₁, hcalls₁, hp⟩ := Leads.run (P := Sample.platform) (s := Sample.oldStart 0 0)
    (l := [Sample.migrateShop 1000])
    (p := fun s => (s.business? Sample.shop).any (fun b : Business => b.stampsRequired == 0) &&
      Leads Sample.platform s [Sample.migrateTheCard 1010, Sample.cashIn 1020 9 0] fun s =>
        (s.business? Sample.shop).any (fun b : Business => decide (b.stampsRequired = 0 ∧
          b.totalStampsIssued = 0 ∧ b.totalVouchersIssued = 1)) &&
        (s.card? (Sample.card 9)).any fun x : LoyaltyCard => x.stampsRequiredSnapshot == 0)
        (by decide +kernel)
  simp only [Bool.and_eq_true, Option.any_eq_true, beq_iff_eq] at hp
  obtain ⟨⟨b₁, hb₁, hzero⟩, hrest⟩ := hp
  obtain ⟨later, s, hlater, -, hp⟩ := Leads.run hrest
  simp only [Bool.and_eq_true, Option.any_eq_true, beq_iff_eq, decide_eq_true_eq] at hp
  obtain ⟨⟨b, hb, hstamps, hissued, hvouchers⟩, x, hx, hsnapshot⟩ := hp
  refine ⟨by decide +kernel, by decide +kernel, _, s, b, x, hrun₁.append hlater,
    Sample.oldStart_wellPlaced 0 0, hb, hstamps, hissued, hvouchers,
    hx, hsnapshot, fun hall => ?_⟩
  cases hist₁ with
  | nil => cases hcalls₁
  | cons st rest =>
    obtain ⟨-, -, rfl⟩ := Runs.Run.cons_inv hrun₁
    have hm := hall st (List.mem_append_right _ List.mem_cons_self)
    have hlabel : st.label = Sample.migrateShop 1000 := (List.cons_eq_cons.mp hcalls₁).1
    simp only [MigratedRuled, hlabel, Sample.migrateShop, Sample.call] at hm
    obtain ⟨b', hb', hr⟩ := hm
    rw [hb₁, Option.some.injEq] at hb'
    subst hb'
    have := hr.stamps
    rw [hzero] at this
    exact absurd this (by decide)

namespace Sample

theorem oldStart_face {a : Address} {f : Face} (h : (oldStart 1 1).face? a = some f) :
    f = .business (oldShop 1) ∨ f = .card (oldCard 1) := by
  obtain ⟨data, hd, hf⟩ := Option.bind_eq_some_iff.mp h
  obtain ⟨-, rfl⟩ | ⟨-, rfl⟩ := oldStart_lookup hd
  · exact .inl (Option.some.inj (hf.symm.trans (parse_oldShop 1)))
  · exact .inr (Option.some.inj (hf.symm.trans (parse_oldCard 1)))

theorem oldShop_ruled : RuledShop (oldShop 1) := ⟨by decide, by decide +kernel, by decide, by decide⟩

/-- What can be read of them as it is obeys the rules. -/
theorem oldStart_ruled : (oldStart 1 1).Ruled where
  shops a b hb := by
    rcases oldStart_face (State.face?_of_record? (State.business?_eq_some.mp hb)) with hf | hf
    · rw [Face.business.inj hf]
      exact oldShop_ruled
    · cases hf
  cards a c hc := by
    rcases oldStart_face (State.face?_of_record? (State.card?_eq_some.mp hc)) with hf | hf
    · cases hf
    · rw [Face.card.inj hf]
      show (1 : UInt8) ≤ 1
      decide

end Sample

/-- An old shop that asks for one stamp comes out of its migration obeying the rules. -/
theorem migration_ruled_one_stamp : ∃ st, Run Sample.platform (Sample.oldStart 1 1) [st] st.post ∧
    st.label = Sample.migrateShop 1000 ∧ MigratesAt Sample.shop st ∧ KeepsRules Sample.shop st := by
  obtain ⟨hist, s, hrun, hcalls, -⟩ := Leads.run (P := Sample.platform) (s := Sample.oldStart 1 1)
    (l := [Sample.migrateShop 1000]) (p := fun _ => true) (by decide +kernel)
  obtain ⟨st, rfl, hlabel⟩ := List.map_eq_singleton_iff.mp hcalls
  obtain ⟨hnil, -, rfl⟩ := Runs.Run.cons_inv hrun
  have hpre : st.pre = Sample.oldStart 1 1 := Runs.Run.nil_inv hnil
  have hat : MigratesAt Sample.shop st := by simp [MigratesAt, hlabel, Sample.migrateShop, Sample.call]
  have hm : MigratesRuled st := by
    simp only [MigratesRuled, hlabel, Sample.migrateShop, Sample.call, hpre]
    exact ⟨Sample.oldShop 1, by decide +kernel, Sample.oldShop_ruled⟩
  obtain ⟨-, hall⟩ := ((migration_ruled_iff hrun (Sample.oldStart_wellPlaced 1 1)).2 Sample.shop).mpr
    ⟨Sample.oldStart_ruled.at _, by simpa using fun _ => hm⟩
  exact ⟨st, hrun, hlabel, hat, hall st (by simp)⟩

end Passdari
