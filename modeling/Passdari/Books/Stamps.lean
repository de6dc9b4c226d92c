/-
Where a shop's stamps are: on its cards, or spent on vouchers. What was
spent is not kept anywhere, so it is read off the steps since the shop was
registered, and the law below is about both.
-/
import Passdari.Books.Issued
import Passdari.Books.Settings

namespace Passdari

open Wire Token2022

variable {P : Platform} {tx : Tx} {s s' start : State} {hist : History} {c : Call} {cs : List Change}
  {calls : List TokenCall} {ps : List Payment} {action : Action}

/-! ## The sum of stamps -/

/-- The stamps on a card of the shop `b`. -/
def stampsOn (b : Address) (_ : Address) : Record → Nat
  | .card c => if c.business = b then c.stamps.toNat else 0
  | _ => 0

def State.stampsOf (s : State) (b : Address) : Nat := s.total (stampsOn b)

/-- What a successful call spends of the stamps of the shop `b`: cashing in at `b` takes what the card's
snapshot says. -/
def State.spent (s : State) (b : Address) : Action → Option Nat
  | .program (.mintVoucher accs _ _) =>
    if accs.business = b then (s.card? accs.card).map fun c => c.stampsRequiredSnapshot.toNat else none
  | _ => none

/-- What each `mint_voucher` at the shop `b` has spent since the shop was registered, newest first. -/
def spentSince (b : Address) (hist : History) : List Nat :=
  (since b hist).filterMap fun st => st.pre.spent b st.label.action

/-- Between a shop's registration and its end, a step moves stamps between cards, spends them, or adds one
that the shop counts. -/
theorem Effect.stamps_balanced (hw : s.WellPlaced) (hs : s.Current) (h : Effect P tx s action cs calls ps)
    {b : Address} (hopen : action.registers b = false)
    (hclose : ∀ accs, action = .program (.closeBusiness accs) → accs.business ≠ b) :
    incoming (stampsOn b) cs + (s.spent b action).getD 0 +
        outgoing (figureOf (fun x => x.totalStampsIssued.toNat) b) cs =
      outgoing (stampsOn b) cs + incoming (figureOf (fun x => x.totalStampsIssued.toNat) b) cs := by
  have hm := h.not_migration hs
  cases h with
  | @registerBusiness accs args =>
    have : accs.business ≠ b := of_decide_eq_false hopen
    simp [stampsOn, figureOf, State.spent, this]
  | updateBusinessConfig _ _ _ _ hok =>
    obtain ⟨-, -, -, rfl⟩ := updateBusinessConfigHandler_eq_ok.mp hok
    simp [stampsOn, figureOf, State.spent]
  | closeBusiness => simp [stampsOn, figureOf, State.spent, hclose _ rfl]
  | issueReceipt _ _ _ _ _ _ _ hok =>
    obtain ⟨-, _, _, _, -, -, -, -, rfl, rfl⟩ := issueReceiptHandler_eq_ok hok
    simp [stampsOn, figureOf, State.spent]
  | @claimReceipt accs secret b₀ b' r bump c' c hb hr _ _ _ _ _ _ hown _ hok =>
    obtain ⟨-, -, hstamp, _, _, ts, -, hts, rfl⟩ :=
      claimReceiptHandler_spec (hw.business_ne_default hb) hown hok
    obtain ⟨-, _, _, st, _, -, -, -, hst, -, rfl⟩ := stampCard_eq_ok hstamp
    cases c with
    | none =>
      have h0 : (claimedCard accs bump b₀ none).stamps.toNat = 0 := rfl
      have hbus : (claimedCard accs bump b₀ none).business = accs.business := rfl
      simp [stampsOn, figureOf, State.spent, hbus]
      split <;> omega
    | some x =>
      have hbus := (hown x rfl).1
      simp [stampsOn, figureOf, State.spent, claimedCard, hbus] at hst ⊢
      split <;> omega
  | transferStamps _ _ _ _ _ _ hcb _ hdb hok =>
    obtain ⟨-, _, _, _, _, hcs, -, hds, -, rfl, rfl⟩ := transferStampsHandler_eq_ok hok
    simp [stampsOn, figureOf, State.spent, hcb, hdb]
    split <;> omega
  | closeDeadCard _ _ _ _ _ _ _ h0 => simp [stampsOn, figureOf, State.spent, h0]
  | retireIdleCardNft => simp [stampsOn, figureOf, State.spent]
  | mintVoucher _ hc _ _ _ _ _ _ _ _ _ hcb _ _ _ hok =>
    obtain ⟨-, -, hcash, _, _, _, -, -, -, rfl, rfl⟩ := mintVoucherHandler_eq_ok hok
    obtain ⟨_, hst, rfl⟩ := cashIn_eq_ok hcash
    have hcard := State.card?_eq_some.mpr hc
    simp [stampsOn, figureOf, State.spent, hcard, hcb]
    split
    · simp only [Option.getD_some]
      omega
    · simp
  | migrateCard => exact absurd rfl (hm.1 _)
  | migrateBusiness => exact absurd rfl (hm.2 _)
  | _ => simp [stampsOn, figureOf, State.spent]

/-- A step of `mint_voucher` at a shop spends something and issues a voucher; no other step does either. -/
theorem Step.spent (h : Step P s c s' cs calls ps) (b : Address) :
    (∃ accs voucherId uri x, c.action = .program (.mintVoucher accs voucherId uri) ∧ accs.business = b ∧
      s.card? accs.card = some x ∧ s.spent b c.action = some x.stampsRequiredSnapshot.toNat) ∨
    (∀ accs voucherId uri, c.action = .program (.mintVoucher accs voucherId uri) → accs.business ≠ b) ∧
      s.spent b c.action = none := by
  obtain ⟨tx, action⟩ := c
  cases hspent : s.spent b action with
  | none =>
    refine .inr ⟨?_, rfl⟩
    intro accs voucherId uri heq
    subst heq
    intro heq'
    subst heq'
    obtain ⟨_, x, _, _, _, _, -, hx, -⟩ := h.mintVoucher
    simp [State.spent, hx] at hspent
  | some n =>
    unfold State.spent at hspent
    split at hspent
    · next accs voucherId uri =>
      split at hspent
      · next hb =>
        obtain ⟨x, hx, rfl⟩ := Option.map_eq_some_iff.mp hspent
        exact .inl ⟨accs, voucherId, uri, x, rfl, hb, hx, rfl⟩
      · cases hspent
    · cases hspent

theorem Run.no_stamps (h : Run P start hist s) (hs : start.Empty) {a : Address} (ha : s.business? a = none) :
    s.stampsOf a = 0 := by
  refine State.total_eq_zero fun x r hr => ?_
  cases r with
  | card c =>
    refine if_neg fun hb => ?_
    obtain ⟨b, hbus, -⟩ := h.business_of_card hs (State.card?_eq_some.mpr hr)
    rw [hb, ha] at hbus
    cases hbus
  | _ => rfl

/-- The stamps a shop has issued are on its cards or were spent. -/
theorem Run.stampsIssued (h : Run P start hist s) (hs : start.Empty) {a : Address} {b : Business}
    (hb : s.business? a = some b) : b.totalStampsIssued.toNat = s.stampsOf a + (spentSince a hist).sum := by
  refine h.induct_shop (I := fun since s b => b.totalStampsIssued.toNat =
    s.stampsOf a + (since.filterMap fun st => st.pre.spent a st.label.action).sum) hs ?_ ?_ hb
  · intro hist s c s' cs calls ps b accs args hrun hst hact hadr hnone hb
    have htotal := hst.changed.total (stampsOn a)
    have h0 := hrun.no_stamps hs hnone
    obtain ⟨he, hc, -⟩ := hst
    obtain ⟨tx, action⟩ := c
    subst hact hadr
    cases he with
    | registerBusiness _ _ _ _ hok =>
      obtain ⟨-, -, -, rfl⟩ := registerBusinessHandler_eq_ok.mp hok
      rw [State.business?_eq_some.mpr (hc.record? List.mem_cons_self), Option.some.injEq] at hb
      subst hb
      simp [stampsOn] at htotal
      simp only [List.filterMap_nil, List.sum_nil, State.stampsOf] at h0 ⊢
      rw [htotal, h0]
      rfl
  · intro hist s c s' cs calls ps b b' hrun hw hcur hst hreg hb hb' hi
    have hclose : ∀ accs, c.action = .program (.closeBusiness accs) → accs.business ≠ a := by
      intro accs hact heq
      subst heq
      obtain ⟨he, hc, -⟩ := hst
      obtain ⟨tx, action⟩ := c
      subst hact
      cases he with
      | closeBusiness =>
        rw [State.business?, hc.record? List.mem_cons_self] at hb'
        cases hb'
    have hbal := hst.effect.stamps_balanced hw hcur hreg hclose
    have hcards := hst.changed.total (stampsOn a)
    have hshop := hst.changed.total (figureOf (fun x => x.totalStampsIssued.toNat) a)
    rw [total_figureOf, total_figureOf, State.figure_of_some hb, State.figure_of_some hb'] at hshop
    have hspent : ((⟨s, c, s'⟩ :: since a hist).filterMap fun st => st.pre.spent a st.label.action).sum =
        (s.spent a c.action).getD 0 +
          ((since a hist).filterMap fun st => st.pre.spent a st.label.action).sum := by
      rw [List.filterMap_cons]
      cases s.spent a c.action <;> simp
    rw [hspent]
    simp only [State.stampsOf] at hi ⊢
    omega

theorem Run.vouchers_spent (h : Run P start hist s) (hs : start.Empty) {a : Address} {b : Business}
    (hb : s.business? a = some b) : b.totalVouchersIssued.toNat = (spentSince a hist).length := by
  refine h.induct_shop (I := fun since _ b => b.totalVouchersIssued.toNat =
    (since.filterMap fun st => st.pre.spent a st.label.action).length) hs ?_ ?_ hb
  · intro hist s c s' cs calls ps b accs args _ hst hact hadr _ hb
    obtain ⟨tx, action⟩ := c
    subst hact hadr
    obtain ⟨-, b', _, hb', hok⟩ := hst.registerBusiness
    rw [hb, Option.some.injEq] at hb'
    obtain ⟨-, -, -, rfl⟩ := registerBusinessHandler_eq_ok.mp hok
    rw [hb']
    rfl
  · intro hist s c s' cs calls ps b b' hrun hw hcur hst hreg hb hb' hi
    rw [List.filterMap_cons]
    rcases hst.spent a with ⟨accs, voucherId, uri, x, hact, rfl, hx, hspent⟩ | ⟨hno, hspent⟩
    · obtain ⟨tx, action⟩ := c
      subst hact
      obtain ⟨b₀, _, _, _, _, _, hb₀, -, -, -, -, -, -, hok, hb₁, -⟩ := hst.mintVoucher
      obtain ⟨-, -, -, _, _, _, -, htv, -, rfl, -⟩ := mintVoucherHandler_eq_ok hok
      rw [hb, Option.some.injEq] at hb₀
      rw [hb', Option.some.injEq] at hb₁
      subst hb₀ hb₁
      rw [hspent, List.length_cons]
      simp only
      omega
    · rw [hspent]
      rcases hst.shop hw a with hsame | hch
      · rw [hb, hb', Option.some.injEq] at hsame
        rwa [hsame]
      have hm := hst.effect.not_migration hcur
      obtain ⟨tx, action⟩ := c
      rw [hb, hb'] at hch
      cases hch with
      | edited _ _ _ hok =>
        obtain ⟨-, -, -, rfl⟩ := updateBusinessConfigHandler_eq_ok.mp hok
        exact hi
      | receiptIssued | stampClaimed | cardClosed | voucherRedeemed | voucherExpired => exact hi
      | voucherMinted hadr => exact absurd hadr (hno _ _ _ rfl)
      | migrated => exact absurd rfl (hm.2 _)

theorem Run.spent_pos (h : Run P start hist s) (hs : start.Empty) (a : Address) :
    ∀ n ∈ spentSince a hist, 1 ≤ n := by
  intro n hn
  obtain ⟨st, hst, hspent⟩ := List.mem_filterMap.mp hn
  obtain ⟨_, _, _, hbefore, hnext, -⟩ := h.of_mem (List.takeWhile_subset _ hst)
  obtain ⟨_, _, _, hstep⟩ := hnext.step (Run.wellPlaced hbefore hs.wellPlaced)
  rcases hstep.spent a with ⟨_, _, _, x, -, -, hx, he⟩ | ⟨-, he⟩
  · rw [hspent, Option.some.injEq] at he
    rw [he]
    exact UInt8.le_iff_toNat_le.mp ((Run.ruled hbefore hs).cards _ _ hx)
  · rw [hspent] at he
    cases he

/-- **Stamps are conserved, and no reward is free.** -/
theorem stamps_conserved (h : Run P start hist s) (hs : start.Empty) {a : Address} {b : Business}
    (hb : s.business? a = some b) :
    b.totalStampsIssued.toNat = s.stampsOf a + (spentSince a hist).sum ∧ (∀ n ∈ spentSince a hist, 1 ≤ n) ∧
    b.totalVouchersIssued.toNat ≤ b.totalStampsIssued.toNat := by
  have hstamps := h.stampsIssued hs hb
  have hpos := h.spent_pos hs a
  refine ⟨hstamps, hpos, ?_⟩
  have : (spentSince a hist).length ≤ (spentSince a hist).sum := List.length_le_sum_of_one_le _ hpos
  rw [h.vouchers_spent hs hb]
  omega

theorem stamps_conserved_cashed_in : ∃ hist s b, Run Sample.platform Sample.start hist s ∧
    s.business? Sample.shop = some b ∧ b.totalVouchersIssued = 1 ∧
    b.totalStampsIssued.toNat = s.stampsOf Sample.shop + (spentSince Sample.shop hist).sum := by
  obtain ⟨hist, s, hrun, -, hp⟩ := Leads.run (P := Sample.platform) (s := Sample.start)
    (l := [Sample.register 1000 1 0, Sample.issue 1010 7, Sample.claim 1020 9 7, Sample.cashIn 1030 9 0])
    (p := fun s => (s.business? Sample.shop).any fun b => b.totalVouchersIssued == 1) (by decide +kernel)
  obtain ⟨b, hb, hissued⟩ := (Option.any_eq_true ..).mp hp
  exact ⟨hist, s, b, hrun, hb, eq_of_beq hissued, (stamps_conserved hrun Sample.start_empty hb).1⟩

end Passdari
