/-
A shop's figures. What an instruction means for the shop it acts for is an
event; the six counters in the shop's record are what its events since it
was registered come to, each counted once, and no subtraction ever saturates.
-/
import Passdari.Books.Issued

namespace Passdari

open Wire Token2022

/-- What can happen to a shop's figures. -/
inductive ShopEvent
  /-- On a card opened for it, or on one that was there. -/
  | stamp (opened : Bool)
  | cardClosed
  | minted
  | redeemed
  | expired
  deriving DecidableEq

/-- The counters of a shop, as numbers. -/
@[ext] structure Figures where
  cards : Nat
  openCards : Nat
  stamps : Nat
  vouchers : Nat
  openVouchers : Nat
  redemptions : Nat
  deriving DecidableEq

namespace Figures

def zero : Figures := ⟨0, 0, 0, 0, 0, 0⟩

def after (f : Figures) : ShopEvent → Figures
  | .stamp true => { f with cards := f.cards + 1, openCards := f.openCards + 1, stamps := f.stamps + 1 }
  | .stamp false => { f with stamps := f.stamps + 1 }
  | .cardClosed => { f with openCards := f.openCards - 1 }
  | .minted => { f with vouchers := f.vouchers + 1, openVouchers := f.openVouchers + 1 }
  | .redeemed => { f with openVouchers := f.openVouchers - 1, redemptions := f.redemptions + 1 }
  | .expired => { f with openVouchers := f.openVouchers - 1 }

/-- The figures events lead to, newest first. -/
def of (events : List ShopEvent) : Figures := events.foldr (fun e f => f.after e) zero

/-- No event takes away what is not there. -/
def Covers (f : Figures) : ShopEvent → Prop
  | .cardClosed => 0 < f.openCards
  | .redeemed | .expired => 0 < f.openVouchers
  | _ => True

/-- The events can happen in this order. -/
def Sound : List ShopEvent → Prop
  | [] => True
  | e :: events => (of events).Covers e ∧ Sound events

@[simp] theorem of_nil : of [] = zero := rfl

@[simp] theorem of_cons (e : ShopEvent) (events : List ShopEvent) : of (e :: events) = (of events).after e :=
    rfl

/-- Each counter against the events of its kind. -/
structure Count (f : Figures) (events : List ShopEvent) : Prop where
  stamps : f.stamps = events.count (.stamp true) + events.count (.stamp false)
  cards : f.cards = events.count (.stamp true)
  openCards : f.openCards + events.count .cardClosed = f.cards
  vouchers : f.vouchers = events.count .minted
  redemptions : f.redemptions = events.count .redeemed
  openVouchers : f.openVouchers + events.count .redeemed + events.count .expired = f.vouchers

theorem Sound.count : ∀ {events : List ShopEvent}, Sound events → (of events).Count events
  | [], _ => ⟨rfl, rfl, rfl, rfl, rfl, rfl⟩
  | e :: events, hs => by
    obtain ⟨hcov, hs⟩ := hs
    obtain ⟨h1, h2, h3, h4, h5, h6⟩ := hs.count
    cases e with
    | stamp opened =>
      cases opened <;> constructor <;> simp [after] <;> omega
    | cardClosed | minted | redeemed | expired =>
      simp only [Covers] at hcov
      constructor <;> simp [after] <;> omega

end Figures

/-! ## The events of a run -/

/-- What a step is for the shop at `a`. -/
def Taken.event (a : Address) (st : Taken) : Option ShopEvent :=
  match st.label.action with
  | .program (.claimReceipt accs _) =>
    if accs.business = a then some (.stamp (st.pre.card? accs.card).isNone) else none
  | .program (.closeDeadCard accs) => if accs.business = a then some .cardClosed else none
  | .program (.mintVoucher accs _ _) => if accs.business = a then some .minted else none
  | .program (.redeemVoucher accs) => if accs.business = a then some .redeemed else none
  | .program (.closeExpiredVoucher accs) => if accs.business = a then some .expired else none
  | _ => none

/-- The events of the shop at `a` since it was last registered, newest first. -/
def eventsOf (a : Address) (hist : History) : List ShopEvent := (since a hist).filterMap (Taken.event a)

/-- The figures in a shop's record. -/
def Business.figures (b : Business) : Figures where
  cards := b.totalCards.toNat
  openCards := b.openCards.toNat
  stamps := b.totalStampsIssued.toNat
  vouchers := b.totalVouchersIssued.toNat
  openVouchers := b.openVouchers.toNat
  redemptions := b.totalRedemptions.toNat

/-- The event of one step, in the shop's figures. -/
def Figures.Takes (f f' : Figures) (event : Option ShopEvent) : Prop :=
  f' = event.elim f f.after ∧ ∀ e, event = some e → f.Covers e

variable {P : Platform} {s s' start : State} {hist : History} {c : Call} {cs : List Change}
  {calls : List TokenCall} {ps : List Payment} {a : Address}

/-- A claim counts a stamp, and a card when it opens one. -/
theorem Step.claimReceipt_figures (hw : s.WellPlaced) {tx : Tx} {accs : ClaimReceipt} {secret : Bytes32}
    {b b' : Business} (h : Step P s ⟨tx, .program (.claimReceipt accs secret)⟩ s' cs calls ps)
    (hb : s.business? accs.business = some b) (hb' : s'.business? accs.business = some b') :
    b'.figures = b.figures.after (.stamp (s.card? accs.card).isNone) := by
  obtain ⟨he, hc, -⟩ := h
  cases he with
  | @claimReceipt _ _ b₀ b₁ r bump c' c hbus hr hs _ _ hf hcard _ hown _ hok =>
    have hsame := State.business?_eq_some.mpr hbus
    rw [hb, Option.some.injEq] at hsame
    have hafter := State.business?_eq_some.mpr (hc.record? List.mem_cons_self)
    rw [hb', Option.some.injEq] at hafter
    subst hsame hafter
    have hbefore : s.card? accs.card = c := by
      rw [State.card?, hcard]
      cases c <;> rfl
    rw [hbefore]
    obtain ⟨-, -, b₂, c₁, total, hopen, -, htotal, rfl⟩ := claimReceiptHandler_eq_ok hok
    cases c with
    | none =>
      rcases openCard_eq_ok hopen with ⟨-, tc, oc, htc, hoc, rfl, -⟩ | ⟨hne, -, -⟩
      · simp only [Option.isNone_none]
        ext <;> simp [Business.figures, Figures.after, htc, hoc, htotal]
      · exact absurd rfl hne
    | some x =>
      rcases openCard_eq_ok hopen with ⟨hdef, -⟩ | ⟨-, rfl, -⟩
      · exact absurd ((hown x rfl).1.symm.trans hdef) (hw.business_ne_default hbus)
      · simp only [Option.isNone_some]
        ext <;> simp [Business.figures, Figures.after, htotal]

/-- The five instructions that are events. -/
theorem Taken.event_cases {st : Taken} {e : ShopEvent} (h : Taken.event a st = some e) :
    (∃ accs secret, st.label.action = .program (.claimReceipt accs secret) ∧ accs.business = a ∧
      e = .stamp (st.pre.card? accs.card).isNone) ∨
    (∃ accs, st.label.action = .program (.closeDeadCard accs) ∧ accs.business = a ∧ e = .cardClosed) ∨
    (∃ accs voucherId uri, st.label.action = .program (.mintVoucher accs voucherId uri) ∧ accs.business = a ∧
      e = .minted) ∨
    (∃ accs, st.label.action = .program (.redeemVoucher accs) ∧ accs.business = a ∧ e = .redeemed) ∨
    ∃ accs, st.label.action = .program (.closeExpiredVoucher accs) ∧ accs.business = a ∧ e = .expired := by
  unfold Taken.event at h
  split at h
  · next accs secret hact =>
    obtain ⟨ha, he⟩ := Option.ite_none_right_eq_some.mp h
    exact .inl ⟨accs, secret, hact, ha, (Option.some.inj he).symm⟩
  · next accs hact =>
    obtain ⟨ha, he⟩ := Option.ite_none_right_eq_some.mp h
    exact .inr (.inl ⟨accs, hact, ha, (Option.some.inj he).symm⟩)
  · next accs voucherId uri hact =>
    obtain ⟨ha, he⟩ := Option.ite_none_right_eq_some.mp h
    exact .inr (.inr (.inl ⟨accs, voucherId, uri, hact, ha, (Option.some.inj he).symm⟩))
  · next accs hact =>
    obtain ⟨ha, he⟩ := Option.ite_none_right_eq_some.mp h
    exact .inr (.inr (.inr (.inl ⟨accs, hact, ha, (Option.some.inj he).symm⟩)))
  · next accs hact =>
    obtain ⟨ha, he⟩ := Option.ite_none_right_eq_some.mp h
    exact .inr (.inr (.inr (.inr ⟨accs, hact, ha, (Option.some.inj he).symm⟩)))
  · cases h

theorem Step.covers (hrun : Run P start hist s) (hs : start.Empty) (h : Step P s c s' cs calls ps)
    {b : Business}
    {e : ShopEvent} (hb : s.business? a = some b) (he : Taken.event a ⟨s, c, s'⟩ = some e) :
    b.figures.Covers e := by
  obtain ⟨tx, action⟩ := c
  have hvoucher : ∀ {x v}, s.voucher? x = some v → v.business = a → 0 < b.openVouchers.toNat := by
    intro x v hv hva
    obtain ⟨b₀, hb₀, hpos⟩ := hrun.business_of_voucher hs hv
    rw [hva, hb, Option.some.injEq] at hb₀
    rwa [hb₀]
  rcases Taken.event_cases he with ⟨_, _, rfl, ha, rfl⟩ | ⟨_, rfl, ha, rfl⟩ | ⟨_, _, _, rfl, ha, rfl⟩ |
    ⟨_, rfl, ha, rfl⟩ | ⟨_, rfl, ha, rfl⟩
  · trivial
  · obtain ⟨-, c, -, hc, hca, -⟩ := h.closeDeadCard
    obtain ⟨b₀, hb₀, hpos⟩ := hrun.business_of_card hs hc
    rw [hca, ha, hb, Option.some.injEq] at hb₀
    subst hb₀
    exact hpos
  · trivial
  · obtain ⟨-, v, -, -, hv, hva, -⟩ := h.redeemVoucher
    exact hvoucher hv (hva.trans ha)
  · obtain ⟨-, v, -, hv, hva, -⟩ := h.closeExpiredVoucher
    exact hvoucher hv (hva.trans ha)

theorem Step.figures_event (hw : s.WellPlaced) (h : Step P s c s' cs calls ps) {b b' : Business}
    {e : ShopEvent}
    (hb : s.business? a = some b) (hb' : s'.business? a = some b') (he : Taken.event a ⟨s, c, s'⟩ = some e) :
    b'.figures = b.figures.after e := by
  obtain ⟨tx, action⟩ := c
  rcases Taken.event_cases he with ⟨_, _, rfl, rfl, rfl⟩ | ⟨_, rfl, rfl, rfl⟩ | ⟨_, _, _, rfl, rfl, rfl⟩ |
    ⟨_, rfl, rfl, rfl⟩ | ⟨_, rfl, rfl, rfl⟩
  · exact h.claimReceipt_figures hw hb hb'
  · obtain ⟨b₀, c, hb₀, -, -, -, hafter⟩ := h.closeDeadCard
    obtain rfl : b = b₀ := Option.some.inj (hb.symm.trans hb₀)
    obtain rfl := Option.some.inj (hb'.symm.trans hafter)
    ext <;> simp [Business.figures, Figures.after, toNat_satSubU32]
  · obtain ⟨b₀, c, b₁, c', v, bump, hb₀, -, -, -, -, -, -, hok, hafter, -⟩ := h.mintVoucher
    obtain rfl : b = b₀ := Option.some.inj (hb.symm.trans hb₀)
    obtain rfl := Option.some.inj (hb'.symm.trans hafter)
    obtain ⟨-, -, -, _, _, _, -, htv, hov, rfl, -⟩ := mintVoucherHandler_eq_ok hok
    ext <;> simp [Business.figures, Figures.after, htv, hov]
  · obtain ⟨heff, hc, -⟩ := h
    cases heff with
    | redeemVoucher hb₀ _ _ _ _ _ _ _ _ _ _ _ _ _ _ _ _ _ _ htotal =>
      obtain rfl := Option.some.inj (hb.symm.trans (State.business?_eq_some.mpr hb₀))
      obtain rfl := Option.some.inj
        (hb'.symm.trans (State.business?_eq_some.mpr (hc.record? List.mem_cons_self)))
      ext <;> simp [Business.figures, Figures.after, toNat_satSubU32, addU32_eq_ok.mp htotal]
  · obtain ⟨b₀, v, hb₀, -, -, -, -, hafter⟩ := h.closeExpiredVoucher
    obtain rfl : b = b₀ := Option.some.inj (hb.symm.trans hb₀)
    obtain rfl := Option.some.inj (hb'.symm.trans hafter)
    ext <;> simp [Business.figures, Figures.after, toNat_satSubU32]

/-- **One step is one event, or none.** -/
theorem Step.figures (hrun : Run P start hist s) (hs : start.Empty) (hw : s.WellPlaced) (hcur : s.Current)
    (h : Step P s c s' cs calls ps) (hreg : c.action.registers a = false) {b b' : Business}
    (hb : s.business? a = some b) (hb' : s'.business? a = some b') :
    b.figures.Takes b'.figures (Taken.event a ⟨s, c, s'⟩) := by
  refine ⟨?_, fun e he => h.covers hrun hs hb he⟩
  cases he : Taken.event a ⟨s, c, s'⟩ with
  | some e => exact h.figures_event hw hb hb' he
  | none =>
    rcases h.shop hw a with hsame | hch
    · rw [hb, hb', Option.some.injEq] at hsame
      exact congrArg Business.figures hsame
    have hm := h.effect.not_migration hcur
    obtain ⟨tx, action⟩ := c
    rw [hb, hb'] at hch
    cases hch with
    | edited _ _ _ hok =>
      obtain ⟨-, -, -, rfl⟩ := updateBusinessConfigHandler_eq_ok.mp hok
      rfl
    | receiptIssued => rfl
    | stampClaimed ha | cardClosed ha | voucherMinted ha | voucherRedeemed ha | voucherExpired ha =>
      simp only [Taken.event, ha, if_true, reduceCtorEq] at he
    | migrated => exact absurd rfl (hm.2 _)

theorem Run.figures (h : Run P start hist s) (hs : start.Empty) {b : Business}
    (hb : s.business? a = some b) :
    b.figures = Figures.of (eventsOf a hist) ∧ Figures.Sound (eventsOf a hist) := by
  refine h.induct_shop (I := fun hist _ b => b.figures = Figures.of (hist.filterMap (Taken.event a)) ∧
    Figures.Sound (hist.filterMap (Taken.event a))) hs ?_ ?_ hb
  · intro hist s c s' cs calls ps b accs args _ hst hact hadr _ hb
    obtain ⟨tx, action⟩ := c
    subst hact hadr
    obtain ⟨-, b', _, hb', hok⟩ := hst.registerBusiness
    rw [hb, Option.some.injEq] at hb'
    obtain ⟨-, -, -, rfl⟩ := registerBusinessHandler_eq_ok.mp hok
    subst hb'
    exact ⟨rfl, trivial⟩
  · intro hist s c s' cs calls ps b b' hrun hw hcur hst hreg hb hb' hi
    obtain ⟨hfig, hsound⟩ := hi
    obtain ⟨hafter, hcov⟩ := hst.figures hrun hs hw hcur hreg hb hb'
    cases he : Taken.event a ⟨s, c, s'⟩ with
    | none =>
      rw [he] at hafter
      rw [List.filterMap_cons_none he]
      exact ⟨hafter.trans hfig, hsound⟩
    | some e =>
      rw [he, hfig] at hafter
      rw [List.filterMap_cons_some he]
      exact ⟨hafter, hfig ▸ hcov e he, hsound⟩

/-- **A shop's figures are what its events come to.** The counters of a shop's record are those its events
since it was registered lead to, one by one and from nothing; each counts the events of its kind, none missed
and none counted twice, and no card and no voucher is ever taken off that the shop does not count. -/
theorem figures_follow_events (h : Run P start hist s) (hs : start.Empty) {b : Business}
    (hb : s.business? a = some b) :
    b.figures = Figures.of (eventsOf a hist) ∧ Figures.Sound (eventsOf a hist) ∧
      b.figures.Count (eventsOf a hist) := by
  obtain ⟨hfig, hsound⟩ := h.figures hs hb
  exact ⟨hfig, hsound, hfig ▸ hsound.count⟩

/-- A shop after one stamp and one voucher, cashed in. -/
theorem figures_follow_events_cashed_in : ∃ hist s b, Run Sample.platform Sample.start hist s ∧
    s.business? Sample.shop = some b ∧ b.figures = ⟨1, 1, 1, 1, 1, 0⟩ ∧
    b.figures = Figures.of (eventsOf Sample.shop hist) ∧ Figures.Sound (eventsOf Sample.shop hist) ∧
    b.figures.Count (eventsOf Sample.shop hist) := by
  obtain ⟨hist, s, hrun, -, hp⟩ := Leads.run (P := Sample.platform) (s := Sample.start)
    (l := [Sample.register 1000 1 0, Sample.issue 1010 7, Sample.claim 1020 9 7, Sample.cashIn 1030 9 0])
    (p := fun s => (s.business? Sample.shop).any fun b => b.figures = ⟨1, 1, 1, 1, 1, 0⟩) (by decide +kernel)
  obtain ⟨b, hb, hfig⟩ := (Option.any_eq_true ..).mp hp
  exact ⟨hist, s, b, hrun, hb, of_decide_eq_true hfig, figures_follow_events hrun Sample.start_empty hb⟩

end Passdari
