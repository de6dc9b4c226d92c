/-
The live counters of a shop: how many of its cards and vouchers are open
right now, whatever was opened, closed, reopened or registered again.

A figure kept in a shop's record is written as a sum over all records as
well (it is only found at one address), so that both sides of each equation
are sums and a step moves both by the records it changes.
-/
import Passdari.Effect.Accounts

namespace Passdari

open Wire Token2022

variable {P : Platform} {tx : Tx} {s s' start : State} {hist : History} {c : Call} {cs : List Change}
  {calls : List TokenCall} {ps : List Payment} {action : Action}

/-- One for each card of the shop `b`. -/
def cardOf (b : Address) (_ : Address) : Record → Nat
  | .card c => if c.business = b then 1 else 0
  | _ => 0

/-- One for each voucher of the shop `b`. -/
def voucherOf (b : Address) (_ : Address) : Record → Nat
  | .voucher v => if v.business = b then 1 else 0
  | _ => 0

/-- A figure kept in the record of the shop `b`. -/
def figureOf (f : Business → Nat) (b a : Address) : Record → Nat
  | .business x => if a = b then f x else 0
  | _ => 0

/-- How many live cards, and live vouchers, name the shop `b`. -/
def State.liveCards (s : State) (b : Address) : Nat := s.total (cardOf b)
def State.liveVouchers (s : State) (b : Address) : Nat := s.total (voucherOf b)

/-- The figure of the shop at `b`, or nothing when there is no shop. -/
def State.figure (s : State) (f : Business → Nat) (b : Address) : Nat := (s.business? b).elim 0 f

theorem total_figureOf (s : State) (f : Business → Nat) (b : Address) :
    s.total (figureOf f b) = s.figure f b := by
  rw [State.total_at (a := b), State.figure, State.business?]
  · cases s.record? b with
    | none => rfl
    | some r => cases r <;> simp [Change.weigh, figureOf, Record.business?]
  · intro a r ha
    cases r <;> simp [figureOf, ha]

theorem State.figure_of_some {f : Business → Nat} {b : Address} {x : Business} (h : s.business? b = some x) :
    s.figure f b = f x := by rw [State.figure, h]; rfl

theorem State.figure_of_none {f : Business → Nat} {b : Address} (h : s.business? b = none) :
    s.figure f b = 0 := by rw [State.figure, h]; rfl

/-- A law that one sum is another holds on where a step moves both alike. -/
theorem Step.balanced {w v : Address → Record → Nat} (h : Step P s c s' cs calls ps)
    (hs : s.total w = s.total v)
    (hcs : incoming w cs + outgoing v cs = outgoing w cs + incoming v cs) : s'.total w = s'.total v := by
  have hw := h.changed.total w
  have hv := h.changed.total v
  omega

/-! ## Cards -/

theorem one_le_liveCards {a : Address} {x : LoyaltyCard} (h : s.record? a = some (.card x)) :
    1 ≤ s.liveCards x.business := by
  have := State.le_total (w := cardOf x.business) h
  rwa [cardOf, if_pos rfl] at this

theorem one_le_liveVouchers {a : Address} {v : Voucher} (h : s.record? a = some (.voucher v)) :
    1 ≤ s.liveVouchers v.business := by
  have := State.le_total (w := voucherOf v.business) h
  rwa [voucherOf, if_pos rfl] at this

/-- What a step does to the number of a shop's cards it does to the shop's count of them. -/
theorem Effect.openCards_balanced (hw : s.WellPlaced) (hs : s.Current) (h : Effect P tx s action cs calls ps)
    (hinv : ∀ b, s.liveCards b ≤ s.figure (fun x => x.openCards.toNat) b) (b : Address) :
    incoming (cardOf b) cs + outgoing (figureOf (fun x => x.openCards.toNat) b) cs =
      outgoing (cardOf b) cs + incoming (figureOf (fun x => x.openCards.toNat) b) cs := by
  have hm := h.not_migration hs
  cases h with
  | registerBusiness _ _ _ _ hok =>
    obtain ⟨-, -, -, rfl⟩ := registerBusinessHandler_eq_ok.mp hok
    simp [cardOf, figureOf]
  | updateBusinessConfig _ _ _ _ hok =>
    obtain ⟨-, -, -, rfl⟩ := updateBusinessConfigHandler_eq_ok.mp hok
    simp [cardOf, figureOf]
  | closeBusiness _ _ _ _ hok =>
    obtain ⟨-, h0, -⟩ := closeBusinessHandler_eq_ok.mp hok
    simp [cardOf, figureOf, h0]
  | issueReceipt _ _ _ _ _ _ _ hok =>
    obtain ⟨-, _, _, _, -, -, -, -, rfl, rfl⟩ := issueReceiptHandler_eq_ok hok
    simp [cardOf, figureOf]
  | @claimReceipt accs secret b₀ b' r bump c' c hb hr _ _ _ hf hc _ hown _ hok =>
    obtain ⟨-, -, hstamp, tc, oc, ts, hoc, -, rfl⟩ :=
      claimReceiptHandler_spec (hw.business_ne_default hb) hown hok
    obtain ⟨-, _, _, _, _, -, -, -, -, -, rfl⟩ := stampCard_eq_ok hstamp
    cases c with
    | none =>
      simp [cardOf, figureOf, claimedCard] at hoc ⊢
      split <;> omega
    | some x =>
      have hx := (hown x rfl).1
      simp [cardOf, figureOf, claimedCard, hx] at hoc ⊢
      split <;> omega
  | transferStamps _ _ _ _ _ _ _ _ _ hok =>
    obtain ⟨-, _, _, _, _, -, -, -, -, rfl, rfl⟩ := transferStampsHandler_eq_ok hok
    simp [cardOf, figureOf]
  | @closeDeadCard accs b₀ c _ _ hc hb _ _ _ hbus =>
    have hpos := Nat.le_trans (one_le_liveCards hc) (hinv _)
    rw [State.figure_of_some (State.business?_eq_some.mpr (hbus ▸ hb))] at hpos
    have hsat := toNat_satSubU32 b₀.openCards 1
    simp only [UInt32.toNat_one] at hsat
    simp [cardOf, figureOf, hbus, hsat]
    split <;> omega
  | retireIdleCardNft => simp [cardOf, figureOf]
  | mintVoucher _ _ _ _ _ _ _ _ _ _ _ _ _ _ _ hok =>
    obtain ⟨-, -, hcash, _, _, _, -, -, -, rfl, rfl⟩ := mintVoucherHandler_eq_ok hok
    obtain ⟨_, -, rfl⟩ := cashIn_eq_ok hcash
    simp [cardOf, figureOf]
  | migrateCard => exact absurd rfl (hm.1 _)
  | migrateBusiness => exact absurd rfl (hm.2 _)
  | _ => simp [cardOf, figureOf]

/-! ## Vouchers -/

/-- What a step does to the number of a shop's vouchers it does to the shop's count of them. -/
theorem Effect.openVouchers_balanced (hw : s.WellPlaced) (hs : s.Current)
    (h : Effect P tx s action cs calls ps)
    (hinv : ∀ b, s.liveVouchers b = s.figure (fun x => x.openVouchers.toNat) b) (b : Address) :
    incoming (voucherOf b) cs + outgoing (figureOf (fun x => x.openVouchers.toNat) b) cs =
      outgoing (voucherOf b) cs + incoming (figureOf (fun x => x.openVouchers.toNat) b) cs := by
  have hm := h.not_migration hs
  -- a shop some voucher of which is live counts at least one
  have hpos : ∀ {a b₀ x v}, s.record? a = some (.voucher v) → s.record? b₀ = some (.business x) →
      v.business = b₀ → (satSubU32 x.openVouchers 1).toNat + 1 = x.openVouchers.toNat := by
    intro a b₀ x v hv hx hb
    have := one_le_liveVouchers hv
    rw [hinv, hb, State.figure_of_some (State.business?_eq_some.mpr hx)] at this
    have hsat := toNat_satSubU32 x.openVouchers 1
    simp only [UInt32.toNat_one] at hsat
    omega
  cases h with
  | registerBusiness _ _ _ _ hok =>
    obtain ⟨-, -, -, rfl⟩ := registerBusinessHandler_eq_ok.mp hok
    simp [voucherOf, figureOf]
  | updateBusinessConfig _ _ _ _ hok =>
    obtain ⟨-, -, -, rfl⟩ := updateBusinessConfigHandler_eq_ok.mp hok
    simp [voucherOf, figureOf]
  | closeBusiness _ _ _ _ hok =>
    obtain ⟨-, -, h0⟩ := closeBusinessHandler_eq_ok.mp hok
    simp [voucherOf, figureOf, h0]
  | issueReceipt _ _ _ _ _ _ _ hok =>
    obtain ⟨-, _, _, _, -, -, -, -, rfl, rfl⟩ := issueReceiptHandler_eq_ok hok
    simp [voucherOf, figureOf]
  | @claimReceipt accs secret b₀ b' r bump c' c hb hr _ _ _ _ _ _ hown _ hok =>
    obtain ⟨-, -, -, _, _, _, -, -, rfl⟩ := claimReceiptHandler_spec (hw.business_ne_default hb) hown hok
    cases c <;> simp [voucherOf, figureOf]
  | mintVoucher _ _ _ _ _ _ _ _ _ _ _ _ _ _ _ hok =>
    obtain ⟨-, -, -, _, _, _, -, -, hov, rfl, rfl⟩ := mintVoucherHandler_eq_ok hok
    simp [voucherOf, figureOf]
    split <;> omega
  | redeemVoucher hb _ _ hv _ _ _ _ hvb =>
    have := hpos hv hb hvb
    simp [voucherOf, figureOf, hvb]
    split <;> omega
  | closeExpiredVoucher hv hb _ _ _ _ hvb =>
    have := hpos hv hb hvb.symm
    simp [voucherOf, figureOf, hvb]
    split <;> omega
  | migrateCard => exact absurd rfl (hm.1 _)
  | migrateBusiness => exact absurd rfl (hm.2 _)
  | _ => simp [voucherOf, figureOf]

/-! ## Runs -/

/-- A shop's count of open cards is the number of its live cards; with no shop there is no card. -/
theorem Run.openCards (h : Run P start hist s) (hs : start.Empty) (b : Address) :
    s.liveCards b = s.figure (fun x => x.openCards.toNat) b := by
  refine h.induct_empty (I := fun _ s => ∀ b, s.liveCards b = s.figure (fun x => x.openCards.toNat) b) hs ?_
    ?_ b
  · exact fun b => by rw [State.liveCards, hs.total, ← total_figureOf, hs.total]
  · intro hist s c s' cs calls ps _ hw hcur hi hst b
    have := hst.balanced (by rw [total_figureOf]; exact hi b)
      (hst.effect.openCards_balanced hw hcur (fun b => (hi b).le) b)
    rwa [total_figureOf] at this

theorem Run.openVouchers (h : Run P start hist s) (hs : start.Empty) (b : Address) :
    s.liveVouchers b = s.figure (fun x => x.openVouchers.toNat) b := by
  refine h.induct_empty (I := fun _ s => ∀ b, s.liveVouchers b = s.figure (fun x => x.openVouchers.toNat) b)
    hs ?_ ?_ b
  · exact fun b => by rw [State.liveVouchers, hs.total, ← total_figureOf, hs.total]
  · intro hist s c s' cs calls ps _ hw hcur hi hst b
    have := hst.balanced (by rw [total_figureOf]; exact hi b) (hst.effect.openVouchers_balanced hw hcur hi b)
    rwa [total_figureOf] at this

theorem State.exists_business {f : Business → Nat} {b : Address} (h : 0 < s.figure f b) :
    ∃ x, s.business? b = some x ∧ 0 < f x := by
  cases hb : s.business? b with
  | none => rw [s.figure_of_none hb] at h; exact absurd h (Nat.lt_irrefl 0)
  | some x => rw [s.figure_of_some hb] at h; exact ⟨x, rfl, h⟩

/-- The shop of a live card is there and counts it. -/
theorem Run.business_of_card (h : Run P start hist s) (hs : start.Empty) {a : Address} {x : LoyaltyCard}
    (hx : s.card? a = some x) : ∃ b, s.business? x.business = some b ∧ 0 < b.openCards.toNat := by
  have := one_le_liveCards (State.card?_eq_some.mp hx)
  rw [h.openCards hs] at this
  exact State.exists_business this

theorem Run.business_of_voucher (h : Run P start hist s) (hs : start.Empty) {a : Address} {v : Voucher}
    (hv : s.voucher? a = some v) : ∃ b, s.business? v.business = some b ∧ 0 < b.openVouchers.toNat := by
  have := one_le_liveVouchers (State.voucher?_eq_some.mp hv)
  rw [h.openVouchers hs] at this
  exact State.exists_business this

end Passdari
