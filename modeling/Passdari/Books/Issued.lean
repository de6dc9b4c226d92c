/-
The vouchers a shop has issued since it was last registered: every one is
still open, was redeemed, or was cleaned up after it expired; their numbers
are their own, and each ends once.
-/
import Passdari.Books.Counters
import Passdari.Effect.Calls

namespace Passdari

open Wire Token2022

variable {P : Platform} {s s' start : State} {hist : History} {c : Call} {cs : List Change}
  {calls : List TokenCall} {ps : List Payment}

/-! ## Since a shop's registration -/

/-- The step registered the shop `b`. -/
def Action.registers (b : Address) : Action → Bool
  | .program (.registerBusiness accs _) => accs.business = b
  | _ => false

/-- The step cleaned up an expired voucher of the shop `b`. -/
def Action.expires (b : Address) : Action → Bool
  | .program (.closeExpiredVoucher accs) => accs.business = b
  | _ => false

theorem Action.registers_eq_true {b : Address} {a : Action} :
    a.registers b = true ↔ ∃ accs args, a = .program (.registerBusiness accs args) ∧ accs.business = b := by
  unfold Action.registers
  split <;> simp_all

theorem Action.expires_eq_true {b : Address} {a : Action} :
    a.expires b = true ↔ ∃ accs, a = .program (.closeExpiredVoucher accs) ∧ accs.business = b := by
  unfold Action.expires
  split <;> simp_all

/-- The steps since the shop `b` was last registered, newest first. -/
def since (b : Address) (hist : History) : History := hist.takeWhile fun st => !st.label.action.registers b

theorem since_cons (b : Address) (st : Taken) (hist : History) :
    since b (st :: hist) = if st.label.action.registers b then [] else st :: since b hist := by
  rw [since, List.takeWhile_cons]
  cases st.label.action.registers b <;> rfl

/-- How many vouchers of the shop `b` were cleaned up since it was last registered. -/
def expiredSince (b : Address) (hist : History) : Nat :=
  (since b hist).countP fun st => st.label.action.expires b

/-- The invariant rule for a shop's life: what holds at its registration, and is kept by every step it is
there before and after, holds of the shop and of what happened since. -/
theorem Run.induct_shop {I : History → State → Business → Prop} {a : Address} {b : Business}
    (h : Run P start hist s) (hs : start.Empty)
    (hreg : ∀ {hist s c s' cs calls ps b accs args}, Run P start hist s → Step P s c s' cs calls ps →
      c.action = .program (.registerBusiness accs args) → accs.business = a → s.business? a = none →
      s'.business? a = some b → I [] s' b)
    (hstep : ∀ {hist s c s' cs calls ps b b'}, Run P start hist s → s.WellPlaced → s.Current →
      Step P s c s' cs calls ps → c.action.registers a = false → s.business? a = some b →
      s'.business? a = some b' → I (since a hist) s b → I (⟨s, c, s'⟩ :: since a hist) s' b')
    (hb : s.business? a = some b) : I (since a hist) s b := by
  refine h.induct_empty (I := fun hist s => ∀ b, s.business? a = some b → I (since a hist) s b) hs ?_ ?_ b hb
  · intro b hb
    rw [State.business?, State.record?, hs.program] at hb
    cases hb
  · intro hist s c s' cs calls ps hrun hw hcur hi hst b' hb'
    rw [since_cons]
    cases hr : c.action.registers a with
    | true =>
      obtain ⟨tx, action⟩ := c
      obtain ⟨accs, args, rfl, rfl⟩ := Action.registers_eq_true.mp hr
      exact hreg hrun hst rfl rfl hst.registerBusiness.1 hb'
    | false =>
      -- a shop that is there now and was not registered by this step was there before it
      suffices hbefore : ∃ b, s.business? a = some b by
        obtain ⟨b, hb⟩ := hbefore
        exact hstep hrun hw hcur hst hr hb hb' (hi b hb)
      rcases hst.shop hw a with hsame | hch
      · exact ⟨b', hsame ▸ hb'⟩
      have hm := hst.effect.not_migration hcur
      obtain ⟨tx, action⟩ := c
      cases hbefore : s.business? a with
      | some b => exact ⟨b, rfl⟩
      | none =>
        rw [hbefore, hb'] at hch
        cases hch with
        | registered hadr => exact absurd (decide_eq_true hadr) (Bool.eq_false_iff.mp hr)
        | migrated => exact absurd rfl (hm.2 _)

/-! ## The sum of vouchers issued -/

theorem toNat_satSub_one {n : UInt32} (h : 0 < n.toNat) : (satSubU32 n 1).toNat + 1 = n.toNat := by
  have := toNat_satSubU32 n 1
  simp only [UInt32.toNat_one] at this
  omega

/-- A shop counts every voucher of its that is cleaned up, before the step. -/
theorem Step.expired_counted (hrun : Run P start hist s) (hs : start.Empty) (h : Step P s c s' cs calls ps)
    {a : Address} {b : Business} (hb : s.business? a = some b) (he : c.action.expires a = true) :
    0 < b.openVouchers.toNat ∧
      s'.business? a = some { b with openVouchers := satSubU32 b.openVouchers 1 } := by
  obtain ⟨tx, action⟩ := c
  obtain ⟨accs, rfl, rfl⟩ := Action.expires_eq_true.mp he
  obtain ⟨b₀, v, hb₀, hv, hvb, -, -, hafter⟩ := h.closeExpiredVoucher
  obtain ⟨x, hx, hpos⟩ := hrun.business_of_voucher hs hv
  rw [hb, Option.some.injEq] at hb₀
  rw [hvb, hb, Option.some.injEq] at hx
  subst hb₀ hx
  exact ⟨hpos, hafter⟩

/-- **Every voucher a shop issued since its registration is open, was redeemed, or was cleaned up.** -/
theorem Run.vouchersIssued (h : Run P start hist s) (hs : start.Empty) {a : Address} {b : Business}
    (hb : s.business? a = some b) : b.totalVouchersIssued.toNat =
      b.openVouchers.toNat + b.totalRedemptions.toNat + expiredSince a hist := by
  refine h.induct_shop (I := fun since _ b => b.totalVouchersIssued.toNat =
    b.openVouchers.toNat + b.totalRedemptions.toNat + since.countP fun st => st.label.action.expires a) hs ?_
    ?_ hb
  · intro hist s c s' cs calls ps b accs args _ hst hact hadr _ hb
    obtain ⟨tx, action⟩ := c
    subst hact hadr
    obtain ⟨-, b', _, hb', hok⟩ := hst.registerBusiness
    rw [hb, Option.some.injEq] at hb'
    obtain ⟨-, -, -, rfl⟩ := registerBusinessHandler_eq_ok.mp hok
    rw [hb']
    rfl
  · intro hist s c s' cs calls ps b b' hrun hw hcur hst hreg hb hb' hi
    rw [List.countP_cons]
    cases he : c.action.expires a with
    | true =>
      obtain ⟨hpos, hafter⟩ := hst.expired_counted hrun hs hb he
      rw [hb', Option.some.injEq] at hafter
      have := toNat_satSub_one hpos
      subst hafter
      simp only [if_true]
      omega
    | false =>
      simp only [Bool.false_eq_true, if_false, Nat.add_zero]
      rcases hst.shop hw a with hsame | hch
      · rw [hb, hb', Option.some.injEq] at hsame
        rwa [hsame]
      have hm := hst.effect.not_migration hcur
      obtain ⟨tx, action⟩ := c
      rw [hb, hb'] at hch
      cases hch with
      | edited _ _ _ hok =>
        obtain ⟨-, -, -, rfl⟩ := updateBusinessConfigHandler_eq_ok.mp hok
        exact hi
      | receiptIssued | stampClaimed | cardClosed => exact hi
      | voucherMinted _ _ htv hov =>
        simp only
        omega
      | voucherRedeemed hadr htr =>
        obtain ⟨_, v, _, -, hv, hvb, -⟩ := hst.redeemVoucher
        obtain ⟨x, hx, hpos⟩ := hrun.business_of_voucher hs hv
        rw [hvb, hadr, hb, Option.some.injEq] at hx
        subst hx
        have := toNat_satSub_one hpos
        simp only
        omega
      | voucherExpired hadr => exact absurd (decide_eq_true hadr) (Bool.eq_false_iff.mp he)
      | migrated => exact absurd rfl (hm.2 _)

/-! ## Voucher numbers -/

/-- Every voucher is where its shop and number put it, under a number its shop has issued. -/
def State.Numbered (P : Platform) (s : State) : Prop :=
  ∀ a v, s.voucher? a = some v →
    (∃ bump, findProgramAddress P (.voucher v.business v.voucherId) = some (a, bump)) ∧
    ∃ b, s.business? v.business = some b ∧ v.voucherId.toNat < b.totalVouchersIssued.toNat

/-- A shop with a live voucher outlives the step, having issued no fewer. -/
theorem Step.issued_le (hrun : Run P start hist s) (hs : start.Empty) (hw : s.WellPlaced)
    (h : Step P s c s' cs calls ps) {a : Address} {v : Voucher} {b : Business} (hv : s.voucher? a = some v)
    (hb : s.business? v.business = some b) :
    ∃ b', s'.business? v.business = some b' ∧ b.totalVouchersIssued.toNat ≤ b'.totalVouchersIssued.toNat := by
  have hm := h.effect.not_migration (hrun.current hs)
  rcases h.shop hw v.business with hsame | hch
  · exact ⟨b, hsame.trans hb, Nat.le_refl _⟩
  obtain ⟨tx, action⟩ := c
  rw [hb] at hch
  generalize s'.business? v.business = after at hch
  cases hch with
  | closed _ _ hok =>
    obtain ⟨-, -, h0⟩ := closeBusinessHandler_eq_ok.mp hok
    obtain ⟨x, hx, hpos⟩ := hrun.business_of_voucher hs hv
    rw [hb] at hx
    cases hx
    rw [h0] at hpos
    exact absurd hpos (Nat.lt_irrefl _)
  | edited _ _ _ hok =>
    obtain ⟨-, -, -, rfl⟩ := updateBusinessConfigHandler_eq_ok.mp hok
    exact ⟨_, rfl, Nat.le_refl _⟩
  | voucherMinted _ _ htv => exact ⟨_, rfl, Nat.le_of_succ_le htv.ge⟩
  | receiptIssued | stampClaimed | cardClosed | voucherRedeemed | voucherExpired =>
    exact ⟨_, rfl, Nat.le_refl _⟩
  | migrated => exact absurd rfl (hm.2 _)

theorem Run.numbered (h : Run P start hist s) (hs : start.Empty) : s.Numbered P := by
  refine h.induct_empty (I := fun _ s => s.Numbered P) hs ?_ ?_
  · intro a v hv
    rw [State.voucher?, State.record?, hs.program] at hv
    cases hv
  · intro hist s c s' cs calls ps hrun hw hcur hi hst a v' hv'
    have hkeep : ∀ v, s.voucher? a = some v → v'.business = v.business → v'.voucherId = v.voucherId →
        (∃ bump, findProgramAddress P (.voucher v'.business v'.voucherId) = some (a, bump)) ∧
          ∃ b, s'.business? v'.business = some b ∧ v'.voucherId.toNat < b.totalVouchersIssued.toNat := by
      intro v hv hbus hid
      obtain ⟨hf, b, hb, hlt⟩ := hi a v hv
      obtain ⟨b', hb', hle⟩ := hst.issued_le hrun hs hw hv hb
      rw [hbus, hid]
      exact ⟨hf, b', hb', by omega⟩
    rcases hst.voucher a with hsame | hch
    · exact hkeep v' (hsame ▸ hv') rfl rfl
    obtain ⟨tx, action⟩ := c
    rw [hv'] at hch
    generalize hbefore : s.voucher? a = before at hch hkeep
    cases hch with
    | @minted accs voucherId uri _ _ _ _ hadr _ _ _ hf =>
      obtain ⟨b, c, b', c', v, bump, hb, -, -, -, -, -, -, hok, hb', -⟩ := hst.mintVoucher
      obtain ⟨-, rfl, -, _, _, _, -, htv, -, rfl, -⟩ := mintVoucherHandler_eq_ok hok
      exact ⟨⟨_, hf⟩, _, hb', by simp only; omega⟩
    | handed => exact hkeep _ rfl rfl rfl

/-! ## The ends of a voucher -/

/-- The step redeemed the voucher at `a`, or cleaned it up. -/
def Action.ends (a : Address) (action : Action) : Prop :=
  (∃ accs, action = .program (.redeemVoucher accs) ∧ accs.voucher = a) ∨
    ∃ accs, action = .program (.closeExpiredVoucher accs) ∧ accs.voucher = a

/-- The step minted the voucher at `a`. -/
def Action.mints (a : Address) (action : Action) : Prop :=
  ∃ accs voucherId uri, action = .program (.mintVoucher accs voucherId uri) ∧ accs.voucher = a

theorem Step.ended (h : Step P s c s' cs calls ps) {a : Address} (ha : c.action.ends a) :
    s.voucher? a ≠ none ∧ s'.voucher? a = none := by
  obtain ⟨tx, action⟩ := c
  rcases ha with ⟨accs, rfl, rfl⟩ | ⟨accs, rfl, rfl⟩
  · obtain ⟨_, v, _, -, hv, -, -, -, -, hgone, -⟩ := h.redeemVoucher
    exact ⟨by rw [hv]; exact (by simp), hgone⟩
  · obtain ⟨_, v, -, hv, -, -, hgone, -⟩ := h.closeExpiredVoucher
    exact ⟨by rw [hv]; exact (by simp), hgone⟩

/-- **A voucher ends once**: between two ends at one address another voucher was minted there. -/
theorem Run.minted_between {later mid earlier : History} {st₁ st₂ : Taken} {a : Address}
    (h : Run P start (later ++ st₂ :: (mid ++ st₁ :: earlier)) s) (hs : start.WellPlaced)
    (h₁ : st₁.label.action.ends a) (h₂ : st₂.label.action.ends a) : ∃ st ∈ mid, st.label.action.mints a := by
  obtain ⟨hrun, hn₂, -⟩ := Runs.Run.split h
  obtain ⟨he, hn₁, hmid⟩ := Runs.Run.split hrun
  have hw₁ := Run.wellPlaced he hs
  obtain ⟨_, _, _, hst₁⟩ := hn₁.step hw₁
  obtain ⟨_, _, _, hst₂⟩ := hn₂.step (Run.wellPlaced hmid (hst₁.wellPlaced hw₁))
  obtain ⟨st, hmem, hpre, hpost⟩ := hmid.exists_step_becoming (P := fun s => s.voucher? a ≠ none)
    (not_not.mpr (hst₁.ended h₁).2) (hst₂.ended h₂).1
  refine ⟨st, hmem, ?_⟩
  obtain ⟨_, _, -, hbefore, hn, -⟩ := hmid.of_mem hmem
  obtain ⟨_, _, _, hst⟩ := hn.step (Run.wellPlaced hbefore (hst₁.wellPlaced hw₁))
  rw [not_not] at hpre
  rcases hst.voucher a with hsame | hch
  · exact absurd (hsame.trans hpre) hpost
  rw [hpre] at hch
  obtain ⟨pre, ⟨tx, action⟩, post⟩ := st
  generalize hafter : post.voucher? a = after at hch
  cases hch with
  | minted hadr => exact ⟨_, _, _, rfl, hadr⟩

/-! ## The counters of a shop -/

/-- What the counters of the shop `b` at `a` say of the accounts there are and of the run so far. -/
structure CountersExact (s : State) (hist : History) (a : Address) (b : Business) : Prop where
  cards : b.openCards.toNat = s.liveCards a
  vouchers : b.openVouchers.toNat = s.liveVouchers a
  numbers : ∀ x v, s.voucher? x = some v → v.business = a → v.voucherId.toNat < b.totalVouchersIssued.toNat
  distinct : ∀ x y v w, s.voucher? x = some v → s.voucher? y = some w → v.business = a → w.business = a →
    v.voucherId = w.voucherId → x = y
  issued : b.totalVouchersIssued.toNat = b.openVouchers.toNat + b.totalRedemptions.toNat + expiredSince a hist

theorem Run.countersExact (h : Run P start hist s) (hs : start.Empty) {a : Address} {b : Business}
    (hb : s.business? a = some b) : CountersExact s hist a b where
  cards := by rw [h.openCards hs, State.figure_of_some hb]
  vouchers := by rw [h.openVouchers hs, State.figure_of_some hb]
  numbers x v hv hva := by
    obtain ⟨-, b', hb', hlt⟩ := h.numbered hs x v hv
    rw [hva, hb, Option.some.injEq] at hb'
    rwa [hb']
  distinct x y v w hv hw hva hwa hid := by
    obtain ⟨⟨_, hx⟩, -⟩ := h.numbered hs x v hv
    obtain ⟨⟨_, hy⟩, -⟩ := h.numbered hs y w hw
    rw [hva, hid, ← hwa, hy] at hx
    cases hx
    rfl
  issued := h.vouchersIssued hs hb

/-- The step's `saturating_sub` on a counter of the shop at `a`, where it makes one, took off one. -/
def ExactSub (st : Taken) (f : Business → UInt32) (a : Address) : Prop :=
  ∃ b b', st.pre.business? a = some b ∧ st.post.business? a = some b' ∧ (f b').toNat + 1 = (f b).toNat

/-- No counter is ever taken below zero. -/
def NoSaturation (st : Taken) : Prop :=
  match st.label.action with
  | .program (.closeDeadCard accs) => ExactSub st (fun b => b.openCards) accs.business
  | .program (.redeemVoucher accs) => ExactSub st (fun b => b.openVouchers) accs.business
  | .program (.closeExpiredVoucher accs) => ExactSub st (fun b => b.openVouchers) accs.business
  | _ => True

theorem Run.noSaturation (h : Run P start hist s) (hs : start.Empty) : ∀ st ∈ hist, NoSaturation st := by
  refine h.forall_steps fun {earlier st} hrun hn => ?_
  obtain ⟨cs, calls, ps, hst⟩ := hn.step (Run.wellPlaced hrun hs.wellPlaced)
  obtain ⟨pre, ⟨tx, action⟩, post⟩ := st
  unfold NoSaturation
  split
  · next accs ha =>
    cases ha
    obtain ⟨b, c, hb, hc, hcb, -, hb'⟩ := hst.closeDeadCard
    obtain ⟨x, hx, hpos⟩ := Run.business_of_card hrun hs hc
    rw [hcb, hb] at hx
    cases hx
    exact ⟨b, _, hb, hb', toNat_satSub_one hpos⟩
  · next accs ha =>
    cases ha
    obtain ⟨b, v, _, hb, hv, hvb, -, -, -, -, hb'⟩ := hst.redeemVoucher
    obtain ⟨x, hx, hpos⟩ := Run.business_of_voucher hrun hs hv
    rw [hvb, hb] at hx
    cases hx
    exact ⟨b, _, hb, hb', toNat_satSub_one hpos⟩
  · next accs ha =>
    cases ha
    obtain ⟨b, v, hb, hv, hvb, -, -, hb'⟩ := hst.closeExpiredVoucher
    obtain ⟨x, hx, hpos⟩ := Run.business_of_voucher hrun hs hv
    rw [hvb, hb] at hx
    cases hx
    exact ⟨b, _, hb, hb', toNat_satSub_one hpos⟩
  · trivial

/-- **The live counters are exact, and closing a shop never strands a card or a voucher.** -/
theorem live_counters_exact (h : Run P start hist s) (hs : start.Empty) :
    (∀ a b, s.business? a = some b → CountersExact s hist a b) ∧ (∀ st ∈ hist, NoSaturation st) ∧
    (∀ a c, s.card? a = some c → ∃ b, s.business? c.business = some b) ∧
    (∀ a v, s.voucher? a = some v → ∃ b, s.business? v.business = some b) ∧
    ∀ later mid earlier st₁ st₂ a, hist = later ++ st₂ :: (mid ++ st₁ :: earlier) →
      st₁.label.action.ends a → st₂.label.action.ends a → ∃ st ∈ mid, st.label.action.mints a := by
  refine ⟨fun a b hb => h.countersExact hs hb, h.noSaturation hs, fun a c hc => ?_, fun a v hv => ?_, ?_⟩
  · obtain ⟨b, hb, -⟩ := h.business_of_card hs hc
    exact ⟨b, hb⟩
  · obtain ⟨b, hb, -⟩ := h.business_of_voucher hs hv
    exact ⟨b, hb⟩
  · intro later mid earlier st₁ st₂ a heq
    subst heq
    intro h₁ h₂
    exact h.minted_between hs.wellPlaced h₁ h₂

theorem live_counters_exact_cashed_in : ∃ hist s b, Run Sample.platform Sample.start hist s ∧
    s.business? Sample.shop = some b ∧ b.openVouchers = 1 ∧ CountersExact s hist Sample.shop b := by
  obtain ⟨hist, s, hrun, -, hp⟩ := Leads.run (P := Sample.platform) (s := Sample.start)
    (l := [Sample.register 1000 1 0, Sample.issue 1010 7, Sample.claim 1020 9 7, Sample.cashIn 1030 9 0])
    (p := fun s => (s.business? Sample.shop).any fun b => b.openVouchers == 1) (by decide +kernel)
  obtain ⟨b, hb, hopen⟩ := (Option.any_eq_true ..).mp hp
  exact ⟨hist, s, b, hrun, hb, eq_of_beq hopen, (live_counters_exact hrun Sample.start_empty).1 _ _ hb⟩

end Passdari
