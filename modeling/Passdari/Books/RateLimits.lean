/-
How often receipts are issued and stamps claimed. Both limits are kept by a
counter that starts again when its hour, or its day, is over, or when the
shop is registered again: so a stretch as long as that may hold what two of
its windows allow, and what one more allows for every new registration.
-/
import Passdari.Books.FreshNfts
import Passdari.Books.Issued
import Passdari.Lib.Windows

namespace Passdari

open Wire Token2022

variable {P : Platform} {s s' start : State} {hist : History} {c : Call} {cs : List Change}
  {calls : List TokenCall} {ps : List Payment} {a : Address} {t : Int}

/-- The step issues a receipt of the shop `b`. -/
def Action.issuesFor (b : Address) : Action → Bool
  | .program (.issueReceipt accs _ _) => accs.business = b
  | _ => false

/-- The step claims a stamp for the card `a`. -/
def Action.claimsOn (a : Address) : Action → Bool
  | .program (.claimReceipt accs _) => accs.card = a
  | _ => false

/-- How many steps of a kind there were from `t` on for a time. -/
def during (p : Action → Bool) (t len : Int) (hist : History) : Nat :=
  hist.countP fun st => p st.label.action && decide
    (t ≤ st.label.tx.now.toInt ∧ st.label.tx.now.toInt < t + len)

/-- The moment is not before anything that happened. -/
def Present (hist : History) (now : Int) : Prop := ∀ st ∈ hist, st.label.tx.now.toInt ≤ now

theorem during_cons (p : Action → Bool) (len : Int) (st : Taken) : during p t len (st :: hist) =
    during p t len hist + if p st.label.action then Window.within t len st.label.tx.now.toInt else 0 := by
  rw [during, List.countP_cons, ← during, Window.within]
  cases p st.label.action <;> simp

theorem Action.issuesFor_eq_true {b : Address} {action : Action} : action.issuesFor b = true ↔
    ∃ accs secretHash band, action = .program (.issueReceipt accs secretHash band) ∧ accs.business = b := by
  unfold Action.issuesFor
  split <;> simp_all

theorem Action.claimsOn_eq_true {action : Action} : action.claimsOn a = true ↔
    ∃ accs secret, action = .program (.claimReceipt accs secret) ∧ accs.card = a := by
  unfold Action.claimsOn
  split <;> simp_all

/-! ## The two counters -/

def Business.window (b : Business) : Window := ⟨b.receiptsWindowStart.toInt, b.receiptsThisWindow.toNat⟩

def LoyaltyCard.window (x : LoyaltyCard) : Window := ⟨x.claimsWindowStart.toInt, x.claimsThisWindow.toNat⟩

/-- Issuing a receipt is a hit on the shop's counter, which has room for it. -/
theorem issueReceiptHandler_hit {now : Int64} {accs : IssueReceipt} {bump band} {b b' : Business}
    {r : Receipt}
    (h : issueReceiptHandler now accs bump band b = .ok (b', r)) :
    (b.window.due 3600 now.toInt).count < maxReceiptsPerHour.toNat ∧
    b'.window = (b.window.due 3600 now.toInt).hit := by
  obtain ⟨-, elapsed, thisWindow, _, helapsed, hroom, hcount, -, rfl, -⟩ := issueReceiptHandler_eq_ok h
  have hdue : (3600 : Int64) ≤ elapsed ↔ (3600 : Int) ≤ now.toInt - b.window.start := by
    rw [Business.window, ← helapsed]
    exact Int64.le_iff_toInt_le
  rw [UInt32.lt_iff_toNat_lt] at hroom
  by_cases hover : (3600 : Int64) ≤ elapsed
  · rw [if_pos hover] at hroom hcount
    rw [Window.due_of_over (hdue.mp hover)]
    refine ⟨hroom, ?_⟩
    rw [Business.window, Window.hit, if_pos hover, hcount]
    rfl
  · rw [if_neg hover] at hroom hcount
    rw [Window.due_of_running (hdue.not.mp hover)]
    refine ⟨hroom, ?_⟩
    rw [Business.window, Window.hit, if_neg hover, hcount]
    rfl

/-- A stamp is a hit on the card's counter, which has room for it. -/
theorem stampCard_hit {now : Int64} {x y : LoyaltyCard} (h : stampCard now x = .ok y) :
    (x.window.due 86400 now.toInt).count < maxClaimsPerCardPerDay.toNat ∧
      y.window = (x.window.due 86400 now.toInt).hit ∧ y.lastStampTs = now := by
  obtain ⟨-, elapsed, thisWindow, _, _, helapsed, hroom, hcount, -, -, rfl⟩ := stampCard_eq_ok h
  have hdue : (86400 : Int64) ≤ elapsed ↔ (86400 : Int) ≤ now.toInt - x.window.start := by
    rw [LoyaltyCard.window, ← helapsed]
    exact Int64.le_iff_toInt_le
  rw [UInt32.lt_iff_toNat_lt] at hroom
  by_cases hover : (86400 : Int64) ≤ elapsed
  · rw [if_pos hover] at hroom hcount
    rw [Window.due_of_over (hdue.mp hover)]
    refine ⟨hroom, ?_, rfl⟩
    rw [LoyaltyCard.window, Window.hit, if_pos hover, hcount]
    rfl
  · rw [if_neg hover] at hroom hcount
    rw [Window.due_of_running (hdue.not.mp hover)]
    refine ⟨hroom, ?_, rfl⟩
    rw [LoyaltyCard.window, Window.hit, if_neg hover, hcount]
    rfl

/-! ## Receipts -/

theorem Step.receiptIssued {tx : Tx} {accs secretHash band}
    (h : Step P s ⟨tx, .program (.issueReceipt accs secretHash band)⟩ s' cs calls ps) :
    ∃ b b' r bump, s.business? accs.business = some b ∧ s'.business? accs.business = some b' ∧
      issueReceiptHandler tx.now accs bump band b = .ok (b', r) := by
  obtain ⟨he, hc, -⟩ := h
  cases he with
  | issueReceipt hb _ _ _ _ _ _ hok =>
    exact ⟨_, _, _, _, State.business?_eq_some.mpr hb,
      State.business?_eq_some.mpr (hc.record? List.mem_cons_self), hok⟩

/-- No other step moves a shop's counter. -/
theorem Step.window_kept (hw : s.WellPlaced) (hcur : s.Current) (h : Step P s c s' cs calls ps)
    (hissue : c.action.issuesFor a = false) (hreg : c.action.registers a = false) {b' : Business}
    (hb' : s'.business? a = some b') : ∃ b, s.business? a = some b ∧ b'.window = b.window := by
  rcases h.shop hw a with hsame | hch
  · exact ⟨b', hsame.symm.trans hb', rfl⟩
  have hm := h.effect.not_migration hcur
  obtain ⟨tx, action⟩ := c
  rw [hb'] at hch
  generalize s.business? a = before at hch
  cases hch with
  | registered hadr => exact absurd (decide_eq_true hadr) (Bool.eq_false_iff.mp hreg)
  | receiptIssued hadr => exact absurd (decide_eq_true hadr) (Bool.eq_false_iff.mp hissue)
  | edited _ _ _ hok =>
    obtain ⟨-, -, -, rfl⟩ := updateBusinessConfigHandler_eq_ok.mp hok
    exact ⟨_, rfl, rfl⟩
  | stampClaimed | cardClosed | voucherMinted | voucherRedeemed | voucherExpired => exact ⟨_, rfl, rfl⟩
  | migrated => exact absurd rfl (hm.2 _)

/-- What is known of the receipts of the shop `a`: a counter that is the shop's own while there is one. -/
def ReceiptsTallied (a : Address) (t : Int) (hist : History) (s : State) : Prop :=
  ∃ w, (∀ now, Present hist now → Window.Tally t 3600 maxReceiptsPerHour.toNat now w
      (during (Action.issuesFor a) t 3600 hist) (during (Action.registers a) t 3600 hist)) ∧
    ∀ b, s.business? a = some b → b.window = w

theorem Run.receiptsTallied (h : Run P start hist s) (hs : start.Empty) (hclock : ClockKept hist)
    (a : Address) (t : Int) :
    ReceiptsTallied a t hist s := by
  refine h.induct_empty (I := fun hist s => ClockKept hist → ReceiptsTallied a t hist s) hs ?_ ?_ hclock
  · intro _
    refine ⟨Window.blank, fun now _ => Window.Tally.start (Int.le_refl 0), fun b hb => ?_⟩
    rw [State.business?, State.record?, hs.program] at hb
    cases hb
  · intro hist s c s' cs calls ps hrun hw hcur hi hst hclock
    obtain ⟨hpast, hclock⟩ := List.pairwise_cons.mp hclock
    obtain ⟨w, htally, hwin⟩ := hi hclock
    have hnow := htally c.tx.now.toInt hpast
    have hafter : ∀ {now}, Present (⟨s, c, s'⟩ :: hist) now → c.tx.now.toInt ≤ now :=
      fun hp => hp _ List.mem_cons_self
    simp only [ReceiptsTallied, during_cons]
    cases hissue : c.action.issuesFor a with
    | true =>
      obtain ⟨tx, action⟩ := c
      obtain ⟨accs, secretHash, band, rfl, rfl⟩ := Action.issuesFor_eq_true.mp hissue
      obtain ⟨b, b', r, bump, hb, hb', hok⟩ := hst.receiptIssued
      obtain ⟨hroom, hhit⟩ := issueReceiptHandler_hit hok
      obtain rfl := hwin b hb
      refine ⟨b'.window, fun now hp => ?_, fun x hx => ?_⟩
      · rw [hhit]
        exact (hnow.hit (by decide) hroom).later (hafter hp)
      · rw [hb', Option.some.injEq] at hx
        rw [hx]
    | false =>
      cases hreg : c.action.registers a with
      | true =>
        obtain ⟨tx, action⟩ := c
        obtain ⟨accs, args, rfl, rfl⟩ := Action.registers_eq_true.mp hreg
        obtain ⟨-, b, bump, hb, hok⟩ := hst.registerBusiness
        obtain ⟨-, -, -, rfl⟩ := registerBusinessHandler_eq_ok.mp hok
        refine ⟨Window.blank, fun now hp => ?_, fun x hx => ?_⟩
        · exact (hnow.renew (by decide)).later (hafter hp)
        · rw [hb, Option.some.injEq] at hx
          rw [← hx]
          rfl
      | false =>
        refine ⟨w, fun now hp => hnow.later (hafter hp), fun b' hb' => ?_⟩
        obtain ⟨b, hb, hsame⟩ := hst.window_kept hw hcur hissue hreg hb'
        rw [hsame, hwin b hb]

/-! ## Stamps -/

/-- No other step moves the counter of a card, or the date of its last stamp. -/
theorem Step.card_window_kept (hw : s.WellPlaced) (hcur : s.Current) (h : Step P s c s' cs calls ps)
    (hclaim : c.action.claimsOn a = false) {y : LoyaltyCard} (hy : s'.card? a = some y) :
    ∃ x, s.card? a = some x ∧ y.window = x.window ∧ y.lastStampTs = x.lastStampTs := by
  rcases h.card hw a with hsame | hch
  · exact ⟨y, hsame.symm.trans hy, rfl, rfl⟩
  have hm := h.effect.not_migration hcur
  obtain ⟨tx, action⟩ := c
  rw [hy] at hch
  generalize s.card? a = before at hch
  cases hch with
  | stamped hadr => exact absurd (decide_eq_true hadr) (Bool.eq_false_iff.mp hclaim)
  | sent _ _ _ _ hok =>
    obtain ⟨-, _, _, _, _, -, -, -, -, rfl, -⟩ := transferStampsHandler_eq_ok hok
    exact ⟨_, rfl, rfl, rfl⟩
  | received _ _ _ hok =>
    obtain ⟨-, _, _, _, _, -, -, -, -, -, rfl⟩ := transferStampsHandler_eq_ok hok
    exact ⟨_, rfl, rfl, rfl⟩
  | cashedIn _ _ _ _ _ hok =>
    obtain ⟨_, -, rfl⟩ := cashIn_eq_ok hok
    exact ⟨_, rfl, rfl, rfl⟩
  | nftRetired => exact ⟨_, rfl, rfl, rfl⟩
  | migrated => exact absurd rfl (hm.1 _)

/-- A card that goes away had no stamp for a year. -/
theorem Step.card_closed_idle (hw : s.WellPlaced) (h : Step P s c s' cs calls ps) {x : LoyaltyCard}
    (hx : s.card? a = some x)
    (hgone : s'.card? a = none) : cardDeadSeconds.toInt ≤ c.tx.now.toInt - x.lastStampTs.toInt := by
  rcases h.card hw a with hsame | hch
  · rw [hgone, hx] at hsame
    cases hsame
  obtain ⟨tx, action⟩ := c
  rw [hx, hgone] at hch
  cases hch with
  | closed _ _ hsince hdead =>
    rw [← subI64_eq_ok.mp hsince]
    exact Int64.le_iff_toInt_le.mp hdead

/-- What is known of the claims on the card `a`: its own counter holds them, and none was made of late once it
is gone. -/
structure ClaimsTallied (a : Address) (t : Int) (hist : History) (s : State) : Prop where
  card : ∀ x, s.card? a = some x → (0 < during (Action.claimsOn a) t 86400 hist → t ≤ x.lastStampTs.toInt) ∧
    ∀ now, Present hist now → Window.Tally t 86400 maxClaimsPerCardPerDay.toNat now x.window
      (during (Action.claimsOn a) t 86400 hist) 0
  gone : s.card? a = none → during (Action.claimsOn a) t 86400 hist ≤ maxClaimsPerCardPerDay.toNat * 2 ∧
    (0 < during (Action.claimsOn a) t 86400 hist → ∀ now, Present hist now → t + 86400 ≤ now)

/-- The counter a claim hits: that of the card, or a blank one. -/
theorem ClaimsTallied.claimed (h : ClaimsTallied a t hist s) {now : Int} (hnow : Present hist now)
    {accs : ClaimReceipt}
    {bump : UInt8} {b : Business} : Window.Tally t 86400 maxClaimsPerCardPerDay.toNat now
      (claimedCard accs bump b (s.card? a)).window (during (Action.claimsOn a) t 86400 hist) 0 := by
  cases hx : s.card? a with
  | some x => exact (h.card x hx).2 now hnow
  | none =>
    have hblank : (claimedCard accs bump b none).window = Window.blank := rfl
    obtain ⟨hbound, hlong⟩ := h.gone hx
    rw [hblank]
    rcases Nat.eq_zero_or_pos (during (Action.claimsOn a) t 86400 hist) with h0 | hpos
    · rw [h0]
      exact Window.Tally.start (Int.le_refl 0)
    · exact Window.Tally.lapsed (Int.le_refl 0) (by decide) hbound (hlong hpos now hnow)

theorem Run.claimsTallied (h : Run P start hist s) (hs : start.Empty) (hclock : ClockKept hist) (a : Address)
    (t : Int) :
    ClaimsTallied a t hist s := by
  refine h.induct_empty (I := fun hist s => ClockKept hist → ClaimsTallied a t hist s) hs ?_ ?_ hclock
  · intro _
    refine ⟨fun x hx => ?_, fun _ => ⟨Nat.zero_le _, fun h0 => absurd h0 (Nat.lt_irrefl 0)⟩⟩
    rw [State.card?, State.record?, hs.program] at hx
    cases hx
  · intro hist s c s' cs calls ps hrun hw hcur hi hst hclock
    obtain ⟨hpast, hclock⟩ := List.pairwise_cons.mp hclock
    have htally := hi hclock
    have hafter : ∀ {now}, Present (⟨s, c, s'⟩ :: hist) now → c.tx.now.toInt ≤ now :=
      fun hp => hp _ List.mem_cons_self
    have hbefore : ∀ {now}, Present (⟨s, c, s'⟩ :: hist) now → Present hist now :=
      fun hp st hmem => hp st (List.mem_cons_of_mem _ hmem)
    cases hclaim : c.action.claimsOn a with
    | true =>
      obtain ⟨tx, action⟩ := c
      obtain ⟨accs, secret, rfl, rfl⟩ := Action.claimsOn_eq_true.mp hclaim
      obtain ⟨b, r, y, bump, -, -, -, -, -, -, -, hok, hy, -⟩ := hst.claimReceipt hw
      obtain ⟨hroom, hhit, hlast⟩ := stampCard_hit hok
      have hnow := (htally.claimed hpast).hit (by decide) hroom
      refine ⟨fun x hx => ?_, fun hnone => ?_⟩
      · rw [hy, Option.some.injEq] at hx
        subst hx
        rw [during_cons, if_pos hclaim, hhit, hlast]
        refine ⟨fun hpos => ?_, fun now hp => hnow.later (hafter hp)⟩
        -- the stamp is of this moment, and nothing counted was before the stretch
        by_contra hlt
        have := hnow.early (Int.not_le.mp hlt)
        omega
      · rw [hy] at hnone
        cases hnone
    | false =>
      have hsame : during (Action.claimsOn a) t 86400 (⟨s, c, s'⟩ :: hist) = during
        (Action.claimsOn a) t 86400 hist := by
        rw [during_cons]
        simp only [hclaim, Bool.false_eq_true, if_false, Nat.add_zero]
      refine ⟨fun y hy => ?_, fun hgone => ?_⟩
      · obtain ⟨x, hx, hwin, hlast⟩ := hst.card_window_kept hw hcur hclaim hy
        obtain ⟨hlate, hx⟩ := htally.card x hx
        rw [hsame, hwin, hlast]
        exact ⟨hlate, fun now hp => hx now (hbefore hp)⟩
      · rw [hsame]
        cases hx : s.card? a with
        | none =>
          obtain ⟨hbound, hlong⟩ := htally.gone hx
          exact ⟨hbound, fun hpos now hp => hlong hpos now (hbefore hp)⟩
        | some x =>
          obtain ⟨hlate, hx'⟩ := htally.card x hx
          refine ⟨(hx' _ hpast).bound, fun hpos now hp => ?_⟩
          have hdead := hst.card_closed_idle hw hx hgone
          have hyear : cardDeadSeconds.toInt = 31536000 := by decide
          have := hlate hpos
          have := hafter hp
          omega

theorem ClaimsTallied.bound (h : ClaimsTallied a t hist s) (hclock : ClockKept hist) :
    during (Action.claimsOn a) t 86400 hist ≤ maxClaimsPerCardPerDay.toNat * 2 := by
  cases hx : s.card? a with
  | none => exact (h.gone hx).1
  | some x =>
    obtain ⟨-, htally⟩ := h.card x hx
    cases hist with
    | nil => exact Nat.zero_le _
    | cons st hist =>
      refine (htally st.label.tx.now.toInt fun later hmem => ?_).bound
      rcases List.mem_cons.mp hmem with rfl | hmem
      · exact Int.le_refl _
      · exact (List.pairwise_cons.mp hclock).1 later hmem

/-- **What the limits come to for any stretch of time.** In an hour from any moment on a shop issues no more
receipts than two of its windows allow, and what one window allows for each time it was registered then; in a
day, a card takes the stamps of two of its windows, also when it was closed and opened again. -/
theorem rate_limits_windowed (h : Run P start hist s) (hs : start.Empty) (hclock : ClockKept hist) (t : Int)
    (a : Address) :
    during (Action.issuesFor a) t 3600 hist ≤
      maxReceiptsPerHour.toNat * (during (Action.registers a) t 3600 hist + 2) ∧
    during (Action.claimsOn a) t 86400 hist ≤ maxClaimsPerCardPerDay.toNat * 2 := by
  refine ⟨?_, (h.claimsTallied hs hclock a t).bound hclock⟩
  obtain ⟨w, htally, -⟩ := h.receiptsTallied hs hclock a t
  cases hist with
  | nil => exact Nat.zero_le _
  | cons st hist =>
    refine (htally st.label.tx.now.toInt fun later hmem => ?_).bound
    rcases List.mem_cons.mp hmem with rfl | hmem
    · exact Int.le_refl _
    · exact (List.pairwise_cons.mp hclock).1 later hmem

/-! ## A shop at its limit -/

/-- A receipt is issued where the shop's counter has room for it and the clock is sound. -/
theorem issueReceiptHandler_ok {now : Int64} {band : UInt8} {b : Business} (accs : IssueReceipt)
    (bump : UInt8) (hband : band ≠ 0)
    (hnow : 0 ≤ now.toInt ∧ now.toInt ≤ 2 ^ 62)
    (hstart : 0 ≤ b.receiptsWindowStart.toInt ∧ b.receiptsWindowStart.toInt ≤ 2 ^ 62)
    (hroom : (b.window.due 3600 now.toInt).count < maxReceiptsPerHour.toNat) :
    ∃ b' r, issueReceiptHandler now accs bump band b = .ok (b', r) := by
  have hlimit : maxReceiptsPerHour.toNat = 100 := rfl
  have hsub : subI64 now b.receiptsWindowStart = .ok (now - b.receiptsWindowStart) := by
    rw [subI64, check_pos ⟨by omega, by omega⟩]
    rfl
  have helapsed := subI64_eq_ok.mp hsub
  have httl : (Int64.ofNat b.receiptTtlSeconds.toNat).toInt = b.receiptTtlSeconds.toNat := by
    have := b.receiptTtlSeconds.toNat_lt
    exact Int64.toInt_ofNat_of_lt (by omega)
  have hexpiry : addI64 now (Int64.ofNat b.receiptTtlSeconds.toNat) = .ok
    (now + Int64.ofNat b.receiptTtlSeconds.toNat) := by
    have := b.receiptTtlSeconds.toNat_lt
    rw [addI64, check_pos ⟨by omega, by omega⟩]
    rfl
  have hcount : ∀ {n : UInt32}, n.toNat < 100 → n < maxReceiptsPerHour ∧ ∃ m, addU32 n 1 = .ok m := by
    intro n hn
    refine ⟨UInt32.lt_iff_toNat_lt.mpr hn, n + 1, addU32_eq_ok.mpr ?_⟩
    rw [UInt32.toNat_add, UInt32.toNat_one, Nat.mod_eq_of_lt (by omega)]
  have hdue : (3600 : Int64) ≤ now - b.receiptsWindowStart ↔ (3600 : Int) ≤ now.toInt - b.window.start := by
    rw [Business.window, ← helapsed]
    exact Int64.le_iff_toInt_le
  simp only [issueReceiptHandler, require_pos hband, Except.ok_bind, hsub]
  by_cases hover : (3600 : Int64) ≤ now - b.receiptsWindowStart
  · obtain ⟨hlt, m, hm⟩ := hcount (n := 0) (by decide)
    simp only [if_pos hover, require_pos hlt, hm, hexpiry, Except.ok_bind]
    exact ⟨_, _, rfl⟩
  · rw [Window.due_of_running (hdue.not.mp hover), hlimit] at hroom
    obtain ⟨hlt, m, hm⟩ := hcount (n := b.receiptsThisWindow) hroom
    simp only [if_neg hover, require_pos hlt, hm, hexpiry, Except.ok_bind]
    exact ⟨_, _, rfl⟩

theorem issueReceipt_ok {tx : Tx} {accs : IssueReceipt} {secretHash : Bytes32} {band bump : UInt8}
    {b b' : Business}
    {r : Receipt} (hb : s.record? accs.business = some (.business b))
    (hpda : createProgramAddress P (.business accs.authority) b.bump = some accs.business)
    (hauth : b.authority = accs.authority) (hsig : accs.authority ∈ tx.signers)
    (hrelayer : accs.relayer ∈ tx.signers)
    (hf : findProgramAddress P (.receipt accs.business secretHash) = some (accs.receipt, bump))
    (hfree : ¬s.InUse accs.receipt) (hsys : ¬s.InUse accs.relayer) (hne : accs.receipt ≠ accs.relayer)
    (hfunds : P.minimumBalance Receipt.space ≤ s.lamports accs.relayer)
    (hok : issueReceiptHandler tx.now accs bump band b = .ok (b', r)) :
    ∃ s', issueReceipt P tx accs secretHash band s = .ok s' := by
  obtain ⟨s₁, h₁, hprogram, -⟩ := createAddress_ok tx .deposit hfree hrelayer hsys hne hfunds
  have hcreate : create P tx Receipt.account s accs.relayer accs.receipt =
      .ok { s₁ with program := s₁.program.insert accs.receipt (List.replicate Receipt.space (.lit 0)) } := by
    rw [create, show Receipt.account.space = Receipt.space from rfl, h₁]
    rfl
  have hdistinct : accs.business ≠ accs.receipt := ne_of_not_inUse hb hfree
  have hb₁ : ({ s₁ with program := s₁.program.insert accs.receipt (List.replicate Receipt.space (.lit 0)) } :
    State).record?
      accs.business = some (.business b) := by
    rw [← hb]
    refine State.record?_of_lookup ?_
    rw [Store.lookup_insert, if_neg hdistinct, hprogram]
  obtain ⟨-, _, _, _, -, -, -, -, hb', -⟩ := issueReceiptHandler_eq_ok hok
  obtain ⟨s₂, h₂⟩ := store_business_ok b' hb₁ (by rw [hb']) (by rw [hb']) (by rw [hb']) (by rw [hb'])
  obtain ⟨data, rest, -, -, hd⟩ := store_delta h₂
  have hzeros : s₂.program.lookup accs.receipt = some (List.replicate Receipt.space (.lit 0)) := by
    rw [hd.program, patch_cons, patch_nil, if_neg hdistinct]
    exact Store.lookup_insert_self _ _ _
  obtain ⟨s₃, h₃⟩ : ∃ s₃, store Receipt.account s₂ accs.receipt r = .ok s₃ := by
    refine ⟨_, store_eq_ok.mpr ⟨_, hzeros, ?_, rfl⟩⟩
    rw [show (Receipt.account.record r).bytes.length = Receipt.space from
      Record.length_bytes (r := .receipt r) fun _ h => (by cases h), List.length_replicate]
  simp only [issueReceipt, Except.bind_eq_ok, ownBusiness_eq_ok, signer_eq_ok, seedsConstraint_eq_ok,
    exists_const]
  exact ⟨s₃, b, ⟨hb, hpda, hauth⟩, hsig, hrelayer, bump, hf, _, hcreate, (b', r), hok, s₂, h₂, h₃⟩

/-- An address that is free stays so in a step that writes nothing there and calls no other program. -/
theorem Step.free_kept (h : Step P s c s' cs [] ps) (ha : a ∉ cs.map Change.addr)
    (hno : ∀ b, c.action ≠ .wallet (.handOver b)) (hfree : ¬s.InUse a) : ¬s'.InUse a := by
  intro hused
  refine hfree (State.inUse_iff.mpr ?_)
  rw [State.inUse_iff, h.changed.frame a ha, ← Except.ok.inj h.tokens] at hused
  refine hused.imp_right (Or.imp_right (Or.imp_left fun hf => ?_))
  rcases h.foreign a hf with hf | ⟨-, hact⟩
  · exact hf
  · exact absurd hact (hno a)

namespace Sample

/-- The shop can issue receipts, from the `n`-th on. -/
structure Issuing (s : State) (n : Nat) (b : Business) : Prop where
  placed : s.WellPlaced
  present : s.business? shop = some b
  authority : b.authority = key 1
  bump : b.bump = 255
  start : 0 ≤ b.receiptsWindowStart.toInt ∧ b.receiptsWindowStart.toInt ≤ 2 ^ 62
  free : ∀ m : UInt8, n ≤ m.toNat → ¬s.InUse (.receipt shop (hash m) 255)
  relayer : ¬s.InUse (key 2)
  funds : Receipt.space * (256 - n) ≤ s.lamports (key 2)

theorem hash_inj {m n : UInt8} (h : hash m = hash n) : m = n := by
  have := congrArg (fun k : Bytes32 => k.bytes.head?) h
  simpa [hash] using this

variable {n : Nat} {b : Business} {now : Int64}

/-- One more receipt, while there is room for it. -/
theorem Issuing.next (h : Issuing s n b) (hn : n < 256) (hnow : 0 ≤ now.toInt ∧ now.toInt ≤ 2 ^ 62)
    (hroom : (b.window.due 3600 now.toInt).count < maxReceiptsPerHour.toNat) :
    ∃ s' b', Next platform s (issue now (UInt8.ofNat n)) s' ∧ Issuing s' (n + 1) b' ∧
      b'.window = (b.window.due 3600 now.toInt).hit := by
  have hid : (UInt8.ofNat n).toNat = n := UInt8.toNat_ofNat_of_lt' hn
  let accs : IssueReceipt := ⟨shop, .receipt shop (hash (UInt8.ofNat n)) 255, key 1, key 2⟩
  obtain ⟨b', r, hok⟩ := issueReceiptHandler_ok accs 255 (by decide : (1 : UInt8) ≠ 0) hnow h.start hroom
  have hfree := h.free (UInt8.ofNat n) (Nat.le_of_eq hid.symm)
  have hb := State.business?_eq_some.mp h.present
  obtain ⟨s', hs'⟩ : ∃ s', issueReceipt platform ⟨now, [key 1, key 2]⟩ accs
    (hash (UInt8.ofNat n)) 1 s = .ok s' :=
    issueReceipt_ok hb (by rw [h.bump]; rfl) h.authority List.mem_cons_self
    (List.mem_cons_of_mem _ List.mem_cons_self) (rfl : _ = some (accs.receipt, (255 : UInt8))) hfree h.relayer
      (fun h => by cases h)
    (Nat.le_trans (Nat.le_mul_of_pos_right _ (by omega)) h.funds) hok
  have hnext : Next platform s (issue now (UInt8.ofNat n)) s' := ⟨show ∀ a ∈ [key 1, key 2], _ by decide, hs'⟩
  obtain ⟨cs, calls, ps, hst⟩ := hnext.step h.placed
  obtain ⟨x, y, _, _, hx, hy, hissued⟩ := hst.receiptIssued
  rw [show s.business? accs.business = some b from h.present, Option.some.injEq] at hx
  subst hx
  obtain ⟨hroom', hhit⟩ := issueReceiptHandler_hit hissued
  obtain ⟨-, elapsed, _, _, -, -, -, -, rfl, -⟩ := issueReceiptHandler_eq_ok hissued
  have heffect := hst.effect
  have hchanged := hst.changed
  have hpurse := hst.purse
  cases heffect with
  | issueReceipt =>
    have hkept : ∀ a, a ≠ shop → a ≠ accs.receipt → ¬s.InUse a → ¬s'.InUse a := by
      intro a ha hr hfree
      exact hst.free_kept (by simp [accs] at hr ⊢; exact ⟨ha, hr⟩) (fun _ h => by cases h) hfree
    have hspent : s.lamports (key 2) ≤ s'.lamports (key 2) + Receipt.space := by
      have hl := congrArg (fun p => p.lamports (key 2)) hpurse
      simp only [State.purse, Purse.settle, List.foldl_cons, List.foldl_nil, Purse.pay] at hl
      rw [hl]
      split
      · exact Nat.le_add_right _ _
      · have hne : (key 2 : Address) ≠ accs.receipt := (fun h => by cases h)
        simp only [Purse.move, Function.update_of_ne hne, Function.update_self, platform, id, accs]
        omega
    refine ⟨s', _, hnext, ⟨hst.wellPlaced h.placed, hy, h.authority, h.bump, ?_, fun m hm => ?_, ?_, ?_⟩,
      hhit⟩
    · simp only
      split
      · exact hnow
      · exact h.start
    · refine hkept _ (fun h => by cases h) (fun he => ?_) (h.free m (by omega))
      have := hash_inj (Address.receipt.inj he).2.1
      rw [this, hid] at hm
      omega
    · exact hkept _ (fun h => by cases h) (fun h => by cases h) h.relayer
    · have hfunds := h.funds
      have hstep : Receipt.space * (256 - n) = Receipt.space * (256 - (n + 1)) + Receipt.space := by
        rw [← Nat.mul_succ]
        congr 1
        omega
      omega

/-- As many receipts at one moment as there is room for in the window. -/
theorem Issuing.run (h : Issuing s n b) (hnow : 0 ≤ now.toInt ∧ now.toInt ≤ 2 ^ 62)
    (hrunning : ¬(3600 : Int) ≤ now.toInt - b.window.start) : ∀ k, n + k ≤ 256 → b.window.count + k ≤ 100 →
    ∃ later s' b', Run platform s later s' ∧ Issuing s' (n + k) b' ∧
    b'.window = ⟨b.window.start, b.window.count + k⟩ ∧
      later.length = k ∧ ∀ st ∈ later, st.label.tx.now = now ∧ st.label.action.issuesFor shop = true
  | 0, _, _ => ⟨[], s, b, .nil, h, rfl, rfl, by simp⟩
  | k + 1, hk, hroom => by
    obtain ⟨later, s₁, b₁, hrun, hs₁, hwin, hlen, hall⟩ := Issuing.run h hnow hrunning k (by omega) (by omega)
    have hdue : b₁.window.due 3600 now.toInt = b₁.window := by
      refine Window.due_of_running ?_
      rw [hwin]
      exact hrunning
    obtain ⟨s', b', hnext, hs', hhit⟩ := hs₁.next (by omega) hnow (by
      rw [hdue, hwin]
      exact Nat.lt_of_succ_le hroom)
    refine ⟨⟨s₁, _, s'⟩ :: later, s', b', hrun.step hnext, hs', ?_, by rw [List.length_cons, hlen], ?_⟩
    · rw [hhit, hdue, hwin]
      rfl
    · intro st hmem
      rcases List.mem_cons.mp hmem with rfl | hmem
      · exact ⟨rfl, rfl⟩
      · exact hall st hmem

/-- The shop opens and issues its first receipt, an hour before the others. -/
def firstReceipt : List Call := [register 1000000 1 0, issue 1000010 0]

theorem firstReceipt_issuing : ∃ hist s b, Run platform Sample.start hist s ∧
    hist.map (fun st => st.label) = firstReceipt.reverse ∧ Issuing s 1 b ∧ b.window = ⟨1000010, 1⟩ := by
  obtain ⟨hist, s, hrun, hcalls, hp⟩ := Leads.run (P := platform) (s := Sample.start) (l := firstReceipt)
    (p := fun s => (s.business? shop).any (fun b => b.authority == key 1 && b.bump == 255 &&
      b.receiptsWindowStart == 1000010 && b.receiptsThisWindow == 1) &&
      decide (¬s.InUse (key 2)) && decide (Receipt.space * 255 ≤ s.lamports (key 2)) &&
      (List.range 255).all fun m => decide (¬s.InUse (.receipt shop (hash (UInt8.ofNat (m + 1))) 255)))
      (by decide +kernel)
  simp only [Bool.and_eq_true, Option.any_eq_true, beq_iff_eq, decide_eq_true_eq, List.all_eq_true,
    List.mem_range] at hp
  obtain ⟨⟨⟨⟨b, hb, ⟨⟨hauth, hbump⟩, hstart⟩, hcount⟩, hrelayer⟩, hfunds⟩, hfree⟩ := hp
  have hwindow : b.window = ⟨1000010, 1⟩ := by
    rw [Business.window, hstart, hcount]
    rfl
  refine ⟨hist, s, b, hrun, hcalls,
    ⟨Run.wellPlaced hrun start_empty.wellPlaced, hb, hauth, hbump, ?_, fun m hm => ?_, hrelayer, hfunds⟩,
    hwindow⟩
  · rw [hstart]
    decide
  · have hlt : m.toNat < 256 := m.toNat_lt
    have hfree := hfree (m.toNat - 1) (by omega)
    rwa [Nat.sub_add_cancel hm, UInt8.ofNat_toNat] at hfree

end Sample

theorem during_append (p : Action → Bool) (len : Int) (later : History) :
    during p t len (later ++ hist) = during p t len later + during p t len hist := List.countP_append

/-- Steps of the kind, all at one moment of the stretch, all count. -/
theorem during_all {p : Action → Bool} {len : Int} {now : Int64} (hnow : t ≤ now.toInt ∧ now.toInt < t + len)
    (h : ∀ st ∈ hist, st.label.tx.now = now ∧ p st.label.action = true) :
    during p t len hist = hist.length := by
  refine List.countP_eq_length.mpr fun st hst => ?_
  obtain ⟨hat, hp⟩ := h st hst
  rw [hp, hat, decide_eq_true hnow]
  rfl

theorem ClockKept.append {later : History} {now : Int64} (h : ClockKept hist) (hpast : Present hist now.toInt)
    (hlater : ∀ st ∈ later, st.label.tx.now = now) : ClockKept (later ++ hist) := by
  refine List.pairwise_append.mpr ⟨?_, h, fun st hst older hold => ?_⟩
  · refine List.pairwise_of_forall_mem_list fun st hst older hold => ?_
    rw [hlater st hst, hlater older hold]
  · rw [hlater st hst]
    exact hpast older hold

theorem Present.later {now now' : Int} (h : Present hist now) (hle : now ≤ now') : Present hist now' :=
  fun st hst => Int.le_trans (h st hst) hle

theorem Present.append {later : History} {now now' : Int64} (h : Present hist now.toInt)
    (hle : now.toInt ≤ now'.toInt)
    (hlater : ∀ st ∈ later, st.label.tx.now = now') : Present (later ++ hist) now'.toInt := by
  intro st hst
  rcases List.mem_append.mp hst with hst | hst
  · rw [hlater st hst]
  · exact Int.le_trans (h st hst) hle

/-- A hundred receipts in one hour, one of them at its start, and two more when it is over: in the hour after
the first there are a hundred and one. -/
theorem receipts_beside_restart : ∃ hist s, Run Sample.platform Sample.start hist s ∧ ClockKept hist ∧
    maxReceiptsPerHour.toNat < during (Action.issuesFor Sample.shop) 1000011 3600 hist := by
  obtain ⟨hist, s, b, hrun, hcalls, hs, hwin⟩ := Sample.firstReceipt_issuing
  have hpast : Present hist (1000010 : Int64).toInt ∧ ClockKept hist := by
    have hpair : ClockKept hist ↔ (hist.map fun st => st.label).Pairwise fun newer older =>
      older.tx.now.toInt ≤ newer.tx.now.toInt := by
      rw [List.pairwise_map, ClockKept]
    rw [hpair, hcalls]
    refine ⟨fun st hst => ?_, by decide⟩
    have hmem := List.mem_map_of_mem (f := fun st => st.label) hst
    rw [hcalls] at hmem
    exact (by decide : ∀ c ∈ Sample.firstReceipt.reverse, c.tx.now.toInt ≤ (1000010 : Int64).toInt) _ hmem
  obtain ⟨later₁, s₁, b₁, hrun₁, hs₁, hwin₁, hlen₁, hall₁⟩ :=
    hs.run (by decide : 0 ≤ (1003600 : Int64).toInt ∧ (1003600 : Int64).toInt ≤ 2 ^ 62)
    (by rw [hwin]; decide) 99
    (by decide) (by rw [hwin])
  rw [hwin] at hwin₁
  obtain ⟨s₂, b₂, hnext, hs₂, hhit⟩ := hs₁.next (by decide)
    (by decide : 0 ≤ (1003610 : Int64).toInt ∧ (1003610 : Int64).toInt ≤ 2 ^ 62) (by rw [hwin₁]; decide)
  rw [hwin₁] at hhit
  have hwin₂ : b₂.window = ⟨1003610, 1⟩ := hhit.trans (by decide)
  obtain ⟨later₂, s₃, b₃, hrun₂, -, -, hlen₂, hall₂⟩ :=
    hs₂.run (by decide : 0 ≤ (1003610 : Int64).toInt ∧ (1003610 : Int64).toInt ≤ 2 ^ 62)
    (by rw [hwin₂]; decide) 1
    (by decide) (by rw [hwin₂]; decide)
  have hall : ∀ st ∈ later₂ ++ [⟨s₁, Sample.issue 1003610 (UInt8.ofNat (1 + 99)), s₂⟩],
    st.label.tx.now = 1003610 ∧ st.label.action.issuesFor Sample.shop = true := by
    intro st hst
    rcases List.mem_append.mp hst with hst | hst
    · exact hall₂ st hst
    · rw [List.mem_singleton.mp hst]
      exact ⟨rfl, rfl⟩
  have hrun₃ := ((hrun.append hrun₁).step hnext).append hrun₂
  have hat₁ : ∀ st ∈ later₁, st.label.tx.now = 1003600 := fun st hst => (hall₁ st hst).1
  have hpast₁ := hpast.1.append (by decide) hat₁
  have hclock₁ := hpast.2.append (hpast.1.later (by decide)) hat₁
  refine ⟨later₂ ++ [⟨s₁, Sample.issue 1003610 (UInt8.ofNat (1 + 99)), s₂⟩] ++ (later₁ ++ hist), s₃,
    by simpa only [List.append_assoc, List.singleton_append] using hrun₃,
    hclock₁.append (hpast₁.later (by decide))
    fun st hst => (hall st hst).1, ?_⟩
  rw [during_append, during_append _ _ later₁, during_all (by decide) hall, during_all (by decide) hall₁,
    List.length_append, hlen₁, hlen₂]
  have hlimit : maxReceiptsPerHour.toNat = 100 := rfl
  rw [hlimit, List.length_singleton]
  omega

theorem during_of_calls {p : Action → Bool} {len : Int} {l : List Call}
    (h : hist.map (fun st => st.label) = l) :
    during p t len hist = l.countP fun c => p c.action && decide
    (t ≤ c.tx.now.toInt ∧ c.tx.now.toInt < t + len) := by
  rw [← h, List.countP_map]
  rfl

namespace Sample

/-- The shop issues the receipt `n`, and the customer `key 9` claims it. -/
def stampAt (now : Int64) (n : UInt8) : List Call := [issue (now - 1) n, claim now 9 n]

/-- One stamp, nineteen a day later, and two more when the day is over. -/
def busyDay : List Call :=
  register 1000000 1 0 :: stampAt 1000010 1 ++
    ((List.range 19).flatMap fun i => stampAt (1085000 + 60 * Int64.ofNat i) (UInt8.ofNat (i + 2))) ++
    stampAt 1086410 30 ++ stampAt 1086470 31

end Sample

/-- **Neither limit holds for every stretch of time**: a card takes twenty-one stamps within a day, and a shop
issues a hundred and one receipts within an hour. -/
theorem rate_limits_not_sliding :
    (∃ hist s, Run Sample.platform Sample.start hist s ∧ ClockKept hist ∧
      maxReceiptsPerHour.toNat < during (Action.issuesFor Sample.shop) 1000011 3600 hist) ∧
    ∃ hist s, Run Sample.platform Sample.start hist s ∧ ClockKept hist ∧
      maxClaimsPerCardPerDay.toNat < during (Action.claimsOn (Sample.card 9)) 1050000 86400 hist := by
  refine ⟨receipts_beside_restart, ?_⟩
  obtain ⟨hist, s, hrun, hcalls, -⟩ := Leads.run (P := Sample.platform) (s := Sample.start)
    (l := Sample.busyDay)
    (p := fun _ => true) (by decide +kernel)
  refine ⟨hist, s, hrun, ClockKept.of_calls hcalls (by decide +kernel), ?_⟩
  rw [during_of_calls hcalls]
  decide +kernel

/-- The shop's first receipt. -/
theorem rate_limits_windowed_first : ∃ hist s, Run Sample.platform Sample.start hist s ∧
    during (Action.issuesFor Sample.shop) 1000000 3600 hist = 1 ∧
    during (Action.issuesFor Sample.shop) 1000000 3600 hist ≤
      maxReceiptsPerHour.toNat * (during (Action.registers Sample.shop) 1000000 3600 hist + 2) := by
  obtain ⟨hist, s, b, hrun, hcalls, -⟩ := Sample.firstReceipt_issuing
  refine ⟨hist, s, hrun, ?_,
    (rate_limits_windowed hrun Sample.start_empty (ClockKept.of_calls hcalls (by decide)) 1000000
      Sample.shop).1⟩
  rw [during_of_calls hcalls]
  decide

end Passdari
