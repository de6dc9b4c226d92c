/-
How far the figures of a run can get. An instruction adds at most one to any
counter, and to the stamps of all lifetimes together; the times it writes
are its own. So after `n` instructions every counter is at most `n`, and no
time is past the clock.
-/
import Passdari.Books.Stamps

namespace Passdari

open Wire Token2022

variable {P : Platform} {tx : Tx} {s s' start : State} {hist : History} {c : Call} {cs : List Change}
  {calls : List TokenCall} {ps : List Payment} {action : Action} {n m : Nat} {t u : Int}

def Action.isProgram : Action → Bool
  | .program _ => true
  | .wallet _ => false

/-- The instructions of the program in a history. -/
def instructions (hist : History) : Nat := hist.countP fun st => st.label.action.isProgram

/-- From the start of time to `t`. -/
def Past (t : Int) (x : Int64) : Prop := 0 ≤ x.toInt ∧ x.toInt ≤ t

/-- No counter of the shop is past `n`, and its hour began at some time up to `t`. -/
structure Business.Within (n : Nat) (t : Int) (b : Business) : Prop where
  totalCards : b.totalCards.toNat ≤ n
  openCards : b.openCards.toNat ≤ n
  totalStampsIssued : b.totalStampsIssued.toNat ≤ n
  totalVouchersIssued : b.totalVouchersIssued.toNat ≤ n
  openVouchers : b.openVouchers.toNat ≤ n
  totalRedemptions : b.totalRedemptions.toNat ≤ n
  receiptsWindowStart : Past t b.receiptsWindowStart

/-- The card is in its `n`-th cycle at most, and its times are times up to `t`. -/
structure LoyaltyCard.Within (n : Nat) (t : Int) (x : LoyaltyCard) : Prop where
  nftCycle : x.nftCycle.toNat ≤ n
  lastStampTs : Past t x.lastStampTs
  claimsWindowStart : Past t x.claimsWindowStart

def Record.Within (n : Nat) (t : Int) : Record → Prop
  | .business b => b.Within n t
  | .card x => x.Within n t
  | .counter _ | .receipt _ | .voucher _ | .cardNft _ => True

def State.Within (s : State) (n : Nat) (t : Int) : Prop := ∀ a r, s.record? a = some r → r.Within n t

/-- The stamps a card got in its lifetime. -/
def lifetimeOn (_ : Address) : Record → Nat
  | .card x => x.lifetimeStamps.toNat
  | _ => 0

theorem Past.later {x : Int64} (h : Past t x) (hle : t ≤ u) : Past u x := ⟨h.1, Int.le_trans h.2 hle⟩

theorem Past.now {x : Int64} (h : 0 ≤ x.toInt) : Past x.toInt x := ⟨h, Int.le_refl _⟩

theorem Record.Within.mono {r : Record} (h : r.Within n t) (hn : n ≤ m) (ht : t ≤ u) : r.Within m u := by
  cases r with
  | business b =>
    exact ⟨Nat.le_trans h.totalCards hn, Nat.le_trans h.openCards hn, Nat.le_trans h.totalStampsIssued hn,
      Nat.le_trans h.totalVouchersIssued hn, Nat.le_trans h.openVouchers hn,
      Nat.le_trans h.totalRedemptions hn, h.receiptsWindowStart.later ht⟩
  | card x => exact ⟨Nat.le_trans h.nftCycle hn, h.lastStampTs.later ht, h.claimsWindowStart.later ht⟩
  | counter _ | receipt _ | voucher _ | cardNft _ => trivial

/-! ## One instruction -/

theorem stampCard_within {now : Int64} {x y : LoyaltyCard} (h : stampCard now x = .ok y)
    (hx : x.Within n now.toInt)
    (h0 : 0 ≤ now.toInt) : y.Within n now.toInt := by
  obtain ⟨-, elapsed, _, _, _, -, -, -, -, -, rfl⟩ := stampCard_eq_ok h
  refine ⟨hx.nftCycle, Past.now h0, ?_⟩
  show Past _ (if 86400 ≤ elapsed then now else x.claimsWindowStart)
  split
  · exact Past.now h0
  · exact hx.claimsWindowStart

theorem openCard_within {accs : ClaimReceipt} {bump : UInt8} {b b' : Business} {x y : LoyaltyCard}
    (h : openCard accs bump b x = .ok (b', y)) (hb : b.Within n t) (hx : x.Within n t) :
    b'.Within (n + 1) t ∧ b'.totalStampsIssued.toNat ≤ n ∧ y.Within n t := by
  have hb₁ : b.Within (n + 1) t := Record.Within.mono (r := .business b) hb (Nat.le_succ n) (Int.le_refl t)
  rcases openCard_eq_ok h with ⟨-, tc, oc, htc, hoc, rfl, rfl⟩ | ⟨-, rfl, rfl⟩
  · have := hb.totalCards
    have := hb.openCards
    refine ⟨{ hb₁ with totalCards := ?_, openCards := ?_ }, hb.totalStampsIssued, hx.nftCycle, hx.lastStampTs,
      hx.claimsWindowStart⟩
    · show tc.toNat ≤ n + 1
      omega
    · show oc.toNat ≤ n + 1
      omega
  · exact ⟨hb₁, hb.totalStampsIssued, hx⟩

theorem zeroed_within (h0 : 0 ≤ t) : LoyaltyCard.account.zeroed.Within n t :=
  ⟨Nat.zero_le n, ⟨Int.le_refl 0, h0⟩, ⟨Int.le_refl 0, h0⟩⟩

/-- What an instruction writes has counters one past what was there, and no time but the clock's. -/
theorem Effect.within (hcur : s.Current) (h : Effect P tx s action cs calls ps) (hs : s.Within n tx.now.toInt)
    (h0 : 0 ≤ tx.now.toInt) : ∀ x ∈ cs, ∀ r, x.after = some r → r.Within (n + 1) tx.now.toInt := by
  have hm := h.not_migration hcur
  have hone : (1 : UInt32).toNat = 1 := rfl
  have hnext : ∀ {a r}, s.record? a = some r → r.Within (n + 1) tx.now.toInt := fun hr =>
    (hs _ _ hr).mono (Nat.le_succ n) (Int.le_refl _)
  cases h with
  | registerBusiness _ _ _ _ hok =>
    obtain ⟨-, -, -, rfl⟩ := registerBusinessHandler_eq_ok.mp hok
    simp only [List.forall_mem_singleton, Option.some.injEq]
    intro _ heq
    subst heq
    exact ⟨Nat.zero_le _, Nat.zero_le _, Nat.zero_le _, Nat.zero_le _, Nat.zero_le _, Nat.zero_le _,
      Int.le_refl 0, h0⟩
  | updateBusinessConfig _ hb _ _ hok =>
    obtain ⟨-, -, -, rfl⟩ := updateBusinessConfigHandler_eq_ok.mp hok
    simp only [List.forall_mem_singleton, Option.some.injEq]
    intro _ heq
    subst heq
    have hw : Business.Within _ _ _ := hnext hb
    exact { hw with }
  | issueReceipt hb _ _ _ _ _ _ hok =>
    obtain ⟨-, elapsed, _, _, -, -, -, -, rfl, rfl⟩ := issueReceiptHandler_eq_ok hok
    simp only [List.forall_mem_cons, Option.some.injEq, List.not_mem_nil, false_imp_iff, implies_true,
      and_true]
    refine ⟨?_, ?_⟩
    · intro _ heq
      subst heq
      have hw : Business.Within _ _ _ := hnext hb
      refine { hw with receiptsWindowStart := ?_ }
      show Past _ (if 3600 ≤ elapsed then tx.now else _)
      split
      · exact Past.now h0
      · exact hw.receiptsWindowStart
    · intro _ heq
      subst heq
      exact trivial
  | @claimReceipt accs secret b b' r bump c' c hb _ _ _ _ _ hc _ _ _ hok =>
    obtain ⟨-, -, b₁, c₁, total, hopen, hstamp, htotal, rfl⟩ := claimReceiptHandler_eq_ok hok
    have hwc : (c.getD LoyaltyCard.account.zeroed).Within n tx.now.toInt := by
      cases c with
      | none => exact zeroed_within h0
      | some x => exact hs _ _ hc
    obtain ⟨hb₁, hstamps, hc₁⟩ := openCard_within hopen (hs _ _ hb) hwc
    simp only [List.forall_mem_cons, Option.some.injEq, reduceCtorEq, List.not_mem_nil, false_imp_iff,
      implies_true, and_true, true_and]
    refine ⟨?_, ?_⟩
    · intro _ heq
      subst heq
      refine { hb₁ with totalStampsIssued := ?_ }
      show total.toNat ≤ n + 1
      omega
    · intro _ heq
      subst heq
      exact Record.Within.mono (r := .card c') (stampCard_within hstamp hc₁ h0) (Nat.le_succ n)
        (Int.le_refl _)
  | transferStamps _ hc hd _ _ _ _ _ _ hok =>
    obtain ⟨-, _, _, _, _, -, -, -, -, rfl, rfl⟩ := transferStampsHandler_eq_ok hok
    simp only [List.forall_mem_cons, Option.some.injEq, List.not_mem_nil, false_imp_iff, implies_true,
      and_true]
    refine ⟨?_, ?_⟩
    · intro _ heq
      subst heq
      have hw : LoyaltyCard.Within _ _ _ := hnext hc
      exact { hw with }
    · intro _ heq
      subst heq
      have hw : LoyaltyCard.Within _ _ _ := hnext hd
      exact { hw with }
  | @closeDeadCard _ b _ _ _ _ hb =>
    simp only [List.forall_mem_cons, Option.some.injEq, reduceCtorEq, List.not_mem_nil, false_imp_iff,
      implies_true, and_true]
    intro _ heq
    subst heq
    have hw : Business.Within _ _ _ := hnext hb
    refine { hw with openCards := ?_ }
    show (satSubU32 b.openCards 1).toNat ≤ n + 1
    have := hw.openCards
    rw [toNat_satSubU32]
    omega
  | @retireIdleCardNft _ c _ _ cycle hc _ _ _ _ _ _ _ _ hcycle =>
    simp only [List.forall_mem_singleton, Option.some.injEq]
    intro _ heq
    subst heq
    have hwc : LoyaltyCard.Within _ _ _ := hs _ _ hc
    refine ⟨?_, hwc.lastStampTs, hwc.claimsWindowStart⟩
    show cycle.toNat ≤ n + 1
    have := hwc.nftCycle
    have := addU32_eq_ok.mp hcycle
    omega
  | @mintVoucher _ _ _ b c _ _ _ _ _ _ cycle _ retired hb hc _ _ _ _ _ _ _ _ _ _ _ _ _ hok _ hcycle =>
    obtain ⟨-, -, hcash, _, issued, opened, -, hissued, hopened, rfl, rfl⟩ := mintVoucherHandler_eq_ok hok
    obtain ⟨_, -, rfl⟩ := cashIn_eq_ok hcash
    have hwb : Business.Within _ _ _ := hs _ _ hb
    have hwc : LoyaltyCard.Within _ _ _ := hs _ _ hc
    have hle : cycle.toNat ≤ c.nftCycle.toNat + 1 := by
      split at hcycle
      · rw [addU32_eq_ok.mp hcycle, hone]
      · cases hcycle
        exact Nat.le_succ _
    simp only [List.forall_mem_cons, Option.some.injEq, List.not_mem_nil, false_imp_iff, implies_true,
      and_true]
    refine ⟨?_, ?_, ?_⟩
    · intro _ heq
      subst heq
      have hw : Business.Within _ _ _ := hnext hb
      have := hwb.totalVouchersIssued
      have := hwb.openVouchers
      refine { hw with totalVouchersIssued := ?_, openVouchers := ?_ }
      · show issued.toNat ≤ n + 1
        omega
      · show opened.toNat ≤ n + 1
        omega
    · intro _ heq
      subst heq
      have := hwc.nftCycle
      refine ⟨?_, hwc.lastStampTs, hwc.claimsWindowStart⟩
      show cycle.toNat ≤ n + 1
      omega
    · intro _ heq
      subst heq
      exact trivial
  | transferVoucher =>
    simp only [List.forall_mem_singleton, Option.some.injEq]
    intro _ heq
    subst heq
    exact trivial
  | @redeemVoucher _ b _ _ _ _ _ redemptions hb _ _ _ _ _ _ _ _ _ _ _ _ _ _ _ _ _ _ hredeemed =>
    simp only [List.forall_mem_cons, Option.some.injEq, reduceCtorEq, List.not_mem_nil, false_imp_iff,
      implies_true, and_true]
    intro _ heq
    subst heq
    have hwb : Business.Within _ _ _ := hs _ _ hb
    have hw : Business.Within _ _ _ := hnext hb
    refine { hw with openVouchers := ?_, totalRedemptions := ?_ }
    · show (satSubU32 b.openVouchers 1).toNat ≤ n + 1
      have := hw.openVouchers
      rw [toNat_satSubU32]
      omega
    · show redemptions.toNat ≤ n + 1
      have := hwb.totalRedemptions
      have := addU32_eq_ok.mp hredeemed
      omega
  | @closeExpiredVoucher _ b _ _ _ _ _ _ hb =>
    simp only [List.forall_mem_cons, Option.some.injEq, reduceCtorEq, List.not_mem_nil, false_imp_iff,
      implies_true, and_true]
    intro _ heq
    subst heq
    have hw : Business.Within _ _ _ := hnext hb
    refine { hw with openVouchers := ?_ }
    show (satSubU32 b.openVouchers 1).toNat ≤ n + 1
    have := hw.openVouchers
    rw [toNat_satSubU32]
    omega
  | migrateCard => exact absurd rfl (hm.1 _)
  | migrateBusiness => exact absurd rfl (hm.2 _)
  | initializeCounter =>
    simp only [List.forall_mem_singleton, Option.some.injEq]
    intro _ heq
    subst heq
    exact trivial
  | closeBusiness | reclaimExpiredReceipt =>
    simp only [List.forall_mem_singleton, reduceCtorEq, false_imp_iff, implies_true]
  | mintCardNft | presentVoucher | cancelPresentation | pay | handOver | openMint | openToken | closeToken
  | token => simp

/-- All lifetimes together get one more stamp at most. -/
theorem Effect.lifetimes (hcur : s.Current) (h : Effect P tx s action cs calls ps) :
    incoming lifetimeOn cs ≤ outgoing lifetimeOn cs + 1 := by
  have hm := h.not_migration hcur
  cases h with
  | @claimReceipt accs secret b b' r bump c' c hb _ _ _ _ _ _ _ _ _ hok =>
    obtain ⟨-, -, b₁, c₁, total, hopen, hstamp, -, rfl⟩ := claimReceiptHandler_eq_ok hok
    obtain ⟨-, _, _, _, lifetime, -, -, -, -, hlifetime, rfl⟩ := stampCard_eq_ok hstamp
    have hsame : c₁.lifetimeStamps.toNat = (c.map Record.card).elim 0 (lifetimeOn accs.card) := by
      obtain ⟨-, _, _, -, -, -, rfl⟩ | ⟨-, -, rfl⟩ := openCard_eq_ok hopen <;> cases c <;> rfl
    simp only [incoming_cons, outgoing_cons, incoming_nil, outgoing_nil, Change.weigh, Option.elim_some,
      Option.elim_none, lifetimeOn]
    omega
  | transferStamps _ _ _ _ _ _ _ _ _ hok =>
    obtain ⟨-, _, _, _, _, -, hcl, -, hdl, rfl, rfl⟩ := transferStampsHandler_eq_ok hok
    simp only [incoming_cons, outgoing_cons, incoming_nil, outgoing_nil, Change.weigh_some, lifetimeOn]
    omega
  | mintVoucher _ _ _ _ _ _ _ _ _ _ _ _ _ _ _ hok =>
    obtain ⟨-, -, hcash, -⟩ := mintVoucherHandler_eq_ok hok
    obtain ⟨_, -, rfl⟩ := cashIn_eq_ok hcash
    simp [lifetimeOn]
  | migrateCard => exact absurd rfl (hm.1 _)
  | migrateBusiness => exact absurd rfl (hm.2 _)
  | _ => simp [lifetimeOn]

/-! ## A run -/

/-- After so many instructions, at the time `t`. -/
structure State.Bounded (s : State) (n : Nat) (t : Int) : Prop where
  within : s.Within n t
  lifetimes : s.total lifetimeOn ≤ n

theorem State.Bounded.lifetime_le (h : s.Bounded n t) {a : Address} {x : LoyaltyCard}
    (hx : s.card? a = some x) :
    x.lifetimeStamps.toNat ≤ n :=
  Nat.le_trans (State.le_total (w := lifetimeOn) (State.card?_eq_some.mp hx)) h.lifetimes

theorem instructions_cons (st : Taken) : instructions (st :: hist) =
    instructions hist + if st.label.action.isProgram then 1 else 0 := by
  rw [instructions, List.countP_cons, ← instructions]

/-- What a wallet does changes no record. -/
theorem Effect.wallet {w : WalletAction} (h : Effect P tx s (.wallet w) cs calls ps) : cs = [] := by
  cases h <;> rfl

theorem Step.bounded (hcur : s.Current) (h : Step P s c s' cs calls ps) (hs : s.Bounded n c.tx.now.toInt)
    (h0 : 0 ≤ c.tx.now.toInt) : s'.Bounded (n + if c.action.isProgram then 1 else 0) c.tx.now.toInt := by
  obtain ⟨heffect, hch, -⟩ := h
  obtain ⟨tx, action⟩ := c
  have htotal := hch.total lifetimeOn
  cases action with
  | wallet w =>
    obtain rfl := heffect.wallet
    refine ⟨fun a r hr => hs.within a r ?_, ?_⟩
    · rwa [hch.record?_frame (by simp)] at hr
    · have := hs.lifetimes
      simp only [outgoing_nil, incoming_nil] at htotal
      omega
  | program i =>
    refine ⟨fun a r hr => ?_, ?_⟩
    · by_cases ha : a ∈ cs.map Change.addr
      · obtain ⟨x, hx, rfl⟩ := List.mem_map.mp ha
        rw [hch.record? hx] at hr
        exact heffect.within hcur hs.within h0 x hx r hr
      · rw [hch.record?_frame ha] at hr
        exact (hs.within a r hr).mono (Nat.le_succ n) (Int.le_refl _)
    · have := hs.lifetimes
      have := heffect.lifetimes hcur
      show s'.total lifetimeOn ≤ n + 1
      omega

/-- **How far a run can get**: no counter past the number of instructions, and no time past the clock. -/
theorem Run.bounded (h : Run P start hist s) (hs : start.Empty) (hclock : ClockForward hist) (ht : 0 ≤ t)
    (hnow : ∀ st ∈ hist, st.label.tx.now.toInt ≤ t) : s.Bounded (instructions hist) t := by
  refine h.induct_empty (I := fun hist s => ∀ t, 0 ≤ t → ClockForward hist →
    (∀ st ∈ hist, st.label.tx.now.toInt ≤ t) → s.Bounded (instructions hist) t) hs ?_ ?_ t ht hclock hnow
  · intro t _ _ _
    refine ⟨fun a r hr => ?_, Nat.le_of_eq (hs.total lifetimeOn)⟩
    rw [State.record?, hs.program] at hr
    cases hr
  · intro hist s c s' cs calls ps hrun hw hcur hi hst t ht hclock hnow
    obtain ⟨hpos, hpairs⟩ := hclock
    obtain ⟨hpast, hpairs⟩ := List.pairwise_cons.mp hpairs
    have h0 := hpos _ List.mem_cons_self
    have hb := hst.bounded hcur
      (hi c.tx.now.toInt h0 ⟨fun st hmem => hpos st (List.mem_cons_of_mem _ hmem), hpairs⟩ hpast) h0
    rw [instructions_cons]
    exact ⟨fun a r hr => (hb.within a r hr).mono (Nat.le_refl _) (hnow _ List.mem_cons_self), hb.lifetimes⟩

end Passdari
