/-
What a shop has promised, until when, and the receipts it has out. A
promise that still runs survives every step by anybody; a receipt that has
not expired survives too, but its shop may not.
-/
import Passdari.Effect.TokenCalls

namespace Passdari

open Wire Token2022

variable {P : Platform} {tx : Tx} {s s' start : State} {hist later earlier : History} {st : Taken} {c : Call}
  {cs : List Change} {calls : List TokenCall} {ps : List Payment} {a : Address} {b : Business}

/-- The time of the last step. -/
def clock : History → Int
  | [] => 0
  | st :: _ => st.label.tx.now.toInt

/-- The terms of a shop's offer. -/
structure Terms where
  lockedUntil : Int64
  rewardLabel : Text
  stampsRequired : UInt8
  minPurchaseAmount : UInt64
  receiptTtlSeconds : UInt32

def Business.terms (b : Business) : Terms :=
  ⟨b.termsLockedUntil, b.rewardLabel, b.stampsRequired, b.minPurchaseAmount, b.receiptTtlSeconds⟩

/-! ## A promise that still runs -/

/-- Before its date a shop's offer, and the shop itself, outlast every step. -/
theorem Step.terms_kept (hw : s.WellPlaced) (hc : s.Current) (h : Step P s c s' cs calls ps)
    (hb : s.business? a = some b) (hlock : c.tx.now.toInt < b.termsLockedUntil.toInt) :
    ∃ b', s'.business? a = some b' ∧ b'.terms = b.terms ∧ b'.name = b.name := by
  have hm := h.effect.not_migration hc
  obtain ⟨tx, action⟩ := c
  rcases h.shop hw a with hsame | hch
  · exact ⟨b, hsame.trans hb, rfl, rfl⟩
  rw [hb] at hch
  generalize s'.business? a = after at hch
  cases hch with
  | edited _ _ _ hok =>
    obtain ⟨-, hnow, -⟩ := updateBusinessConfigHandler_eq_ok.mp hok
    exact absurd (Int64.le_iff_toInt_le.mp hnow) (Int.not_le.mpr hlock)
  | closed _ _ hok =>
    obtain ⟨hnow, -⟩ := closeBusinessHandler_eq_ok.mp hok
    exact absurd (Int64.le_iff_toInt_le.mp hnow) (Int.not_le.mpr hlock)
  | receiptIssued | stampClaimed | cardClosed | voucherMinted | voucherRedeemed | voucherExpired =>
    exact ⟨_, rfl, rfl, rfl⟩
  | migrated => exact absurd rfl (hm.2 _)

theorem Run.terms_kept {s₀ : State} (h : Run P s₀ later s) (hw : s₀.WellPlaced) (hc : s₀.Current)
    (hb : s₀.business? a = some b) (hlock : ∀ st ∈ later, st.label.tx.now.toInt < b.termsLockedUntil.toInt) :
    ∃ b', s.business? a = some b' ∧ b'.terms = b.terms ∧ b'.name = b.name := by
  have key := (h.induct (I := fun later s => s.Current ∧
    ((∀ st ∈ later, st.label.tx.now.toInt < b.termsLockedUntil.toInt) →
      ∃ b', s.business? a = some b' ∧ b'.terms = b.terms ∧ b'.name = b.name))
    hw ⟨hc, fun _ => ⟨b, hb, rfl, rfl⟩⟩ ?_).2
  · exact key.2 hlock
  · intro later s c s' cs calls ps _ hws hex
    obtain ⟨hcur, hi⟩ := hex
    intro hst
    refine ⟨hst.current hcur, fun hlock => ?_⟩
    obtain ⟨b₁, hb₁, hterms, hname⟩ := hi fun st hmem => hlock st (List.mem_cons_of_mem _ hmem)
    have hl : b₁.termsLockedUntil = b.termsLockedUntil := congrArg Terms.lockedUntil hterms
    have hnow : c.tx.now.toInt < b₁.termsLockedUntil.toInt := by
      rw [hl]
      exact hlock ⟨s, c, s'⟩ List.mem_cons_self
    obtain ⟨b₂, hb₂, hterms₂, hname₂⟩ := hst.terms_kept hws hcur hb₁ hnow
    exact ⟨b₂, hb₂, hterms₂.trans hterms, hname₂.trans hname⟩

/-- The step sets the terms of the shop at `a`. -/
def Action.commits (a : Address) (action : Action) : Prop :=
  (∃ accs args, action = .program (.registerBusiness accs args) ∧ accs.business = a) ∨
    ∃ accs args, action = .program (.updateBusinessConfig accs args) ∧ accs.business = a

theorem Step.lock_range (h : Step P s c s' cs calls ps) (hact : c.action.commits a)
    (hb : s'.business? a = some b) :
    b.termsLockedUntil = 0 ∨ c.tx.now.toInt ≤ b.termsLockedUntil.toInt ∧
      b.termsLockedUntil.toInt ≤ c.tx.now.toInt + 365 * 24 * 60 * 60 := by
  obtain ⟨tx, action⟩ := c
  rcases hact with ⟨accs, args, rfl, rfl⟩ | ⟨accs, args, rfl, rfl⟩
  · obtain ⟨-, b', _, hb', hok⟩ := h.registerBusiness
    obtain ⟨-, hlock, -, rfl⟩ := registerBusinessHandler_eq_ok.mp hok
    rw [hb, Option.some.injEq] at hb'
    subst hb'
    exact checkTermsLock_range hlock
  · obtain ⟨_, b', -, hb', hok⟩ := h.updateBusinessConfig
    obtain ⟨-, -, hlock, rfl⟩ := updateBusinessConfigHandler_eq_ok.mp hok
    rw [hb, Option.some.injEq] at hb'
    subst hb'
    exact checkTermsLock_range hlock

/-- A card opened or cashed in at the shop takes the terms of `b`, and a voucher minted carries its reward
in its name. -/
def TermsApplied (a : Address) (b : Business) (st : Taken) : Prop :=
  match st.label.action with
  | .program (.claimReceipt accs _) => accs.business = a → st.pre.card? accs.card = none →
      ∃ x, st.post.card? accs.card = some x ∧ x.stampsRequiredSnapshot = b.stampsRequired
  | .program (.mintVoucher accs _ _) => accs.business = a →
      (∃ x, st.post.card? accs.card = some x ∧ x.stampsRequiredSnapshot = b.stampsRequired) ∧
      ∃ m md, st.post.tokens.mints.lookup accs.mint = some m ∧ m.metadata = some md ∧
        md.name = b.name.val ++ " - " ++ b.rewardLabel.val
  | _ => True

theorem Step.terms_applied (hw : s.WellPlaced) (h : Step P s c s' cs calls ps) {b₀ : Business}
    (hb : s.business? a = some b₀) (hterms : b₀.terms = b.terms) (hname : b₀.name = b.name) :
    TermsApplied a b ⟨s, c, s'⟩ := by
  have hn : b₀.stampsRequired = b.stampsRequired := congrArg Terms.stampsRequired hterms
  have hl : b₀.rewardLabel = b.rewardLabel := congrArg Terms.rewardLabel hterms
  obtain ⟨tx, action⟩ := c
  unfold TermsApplied
  split
  · next accs secret hact =>
    cases hact
    intro heq
    subst heq
    intro hnone
    obtain ⟨b₁, _, c', _, hb₁, -, -, -, -, -, -, hstamp, hc', -⟩ := h.claimReceipt hw
    rw [hb, Option.some.injEq] at hb₁
    subst hb₁
    rw [hnone] at hstamp
    obtain ⟨-, _, _, _, _, -, -, -, -, -, rfl⟩ := stampCard_eq_ok hstamp
    exact ⟨_, hc', hn⟩
  · next accs voucherId uri hact =>
    cases hact
    intro heq
    subst heq
    obtain ⟨b₁, _, _, _, _, _, hb₁, -, -, -, -, -, -, hok, -, ⟨_, hc'⟩, -⟩ := h.mintVoucher
    rw [hb, Option.some.injEq] at hb₁
    subst hb₁
    obtain ⟨-, -, hcash, -⟩ := mintVoucherHandler_eq_ok hok
    obtain ⟨_, -, rfl⟩ := cashIn_eq_ok hcash
    obtain ⟨b₁, hb₁, hmint, -⟩ := h.minted
    rw [hb, Option.some.injEq] at hb₁
    subst hb₁
    refine ⟨⟨_, hc', hn⟩, _, _, hmint, rfl, ?_⟩
    rw [← hname, ← hl]
    rfl
  · trivial

/-- **A committed offer stands.** -/
theorem committed_offer_stands (h : Run P start (later ++ st :: earlier) s) (hs : start.Empty)
    (hclock : ClockForward (later ++ st :: earlier)) (hact : st.label.action.commits a)
    (hb : st.post.business? a = some b) :
    (b.termsLockedUntil = 0 ∨ st.label.tx.now.toInt ≤ b.termsLockedUntil.toInt ∧
      b.termsLockedUntil.toInt ≤ st.label.tx.now.toInt + 365 * 24 * 60 * 60) ∧
    (clock (later ++ st :: earlier) < b.termsLockedUntil.toInt →
      ∃ b', s.business? a = some b' ∧ b'.terms = b.terms) ∧
    ∀ st' ∈ later, st'.label.tx.now.toInt < b.termsLockedUntil.toInt → TermsApplied a b st' := by
  obtain ⟨he, hn, hlater⟩ := Runs.Run.split h
  have hw := Run.wellPlaced he hs.wellPlaced
  obtain ⟨_, _, _, hst⟩ := hn.step hw
  have hw' := hst.wellPlaced hw
  have hc' := hst.current (Run.current he hs)
  refine ⟨hst.lock_range hact hb, fun hbefore => ?_, fun st' hmem hbefore => ?_⟩
  · -- the clock only goes forward, so the date was still ahead at every step since
    have hlock : ∀ st' ∈ later, st'.label.tx.now.toInt < b.termsLockedUntil.toInt := by
      cases later with
      | nil => nofun
      | cons newest rest =>
        obtain ⟨hfirst, -⟩ := List.pairwise_cons.mp hclock.2
        intro st' hmem
        rcases List.mem_cons.mp hmem with rfl | hmem
        · exact hbefore
        · exact Int.lt_of_le_of_lt (hfirst st' (List.mem_append_left _ hmem)) hbefore
    obtain ⟨b', hb', hterms, -⟩ := Run.terms_kept hlater hw' hc' hb hlock
    exact ⟨b', hb', hterms⟩
  · obtain ⟨before, after, rfl, hrun, hnext, -⟩ := hlater.of_mem hmem
    have hlock : ∀ x ∈ before, x.label.tx.now.toInt < b.termsLockedUntil.toInt := by
      intro x hx
      have hpair := hclock.2
      rw [List.append_assoc] at hpair
      obtain ⟨-, hpair, -⟩ := List.pairwise_append.mp hpair
      obtain ⟨hfirst, -⟩ := List.pairwise_cons.mp hpair
      exact Int.lt_of_le_of_lt (hfirst x (List.mem_append_left _ hx)) hbefore
    obtain ⟨b', hb', hterms, hname⟩ := Run.terms_kept hrun hw' hc' hb hlock
    obtain ⟨_, _, _, hstep⟩ := hnext.step (Run.wellPlaced hrun hw')
    exact hstep.terms_applied (Run.wellPlaced hrun hw') hb' hterms hname

/-- A shop committed until 2000 stands by its terms after the receipt it issues at 1010. -/
theorem committed_offer_stands_receipt : ∃ st₁ st₂ s b b', Run Sample.platform Sample.start [st₂, st₁] s ∧
    st₁.post.business? Sample.shop = some b ∧ b.termsLockedUntil = 2000 ∧ s.business? Sample.shop = some b' ∧
    b'.terms = b.terms := by
  obtain ⟨hist₁, s₁, hrun₁, hcalls₁, hp⟩ := Leads.run (P := Sample.platform) (s := Sample.start)
    (l := [Sample.register 1000 1 2000])
    (p := fun s => (s.business? Sample.shop).any (fun b : Business => b.termsLockedUntil == 2000) &&
      Leads Sample.platform s [Sample.issue 1010 7] fun _ => true) (by decide +kernel)
  simp only [Bool.and_eq_true, Option.any_eq_true, beq_iff_eq] at hp
  obtain ⟨⟨b, hb, hlock⟩, hissue⟩ := hp
  obtain ⟨later, s, hlater, hcalls₂, -⟩ := Leads.run hissue
  obtain ⟨st₁, rfl, hlabel₁⟩ := List.map_eq_singleton_iff.mp hcalls₁
  obtain ⟨st₂, rfl, hlabel₂⟩ := List.map_eq_singleton_iff.mp hcalls₂
  obtain ⟨-, -, rfl⟩ := Runs.Run.cons_inv hrun₁
  have hrun : Run Sample.platform Sample.start ([st₂] ++ st₁ :: []) s := hrun₁.append hlater
  have hclock : ClockForward [st₂, st₁] := .of_calls (l := [Sample.issue 1010 7, Sample.register 1000 1 2000])
    (by simp only [List.map_cons, List.map_nil, hlabel₁, hlabel₂]) (by decide) (by decide)
  have hact : st₁.label.action.commits Sample.shop := by
    rw [hlabel₁]
    exact .inl ⟨_, _, rfl, rfl⟩
  have hbefore : clock [st₂, st₁] < b.termsLockedUntil.toInt := by
    rw [clock, hlabel₂, hlock]
    decide
  obtain ⟨b', hb', hterms⟩ :=
    (committed_offer_stands hrun Sample.start_empty hclock hact hb).2.1 hbefore
  exact ⟨st₁, st₂, s, b, b', hrun, hb, hlock, hb', hterms⟩

/-! ## Receipts and their shops -/

theorem Step.shop_kept (hw : s.WellPlaced) (h : Step P s c s' cs calls ps) (hb : s.business? a = some b)
    (hopen : ∀ accs, c.action = .program (.closeBusiness accs) → accs.business ≠ a) :
    ∃ b', s'.business? a = some b' := by
  obtain ⟨tx, action⟩ := c
  rcases h.shop hw a with hsame | hch
  · exact ⟨b, hsame.trans hb⟩
  rw [hb] at hch
  generalize s'.business? a = after at hch
  cases hch with
  | closed hadr => exact absurd hadr (hopen _ rfl)
  | _ => exact ⟨_, rfl⟩

/-- No step so far was later than the receipt's date. -/
def Unexpired (r : Receipt) (hist : History) : Prop := ∀ st ∈ hist, st.label.tx.now ≤ r.expiresAt

/-- Every live receipt whose date has not passed names a live shop. -/
def ReceiptsBacked (hist : History) (s : State) : Prop :=
  ∀ a r, s.receipt? a = some r → Unexpired r hist → ∃ b, s.business? r.business = some b

/-- If the step closes a shop, no receipt of the shop is live whose date has not passed. -/
def ClosesSettled (st : Taken) (earlier : History) : Prop :=
  ∀ accs, st.label.action = .program (.closeBusiness accs) → ∀ a r, st.pre.receipt? a = some r →
    r.business = accs.business → ¬Unexpired r (st :: earlier)

theorem Step.receiptsBacked (hw : s.WellPlaced) (h : Step P s c s' cs calls ps) (hi : ReceiptsBacked hist s)
    (hclose : ClosesSettled ⟨s, c, s'⟩ hist) : ReceiptsBacked (⟨s, c, s'⟩ :: hist) s' := by
  intro a r hr hun
  rcases h.receipt hw a with hsame | hch
  · rw [hr] at hsame
    obtain ⟨b, hb⟩ := hi a r hsame.symm fun st hst => hun st (List.mem_cons_of_mem _ hst)
    exact h.shop_kept hw hb fun accs hact he => hclose accs hact a r hsame.symm he.symm hun
  obtain ⟨tx, action⟩ := c
  rw [hr] at hch
  generalize s.receipt? a = before at hch
  cases hch with
  | issued _ hb _ _ _ hok =>
    obtain ⟨-, _, _, _, -, -, -, -, -, rfl⟩ := issueReceiptHandler_eq_ok hok
    exact h.shop_kept hw hb (by simp)

/-- **When no shop disappears under an outstanding receipt**: exactly when no shop is closed while one of its
receipts is live and its date has not passed. `close_business` does not look at receipts. -/
theorem receipts_backed_iff (h : Run P start hist s) (hs : start.Empty) :
    (∀ st earlier, st :: earlier <:+ hist → ReceiptsBacked (st :: earlier) st.post) ↔
      ∀ st earlier, st :: earlier <:+ hist → ClosesSettled st earlier := by
  have hsteps : ∀ st earlier, st :: earlier <:+ hist → st.pre.WellPlaced ∧
      Run P start earlier st.pre ∧ ∃ cs calls ps, Step P st.pre st.label st.post cs calls ps := by
    intro st earlier hex
    obtain ⟨later, rfl⟩ := hex
    obtain ⟨he, hn, -⟩ := Runs.Run.split h
    have hw := Run.wellPlaced he hs.wellPlaced
    exact ⟨hw, he, hn.step hw⟩
  constructor
  · intro hall st earlier hsuf accs hact a r hr hbus hun
    obtain ⟨-, -, _, _, _, hst⟩ := hsteps st earlier hsuf
    obtain ⟨pre, ⟨tx, action⟩, post⟩ := st
    subst hact
    obtain ⟨_, -, -, hgone, hsame⟩ := hst.closeBusiness
    obtain ⟨b, hb⟩ := hall _ earlier hsuf a r ((hsame a).trans hr) hun
    rw [hbus, hgone] at hb
    cases hb
  · intro hall st earlier hsuf
    have key : ∀ {hist₀ s₀}, Run P start hist₀ s₀ → hist₀ <:+ hist → ReceiptsBacked hist₀ s₀ := by
      intro hist₀ s₀ hrun
      refine (hrun.induct (I := fun hist₀ s₀ => hist₀ <:+ hist → ReceiptsBacked hist₀ s₀) hs.wellPlaced ?_
        ?_).2
      · intro _ a r hr
        rw [State.receipt?, State.record?, hs.program] at hr
        cases hr
      · intro hist₁ s₁ c s₂ cs calls ps _ hw hi hst hsuf
        exact hst.receiptsBacked hw (hi ((List.suffix_cons _ _).trans hsuf)) (hall _ _ hsuf)
    obtain ⟨later, rfl⟩ := hsuf
    obtain ⟨he, hn, -⟩ := Runs.Run.split h
    exact key (he.step hn) (List.suffix_append _ _)

/-- A shop without a commitment, one receipt out, closed by anybody ten seconds later. -/
theorem receipt_without_shop : ∃ hist s a r, Run Sample.platform Sample.start hist s ∧
    s.receipt? a = some r ∧ Unexpired r hist ∧ s.business? r.business = none := by
  obtain ⟨hist, s, hrun, hcalls, hp⟩ := Leads.run (P := Sample.platform) (s := Sample.start)
    (l := [Sample.register 1000 1 0, Sample.issue 1010 7,
      Sample.call 1020 [] (.closeBusiness ⟨Sample.shop, Sample.key 2⟩)])
    (p := fun s => (s.receipt? (.receipt Sample.shop (Sample.hash 7) 255)).any fun r : Receipt =>
      decide (1020 ≤ r.expiresAt) && (s.business? r.business).isNone) (by decide +kernel)
  simp only [Option.any_eq_true, Bool.and_eq_true, decide_eq_true_eq, Option.isNone_iff_eq_none] at hp
  obtain ⟨r, hr, hexp, hnone⟩ := hp
  refine ⟨hist, s, _, r, hrun, hr, fun st hst => ?_, hnone⟩
  have hmem := List.mem_map_of_mem (f := fun st => st.label) hst
  rw [hcalls] at hmem
  have hnow : ∀ c ∈ [Sample.register 1000 1 0, Sample.issue 1010 7,
      Sample.call 1020 [] (.closeBusiness ⟨Sample.shop, Sample.key 2⟩)].reverse, c.tx.now ≤ 1020 := by decide
  exact Int64.le_trans (hnow _ hmem) hexp

/-- A shop closed when the one receipt that is out has expired. -/
theorem receipts_backed_issued : ∃ hist s, Run Sample.platform Sample.start hist s ∧
    (s.receipt? (.receipt Sample.shop (Sample.hash 7) 255)).isSome = true ∧ s.business? Sample.shop = none ∧
    ∀ st earlier, st :: earlier <:+ hist → ReceiptsBacked (st :: earlier) st.post := by
  obtain ⟨hist, s, hrun, hcalls, hp⟩ := Leads.run (P := Sample.platform) (s := Sample.start)
    (l := [Sample.register 1000 1 0, Sample.issue 1010 7])
    (p := fun s => s.program.entries.all (fun e => (Record.parse e.2).all fun r =>
        r.receipt?.all fun r => decide (r.expiresAt < 2000)) &&
      Leads Sample.platform s [Sample.closeShop 2000] fun s =>
        (s.receipt? (.receipt Sample.shop (Sample.hash 7) 255)).isSome && (s.business? Sample.shop).isNone)
    (by decide +kernel)
  simp only [Bool.and_eq_true, List.all_eq_true, Option.all_eq_true, decide_eq_true_eq] at hp
  obtain ⟨hover, hclose⟩ := hp
  obtain ⟨s', hnext, hp⟩ := Leads.step hclose
  rw [Bool.and_eq_true, Option.isNone_iff_eq_none] at hp
  obtain ⟨hthere, hgone⟩ := hp
  refine ⟨_, s', hrun.step hnext, hthere, hgone,
    (receipts_backed_iff (hrun.step hnext) Sample.start_empty).mpr fun st earlier hsuf accs hact => ?_⟩
  rcases List.suffix_cons_iff.mp hsuf with hlast | hsuf
  · obtain ⟨rfl, rfl⟩ := List.cons_eq_cons.mp hlast
    intro a r hr _ hun
    obtain ⟨data, hd, hparse⟩ := Option.bind_eq_some_iff.mp (State.receipt?_eq_some.mp hr)
    have hexp := hover _ (Store.mem_entries_of_lookup hd) _ hparse r rfl
    exact absurd hexp (Int64.not_lt.mpr (hun _ List.mem_cons_self))
  · have hmem := List.mem_map_of_mem (f := fun st => st.label) (hsuf.subset List.mem_cons_self)
    rw [hcalls] at hmem
    have hnot : ∀ c ∈ [Sample.register 1000 1 0, Sample.issue 1010 7].reverse,
        c.action ≠ .program (.closeBusiness accs) := by
      simp [Sample.register, Sample.issue, Sample.call]
    exact absurd hact (hnot _ hmem)

end Passdari
