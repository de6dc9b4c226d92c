/-
Voucher numbers over the whole life of a shop's address. A registration
starts them at zero again, so a number is used a second time exactly when a
shop that has minted vouchers is closed, registered again and mints more.
-/
import Passdari.Books.OneToken

namespace Passdari

open Wire Token2022

variable {P : Platform} {s s' start : State} {hist newer older : History} {c : Call} {cs : List Change}
  {calls : List TokenCall} {ps : List Payment} {V M b : Address} {n : UInt64} {bump bump' : UInt8}
  {st : Taken}

/-- The number of the voucher of the shop `b` that the step mints. -/
def Action.mintId (b : Address) : Action → Option UInt64
  | .program (.mintVoucher accs voucherId _) => if accs.business = b then some voucherId else none
  | _ => none

/-- The numbers of the vouchers of the shop `b`, newest first. -/
def mintedIds (b : Address) (hist : History) : List UInt64 :=
    hist.filterMap fun st => st.label.action.mintId b

/-- The step creates the account of a voucher at `V`, or a mint at `M`. -/
def Creates (V M : Address) (st : Taken) : Prop :=
  st.pre.voucher? V = none ∧ st.post.voucher? V ≠ none ∨
    st.pre.tokens.mints.lookup M = none ∧ st.post.tokens.mints.lookup M ≠ none

/-- No voucher of the shop `b` is created twice, nor its mint. -/
def CreatedOnce (P : Platform) (b : Address) (hist : History) : Prop :=
  ∀ n V M bump bump', findProgramAddress P (.voucher b n) = some (V, bump) →
    findProgramAddress P (.voucherMint b n) = some (M, bump') →
    hist.Pairwise fun newer older => ¬(Creates V M newer ∧ Creates V M older)

/-- The shop `b` minted vouchers, was registered after that, and minted more. -/
def Reissues (b : Address) (hist : History) : Prop :=
  ∃ newer st older, hist = newer ++ st :: older ∧ st.label.action.registers b = true ∧
    mintedIds b newer ≠ [] ∧
    mintedIds b older ≠ []

theorem Action.mintId_eq_some {a : Action} : a.mintId b = some n ↔
    ∃ accs uri, a = .program (.mintVoucher accs n uri) ∧ accs.business = b := by
  unfold Action.mintId
  split
  · simp_all [and_comm]
  · next h =>
    refine ⟨(by simp), ?_⟩
    intro hex
    obtain ⟨accs, uri, rfl, -⟩ := hex
    exact absurd rfl (h accs n uri)

theorem mintedIds_append : mintedIds b (newer ++ older) = mintedIds b newer ++ mintedIds b older :=
  List.filterMap_append

theorem mintedIds_cons : mintedIds b (st :: hist) = (st.label.action.mintId b).toList ++ mintedIds b
    hist := by
  rw [mintedIds, List.filterMap_cons]
  cases st.label.action.mintId b <;> rfl

theorem mem_mintedIds : n ∈ mintedIds b hist ↔ ∃ st ∈ hist, st.label.action.mintId b = some n :=
    List.mem_filterMap

/-- What a shop minted since its registration is all it minted, or it minted more before it. -/
theorem since_append_of_registers (hreg : st.label.action.registers b = true) :
    ∀ {newer : History}, since b (newer ++ st :: older) = since b newer
  | [] => by
    rw [List.nil_append, since_cons, if_pos hreg]
    rfl
  | x :: newer => by
    rw [List.cons_append, since_cons, since_cons, since_append_of_registers hreg]

theorem mintedIds_since_eq (h : ¬Reissues b (st :: hist)) (hmint : st.label.action.mintId b ≠ none) :
    mintedIds b (since b hist) = mintedIds b hist := by
  have hsplit := List.takeWhile_append_dropWhile (p := fun st : Taken => !st.label.action.registers b)
    (l := hist)
  cases hrest : hist.dropWhile fun st => !st.label.action.registers b with
  | nil =>
    rw [hrest, List.append_nil] at hsplit
    rw [since, hsplit]
  | cons r older =>
    have hreg := List.head_dropWhile_not (fun st : Taken => !st.label.action.registers b) (l := hist)
      (by rw [hrest]; simp)
    simp only [hrest, List.head_cons, Bool.not_eq_false'] at hreg
    have hnone : mintedIds b (r :: older) = [] := by
      by_contra hold
      refine h ⟨st :: since b hist, r, older, ?_, hreg, ?_, ?_⟩
      · rw [List.cons_append, since, ← hrest, hsplit]
      · rw [mintedIds_cons]
        obtain ⟨n, hn⟩ := Option.ne_none_iff_exists'.mp hmint
        rw [hn]
        exact List.cons_ne_nil _ _
      · obtain ⟨_, _, hact, -⟩ := Action.registers_eq_true.mp hreg
        rwa [mintedIds_cons, hact] at hold
    calc mintedIds b (since b hist) = mintedIds b (since b hist) ++ mintedIds b (r :: older) := by
          rw [hnone, List.append_nil]
      _ = mintedIds b hist := by rw [← mintedIds_append, since, ← hrest, hsplit]

/-- A voucher and its mint are created by the minting of their number only. -/
theorem Step.creates_iff (h : Step P s c s' cs calls ps)
    (hV : findProgramAddress P (.voucher b n) = some (V, bump))
    (hM : findProgramAddress P (.voucherMint b n) = some (M, bump')) :
    Creates V M ⟨s, c, s'⟩ ↔ c.action.mintId b = some n := by
  obtain ⟨tx, action⟩ := c
  rw [Action.mintId_eq_some]
  constructor
  · intro hor
    rcases hor with ⟨hnone, hsome⟩ | ⟨hnone, hsome⟩
    · obtain ⟨v', hv'⟩ := Option.ne_none_iff_exists'.mp hsome
      rcases h.voucher_goes_on hv' with ⟨v, hv, -⟩ | ⟨accs, voucherId, uri, rfl, hadr, -⟩
      · rw [hnone] at hv
        cases hv
      · obtain ⟨_, _, _, _, _, _, -, -, -, -, -, -, hf, -⟩ := h.mintVoucher
        have hat := (findProgramAddress_eq hf).symm.trans (hadr.trans (findProgramAddress_eq hV))
        simp only [Address.voucher.injEq] at hat
        exact ⟨accs, uri, by rw [hat.2.1], hat.1⟩
    · obtain ⟨m, hm⟩ := Option.ne_none_iff_exists'.mp hsome
      obtain ⟨k, hk, m₀, hop⟩ := run_opens_mint h.tokens hnone hm
      have hat := findProgramAddress_eq hM
      rcases h.effect.opens_mint k hk m₀ hop with ⟨-, accs, voucherId, uri, rfl, hmint⟩ | ⟨hcard, -⟩ | hs
      · obtain ⟨-, -, _, hf⟩ := h.mintVoucher_free
        have hat := (findProgramAddress_eq hf).symm.trans (hmint.trans hat)
        simp only [Address.voucherMint.injEq] at hat
        exact ⟨accs, uri, by rw [hat.2.1], hat.1⟩
      · rw [hat] at hcard
        cases hcard
      · have := h.signers _ hs
        rw [hat] at this
        cases this
  · intro hex
    obtain ⟨accs, uri, rfl, rfl⟩ := hex
    obtain ⟨_, _, _, _, v, _, -, -, hnone, -, -, -, hf, -, -, -, hv⟩ := h.mintVoucher
    rw [hf, Option.some.injEq, Prod.mk.injEq] at hV
    obtain ⟨rfl, -⟩ := hV
    exact .inl ⟨hnone, by rw [hv]; exact (by simp)⟩

/-- A live shop has used the numbers up to its count since it was registered, in order. -/
theorem Run.mintedIds_since (h : Run P start hist s) (hs : start.Empty) {x : Business}
    (hx : s.business? b = some x) :
    (mintedIds b (since b hist)).map UInt64.toNat = (List.range x.totalVouchersIssued.toNat).reverse := by
  refine h.induct_shop (I := fun since _ x =>
    (mintedIds b since).map UInt64.toNat = (List.range x.totalVouchersIssued.toNat).reverse) hs ?_ ?_ hx
  · intro hist s c s' cs calls ps x accs args _ hst hact hadr _ hx
    obtain ⟨tx, action⟩ := c
    subst hact hadr
    obtain ⟨-, x', _, hx', hok⟩ := hst.registerBusiness
    rw [hx, Option.some.injEq] at hx'
    obtain ⟨-, -, -, rfl⟩ := registerBusinessHandler_eq_ok.mp hok
    rw [hx']
    rfl
  · intro hist s c s' cs calls ps x x' hrun hw hcur hst hreg hx hx' hi
    cases hid : c.action.mintId b with
    | some n =>
      obtain ⟨tx, action⟩ := c
      obtain ⟨accs, uri, rfl, rfl⟩ := Action.mintId_eq_some.mp hid
      obtain ⟨_, _, _, _, _, _, hx₀, -, -, -, -, -, -, hok, hx₁, -⟩ := hst.mintVoucher
      obtain ⟨-, hn, -, _, _, _, -, htotal, -, rfl, -⟩ := mintVoucherHandler_eq_ok hok
      rw [hx, Option.some.injEq] at hx₀
      rw [hx', Option.some.injEq] at hx₁
      subst hx₀ hx₁
      rw [mintedIds_cons, List.map_append, hi, htotal, List.range_succ, List.reverse_append]
      rw [show (Action.mintId accs.business _).toList = [n] from congrArg Option.toList hid, hn]
      rfl
    | none =>
      suffices htotal : x'.totalVouchersIssued = x.totalVouchersIssued by
        simp only [mintedIds_cons, hid, htotal]
        exact hi
      rcases hst.shop hw b with hsame | hch
      · rw [hx, hx', Option.some.injEq] at hsame
        rw [hsame]
      have hm := hst.effect.not_migration hcur
      obtain ⟨tx, action⟩ := c
      rw [hx, hx'] at hch
      cases hch with
      | edited _ _ _ hok =>
        obtain ⟨-, -, -, rfl⟩ := updateBusinessConfigHandler_eq_ok.mp hok
        rfl
      | voucherMinted hadr => exact absurd hid (by simp [Action.mintId, hadr])
      | receiptIssued | stampClaimed | cardClosed | voucherRedeemed | voucherExpired => rfl
      | migrated => exact absurd rfl (hm.2 _)

/-- Whatever a shop minted since a registration, or at all, began with number zero. -/
theorem Run.zero_minted (h : Run P start (newer ++ older) s) (hs : start.Empty)
    (hsince : ∀ hist : History, since b (hist ++ older) = since b hist) (hsome : mintedIds b newer ≠ []) :
    0 ∈ mintedIds b newer := by
  obtain ⟨n, hn⟩ := List.exists_mem_of_ne_nil _ hsome
  obtain ⟨st, hst, hid⟩ := mem_mintedIds.mp hn
  obtain ⟨later, earlier, rfl⟩ := List.append_of_mem hst
  rw [List.append_assoc, List.cons_append] at h
  obtain ⟨hrun, hnext, -⟩ := h.split
  obtain ⟨_, _, _, hstep⟩ := hnext.step (Run.wellPlaced hrun hs.wellPlaced)
  obtain ⟨pre, ⟨tx, action⟩, post⟩ := st
  obtain ⟨accs, uri, rfl, rfl⟩ := Action.mintId_eq_some.mp hid
  obtain ⟨_, _, x, _, _, _, hx₀, -, -, -, -, -, -, hok, hx₁, -⟩ := hstep.mintVoucher
  obtain ⟨-, -, -, _, _, _, -, htotal, -, rfl, -⟩ := mintVoucherHandler_eq_ok hok
  have hids := Run.mintedIds_since (hrun.step hnext) hs hx₁
  rw [← List.cons_append, hsince, htotal] at hids
  obtain ⟨i, hi, h0⟩ := List.mem_map.mp (hids ▸ List.mem_reverse.mpr (List.mem_range.mpr (Nat.succ_pos _)))
  rw [mintedIds_append, List.mem_append]
  right
  obtain rfl : i = 0 := UInt64.toNat_inj.mp h0
  exact (List.Sublist.filterMap _ (List.takeWhile_sublist _)).mem hi

/-- A shop that is not registered again between two mints uses its numbers in order. -/
theorem Run.minted_in_order (h : Run P start hist s) (hs : start.Empty) (hno : ¬Reissues b hist) :
    (mintedIds b hist).Pairwise fun newer older => older < newer := by
  induction hist generalizing s with
  | nil => exact .nil
  | cons st hist ih =>
    have hno' : ¬Reissues b hist := by
      intro hex
      obtain ⟨newer, r, older, rfl, hreg, hnew, hold⟩ := hex
      refine hno ⟨st :: newer, r, older, rfl, hreg, ?_, hold⟩
      rw [mintedIds_cons]
      exact List.append_ne_nil_of_right_ne_nil _ hnew
    obtain ⟨hrun, hnext, rfl⟩ := h.cons_inv
    cases hid : st.label.action.mintId b with
    | none =>
      rw [mintedIds_cons, hid]
      exact ih hrun hno'
    | some n =>
      obtain ⟨_, _, _, hstep⟩ := hnext.step (Run.wellPlaced hrun hs.wellPlaced)
      have hsince := mintedIds_since_eq hno (by rw [hid]; exact Option.some_ne_none n)
      obtain ⟨pre, ⟨tx, action⟩, post⟩ := st
      obtain ⟨accs, uri, rfl, rfl⟩ := Action.mintId_eq_some.mp hid
      obtain ⟨_, _, _, _, _, _, -, -, -, -, -, -, -, -, hx, -⟩ := hstep.mintVoucher
      have hids := Run.mintedIds_since h hs hx
      rw [since_cons, if_neg (by simp [Action.registers]), mintedIds_cons, hsince, ← mintedIds_cons] at hids
      have hlt :
        ((mintedIds accs.business (⟨pre, ⟨tx, .program (.mintVoucher accs n uri)⟩, post⟩ :: hist)).map
          UInt64.toNat).Pairwise fun newer older => older < newer := by
        rw [hids]
        exact List.pairwise_reverse.mpr List.pairwise_lt_range
      exact List.pairwise_map.mp hlt

/-- A shop that is uses number zero again. -/
theorem Run.zero_reissued (h : Run P start hist s) (hs : start.Empty) (hre : Reissues b hist) :
    ∃ newer older, hist = newer ++ older ∧ 0 ∈ mintedIds b newer ∧ 0 ∈ mintedIds b older := by
  obtain ⟨newer, st, older, rfl, hreg, hnew, hold⟩ := hre
  obtain ⟨hrun, -, -⟩ := h.split
  refine ⟨newer, st :: older, rfl, h.zero_minted hs (fun _ => since_append_of_registers hreg) hnew, ?_⟩
  rw [mintedIds_cons, List.mem_append]
  right
  rw [← List.append_nil older] at hrun
  exact Run.zero_minted hrun hs (fun hist => by rw [List.append_nil]) hold

theorem Run.createdOnce (h : Run P start hist s) (hs : start.Empty)
    (hids : (mintedIds b hist).Pairwise fun newer older => older < newer) : CreatedOnce P b hist := by
  intro n V M bump bump' hV hM
  have hcreates : ∀ st ∈ hist, Creates V M st → st.label.action.mintId b = some n := by
    refine h.forall_steps fun {earlier st} hr hn hcr => ?_
    obtain ⟨_, _, _, hst⟩ := hn.step (Run.wellPlaced hr hs.wellPlaced)
    exact (hst.creates_iff hV hM).mp hcr
  refine List.Pairwise.imp_of_mem (fun {newer older} hnew hold hlt => ?_) (List.pairwise_filterMap.mp hids)
  intro hex
  obtain ⟨hcn, hco⟩ := hex
  exact UInt64.lt_irrefl n (hlt n (hcreates newer hnew hcn) n (hcreates older hold hco))

theorem Run.not_createdOnce (h : Run P start hist s) (hs : start.Empty) (hre : Reissues b hist) :
    ¬CreatedOnce P b hist := by
  obtain ⟨newer, older, rfl, hnew, hold⟩ := h.zero_reissued hs hre
  obtain ⟨st₂, hst₂, hid₂⟩ := mem_mintedIds.mp hnew
  obtain ⟨st₁, hst₁, hid₁⟩ := mem_mintedIds.mp hold
  have hstep : ∀ st ∈ newer ++ older, ∃ cs calls ps, Step P st.pre st.label st.post cs calls ps :=
    h.forall_steps fun hr hn => hn.step (Run.wellPlaced hr hs.wellPlaced)
  obtain ⟨_, _, _, hs₂⟩ := hstep st₂ (List.mem_append_left _ hst₂)
  obtain ⟨_, _, _, hs₁⟩ := hstep st₁ (List.mem_append_right _ hst₁)
  obtain ⟨pre, ⟨tx, action⟩, post⟩ := st₁
  obtain ⟨accs, uri, rfl, rfl⟩ := Action.mintId_eq_some.mp hid₁
  obtain ⟨_, _, _, _, _, _, -, -, -, -, -, -, hV, -⟩ := hs₁.mintVoucher
  obtain ⟨-, -, _, hM⟩ := hs₁.mintVoucher_free
  intro honce
  exact (List.pairwise_append.mp (honce 0 _ _ _ _ hV hM)).2.2 st₂ hst₂ _ hst₁
    ⟨(hs₂.creates_iff hV hM).mpr hid₂, (hs₁.creates_iff hV hM).mpr hid₁⟩

/-- **When a closed voucher stays closed.** Every voucher of a shop, and its mint, is created once, and the
numbers only go up, exactly in the runs in which the shop is not registered again between two mints. -/
theorem created_once_iff (h : Run P start hist s) (hs : start.Empty) (b : Address) :
    (CreatedOnce P b hist ↔ ¬Reissues b hist) ∧
      ((mintedIds b hist).Pairwise (fun newer older => older < newer) ↔ ¬Reissues b hist) := by
  refine ⟨⟨fun honce hre => h.not_createdOnce hs hre honce,
    fun hno => h.createdOnce hs (h.minted_in_order hs hno)⟩, ⟨fun hids hre => ?_, h.minted_in_order hs⟩⟩
  obtain ⟨newer, older, rfl, hnew, hold⟩ := h.zero_reissued hs hre
  rw [mintedIds_append] at hids
  exact UInt64.lt_irrefl 0 ((List.pairwise_append.mp hids).2.2 0 hnew 0 hold)

theorem mintedIds_of_calls {l : List Call} (h : hist.map (fun st => st.label) = l) :
    mintedIds b hist = l.filterMap fun c => c.action.mintId b := by
  rw [← h, List.filterMap_map]
  rfl

/-- A customer who cashes in once. -/
theorem created_once_cashed_in : ∃ hist s, Run Sample.platform Sample.start hist s ∧
    mintedIds Sample.shop hist = [0] ∧ CreatedOnce Sample.platform Sample.shop hist := by
  obtain ⟨hist, s, hrun, hcalls, -⟩ := Leads.run (P := Sample.platform) (s := Sample.start)
    (l := [Sample.register 1000 1 0, Sample.issue 1010 7, Sample.claim 1020 9 7, Sample.cashIn 1030 9 0])
    (p := fun _ => true) (by decide +kernel)
  have hids : mintedIds Sample.shop hist = [0] := (mintedIds_of_calls hcalls).trans (by decide)
  refine ⟨hist, s, hrun, hids, (created_once_iff hrun Sample.start_empty _).1.mpr ?_⟩
  intro hex
  obtain ⟨newer, st, older, rfl, -, hnew, hold⟩ := hex
  rw [mintedIds_append, mintedIds_cons, List.append_eq_singleton_iff] at hids
  rcases hids with ⟨h0, -⟩ | ⟨-, h1⟩
  · exact hnew h0
  · rw [List.append_eq_nil_iff] at h1
    exact hold h1.2

/-- A shop closes when all is redeemed, is registered again a year later, and mints its voucher number zero
anew. -/
theorem closed_voucher_came_back : ∃ hist s, Run Sample.platform Sample.start hist s ∧
    mintedIds Sample.shop hist = [0, 0] ∧ ¬CreatedOnce Sample.platform Sample.shop hist := by
  obtain ⟨older, s₁, hrun₁, hcalls₁, hp⟩ := Leads.run (P := Sample.platform) (s := Sample.start)
    (l := [Sample.register 1000 1 0, Sample.issue 1010 7, Sample.claim 1020 9 7, Sample.cashIn 1030 9 0,
      Sample.present 1040 9 0, Sample.redeem 1050 9 0, Sample.closeCard 31538000 9,
      Sample.closeShop 31538000])
    (p := fun s => Leads Sample.platform s [Sample.register 31538010 1 0] fun s =>
      Leads Sample.platform s [Sample.issue 31538020 8, Sample.claim 31538030 9 8, Sample.cashIn 31538040 9 0]
        fun _ => true) (by decide +kernel)
  obtain ⟨s₂, hreg, hp⟩ := Leads.step hp
  obtain ⟨newer, s, hrun₂, hcalls₂, -⟩ := Leads.run hp
  have hrun := (hrun₁.step hreg).append hrun₂
  have hnew : mintedIds Sample.shop newer = [0] := (mintedIds_of_calls hcalls₂).trans (by decide)
  have hold : mintedIds Sample.shop older = [0] := (mintedIds_of_calls hcalls₁).trans (by decide)
  refine ⟨_, s, hrun, ?_, Run.not_createdOnce hrun Sample.start_empty ⟨newer, _, older, rfl, ?_, ?_, ?_⟩⟩
  · rw [mintedIds_append, mintedIds_cons, hnew, hold]
    rfl
  · exact Action.registers_eq_true.mpr ⟨_, _, rfl, rfl⟩
  · rw [hnew]
    exact List.cons_ne_nil _ _
  · rw [hold]
    exact List.cons_ne_nil _ _

end Passdari
