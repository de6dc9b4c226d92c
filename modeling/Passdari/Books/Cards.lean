/-
What a card is worth, and who can lower it: nobody but the customer. This
holds wherever accounts are at their own addresses, so of cards of every
layout, and of what their migration makes of them.
-/
import Passdari.Effect.Calls

namespace Passdari

open Wire Token2022

variable {P : Platform} {tx : Tx} {s s' start : State} {hist : History} {c : Call} {cs : List Change}
  {calls : List TokenCall} {ps : List Payment} {action : Action} {a : Address}

def Face.card? : Face → Option CardV1
  | .card x => some x
  | _ => none

/-- The fields every layout of a card has, of the card at an address. -/
def State.cardFace? (s : State) (a : Address) : Option CardV1 := (s.face? a).bind Face.card?

theorem State.cardFace?_eq_some {x : CardV1} : s.cardFace? a = some x ↔ s.face? a = some (.card x) := by
  rw [State.cardFace?, Option.bind_eq_some_iff]
  exact ⟨fun ⟨f, hf, hx⟩ => by cases f <;> cases hx; exact hf, fun h => ⟨_, h, rfl⟩⟩

theorem State.cardFace?_of_card? {x : LoyaltyCard} (h : s.card? a = some x) :
    s.cardFace? a = some x.toCardV1 :=
  State.cardFace?_eq_some.mpr (State.face?_of_record? (State.card?_eq_some.mp h))

/-- `y` is worth what `x` is, or more, to the same customer. -/
structure KeptCard (x y : CardV1) : Prop where
  stamps : x.stamps.toNat ≤ y.stamps.toNat
  lifetime : x.lifetimeStamps.toNat ≤ y.lifetimeStamps.toNat
  snapshot : y.stampsRequiredSnapshot = x.stampsRequiredSnapshot
  customer : y.customer = x.customer

theorem KeptCard.refl (x : CardV1) : KeptCard x x := ⟨Nat.le_refl _, Nat.le_refl _, rfl, rfl⟩

/-- No stamps on it, and none received for a year. -/
def DeadCard (now : Int64) (x : CardV1) : Prop :=
  x.stamps = 0 ∧ 365 * 24 * 60 * 60 ≤ now.toInt - x.lastStampTs.toInt

/-- What a step its customer did not sign does to a card of the current layout. -/
theorem CardChange.kept {x : LoyaltyCard} {after : Option LoyaltyCard}
    (h : CardChange P tx s a action (some x) after) (hsig : x.customer ∉ tx.signers) :
    (∃ y, after = some y ∧ KeptCard x.toCardV1 y.toCardV1 ∧ y.rewardsEarned = x.rewardsEarned) ∨
      after = none ∧ DeadCard tx.now x.toCardV1 := by
  cases h with
  | stamped _ _ _ _ hs _ hown => exact absurd ((hown x rfl).2 ▸ hs) hsig
  | sent _ hs hcc => exact absurd (hcc ▸ hs) hsig
  | received _ _ _ hok =>
    obtain ⟨-, _, _, _, _, -, -, hds, hdl, rfl, rfl⟩ := transferStampsHandler_eq_ok hok
    exact .inl ⟨_, rfl, ⟨hds ▸ Nat.le_add_right _ _, hdl ▸ Nat.le_add_right _ _, rfl, rfl⟩, rfl⟩
  | cashedIn _ hs _ _ hcc => exact absurd (hcc ▸ hs) hsig
  | nftRetired => exact .inl ⟨_, rfl, ⟨Nat.le_refl _, Nat.le_refl _, rfl, rfl⟩, rfl⟩
  | closed _ h0 hsince hdead =>
    have hy : cardDeadSeconds.toInt = 365 * 24 * 60 * 60 := by decide
    have hle := Int64.le_iff_toInt_le.mp hdead
    rw [subI64_eq_ok.mp hsince, hy] at hle
    exact .inr ⟨rfl, h0, hle⟩

/-- A record is written where none was only at a new address, or where an account of an older layout is
brought up to date. -/
theorem Effect.before_none (h : Effect P tx s action cs calls ps) : ∀ x ∈ cs, x.before = none →
    ¬s.InUse x.addr ∨
      (∃ y, s.face? x.addr = some (.card y.toCardV1) ∧ x.after = some (.card y)) ∨
      ∃ accs b, action = .program (.migrateBusiness accs) ∧ accs.business = x.addr ∧
        s.face? x.addr = some (.business b) := by
  cases h with
  | initializeCounter _ _ hfree | registerBusiness _ _ _ hfree | issueReceipt _ _ _ _ _ _ hfree
  | mintVoucher _ _ _ _ _ hfree => simp [hfree]
  | @claimReceipt _ _ _ _ _ _ _ c _ _ _ _ _ _ _ hfree =>
    cases c with
    | none => simp [hfree rfl]
    | some x => simp
  | @migrateCard _ _ _ _ _ _ _ n _ _ _ _ _ hf _ _ _ _ _ hcard =>
    subst hcard
    cases n <;> simp [hf]
  | migrateBusiness _ _ _ hf => simp [hf]
  | _ => simp

/-- A step leaves a card of an older layout alone, unless it migrates it. -/
theorem Step.old_card (h : Step P s c s' cs calls ps) {x : CardV1} (hx : s.cardFace? a = some x)
    (hold : s.card? a = none) : s'.program.lookup a = s.program.lookup a ∨
      ∃ y, s'.card? a = some y ∧ y.toCardV1 = x := by
  have hface := State.cardFace?_eq_some.mp hx
  have hrec : s.record? a = none := by
    cases hr : s.record? a with
    | none => rfl
    | some r =>
      rw [State.face?_of_record? hr, Option.some.injEq] at hface
      cases r <;> simp only [Record.face, reduceCtorEq] at hface
      rw [State.card?, hr] at hold
      cases hold
  have hused : s.InUse a := by
    rw [State.inUse_iff]
    cases hd : s.program.lookup a with
    | none => rw [State.face?, hd] at hface; cases hface
    | some data => exact .inl rfl
  by_cases ha : a ∈ cs.map Change.addr
  · obtain ⟨k, hk, rfl⟩ := List.mem_map.mp ha
    obtain hfree | ⟨y, hy, hafter⟩ | ⟨_, b, -, -, hb⟩ :=
      h.effect.before_none k hk ((h.changed.before k hk).symm.trans hrec)
    · exact absurd hused hfree
    · rw [hface, Option.some.injEq, Face.card.injEq] at hy
      exact .inr ⟨y, State.card?_eq_some.mpr ((h.changed.record? hk).trans hafter), hy.symm⟩
    · rw [hface] at hb
      cases hb
  · exact .inl (h.changed.frame a ha)

/-- Where a card was and no card is, there is no account. -/
theorem Step.card_gone (h : Step P s c s' cs calls ps) {z : LoyaltyCard} (hz : s.card? a = some z)
    (hnone : s'.card? a = none) : s'.program.lookup a = none := by
  rw [State.card?_eq_some] at hz
  rcases h.changed.lookup a with ⟨-, ha⟩ | ⟨k, hk, rfl, ⟨-, ha⟩ | ⟨r, rest, hr, ha, -⟩⟩
  · rw [State.card?, State.record?_of_lookup ha, hz] at hnone
    cases hnone
  · exact ha
  · have hsize := h.effect.same_space k hk r (.card z) hr ((h.changed.before k hk).symm.trans hz)
    rw [State.card?, h.changed.record? hk, hr] at hnone
    cases r with
    | card y => cases hnone
    | _ => exact absurd hsize (Nat.ne_of_beq_eq_false rfl)

/-- What a step its customer did not sign does to a card of any layout. -/
theorem Step.kept_card (hw : s.WellPlaced) (h : Step P s c s' cs calls ps) {x : CardV1}
    (hx : s.cardFace? a = some x) (hsig : x.customer ∉ c.tx.signers) :
    (∃ y, s'.cardFace? a = some y ∧ KeptCard x y ∧
      ∀ z, s.card? a = some z → ∃ z', s'.card? a = some z' ∧ z'.rewardsEarned = z.rewardsEarned) ∨
    s'.card? a = none ∧ s'.cardFace? a = none ∧ DeadCard c.tx.now x := by
  cases hcard : s.card? a with
  | none =>
    rcases h.old_card hx hcard with hsame | ⟨y, hy, rfl⟩
    · refine .inl ⟨x, ?_, .refl x, (by simp)⟩
      rw [State.cardFace?, State.face?_of_lookup hsame]
      exact hx
    · exact .inl ⟨_, State.cardFace?_of_card? hy, .refl _, (by simp)⟩
  | some z =>
    rw [State.cardFace?_of_card? hcard, Option.some.injEq] at hx
    subst hx
    rcases h.card hw a with hsame | hch
    · have hz := hsame.trans hcard
      exact .inl ⟨_, State.cardFace?_of_card? hz, .refl _, fun w hw => ⟨w, hz.trans hw, rfl⟩⟩
    rw [hcard] at hch
    rcases hch.kept hsig with ⟨y, hy, hkept, hrewards⟩ | ⟨hnone, hdead⟩
    · refine .inl ⟨_, State.cardFace?_of_card? hy, hkept, ?_⟩
      intro _ heq
      cases heq
      exact ⟨y, hy, hrewards⟩
    · refine .inr ⟨hnone, ?_, hdead⟩
      rw [State.cardFace?, State.face?, h.card_gone hcard hnone]
      rfl

/-! ## Runs -/

/-- The cards the claims of a customer rest on, over a run none of which the customer signed. -/
theorem Run.kept_card {s₀ : State} {x : CardV1} (h : Run P s₀ hist s) (hw : s₀.WellPlaced)
    (hx : s₀.cardFace? a = some x) (hsig : ∀ st ∈ hist, x.customer ∉ st.label.tx.signers)
    (hstamps : 1 ≤ x.stamps.toNat) :
    ∃ y, s.cardFace? a = some y ∧ KeptCard x y := by
  have key : (∀ st ∈ hist, x.customer ∉ st.label.tx.signers) → ∃ y, s.cardFace? a = some y ∧
    KeptCard x y := by
    refine (h.induct (I := fun hist s => (∀ st ∈ hist, x.customer ∉ st.label.tx.signers) →
      ∃ y, s.cardFace? a = some y ∧ KeptCard x y) hw (fun _ => ⟨x, hx, .refl x⟩) ?_).2
    intro hist s c s' cs calls ps _ hws hi hst hsigs
    obtain ⟨y, hy, hk⟩ := hi fun st hmem => hsigs st (List.mem_cons_of_mem _ hmem)
    have hnot := hsigs _ List.mem_cons_self
    rcases hst.kept_card hws hy (by rw [hk.customer]; exact hnot) with ⟨z, hz, hkz, -⟩ | ⟨-, -, h0, -⟩
    · exact ⟨z, hz, Nat.le_trans hk.stamps hkz.stamps, Nat.le_trans hk.lifetime hkz.lifetime,
        hkz.snapshot.trans hk.snapshot, hkz.customer.trans hk.customer⟩
    · -- a card with a stamp on it is not dead
      have := hk.stamps
      rw [h0] at this
      exact absurd (Nat.le_trans hstamps this) (by decide)
  exact key hsig

/-- **Nobody but the customer lowers what a card is worth.** -/
theorem card_worth_kept (h : Run P start hist s) (hw : start.WellPlaced) {x : CardV1}
    (hx : s.cardFace? a = some x) :
    (∀ c s', Next P s c s' → x.customer ∉ c.tx.signers →
      (∃ y, s'.cardFace? a = some y ∧ KeptCard x y ∧
        ∀ z, s.card? a = some z → ∃ z', s'.card? a = some z' ∧ z'.rewardsEarned = z.rewardsEarned) ∨
      s'.card? a = none ∧ s'.cardFace? a = none ∧ DeadCard c.tx.now x) ∧
    (x.stampsRequiredSnapshot ≤ x.stamps → 1 ≤ x.stamps → ∀ later s', Run P s later s' →
      (∀ st ∈ later, x.customer ∉ st.label.tx.signers) →
      ∃ y, s'.cardFace? a = some y ∧ y.customer = x.customer ∧ y.stampsRequiredSnapshot ≤ y.stamps ∧
        ∀ z b, s'.card? a = some z → ∃ z', cashIn b z = .ok z') := by
  have hws := h.wellPlaced hw
  constructor
  · intro c s' hn hsig
    obtain ⟨_, _, _, hst⟩ := hn.step hws
    exact hst.kept_card hws hx hsig
  · intro hle hpos later s' hlater hsigs
    obtain ⟨y, hy, hk⟩ := hlater.kept_card hws hx hsigs (UInt8.le_iff_toNat_le.mp hpos)
    have hcan : y.stampsRequiredSnapshot ≤ y.stamps := by
      rw [hk.snapshot]
      exact UInt8.le_trans hle (UInt8.le_iff_toNat_le.mpr hk.stamps)
    refine ⟨y, hy, hk.customer, hcan, fun z b hz => ?_⟩
    rw [State.cardFace?_of_card? hz, Option.some.injEq] at hy
    subst hy
    exact cashIn_ok hcan

/-! ## Accounts of an older layout -/

/-- An account of the old layout: the fields of an old shop, and whatever is behind them. -/
def oldShopBytes (b : BusinessV1) (rest : List UInt8) : List Byte :=
  Business.discriminator ++ (BusinessV1.layout.enc b ++ rest.map .lit)

theorem take_oldShopBytes (b : BusinessV1) (rest : List UInt8) :
    (oldShopBytes b rest).take 8 = Business.discriminator := by
  rw [oldShopBytes, show 8 = Business.discriminator.length from rfl]
  exact List.take_left

theorem drop_oldShopBytes (b : BusinessV1) (rest : List UInt8) :
    (oldShopBytes b rest).drop 8 = BusinessV1.layout.enc b ++ rest.map .lit := by
  rw [oldShopBytes, show 8 = Business.discriminator.length from rfl]
  exact List.drop_left

theorem face_oldShopBytes (b : BusinessV1) (rest : List UInt8) :
    Face.parse (oldShopBytes b rest) = some (.business b) :=
  Face.parse_business (take_oldShopBytes b rest)
    (by rw [readAt, drop_oldShopBytes, Codec.dec_enc_append]; rfl)

namespace Sample

/-- A shop and a card of the oldest layouts, of `key 1` and `key 9`. -/
def oldShop (stampsRequired : UInt8) : BusinessV1 :=
  ⟨key 1, name, category, rewardLabel, stampsRequired, 0, currency, 600, 0, 0, 1, 0, 0, 0, 255⟩

def oldCard (snapshot : UInt8) : CardV1 := ⟨shop, key 9, 0, 0, 0, 0, 0, 0, snapshot, 255⟩

/-- In an account of the size an old shop was given. -/
def oldShopData (stampsRequired : UInt8) : List Byte :=
  oldShopBytes (oldShop stampsRequired) (List.replicate 65 0)

def oldCardData (snapshot : UInt8) : List Byte :=
  LoyaltyCard.discriminator ++ CardV1.layout.enc (oldCard snapshot)

/-- A chain on which both are still as they were. -/
def oldStart (stampsRequired snapshot : UInt8) : State :=
  { Sample.start with
    program := ((∅ : Store Address (List Byte)).insert (card 9) (oldCardData snapshot)).insert shop
      (oldShopData stampsRequired) }

theorem oldStart_lookup {stampsRequired snapshot : UInt8} {data : List Byte}
    (h : (oldStart stampsRequired snapshot).program.lookup a = some data) :
    a = shop ∧ data = oldShopData stampsRequired ∨ a = card 9 ∧ data = oldCardData snapshot := by
  simp only [oldStart, Store.lookup_insert] at h
  split at h
  · next ha => exact .inl ⟨ha, (Option.some.inj h).symm⟩
  split at h
  · next ha => exact .inr ⟨ha, (Option.some.inj h).symm⟩
  · cases h

theorem parse_oldShop (n : UInt8) : Face.parse (oldShopData n) = some (.business (oldShop n)) :=
  face_oldShopBytes _ _

theorem parse_oldCard (n : UInt8) : Face.parse (oldCardData n) = some (.card (oldCard n)) := by
  simp [Face.parse, oldCardData, Counter.discriminator, Business.discriminator, Receipt.discriminator,
    LoyaltyCard.discriminator]

theorem oldStart_wellPlaced (stampsRequired snapshot : UInt8) :
    (oldStart stampsRequired snapshot).WellPlaced where
  faced h := by
    rcases oldStart_lookup h with ⟨rfl, rfl⟩ | ⟨rfl, rfl⟩
    · exact ⟨_, parse_oldShop _, rfl⟩
    · exact ⟨_, parse_oldCard _, rfl⟩
  legible {_ _ c} h hc hlen := by
    rcases oldStart_lookup h with ⟨rfl, rfl⟩ | ⟨rfl, rfl⟩
    · rw [parse_oldShop] at hc
      cases hc
    · have : (oldCardData snapshot).length = 103 := by
        rw [oldCardData, List.length_append, CardV1.layout_sized]
        rfl
      rw [this] at hlen
      exact absurd hlen (by decide)

def migrateShop (now : Int64) : Call := call now [key 2] (.migrateBusiness ⟨shop, key 2⟩)

def migrateTheCard (now : Int64) : Call :=
  call now [key 2] (.migrateCard
    { card := card 9, record := .cardNft (.cardMint (card 9) 0 255) 255, cardMint := .cardMint (card 9) 0 255,
      rentPayer := key 2, relayer := key 2 })

end Sample

/-- A card that asks for no stamps passes the threshold check with none; once migrated, anybody may close it
when a year has gone by. -/
theorem card_without_threshold_closed : ∃ hist s x later s',
    (Sample.oldStart 1 0).WellPlaced ∧ Run Sample.platform (Sample.oldStart 1 0) hist s ∧
    s.card? (Sample.card 9) = some x ∧ x.stampsRequiredSnapshot ≤ x.stamps ∧ Run Sample.platform s later s' ∧
    (∀ st ∈ later, x.customer ∉ st.label.tx.signers) ∧ s'.program.lookup (Sample.card 9) = none := by
  let closing := Sample.call 31536000 []
    (.closeDeadCard ⟨Sample.card 9, Sample.shop, .cardMint (Sample.card 9) 0 255, Sample.key 2⟩)
  obtain ⟨hist, s, hrun, -, hp⟩ := Leads.run (P := Sample.platform) (s := Sample.oldStart 1 0)
    (l := [Sample.migrateShop 1000, Sample.migrateTheCard 1010])
    (p := fun s => (s.card? (Sample.card 9)).any
      (fun x : LoyaltyCard => decide (x.stampsRequiredSnapshot ≤ x.stamps)) &&
      Leads Sample.platform s [closing] fun s' => (s'.program.lookup (Sample.card 9)).isNone)
      (by decide +kernel)
  simp only [Bool.and_eq_true, Option.any_eq_true, decide_eq_true_eq] at hp
  obtain ⟨⟨x, hx, hle⟩, hclose⟩ := hp
  obtain ⟨later, s', hlater, hcalls, hnone⟩ := Leads.run hclose
  refine ⟨hist, s, x, later, s', Sample.oldStart_wellPlaced 1 0, hrun, hx, hle, hlater, fun st hst => ?_,
    Option.isNone_iff_eq_none.mp hnone⟩
  have hmem := List.mem_map_of_mem (f := fun st => st.label) hst
  rw [hcalls, List.reverse_singleton, List.mem_singleton] at hmem
  simp only [hmem, closing, Sample.call]
  exact List.not_mem_nil

theorem card_worth_kept_issue : ∃ hist s x later s' y, Run Sample.platform Sample.start hist s ∧
    s.cardFace? (Sample.card 9) = some x ∧ x.stamps = 1 ∧ Run Sample.platform s later s' ∧
    s'.cardFace? (Sample.card 9) = some y ∧ y.stampsRequiredSnapshot ≤ y.stamps := by
  obtain ⟨hist, s, hrun, -, hp⟩ := Leads.run (P := Sample.platform) (s := Sample.start)
    (l := [Sample.register 1000 1 0, Sample.issue 1010 7, Sample.claim 1020 9 7])
    (p := fun s => (s.cardFace? (Sample.card 9)).any (fun x : CardV1 =>
        decide (x.stampsRequiredSnapshot ≤ x.stamps ∧ x.stamps = 1 ∧ x.customer = Sample.key 9)) &&
      Leads Sample.platform s [Sample.issue 1030 8] fun _ => true)
    (by decide +kernel)
  simp only [Bool.and_eq_true, Option.any_eq_true, decide_eq_true_eq] at hp
  obtain ⟨⟨x, hx, hle, hone, hcust⟩, hissue⟩ := hp
  obtain ⟨later, s', hlater, hcalls, -⟩ := Leads.run hissue
  have hsig : ∀ st ∈ later, x.customer ∉ st.label.tx.signers := by
    intro st hst
    have hmem := List.mem_map_of_mem (f := fun st => st.label) hst
    rw [hcalls, List.reverse_singleton, List.mem_singleton] at hmem
    rw [hmem, hcust]
    decide
  obtain ⟨y, hy, -, hok, -⟩ := (card_worth_kept hrun Sample.start_empty.wellPlaced hx).2 hle
    (hone ▸ UInt8.le_refl 1) later s'
    hlater hsig
  exact ⟨hist, s, x, later, s', y, hrun, hx, hone, hlater, hy, hok⟩

end Passdari
