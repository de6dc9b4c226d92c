/-
The rules a shop's settings obey, and whether they hold of every shop and
card there is. Registering and editing a shop check them; migration copies
what it finds, so they hold after it exactly when they held before it.
-/
import Passdari.Books.Cards

namespace Passdari

open Wire Token2022

variable {P : Platform} {tx : Tx} {s s' start : State} {hist : History} {c : Call} {cs : List Change}
  {calls : List TokenCall} {ps : List Payment} {action : Action} {a : Address}

/-- Some stamps are asked for, and name and category are within their limits. -/
structure RuledShop (b : BusinessV1) : Prop where
  stamps : 1 ≤ b.stampsRequired
  name_nonblank : trim b.name ≠ []
  name_len : b.name.len ≤ maxNameLen
  category_len : b.category.len ≤ maxCategoryLen

/-- The card takes some stamps for a reward. -/
def RuledCard (c : CardV1) : Prop := 1 ≤ c.stampsRequiredSnapshot

/-- What can be read of the shop at `a` and of its cards obeys the rules. -/
structure State.RuledAt (s : State) (a : Address) : Prop where
  shop : ∀ b, s.business? a = some b → RuledShop b.toBusinessV1
  cards : ∀ A c, s.card? A = some c → c.business = a → RuledCard c.toCardV1

/-- All shops and cards of the current layout obey the rules. -/
structure State.Ruled (s : State) : Prop where
  shops : ∀ a b, s.business? a = some b → RuledShop b.toBusinessV1
  cards : ∀ a c, s.card? a = some c → RuledCard c.toCardV1

theorem State.Empty.ruled (h : s.Empty) : s.Ruled where
  shops a b hb := by rw [State.business?, State.record?, h.program] at hb; cases hb
  cards a c hc := by rw [State.card?, State.record?, h.program] at hc; cases hc

/-! ## One step -/

/-- The account the step migrates, if it migrates one, obeys the rules before it is migrated. -/
def MigratesRuled (st : Taken) : Prop :=
  match st.label.action with
  | .program (.migrateBusiness accs) => ∃ b, st.pre.face? accs.business = some (.business b) ∧ RuledShop b
  | .program (.migrateCard accs) => ∃ c, st.pre.face? accs.card = some (.card c) ∧ RuledCard c
  | _ => True

/-- The account the step migrates, if it migrates one, is the shop at `a` or a card of it. -/
def MigratesAt (a : Address) (st : Taken) : Prop :=
  match st.label.action with
  | .program (.migrateBusiness accs) => accs.business = a
  | .program (.migrateCard accs) => ∃ c, st.pre.face? accs.card = some (.card c) ∧ c.business = a
  | _ => False

theorem ShopChange.ruled {b' : Business} {before : Option Business} {now : State}
    (h : ShopChange P tx s a action before (some b')) (hb : ∀ b, before = some b → RuledShop b.toBusinessV1)
    (hm : MigratesAt a ⟨s, ⟨tx, action⟩, now⟩ → MigratesRuled ⟨s, ⟨tx, action⟩, now⟩) :
    RuledShop b'.toBusinessV1 := by
  cases h with
  | registered _ _ _ hok =>
    obtain ⟨hset, -, -, rfl⟩ := registerBusinessHandler_eq_ok.mp hok
    exact ⟨hset.stamps_low, hset.name_nonblank, hset.name_len, hset.category_len⟩
  | edited _ _ _ hok =>
    obtain ⟨hset, -, -, rfl⟩ := updateBusinessConfigHandler_eq_ok.mp hok
    exact ⟨hset.stamps_low, hset.name_nonblank, hset.name_len, hset.category_len⟩
  | migrated hadr hf =>
    obtain ⟨b, hb, hr⟩ := hm hadr
    rw [hadr, hf, Option.some.injEq, Face.business.injEq] at hb
    exact hb ▸ hr
  | receiptIssued | stampClaimed | cardClosed | voucherMinted | voucherRedeemed | voucherExpired =>
    have := hb _ rfl
    exact ⟨this.stamps, this.name_nonblank, this.name_len, this.category_len⟩

theorem CardChange.ruled {A : Address} {c' : LoyaltyCard} {before : Option LoyaltyCard} {now : State}
    (h : CardChange P tx s A action before (some c'))
    (hshop : ∀ b, s.business? c'.business = some b → RuledShop b.toBusinessV1)
    (hb : ∀ c, before = some c → c.business = c'.business → RuledCard c.toCardV1)
    (hm : MigratesAt c'.business ⟨s, ⟨tx, action⟩, now⟩ → MigratesRuled ⟨s, ⟨tx, action⟩, now⟩) :
    RuledCard c'.toCardV1 := by
  cases h with
  | stamped _ hbus _ _ _ _ hown hstamp =>
    obtain ⟨-, _, _, _, _, -, -, -, -, -, rfl⟩ := stampCard_eq_ok hstamp
    cases before with
    | none => exact (hshop _ hbus).stamps
    | some x => exact hb x rfl rfl
  | sent _ _ _ _ hok | received _ _ _ hok =>
    obtain ⟨-, _, _, _, _, -, -, -, -, rfl, rfl⟩ := transferStampsHandler_eq_ok hok
    have := hb _ rfl rfl
    exact this
  | cashedIn _ _ hbus hown _ hcash =>
    obtain ⟨_, -, rfl⟩ := cashIn_eq_ok hcash
    exact (hshop _ (hown ▸ hbus)).stamps
  | nftRetired =>
    have := hb _ rfl rfl
    exact this
  | migrated hadr hf hcard =>
    subst hadr
    have hmig : ∃ x, s.face? _ = some (.card x) ∧ x.business = c'.business :=
      ⟨_, hf, congrArg CardV1.business hcard.symm⟩
    obtain ⟨x, hx, hr⟩ := hm hmig
    rw [hf, Option.some.injEq, Face.card.injEq] at hx
    rw [hcard, hx]
    exact hr

/-- The rules go on holding at a shop, unless something that does not obey them is migrated there. -/
theorem Step.ruledAt (hw : s.WellPlaced) (h : Step P s c s' cs calls ps) (hs : s.RuledAt a)
    (hm : MigratesAt a ⟨s, c, s'⟩ → MigratesRuled ⟨s, c, s'⟩) : s'.RuledAt a where
  shop b' hb' := by
    rcases h.shop hw a with hsame | hch
    · exact hs.shop b' (hsame ▸ hb')
    · exact ShopChange.ruled (hb' ▸ hch) hs.shop hm
  cards A c' hc' hbus := by
    subst hbus
    rcases h.card hw A with hsame | hch
    · exact hs.cards A c' (hsame ▸ hc') rfl
    · exact CardChange.ruled (hc' ▸ hch) hs.shop (hs.cards A) hm

theorem State.Ruled.at (h : s.Ruled) (a : Address) : s.RuledAt a where
  shop := h.shops a
  cards A c hc _ := h.cards A c hc

/-- So they go on holding everywhere. -/
theorem Step.ruled (hw : s.WellPlaced) (h : Step P s c s' cs calls ps) (hs : s.Ruled)
    (hm : MigratesRuled ⟨s, c, s'⟩) : s'.Ruled where
  shops a := (h.ruledAt hw (hs.at a) fun _ => hm).shop
  cards A c' hc' := (h.ruledAt hw (hs.at c'.business) fun _ => hm).cards A c' hc' rfl

/-- **From an empty start nobody is ever asked for no stamps.** -/
theorem Run.ruled (h : Run P start hist s) (hs : start.Empty) : s.Ruled := by
  refine h.induct_empty (I := fun _ s => s.Ruled) hs hs.ruled ?_
  intro hist s c s' cs calls ps _ hw hcur hi hst
  have hm := hst.effect.not_migration hcur
  refine hst.ruled hw hi ?_
  unfold MigratesRuled
  split
  · next accs ha => exact absurd ha (hm.2 accs)
  · next accs ha => exact absurd ha (hm.1 accs)
  · trivial

/-! ## All settings, and the room they take -/

/-- All of a shop's settings are within the limits of a registered one. -/
structure ValidShop (b : Business) : Prop where
  settings : SettingsOk b.name b.category b.rewardLabel b.stampsRequired b.receiptTtlSeconds
  currency : b.currency.len ≤ maxCurrencyLen

def ValidCard (c : LoyaltyCard) : Prop := 1 ≤ c.stampsRequiredSnapshot ∧
  c.stampsRequiredSnapshot ≤ maxStampsRequired

/-- A shop within its limits fits the room reserved for it. -/
theorem ValidShop.fits {b : Business} (h : ValidShop b) :
    (Business.discriminator ++ Business.layout.enc b).length ≤ Business.space := by
  have hname : b.name.len ≤ 32 := h.settings.name_len
  have hcategory : b.category.len ≤ 20 := h.settings.category_len
  have hlabel : b.rewardLabel.len ≤ 32 := h.settings.label_len
  have hcurrency : b.currency.len ≤ 3 := h.currency
  have hdisc : Business.discriminator.length = 8 := rfl
  rw [List.length_append, Business.layout_length, hdisc]
  show _ ≤ 241
  omega

theorem ShopChange.valid {b' : Business} {before : Option Business}
    (h : ShopChange P tx s a action before (some b'))
    (hb : ∀ b, before = some b → ValidShop b) (hm : ∀ accs, action ≠ .program (.migrateBusiness accs)) :
    ValidShop b' := by
  cases h with
  | registered _ _ _ hok =>
    obtain ⟨hset, -, hcurrency, rfl⟩ := registerBusinessHandler_eq_ok.mp hok
    exact ⟨hset, hcurrency⟩
  | edited _ _ _ hok =>
    obtain ⟨hset, -, -, rfl⟩ := updateBusinessConfigHandler_eq_ok.mp hok
    exact ⟨hset, (hb _ rfl).currency⟩
  | migrated => exact absurd rfl (hm _)
  | receiptIssued | stampClaimed | cardClosed | voucherMinted | voucherRedeemed | voucherExpired =>
    have := hb _ rfl
    exact ⟨this.settings, this.currency⟩

theorem CardChange.valid {c' : LoyaltyCard} {before : Option LoyaltyCard}
    (h : CardChange P tx s a action before (some c'))
    (hshop : ∀ a b, s.business? a = some b → ValidShop b) (hb : ∀ c, before = some c → ValidCard c)
    (hm : ∀ accs, action ≠ .program (.migrateCard accs)) : ValidCard c' := by
  cases h with
  | stamped _ hbus _ _ _ _ _ hstamp =>
    obtain ⟨-, _, _, _, _, -, -, -, -, -, rfl⟩ := stampCard_eq_ok hstamp
    cases before with
    | none => exact ⟨(hshop _ _ hbus).settings.stamps_low, (hshop _ _ hbus).settings.stamps_high⟩
    | some x => exact hb x rfl
  | sent _ _ _ _ hok | received _ _ _ hok =>
    obtain ⟨-, _, _, _, _, -, -, -, -, rfl, rfl⟩ := transferStampsHandler_eq_ok hok
    have := hb _ rfl
    exact this
  | cashedIn _ _ hbus _ _ hcash =>
    obtain ⟨_, -, rfl⟩ := cashIn_eq_ok hcash
    exact ⟨(hshop _ _ hbus).settings.stamps_low, (hshop _ _ hbus).settings.stamps_high⟩
  | nftRetired =>
    have := hb _ rfl
    exact this
  | migrated => exact absurd rfl (hm _)

/-- All shops and cards of a run from an empty start are valid. -/
theorem Run.valid (h : Run P start hist s) (hs : start.Empty) :
    (∀ a b, s.business? a = some b → ValidShop b) ∧ ∀ a c, s.card? a = some c → ValidCard c := by
  refine h.induct_empty
    (I := fun _ s => (∀ a b, s.business? a = some b → ValidShop b) ∧ ∀ a c, s.card? a = some c → ValidCard c)
      hs ?_ ?_
  · constructor
    · intro a b hb
      rw [State.business?, State.record?, hs.program] at hb
      cases hb
    · intro a c hc
      rw [State.card?, State.record?, hs.program] at hc
      cases hc
  · intro hist s c s' cs calls ps _ hw hcur hi hst
    obtain ⟨hshops, hcards⟩ := hi
    have hm := hst.effect.not_migration hcur
    constructor
    · intro a b' hb'
      rcases hst.shop hw a with hsame | hch
      · exact hshops a b' (hsame ▸ hb')
      · exact ShopChange.valid (hb' ▸ hch) (hshops a) hm.2
    · intro a c' hc'
      rcases hst.card hw a with hsame | hch
      · exact hcards a c' (hsame ▸ hc')
      · exact CardChange.valid (hc' ▸ hch) hshops (hcards a) hm.1

/-- A shop within its limits is written over whatever was in its account before, and reads back as it is. -/
theorem ValidShop.stored {b : Business} (h : ValidShop b) {data : List Byte}
    (hd : s.program.lookup a = some data)
    (hlen : data.length = Business.space) : ∃ s' data', store Business.account s a b = .ok s' ∧
      s'.program.lookup a = some data' ∧ data'.length = Business.space ∧
      load Business.account s' a = .ok b := by
  have hfits : (Record.business b).bytes.length ≤ data.length := hlen ▸ h.fits
  refine ⟨_, _, store_eq_ok.mpr ⟨data, hd, hfits, rfl⟩, Store.lookup_insert_self _ _ _, ?_, ?_⟩
  · show ((Record.business b).bytes ++ data.drop (Record.business b).bytes.length).length = _
    rw [List.length_append, List.length_drop, ← hlen]
    omega
  · rw [load_eq_ok, State.record?, Store.lookup_insert_self, Option.bind_some]
    exact Record.parse_bytes_append _ _

/-- One write after the other to the shop at `a`. -/
def storeAll (a : Address) : List Business → State → Except Failure State
  | [], s => .ok s
  | b :: bs, s => do storeAll a bs (← store Business.account s a b)

/-- **The last write is what is read**, however much of the longer ones before it is left behind it. -/
theorem storeAll_read : ∀ (bs : List Business) {b : Business} {s : State} {data : List Byte},
    s.program.lookup a = some data → data.length = Business.space → (∀ x ∈ bs, ValidShop x) → ValidShop b →
    ∃ s', storeAll a (bs ++ [b]) s = .ok s' ∧ load Business.account s' a = .ok b
  | [], b, s, data, hd, hlen, _, hb => by
    obtain ⟨s', -, hst, -, -, hload⟩ := hb.stored hd hlen
    refine ⟨s', ?_, hload⟩
    rw [List.nil_append, storeAll, hst]
    rfl
  | x :: bs, b, s, data, hd, hlen, hbs, hb => by
    obtain ⟨hx, hrest⟩ := List.forall_mem_cons.mp hbs
    obtain ⟨s₁, data₁, hst, hd₁, hlen₁, -⟩ := hx.stored hd hlen
    obtain ⟨s', hall, hload⟩ := storeAll_read bs hd₁ hlen₁ hrest hb
    refine ⟨s', ?_, hload⟩
    rw [List.cons_append, storeAll, hst]
    exact hall

/-- **Settings stay valid, fit, and read back.** Every shop and card of a run from an empty start is within
the limits, every shop fits its account, valid settings written there one after the other read back as the
last of them, and what is read after a call is what it wrote. -/
theorem settings_valid (h : Run P start hist s) (hs : start.Empty) :
    (∀ a b, s.business? a = some b → ValidShop b ∧
      (Business.discriminator ++ Business.layout.enc b).length ≤ Business.space ∧
      ∀ bs b', (∀ x ∈ bs, ValidShop x) → ValidShop b' →
        ∃ s', storeAll a (bs ++ [b']) s = .ok s' ∧ load Business.account s' a = .ok b') ∧
    (∀ a c, s.card? a = some c → ValidCard c) ∧
    ∀ st ∈ hist, ∀ a, st.post.business? a = st.pre.business? a ∨
      ShopChange P st.label.tx st.pre a st.label.action (st.pre.business? a) (st.post.business? a) := by
  obtain ⟨hshops, hcards⟩ := h.valid hs
  refine ⟨fun a b hb => ⟨hshops a b hb, (hshops a b hb).fits, fun bs b' hbs hb' => ?_⟩, hcards,
    fun st hst a => ?_⟩
  · obtain ⟨data, hd, hp⟩ := Option.bind_eq_some_iff.mp (State.business?_eq_some.mp hb)
    obtain ⟨r, hr, hlen⟩ := h.current hs a data hd
    rw [hp, Option.some.injEq] at hr
    subst hr
    exact storeAll_read bs hd hlen hbs hb'
  · obtain ⟨_, _, -, hbefore, hn, -⟩ := Runs.Run.of_mem h hst
    have hw := Run.wellPlaced hbefore hs.wellPlaced
    obtain ⟨_, _, _, hstep⟩ := hn.step hw
    exact hstep.shop hw a

/-- A shop whose label is shorter than it was. -/
theorem settings_valid_shortened : ∃ hist s b, Run Sample.platform Sample.start hist s ∧
    s.business? Sample.shop = some b ∧
    b.rewardLabel.val = "Tea" ∧ ValidShop b := by
  obtain ⟨hist, s, hrun, -, hp⟩ := Leads.run (P := Sample.platform) (s := Sample.start)
    (l := [Sample.register 1000 1 0, Sample.call 1010 [Sample.key 1]
      (.updateBusinessConfig ⟨Sample.shop, Sample.key 1⟩ ⟨⟨"Tea", by decide⟩, 5, 0, 600, 0⟩)])
    (p := fun s => (s.business? Sample.shop).any fun b : Business => b.rewardLabel.val == "Tea")
      (by decide +kernel)
  obtain ⟨b, hb, hlabel⟩ := (Option.any_eq_true _ _).mp hp
  exact ⟨hist, s, b, hrun, hb, eq_of_beq hlabel, ((settings_valid hrun Sample.start_empty).1 _ _ hb).1⟩

end Passdari
