/-
What migrating a shop makes of it. The old fields come out as they went in,
whatever length its strings have; the counts it is given overstate what is
outstanding, and no step ever brings them below that, so that a shop with
cards or vouchers outstanding is never closed.
-/
import Passdari.Books.Counters
import Passdari.Books.OldShops

namespace Passdari

open Wire Token2022

variable {P : Platform} {tx : Tx} {s s' start : State} {hist : History} {c : Call} {cs : List Change}
  {calls : List TokenCall} {ps : List Payment} {action : Action} {b : Address}

/-! ## Cards of any layout -/

/-- One for a card of the shop `b`, of whatever layout. -/
def Face.cardOf (b : Address) : Face → Nat
  | .card c => if c.business = b then 1 else 0
  | _ => 0

/-- How many cards name the shop `b`, of whatever layout. -/
def State.cardsOf (s : State) (b : Address) : Nat :=
  Store.total (fun _ data => (Face.parse data).elim 0 (Face.cardOf b)) s.program

theorem cardOf_eq (b a : Address) (r : Record) : cardOf b a r = r.face.cardOf b := by cases r <;> rfl

/-- What is at the changed addresses before the step. -/
def facesBefore (b : Address) (s : State) (cs : List Change) : Nat :=
  (cs.map fun x => (s.face? x.addr).elim 0 (Face.cardOf b)).sum

theorem weight_face (b : Address) (s : State) (a : Address) :
    Store.weight (fun _ data => (Face.parse data).elim 0 (Face.cardOf b)) s.program a =
      (s.face? a).elim 0 (Face.cardOf b) := by
  rw [Store.weight, State.face?]
  cases s.program.lookup a <;> rfl

/-- What a step does to the number of a shop's cards. -/
theorem Changed.cardsOf (h : Changed cs s s') (b : Address) :
    s'.cardsOf b + facesBefore b s cs = s.cardsOf b + incoming (cardOf b) cs := by
  let w : Address → List Byte → Nat := fun _ data => (Face.parse data).elim 0 (Face.cardOf b)
  have hp := Store.total_patch w h.nodup h.frame
  have hbefore : cs.map (Store.weight w s.program ∘ Change.addr) =
      cs.map fun x => (s.face? x.addr).elim 0 (Face.cardOf b) :=
    List.map_congr_left fun x _ => weight_face b s x.addr
  have hafter : cs.map (Store.weight w s'.program ∘ Change.addr) =
      cs.map fun x => Change.weigh (cardOf b) x.addr x.after := by
    refine List.map_congr_left fun x hx => ?_
    rw [Function.comp, weight_face]
    cases hr : x.after with
    | none =>
      rw [State.face?, h.closed x hx hr]
      rfl
    | some r =>
      obtain ⟨rest, hdata, -⟩ := h.written x hx r hr
      rw [State.face?, hdata, Option.bind_some, Face.parse_bytes_append, Change.weigh_some, cardOf_eq]
      rfl
  rw [List.map_map, List.map_map, hbefore, hafter] at hp
  exact hp

/-- The records among them are there as well. -/
theorem outgoing_le_facesBefore (h : ∀ x ∈ cs, s.record? x.addr = x.before) :
    outgoing (cardOf b) cs ≤ facesBefore b s cs := by
  refine List.sum_le_sum fun x hx => ?_
  cases hr : x.before with
  | none => exact Nat.zero_le _
  | some r =>
    rw [State.face?_of_record? ((h x hx).trans hr), Change.weigh_some, cardOf_eq]
    exact Nat.le_refl _

theorem one_le_cardsOf {a : Address} {x : CardV1} (h : s.face? a = some (.card x)) :
    1 ≤ s.cardsOf x.business := by
  have := Store.weight_le_total (fun _ data => (Face.parse data).elim 0 (Face.cardOf x.business)) s.program a
  rwa [weight_face, h, Option.elim_some, Face.cardOf, if_pos rfl] at this

/-! ## The counts of a shop stay above -/

/-- What a step takes off a shop's count of open cards it takes off its cards, but for shops it migrates. -/
theorem Effect.openCards_covered (hw : s.WellPlaced) (hbefore : ∀ x ∈ cs, s.record? x.addr = x.before)
    (h : Effect P tx s action cs calls ps) (hm : ¬action.migratesShop b) :
    incoming (cardOf b) cs + outgoing (figureOf (fun x => x.openCards.toNat) b) cs ≤
      facesBefore b s cs + incoming (figureOf (fun x => x.openCards.toNat) b) cs := by
  by_cases hcard : ∃ accs, action = .program (.migrateCard accs)
  · obtain ⟨accs, rfl⟩ := hcard
    cases h with
    | @migrateCard _ old c c' _ _ _ n _ _ _ _ _ hface _ _ _ _ _ hfields =>
      have hbus : c'.business = c.business := congrArg CardV1.business hfields
      cases n <;> simp [cardOf, figureOf, facesBefore, hface, Face.cardOf, hbus]
  · refine Nat.le_trans ?_ (Nat.add_le_add_right (outgoing_le_facesBefore hbefore) _)
    cases h with
    | registerBusiness _ _ _ _ hok =>
      obtain ⟨-, -, -, rfl⟩ := registerBusinessHandler_eq_ok.mp hok
      simp [cardOf, figureOf]
    | updateBusinessConfig _ _ _ _ hok =>
      obtain ⟨-, -, -, rfl⟩ := updateBusinessConfigHandler_eq_ok.mp hok
      simp [cardOf, figureOf]
    | closeBusiness _ _ _ _ hok =>
      obtain ⟨-, h0, -⟩ := closeBusinessHandler_eq_ok.mp hok
      simp [cardOf, figureOf, h0]
    | issueReceipt _ _ _ _ _ _ _ hok =>
      obtain ⟨-, _, _, _, -, -, -, -, rfl, rfl⟩ := issueReceiptHandler_eq_ok hok
      simp [cardOf, figureOf]
    | @claimReceipt accs secret b₀ b' r bump c' c hb hr _ _ _ hf hc _ hown _ hok =>
      obtain ⟨-, -, hstamp, tc, oc, ts, hoc, -, rfl⟩ :=
        claimReceiptHandler_spec (hw.business_ne_default hb) hown hok
      obtain ⟨-, _, _, _, _, -, -, -, -, -, rfl⟩ := stampCard_eq_ok hstamp
      cases c with
      | none =>
        simp [cardOf, figureOf, claimedCard] at hoc ⊢
        split <;> omega
      | some x =>
        have hx := (hown x rfl).1
        simp [cardOf, figureOf, claimedCard, hx] at hoc ⊢
        split <;> omega
    | transferStamps _ _ _ _ _ _ _ _ _ hok =>
      obtain ⟨-, _, _, _, _, -, -, -, -, rfl, rfl⟩ := transferStampsHandler_eq_ok hok
      simp [cardOf, figureOf]
    | @closeDeadCard accs b₀ c _ _ hc hb _ _ _ hbus =>
      -- the count goes down by one at most, also where it saturates
      have hsat := toNat_satSubU32 b₀.openCards 1
      simp only [UInt32.toNat_one] at hsat
      simp [cardOf, figureOf, hbus, hsat]
      split <;> omega
    | retireIdleCardNft => simp [cardOf, figureOf]
    | mintVoucher _ _ _ _ _ _ _ _ _ _ _ _ _ _ _ hok =>
      obtain ⟨-, -, hcash, _, _, _, -, -, -, rfl, rfl⟩ := mintVoucherHandler_eq_ok hok
      obtain ⟨_, -, rfl⟩ := cashIn_eq_ok hcash
      simp [cardOf, figureOf]
    | migrateCard => exact absurd ⟨_, rfl⟩ hcard
    | @migrateBusiness accs _ _ _ _ _ hf =>
      have hne : accs.business ≠ b := fun he => hm ⟨accs, rfl, he⟩
      cases hr : s.record? accs.business with
      | none => simp [cardOf, figureOf, hne]
      | some r => cases r <;> simp [cardOf, figureOf, hne]
    | _ => simp [cardOf, figureOf]

/-- The same of its vouchers. -/
theorem Effect.openVouchers_covered (hw : s.WellPlaced) (h : Effect P tx s action cs calls ps)
    (hm : ¬action.migratesShop b) :
    incoming (voucherOf b) cs + outgoing (figureOf (fun x => x.openVouchers.toNat) b) cs ≤
      outgoing (voucherOf b) cs + incoming (figureOf (fun x => x.openVouchers.toNat) b) cs := by
  cases h with
  | registerBusiness _ _ _ _ hok =>
    obtain ⟨-, -, -, rfl⟩ := registerBusinessHandler_eq_ok.mp hok
    simp [voucherOf, figureOf]
  | updateBusinessConfig _ _ _ _ hok =>
    obtain ⟨-, -, -, rfl⟩ := updateBusinessConfigHandler_eq_ok.mp hok
    simp [voucherOf, figureOf]
  | closeBusiness _ _ _ _ hok =>
    obtain ⟨-, -, h0⟩ := closeBusinessHandler_eq_ok.mp hok
    simp [voucherOf, figureOf, h0]
  | issueReceipt _ _ _ _ _ _ _ hok =>
    obtain ⟨-, _, _, _, -, -, -, -, rfl, rfl⟩ := issueReceiptHandler_eq_ok hok
    simp [voucherOf, figureOf]
  | @claimReceipt accs secret b₀ b' r bump c' c hb hr _ _ _ _ _ _ hown _ hok =>
    obtain ⟨-, -, -, _, _, _, -, -, rfl⟩ := claimReceiptHandler_spec (hw.business_ne_default hb) hown hok
    cases c <;> simp [voucherOf, figureOf]
  | mintVoucher _ _ _ _ _ _ _ _ _ _ _ _ _ _ _ hok =>
    obtain ⟨-, -, -, _, _, _, -, -, hov, rfl, rfl⟩ := mintVoucherHandler_eq_ok hok
    simp [voucherOf, figureOf]
    split <;> omega
  | @redeemVoucher _ b₀ _ _ _ _ _ _ hb _ _ hv _ _ _ _ hvb =>
    have hsat := toNat_satSubU32 b₀.openVouchers 1
    simp only [UInt32.toNat_one] at hsat
    simp [voucherOf, figureOf, hvb, hsat]
    split <;> omega
  | @closeExpiredVoucher _ b₀ _ _ _ _ _ hv hb _ _ _ _ hvb =>
    have hsat := toNat_satSubU32 b₀.openVouchers 1
    simp only [UInt32.toNat_one] at hsat
    simp [voucherOf, figureOf, hvb, hsat]
    split <;> omega
  | @migrateBusiness accs _ _ _ _ _ hf =>
    have hne : accs.business ≠ b := fun he => hm ⟨accs, rfl, he⟩
    cases hr : s.record? accs.business with
    | none => simp [voucherOf, figureOf, hne]
    | some r =>
      -- what a migration finds is a shop
      have hshop := State.face?_of_record? hr
      rw [hf, Option.some.injEq] at hshop
      cases r <;> simp only [Record.face, reduceCtorEq] at hshop
      simp [voucherOf, figureOf, hne]
  | @migrateCard _ _ _ _ _ _ _ n => cases n <;> simp [voucherOf, figureOf]
  | _ => simp [voucherOf, figureOf]

/-- The shop at `b` has the room of a current one, and counts no fewer cards and vouchers than there are. -/
structure CountsCover (s : State) (b : Address) : Prop where
  room : ∀ data, s.program.lookup b = some data → Business.space ≤ data.length
  cards : s.cardsOf b ≤ s.figure (fun x => x.openCards.toNat) b
  vouchers : s.liveVouchers b ≤ s.figure (fun x => x.openVouchers.toNat) b

/-- A sum stays below another where a step takes no more off the greater than off the lesser. -/
theorem Step.countsCover (hw : s.WellPlaced) (h : Step P s c s' cs calls ps) {authority : Address}
    {bump : UInt8}
    (hs : CountsCover s (.business authority bump)) : CountsCover s' (.business authority bump) := by
  have hm : ¬c.action.migratesShop (.business authority bump) := by
    intro hm
    obtain ⟨tx, action⟩ := c
    obtain ⟨accs, rfl, hat⟩ := hm
    obtain ⟨he, -⟩ := h
    cases he with
    | migrateBusiness _ hold hlen => exact absurd (hs.room _ (hat ▸ hold)) (Nat.not_le.mpr hlen)
  refine ⟨h.shop_room hw rfl hs.room, ?_, ?_⟩
  · have hcards := h.changed.cardsOf (.business authority bump)
    have hfigure := h.changed.total (figureOf (fun x => x.openCards.toNat) (.business authority bump))
    have hstep := h.effect.openCards_covered hw h.changed.before hm
    have hle := hs.cards
    rw [← total_figureOf] at hle ⊢
    omega
  · have hvouchers := h.changed.total (voucherOf (.business authority bump))
    have hfigure := h.changed.total (figureOf (fun x => x.openVouchers.toNat) (.business authority bump))
    have hstep := h.effect.openVouchers_covered hw hm
    have hle := hs.vouchers
    rw [← total_figureOf, State.liveVouchers] at hle ⊢
    omega

theorem Run.countsCover {authority : Address} {bump : UInt8} (h : Run P start hist s) (hw : start.WellPlaced)
    (hs : CountsCover start (.business authority bump)) : CountsCover s (.business authority bump) := by
  refine (h.induct (I := fun _ s => CountsCover s (.business authority bump)) hw hs ?_).2
  intro hist s c s' cs calls ps _ hws hi hst
  exact hst.countsCover hws hi

/-- A card or a voucher of the shop is outstanding. -/
def State.Owes (s : State) (b : Address) : Prop :=
  (∃ a x, s.face? a = some (.card x) ∧ x.business = b) ∨ ∃ a v, s.voucher? a = some v ∧ v.business = b

theorem closeBusiness_owing {accs : CloseBusiness} (hs : CountsCover s accs.business)
    (ho : s.Owes accs.business) :
    ∃ e, closeBusiness P tx accs s = .error e := by
  cases h : closeBusiness P tx accs s with
  | error e => exact ⟨e, rfl⟩
  | ok s' =>
    exfalso
    simp only [closeBusiness, Except.bind_eq_ok, load_eq_ok, closeBusinessHandler_eq_ok] at h
    obtain ⟨x, hx, -, -, -, -, -, -, -, ⟨-, hcards, hvouchers⟩, -⟩ := h
    have hshop : s.business? accs.business = some x := State.business?_eq_some.mpr hx
    have hle := hs.cards
    have hle' := hs.vouchers
    rw [State.figure_of_some hshop] at hle hle'
    rcases ho with ⟨a, y, hy, hb⟩ | ⟨a, v, hv, hb⟩
    · have := one_le_cardsOf hy
      rw [hb] at this
      simp only [hcards, UInt32.toNat_zero] at hle
      omega
    · have := one_le_liveVouchers (State.voucher?_eq_some.mp hv)
      rw [hb] at this
      simp only [hvouchers, UInt32.toNat_zero] at hle'
      omega

/-! ## The migration -/

/-- The bytes of an account of the old room are a shop's: the discriminator, the fields in the old order, and
anything behind them. -/
structure ReadsOldShop (data : List Byte) (v : BusinessV1) : Prop where
  room : data.length = Business.spaceV1
  discriminator : data.take 8 = Business.discriminator
  fields : readAt BusinessV1.layout data 8 = some v

/-- What is known of the current shop an old one becomes. -/
structure UpgradedShop (now : Int64) (relayer : Address) (v : BusinessV1) (x : Business) : Prop where
  kept : x.toBusinessV1 = v
  termsLockedUntil : x.termsLockedUntil = now
  openCards : x.openCards = v.totalCards
  openVouchers : x.openVouchers.toNat = min (v.totalVouchersIssued.toNat - v.totalRedemptions.toNat)
    (2 ^ 32 - 1)
  rentPayer : x.rentPayer = relayer

theorem upgradeBusiness_upgraded (now : Int64) (relayer : Address) (v : BusinessV1) :
    UpgradedShop now relayer v (upgradeBusiness now relayer v) := by
  refine ⟨rfl, rfl, rfl, ?_, rfl⟩
  have hredemptions : v.totalRedemptions.toNat < 2 ^ 32 := v.totalRedemptions.toNat_lt
  have hwide : (UInt64.ofNat v.totalRedemptions.toNat).toNat = v.totalRedemptions.toNat :=
    UInt64.toNat_ofNat_of_lt' (lt_trans hredemptions (by decide))
  have hsub : (satSubU64 v.totalVouchersIssued (UInt64.ofNat v.totalRedemptions.toNat)).toNat =
      v.totalVouchersIssued.toNat - v.totalRedemptions.toNat := by
    rw [toNat_satSubU64, hwide]
  simp only [upgradeBusiness, hsub]
  exact UInt32.toNat_ofNat_of_lt' (Nat.lt_of_le_of_lt (Nat.min_le_right _ _) (by decide))

/-- What an old shop becomes has room in a grown account: its strings take as much as before, and the new
fields as much as the account grows by. -/
theorem ReadsOldShop.fits {data : List Byte} {v : BusinessV1} (h : ReadsOldShop data v) (now : Int64)
    (relayer : Address) :
    (Business.discriminator ++ Business.layout.enc (upgradeBusiness now relayer v)).length ≤
      (resize data Business.space).length := by
  obtain ⟨⟨x, rest⟩, hdec, rfl⟩ := Option.map_eq_some_iff.mp h.fields
  have hlen := Codec.length_dec _ hdec
  have hroom := h.room
  have hnew := Business.layout_length (upgradeBusiness now relayer x)
  have hold := BusinessV1.layout_length x
  simp only [upgradeBusiness] at hnew ⊢
  simp only [List.length_append, List.length_drop, resize, List.length_replicate, hroom, hnew, hold,
    Business.discriminator, List.length_map, List.length_cons, List.length_nil, Business.spaceV1,
    Business.space] at hlen ⊢
  omega

/-- A shop at its own address is migrated for everybody who can pay for it. -/
theorem migrateBusiness_ok {accs : MigrateBusiness} {data : List Byte} {v : BusinessV1}
    (hdata : s.program.lookup accs.business = some data) (hreads : ReadsOldShop data v)
    (hat : accs.business = .business v.authority v.bump) (hoff : P.offCurve accs.business = true)
    (hsig : accs.relayer ∈ tx.signers) (hfree : ¬s.InUse accs.relayer)
    (hfunds : P.minimumBalance Business.space ≤ s.lamports accs.business + s.lamports accs.relayer) :
    ∃ s', migrateBusiness P tx accs s = .ok s' := by
  have hroom := hreads.room
  have hlong : 8 ≤ data.length := by
    rw [hroom]
    decide
  have hshort : data.length < Business.space := by
    rw [hroom]
    decide
  have hcreate : createProgramAddress P (.business v.authority) v.bump = some accs.business :=
    createProgramAddress_eq_some.mpr ⟨hoff, hat⟩
  obtain ⟨s₁, hpaid⟩ : ∃ s₁, transferLamports tx s .deposit accs.relayer accs.business
      (P.minimumBalance Business.space - s.lamports accs.business) = .ok s₁ := by
    by_cases h0 : P.minimumBalance Business.space - s.lamports accs.business = 0
    · exact ⟨s, transferLamports_eq_ok.mpr (.inl ⟨h0, rfl⟩)⟩
    · exact ⟨_, transferLamports_eq_ok.mpr (.inr ⟨h0, hsig, hfree, by omega, rfl⟩)⟩
  simp only [migrateBusiness, Except.bind_eq_ok, signer_eq_ok, demand_eq_ok, require_eq_ok, Except.pure_eq_ok,
    exists_const]
  exact ⟨_, hsig, data, hdata, hlong, hreads.discriminator, hshort, v, hreads.fields, _, hcreate, rfl, s₁,
    hpaid, hreads.fits tx.now accs.relayer, rfl⟩

/-- Only a shop smaller than a current one is migrated. -/
theorem migrateBusiness_again {accs : MigrateBusiness}
    (hroom : ∀ data, s.program.lookup accs.business = some data → Business.space ≤ data.length) :
    ∃ e, migrateBusiness P tx accs s = .error e := by
  cases h : migrateBusiness P tx accs s with
  | error e => exact ⟨e, rfl⟩
  | ok s' =>
    exfalso
    simp only [migrateBusiness, Except.bind_eq_ok, demand_eq_ok, require_eq_ok] at h
    obtain ⟨-, -, data, hdata, -, -, -, -, -, hlt, -⟩ := h
    exact absurd (hroom data hdata) (Nat.not_le.mpr hlt)

/-- **Migrating a shop is faithful.** Any shop of the old layout at its own address is migrated for a signer
who can pay for the room: all its fields stay, and the counts it is given start at no less than what is
outstanding, so that nobody closes it, then or in any run from there, while a card or a voucher of it is. -/
theorem shop_upgrade_faithful {accs : MigrateBusiness} {data : List Byte} {v : BusinessV1}
    (hdata : s.program.lookup accs.business = some data) (hreads : ReadsOldShop data v)
    (hat : accs.business = .business v.authority v.bump) (hoff : P.offCurve accs.business = true)
    (hsig : accs.relayer ∈ tx.signers) (hfree : ¬s.InUse accs.relayer)
    (hfunds : P.minimumBalance Business.space ≤ s.lamports accs.business + s.lamports accs.relayer) :
    ∃ s', migrateBusiness P tx accs s = .ok s' ∧
      (∃ x, s'.business? accs.business = some x ∧ UpgradedShop tx.now accs.relayer v x) ∧
      (∀ a, a ≠ accs.business → s'.program.lookup a = s.program.lookup a) ∧
      (∀ tx₂ accs₂, accs₂.business = accs.business → ∃ e, migrateBusiness P tx₂ accs₂ s' = .error e) ∧
      (s.WellPlaced → (∀ a ∈ tx.signers, a.canSign = true) → s.cardsOf accs.business ≤ v.totalCards.toNat →
        s.liveVouchers accs.business ≤ v.totalVouchersIssued.toNat - v.totalRedemptions.toNat →
        s.liveVouchers accs.business < 2 ^ 32 →
        ∀ later s₂, Run P s' later s₂ → s₂.Owes accs.business →
          ∀ tx₂ accs₂, accs₂.business = accs.business → ∃ e, closeBusiness P tx₂ accs₂ s₂ = .error e) := by
  obtain ⟨s', hok⟩ := migrateBusiness_ok hdata hreads hat hoff hsig hfree hfunds
  have hface : s.face? accs.business = some (.business v) := by
    rw [State.face?, hdata, Option.bind_some, Face.parse_business hreads.discriminator hreads.fields]
  have hroom : ∀ d, s'.program.lookup accs.business = some d → Business.space ≤ d.length := by
    intro d hd
    obtain ⟨d', hd', hlen⟩ := migrateBusiness_length hok
    rw [hd, Option.some.injEq] at hd'
    rw [hd', hlen]
  obtain ⟨cs, calls, ps, he, hc, htokens, hpurse, hforeign, hfunded⟩ := migrateBusiness_refined hok
  have heffect := he
  cases he with
  | @migrateBusiness _ _ w _ _ _ hface' =>
    rw [hface, Option.some.injEq, Face.business.injEq] at hface'
    subst hface'
    have hshop : s'.business? accs.business = some (upgradeBusiness tx.now accs.relayer v) :=
      State.business?_eq_some.mpr (hc.record? List.mem_cons_self)
    have hup := upgradeBusiness_upgraded tx.now accs.relayer v
    refine ⟨s', hok, ⟨_, hshop, hup⟩, fun a ha => hc.frame a (by simpa using ha),
      fun tx₂ accs₂ hacc => migrateBusiness_again (hacc ▸ hroom), ?_⟩
    intro hw hsigners hcards hvouchers hfew later s₂ hrun howes tx₂ accs₂ hacc
    have hstep : Step P s ⟨tx, .program (.migrateBusiness accs)⟩ s' _ _ _ :=
      ⟨heffect, hc, htokens, hpurse, fun a ha => .inl (hforeign ▸ ha), hsigners, hfunded⟩
    have hcovered : CountsCover s' accs.business := by
      refine ⟨hroom, ?_, ?_⟩
      · have hsame := hc.cardsOf accs.business
        simp only [facesBefore, hface, incoming, List.map_cons, List.map_nil, List.sum_cons, List.sum_nil,
          Option.elim_some, Face.cardOf, Change.weigh_some, cardOf] at hsame
        rw [State.figure_of_some hshop, hup.openCards]
        omega
      · have hsame := hc.total (voucherOf accs.business)
        have hnone : outgoing (voucherOf accs.business) [⟨accs.business, s.record? accs.business,
            some (.business (upgradeBusiness tx.now accs.relayer v))⟩] = 0 := by
          cases hr : s.record? accs.business with
          | none => rfl
          | some r =>
            have hr' := State.face?_of_record? hr
            rw [hface, Option.some.injEq] at hr'
            cases r <;> simp only [Record.face, reduceCtorEq] at hr'
            rfl
        rw [hnone] at hsame
        simp only [incoming, List.map_cons, List.map_nil, List.sum_cons, List.sum_nil, Change.weigh_some,
          voucherOf] at hsame
        rw [State.figure_of_some hshop, hup.openVouchers]
        simp only [State.liveVouchers] at hvouchers hfew ⊢
        omega
    rw [hat] at hcovered
    have hlater := hrun.countsCover (hstep.wellPlaced hw) hcovered
    rw [← hat, ← hacc] at hlater
    exact closeBusiness_owing hlater (hacc ▸ howes)

namespace Sample

/-- A shop and a card of the old layouts, the shop in an account of the old size. -/
def servedStart : State :=
  { Sample.start with
    program := ((∅ : Store Address (List Byte)).insert (card 9) (oldCardData 1)).insert shop shortShopBytes }

theorem servedStart_lookup {a : Address} {data : List Byte} (h : servedStart.program.lookup a = some data) :
    a = shop ∧ data = shortShopBytes ∨ a = card 9 ∧ data = oldCardData 1 := by
  simp only [servedStart, Store.lookup_insert] at h
  split at h
  · next ha => exact .inl ⟨ha, (Option.some.inj h).symm⟩
  split at h
  · next ha => exact .inr ⟨ha, (Option.some.inj h).symm⟩
  · cases h

theorem servedStart_wellPlaced : servedStart.WellPlaced where
  faced h := by
    rcases servedStart_lookup h with ⟨rfl, rfl⟩ | ⟨rfl, rfl⟩
    · exact ⟨_, face_oldShopBytes _ _, rfl⟩
    · exact ⟨_, parse_oldCard _, rfl⟩
  legible {_ _ c} h hc hlen := by
    rcases servedStart_lookup h with ⟨rfl, rfl⟩ | ⟨rfl, rfl⟩
    · rw [shortShopBytes, face_oldShopBytes] at hc
      cases hc
    · exact (oldStart_wellPlaced 1 1).legible (show (oldStart 1 1).program.lookup (card 9) = _ from rfl) hc
        hlen

end Sample

/-- The shop of one card, migrated by `key 2`, is not closed while that card is there. -/
theorem shop_upgrade_faithful_served : ∃ s' e,
    migrateBusiness Sample.platform ⟨1000, [Sample.key 2]⟩ ⟨Sample.shop, Sample.key 2⟩ Sample.servedStart =
      .ok s' ∧
    closeBusiness Sample.platform ⟨5000, []⟩ ⟨Sample.shop, Sample.key 2⟩ s' = .error e := by
  have hreads : ReadsOldShop Sample.shortShopBytes (Sample.oldShop 1) :=
    ⟨by decide +kernel, by decide +kernel, by decide +kernel⟩
  have hcard : Sample.servedStart.face? (Sample.card 9) = some (.card (Sample.oldCard 1)) := by decide +kernel
  obtain ⟨s', hok, -, hframe, -, hlater⟩ := @shop_upgrade_faithful Sample.platform
    ⟨1000, [Sample.key 2]⟩ Sample.servedStart ⟨Sample.shop, Sample.key 2⟩ Sample.shortShopBytes _
      (by decide +kernel) hreads rfl rfl List.mem_cons_self (by decide +kernel)
    (by decide +kernel)
  have howes : s'.Owes Sample.shop := by
    refine .inl ⟨Sample.card 9, Sample.oldCard 1, ?_, rfl⟩
    rw [← hcard]
    exact State.face?_of_lookup (hframe _ (by decide))
  obtain ⟨e, he⟩ := hlater Sample.servedStart_wellPlaced (by decide) (by decide +kernel) (by decide +kernel)
    (by decide +kernel) [] s' .nil howes ⟨5000, []⟩ ⟨Sample.shop, Sample.key 2⟩ rfl
  exact ⟨s', e, hok, he⟩

end Passdari
