/-
Shops of the old layout, before they are migrated. A reader of the current
layout wants forty-eight bytes more than the old one wrote; whether it finds
them in the account depends on how much room the shop's own strings have
left there.
-/
import Passdari.Books.Cards

namespace Passdari

open Wire Token2022

variable {P : Platform} {s s' start : State} {hist : History} {c : Call} {cs : List Change}
  {calls : List TokenCall} {ps : List Payment} {a : Address} {data : List Byte}

/-! ## What a reader of the current layout makes of them -/

/-- The room an old shop was given: eight bytes, and the most that its fields could take. -/
def Business.spaceV1 : Nat := 193

/-- The bytes a shop's own strings take. -/
def BusinessV1.stringBytes (b : BusinessV1) : Nat :=
  b.name.len + b.category.len + b.rewardLabel.len + b.currency.len

theorem byte_reads : byte.Reads Byte.lit 1 :=
  Codec.cell_reads.refine fun a l h => by
    obtain ⟨x, -, rfl⟩ := List.map_eq_singleton_iff.mp (show l.map Byte.lit = [a] from h.symm)
    rfl

theorem address_reads : address.Reads Byte.lit 32 := by
  have hcell : (Codec.cell : Codec Byte Byte).Reads Byte.lit 1 := Codec.cell_reads
  have h := hcell.rep 32
  refine h.refine fun a l henc => ?_
  have hbytes : a.1 = l.map .lit := by
    rw [← henc, Codec.rep_enc]
    exact (List.flatMap_singleton' a.1).symm
  obtain ⟨bs, hbs⟩ := a
  obtain rfl : bs = l.map .lit := hbytes
  simp only [Address.ofBytes]
  split
  · next heq => cases l <;> cases heq
  · split
    · rfl
    · next heq =>
      rw [Byte.lits_map_lit] at heq
      cases heq

/-- The fields a current shop has and an old one has not. -/
def newFields : Codec Byte (Int64 × UInt32 × Address × UInt32) := i64.seq (u32.seq (address.seq u32))

theorem newFields_sized : newFields.Sized 48 := i64_sized.seq (u32_sized.seq (address_sized.seq u32_sized))

theorem newFields_reads : newFields.Reads Byte.lit 48 :=
  (Codec.i64_reads byte_reads).seq
    ((Codec.u32_reads byte_reads).seq (address_reads.seq (Codec.u32_reads byte_reads)))

theorem Business.layout_dec_old (b : BusinessV1) (rest : List Byte) :
    Business.layout.dec (BusinessV1.layout.enc b ++ rest) = (newFields.dec rest).map fun p =>
      (⟨b, p.1.1, p.1.2.1, p.1.2.2.1, p.1.2.2.2⟩, p.2) := by
  simp only [Business.layout, Codec.iso, Codec.refine, Codec.seq, Codec.dec_enc_append, Option.bind_some,
    newFields]
  generalize (i64.dec rest).bind _ = fields
  cases fields <;> rfl

theorem oldShopBytes_length (b : BusinessV1) (rest : List UInt8) :
    (oldShopBytes b rest).length = 106 + b.stringBytes + rest.length := by
  have := b.layout_length
  simp only [oldShopBytes, List.length_append, List.length_map, Business.discriminator, List.length_cons,
    List.length_nil, BusinessV1.stringBytes]
  omega

/-- The current layout is read from an old shop exactly when forty-eight bytes are behind its fields. -/
theorem load_oldShopBytes {b : BusinessV1} {rest : List UInt8}
    (h : s.program.lookup a = some (oldShopBytes b rest)) :
    load Business.account s a =
      (demand (newFields.dec (rest.map .lit)) (.anchor .accountDidNotDeserialize)).bind
        fun p => .ok ⟨b, p.1.1, p.1.2.1, p.1.2.2.1, p.1.2.2.2⟩ := by
  have hdec := Business.layout_dec_old b (rest.map .lit)
  rw [← drop_oldShopBytes] at hdec
  rw [load, h]
  show (do
    check ((oldShopBytes b rest).take 8 = Business.discriminator) (.anchor .accountDiscriminatorMismatch)
    let fields ← demand (Business.layout.dec ((oldShopBytes b rest).drop 8))
      (.anchor .accountDidNotDeserialize)
    pure fields.1 : Except Failure Business) = _
  rw [check_pos (take_oldShopBytes b rest), hdec]
  cases newFields.dec (rest.map .lit) <;> rfl

theorem load_oldShopBytes_short {b : BusinessV1} {rest : List UInt8} (hrest : rest.length < 48)
    (h : s.program.lookup a = some (oldShopBytes b rest)) :
    load Business.account s a = .error (.anchor .accountDidNotDeserialize) := by
  rw [load_oldShopBytes h, newFields_sized.dec_short (by rwa [List.length_map])]
  rfl

theorem load_oldShopBytes_long {b : BusinessV1} {rest : List UInt8} (hrest : 48 ≤ rest.length)
    (h : s.program.lookup a = some (oldShopBytes b rest)) : ∃ x, load Business.account s a = .ok x := by
  obtain ⟨x, hx⟩ := newFields_reads rest hrest
  rw [load_oldShopBytes h, hx]
  exact ⟨_, rfl⟩

/-! ## What the program does with them -/

/-- The account the instruction takes as a shop. -/
def Instruction.shop : Instruction → Option Address
  | .registerBusiness accs _ => some accs.business
  | .updateBusinessConfig accs _ => some accs.business
  | .issueReceipt accs _ _ => some accs.business
  | .claimReceipt accs _ => some accs.business
  | .mintCardNft accs _ => some accs.business
  | .mintVoucher accs _ _ => some accs.business
  | .transferStamps accs _ => some accs.business
  | .redeemVoucher accs => some accs.business
  | .closeExpiredVoucher accs => some accs.business
  | .closeDeadCard accs => some accs.business
  | .closeBusiness accs => some accs.business
  | _ => none

def Action.shop : Action → Option Address
  | .program i => i.shop
  | .wallet _ => none

/-- The step migrates the shop at `a`. -/
def Action.migratesShop (a : Address) (action : Action) : Prop :=
  ∃ accs, action = .program (.migrateBusiness accs) ∧ accs.business = a

/-- Nothing but its migration reads an account with these bytes as a shop, or changes them; and what a
migration finds is these bytes, never what the program has written since. -/
structure Unusable (P : Platform) (data : List Byte) : Prop where
  unreadable : ∀ s a, s.program.lookup a = some data →
    load Business.account s a = .error (.anchor .accountDidNotDeserialize)
  untouched : ∀ s a c s', s.WellPlaced → s.program.lookup a = some data → Next P s c s' →
    ¬c.action.migratesShop a →
    c.action.shop ≠ some a ∧ s'.program.lookup a = some data
  unwritten : ∀ s a hist s', s.WellPlaced → s.program.lookup a = some data → Run P s hist s' →
    ∀ st ∈ hist, st.label.action.migratesShop a → st.pre.program.lookup a = some data

/-- An instruction that takes an account as a shop reads it as one, or opens it. -/
theorem Effect.shop_read {action : Action} {tx : Tx} (h : Effect P tx s action cs calls ps)
    (ha : action.shop = some a) :
    (∃ b, s.record? a = some (.business b)) ∨ ¬s.InUse a := by
  cases h with
  | registerBusiness _ _ _ hfree => cases ha; exact .inr hfree
  | issueReceipt hb | claimReceipt hb | mintCardNft hb | mintVoucher hb | transferStamps hb | redeemVoucher hb
  | closeBusiness hb => cases ha; exact .inl ⟨_, hb⟩
  | updateBusinessConfig _ hb | closeExpiredVoucher _ hb | closeDeadCard _ hb => cases ha; exact .inl ⟨_, hb⟩
  | _ => cases ha

/-- A shop of the old layout that does not read as a current one is left alone until it is migrated. -/
theorem Step.old_shop (h : Step P s c s' cs calls ps) {b : BusinessV1}
    (hface : s.face? a = some (.business b))
    (hnone : s.record? a = none) (hmig : ¬c.action.migratesShop a) :
    c.action.shop ≠ some a ∧ s'.program.lookup a = s.program.lookup a := by
  have hused : s.InUse a := by
    rw [State.inUse_iff]
    cases hd : s.program.lookup a with
    | none =>
      rw [State.face?, hd] at hface
      cases hface
    | some data => exact .inl rfl
  constructor
  · intro ha
    rcases h.effect.shop_read ha with ⟨x, hx⟩ | hfree
    · rw [hnone] at hx
      cases hx
    · exact hfree hused
  · by_cases ha : a ∈ cs.map Change.addr
    · obtain ⟨k, hk, rfl⟩ := List.mem_map.mp ha
      obtain hfree | ⟨y, hy, -⟩ | ⟨accs, _, hact, hat, -⟩ :=
        h.effect.before_none k hk ((h.changed.before k hk).symm.trans hnone)
      · exact absurd hused hfree
      · rw [hface] at hy
        cases hy
      · exact absurd ⟨accs, hact, hat⟩ hmig
    · exact h.changed.frame a ha

/-- Migration gives a shop the room of a current one. -/
theorem migrateBusiness_length {tx : Tx} {accs : MigrateBusiness} (h : migrateBusiness P tx accs s = .ok s') :
    ∃ data, s'.program.lookup accs.business = some data ∧ data.length = Business.space := by
  simp only [migrateBusiness, Except.bind_eq_ok, signer_eq_ok, demand_eq_ok, require_eq_ok, Except.pure_eq_ok,
    exists_const] at h
  obtain ⟨-, old, -, -, -, hlen, b, -, _, -, -, s₁, -, hfits, rfl⟩ := h
  have hroom : (resize old Business.space).length = Business.space := by
    rw [resize, List.length_append, List.length_replicate]
    omega
  refine ⟨_, Store.lookup_insert_self _ _ _, ?_⟩
  rw [hroom] at hfits
  rw [overwrite, List.take_zero, List.nil_append, Nat.zero_add, List.length_append, List.length_drop, hroom]
  exact Nat.add_sub_of_le hfits

/-- The room of a shop that was opened or migrated stays its own. -/
theorem Step.shop_room (hw : s.WellPlaced) (h : Step P s c s' cs calls ps) {authority : Address}
    {bump : UInt8}
    (ha : a = .business authority bump)
    (hbefore : ∀ d, s.program.lookup a = some d → Business.space ≤ d.length) :
    ∀ d, s'.program.lookup a = some d → Business.space ≤ d.length := by
  intro d hd
  rcases h.changed.lookup a with ⟨-, hsame⟩ | ⟨k, hk, -, ⟨-, hgone⟩ | ⟨r, rest, -, hdata, hlen⟩⟩
  · exact hbefore d (hsame.symm.trans hd)
  · rw [hgone] at hd
    cases hd
  · rw [hdata, Option.some.injEq] at hd
    subst hd
    rcases hlen with hlen | ⟨old, hold, hlen⟩
    · have hr := (h.wellPlaced hw).placed (f := r.face) (by
        rw [State.face?, hdata, Option.bind_some, Face.parse_bytes_append])
      rw [hlen]
      subst ha
      cases r with
      | business => exact Nat.le_refl _
      | receipt | cardNft =>
        obtain ⟨_, hr⟩ := hr
        cases hr
      | _ => cases hr
    · rw [hlen]
      exact hbefore old hold

theorem unusable_of_short {b : BusinessV1} {rest : List UInt8} (hrest : rest.length < 48) :
    Unusable P (oldShopBytes b rest) := by
  have hread : ∀ {s : State} {a}, s.program.lookup a = some (oldShopBytes b rest) →
      s.face? a = some (.business b) ∧ s.record? a = none := by
    intro s a ha
    refine ⟨by rw [State.face?, ha, Option.bind_some, face_oldShopBytes], ?_⟩
    cases hr : s.record? a with
    | none => rfl
    | some r =>
      have hf := State.face?_of_record? hr
      rw [State.face?, ha, Option.bind_some, face_oldShopBytes, Option.some.injEq] at hf
      cases r <;> simp only [Record.face, reduceCtorEq] at hf
      next x =>
      have hload : load Business.account s a = .ok x := load_eq_ok.mpr hr
      rw [load_oldShopBytes_short hrest ha] at hload
      cases hload
  have huntouched : ∀ {s : State} {a c s'}, s.WellPlaced → s.program.lookup a = some (oldShopBytes b rest) →
      Next P s c s' → ¬c.action.migratesShop a →
      c.action.shop ≠ some a ∧ s'.program.lookup a = some (oldShopBytes b rest) := by
    intro s a c s' hw ha hn hmig
    obtain ⟨_, _, _, h⟩ := hn.step hw
    obtain ⟨hface, hnone⟩ := hread ha
    obtain ⟨hshop, hsame⟩ := h.old_shop hface hnone hmig
    exact ⟨hshop, hsame.trans ha⟩
  refine ⟨fun s a ha => load_oldShopBytes_short hrest ha, fun s a c s' => huntouched, ?_⟩
  intro s a hist s' hw ha hrun
  have hat := hw.placed (hread ha).1
  -- at `a` there are these bytes, or those of a shop that was migrated or opened since
  suffices h : s'.WellPlaced ∧ (s'.program.lookup a = some (oldShopBytes b rest) ∨
      ∀ d, s'.program.lookup a = some d → Business.space ≤ d.length) ∧
      ∀ st ∈ hist, st.label.action.migratesShop a →
        st.pre.program.lookup a = some (oldShopBytes b rest) from h.2.2
  refine Runs.Run.induct (fun hist s' => s'.WellPlaced ∧ (s'.program.lookup a = some (oldShopBytes b rest) ∨
    ∀ d, s'.program.lookup a = some d → Business.space ≤ d.length) ∧ ∀ st ∈ hist,
    st.label.action.migratesShop a →
      st.pre.program.lookup a = some (oldShopBytes b rest)) ⟨hw, .inl ha, by simp⟩ ?_ hrun
  intro hist s₁ c s₂ _ hex
  obtain ⟨hw₁, hdata, hpast⟩ := hex
  intro hn
  obtain ⟨cs, calls, ps, h⟩ := hn.step hw₁
  refine ⟨h.wellPlaced hw₁, ?_, ?_⟩
  · by_cases hmig : c.action.migratesShop a
    · obtain ⟨tx, action⟩ := c
      obtain ⟨accs, rfl, rfl⟩ := hmig
      obtain ⟨d, hd, hlen⟩ := migrateBusiness_length (P := P) hn.2
      refine .inr fun d' hd' => ?_
      rw [hd, Option.some.injEq] at hd'
      rw [← hd', hlen]
    · exact hdata.imp (fun hold => (huntouched hw₁ hold hn hmig).2) (h.shop_room hw₁ hat)
  · simp only [List.forall_mem_cons]
    refine ⟨fun hmig => ?_, hpast⟩
    obtain ⟨tx, action⟩ := c
    obtain ⟨accs, rfl, rfl⟩ := hmig
    rcases hdata with hold | hroom
    · exact hold
    · obtain ⟨he, -⟩ := h
      cases he with
      | migrateBusiness _ hold hlen => exact absurd (hroom _ hold) (Nat.not_le.mpr hlen)

/-- **When an un-migrated shop is unusable.** A shop of the old layout cannot be read or rewritten before it
is migrated, and its migration overwrites nothing the program has written, exactly when its strings take more
than thirty-nine of the eighty-seven bytes there are for them. -/
theorem old_shop_unusable_iff (b : BusinessV1) (rest : List UInt8)
    (hlen : (oldShopBytes b rest).length = Business.spaceV1) :
    Unusable P (oldShopBytes b rest) ↔ 39 < b.stringBytes := by
  rw [oldShopBytes_length, Business.spaceV1] at hlen
  constructor
  · intro h
    by_contra hshort
    let s : State := { Sample.start with program :=
      (∅ : Store Address (List Byte)).insert .default (oldShopBytes b rest) }
    have hs : s.program.lookup .default = some (oldShopBytes b rest) := Store.lookup_insert_self _ _ _
    obtain ⟨x, hx⟩ := load_oldShopBytes_long (by omega) hs
    rw [h.unreadable s .default hs] at hx
    cases hx
  · intro h
    exact unusable_of_short (by omega)

namespace Sample

/-- A shop of the old layout with short strings, in an account of the old size. -/
def shortShopBytes : List Byte := oldShopBytes (oldShop 1) (List.replicate 65 0)

def shortShopStart : State :=
  { Sample.start with program := (∅ : Store Address (List Byte)).insert shop shortShopBytes }

theorem shortShopStart_wellPlaced : shortShopStart.WellPlaced where
  faced {a data} h := by
    simp only [shortShopStart, Store.lookup_insert] at h
    split at h
    · next ha =>
      cases h
      exact ⟨_, face_oldShopBytes _ _, ha⟩
    · cases h
  legible {a data c} h hc := by
    simp only [shortShopStart, Store.lookup_insert] at h
    split at h
    · cases h
      rw [shortShopBytes, face_oldShopBytes] at hc
      cases hc
    · cases h

/-- A shop whose strings take more. -/
def longShop : BusinessV1 :=
  { oldShop 1 with name := ⟨"The Corner Coffee House", by decide⟩, category :=
    ⟨"Coffee and cake", by decide⟩ }

end Sample

theorem old_shop_unusable_long : (oldShopBytes Sample.longShop (List.replicate 35 0)).length =
    Business.spaceV1 ∧
    Unusable Sample.platform (oldShopBytes Sample.longShop (List.replicate 35 0)) :=
  have hlen : (oldShopBytes Sample.longShop (List.replicate 35 0)).length = Business.spaceV1 := by
    rw [oldShopBytes_length, List.length_replicate]
    decide
  ⟨hlen, (old_shop_unusable_iff Sample.longShop _ hlen).mpr (by decide)⟩

/-- A shop with short strings is read before it is migrated: it commits itself until 2000, and its migration
at 1500 takes that back. -/
theorem old_shop_overwritten : Sample.shortShopBytes.length = Business.spaceV1 ∧
    ¬Unusable Sample.platform Sample.shortShopBytes ∧ Sample.shortShopStart.WellPlaced ∧
    ∃ hist s b later s' b', Run Sample.platform Sample.shortShopStart hist s ∧
    s.business? Sample.shop = some b ∧
      b.termsLockedUntil = 2000 ∧ Run Sample.platform s later s' ∧ s'.business? Sample.shop = some b' ∧
      b'.termsLockedUntil = 1500 := by
  have hlen : Sample.shortShopBytes.length = Business.spaceV1 := by
    rw [Sample.shortShopBytes, oldShopBytes_length, List.length_replicate]
    decide
  refine ⟨hlen, fun h => ?_, Sample.shortShopStart_wellPlaced, ?_⟩
  · have hs : Sample.shortShopStart.program.lookup Sample.shop = some Sample.shortShopBytes :=
      Store.lookup_insert_self _ _ _
    obtain ⟨x, hx⟩ := load_oldShopBytes_long (by rw [List.length_replicate]; decide) hs
    rw [h.unreadable _ _ hs] at hx
    cases hx
  · obtain ⟨hist, s, hrun, -, hp⟩ := Leads.run (P := Sample.platform) (s := Sample.shortShopStart)
      (l := [Sample.update 1000 1 2000])
      (p := fun s => (s.business? Sample.shop).any (fun b => b.termsLockedUntil == 2000) &&
        Leads Sample.platform s [Sample.migrateShop 1500] fun s' =>
          (s'.business? Sample.shop).any fun b => b.termsLockedUntil == 1500) (by decide +kernel)
    simp only [Bool.and_eq_true, Option.any_eq_true, beq_iff_eq] at hp
    obtain ⟨⟨b, hb, hlock⟩, hp⟩ := hp
    obtain ⟨s', hmig, hp⟩ := Leads.step hp
    simp only [Option.any_eq_true, beq_iff_eq] at hp
    obtain ⟨b', hb', hlock'⟩ := hp
    exact ⟨hist, s, b, [⟨s, _, s'⟩], s', b', hrun, hb, hlock, .step .nil hmig, hb', hlock'⟩

end Passdari
