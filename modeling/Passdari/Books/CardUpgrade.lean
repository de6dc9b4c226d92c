/-
What migrating a card makes of it. Every field of the old account comes out
as it went in, at the place the current layout has it; what is new is filled
in from the account itself, from the record of its NFT, or with the wallet
that runs the migration.
-/
import Passdari.Books.EarnedRewards

namespace Passdari

open Wire Token2022

variable {P : Platform} {tx : Tx} {s s' : State} {old : List Byte} {v : CardV1} {own : Option Address}

/-- The bytes say this in the old order of the fields: the shorter layout has no payer of its own, the longer
one has it behind the rest. -/
def ReadsOld (old : List Byte) (v : CardV1) (own : Option Address) : Prop :=
  old.take 8 = LoyaltyCard.discriminator ∧
    (old.length = cardLenV1 ∧ own = none ∧ CardV1.layout.dec (old.drop 8) = some (v, []) ∨
      old.length = cardLenV2 ∧ ∃ p, own = some p ∧
      (CardV1.layout.seq address).dec (old.drop 8) = some ((v, p), []))

/-- Where the record of the card's current NFT would be. -/
def recordOf (P : Platform) (card : Address) (cycle : UInt32) : Option Address := do
  let mint ← findProgramAddress P (.cardMint card cycle)
  let record ← findProgramAddress P (.cardNft mint.1)
  pure record.1

def State.cardNft? (s : State) (a : Address) : Option CardNft :=
  (s.record? a).bind fun
    | .cardNft n => some n
    | _ => none

theorem State.cardNft?_eq_some {a : Address} {n : CardNft} :
    s.cardNft? a = some n ↔ s.record? a = some (.cardNft n) := by
  rw [State.cardNft?, Option.bind_eq_some_iff]
  constructor
  · intro hex
    obtain ⟨r, hr, hn⟩ := hex
    cases r <;> cases hn
    exact hr
  · intro h
    exact ⟨_, h, rfl⟩

/-- The wallet the surviving record of the card's current NFT names. -/
def survivingPayer (P : Platform) (s : State) (card : Address) (cycle : UInt32) : Option Address := do
  let record ← recordOf P card cycle
  let n ← s.cardNft? record
  pure n.rentPayer

/-- The current card an old one becomes. -/
def upgradedCard (v : CardV1) (rentPayer : Address) : LoyaltyCard :=
  { v with
    rentPayer := rentPayer
    rewardsEarned := oldRewardsEarned v.lifetimeStamps v.stamps v.stampsRequiredSnapshot }

/-- What a migration did to everything there is. -/
structure Upgraded (P : Platform) (s s' : State) (accs : MigrateCard) (old : List Byte) (v : CardV1)
    (own : Option Address) : Prop where
  placed : accs.card = .card v.business v.customer v.bump
  card : s'.card? accs.card =
    some (upgradedCard v (own.getD ((survivingPayer P s accs.card v.nftCycle).getD accs.relayer)))
  grown : ∃ added, s'.program.lookup accs.card = some (old ++ added) ∧
    (old ++ added).length = LoyaltyCard.space
  record : recordOf P accs.card v.nftCycle = some accs.record
  closed : ∀ n, s.cardNft? accs.record = some n → s'.program.lookup accs.record = none ∧
    s'.purse = s.purse.settle
      [.topUp .deposit accs.relayer accs.card (P.minimumBalance LoyaltyCard.space),
        .empty .refund accs.record n.rentPayer]
  kept : s.cardNft? accs.record = none → s'.program.lookup accs.record = s.program.lookup accs.record ∧
    s'.purse = s.purse.settle [.topUp .deposit accs.relayer accs.card (P.minimumBalance LoyaltyCard.space)]
  frame : ∀ a, a ≠ accs.card → a ≠ accs.record → s'.program.lookup a = s.program.lookup a
  others : s'.tokens = s.tokens ∧ s'.foreign = s.foreign

/-! ## What is read -/

theorem ReadsOld.bytes (h : ReadsOld old v own) :
    old = LoyaltyCard.discriminator ++ (CardV1.layout.enc v ++ own.elim [] address.enc) := by
  obtain ⟨hdisc, hfields⟩ := h
  rcases hfields with ⟨-, rfl, hdec⟩ | ⟨-, p, rfl, hdec⟩
  · rw [Option.elim_none, CardV1.layout.enc_dec hdec, ← hdisc, List.take_append_drop]
  · have henc : CardV1.layout.enc v ++ address.enc p = old.drop 8 := by
      rw [← (CardV1.layout.seq address).enc_dec hdec, List.append_nil]
      rfl
    rw [Option.elim_some, henc, ← hdisc, List.take_append_drop]

theorem ReadsOld.face (h : ReadsOld old v own) : Face.parse old = some (.card v) := by
  rw [h.bytes]
  simp [Face.parse, Counter.discriminator, Business.discriminator, Receipt.discriminator,
    LoyaltyCard.discriminator]

/-- The payer the longer layout has. -/
theorem ReadsOld.own_eq (h : ReadsOld old v own) :
    own = none ∧ old.length < cardLenV2 ∨
      ∃ p, own = some p ∧ cardLenV2 ≤ old.length ∧ readAt address old cardLenV1 = some p := by
  have hbytes := h.bytes
  obtain ⟨-, hfields⟩ := h
  rcases hfields with ⟨hlen, hown, -⟩ | ⟨hlen, p, rfl, -⟩
  · refine .inl ⟨hown, ?_⟩
    rw [hlen]
    decide
  · refine .inr ⟨p, rfl, Nat.le_of_eq hlen.symm,
      readAt_append (p := LoyaltyCard.discriminator ++ CardV1.layout.enc v)
      (q := []) ?_ ?_⟩
    · rw [List.append_nil, List.append_assoc]
      exact hbytes
    · rw [List.length_append, CardV1.layout_sized]
      rfl

/-- The current card starts with the bytes of the old one. -/
theorem ReadsOld.front (h : ReadsOld old v own) (payer : Address) :
    ∃ added, (Record.card (upgradedCard v (own.getD payer))).bytes = old ++ added := by
  rw [h.bytes, Record.bytes, LoyaltyCard.layout_enc]
  cases own with
  | none => exact ⟨_, by simp [upgradedCard, List.append_assoc]; rfl⟩
  | some p => exact ⟨_, by simp [upgradedCard, List.append_assoc]; rfl⟩

/-- A card with this many rewards behind it is given them. -/
theorem oldRewardsEarned_eq {r : Nat} (hpos : 0 < v.stampsRequiredSnapshot)
    (h : v.lifetimeStamps.toNat = v.stamps.toNat + r * v.stampsRequiredSnapshot.toNat) :
    (oldRewardsEarned v.lifetimeStamps v.stamps v.stampsRequiredSnapshot).toNat = r := by
  have hstamps : v.stamps.toNat < 256 := v.stamps.toNat_lt
  have hsnapshot : v.stampsRequiredSnapshot.toNat < 256 := v.stampsRequiredSnapshot.toNat_lt
  have hzero : 0 < v.stampsRequiredSnapshot.toNat := UInt8.lt_iff_toNat_lt.mp hpos
  have hleft : (UInt32.ofNat v.stamps.toNat).toNat = v.stamps.toNat :=
    UInt32.toNat_ofNat_of_lt' (lt_trans hstamps (by decide))
  have hright : (UInt32.ofNat v.stampsRequiredSnapshot.toNat).toNat = v.stampsRequiredSnapshot.toNat :=
    UInt32.toNat_ofNat_of_lt' (lt_trans hsnapshot (by decide))
  rw [oldRewardsEarned, if_pos hpos, UInt32.toNat_div, toNat_satSubU32, hleft, hright, h,
    Nat.add_sub_cancel_left, Nat.mul_div_cancel _ hzero]

theorem recordOf_eq_some {card : Address} {cycle : UInt32} {a : Address} : recordOf P card cycle = some a ↔
    ∃ mint mintBump recordBump, findProgramAddress P (.cardMint card cycle) = some (mint, mintBump) ∧
      findProgramAddress P (.cardNft mint) = some (a, recordBump) := by
  simp only [recordOf, Option.bind_eq_bind, Option.bind_eq_some_iff, Option.pure_def, Option.some.injEq]
  constructor
  · intro hex
    obtain ⟨⟨mint, mintBump⟩, hmint, ⟨record, recordBump⟩, hrecord, rfl⟩ := hex
    exact ⟨mint, mintBump, recordBump, hmint, hrecord⟩
  · intro hex
    obtain ⟨mint, mintBump, recordBump, hmint, hrecord⟩ := hex
    exact ⟨(mint, mintBump), hmint, (a, recordBump), hrecord, rfl⟩

/-! ## What is written -/

/-- The wallet written to the new card is the old card's own where that has one. -/
theorem ReadsOld.rentPayer_eq (h : ReadsOld old v own) {payer rentPayer : Address}
    (hp : MigratedPayer old payer rentPayer) :
    rentPayer = own.getD payer := by
  rcases h.own_eq with ⟨rfl, hlt⟩ | ⟨p, rfl, hle, hread⟩
  · rwa [MigratedPayer, if_pos hlt] at hp
  · rw [MigratedPayer, if_neg (Nat.not_lt.mpr hle), hread, Option.some.injEq] at hp
    exact hp.symm

/-- An account without data is no record. -/
theorem State.cardNft?_of_empty {a : Address} (h : ∀ data, s.program.lookup a = some data → data = []) :
    s.cardNft? a = none := by
  cases hd : s.program.lookup a with
  | none => rw [State.cardNft?, State.record?, hd, Option.bind_none, Option.bind_none]
  | some data =>
    obtain rfl := h data hd
    rw [State.cardNft?, State.record?, hd]
    rfl

theorem survivingPayer_eq {card record : Address} {cycle : UInt32} {n : Option CardNft}
    (hat : recordOf P card cycle = some record) (hn : s.cardNft? record = n) :
    survivingPayer P s card cycle = n.map CardNft.rentPayer := by
  rw [survivingPayer, hat]
  simp only [Option.bind_eq_bind, Option.bind_some, hn]
  cases n <;> rfl

theorem migrateCard_upgraded {accs : MigrateCard} (hold : s.program.lookup accs.card = some old)
    (hreads : ReadsOld old v own)
    (h : migrateCard P tx accs s = .ok s') : Upgraded P s s' accs old v own := by
  have hlegible : cardLenV2 ≤ old.length → (readAt address old cardLenV1).isSome = true := by
    intro hlen
    rcases hreads.own_eq with ⟨-, hlt⟩ | ⟨p, -, -, hread⟩
    · exact absurd hlen (Nat.not_le.mpr hlt)
    · rw [hread]
      rfl
  obtain ⟨cs, calls, ps, he, hc, htokens, hpurse, hforeign, -⟩ :=
    migrateCard_refined_of hold hreads.face hlegible h
  cases he with
  | @migrateCard _ old' c c' mint mintBump recordBump n _ _ hold' hshort _ hface hcreate hmint hrecord hsome
    hnone hfields hpayer
      hrewards =>
    rw [hold, Option.some.injEq] at hold'
    subst hold'
    rw [State.face?, hold, Option.bind_some, hreads.face, Option.some.injEq, Face.card.injEq] at hface
    subst hface
    have hplaced := (createProgramAddress_eq_some.mp hcreate).2
    have hat : recordOf P accs.card v.nftCycle = some accs.record :=
      recordOf_eq_some.mpr ⟨mint, mintBump, recordBump, hmint, hrecord⟩
    have hrecords : s.cardNft? accs.record = n := by
      cases n with
      | some x => exact State.cardNft?_eq_some.mpr (hsome x rfl).1
      | none => exact State.cardNft?_of_empty (hnone rfl)
    have hcard : c' = upgradedCard v
      (own.getD ((survivingPayer P s accs.card v.nftCycle).getD accs.relayer)) := by
      have hrent : c'.rentPayer = own.getD ((survivingPayer P s accs.card v.nftCycle).getD accs.relayer) := by
        rw [hreads.rentPayer_eq hpayer, survivingPayer_eq hat hrecords]
        cases n <;> rfl
      cases c'
      simp only at hfields hrent hrewards
      rw [hfields, hrent, hrewards]
      rfl
    rw [hcard] at hc
    obtain ⟨rest, hdata, hlen⟩ := hc.written _ List.mem_cons_self _ rfl
    have hroom := Record.length_bytes (r := .card (upgradedCard v
      (own.getD ((survivingPayer P s accs.card v.nftCycle).getD accs.relayer)))) fun _ hb => (by cases hb)
    obtain ⟨added, hfront⟩ := hreads.front ((survivingPayer P s accs.card v.nftCycle).getD accs.relayer)
    have hadded : rest = [] := by
      rw [List.length_append, hroom] at hlen
      rcases hlen with hlen | ⟨old', hold', hlen⟩
      · exact List.eq_nil_of_length_eq_zero (by omega)
      · rw [hold, Option.some.injEq] at hold'
        subst hold'
        have : LoyaltyCard.space ≤ (Record.card (upgradedCard v
          (own.getD ((survivingPayer P s accs.card v.nftCycle).getD accs.relayer)))).space := Nat.le_refl _
        omega
    subst hadded
    rw [List.append_nil] at hdata
    have hne : accs.card ≠ accs.record := by
      rw [hplaced, findProgramAddress_eq hrecord]
      simp
    refine ⟨hplaced, ?_, ⟨added, hfront ▸ hdata, hfront ▸ hroom⟩, hat, ?_, ?_, ?_, ?_, hforeign⟩
    · rw [State.card?, hc.record? List.mem_cons_self]
      rfl
    · intro m hm
      rw [hrecords] at hm
      subst hm
      refine ⟨hc.closed ⟨accs.record, some (.cardNft m), none⟩ (by simp) rfl, ?_⟩
      rw [hpurse, (hsome m rfl).2]
      rfl
    · intro hm
      rw [hrecords] at hm
      subst hm
      exact ⟨hc.frame _ (by simpa using hne.symm), hpurse⟩
    · intro a ha hr
      refine hc.frame a ?_
      cases n <;> simp [ha, hr]
    · exact (Except.ok.inj htokens).symm

/-! ## And no second time -/

/-- What is at the address, if anything, is no shorter than a current card. -/
def State.Grown (s : State) (a : Address) : Prop :=
  ∀ data, s.program.lookup a = some data → LoyaltyCard.space ≤ data.length

theorem Step.grown {c : Call} {cs : List Change} {calls : List TokenCall} {ps : List Payment}
    {business customer : Address}
    {bump : UInt8} (hw : s.WellPlaced) (h : Step P s c s' cs calls ps)
    (hs : s.Grown (.card business customer bump)) :
    s'.Grown (.card business customer bump) := by
  intro data hd
  obtain ⟨-, ha⟩ | ⟨x, hx, haddr, ⟨-, ha⟩ | ⟨r, rest, hr, ha, hlen⟩⟩ :=
    h.changed.lookup (.card business customer bump)
  · exact hs data (ha.symm.trans hd)
  · rw [ha] at hd
    cases hd
  · rw [ha, Option.some.injEq] at hd
    subst hd
    rcases hlen with hlen | ⟨before, hbefore, hlen⟩
    · have hat : r.face.At (.card business customer bump) :=
        (h.wellPlaced hw).placed (by rw [State.face?, ha, Option.bind_some, Face.parse_bytes_append])
      rw [hlen]
      cases r with
      | card x => exact Nat.le_refl _
      | counter | business | voucher => cases hat
      | receipt | cardNft =>
        obtain ⟨_, hat⟩ := hat
        cases hat
    · rw [hlen]
      exact hs before hbefore

theorem Run.grown {hist : History} {business customer : Address} {bump : UInt8} (h : Run P s hist s')
    (hw : s.WellPlaced)
    (hs : s.Grown (.card business customer bump)) : s'.Grown (.card business customer bump) := by
  refine (h.induct (I := fun _ s => s.Grown (.card business customer bump)) hw hs ?_).2
  intro hist s c s' cs calls ps _ hws hi hst
  exact hst.grown hws hi

/-- Only what is shorter than a current card is migrated. -/
theorem migrateCard_grown {accs : MigrateCard} (hs : s.Grown accs.card) :
    ∃ e, migrateCard P tx accs s = .error e := by
  cases h : migrateCard P tx accs s with
  | error e => exact ⟨e, rfl⟩
  | ok s' =>
    exfalso
    simp only [migrateCard, Except.bind_eq_ok, demand_eq_ok] at h
    obtain ⟨-, -, -, -, old, hold, ⟨⟩, hcheck, -⟩ := h
    obtain ⟨-, hlt, -⟩ := checkOldCard_eq_ok hcheck
    exact absurd (hs old hold) (Nat.not_le.mpr hlt)

/-- A card of the current size is refused for being one. -/
theorem migrateCard_again {accs : MigrateCard} {data : List Byte}
    (hd : s.program.lookup accs.card = some data)
    (hdisc : data.take 8 = LoyaltyCard.discriminator) (hlen : data.length = LoyaltyCard.space)
    (hsig : accs.relayer ∈ tx.signers) (hpayer : ¬s.InUse accs.rentPayer) :
    migrateCard P tx accs s = .error (.code .cardAlreadyMigrated) := by
  have hcheck : checkOldCard P accs data = .error (.code .cardAlreadyMigrated) := by
    have hlong : cardLenV1 ≤ data.length := by
      rw [hlen]
      decide
    have hfull : ¬data.length < LoyaltyCard.space := by omega
    simp only [checkOldCard, require_pos hlong, require_pos hdisc, require_neg hfull, Except.ok_bind,
      Except.error_bind]
  have hsystem : systemAccount s accs.rentPayer = .ok () := check_pos hpayer
  have hsigner : signer tx accs.relayer = .ok () := check_pos hsig
  have hdata : demand (s.program.lookup accs.card) (Failure.code .notACard) = .ok data := demand_eq_ok.mpr hd
  rw [migrateCard, hsystem, Except.ok_bind, hsigner, Except.ok_bind, hdata, Except.ok_bind, hcheck,
    Except.error_bind]

/-- **Migrating a card is faithful.** The account reads as the current card with the old fields, the payer
that is known best and the rewards its stamps stand for; its old bytes stay where they are, and nothing but it
and a record that is closed to its own payer changes. It is done once: neither at once nor later does a second
call succeed, and what fails changes nothing. -/
theorem card_upgrade_faithful {accs : MigrateCard} (hold : s.program.lookup accs.card = some old)
    (hreads : ReadsOld old v own) (h : migrateCard P tx accs s = .ok s') :
    Upgraded P s s' accs old v own ∧
    (∀ y, s'.card? accs.card = some y →
      (∀ r : Nat, 0 < v.stampsRequiredSnapshot →
        v.lifetimeStamps.toNat = v.stamps.toNat + r * v.stampsRequiredSnapshot.toNat →
        y.rewardsEarned.toNat = r) ∧
      (v.stampsRequiredSnapshot = 0 → y.rewardsEarned = 0)) ∧
    (∀ tx₂ accs₂, accs₂.card = accs.card → (∃ e, migrateCard P tx₂ accs₂ s' = .error e) ∧
      (accs₂.relayer ∈ tx₂.signers → ¬s'.InUse accs₂.rentPayer →
        migrateCard P tx₂ accs₂ s' = .error (.code .cardAlreadyMigrated))) ∧
    (s.WellPlaced → (∀ a ∈ tx.signers, a.canSign = true) → ∀ later s₂, Run P s' later s₂ → ∀ tx₂ accs₂,
      accs₂.card = accs.card → ∃ e, migrateCard P tx₂ accs₂ s₂ = .error e) ∧
    ∀ (tx₂ : Tx) (accs₂ : MigrateCard) (s₂ : State) (e : Failure), migrateCard P tx₂ accs₂ s₂ = .error e →
      attempt P ⟨tx₂, .program (.migrateCard accs₂)⟩ s₂ = s₂ := by
  have hup := migrateCard_upgraded hold hreads h
  obtain ⟨added, hdata, hlen⟩ := hup.grown
  have hgrown : s'.Grown accs.card := by
    intro data hd
    rw [hdata, Option.some.injEq] at hd
    rw [← hd, hlen]
  have hdisc : (old ++ added).take 8 = LoyaltyCard.discriminator := by
    have hlong : 8 ≤ old.length := by
      rcases hreads.2 with ⟨h, -⟩ | ⟨h, -⟩ <;> rw [h] <;> decide
    rw [List.take_append_of_le_length hlong, hreads.1]
  refine ⟨hup, fun y hy => ?_, fun tx₂ accs₂ hacc => ⟨?_, fun hsig hpayer => ?_⟩, ?_, fun tx₂ accs₂ s₂ e he =>
    ?_⟩
  · rw [hup.card, Option.some.injEq] at hy
    subst hy
    refine ⟨fun r hpos hr => oldRewardsEarned_eq hpos hr, fun hzero => ?_⟩
    show oldRewardsEarned v.lifetimeStamps v.stamps v.stampsRequiredSnapshot = 0
    rw [hzero]
    rfl
  · exact migrateCard_grown (hacc ▸ hgrown)
  · exact migrateCard_again (hacc ▸ hdata) hdisc hlen hsig hpayer
  · intro hw hsig later s₂ hrun tx₂ accs₂ hacc
    have hn : Next P s ⟨tx, .program (.migrateCard accs)⟩ s' := ⟨hsig, h⟩
    obtain ⟨cs, calls, ps, hst⟩ := hn.step hw
    have hlater := Run.grown hrun (hst.wellPlaced hw) (hup.placed ▸ hgrown)
    exact migrateCard_grown (hacc ▸ hup.placed ▸ hlater)
  · exact attempt_error he

namespace Sample

/-- A card of the oldest layout, three rewards and five stamps into its life, whose NFT's record `key 3` paid
for. -/
def workedCard : CardV1 := ⟨shop, key 9, 5, 0, 0, 0, 17, 0, 4, 255⟩

def workedCardData : List Byte := LoyaltyCard.discriminator ++ CardV1.layout.enc workedCard

def workedRecord : Address := .cardNft (.cardMint (card 9) 0 255) 255

def workedStart : State :=
  { Sample.start with
    program := ((∅ : Store Address (List Byte)).insert (card 9) workedCardData).insert workedRecord
      (CardNft.discriminator ++ CardNft.layout.enc ⟨key 3, 255⟩) }

def upgradeAccounts : MigrateCard :=
  { card := card 9, record := workedRecord, cardMint := .cardMint (card 9) 0 255, rentPayer :=
    key 3, relayer := key 2 }

end Sample

theorem card_upgrade_faithful_worked : ∃ s', migrateCard Sample.platform
    ⟨1000, [Sample.key 2]⟩ Sample.upgradeAccounts
    Sample.workedStart = .ok s' ∧
    s'.card? (Sample.card 9) = some { Sample.workedCard with rentPayer := Sample.key 3, rewardsEarned := 3 } ∧
    s'.program.lookup Sample.workedRecord = none ∧
    ∃ e, migrateCard Sample.platform ⟨1000, [Sample.key 2]⟩ Sample.upgradeAccounts s' = .error e := by
  have hold : Sample.workedStart.program.lookup Sample.upgradeAccounts.card = some Sample.workedCardData := by
    decide +kernel
  have hreads : ReadsOld Sample.workedCardData Sample.workedCard none :=
    ⟨by decide +kernel, .inl ⟨by decide +kernel, rfl, by decide +kernel⟩⟩
  obtain ⟨s', hs', -⟩ := Leads.step (P := Sample.platform) (s := Sample.workedStart)
    (c := Sample.call 1000 [Sample.key 2] (.migrateCard Sample.upgradeAccounts)) (p := fun _ => true)
      (by decide +kernel)
  have hok : migrateCard Sample.platform ⟨1000, [Sample.key 2]⟩ Sample.upgradeAccounts Sample.workedStart =
    .ok s' := hs'.2
  obtain ⟨hup, -, hagain, -⟩ := card_upgrade_faithful hold hreads hok
  refine ⟨s', hok, hup.card.trans (by decide +kernel), (hup.closed ⟨Sample.key 3, 255⟩ (by decide +kernel)).1,
    (hagain _ _ rfl).1⟩

end Passdari
