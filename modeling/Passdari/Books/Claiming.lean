/-
Whether a receipt can be claimed. From its issue on a receipt stays what it
is until somebody claims it or its time is over. What a claim then needs is
the shop, which may be gone, a card that may have a stamp now, and for a new
card the lamports.
-/
import Passdari.Books.Aborts
import Passdari.Books.CashingIn

namespace Passdari

open Wire

variable {P : Platform} {tx : Tx} {s s' start : State} {hist : History} {c : Call} {cs : List Change}
  {calls : List TokenCall} {ps : List Payment} {now : Int64} {accs : ClaimReceipt} {secret : Bytes32}
  {b b' : Business} {r : Receipt} {x y : LoyaltyCard} {o : Option LoyaltyCard} {bump : UInt8}
  {A R customer relayer : Address}

/-! ## The stamp -/

theorem addU8_one {n : UInt8} (h : n.toNat + 1 < 2 ^ 8) : addU8 n 1 = .ok (n + 1) := by
  rw [addU8, check_pos (by simpa using h)]
  rfl

theorem InRange.sub {t : Int64} (h : InRange (now.toInt - t.toInt)) :
    subI64 now t = .ok (now - t) ∧ (now - t).toInt = now.toInt - t.toInt := by
  have hsub : subI64 now t = .ok (now - t) := by
    rw [subI64, check_pos ⟨h.1, h.2⟩]
    rfl
  exact ⟨hsub, subI64_eq_ok.mp hsub⟩

theorem StampDue.cooled (h : StampDue now x) (hf : StampFits now x) : checkCooldown now x = .ok () := by
  unfold checkCooldown
  split
  · next h0 =>
    obtain ⟨hsub, hval⟩ := (hf.since h0).sub
    have hle : stampCooldownSeconds ≤ now - x.lastStampTs := by
      rw [Int64.le_iff_toInt_le, hval]
      exact h.cooldown.resolve_left h0
    rw [hsub, Except.ok_bind]
    exact require_pos hle
  · rfl

theorem stampCard_ok_iff : (∃ y, stampCard now x = .ok y) ↔ StampDue now x ∧ StampFits now x := by
  have hrange : ∀ e : Int64, InRange e.toInt := fun e => ⟨e.le_toInt, e.toInt_lt⟩
  constructor
  · intro hex
    obtain ⟨y, hy⟩ := hex
    obtain ⟨hcool, elapsed, n, st, l, he, hroom, -, hst, hl, -⟩ := stampCard_eq_ok hy
    have hst := hst ▸ st.toNat_lt
    have hl := hl ▸ l.toNat_lt
    refine ⟨⟨?_, ?_⟩, fun h0 => ?_, he ▸ hrange elapsed, hst, hl⟩
    · refine (checkCooldown_eq_ok hcool).imp_right fun hex => ?_
      obtain ⟨since, hsince, hle⟩ := hex
      rw [← hsince]
      exact Int64.le_iff_toInt_le.mp hle
    · by_cases hday : 86400 ≤ elapsed
      · exact .inl (he ▸ Int64.le_iff_toInt_le.mp hday)
      · rw [if_neg hday] at hroom
        exact .inr hroom
    · obtain h0' | ⟨since, hsince, -⟩ := checkCooldown_eq_ok hcool
      · exact absurd h0' h0
      · exact hsince ▸ hrange since
  · intro hex
    obtain ⟨hdue, hfits⟩ := hex
    obtain ⟨hsub, hval⟩ := hfits.window.sub
    have hday : (86400 : Int64) ≤ now - x.claimsWindowStart ↔
        (86400 : Int) ≤ now.toInt - x.claimsWindowStart.toInt := by
      rw [Int64.le_iff_toInt_le, hval]
      rfl
    have hmax : maxClaimsPerCardPerDay.toNat = 20 := rfl
    simp only [stampCard, hdue.cooled hfits, hsub, Except.ok_bind]
    by_cases hover : (86400 : Int64) ≤ now - x.claimsWindowStart
    · simp only [if_pos hover]
      rw [require_pos (by decide), Except.ok_bind, addU32_one (by decide), Except.ok_bind,
        addU8_one hfits.stamps, Except.ok_bind, addU32_one hfits.lifetime]
      exact ⟨_, rfl⟩
    · have hroom := hdue.limit.resolve_left (hday.not.mp hover)
      have hlt := UInt32.lt_iff_toNat_lt.mp hroom
      simp only [if_neg hover]
      rw [require_pos hroom, Except.ok_bind, addU32_one (by omega), Except.ok_bind, addU8_one hfits.stamps,
        Except.ok_bind, addU32_one hfits.lifetime]
      exact ⟨_, rfl⟩

/-! ## The claim -/

/-- What a claim asks of the shop and of the card, if there is one. -/
structure Stampable (now : Int64) (b : Business) (o : Option LoyaltyCard) : Prop where
  counted : b.totalStampsIssued.toNat + 1 < 2 ^ 64
  stamped : ∀ x, o = some x → StampDue now x ∧ StampFits now x
  opened : o = none → b.totalCards.toNat + 1 < 2 ^ 32 ∧ b.openCards.toNat + 1 < 2 ^ 32

/-- A new card may always have its first stamp. -/
theorem stampable_blank (now : Int64) {z : LoyaltyCard} (hl : z.lastStampTs = 0)
    (hw : z.claimsWindowStart = 0)
    (hn : z.claimsThisWindow = 0) (hs : z.stamps = 0) (hli : z.lifetimeStamps = 0) :
    StampDue now z ∧ StampFits now z := by
  refine ⟨⟨.inl hl, .inr (by rw [hn]; decide)⟩, fun h0 => absurd hl h0, ?_, by rw [hs]; decide,
    by rw [hli]; decide⟩
  have h0 : (0 : Int64).toInt = 0 := rfl
  rw [hw, h0, Int.sub_zero]
  exact ⟨now.le_toInt, now.toInt_lt⟩

theorem claimReceiptHandler_ok_iff (hbus : accs.business ≠ .default)
    (hown : ∀ x, o = some x → x.business = accs.business ∧ x.customer = accs.customer) :
    (∃ y, claimReceiptHandler P now accs bump secret b r (o.getD LoyaltyCard.account.zeroed) = .ok y) ↔
      (∃ receiptBump, findProgramAddress P (.receipt accs.business (P.keccak secret)) =
        some (accs.receipt, receiptBump)) ∧ now ≤ r.expiresAt ∧ Stampable now b o := by
  constructor
  · intro hex
    obtain ⟨⟨b', y⟩, hok⟩ := hex
    obtain ⟨hsecret, htime, hstamp, -⟩ := claimReceiptHandler_spec hbus hown hok
    obtain ⟨-, -, b₁, c₁, total, hopen, -, htotal, -⟩ := claimReceiptHandler_eq_ok hok
    have hcount : b₁.totalStampsIssued = b.totalStampsIssued := by
      obtain ⟨-, _, _, -, -, rfl, -⟩ | ⟨-, rfl, -⟩ := openCard_eq_ok hopen <;> rfl
    refine ⟨hsecret, htime, hcount ▸ htotal ▸ total.toNat_lt, fun x ho => ?_, fun ho => ?_⟩
    · subst ho
      exact stampCard_ok_iff.mp ⟨_, hstamp⟩
    · subst ho
      obtain ⟨-, tc, oc, htc, hoc, -⟩ | ⟨hne, -⟩ := openCard_eq_ok hopen
      · exact ⟨htc ▸ tc.toNat_lt, hoc ▸ oc.toNat_lt⟩
      · exact absurd rfl hne
  · intro hex
    obtain ⟨⟨receiptBump, hsecret⟩, htime, hcan⟩ := hex
    obtain ⟨b₁, c₁, hopen, hcount, y, hy⟩ : ∃ b₁ c₁,
      openCard accs bump b (o.getD LoyaltyCard.account.zeroed) =
        .ok (b₁, c₁) ∧ b₁.totalStampsIssued = b.totalStampsIssued ∧ ∃ y, stampCard now c₁ = .ok y := by
      cases o with
      | none =>
        obtain ⟨htc, hoc⟩ := hcan.opened rfl
        have hopen : openCard accs bump b LoyaltyCard.account.zeroed = .ok
            ({ b with totalCards := b.totalCards + 1, openCards := b.openCards + 1 },
              claimedCard accs bump b none) := by
          have hnew : LoyaltyCard.account.zeroed.business = .default := rfl
          rw [openCard, if_pos hnew, addU32_one htc, Except.ok_bind, addU32_one hoc]
          rfl
        exact ⟨_, _, hopen, rfl, stampCard_ok_iff.mpr (stampable_blank now rfl rfl rfl rfl rfl)⟩
      | some x =>
        have hne : x.business ≠ .default := by rw [(hown x rfl).1]; exact hbus
        refine ⟨b, x, ?_, rfl, stampCard_ok_iff.mpr (hcan.stamped x rfl)⟩
        rw [openCard, Option.getD_some, if_neg hne]
        rfl
    have htotal : addU64 b₁.totalStampsIssued 1 = .ok (b₁.totalStampsIssued + 1) :=
      addU64_one (by rw [hcount]; exact hcan.counted)
    simp only [claimReceiptHandler, Except.bind_eq_ok, demand_eq_ok, require_eq_ok, exists_const]
    exact ⟨_, _, hsecret, rfl, htime, (b₁, c₁), hopen, y, hy, _, htotal, rfl⟩

/-- The three accounts a claim writes at its end. -/
theorem claimWriteBack_ok {A B R : Address} (payer : Address) (b' : Business) (y : LoyaltyCard)
    {data : List Byte}
    (hb : s.record? B = some (.business b)) (hname : b'.name = b.name) (hcategory : b'.category = b.category)
    (hlabel : b'.rewardLabel = b.rewardLabel) (hcurrency : b'.currency = b.currency)
    (hdata : s.program.lookup A = some data) (hlen : data.length = LoyaltyCard.space) (hAB : A ≠ B)
    (hAR : A ≠ R) :
    ∃ s₁ s₂, store Business.account s B b' = .ok s₁ ∧
    store LoyaltyCard.account (close s₁ R payer) A y = .ok s₂ := by
  obtain ⟨s₁, h₁⟩ := store_business_ok b' hb hname hcategory hlabel hcurrency
  have hlook : (close s₁ R payer).program.lookup A = some data := by
    rw [close, Store.lookup_erase, if_neg hAR, store_program h₁ hAB, hdata]
  refine ⟨s₁, _, h₁, store_eq_ok.mpr ⟨data, hlook, ?_, rfl⟩⟩
  rw [hlen]
  exact Nat.le_of_eq (Record.length_bytes (r := .card y) fun _ h => (by cases h))

/-- The card of the claim as `init_if_needed` leaves it. -/
theorem cardNeeded_ok (P : Platform) (tx : Tx) (hcur : s.Current) (hcard : s.record? A = o.map .card)
    (hrelayer : relayer ∈ tx.signers)
    (hnew : o = none → ¬s.InUse A ∧ ¬s.InUse relayer ∧ A ≠ relayer ∧
      P.minimumBalance LoyaltyCard.space ≤ s.lamports A + s.lamports relayer) :
    ∃ s₁ data, createIfNeeded P tx LoyaltyCard.account s relayer A =
        .ok (s₁, o.getD LoyaltyCard.account.zeroed) ∧ s₁.program.lookup A = some data ∧
      data.length = LoyaltyCard.space ∧ ∀ e, e ≠ A → s₁.program.lookup e = s.program.lookup e := by
  cases o with
  | none =>
    obtain ⟨hfree, hsys, hne, hle⟩ := hnew rfl
    obtain ⟨s₁, h₁, -⟩ := create_ok P tx LoyaltyCard.account hfree hrelayer hsys hne hle
    obtain ⟨-, hd⟩ := create_delta h₁
    refine ⟨s₁, List.replicate LoyaltyCard.space (.lit 0), ?_, ?_, List.length_replicate, fun e he => ?_⟩
    · rw [createIfNeeded, if_neg hfree, h₁]
      rfl
    · rw [hd.program, patch_cons, if_pos rfl]
      rfl
    · rw [hd.program, patch_cons, if_neg he.symm, patch_nil]
  | some x =>
    obtain ⟨data, hdata, hparse⟩ := Option.bind_eq_some_iff.mp hcard
    obtain ⟨q, hq, hlen⟩ := hcur _ _ hdata
    have hsame : q = .card x := Option.some.inj (hq.symm.trans hparse)
    have hsize : data.length = LoyaltyCard.space := by rw [hlen, hsame]; rfl
    have hspace : (some data).map List.length = some LoyaltyCard.account.space := congrArg some hsize
    refine ⟨s, data, ?_, hdata, hsize, fun _ _ => rfl⟩
    rw [createIfNeeded, if_pos (State.inUse_of_record? hcard), show load LoyaltyCard.account s A = .ok x from
      load_eq_ok.mpr hcard, Except.ok_bind, hdata, check_pos hspace]
    rfl

/-- **What `claim_receipt` needs is all it needs.** -/
theorem claimReceipt_ok (hw : s.WellPlaced) (hcur : s.Current) (hb : s.business? accs.business = some b)
    (hr : s.receipt? accs.receipt = some r) (hcustomer : accs.customer ∈ tx.signers)
    (hrelayer : accs.relayer ∈ tx.signers) (hpayer : ¬s.InUse accs.rentPayer)
    (hrent : r.rentPayer = accs.rentPayer)
    (hA : findProgramAddress P (.card accs.business accs.customer) = some (accs.card, bump))
    (hcard : s.record? accs.card = o.map .card)
    (hnew : o = none → ¬s.InUse accs.card ∧ ¬s.InUse accs.relayer ∧ accs.card ≠ accs.relayer ∧
      P.minimumBalance LoyaltyCard.space ≤ s.lamports accs.card + s.lamports accs.relayer)
    (hok : claimReceiptHandler P tx.now accs bump secret b r (o.getD LoyaltyCard.account.zeroed) =
      .ok (b', y)) :
    ∃ s', claimReceipt P tx accs secret s = .ok s' := by
  have hb := State.business?_eq_some.mp hb
  have hr := State.receipt?_eq_some.mp hr
  have hadr := findProgramAddress_eq hA
  have hAB : accs.card ≠ accs.business := fun he => by
    rw [← he, hadr] at hb
    cases hw.business hb
  have hAR : accs.card ≠ accs.receipt := fun he => by
    rw [← he, hadr] at hr
    obtain ⟨_, hat⟩ := hw.placed (State.face?_of_record? hr)
    cases hat
  obtain ⟨s₁, data, hneeded, hdata, hlen, hframe⟩ := cardNeeded_ok P tx hcur hcard hrelayer hnew
  have hb₁ : s₁.record? accs.business = some (.business b) := by
    rw [← hb]
    exact State.record?_of_lookup (hframe _ hAB.symm)
  obtain ⟨-, -, b₁, c₁, total, hopen, -, -, rfl⟩ := claimReceiptHandler_eq_ok hok
  obtain ⟨hname, hcategory, hlabel, hcurrency⟩ : b₁.name = b.name ∧ b₁.category = b.category ∧
      b₁.rewardLabel = b.rewardLabel ∧ b₁.currency = b.currency := by
    obtain ⟨-, _, _, -, -, rfl, -⟩ | ⟨-, rfl, -⟩ := openCard_eq_ok hopen <;> exact ⟨rfl, rfl, rfl, rfl⟩
  obtain ⟨s₂, s₃, h₂, h₃⟩ := claimWriteBack_ok accs.rentPayer
    { b₁ with totalStampsIssued := total } y hb₁ hname hcategory hlabel hcurrency
    hdata hlen hAB hAR
  simp only [claimReceipt, Except.bind_eq_ok, load_eq_ok, signer_eq_ok, systemAccount_eq_ok,
    seedsConstraint_eq_ok, closeConstraint_eq_ok, exists_const]
  exact ⟨s₃, b, hb, r, hr, hcustomer, hrelayer, hpayer, bump, hA, (s₁, _), hneeded,
    ⟨hrent, ne_of_not_inUse hr hpayer⟩, (_, y), hok, s₂, h₂, h₃⟩

/-! ## Reachable states -/

/-- A claim of the receipt at `R` for the card at `A`, with what the receipt records. -/
abbrev Receipt.claiming (r : Receipt) (R A customer relayer : Address) : ClaimReceipt :=
  ⟨r.business, R, A, customer, relayer, r.rentPayer⟩

/-- What a claim of the receipt `r` for the card at `A` needs, besides the signatures and a secret that fits.
-/
structure Claimable (P : Platform) (s : State) (now : Int64) (r : Receipt) (A relayer : Address)
    (b : Business) :
    Prop where
  shop : s.business? r.business = some b
  inTime : now ≤ r.expiresAt
  refundee : ¬s.InUse r.rentPayer
  card : Stampable now b (s.card? A)
  funds : s.card? A = none → P.minimumBalance LoyaltyCard.space ≤ s.lamports A + s.lamports relayer

theorem State.Sound.card_or_free (hs : s.Sound P) {business : Address}
    (hA : findProgramAddress P (.card business customer) = some (A, bump)) :
    s.record? A = (s.card? A).map .card ∧ (s.card? A = none → ¬s.InUse A) := by
  have hadr := findProgramAddress_eq hA
  have hrec : s.record? A = (s.card? A).map .card := by
    cases hr : s.record? A with
    | none => rw [State.card?, hr]; rfl
    | some q =>
      have hat := hs.placed.placed (State.face?_of_record? hr)
      rw [hadr] at hat
      cases q with
      | card x => rw [State.card?_eq_some.mpr hr]; rfl
      | _ => simp [Record.face, Face.At] at hat
  refine ⟨hrec, fun hnone => ?_⟩
  rw [hnone] at hrec
  refine hs.free (fun _ => by rw [hadr]; simp) (hs.current.lookup_none hrec) ?_ ?_
  · cases hm : s.tokens.mints.lookup A with
    | none => rfl
    | some m =>
      rw [hadr] at hm
      obtain ⟨_, hk⟩ | hk | hk := hs.mints _ m hm <;> cases hk
  · cases hx : s.tokens.accounts.lookup A with
    | none => rfl
    | some z =>
      rw [hadr] at hx
      obtain ⟨_, hk⟩ | ⟨_, hk⟩ := hs.accounts _ z hx <;> cases hk

theorem State.Sound.claims_iff (hs : s.Sound P) (hr : s.receipt? R = some r) {receiptBump : UInt8}
    (hR : findProgramAddress P (.receipt r.business (P.keccak secret)) = some (R, receiptBump))
    (hA : findProgramAddress P (.card r.business customer) = some (A, bump))
    (hsig : ∀ a ∈ tx.signers, a.canSign = true) (hcustomer : customer ∈ tx.signers)
    (hrelayer : relayer ∈ tx.signers)
    (hsys : ¬s.InUse relayer) :
    (∃ s', Next P s ⟨tx, .program (.claimReceipt (r.claiming R A customer relayer) secret)⟩ s') ↔
      ∃ b, Claimable P s tx.now r A relayer b := by
  obtain ⟨hrec, hfree⟩ := hs.card_or_free hA
  have hown : ∀ x, s.card? A = some x → x.business = r.business ∧ x.customer = customer := by
    intro x hx
    have hat := hs.placed.card (State.card?_eq_some.mp hx)
    rw [findProgramAddress_eq hA, Address.card.injEq] at hat
    exact ⟨hat.1.symm, hat.2.1.symm⟩
  have hne : A ≠ relayer := fun he => by
    have hkey := hsig _ hrelayer
    rw [← he, findProgramAddress_eq hA] at hkey
    cases hkey
  constructor
  · intro hex
    obtain ⟨s', hnext⟩ := hex
    obtain ⟨cs, calls, ps, hst⟩ := hnext.step hs.placed
    have hfunded := hst.funded
    have heffect := hst.effect
    cases heffect with
    | @claimReceipt _ _ b b' r' bump' c' o hb hr' _ _ hpayer hA' hcard _ _ _ hok =>
      have hr' := State.receipt?_eq_some.mpr hr'
      rw [hr, Option.some.injEq] at hr'
      subst hr'
      have ho : s.card? A = o := by
        rw [State.card?, hcard]
        cases o <;> rfl
      have hbus := hs.placed.business_ne_default hb
      obtain ⟨-, htime, hcan⟩ := (claimReceiptHandler_ok_iff hbus (ho ▸ hown)).mp ⟨_, hok⟩
      refine ⟨b, State.business?_eq_some.mpr hb, htime, hpayer, ho ▸ hcan, fun hnone => ?_⟩
      rw [ho] at hnone
      subst hnone
      simp only [if_true, List.singleton_append] at hfunded
      exact Nat.sub_le_iff_le_add'.mp hfunded.1
  · intro hex
    obtain ⟨b, hcan⟩ := hex
    have hbus := hs.placed.business_ne_default (State.business?_eq_some.mp hcan.shop)
    have hex : ∃ y, claimReceiptHandler P tx.now (r.claiming R A customer relayer) bump secret b r
        ((s.card? A).getD LoyaltyCard.account.zeroed) = .ok y :=
      (claimReceiptHandler_ok_iff hbus hown).mpr ⟨⟨receiptBump, hR⟩, hcan.inTime, hcan.card⟩
    obtain ⟨⟨b', y⟩, hok⟩ := hex
    obtain ⟨s', hok'⟩ := claimReceipt_ok hs.placed hs.current hcan.shop hr hcustomer hrelayer
      hcan.refundee rfl hA hrec
      (fun hnone => ⟨hfree hnone, hsys, hne, hcan.funds hnone⟩) hok
    exact ⟨s', hsig, hok'⟩

/-! ## From its issue on -/

/-- A step that leaves a receipt alone: it neither claims nor reclaims it. -/
structure Spares (R : Address) (c : Call) : Prop where
  unclaimed : ∀ accs secret, c.action = .program (.claimReceipt accs secret) → accs.receipt ≠ R
  unreclaimed : ∀ accs, c.action = .program (.reclaimExpiredReceipt accs) → accs.receipt ≠ R

theorem Step.receipt_spared (hw : s.WellPlaced) (h : Step P s c s' cs calls ps) (hr : s.receipt? R = some r)
    (hspares : Spares R c) : s'.receipt? R = some r := by
  obtain ⟨tx, action⟩ := c
  rcases h.receipt hw R with hsame | hch
  · exact hsame.trans hr
  rw [hr] at hch
  generalize s'.receipt? R = after at hch
  cases hch with
  | claimed hadr => exact absurd hadr (hspares.unclaimed _ _ rfl)
  | reclaimed hadr => exact absurd hadr (hspares.unreclaimed _ rfl)

theorem Run.receipt_spared {later : History} (h : Run P s later s') (hw : s.WellPlaced)
    (hr : s.receipt? R = some r) (hspares : ∀ st ∈ later, Spares R st.label) : s'.receipt? R = some r := by
  induction h with
  | nil => exact hr
  | step hrun hnext ih =>
    have hws := Run.wellPlaced hrun hw
    obtain ⟨_, _, _, hst⟩ := hnext.step hws
    exact hst.receipt_spared hws (ih fun st hmem => hspares st (List.mem_cons_of_mem _ hmem))
      (hspares _ List.mem_cons_self)

/-- **When a stamp that was paid for can be had.** Whatever happens after a receipt was issued, as long as
nobody claims or reclaims it, the customer who is told the secret can claim it exactly when its time is not
over, the shop is still there, the wallet its rent goes back to is still one, their card may have a stamp now,
and the relayer has the lamports for a new card where they have none. -/
theorem receipt_claimable_iff {accs : IssueReceipt} {secretHash : Bytes32} {band : UInt8}
    (h : Run P start hist s)
    (hs : start.Empty) (hissue : Next P s ⟨tx, .program (.issueReceipt accs secretHash band)⟩ s') :
    ∃ b r, s.business? accs.business = some b ∧ s'.receipt? accs.receipt = some r ∧
    r.business = accs.business ∧
      r.rentPayer = accs.relayer ∧ r.expiresAt.toInt = tx.now.toInt + b.receiptTtlSeconds.toNat ∧
      ∀ later s₂, Run P s' later s₂ → (∀ st ∈ later, Spares accs.receipt st.label) →
      ∀ (tx₂ : Tx) secret customer relayer A bump, P.keccak secret = secretHash →
        findProgramAddress P (.card r.business customer) = some (A, bump) →
        (∀ a ∈ tx₂.signers, a.canSign = true) → customer ∈ tx₂.signers → relayer ∈ tx₂.signers →
        ¬s₂.InUse relayer →
        ((∃ s₃, Next P s₂
            ⟨tx₂, .program (.claimReceipt (r.claiming accs.receipt A customer relayer) secret)⟩ s₃) ↔
          ∃ b, Claimable P s₂ tx₂.now r A relayer b) := by
  have hw := h.wellPlaced hs.wellPlaced
  obtain ⟨cs, calls, ps, hst⟩ := hissue.step hw
  have hch := hst.changed
  have heffect := hst.effect
  cases heffect with
  | @issueReceipt _ _ _ b b' r bump hb _ _ _ _ hf _ hok =>
    obtain ⟨-, _, _, e, -, -, -, he, -, rfl⟩ := issueReceiptHandler_eq_ok hok
    have hr := State.receipt?_eq_some.mpr (hch.record? (List.mem_cons_of_mem _ List.mem_cons_self))
    refine ⟨b, _, State.business?_eq_some.mpr hb, hr, rfl, rfl, he, fun later s₂ hlater hspares => ?_⟩
    intro tx₂ secret customer relayer A bumpA hsecret hA hsig hcustomer hrelayer hsys
    have hrun := Runs.Run.append (h.step hissue) hlater
    have hr₂ := Run.receipt_spared hlater (hst.wellPlaced hw) hr hspares
    exact (Run.sound_of_empty hrun hs).claims_iff hr₂ (by rw [hsecret]; exact hf) hA hsig hcustomer hrelayer
      hsys

/-- The shop changes its terms after the receipt was issued; a new customer claims it all the same. -/
theorem receipt_claimable_iff_updated : ∃ hist s s' s₂ s₃, Run Sample.platform Sample.start hist s ∧
    Next Sample.platform s (Sample.issue 1010 7) s' ∧ Next Sample.platform s' (Sample.update 1015 5 0) s₂ ∧
    Next Sample.platform s₂ (Sample.claim 1020 9 7) s₃ := by
  obtain ⟨hist, s, hrun, -, hp⟩ := Leads.run (P := Sample.platform) (s := Sample.start)
    (l := [Sample.register 1000 1 0])
    (p := fun s => (s.business? Sample.shop).all (fun b : Business => b.receiptTtlSeconds = 600) &&
      Leads Sample.platform s [Sample.issue 1010 7] fun s' =>
      Leads Sample.platform s' [Sample.update 1015 5 0] fun s₂ =>
        (s₂.business? Sample.shop).any (fun b : Business => b.totalStampsIssued = 0 ∧ b.totalCards = 0 ∧
          b.openCards = 0) && (s₂.card? (Sample.card 9)).isNone &&
        decide (¬s₂.InUse (Sample.key 2) ∧ LoyaltyCard.space ≤ s₂.lamports (Sample.key 2)))
    (by decide +kernel)
  rw [Bool.and_eq_true] at hp
  obtain ⟨httl, hp⟩ := hp
  obtain ⟨s', hissue, hp⟩ := Leads.step hp
  obtain ⟨s₂, hupdate, hp⟩ := Leads.step hp
  simp only [Bool.and_eq_true, Option.any_eq_true, decide_eq_true_eq, Option.isNone_iff_eq_none] at hp
  obtain ⟨⟨⟨b₂, hb₂, hcount, htotal, hopen⟩, hnone⟩, hsys, hfunds⟩ := hp
  obtain ⟨b, r, hb, hr, hbus, hpayer, hexp, hrest⟩ := receipt_claimable_iff hrun Sample.start_empty hissue
  rw [Option.all_eq_true] at httl
  have httl : b.receiptTtlSeconds = 600 := of_decide_eq_true (httl b hb)
  have htime : ∀ n : Int64, n.toInt < 1610 → n < r.expiresAt := by
    intro n hn
    rw [Int64.lt_iff_toInt_lt, hexp, httl]
    exact hn
  have hspares : Spares (.receipt Sample.shop (Sample.hash 7) 255) (Sample.update 1015 5 0) :=
    ⟨fun _ _ h => (by cases h), fun _ h => (by cases h)⟩
  have hcan : Claimable Sample.platform s₂ 1020 r (Sample.card 9) (Sample.key 2) b₂ := by
    refine ⟨by rw [hbus]; exact hb₂, Int64.le_of_lt (htime _ (by decide)),
      by rw [hpayer]; exact hsys, ?_, fun _ => ?_⟩
    · refine ⟨by rw [hcount]; decide, fun x hx => ?_, fun _ =>
        ⟨by rw [htotal]; decide, by rw [hopen]; decide⟩⟩
      rw [hnone] at hx
      cases hx
    · exact Nat.le_trans hfunds (Nat.le_add_left _ _)
  obtain ⟨s₃, hnext⟩ := (hrest _ s₂ (.step .nil hupdate) (List.forall_mem_singleton.mpr hspares)
    ⟨1020, [Sample.key 9, Sample.key 2]⟩ (Sample.hash 7) (Sample.key 9) (Sample.key 2) (Sample.card 9) 255 rfl
    (by rw [hbus]; rfl) (by decide) (by decide) (by decide) hsys).mpr ⟨b₂, hcan⟩
  rw [Receipt.claiming, hbus, hpayer] at hnext
  exact ⟨hist, s, s', s₂, s₃, hrun, hissue, hupdate, hnext⟩

end Passdari
