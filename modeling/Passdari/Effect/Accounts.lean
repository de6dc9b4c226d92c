/-
The rules as seen from one shop, one card, one receipt and one voucher: what
a step can do to the account at an address, when it does anything to it.
-/
import Passdari.Effect.Induction

namespace Passdari

open Wire Token2022

def Record.business? : Record → Option Business
  | .business b => some b
  | _ => none

def Record.card? : Record → Option LoyaltyCard
  | .card c => some c
  | _ => none

def Record.receipt? : Record → Option Receipt
  | .receipt r => some r
  | _ => none

def Record.voucher? : Record → Option Voucher
  | .voucher v => some v
  | _ => none

namespace State

/-- The shop, card, receipt or voucher at an address. -/
def business? (s : State) (a : Address) : Option Business := (s.record? a).bind Record.business?
def card? (s : State) (a : Address) : Option LoyaltyCard := (s.record? a).bind Record.card?
def receipt? (s : State) (a : Address) : Option Receipt := (s.record? a).bind Record.receipt?
def voucher? (s : State) (a : Address) : Option Voucher := (s.record? a).bind Record.voucher?

variable {s : State} {a : Address}

theorem business?_eq_some {b : Business} : s.business? a = some b ↔ s.record? a = some (.business b) := by
  rw [business?, Option.bind_eq_some_iff]
  exact ⟨fun ⟨r, hr, hb⟩ => by cases r <;> cases hb; exact hr, fun h => ⟨_, h, rfl⟩⟩

theorem card?_eq_some {c : LoyaltyCard} : s.card? a = some c ↔ s.record? a = some (.card c) := by
  rw [card?, Option.bind_eq_some_iff]
  exact ⟨fun ⟨r, hr, hb⟩ => by cases r <;> cases hb; exact hr, fun h => ⟨_, h, rfl⟩⟩

theorem receipt?_eq_some {r : Receipt} : s.receipt? a = some r ↔ s.record? a = some (.receipt r) := by
  rw [receipt?, Option.bind_eq_some_iff]
  exact ⟨fun ⟨r, hr, hb⟩ => by cases r <;> cases hb; exact hr, fun h => ⟨_, h, rfl⟩⟩

theorem voucher?_eq_some {v : Voucher} : s.voucher? a = some v ↔ s.record? a = some (.voucher v) := by
  rw [voucher?, Option.bind_eq_some_iff]
  exact ⟨fun ⟨r, hr, hb⟩ => by cases r <;> cases hb; exact hr, fun h => ⟨_, h, rfl⟩⟩

end State

variable {P : Platform} {tx : Tx} {s s' : State} {c : Call} {cs : List Change} {calls : List TokenCall}
  {ps : List Payment} {action : Action}

/-! ## One shop -/

/-- What a step does to the shop at `a`. -/
inductive ShopChange (P : Platform) (tx : Tx) (s : State) (a : Address) :
    Action → Option Business → Option Business → Prop
  | registered {accs args bump b} : accs.business = a → accs.authority ∈ tx.signers →
    accs.relayer ∈ tx.signers →
      registerBusinessHandler tx.now accs bump args Business.account.zeroed = .ok b →
      ShopChange P tx s a (.program (.registerBusiness accs args)) none (some b)
  | edited {accs args b b'} : accs.business = a → accs.authority ∈ tx.signers → b.authority = accs.authority →
      updateBusinessConfigHandler tx.now args b = .ok b' →
      ShopChange P tx s a (.program (.updateBusinessConfig accs args)) (some b) (some b')
  | closed {accs b} : accs.business = a → b.rentPayer = accs.rentPayer →
    closeBusinessHandler tx.now b = .ok () →
      ShopChange P tx s a (.program (.closeBusiness accs)) (some b) none
  | receiptIssued {accs secretHash band b r bump} {windowStart : Int64} {thisWindow : UInt32} :
      accs.business = a → accs.authority ∈ tx.signers → b.authority = accs.authority →
      issueReceiptHandler tx.now accs bump band b =
        .ok ({ b with receiptsWindowStart := windowStart, receiptsThisWindow := thisWindow }, r) →
      ShopChange P tx s a (.program (.issueReceipt accs secretHash band)) (some b)
        (some { b with receiptsWindowStart := windowStart, receiptsThisWindow := thisWindow })
  | stampClaimed {accs secret b} {totalCards openCards : UInt32} {total : UInt64} : accs.business = a →
      openCards.toNat = b.openCards.toNat + (if s.card? accs.card = none then 1 else 0) →
      total.toNat = b.totalStampsIssued.toNat + 1 →
      ShopChange P tx s a (.program (.claimReceipt accs secret)) (some b)
        (some { b with totalCards := totalCards, openCards := openCards, totalStampsIssued := total })
  | cardClosed {accs b} : accs.business = a →
      ShopChange P tx s a (.program (.closeDeadCard accs)) (some b)
        (some { b with openCards := satSubU32 b.openCards 1 })
  | voucherMinted {accs voucherId uri b} {totalVouchersIssued : UInt64} {openVouchers : UInt32} :
      accs.business = a → voucherId = b.totalVouchersIssued →
      totalVouchersIssued.toNat = b.totalVouchersIssued.toNat + 1 →
        openVouchers.toNat = b.openVouchers.toNat + 1 →
      ShopChange P tx s a (.program (.mintVoucher accs voucherId uri)) (some b)
        (some { b with totalVouchersIssued := totalVouchersIssued, openVouchers := openVouchers })
  | voucherRedeemed {accs b} {totalRedemptions : UInt32} : accs.business = a →
      totalRedemptions.toNat = b.totalRedemptions.toNat + 1 →
      ShopChange P tx s a (.program (.redeemVoucher accs)) (some b) (some
        { b with totalRedemptions := totalRedemptions, openVouchers := satSubU32 b.openVouchers 1 })
  | voucherExpired {accs b} : accs.business = a →
      ShopChange P tx s a (.program (.closeExpiredVoucher accs)) (some b)
        (some { b with openVouchers := satSubU32 b.openVouchers 1 })
  | migrated {accs b before} : accs.business = a → s.face? a = some (.business b) →
      ShopChange P tx s a (.program (.migrateBusiness accs)) before
        (some (upgradeBusiness tx.now accs.relayer b))

/-- A projection of the records sees nothing of a step, or one of the changes the rules list. -/
theorem Changed.project {α : Type} {f : Record → Option α} {R : Address → Option α → Option α → Prop}
    (h : Changed cs s s')
    (hcs : ∀ x ∈ cs, x.after.bind f = x.before.bind f ∨ R x.addr (x.before.bind f) (x.after.bind f))
    (a : Address) :
    (s'.record? a).bind f = (s.record? a).bind f ∨ R a ((s.record? a).bind f) ((s'.record? a).bind f) := by
  by_cases ha : a ∈ cs.map Change.addr
  · obtain ⟨x, hx, rfl⟩ := List.mem_map.mp ha
    rw [h.before x hx, h.record? hx]
    exact hcs x hx
  · exact .inl (by rw [h.record?_frame ha])

/-- Where a shop's face is, no record of another kind is. -/
theorem bind_of_business_face {α : Type} {f : Record → Option α} {a : Address} {b : BusinessV1}
    (hf : s.face? a = some (.business b)) (hnone : ∀ b, f (.business b) = none) :
    (s.record? a).bind f = none := by
  cases hr : s.record? a with
  | none => rfl
  | some r =>
    rw [State.face?_of_record? hr] at hf
    cases r <;> first | exact hnone _ | cases hf

theorem Effect.shop (hw : s.WellPlaced) (h : Effect P tx s action cs calls ps) :
    ∀ x ∈ cs, x.after.bind Record.business? = x.before.bind Record.business? ∨
      ShopChange P tx s x.addr action (x.before.bind Record.business?) (x.after.bind Record.business?) := by
  cases h with
  | registerBusiness hs hr _ _ hok =>
    simp only [List.forall_mem_singleton]
    exact .inr (.registered rfl hs hr hok)
  | updateBusinessConfig hs _ hauth _ hok =>
    simp only [List.forall_mem_singleton]
    exact .inr (.edited rfl hs hauth hok)
  | closeBusiness _ _ _ hpayer hok =>
    simp only [List.forall_mem_singleton]
    exact .inr (.closed rfl hpayer hok)
  | issueReceipt _ _ hauth hs _ _ _ hok =>
    obtain ⟨-, _, _, _, -, -, -, -, rfl, rfl⟩ := issueReceiptHandler_eq_ok hok
    simp only [List.forall_mem_cons]
    exact ⟨.inr (.receiptIssued rfl hs hauth hok), .inl rfl, by simp⟩
  | @claimReceipt accs secret b b' r bump c' c hb hr _ _ _ hf hc _ hown _ hok =>
    obtain ⟨-, -, -, tc, oc, ts, hoc, hts, rfl⟩ :=
      claimReceiptHandler_spec (hw.business_ne_default hb) hown hok
    have hcard : s.card? accs.card = c := by
      rw [State.card?, hc]
      cases c <;> rfl
    simp only [List.forall_mem_cons]
    refine ⟨.inr (.stampClaimed rfl (by rw [hcard]; exact hoc) hts), .inl rfl, .inl ?_, by simp⟩
    cases c <;> rfl
  | closeDeadCard =>
    simp only [List.forall_mem_cons]
    exact ⟨.inr (.cardClosed rfl), .inl rfl, by simp⟩
  | mintVoucher _ _ _ _ _ _ _ _ _ _ _ _ _ _ _ hok =>
    obtain ⟨-, hid, -, _, _, _, -, htv, hov, rfl, rfl⟩ := mintVoucherHandler_eq_ok hok
    simp only [List.forall_mem_cons]
    exact ⟨.inr (.voucherMinted rfl hid htv hov), .inl rfl, .inl rfl, by simp⟩
  | redeemVoucher _ _ _ _ _ _ _ _ _ _ _ _ _ _ _ _ _ _ _ htotal =>
    simp only [List.forall_mem_cons]
    exact ⟨.inr (.voucherRedeemed rfl (addU32_eq_ok.mp htotal)), .inl rfl, by simp⟩
  | closeExpiredVoucher =>
    simp only [List.forall_mem_cons]
    exact ⟨.inr (.voucherExpired rfl), .inl rfl, by simp⟩
  | @migrateCard _ _ _ _ _ _ _ n =>
    cases n <;> simp only [Option.elim, List.forall_mem_cons] <;> simp [Record.business?]
  | migrateBusiness _ _ _ hf =>
    simp only [List.forall_mem_singleton]
    exact .inr (.migrated rfl hf)
  | initializeCounter | reclaimExpiredReceipt | retireIdleCardNft | transferVoucher =>
    simp only [List.forall_mem_singleton]
    exact .inl rfl
  | transferStamps =>
    simp only [List.forall_mem_cons]
    exact ⟨.inl rfl, .inl rfl, by simp⟩
  | mintCardNft | presentVoucher | cancelPresentation | pay | handOver | openMint | openToken | closeToken
  | token => simp

/-- **Every shop is left alone or changed in one of these ways.** -/
theorem Step.shop (hw : s.WellPlaced) (h : Step P s c s' cs calls ps) (a : Address) :
    s'.business? a = s.business? a ∨ ShopChange P c.tx s a c.action (s.business? a) (s'.business? a) :=
  h.changed.project (f := Record.business?) (R := fun a => ShopChange P c.tx s a c.action)
    (h.effect.shop hw) a

/-! ## One card -/

/-- What a step does to the card at `a`. -/
inductive CardChange (P : Platform) (tx : Tx) (s : State) (a : Address) :
    Action → Option LoyaltyCard → Option LoyaltyCard → Prop
  | stamped {accs secret b r bump c c'} : accs.card = a → s.business? accs.business = some b →
      s.receipt? accs.receipt = some r → tx.now ≤ r.expiresAt → accs.customer ∈ tx.signers →
      findProgramAddress P (.card accs.business accs.customer) = some (a, bump) →
      (∀ x, c = some x → x.business = accs.business ∧ x.customer = accs.customer) →
      stampCard tx.now (claimedCard accs bump b c) = .ok c' →
      CardChange P tx s a (.program (.claimReceipt accs secret)) c (some c')
  | sent {accs amount c d c' d'} : accs.fromCard = a → accs.customer ∈ tx.signers →
    c.customer = accs.customer →
      s.card? accs.toCard = some d → transferStampsHandler amount c d = .ok (c', d') →
      CardChange P tx s a (.program (.transferStamps accs amount)) (some c) (some c')
  | received {accs amount c d c' d'} : accs.toCard = a → s.card? accs.fromCard = some c →
      c.business = d.business → transferStampsHandler amount c d = .ok (c', d') →
      CardChange P tx s a (.program (.transferStamps accs amount)) (some d) (some d')
  | cashedIn {accs voucherId uri b c c' nftCycle} : accs.card = a → accs.customer ∈ tx.signers →
      s.business? accs.business = some b → c.business = accs.business → c.customer = accs.customer →
      cashIn b c = .ok c' →
      CardChange P tx s a (.program (.mintVoucher accs voucherId uri)) (some c)
        (some { c' with nftCycle := nftCycle })
  | nftRetired {accs c nftCycle} : accs.card = a →
      CardChange P tx s a (.program (.retireIdleCardNft accs)) (some c) (some { c with nftCycle := nftCycle })
  | closed {accs c since} : accs.card = a → c.stamps = 0 → subI64 tx.now c.lastStampTs = .ok since →
      cardDeadSeconds ≤ since → c.business = accs.business →
      CardChange P tx s a (.program (.closeDeadCard accs)) (some c) none
  | migrated {accs c c'} : accs.card = a → s.face? a = some (.card c) → c'.toCardV1 = c →
      CardChange P tx s a (.program (.migrateCard accs)) none (some c')

theorem Effect.card (hw : s.WellPlaced) (h : Effect P tx s action cs calls ps) :
    ∀ x ∈ cs, x.after.bind Record.card? = x.before.bind Record.card? ∨
      CardChange P tx s x.addr action (x.before.bind Record.card?) (x.after.bind Record.card?) := by
  cases h with
  | @claimReceipt accs secret b b' r bump c' c hb hr hs _ _ hf hc _ hown _ hok =>
    obtain ⟨-, hexp, hstamp, _⟩ := claimReceiptHandler_spec (hw.business_ne_default hb) hown hok
    have hbefore : (c.map Record.card).bind Record.card? = c := by cases c <;> rfl
    simp only [List.forall_mem_cons, hbefore]
    exact ⟨.inl rfl, .inl rfl,
      .inr (.stamped rfl (State.business?_eq_some.mpr hb) (State.receipt?_eq_some.mpr hr) hexp hs hf hown
        hstamp), by simp⟩
  | transferStamps _ hc hd hs _ _ hcb hcc hdb hok =>
    simp only [List.forall_mem_cons]
    exact ⟨.inr (.sent rfl hs hcc (State.card?_eq_some.mpr hd) hok),
      .inr (.received rfl (State.card?_eq_some.mpr hc) (hcb.trans hdb.symm) hok), by simp⟩
  | closeDeadCard _ _ _ _ _ hbus _ h0 hsince hdead =>
    simp only [List.forall_mem_cons]
    exact ⟨.inl rfl, .inr (.closed rfl h0 hsince hdead hbus.symm), by simp⟩
  | mintVoucher hb _ hs _ _ _ _ _ _ _ _ hcb hcc _ _ hok =>
    obtain ⟨-, -, hcash, -⟩ := mintVoucherHandler_eq_ok hok
    simp only [List.forall_mem_cons]
    exact ⟨.inl rfl, .inr (.cashedIn rfl hs (State.business?_eq_some.mpr hb) hcb hcc hcash), .inl rfl,
      by simp⟩
  | retireIdleCardNft =>
    simp only [List.forall_mem_singleton]
    exact .inr (.nftRetired rfl)
  | @migrateCard _ _ _ _ _ _ _ n _ _ _ _ _ hf _ _ _ _ _ hcard =>
    simp only [List.forall_mem_cons]
    refine ⟨.inr (.migrated rfl hf hcard), ?_⟩
    cases n <;> simp [Record.card?]
  | migrateBusiness _ _ _ hf =>
    simp only [List.forall_mem_singleton]
    exact .inl (bind_of_business_face hf fun _ => rfl).symm
  | initializeCounter | registerBusiness | updateBusinessConfig | closeBusiness | reclaimExpiredReceipt
  | transferVoucher =>
    simp only [List.forall_mem_singleton]
    exact .inl rfl
  | issueReceipt | redeemVoucher | closeExpiredVoucher =>
    simp only [List.forall_mem_cons]
    exact ⟨.inl rfl, .inl rfl, by simp⟩
  | mintCardNft | presentVoucher | cancelPresentation | pay | handOver | openMint | openToken | closeToken
  | token => simp

/-- **Every card is left alone or changed in one of these ways.** -/
theorem Step.card (hw : s.WellPlaced) (h : Step P s c s' cs calls ps) (a : Address) :
    s'.card? a = s.card? a ∨ CardChange P c.tx s a c.action (s.card? a) (s'.card? a) :=
  h.changed.project (f := Record.card?) (R := fun a => CardChange P c.tx s a c.action) (h.effect.card hw) a

/-! ## One receipt -/

/-- What a step does to the receipt at `a`. -/
inductive ReceiptChange (P : Platform) (tx : Tx) (s : State) (a : Address) :
    Action → Option Receipt → Option Receipt → Prop
  | issued {accs secretHash band b b' r bump} : accs.receipt = a → s.business? accs.business = some b →
      b.authority = accs.authority → accs.authority ∈ tx.signers →
      findProgramAddress P (.receipt accs.business secretHash) = some (a, bump) →
      issueReceiptHandler tx.now accs bump band b = .ok (b', r) →
      ReceiptChange P tx s a (.program (.issueReceipt accs secretHash band)) none (some r)
  | claimed {accs secret r bump} : accs.receipt = a → accs.customer ∈ tx.signers →
      findProgramAddress P (.receipt accs.business (P.keccak secret)) = some (a, bump) →
      tx.now ≤ r.expiresAt →
      ReceiptChange P tx s a (.program (.claimReceipt accs secret)) (some r) none
  | reclaimed {accs r} : accs.receipt = a → r.expiresAt ≤ tx.now →
      ReceiptChange P tx s a (.program (.reclaimExpiredReceipt accs)) (some r) none

theorem Effect.receipt (hw : s.WellPlaced) (h : Effect P tx s action cs calls ps) :
    ∀ x ∈ cs, x.after.bind Record.receipt? = x.before.bind Record.receipt? ∨
      ReceiptChange P tx s x.addr action (x.before.bind Record.receipt?) (x.after.bind Record.receipt?) := by
  cases h with
  | issueReceipt hb _ hauth hs _ hf _ hok =>
    simp only [List.forall_mem_cons]
    exact ⟨.inl rfl, .inr (.issued rfl (State.business?_eq_some.mpr hb) hauth hs hf hok), by simp⟩
  | @claimReceipt accs secret b b' r bump c' c hb _ hs _ _ _ _ _ hown _ hok =>
    obtain ⟨⟨_, hsecret⟩, hexp, -⟩ := claimReceiptHandler_spec (hw.business_ne_default hb) hown hok
    simp only [List.forall_mem_cons]
    refine ⟨.inl rfl, .inr (.claimed rfl hs hsecret hexp), .inl ?_, by simp⟩
    cases c <;> rfl
  | reclaimExpiredReceipt _ _ _ hexp =>
    simp only [List.forall_mem_singleton]
    exact .inr (.reclaimed rfl hexp)
  | @migrateCard _ _ _ _ _ _ _ n =>
    cases n <;> simp only [Option.elim, List.forall_mem_cons] <;> simp [Record.receipt?]
  | migrateBusiness _ _ _ hf =>
    simp only [List.forall_mem_singleton]
    exact .inl (bind_of_business_face hf fun _ => rfl).symm
  | initializeCounter | registerBusiness | updateBusinessConfig | closeBusiness | retireIdleCardNft
  | transferVoucher =>
    simp only [List.forall_mem_singleton]
    exact .inl rfl
  | transferStamps | closeDeadCard | redeemVoucher | closeExpiredVoucher =>
    simp only [List.forall_mem_cons]
    exact ⟨.inl rfl, .inl rfl, by simp⟩
  | mintVoucher =>
    simp only [List.forall_mem_cons]
    exact ⟨.inl rfl, .inl rfl, .inl rfl, by simp⟩
  | mintCardNft | presentVoucher | cancelPresentation | pay | handOver | openMint | openToken | closeToken
  | token => simp

/-- **Every receipt is left alone or changed in one of these ways.** -/
theorem Step.receipt (hw : s.WellPlaced) (h : Step P s c s' cs calls ps) (a : Address) :
    s'.receipt? a = s.receipt? a ∨ ReceiptChange P c.tx s a c.action (s.receipt? a) (s'.receipt? a) :=
  h.changed.project (f := Record.receipt?) (R := fun a => ReceiptChange P c.tx s a c.action)
    (h.effect.receipt hw) a

/-! ## One voucher -/

/-- What a step does to the voucher at `a`. -/
inductive VoucherChange (P : Platform) (tx : Tx) (s : State) (a : Address) :
    Action → Option Voucher → Option Voucher → Prop
  | minted {accs voucherId uri b bump mintBump} {expiresAt : Int64} : accs.voucher = a →
      s.business? accs.business = some b → voucherId = b.totalVouchersIssued → accs.customer ∈ tx.signers →
      findProgramAddress P (.voucher accs.business voucherId) = some (a, bump) →
      findProgramAddress P (.voucherMint accs.business voucherId) = some (accs.mint, mintBump) →
      expiresAt.toInt = tx.now.toInt + voucherValidSeconds.toInt →
      VoucherChange P tx s a (.program (.mintVoucher accs voucherId uri)) none
        (some { business := accs.business, owner := accs.customer, mint := accs.mint, voucherId := voucherId,
                mintedAt := tx.now, bump := bump, rentPayer := accs.relayer, expiresAt := expiresAt })
  | handed {accs v} : accs.voucher = a → accs.owner ∈ tx.signers → tx.now ≤ v.expiresAt →
      VoucherChange P tx s a (.program (.transferVoucher accs)) (some v)
        (some { v with owner := accs.newOwner })
  | redeemed {accs v b} : accs.voucher = a → s.business? accs.business = some b → v.business = accs.business →
      b.authority = accs.authority → accs.authority ∈ tx.signers → tx.now ≤ v.expiresAt →
      VoucherChange P tx s a (.program (.redeemVoucher accs)) (some v) none
  | expired {accs v b} : accs.voucher = a → s.business? accs.business = some b → v.business = accs.business →
      v.expiresAt < tx.now → VoucherChange P tx s a (.program (.closeExpiredVoucher accs)) (some v) none

theorem Effect.voucher (h : Effect P tx s action cs calls ps) :
    ∀ x ∈ cs, x.after.bind Record.voucher? = x.before.bind Record.voucher? ∨
      VoucherChange P tx s x.addr action (x.before.bind Record.voucher?) (x.after.bind Record.voucher?) := by
  cases h with
  | mintVoucher hb _ hs _ hf _ hm _ _ _ _ _ _ _ _ hok =>
    obtain ⟨-, hid, -, _, _, _, hexp, -, -, rfl, rfl⟩ := mintVoucherHandler_eq_ok hok
    simp only [List.forall_mem_cons]
    exact ⟨.inl rfl, .inl rfl, .inr (.minted rfl (State.business?_eq_some.mpr hb) hid hs hf hm hexp), by simp⟩
  | transferVoucher _ _ hs _ _ _ _ _ _ _ _ _ hexp =>
    simp only [List.forall_mem_singleton]
    exact .inr (.handed rfl hs hexp)
  | redeemVoucher hb _ hauth _ _ hs _ _ hvb _ _ _ _ _ _ hexp =>
    simp only [List.forall_mem_cons]
    exact ⟨.inl rfl, .inr (.redeemed rfl (State.business?_eq_some.mpr hb) hvb hauth hs hexp), by simp⟩
  | closeExpiredVoucher _ hb _ _ _ _ hbus hexp =>
    simp only [List.forall_mem_cons]
    exact ⟨.inl rfl, .inr (.expired rfl (State.business?_eq_some.mpr hb) hbus.symm hexp), by simp⟩
  | @claimReceipt _ _ _ _ _ _ _ c =>
    simp only [List.forall_mem_cons]
    refine ⟨.inl rfl, .inl rfl, .inl ?_, by simp⟩
    cases c <;> rfl
  | @migrateCard _ _ _ _ _ _ _ n =>
    cases n <;> simp only [Option.elim, List.forall_mem_cons] <;> simp [Record.voucher?]
  | migrateBusiness _ _ _ hf =>
    simp only [List.forall_mem_singleton]
    exact .inl (bind_of_business_face hf fun _ => rfl).symm
  | initializeCounter | registerBusiness | updateBusinessConfig | closeBusiness | reclaimExpiredReceipt
  | retireIdleCardNft =>
    simp only [List.forall_mem_singleton]
    exact .inl rfl
  | issueReceipt | transferStamps | closeDeadCard =>
    simp only [List.forall_mem_cons]
    exact ⟨.inl rfl, .inl rfl, by simp⟩
  | mintCardNft | presentVoucher | cancelPresentation | pay | handOver | openMint | openToken | closeToken
  | token => simp

/-- **Every voucher is left alone or changed in one of these ways.** -/
theorem Step.voucher (h : Step P s c s' cs calls ps) (a : Address) :
    s'.voucher? a = s.voucher? a ∨ VoucherChange P c.tx s a c.action (s.voucher? a) (s'.voucher? a) :=
  h.changed.project (f := Record.voucher?) (R := fun a => VoucherChange P c.tx s a c.action) h.effect.voucher
    a

end Passdari
