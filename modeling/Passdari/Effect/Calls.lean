/-
The rules as seen from one instruction: the accounts a successful call finds
and the accounts it leaves.
-/
import Passdari.Effect.Accounts

namespace Passdari

open Wire Token2022

variable {P : Platform} {tx : Tx} {s s' : State} {cs : List Change} {calls : List TokenCall}
  {ps : List Payment}

theorem Step.registerBusiness {accs args}
    (h : Step P s ⟨tx, .program (.registerBusiness accs args)⟩ s' cs calls ps) :
    s.business? accs.business = none ∧ ∃ b bump, s'.business? accs.business = some b ∧
      registerBusinessHandler tx.now accs bump args Business.account.zeroed = .ok b := by
  obtain ⟨he, hc, -⟩ := h
  cases he with
  | registerBusiness _ _ _ hfree hok =>
    exact ⟨by rw [State.business?, State.record?_of_not_inUse hfree]; rfl, _, _,
      State.business?_eq_some.mpr (hc.record? List.mem_cons_self), hok⟩

theorem Step.updateBusinessConfig {accs args}
    (h : Step P s ⟨tx, .program (.updateBusinessConfig accs args)⟩ s' cs calls ps) :
    ∃ b b', s.business? accs.business = some b ∧ s'.business? accs.business = some b' ∧
      updateBusinessConfigHandler tx.now args b = .ok b' := by
  obtain ⟨he, hc, -⟩ := h
  cases he with
  | updateBusinessConfig _ hb _ _ hok =>
    exact ⟨_, _, State.business?_eq_some.mpr hb, State.business?_eq_some.mpr (hc.record? List.mem_cons_self),
      hok⟩

theorem Step.closeBusiness {accs} (h : Step P s ⟨tx, .program (.closeBusiness accs)⟩ s' cs calls ps) :
    ∃ b, s.business? accs.business = some b ∧ closeBusinessHandler tx.now b = .ok () ∧
      s'.business? accs.business = none ∧ ∀ a, s'.receipt? a = s.receipt? a := by
  obtain ⟨he, hc, -⟩ := h
  cases he with
  | closeBusiness hb _ _ _ hok =>
    have hgone := hc.record? List.mem_cons_self
    refine ⟨_, State.business?_eq_some.mpr hb, hok, by rw [State.business?, hgone]; rfl, fun a => ?_⟩
    by_cases ha : a = accs.business
    · subst ha
      rw [State.receipt?, State.receipt?, hgone, hb]
      rfl
    · rw [State.receipt?, State.receipt?, hc.record?_frame (by simpa using ha)]

theorem Step.issueReceipt {accs secretHash band}
    (h : Step P s ⟨tx, .program (.issueReceipt accs secretHash band)⟩ s' cs calls ps) :
    ∃ b b' r bump, s.business? accs.business = some b ∧ b.authority = accs.authority ∧
      accs.authority ∈ tx.signers ∧
      findProgramAddress P (.receipt accs.business secretHash) = some (accs.receipt, bump) ∧
      issueReceiptHandler tx.now accs bump band b = .ok (b', r) ∧ s.receipt? accs.receipt = none ∧
      s'.receipt? accs.receipt = some r := by
  obtain ⟨he, hc, -⟩ := h
  cases he with
  | issueReceipt hb _ hauth hs _ hf hfree hok =>
    refine ⟨_, _, _, _, State.business?_eq_some.mpr hb, hauth, hs, hf, hok, ?_,
      State.receipt?_eq_some.mpr (hc.record? (List.mem_cons_of_mem _ List.mem_cons_self))⟩
    rw [State.receipt?, State.record?_of_not_inUse hfree]
    rfl

/-- A claim takes the receipt away and puts one stamp on the customer's card at the shop. -/
theorem Step.claimReceipt (hw : s.WellPlaced) {accs secret}
    (h : Step P s ⟨tx, .program (.claimReceipt accs secret)⟩ s' cs calls ps) :
    ∃ b r c' bump, s.business? accs.business = some b ∧ s.receipt? accs.receipt = some r ∧
      accs.customer ∈ tx.signers ∧
      findProgramAddress P (.card accs.business accs.customer) = some (accs.card, bump) ∧
      (∃ receiptBump, findProgramAddress P (.receipt accs.business (P.keccak secret)) =
        some (accs.receipt, receiptBump)) ∧ tx.now ≤ r.expiresAt ∧
      (∀ x, s.card? accs.card = some x → x.business = accs.business ∧ x.customer = accs.customer) ∧
      stampCard tx.now (claimedCard accs bump b (s.card? accs.card)) = .ok c' ∧ s'.card? accs.card = some c' ∧
      s'.receipt? accs.receipt = none := by
  obtain ⟨he, hc, -⟩ := h
  cases he with
  | @claimReceipt _ _ b b' r bump c' c hb hr hs _ _ hf hcard _ hown _ hok =>
    obtain ⟨hsecret, hexp, hstamp, -⟩ := claimReceiptHandler_spec (hw.business_ne_default hb) hown hok
    have hbefore : s.card? accs.card = c := by
      rw [State.card?, hcard]
      cases c <;> rfl
    refine ⟨b, r, c', bump, State.business?_eq_some.mpr hb, State.receipt?_eq_some.mpr hr, hs, hf, hsecret,
      hexp, fun x hx => hown x (hbefore.symm.trans hx), by rw [hbefore]; exact hstamp,
      State.card?_eq_some.mpr
      (hc.record? (List.mem_cons_of_mem _ (List.mem_cons_of_mem _ List.mem_cons_self))), ?_⟩
    rw [State.receipt?, hc.record? (List.mem_cons_of_mem _ List.mem_cons_self)]
    rfl

/-- Minting a card NFT makes calls into the token program, at free addresses, and changes no record. -/
theorem Step.mintCardNft {accs uri}
    (h : Step P s ⟨tx, .program (.mintCardNft accs uri)⟩ s' cs calls ps) :
    ∃ c bump name, s.card? accs.card = some c ∧ c.customer = accs.customer ∧
      findProgramAddress P (.cardMint accs.card c.nftCycle) = some (accs.mint, bump) ∧ ¬s.InUse accs.mint ∧
      accs.customerToken = .ata accs.customer accs.mint ∧ calls = mintCardNftCalls tx accs name uri ∧
      ∀ a, s'.record? a = s.record? a := by
  obtain ⟨he, hc, -⟩ := h
  cases he with
  | mintCardNft _ hcard _ _ _ _ hcc hf _ hfree hat =>
    exact ⟨_, _, _, State.card?_eq_some.mpr hcard, hcc, hf, hfree, hat, rfl,
      fun a => hc.record?_frame (by simp)⟩

theorem Step.mintVoucher {accs voucherId uri}
    (h : Step P s ⟨tx, .program (.mintVoucher accs voucherId uri)⟩ s' cs calls ps) :
    ∃ b c b' c' v bump, s.business? accs.business = some b ∧ s.card? accs.card = some c ∧
      s.voucher? accs.voucher = none ∧ accs.customer ∈ tx.signers ∧ c.business = accs.business ∧
      c.customer = accs.customer ∧
      findProgramAddress P (.voucher accs.business voucherId) = some (accs.voucher, bump) ∧
      mintVoucherHandler tx.now accs bump voucherId uri b c = .ok (b', c', v) ∧
      s'.business? accs.business = some b' ∧
      (∃ nftCycle, s'.card? accs.card = some { c' with nftCycle := nftCycle }) ∧
      s'.voucher? accs.voucher = some v := by
  obtain ⟨he, hc, -⟩ := h
  cases he with
  | mintVoucher hb hcard hs _ hf hfree _ _ _ _ _ hcb hcc _ _ hok =>
    refine ⟨_, _, _, _, _, _, State.business?_eq_some.mpr hb, State.card?_eq_some.mpr hcard, ?_, hs, hcb, hcc,
      hf, hok, State.business?_eq_some.mpr (hc.record? List.mem_cons_self), ⟨_, State.card?_eq_some.mpr
        (hc.record? (List.mem_cons_of_mem _ List.mem_cons_self))⟩,
      State.voucher?_eq_some.mpr
      (hc.record? (List.mem_cons_of_mem _ (List.mem_cons_of_mem _ List.mem_cons_self)))⟩
    rw [State.voucher?, State.record?_of_not_inUse hfree]
    rfl

/-- The mint of a voucher and the account of its token are opened at free addresses. -/
theorem Step.mintVoucher_free {accs voucherId uri}
    (h : Step P s ⟨tx, .program (.mintVoucher accs voucherId uri)⟩ s' cs calls ps) :
    ¬s.InUse accs.mint ∧ ¬s.InUse accs.customerToken ∧
      ∃ bump, findProgramAddress P (.voucherMint accs.business voucherId) = some (accs.mint, bump) := by
  obtain ⟨he, -⟩ := h
  cases he with
  | mintVoucher _ _ _ _ _ _ hf hfree _ hfree' => exact ⟨hfree, hfree', _, hf⟩

theorem Step.redeemVoucher {accs} (h : Step P s ⟨tx, .program (.redeemVoucher accs)⟩ s' cs calls ps) :
    ∃ b v totalRedemptions, s.business? accs.business = some b ∧ s.voucher? accs.voucher = some v ∧
      v.business = accs.business ∧ b.authority = accs.authority ∧ accs.authority ∈ tx.signers ∧
      tx.now ≤ v.expiresAt ∧ s'.voucher? accs.voucher = none ∧ s'.business? accs.business = some
        { b with totalRedemptions := totalRedemptions, openVouchers := satSubU32 b.openVouchers 1 } := by
  obtain ⟨he, hc, -⟩ := h
  cases he with
  | redeemVoucher hb _ hauth hv _ hs _ _ hvb _ _ _ _ _ _ hexp =>
    refine ⟨_, _, _, State.business?_eq_some.mpr hb, State.voucher?_eq_some.mpr hv, hvb, hauth, hs, hexp, ?_,
      State.business?_eq_some.mpr (hc.record? List.mem_cons_self)⟩
    rw [State.voucher?, hc.record? (List.mem_cons_of_mem _ List.mem_cons_self)]
    rfl

theorem Step.closeExpiredVoucher {accs}
    (h : Step P s ⟨tx, .program (.closeExpiredVoucher accs)⟩ s' cs calls ps) :
    ∃ b v, s.business? accs.business = some b ∧ s.voucher? accs.voucher = some v ∧
    v.business = accs.business ∧
      v.expiresAt < tx.now ∧ s'.voucher? accs.voucher = none ∧
      s'.business? accs.business = some { b with openVouchers := satSubU32 b.openVouchers 1 } := by
  obtain ⟨he, hc, -⟩ := h
  cases he with
  | closeExpiredVoucher hv hb _ _ _ _ hvb hexp =>
    refine ⟨_, _, State.business?_eq_some.mpr hb, State.voucher?_eq_some.mpr hv, hvb.symm, hexp, ?_,
      State.business?_eq_some.mpr (hc.record? List.mem_cons_self)⟩
    rw [State.voucher?, hc.record? (List.mem_cons_of_mem _ List.mem_cons_self)]
    rfl

theorem Step.closeDeadCard {accs} (h : Step P s ⟨tx, .program (.closeDeadCard accs)⟩ s' cs calls ps) :
    ∃ b c, s.business? accs.business = some b ∧ s.card? accs.card = some c ∧ c.business = accs.business ∧
      s'.card? accs.card = none ∧
      s'.business? accs.business = some { b with openCards := satSubU32 b.openCards 1 } := by
  obtain ⟨he, hc, -⟩ := h
  cases he with
  | closeDeadCard hcard hb _ _ _ hcb =>
    refine ⟨_, _, State.business?_eq_some.mpr hb, State.card?_eq_some.mpr hcard, hcb.symm, ?_,
      State.business?_eq_some.mpr (hc.record? List.mem_cons_self)⟩
    rw [State.card?, hc.record? (List.mem_cons_of_mem _ List.mem_cons_self)]
    rfl

theorem Step.migrateBusiness {accs} (h : Step P s ⟨tx, .program (.migrateBusiness accs)⟩ s' cs calls ps) :
    ∃ b, s.face? accs.business = some (.business b) ∧
      s'.business? accs.business = some (upgradeBusiness tx.now accs.relayer b) := by
  obtain ⟨he, hc, -⟩ := h
  cases he with
  | migrateBusiness _ _ _ hf => exact ⟨_, hf, State.business?_eq_some.mpr (hc.record? List.mem_cons_self)⟩

theorem Step.migrateCard {accs} (h : Step P s ⟨tx, .program (.migrateCard accs)⟩ s' cs calls ps) :
    ∃ c, s.face? accs.card = some (.card c.toCardV1) ∧ s'.card? accs.card = some c := by
  obtain ⟨he, hc, -⟩ := h
  cases he with
  | migrateCard _ _ _ _ _ hf _ _ _ _ _ hcard =>
    exact ⟨_, hcard ▸ hf, State.card?_eq_some.mpr (hc.record? List.mem_cons_self)⟩

end Passdari
