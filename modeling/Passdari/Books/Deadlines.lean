/-
Who may do what when. A receipt is claimed until its deadline and cleaned up
after it, and so is a voucher used and cleaned up; every deadline is compared
by each instruction for itself. At the last second of a receipt both sides
pass.
-/
import Passdari.Effect.Refusals

namespace Passdari

open Wire Token2022

variable {P : Platform} {s : State} {l : List Address} {t now : Int64} {i : Instruction}

/-- The instruction goes through at some time or other, the state and the signatures being what they are. -/
def InOrder (P : Platform) (s : State) (l : List Address) (i : Instruction) : Prop :=
  ∃ t s', process P ⟨t, l⟩ i s = .ok s'

/-- At `now` it is refused with `e`. -/
def RefusedAt (P : Platform) (s : State) (l : List Address) (i : Instruction) (now : Int64) (e : ErrorCode) :
    Prop :=
  process P ⟨now, l⟩ i s = .error (.code e)

/-! ## Receipts -/

theorem claim_refused_iff {accs : ClaimReceipt} {secret : Bytes32} {r : Receipt}
    (hr : s.receipt? accs.receipt = some r)
    (h : InOrder P s l (.claimReceipt accs secret)) :
    RefusedAt P s l (.claimReceipt accs secret) now .receiptExpired ↔ r.expiresAt < now := by
  constructor
  · intro hrefused
    by_contra hle
    refine claimReceipt_avoids (e := .code .receiptExpired) rfl (by simp) (by simp) (by simp)
      (fun r' hr' _ => ?_)
      (by simp) hrefused
    rw [hr, Option.some.injEq] at hr'
    exact hr' ▸ Int64.not_lt.mp hle
  · intro hlate
    obtain ⟨t, s', h⟩ := h
    simp only [process, claimReceipt, Except.bind_eq_ok] at h
    obtain ⟨b, hb, r', hr', _, hcustomer, _, hrelayer, _, hpayer, bump, hf, ⟨s₁, c⟩, hc, _, hclose,
      ⟨b', c'⟩, hok, -⟩ := h
    have hload : load Receipt.account s accs.receipt = .ok r := load_eq_ok.mpr (State.receipt?_eq_some.mp hr)
    obtain rfl : r = r' := by rwa [hload, Except.ok.injEq] at hr'
    obtain ⟨⟨_, hsecret⟩, -⟩ := claimReceiptHandler_eq_ok hok
    have hhandler : claimReceiptHandler P now accs bump secret b r c = .error (.code .receiptExpired) := by
      rw [claimReceiptHandler, demand_eq_ok.mpr hsecret, Except.ok_bind, require_pos rfl, Except.ok_bind,
        require_neg (Int64.not_le.mpr hlate), Except.error_bind]
    -- everything before the handler does not look at the clock
    have hcustomer' : signer ⟨now, l⟩ accs.customer = .ok _ := hcustomer
    have hrelayer' : signer ⟨now, l⟩ accs.relayer = .ok _ := hrelayer
    have hc' : createIfNeeded P ⟨now, l⟩ LoyaltyCard.account s accs.relayer accs.card = .ok (s₁, c) := hc
    simp only [RefusedAt, process, claimReceipt, hb, hload, hcustomer', hrelayer', hpayer, hf, hc', hclose,
      hhandler, Except.ok_bind, Except.error_bind]

theorem reclaim_refused_iff {accs : ReclaimExpiredReceipt} {r : Receipt}
    (hr : s.receipt? accs.receipt = some r)
    (h : InOrder P s l (.reclaimExpiredReceipt accs)) :
    RefusedAt P s l (.reclaimExpiredReceipt accs) now .receiptNotYetExpired ↔ now < r.expiresAt := by
  constructor
  · intro hrefused
    by_contra hle
    refine reclaimExpiredReceipt_avoids (e := .code .receiptNotYetExpired) rfl (fun r' hr' _ => ?_) hrefused
    rw [hr, Option.some.injEq] at hr'
    exact hr' ▸ Int64.not_lt.mp hle
  · intro hearly
    obtain ⟨t, s', h⟩ := h
    simp only [process, reclaimExpiredReceipt, Except.bind_eq_ok] at h
    obtain ⟨r', hr', _, hpayer, _, hclose, -⟩ := h
    have hload : load Receipt.account s accs.receipt = .ok r := load_eq_ok.mpr (State.receipt?_eq_some.mp hr)
    obtain rfl : r = r' := by rwa [hload, Except.ok.injEq] at hr'
    simp only [RefusedAt, process, reclaimExpiredReceipt, hload, hpayer, hclose,
      require_neg (Int64.not_le.mpr hearly), Except.ok_bind, Except.error_bind]

/-! ## Vouchers -/

/-- What the holder of the voucher at `V` and its shop can do with it. -/
inductive UsesVoucher (V : Address) : Instruction → Prop
  | present {accs} : accs.voucher = V → UsesVoucher V (.presentVoucher accs)
  | transfer {accs} : accs.voucher = V → UsesVoucher V (.transferVoucher accs)
  | redeem {accs} : accs.voucher = V → UsesVoucher V (.redeemVoucher accs)

theorem present_refused {accs : PresentVoucher} {v : Voucher} (hv : s.voucher? accs.voucher = some v)
    (h : InOrder P s l (.presentVoucher accs)) (hlate : v.expiresAt < now) :
    RefusedAt P s l (.presentVoucher accs) now .voucherExpired := by
  obtain ⟨t, s', h⟩ := h
  simp only [process, presentVoucher, Except.bind_eq_ok] at h
  obtain ⟨v', hv', m, hm, x, hx, _, hsig, _, hmint, _, hholder, _, howner, -⟩ := h
  have hload : load Voucher.account s accs.voucher = .ok v := load_eq_ok.mpr (State.voucher?_eq_some.mp hv)
  obtain rfl : v = v' := by rwa [hload, Except.ok.injEq] at hv'
  have hsig' : signer ⟨now, l⟩ accs.owner = .ok _ := hsig
  simp only [RefusedAt, process, presentVoucher, hload, hm, hx, hsig', hmint, hholder, howner,
    require_neg (Int64.not_le.mpr hlate), Except.ok_bind, Except.error_bind]

theorem transfer_refused {accs : TransferVoucher} {v : Voucher} (hv : s.voucher? accs.voucher = some v)
    (h : InOrder P s l (.transferVoucher accs)) (hlate : v.expiresAt < now) :
    RefusedAt P s l (.transferVoucher accs) now .voucherExpired := by
  obtain ⟨t, s', h⟩ := h
  simp only [process, transferVoucher, Except.bind_eq_ok] at h
  obtain ⟨v', hv', m, hm, x, hx, _, hsig, _, hrel, _, hsys, s₁, hto, _, hmint, _, hpayer, _, hholder, _,
    howner, -⟩ := h
  have hload : load Voucher.account s accs.voucher = .ok v := load_eq_ok.mpr (State.voucher?_eq_some.mp hv)
  obtain rfl : v = v' := by rwa [hload, Except.ok.injEq] at hv'
  have hsig' : signer ⟨now, l⟩ accs.owner = .ok _ := hsig
  have hrel' : signer ⟨now, l⟩ accs.relayer = .ok _ := hrel
  have hto' : receivingToken P ⟨now, l⟩ accs s = .ok s₁ := hto
  simp only [RefusedAt, process, transferVoucher, hload, hm, hx, hsig', hrel', hsys, hto', hmint, hpayer,
    hholder, howner, require_neg (Int64.not_le.mpr hlate), Except.ok_bind, Except.error_bind]

theorem redeem_refused {accs : RedeemVoucher} {v : Voucher} (hv : s.voucher? accs.voucher = some v)
    (h : InOrder P s l (.redeemVoucher accs)) (hlate : v.expiresAt < now) :
    RefusedAt P s l (.redeemVoucher accs) now .voucherExpired := by
  obtain ⟨t, s', h⟩ := h
  simp only [process, redeemVoucher, Except.bind_eq_ok] at h
  obtain ⟨b, hb, v', hv', m, hm, x, hx, _, hsig, _, hrel, _, hsys, _, hbus, _, hmint, _, hclose, _, hholder,
    -⟩ := h
  have hload : load Voucher.account s accs.voucher = .ok v := load_eq_ok.mpr (State.voucher?_eq_some.mp hv)
  obtain rfl : v = v' := by rwa [hload, Except.ok.injEq] at hv'
  have hsig' : signer ⟨now, l⟩ accs.authority = .ok _ := hsig
  have hrel' : signer ⟨now, l⟩ accs.relayer = .ok _ := hrel
  simp only [RefusedAt, process, redeemVoucher, hb, hload, hm, hx, hsig', hrel', hsys, hbus, hmint, hclose,
    hholder, require_neg (Int64.not_le.mpr hlate), Except.ok_bind, Except.error_bind]

/-- A voucher that is in time is not refused for being late. -/
theorem use_refused_iff {V : Address} {v : Voucher} (hv : s.voucher? V = some v) (hi : UsesVoucher V i)
    (h : InOrder P s l i) : RefusedAt P s l i now .voucherExpired ↔ v.expiresAt < now := by
  have hsame : ∀ v', s.voucher? V = some v' → ¬v.expiresAt < now → now ≤ v'.expiresAt := by
    intro v' hv' hle
    rw [hv, Option.some.injEq] at hv'
    exact hv' ▸ Int64.not_lt.mp hle
  constructor
  · intro hrefused
    by_contra hle
    cases hi with
    | present heq =>
      subst heq
      have h : (presentVoucher P ⟨now, l⟩ _ s).Avoids (.code .voucherExpired) :=
        presentVoucher_avoids rfl (by simp) (by simp) (fun v' hv' _ => hsame v' hv' hle)
      exact h hrefused
    | transfer heq =>
      subst heq
      have h : (transferVoucher P ⟨now, l⟩ _ s).Avoids (.code .voucherExpired) :=
        transferVoucher_avoids rfl (by simp) (by simp) (fun v' hv' _ => hsame v' hv' hle)
      exact h hrefused
    | redeem heq =>
      subst heq
      have h : (redeemVoucher P ⟨now, l⟩ _ s).Avoids (.code .voucherExpired) :=
        redeemVoucher_avoids rfl (by simp) (by simp) (fun v' hv' _ => hsame v' hv' hle) (by simp)
      exact h hrefused
  · intro hlate
    cases hi with
    | present heq =>
      subst heq
      exact present_refused hv h hlate
    | transfer heq =>
      subst heq
      exact transfer_refused hv h hlate
    | redeem heq =>
      subst heq
      exact redeem_refused hv h hlate

theorem cleanUp_refused_iff {accs : CloseExpiredVoucher} {v : Voucher} (hv : s.voucher? accs.voucher = some v)
    (h : InOrder P s l (.closeExpiredVoucher accs)) :
    RefusedAt P s l (.closeExpiredVoucher accs) now .voucherNotExpired ↔ now ≤ v.expiresAt := by
  constructor
  · intro hrefused
    by_contra hlt
    refine closeExpiredVoucher_avoids (e := .code .voucherNotExpired) rfl (by simp) (fun v' hv' _ => ?_)
      hrefused
    rw [hv, Option.some.injEq] at hv'
    exact hv' ▸ Int64.not_le.mp hlt
  · intro hearly
    obtain ⟨t, s', h⟩ := h
    simp only [process, closeExpiredVoucher, Except.bind_eq_ok] at h
    obtain ⟨v', hv', b, hb, m, hm, _, hsys, _, hmint, _, hclose, _, hbus, -⟩ := h
    have hload : load Voucher.account s accs.voucher = .ok v := load_eq_ok.mpr (State.voucher?_eq_some.mp hv)
    obtain rfl : v = v' := by rwa [hload, Except.ok.injEq] at hv'
    simp only [RefusedAt, process, closeExpiredVoucher, hload, hb, hm, hsys, hmint, hclose, hbus,
      require_neg (Int64.not_lt.mpr hearly), Except.ok_bind, Except.error_bind]

/-! ## One side or the other -/

/-- **Exactly one side passes its time check**, of a receipt at every second but the last one, of a voucher
always: whatever is in order otherwise, a claim is refused as too late where a reclaiming is not refused as
too early, and so with the uses and the clean-up of a voucher. -/
theorem one_side_passes_iff (P : Platform) (s : State) (now : Int64) :
    (∀ l accs secret l' accs' r, s.receipt? accs.receipt = some r → accs'.receipt = accs.receipt →
      InOrder P s l (.claimReceipt accs secret) → InOrder P s l' (.reclaimExpiredReceipt accs') →
      ((RefusedAt P s l (.claimReceipt accs secret) now .receiptExpired ↔
        ¬RefusedAt P s l' (.reclaimExpiredReceipt accs') now .receiptNotYetExpired) ↔ now ≠ r.expiresAt)) ∧
    ∀ l i l' accs v, s.voucher? accs.voucher = some v → UsesVoucher accs.voucher i → InOrder P s l i →
      InOrder P s l' (.closeExpiredVoucher accs) →
      (RefusedAt P s l i now .voucherExpired ↔
        ¬RefusedAt P s l' (.closeExpiredVoucher accs) now .voucherNotExpired) := by
  constructor
  · intro l accs secret l' accs' r hr heq hclaim hreclaim
    rw [claim_refused_iff hr hclaim, reclaim_refused_iff (heq ▸ hr) hreclaim, Int64.lt_iff_toInt_lt,
      Int64.lt_iff_toInt_lt, ne_eq, ← Int64.toInt_inj]
    omega
  · intro l i l' accs v hv hi huse hclean
    rw [use_refused_iff hv hi huse, cleanUp_refused_iff hv hclean, Int64.not_le]

namespace Sample

/-- What is passed to the calls on the receipt of the secret 8 and on the first voucher. -/
def claimAccounts : ClaimReceipt := ⟨shop, .receipt shop (hash 8) 255, card 9, key 9, key 2, key 2⟩
def presentAccounts : PresentVoucher := ⟨voucher 0, voucherMint 0, voucherToken 9 0, key 9⟩
def cleanUpAccounts : CloseExpiredVoucher := ⟨voucher 0, shop, voucherMint 0, voucherToken 9 0, key 2⟩

end Sample

/-- A receipt and a voucher that are out, and all four calls on them in order. -/
theorem one_side_passes_out : ∃ s r v, s.receipt? (.receipt Sample.shop (Sample.hash 8) 255) = some r ∧
    s.voucher? (Sample.voucher 0) = some v ∧
    ((RefusedAt Sample.platform s [Sample.key 9, Sample.key 2]
      (.claimReceipt Sample.claimAccounts (Sample.hash 8)) 1700
        .receiptExpired ↔ ¬RefusedAt Sample.platform s []
        (.reclaimExpiredReceipt ⟨.receipt Sample.shop (Sample.hash 8) 255, Sample.key 2⟩) 1700
        .receiptNotYetExpired) ↔
      1700 ≠ r.expiresAt) ∧
    (RefusedAt Sample.platform s [Sample.key 9] (.presentVoucher Sample.presentAccounts) 1700
      .voucherExpired ↔
      ¬RefusedAt Sample.platform s [] (.closeExpiredVoucher Sample.cleanUpAccounts) 1700
      .voucherNotExpired) := by
  obtain ⟨hist, s, -, -, hp⟩ := Leads.run (P := Sample.platform) (s := Sample.start)
    (l := [Sample.register 1000 1 0, Sample.issue 1010 7, Sample.issue 1010 8, Sample.claim 1020 9 7,
      Sample.cashIn 1030 9 0])
    (p := fun s => (s.receipt? (.receipt Sample.shop (Sample.hash 8) 255)).isSome &&
      (s.voucher? (Sample.voucher 0)).isSome &&
      Leads Sample.platform s [Sample.claim 1100 9 8] (fun _ => true) &&
      Leads Sample.platform s [Sample.call 1700 []
        (.reclaimExpiredReceipt ⟨.receipt Sample.shop (Sample.hash 8) 255, Sample.key 2⟩)] (fun _ => true) &&
      Leads Sample.platform s [Sample.present 1100 9 0] (fun _ => true) &&
      Leads Sample.platform s [Sample.call 9000000 [] (.closeExpiredVoucher Sample.cleanUpAccounts)] fun _ =>
      true)
    (by decide +kernel)
  simp only [Bool.and_eq_true, Option.isSome_iff_exists] at hp
  obtain ⟨⟨⟨⟨⟨⟨r, hr⟩, v, hv⟩, hclaim⟩, hreclaim⟩, hpresent⟩, hclean⟩ := hp
  obtain ⟨s₁, ⟨-, h₁⟩, -⟩ := Leads.step hclaim
  obtain ⟨s₂, ⟨-, h₂⟩, -⟩ := Leads.step hreclaim
  obtain ⟨s₃, ⟨-, h₃⟩, -⟩ := Leads.step hpresent
  obtain ⟨s₄, ⟨-, h₄⟩, -⟩ := Leads.step hclean
  obtain ⟨hreceipt, hvoucher⟩ := one_side_passes_iff Sample.platform s 1700
  exact ⟨s, r, v, hr, hv, hreceipt _ Sample.claimAccounts _ _ _ r hr rfl ⟨1100, s₁, h₁⟩ ⟨1700, s₂, h₂⟩,
    hvoucher _ _ _ Sample.cleanUpAccounts v hv (.present rfl) ⟨1100, s₃, h₃⟩ ⟨9000000, s₄, h₄⟩⟩

/-- **At its last second a receipt can be claimed, and reclaimed by anybody**: whichever comes first wins. -/
theorem receipt_destroyed_in_time : ∃ hist s r, Run Sample.platform Sample.start hist s ∧
    s.receipt? (.receipt Sample.shop (Sample.hash 7) 255) = some r ∧ r.expiresAt = 1610 ∧
    (∃ s', Next Sample.platform s (Sample.claim 1610 9 7) s') ∧
    ∃ s', Next Sample.platform s (Sample.call 1610 [] (.reclaimExpiredReceipt
      ⟨.receipt Sample.shop (Sample.hash 7) 255, Sample.key 2⟩)) s' := by
  obtain ⟨hist, s, hrun, -, hp⟩ := Leads.run (P := Sample.platform) (s := Sample.start)
    (l := [Sample.register 1000 1 0, Sample.issue 1010 7])
    (p := fun s => (s.receipt? (.receipt Sample.shop (Sample.hash 7) 255)).any
      (fun r : Receipt => r.expiresAt == 1610) &&
      Leads Sample.platform s [Sample.claim 1610 9 7] (fun _ => true) &&
      Leads Sample.platform s [Sample.call 1610 [] (.reclaimExpiredReceipt
        ⟨.receipt Sample.shop (Sample.hash 7) 255, Sample.key 2⟩)] fun _ => true) (by decide +kernel)
  simp only [Bool.and_eq_true, Option.any_eq_true] at hp
  obtain ⟨⟨⟨r, hr, hexp⟩, hclaim⟩, hreclaim⟩ := hp
  obtain ⟨s₁, hn₁, -⟩ := Leads.step hclaim
  obtain ⟨s₂, hn₂, -⟩ := Leads.step hreclaim
  exact ⟨hist, s, r, hrun, hr, eq_of_beq hexp, ⟨s₁, hn₁⟩, s₂, hn₂⟩

end Passdari
