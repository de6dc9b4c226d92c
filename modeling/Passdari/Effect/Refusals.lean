/-
What each instruction can fail with itself: its own errors and overflow. Each
of its checks is named with what it needs to pass; account checks and calls
into other programs have errors of their own and need nothing.
-/
import Passdari.Effect.Failures
import Passdari.Effect.Accounts

namespace Passdari

open Wire Token2022

variable {P : Platform} {tx : Tx} {s : State} {e : Failure} {now : Int64}

/-! ## Receipts -/

theorem closeConstraint_avoids {a recorded payer : Address} (h : e.isOwn = true) :
    (closeConstraint a recorded payer).Avoids e :=
  (check_avoids (Failure.ne_anchor h)).bind fun _ _ => check_avoids (Failure.ne_anchor h)

theorem systemAccount_avoids {a : Address} (h : e.isOwn = true) : (systemAccount s a).Avoids e :=
  check_avoids (Failure.ne_anchor h)

theorem hasOne_avoids {a b : Address} (h : e.isOwn = true) : (hasOne a b).Avoids e :=
    check_avoids (Failure.ne_anchor h)

theorem createIfNeeded_avoids {α : Type} {T : AccountType α} {payer a : Address} (h : e.isOwn = true) :
    (createIfNeeded P tx T s payer a).Avoids e :=
  .ite ((load_avoids h).bind fun _ _ => (check_avoids (Failure.ne_anchor h)).bind fun _ _ =>
    Except.avoids_pure _)
    ((create_avoids h).bind fun _ _ => Except.avoids_pure _)

theorem ownBusiness_avoids {business authority : Address} (h : e.isOwn = true) :
    (ownBusiness P s business authority).Avoids e :=
  (load_avoids h).bind fun _ _ => (seedsConstraintWith_avoids h).bind fun _ _ =>
    (hasOne_avoids h).bind fun _ _ =>
    Except.avoids_pure _

/-- A receipt is reclaimed unless its time has not come. -/
theorem reclaimExpiredReceipt_avoids {accs : ReclaimExpiredReceipt} (h : e.isOwn = true)
    (htime : ∀ r, s.receipt? accs.receipt = some r → .code .receiptNotYetExpired = e → r.expiresAt ≤ tx.now) :
    (reclaimExpiredReceipt tx accs s).Avoids e := by
  refine (load_avoids h).bind fun r hr => (systemAccount_avoids h).bind fun _ _ =>
    (closeConstraint_avoids h).bind fun _ _ => (require_avoids ?_).bind fun _ _ => Except.avoids_pure _
  exact htime r (State.receipt?_eq_some.mpr (load_eq_ok.mp hr))

/-- The difference of two times is a time. -/
def InRange (n : Int) : Prop := -2 ^ 63 ≤ n ∧ n < 2 ^ 63

/-- Nothing on the card leaves its type with one more stamp now. -/
structure StampFits (now : Int64) (card : LoyaltyCard) : Prop where
  since : card.lastStampTs ≠ 0 → InRange (now.toInt - card.lastStampTs.toInt)
  window : InRange (now.toInt - card.claimsWindowStart.toInt)
  stamps : card.stamps.toNat + 1 < 2 ^ 8
  lifetime : card.lifetimeStamps.toNat + 1 < 2 ^ 32

theorem checkCooldown_avoids {card : LoyaltyCard} (hcode : .code .stampCooldownActive ≠ e)
    (hfits : .overflow = e → card.lastStampTs ≠ 0 → InRange (now.toInt - card.lastStampTs.toInt)) :
    (checkCooldown now card).Avoids e := by
  unfold checkCooldown
  split
  · next h0 =>
    exact (subI64_avoids fun he => hfits he h0).bind fun _ _ => require_avoids fun he => absurd he hcode
  · exact Except.avoids_pure _

theorem stampCard_avoids {card : LoyaltyCard} (hcool : .code .stampCooldownActive ≠ e)
    (hrate : .code .claimRateLimitExceeded ≠ e) (hfits : .overflow = e → StampFits now card) :
    (stampCard now card).Avoids e := by
  refine (checkCooldown_avoids hcool fun he => (hfits he).since).bind fun _ _ =>
    (subI64_avoids fun he => (hfits he).window).bind fun elapsed _ => ?_
  -- the window is restarted after a day, and the count is below its limit either way
  have hrest : ∀ x : LoyaltyCard, x.stamps = card.stamps → x.lifetimeStamps = card.lifetimeStamps →
      (require (x.claimsThisWindow < maxClaimsPerCardPerDay) .claimRateLimitExceeded >>= fun _ =>
        addU32 x.claimsThisWindow 1 >>= fun n => addU8 x.stamps 1 >>= fun st =>
        addU32 x.lifetimeStamps 1 >>= fun li =>
          (pure { x with claimsThisWindow := n, stamps := st, lastStampTs := now, lifetimeStamps := li } :
            Except Failure LoyaltyCard)).Avoids e := by
    intro x hst hli
    refine (require_avoids fun he => absurd he hrate).bind fun _ hlt =>
      (addU32_avoids fun _ => ?_).bind fun _ _ =>
      (addU8_avoids fun he => ?_).bind fun _ _ => (addU32_avoids fun he => ?_).bind fun _ _ =>
        Except.avoids_pure _
    · have := UInt32.lt_iff_toNat_lt.mp (require_eq_ok.mp hlt)
      have hmax : maxClaimsPerCardPerDay.toNat = 20 := rfl
      simp only [UInt32.toNat_one]
      omega
    · rw [hst]
      exact (hfits he).stamps
    · rw [hli]
      exact (hfits he).lifetime
  exact hrest _ (by split <;> rfl) (by split <;> rfl)

/-- The shop's own counters have room for a new card. -/
theorem openCard_avoids {accs : ClaimReceipt} {bump : UInt8} {b : Business} {card : LoyaltyCard}
    (hfits : .overflow = e → card.business = .default → b.totalCards.toNat + 1 < 2 ^ 32 ∧
      b.openCards.toNat + 1 < 2 ^ 32) :
    (openCard accs bump b card).Avoids e := by
  unfold openCard
  split
  · next h0 =>
    exact (addU32_avoids fun he => (hfits he h0).1).bind fun _ _ =>
      (addU32_avoids fun he => (hfits he h0).2).bind fun _ _ =>
      Except.avoids_pure _
  · exact Except.avoids_pure _

/-- Nothing on the shop or the card leaves its type with one more stamp now. -/
structure ClaimFits (now : Int64) (b : Business) (card : LoyaltyCard) : Prop where
  opens : card.business = .default → b.totalCards.toNat + 1 < 2 ^ 32 ∧ b.openCards.toNat + 1 < 2 ^ 32
  stamp : StampFits now card
  total : b.totalStampsIssued.toNat + 1 < 2 ^ 64

theorem claimReceiptHandler_avoids {accs : ClaimReceipt} {bump : UInt8} {secret : Bytes32} {b : Business}
    {r : Receipt}
    {card : LoyaltyCard} (h : e.isOwn = true) (hsecret : .code .invalidSecret ≠ e)
    (hcool : .code .stampCooldownActive ≠ e) (hrate : .code .claimRateLimitExceeded ≠ e)
    (htime : .code .receiptExpired = e → now ≤ r.expiresAt) (hfits : .overflow = e → ClaimFits now b card) :
    (claimReceiptHandler P now accs bump secret b r card).Avoids e := by
  refine (demand_avoids (Failure.ne_system h)).bind fun _ _ =>
    (require_avoids fun he => absurd he hsecret).bind fun _ _ =>
    (require_avoids htime).bind fun _ _ => (openCard_avoids fun he => (hfits he).opens).bind fun ⟨b₁, c₁⟩
      hopen => ?_
  obtain ⟨htotal, hstamp⟩ : b₁.totalStampsIssued = b.totalStampsIssued ∧
    (StampFits now card → StampFits now c₁) := by
    rcases openCard_eq_ok hopen with ⟨-, _, _, -, -, rfl, rfl⟩ | ⟨-, rfl, rfl⟩
    · exact ⟨rfl, fun hf => ⟨hf.since, hf.window, hf.stamps, hf.lifetime⟩⟩
    · exact ⟨rfl, id⟩
  refine (stampCard_avoids hcool hrate fun he => hstamp (hfits he).stamp).bind fun _ _ =>
    (addU64_avoids fun he => ?_).bind fun _ _ => Except.avoids_pure _
  rw [htotal]
  exact (hfits he).total

/-- A claim in order is refused when the receipt's time is over, and else only where the stamp does not
fit. -/
theorem claimReceipt_avoids {accs : ClaimReceipt} {secret : Bytes32} (h : e.isOwn = true)
    (hsecret : .code .invalidSecret ≠ e) (hcool : .code .stampCooldownActive ≠ e)
    (hrate : .code .claimRateLimitExceeded ≠ e)
    (htime : ∀ r, s.receipt? accs.receipt = some r → .code .receiptExpired = e → tx.now ≤ r.expiresAt)
    (hfits : .overflow = e → ∀ b c, s.business? accs.business = some b →
      s.card? accs.card = some c ∨ c = LoyaltyCard.account.zeroed → ClaimFits tx.now b c) :
    (claimReceipt P tx accs secret s).Avoids e := by
  refine (load_avoids h).bind fun b hb => (load_avoids h).bind fun r hr => (signer_avoids h).bind fun _ _ =>
    (signer_avoids h).bind fun _ _ => (systemAccount_avoids h).bind fun _ _ =>
      (seedsConstraint_avoids h).bind fun _ _ =>
    (createIfNeeded_avoids h).bind fun ⟨s₁, c⟩ hc => (closeConstraint_avoids h).bind fun _ _ => ?_
  refine (claimReceiptHandler_avoids h hsecret hcool hrate ?_ ?_).bind fun _ _ =>
    (store_avoids h).bind fun _ _ =>
    store_avoids h
  · exact htime r (State.receipt?_eq_some.mpr (load_eq_ok.mp hr))
  · refine fun he => hfits he b c (State.business?_eq_some.mpr (load_eq_ok.mp hb)) ?_
    rcases createIfNeeded_eq_ok hc with ⟨-, hcard⟩ | ⟨hnew, -⟩
    · exact .inl (State.card?_eq_some.mpr hcard)
    · exact .inr hnew

/-! ## Vouchers -/

section Vouchers

variable {signers : List Address} {v : Voucher}

theorem holderConstraints_avoids {x : Account Address} {mint : Address} {frozen : Bool} {c : ErrorCode}
    (h : e.isOwn = true)
    (hholder : .code .notVoucherHolder ≠ e) (hc : .code c ≠ e) :
    (holderConstraints x mint frozen c).Avoids e :=
  (require_avoids fun he => absurd he hholder).bind fun _ _ =>
    (require_avoids fun he => absurd he hc).bind fun _ _ =>
    check_avoids (Failure.ne_anchor h)

theorem ownerConstraint_avoids {x : Account Address} {owner : Address} (h : e.isOwn = true) :
    (ownerConstraint x owner).Avoids e := check_avoids (Failure.ne_anchor h)

theorem presentVoucher_avoids {accs : PresentVoucher} (h : e.isOwn = true)
    (hholder : .code .notVoucherHolder ≠ e)
    (hpending : .code .voucherPending ≠ e)
    (htime : ∀ v, s.voucher? accs.voucher = some v → .code .voucherExpired = e → tx.now ≤ v.expiresAt) :
    (presentVoucher P tx accs s).Avoids e := by
  refine (load_avoids h).bind fun v hv => (loadMint_avoids h).bind fun _ _ =>
    (loadToken_avoids h).bind fun _ _ =>
    (signer_avoids h).bind fun _ _ => (hasOne_avoids h).bind fun _ _ =>
    (holderConstraints_avoids h hholder hpending).bind fun _ _ => (ownerConstraint_avoids h).bind fun _ _ =>
    (require_avoids ?_).bind fun _ _ => (withSigner_avoids h).bind fun _ _ =>
    .ite ((invoke_avoids h).bind fun _ _ => invoke_avoids h) (invoke_avoids h)
  exact htime v (State.voucher?_eq_some.mpr (load_eq_ok.mp hv))

theorem cancelPresentation_avoids {accs : CancelPresentation} (h : e.isOwn = true)
    (hholder : .code .notVoucherHolder ≠ e)
    (hpresented : .code .voucherNotPresented ≠ e) : (cancelPresentation P tx accs s).Avoids e :=
  (load_avoids h).bind fun _ _ => (loadMint_avoids h).bind fun _ _ => (loadToken_avoids h).bind fun _ _ =>
    (signer_avoids h).bind fun _ _ => (hasOne_avoids h).bind fun _ _ =>
    (holderConstraints_avoids h hholder hpresented).bind fun _ _ => (ownerConstraint_avoids h).bind fun _ _ =>
    (withSigner_avoids h).bind fun _ _ => invoke_avoids h

theorem receivingToken_avoids {accs : TransferVoucher} (h : e.isOwn = true) :
    (receivingToken P tx accs s).Avoids e :=
  .ite ((loadToken_avoids h).bind fun _ _ => (check_avoids (Failure.ne_anchor h)).bind fun _ _ =>
    (check_avoids (Failure.ne_anchor h)).bind fun _ _ => (check_avoids (Failure.ne_anchor h)).bind fun _ _ =>
      Except.avoids_pure _) (createAssociatedToken_avoids h)

theorem transferVoucher_avoids {accs : TransferVoucher} (h : e.isOwn = true)
    (hholder : .code .notVoucherHolder ≠ e)
    (hpending : .code .voucherPending ≠ e)
    (htime : ∀ v, s.voucher? accs.voucher = some v → .code .voucherExpired = e → tx.now ≤ v.expiresAt) :
    (transferVoucher P tx accs s).Avoids e := by
  refine (load_avoids h).bind fun v hv => (loadMint_avoids h).bind fun _ _ =>
    (loadToken_avoids h).bind fun _ _ =>
    (signer_avoids h).bind fun _ _ => (signer_avoids h).bind fun _ _ =>
      (systemAccount_avoids h).bind fun _ _ =>
    (receivingToken_avoids h).bind fun _ _ => (hasOne_avoids h).bind fun _ _ =>
      (hasOne_avoids h).bind fun _ _ =>
    (holderConstraints_avoids h hholder hpending).bind fun _ _ => (ownerConstraint_avoids h).bind fun _ _ =>
    (require_avoids ?_).bind fun _ _ => (invoke_avoids h).bind fun _ _ =>
      (withSigner_avoids h).bind fun _ _ => ?_
  · exact htime v (State.voucher?_eq_some.mpr (load_eq_ok.mp hv))
  · have hclose : ∀ {s : State} {l who}, (invokeClose l s accs.fromToken accs.rentPayer who >>= fun s =>
        store Voucher.account s accs.voucher { v with owner := accs.newOwner }).Avoids e :=
      (invokeClose_avoids h).bind fun _ _ => store_avoids h
    exact .ite hclose (.ite hclose (store_avoids h))

theorem closeVoucherMint_avoids {voucher mint payer : Address} {m : Mint Address} (h : e.isOwn = true) :
    (closeVoucherMint signers voucher mint payer m s).Avoids e :=
    .ite (invokeClose_avoids h) (Except.avoids_pure _)

theorem redeemVoucher_avoids {accs : RedeemVoucher} (h : e.isOwn = true)
    (hholder : .code .notVoucherHolder ≠ e)
    (hpresented : .code .voucherNotPresented ≠ e)
    (htime : ∀ v, s.voucher? accs.voucher = some v → .code .voucherExpired = e → tx.now ≤ v.expiresAt)
    (hfits : .overflow = e → ∀ b, s.business? accs.business = some b →
      b.totalRedemptions.toNat + 1 < 2 ^ 32) :
    (redeemVoucher P tx accs s).Avoids e := by
  refine (ownBusiness_avoids h).bind fun b hb => (load_avoids h).bind fun v hv =>
    (loadMint_avoids h).bind fun _ _ =>
    (loadToken_avoids h).bind fun _ _ => (signer_avoids h).bind fun _ _ => (signer_avoids h).bind fun _ _ =>
    (systemAccount_avoids h).bind fun _ _ => (hasOne_avoids h).bind fun _ _ =>
      (hasOne_avoids h).bind fun _ _ =>
    (closeConstraint_avoids h).bind fun _ _ => (holderConstraints_avoids h hholder hpresented).bind fun _ _ =>
    (require_avoids ?_).bind fun _ _ => (withSigner_avoids h).bind fun _ _ =>
      (invoke_avoids h).bind fun _ _ =>
    (invoke_avoids h).bind fun _ _ => ?_
  · exact htime v (State.voucher?_eq_some.mpr (load_eq_ok.mp hv))
  · have hrest : ∀ (l : List Address) (s : State), (loadMint s accs.mint >>= fun m =>
        closeVoucherMint l accs.voucher accs.mint accs.rentPayer m s >>= fun s =>
        addU32 b.totalRedemptions 1 >>= fun n =>
          store Business.account s accs.business
            { b with totalRedemptions := n, openVouchers := satSubU32 b.openVouchers 1 } >>= fun s =>
              pure (close s accs.voucher accs.rentPayer)).Avoids e := fun _ _ =>
      (loadMint_avoids h).bind fun _ _ => (closeVoucherMint_avoids h).bind fun _ _ =>
        (addU32_avoids fun he => hfits he b (State.business?_eq_some.mpr (ownBusiness_eq_ok.mp hb).1)).bind
          fun _ _ =>
          (store_avoids h).bind fun _ _ => Except.avoids_pure _
    exact .ite ((invokeClose_avoids h).bind fun _ _ => hrest _ _) (hrest _ _)

theorem burnExpired_avoids {accs : CloseExpiredVoucher} {decimals : Nat} (h : e.isOwn = true)
    (hholder : .code .notVoucherHolder ≠ e) : (burnExpired accs signers decimals s).Avoids e := by
  unfold burnExpired
  refine .ite ((loadToken_avoids h).bind fun x _ =>
    (require_avoids fun he => absurd he hholder).bind fun _ _ => ?_)
    (Except.avoids_pure _)
  have hclose : ∀ s : State, (if x.closeAuthority = some accs.voucher then
      invokeClose signers s accs.holderToken accs.rentPayer accs.voucher else pure s).Avoids e := fun _ =>
    .ite (invokeClose_avoids h) (Except.avoids_pure _)
  have hburn : ∀ s : State,
    (invoke signers s (.burn accs.holderToken accs.mint accs.voucher x.amount decimals) >>= fun s =>
      if x.closeAuthority = some accs.voucher then
        invokeClose signers s accs.holderToken accs.rentPayer accs.voucher else pure s).Avoids e := fun _ =>
    (invoke_avoids h).bind fun _ _ => hclose _
  exact .ite (.ite ((invoke_avoids h).bind fun _ _ => hburn _) (hburn _)) (hclose _)

theorem closeExpiredVoucher_avoids {accs : CloseExpiredVoucher} (h : e.isOwn = true)
    (hholder : .code .notVoucherHolder ≠ e)
    (htime : ∀ v, s.voucher? accs.voucher = some v → .code .voucherNotExpired = e → v.expiresAt < tx.now) :
    (closeExpiredVoucher P tx accs s).Avoids e := by
  refine (load_avoids h).bind fun v hv => (load_avoids h).bind fun _ _ => (loadMint_avoids h).bind fun _ _ =>
    (systemAccount_avoids h).bind fun _ _ => (hasOne_avoids h).bind fun _ _ =>
      (closeConstraint_avoids h).bind fun _ _ =>
    (check_avoids (Failure.ne_anchor h)).bind fun _ _ => (require_avoids ?_).bind fun _ _ =>
    (withSigner_avoids h).bind fun _ _ => (burnExpired_avoids h hholder).bind fun _ _ =>
      (loadMint_avoids h).bind fun _ _ =>
    (require_avoids fun he => absurd he hholder).bind fun _ _ => (closeVoucherMint_avoids h).bind fun _ _ =>
    (store_avoids h).bind fun _ _ => Except.avoids_pure _
  exact htime v (State.voucher?_eq_some.mpr (load_eq_ok.mp hv))

end Vouchers

/-! ## Cashing in -/

/-- The threshold check fails for want of stamps only; the subtraction after it always fits. -/
theorem cashIn_avoids {b : Business} {c : LoyaltyCard}
    (h : .code .notEnoughStamps = e → c.stampsRequiredSnapshot ≤ c.stamps) : (cashIn b c).Avoids e :=
  (require_avoids h).bind fun _ hle =>
    (subU8_avoids fun _ => UInt8.le_iff_toNat_le.mp (require_eq_ok.mp hle)).bind fun _ _ =>
    Except.avoids_pure _

/-- Nothing leaves its type when a voucher is minted now. -/
structure MintFits (now : Int64) (b : Business) (c : LoyaltyCard) : Prop where
  expires : InRange (now.toInt + voucherValidSeconds.toInt)
  issued : b.totalVouchersIssued.toNat + 1 < 2 ^ 64
  opened : b.openVouchers.toNat + 1 < 2 ^ 32
  cycle : c.nftCycle.toNat + 1 < 2 ^ 32

theorem mintVoucherHandler_avoids {accs : MintVoucher} {bump : UInt8} {voucherId : UInt64} {uri : Text}
    {b : Business}
    {c : LoyaltyCard} (huri : .code .uriTooLong ≠ e) (hid : .code .invalidVoucherId ≠ e)
    (hstamps : .code .notEnoughStamps = e → c.stampsRequiredSnapshot ≤ c.stamps)
    (hfits : .overflow = e → MintFits now b c) :
    (mintVoucherHandler now accs bump voucherId uri b c).Avoids e :=
  (require_avoids fun he => absurd he huri).bind fun _ _ =>
    (require_avoids fun he => absurd he hid).bind fun _ _ =>
    (cashIn_avoids hstamps).bind fun _ _ => (addI64_avoids fun he => (hfits he).expires).bind fun _ _ =>
      (addU64_avoids fun he => (hfits he).issued).bind fun _ _ =>
        (addU32_avoids fun he => (hfits he).opened).bind fun _ _ =>
        Except.avoids_pure _

theorem retireCardNft_avoids {accs : MintVoucher} {c : LoyaltyCard} (h : e.isOwn = true)
    (hpayer : .code .wrongRentPayer ≠ e) :
    (retireCardNft P tx accs c s).Avoids e := by
  have hburn : ∀ dest, (withSigner P tx (.card c.business c.customer) c.bump >>= fun signers =>
      burnAndCloseCardNft tx signers accs.card accs.cardMint accs.cardToken
      (some accs.customer) dest s >>= fun s =>
        pure (s, true)).Avoids e := fun _ =>
    (withSigner_avoids h).bind fun _ _ => (burnAndCloseCardNft_avoids h).bind fun _ _ => Except.avoids_pure _
  exact .ite (.ite (hburn _) ((require_avoids fun he => absurd he hpayer).bind fun _ _ => hburn _))
    (Except.avoids_pure _)

/-- A cash-in fails for want of stamps, or where a counter does not fit, and else with none of these. -/
theorem mintVoucher_avoids {accs : MintVoucher} {voucherId : UInt64} {uri : Text} (h : e.isOwn = true)
    (huri : .code .uriTooLong ≠ e) (hid : .code .invalidVoucherId ≠ e) (hpayer : .code .wrongRentPayer ≠ e)
    (hstamps : ∀ c, s.card? accs.card = some c → .code .notEnoughStamps = e →
      c.stampsRequiredSnapshot ≤ c.stamps)
    (hfits : .overflow = e → ∀ b c, s.business? accs.business = some b → s.card? accs.card = some c →
      MintFits tx.now b c) :
    (mintVoucher P tx accs voucherId uri s).Avoids e := by
  refine (load_avoids h).bind fun b hb => (load_avoids h).bind fun c hc => ?_
  have hbus := State.business?_eq_some.mpr (load_eq_ok.mp hb)
  have hcard := State.card?_eq_some.mpr (load_eq_ok.mp hc)
  refine (signer_avoids h).bind fun _ _ => (signer_avoids h).bind fun _ _ =>
    (seedsConstraint_avoids h).bind fun _ _ => (create_avoids h).bind fun _ _ =>
    (seedsConstraint_avoids h).bind fun _ _ => (createAddress_avoids h).bind fun _ _ =>
    (invoke_avoids h).bind fun _ _ => (createAssociatedToken_avoids h).bind fun _ _ =>
    (seedsConstraintWith_avoids h).bind fun _ _ => (seedsConstraint_avoids h).bind fun _ _ =>
    (check_avoids (Failure.ne_anchor h)).bind fun _ _ =>
    (mintVoucherHandler_avoids huri hid (hstamps c hcard) fun he => hfits he b c hbus hcard).bind
      fun ⟨b', c', v⟩ hok =>
    (withSigner_avoids h).bind fun _ _ => (mintVoucherTokens_avoids h).bind fun _ _ =>
    (retireCardNft_avoids h hpayer).bind fun _ _ => ?_
  have hstores : ∀ (s : State) (b : Business) (y : LoyaltyCard) (v : Voucher),
      (store Business.account s accs.business b >>= fun s =>
        store LoyaltyCard.account s accs.card y >>= fun s =>
        store Voucher.account s accs.voucher v).Avoids e := fun _ _ _ _ =>
    (store_avoids h).bind fun _ _ => (store_avoids h).bind fun _ _ => store_avoids h
  refine .ite ((addU32_avoids fun he => ?_).bind fun _ _ => hstores _ _ _ _) (hstores _ _ _ _)
  -- cashing in leaves the cycle to the NFT's own step
  obtain ⟨-, -, hcash, -⟩ := mintVoucherHandler_eq_ok hok
  obtain ⟨_, -, rfl⟩ := cashIn_eq_ok hcash
  exact (hfits he b c hbus hcard).cycle

end Passdari
