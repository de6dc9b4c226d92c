/-
Where the arithmetic of an instruction can leave its type. Most of it is
guarded by a check or cannot get that far; what is left is a counter at its
limit, or a clock out of step with the times on record, and each is named
here with the instruction that would run into it.
-/
import Passdari.Effect.Refusals

namespace Passdari

open Wire Token2022

variable {P : Platform} {tx : Tx} {s : State} {now : Int64}

theorem require_no_overflow {p : Prop} [Decidable p] {c : ErrorCode} : (require p c).Avoids .overflow :=
  require_avoids (by simp)

theorem demand_no_overflow {α : Type} {o : Option α} {c : ErrorCode} :
    (demand o (Failure.code c)).Avoids .overflow :=
  demand_avoids (by simp)

/-! ## A shop's own instructions -/

theorem checkSettings_no_overflow {name category rewardLabel : Text} {stampsRequired : UInt8} {ttl : UInt32} :
    (checkSettings name category rewardLabel stampsRequired ttl).Avoids .overflow :=
  require_no_overflow.bind fun _ _ => require_no_overflow.bind fun _ _ => require_no_overflow.bind fun _ _ =>
    require_no_overflow.bind fun _ _ => require_no_overflow.bind fun _ _ =>
      require_no_overflow.bind fun _ _ =>
    require_no_overflow.bind fun _ _ => require_no_overflow

/-- A date is only taken from the clock once it is known to lie ahead. -/
theorem checkTermsLock_no_overflow {lock proposed : Int64} (h0 : 0 ≤ now.toInt) :
    (checkTermsLock now lock proposed).Avoids .overflow := by
  have hsub : now ≤ proposed → (subI64 proposed now).Avoids .overflow := by
    intro hle
    refine subI64_avoids fun _ => ?_
    have := Int64.le_iff_toInt_le.mp hle
    have := proposed.toInt_lt
    omega
  unfold checkTermsLock
  split
  · exact Except.avoids_pure _
  · refine require_no_overflow.bind fun _ hpast => (hsub (require_eq_ok.mp hpast)).bind fun _ _ =>
      require_no_overflow.bind fun _ _ => .ite ?_ (Except.avoids_pure _)
    exact (hsub (require_eq_ok.mp hpast)).bind fun _ _ => require_no_overflow

theorem initializeHandler_no_overflow {accs : Initialize} :
    (initializeHandler P tx accs s).Avoids .overflow :=
  (signer_avoids rfl).bind fun _ _ => (seedsConstraint_avoids rfl).bind fun _ _ =>
    (create_avoids rfl).bind fun _ _ =>
    store_avoids rfl

theorem registerBusiness_no_overflow {accs : RegisterBusiness} {args : RegisterBusinessArgs}
    (h0 : 0 ≤ tx.now.toInt) :
    (registerBusiness P tx accs args s).Avoids .overflow := by
  refine (signer_avoids rfl).bind fun _ _ => (signer_avoids rfl).bind fun _ _ =>
    (seedsConstraint_avoids rfl).bind fun _ _ =>
    (create_avoids rfl).bind fun _ _ => Except.Avoids.bind ?_ fun _ _ => store_avoids rfl
  exact checkSettings_no_overflow.bind fun _ _ => (checkTermsLock_no_overflow h0).bind fun _ _ =>
    require_no_overflow.bind fun _ _ => Except.avoids_pure _

theorem updateBusinessConfig_no_overflow {accs : UpdateBusinessConfig} {args : UpdateBusinessConfigArgs}
    (h0 : 0 ≤ tx.now.toInt) : (updateBusinessConfig P tx accs args s).Avoids .overflow := by
  refine (signer_avoids rfl).bind fun _ _ => (ownBusiness_avoids rfl).bind fun _ _ =>
    Except.Avoids.bind ?_ fun _ _ => store_avoids rfl
  exact checkSettings_no_overflow.bind fun _ _ => require_no_overflow.bind fun _ _ =>
    (checkTermsLock_no_overflow h0).bind fun _ _ => Except.avoids_pure _

theorem closeBusiness_no_overflow {accs : CloseBusiness} : (closeBusiness P tx accs s).Avoids .overflow := by
  refine (load_avoids rfl).bind fun _ _ => (systemAccount_avoids rfl).bind fun _ _ =>
    (seedsConstraintWith_avoids rfl).bind fun _ _ => (closeConstraint_avoids rfl).bind fun _ _ =>
    Except.Avoids.bind ?_ fun _ _ => Except.avoids_pure _
  exact require_no_overflow.bind fun _ _ => require_no_overflow.bind fun _ _ => require_no_overflow

/-! ## Receipts and stamps -/

theorem issueReceiptHandler_no_overflow {accs : IssueReceipt} {bump band : UInt8} {b : Business}
    (hstart : InRange (now.toInt - b.receiptsWindowStart.toInt))
    (hexpires : InRange (now.toInt + b.receiptTtlSeconds.toNat)) :
    (issueReceiptHandler now accs bump band b).Avoids .overflow := by
  have httl : (Int64.ofNat b.receiptTtlSeconds.toNat).toInt = b.receiptTtlSeconds.toNat := by
    have := b.receiptTtlSeconds.toNat_lt
    exact Int64.toInt_ofNat_of_lt (by omega)
  refine require_no_overflow.bind fun _ _ => (subI64_avoids fun _ => hstart).bind fun elapsed _ => ?_
  -- the window is restarted after an hour, and the count is below its limit either way
  have hrest : ∀ x : Business, x.receiptTtlSeconds = b.receiptTtlSeconds →
      (require (x.receiptsThisWindow < maxReceiptsPerHour) .receiptRateLimitExceeded >>= fun _ =>
        addU32 x.receiptsThisWindow 1 >>= fun n =>
        addI64 now (Int64.ofNat x.receiptTtlSeconds.toNat) >>= fun e =>
          (pure ({ x with receiptsThisWindow := n },
            { business := accs.business, amountBand := band, issuedAt := now, expiresAt := e, bump := bump,
              rentPayer := accs.relayer }) : Except Failure (Business × Receipt))).Avoids .overflow := by
    intro x hx
    refine require_no_overflow.bind fun _ hlt => (addU32_avoids fun _ => ?_).bind fun _ _ =>
      (addI64_avoids fun _ => ?_).bind fun _ _ => Except.avoids_pure _
    · have := UInt32.lt_iff_toNat_lt.mp (require_eq_ok.mp hlt)
      have hmax : maxReceiptsPerHour.toNat = 100 := rfl
      simp only [UInt32.toNat_one]
      omega
    · rw [hx, httl]
      exact hexpires
  exact hrest _ (by split <;> rfl)

theorem issueReceipt_no_overflow {accs : IssueReceipt} {secretHash : Bytes32} {band : UInt8}
    (hfits : ∀ b, s.business? accs.business = some b →
      InRange (tx.now.toInt - b.receiptsWindowStart.toInt) ∧
      InRange (tx.now.toInt + b.receiptTtlSeconds.toNat)) :
    (issueReceipt P tx accs secretHash band s).Avoids .overflow := by
  refine (ownBusiness_avoids rfl).bind fun b hb => (signer_avoids rfl).bind fun _ _ =>
    (signer_avoids rfl).bind fun _ _ =>
    (seedsConstraint_avoids rfl).bind fun _ _ => (create_avoids rfl).bind fun _ _ =>
      Except.Avoids.bind ?_ fun _ _ =>
    (store_avoids rfl).bind fun _ _ => store_avoids rfl
  obtain ⟨hstart, hexpires⟩ := hfits b (State.business?_eq_some.mpr (ownBusiness_eq_ok.mp hb).1)
  exact issueReceiptHandler_no_overflow hstart hexpires

/-- Every step of a transfer is checked, and each check has its own error. -/
theorem transferStamps_no_overflow {accs : TransferStamps} {amount : UInt8} :
    (transferStamps tx accs amount s).Avoids .overflow := by
  refine (load_avoids rfl).bind fun _ _ => (load_avoids rfl).bind fun _ _ => (load_avoids rfl).bind fun _ _ =>
    (signer_avoids rfl).bind fun _ _ => (signer_avoids rfl).bind fun _ _ =>
      (check_avoids (Failure.ne_anchor rfl)).bind fun _ _ =>
    (hasOne_avoids rfl).bind fun _ _ => (hasOne_avoids rfl).bind fun _ _ =>
      (hasOne_avoids rfl).bind fun _ _ =>
    Except.Avoids.bind ?_ fun _ _ => (store_avoids rfl).bind fun _ _ => store_avoids rfl
  refine require_no_overflow.bind fun _ _ => require_no_overflow.bind fun _ henough =>
    require_no_overflow.bind fun _ _ => (subU8_avoids fun _ => ?_).bind fun _ _ =>
      require_no_overflow.bind fun _ _ =>
    require_no_overflow.bind fun _ _ => Except.avoids_pure _
  exact UInt8.le_iff_toNat_le.mp (require_eq_ok.mp henough)

theorem closeDeadCard_no_overflow {accs : CloseDeadCard}
    (hfits : ∀ x, s.card? accs.card = some x → InRange (tx.now.toInt - x.lastStampTs.toInt)) :
    (closeDeadCard P tx accs s).Avoids .overflow :=
  (load_avoids rfl).bind fun x hx => (load_avoids rfl).bind fun _ _ =>
    (systemAccount_avoids rfl).bind fun _ _ =>
    (seedsConstraintWith_avoids rfl).bind fun _ _ => (closeConstraint_avoids rfl).bind fun _ _ =>
    (check_avoids (Failure.ne_anchor rfl)).bind fun _ _ => (seedsConstraint_avoids rfl).bind fun _ _ =>
      require_no_overflow.bind fun _ _ =>
    (subI64_avoids fun _ => hfits x (State.card?_eq_some.mpr (load_eq_ok.mp hx))).bind fun _ _ =>
    require_no_overflow.bind fun _ _ => require_no_overflow.bind fun _ _ => (store_avoids rfl).bind fun _ _ =>
    Except.avoids_pure _

/-! ## The card NFT -/

theorem mintCardNft_no_overflow {accs : MintCardNft} {uri : Text} :
    (mintCardNft P tx accs uri s).Avoids .overflow := by
  refine (load_avoids rfl).bind fun _ _ => (load_avoids rfl).bind fun _ _ =>
    (signer_avoids rfl).bind fun _ _ =>
    (signer_avoids rfl).bind fun _ _ => (seedsConstraintWith_avoids rfl).bind fun _ _ =>
      (hasOne_avoids rfl).bind fun _ _ =>
    (hasOne_avoids rfl).bind fun _ _ => (seedsConstraint_avoids rfl).bind fun _ _ => ?_
  exact require_no_overflow.bind fun _ _ => (withSigner_avoids rfl).bind fun _ _ =>
    (createAddress_avoids rfl).bind fun _ _ =>
    (invoke_avoids rfl).bind fun _ _ => (invoke_avoids rfl).bind fun _ _ =>
      (createAssociatedToken_avoids rfl).bind fun _ _ =>
    (invoke_avoids rfl).bind fun _ _ => (invoke_avoids rfl).bind fun _ _ => invoke_avoids rfl

theorem retireIdleCardNft_no_overflow {accs : RetireIdleCardNft}
    (hfits : ∀ x, s.card? accs.card = some x →
      InRange (tx.now.toInt - x.lastStampTs.toInt) ∧ x.nftCycle.toNat + 1 < 2 ^ 32) :
    (retireIdleCardNft P tx accs s).Avoids .overflow := by
  refine (load_avoids rfl).bind fun x hx => ?_
  obtain ⟨hsince, hcycle⟩ := hfits x (State.card?_eq_some.mpr (load_eq_ok.mp hx))
  exact (systemAccount_avoids rfl).bind fun _ _ => (hasOne_avoids rfl).bind fun _ _ =>
    (hasOne_avoids rfl).bind fun _ _ =>
    (seedsConstraint_avoids rfl).bind fun _ _ => (check_avoids (Failure.ne_anchor rfl)).bind fun _ _ =>
    (subI64_avoids fun _ => hsince).bind fun _ _ => require_no_overflow.bind fun _ _ =>
    (withSigner_avoids rfl).bind fun _ _ => (burnAndCloseCardNft_avoids rfl).bind fun _ _ =>
    (addU32_avoids fun _ => hcycle).bind fun _ _ => store_avoids rfl

/-! ## Migrations -/

theorem checkOldCard_no_overflow {accs : MigrateCard} {data : List Byte} :
    (checkOldCard P accs data).Avoids .overflow :=
  require_no_overflow.bind fun _ _ => require_no_overflow.bind fun _ _ => require_no_overflow.bind fun _ _ =>
    demand_no_overflow.bind fun _ _ => demand_no_overflow.bind fun _ _ => demand_no_overflow.bind fun _ _ =>
    demand_no_overflow.bind fun _ _ => require_no_overflow.bind fun _ _ => demand_no_overflow.bind fun _ _ =>
    (demand_avoids (Failure.ne_system rfl)).bind fun _ _ => require_no_overflow.bind fun _ _ =>
    (demand_avoids (Failure.ne_system rfl)).bind fun _ _ => require_no_overflow

theorem migrateCard_no_overflow {accs : MigrateCard} : (migrateCard P tx accs s).Avoids .overflow := by
  have hpayer : ∀ s : State, (recordedPayer accs s).Avoids .overflow := fun _ =>
    .ite ((load_avoids rfl).bind fun _ _ => require_no_overflow.bind fun _ _ => Except.avoids_pure _)
      (Except.avoids_pure _)
  exact (systemAccount_avoids rfl).bind fun _ _ =>
    (signer_avoids rfl).bind fun _ _ => demand_no_overflow.bind fun _ _ =>
    checkOldCard_no_overflow.bind fun _ _ => (transferLamports_avoids rfl).bind fun _ _ =>
    demand_no_overflow.bind fun _ _ => demand_no_overflow.bind fun _ _ => demand_no_overflow.bind fun _ _ =>
    (hpayer _).bind fun _ _ => Except.avoids_pure _

theorem migrateBusiness_no_overflow {accs : MigrateBusiness} :
    (migrateBusiness P tx accs s).Avoids .overflow :=
  (signer_avoids rfl).bind fun _ _ => demand_no_overflow.bind fun _ _ => require_no_overflow.bind fun _ _ =>
    require_no_overflow.bind fun _ _ => require_no_overflow.bind fun _ _ => demand_no_overflow.bind fun _ _ =>
      demand_no_overflow.bind fun _ _ =>
    require_no_overflow.bind fun _ _ => (transferLamports_avoids rfl).bind fun _ _ =>
    require_no_overflow.bind fun _ _ => Except.avoids_pure _

/-! ## Wallets -/

/-- What a wallet does runs into other programs' errors only. -/
theorem act_no_overflow {w : WalletAction} : (act tx w s).Avoids .overflow := by
  cases w with
  | pay => exact transferLamports_avoids rfl
  | handOver =>
    exact (check_avoids (Failure.ne_system rfl)).bind fun _ _ =>
      (check_avoids (Failure.ne_system rfl)).bind fun _ _ =>
      Except.avoids_pure _
  | openMint =>
    exact (check_avoids (Failure.ne_system rfl)).bind fun _ _ => (createAddress_avoids rfl).bind fun _ _ =>
      (liftToken_avoids rfl).bind fun _ _ => Except.avoids_pure _
  | openToken =>
    exact (check_avoids (Failure.ne_system rfl)).bind fun _ _ => (createAddress_avoids rfl).bind fun _ _ =>
      (liftToken_avoids rfl).bind fun _ _ => Except.avoids_pure _
  | closeToken => exact (liftToken_avoids rfl).bind fun _ _ => Except.avoids_pure _
  | token =>
    exact (check_avoids (Failure.ne_token rfl)).bind fun _ _ => (liftToken_avoids rfl).bind fun _ _ =>
      Except.avoids_pure _

end Passdari
