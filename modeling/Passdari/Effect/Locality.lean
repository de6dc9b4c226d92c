/-
Every instruction keeps to the accounts it is passed: it changes nothing
else, and whether it succeeds and what it does depends on nothing else.
Whoever pays for new accounts pays from an address no program owns.
-/
import Passdari.Effect.Footprints
import Passdari.Effect.Refines

namespace Passdari

open Token2022

/-- The accounts whose cells the instruction reads or writes, apart from the wallets that pay and are
refunded. -/
def Instruction.accounts : Instruction → List Address
  | .initializeCounter accs => [accs.counter]
  | .registerBusiness accs _ => [accs.business]
  | .updateBusinessConfig accs _ => [accs.business]
  | .issueReceipt accs _ _ => [accs.business, accs.receipt]
  | .claimReceipt accs _ => [accs.business, accs.receipt, accs.card]
  | .mintCardNft accs _ => [accs.business, accs.card, accs.mint, accs.customerToken]
  | .mintVoucher accs _ _ => [accs.business, accs.card, accs.voucher, accs.mint, accs.customerToken,
      accs.cardMint, accs.cardToken]
  | .transferStamps accs _ => [accs.business, accs.fromCard, accs.toCard]
  | .transferVoucher accs => [accs.voucher, accs.mint, accs.fromToken, accs.toToken]
  | .presentVoucher accs => [accs.voucher, accs.mint, accs.holderToken]
  | .cancelPresentation accs => [accs.voucher, accs.mint, accs.holderToken]
  | .redeemVoucher accs => [accs.business, accs.voucher, accs.mint, accs.holderToken]
  | .reclaimExpiredReceipt accs => [accs.receipt]
  | .closeExpiredVoucher accs => [accs.voucher, accs.business, accs.mint, accs.holderToken]
  | .closeDeadCard accs => [accs.card, accs.business, accs.cardMint]
  | .closeBusiness accs => [accs.business]
  | .migrateCard accs => [accs.card, accs.record]
  | .migrateBusiness accs => [accs.business]
  | .retireIdleCardNft accs => [accs.card, accs.cardMint, accs.cardToken]

/-- The wallets rent goes back to: a card with no payer on record leaves its NFT's to the relayer. -/
def Instruction.refundees : Instruction → List Address
  | .claimReceipt accs _ => [accs.rentPayer]
  | .mintVoucher accs _ _ => [accs.cardRentPayer, accs.relayer]
  | .transferVoucher accs => [accs.rentPayer]
  | .redeemVoucher accs => [accs.rentPayer]
  | .reclaimExpiredReceipt accs => [accs.rentPayer]
  | .closeExpiredVoucher accs => [accs.rentPayer]
  | .closeDeadCard accs => [accs.rentPayer]
  | .closeBusiness accs => [accs.rentPayer]
  | .migrateCard accs => [accs.rentPayer]
  | .retireIdleCardNft accs => [accs.rentPayer]
  | _ => []

/-- The wallet that pays for new accounts. -/
def Instruction.payers : Instruction → List Address
  | .initializeCounter accs => [accs.owner]
  | .registerBusiness accs _ => [accs.relayer]
  | .issueReceipt accs _ _ => [accs.relayer]
  | .claimReceipt accs _ => [accs.relayer]
  | .mintCardNft accs _ => [accs.relayer]
  | .mintVoucher accs _ _ => [accs.relayer]
  | .transferVoucher accs => [accs.relayer]
  | .migrateCard accs => [accs.relayer]
  | .migrateBusiness accs => [accs.relayer]
  | _ => []

/-- What may change whoever owns it. -/
def Instruction.writes (i : Instruction) : Set Address := {a | a ∈ i.accounts ++ i.refundees}

/-- What may change while nobody owns it. -/
def Instruction.pays (i : Instruction) : Set Address := {a | a ∈ i.payers}

variable {P : Platform} {tx : Tx} {s s' : State} {F W : Set Address}

theorem ownBusiness_reads {business authority : Address} (hb : business ∈ F ∪ W) :
    Reads State.view (F ∪ W) (fun s => ownBusiness P s business authority) := by
  intro s t b hst hs
  simp only [ownBusiness, Except.bind_eq_ok] at hs ⊢
  obtain ⟨x, hx, hrest⟩ := hs
  exact ⟨x, load_reads hb hst hx, hrest⟩

/-! ## Shops, receipts and stamps -/

theorem initializeHandler_local {accs : Initialize} (hc : accs.counter ∈ F) (hp : accs.owner ∈ F ∪ W) :
    Local State.view F W (fun s => initializeHandler P tx accs s) :=
  .pass fun _ _ => .pass fun _ _ => .seq (create_local hc hp) (store_local hc)

theorem registerBusiness_local {accs : RegisterBusiness} {args} (hb : accs.business ∈ F)
    (hp : accs.relayer ∈ F ∪ W) : Local State.view F W (fun s => registerBusiness P tx accs args s) :=
  .pass fun _ _ => .pass fun _ _ => .pass fun _ _ => .seq (create_local hb hp) <|
    .pass fun _ _ => store_local hb

theorem updateBusinessConfig_local {accs : UpdateBusinessConfig} {args} (hb : accs.business ∈ F) :
    Local State.view F W (fun s => updateBusinessConfig P tx accs args s) :=
  .pass fun _ _ => .read (ownBusiness_reads (.inl hb)) fun _ => .pass fun _ _ => store_local hb

theorem closeBusiness_local {accs : CloseBusiness} (hb : accs.business ∈ F) (hr : accs.rentPayer ∈ F) :
    Local State.view F W (fun s => closeBusiness P tx accs s) :=
  .read (load_reads (.inl hb)) fun _ => .read (systemAccount_reads (.inl hr)) fun _ =>
    .pass fun _ _ => .pass fun _ _ => .pass fun _ _ => close_local hb hr

theorem issueReceipt_local {accs : IssueReceipt} {secretHash band} (hb : accs.business ∈ F)
    (hr : accs.receipt ∈ F) (hp : accs.relayer ∈ F ∪ W) :
    Local State.view F W (fun s => issueReceipt P tx accs secretHash band s) :=
  .read (ownBusiness_reads (.inl hb)) fun _ => .pass fun _ _ => .pass fun _ _ => .pass fun _ _ =>
    .seq (create_local hr hp) <| .pass fun _ _ => .seq (store_local hb) (store_local hr)

theorem claimReceipt_local {accs : ClaimReceipt} {secret} (hb : accs.business ∈ F) (hr : accs.receipt ∈ F)
    (hc : accs.card ∈ F) (hd : accs.rentPayer ∈ F) (hp : accs.relayer ∈ F ∪ W) :
    Local State.view F W (fun s => claimReceipt P tx accs secret s) :=
  .read (load_reads (.inl hb)) fun _ => .read (load_reads (.inl hr)) fun _ => .pass fun _ _ =>
    .pass fun _ _ => .read (systemAccount_reads (.inl hd)) fun _ => .pass fun _ _ =>
    .seqWith (createIfNeeded_local hc hp) fun _ => .pass fun _ _ => .pass fun _ _ => .seq (store_local hb) <|
    .seq (close_local hr hd) (store_local hc)

theorem reclaimExpiredReceipt_local {accs : ReclaimExpiredReceipt} (hr : accs.receipt ∈ F)
    (hd : accs.rentPayer ∈ F) : Local State.view F W (fun s => reclaimExpiredReceipt tx accs s) :=
  .read (load_reads (.inl hr)) fun _ => .read (systemAccount_reads (.inl hd)) fun _ => .pass fun _ _ =>
    .pass fun _ _ => close_local hr hd

theorem transferStamps_local {accs : TransferStamps} {amount} (hb : accs.business ∈ F)
    (hc : accs.fromCard ∈ F) (hd : accs.toCard ∈ F) :
    Local State.view F W (fun s => transferStamps tx accs amount s) :=
  .read (load_reads (.inl hb)) fun _ => .read (load_reads (.inl hc)) fun _ =>
    .read (load_reads (.inl hd)) fun _ => .pass fun _ _ => .pass fun _ _ => .pass fun _ _ => .pass fun _ _ =>
    .pass fun _ _ => .pass fun _ _ => .pass fun _ _ => .seq (store_local hc) (store_local hd)

theorem closeDeadCard_local {accs : CloseDeadCard} (hc : accs.card ∈ F) (hb : accs.business ∈ F)
    (hm : accs.cardMint ∈ F) (hd : accs.rentPayer ∈ F) :
    Local State.view F W (fun s => closeDeadCard P tx accs s) := by
  refine .read (load_reads (.inl hc)) fun _ => .read (load_reads (.inl hb)) fun _ =>
    .read (systemAccount_reads (.inl hd)) fun _ => .pass fun _ _ => .pass fun _ _ => .pass fun _ _ =>
    .pass fun _ _ => .pass fun _ _ => .pass fun _ _ => .pass fun _ _ => ?_
  refine .read (r := fun s => require (¬s.TokenOwned accs.cardMint) _) (fun s t u hst hs => ?_) fun _ =>
    .seq (store_local hb) (close_local hc hd)
  rw [require_eq_ok] at hs ⊢
  rwa [← alike_tokenOwned hst (.inl hm)]

/-! ## Card NFTs -/

theorem mintCardNft_local {accs : MintCardNft} {uri} (hb : accs.business ∈ F) (hc : accs.card ∈ F)
    (hm : accs.mint ∈ F) (hx : accs.customerToken ∈ F) (hp : accs.relayer ∈ F ∪ W) :
    Local State.view F W (fun s => mintCardNft P tx accs uri s) := by
  refine .read (load_reads (.inl hb)) fun b => .read (load_reads (.inl hc)) fun c => .pass fun _ _ =>
    .pass fun _ _ => .pass fun _ _ => .pass fun _ _ => .pass fun _ _ => .pass fun _ _ => .pass fun _ _ =>
    .pass fun signers _ => .seq (createAddress_local hm hp) ?_
  refine .seq (invoke_local ?_) <| .seq (invoke_local ?_) <| .seq (createAssociatedToken_local hx hm hp) <|
    .seq (invoke_local ?_) <| .seq (invoke_local ?_) (invoke_local ?_)
  all_goals simp [Op.reads, hm, hx]

theorem burnAndCloseCardNft_local {signers : List Address} {card cardMint cardToken destination : Address}
    {customer : Option Address} (hm : cardMint ∈ F) (hx : cardToken ∈ F) (hd : destination ∈ F) :
    Local State.view F W
      (fun s => burnAndCloseCardNft tx signers card cardMint cardToken customer destination s) := by
  have hmint : Local State.view F W (fun s => invokeClose signers s cardMint destination card) :=
    invokeClose_local hm hd
  refine .branch (fun hst => alike_tokenOwned hst (.inl hx)) (.read (loadToken_reads (.inl hx)) fun x => ?_)
    hmint
  refine .ite (fun _ => .seq (invoke_local (by simp [Op.reads, hm, hx])) ?_) fun _ => ?_
  all_goals
    refine .ite (fun _ => .seq (invokeClose_local hx hd) hmint) fun _ => ?_
    cases x.closeAuthority with
    | some other => exact hmint
    | none =>
      cases customer with
      | none => exact hmint
      | some customer => exact .seq (invokeClose_local hx hd) hmint

theorem retireIdleCardNft_local {accs : RetireIdleCardNft} (hc : accs.card ∈ F) (hm : accs.cardMint ∈ F)
    (hx : accs.cardToken ∈ F) (hd : accs.rentPayer ∈ F) :
    Local State.view F W (fun s => retireIdleCardNft P tx accs s) :=
  .read (load_reads (.inl hc)) fun _ => .read (systemAccount_reads (.inl hd)) fun _ => .pass fun _ _ =>
    .pass fun _ _ => .pass fun _ _ => .pass fun _ _ => .pass fun _ _ => .pass fun _ _ => .pass fun _ _ =>
    .seq (burnAndCloseCardNft_local hm hx hd) <| .pass fun _ _ => store_local hc

/-! ## Vouchers -/

theorem mintVoucherTokens_local {accs : MintVoucher} {uri b signers} (hm : accs.mint ∈ F)
    (hx : accs.customerToken ∈ F) (hp : accs.relayer ∈ F ∪ W) :
    Local State.view F W (fun s => mintVoucherTokens P tx accs uri b signers s) := by
  refine .seq (topUp_local hm hp) <| .seq (invoke_local ?_) <| .seq (invoke_local ?_) <|
    .seq (invoke_local ?_) (invoke_local ?_)
  all_goals simp [Op.reads, hm, hx]

theorem retireCardNft_local {accs : MintVoucher} {c : LoyaltyCard} (hm : accs.cardMint ∈ F)
    (hx : accs.cardToken ∈ F) (hr : c.rentPayer = .default → accs.relayer ∈ F)
    (hd : c.rentPayer ≠ .default → accs.cardRentPayer ∈ F) :
    LocalWith State.view F W (fun s => retireCardNft P tx accs c s) := by
  refine .branch (fun hst => alike_tokenOwned hst (.inl hm)) ?_ .skip
  by_cases hdef : c.rentPayer = .default
  · simp only [if_pos hdef]
    refine .pass fun destination heq => ?_
    cases heq
    exact .pass fun _ _ => .seq (burnAndCloseCardNft_local hm hx (hr hdef)) .skip
  · simp only [if_neg hdef]
    refine .pass fun _ _ => .pass fun destination heq => ?_
    cases heq
    exact .pass fun _ _ => .seq (burnAndCloseCardNft_local hm hx (hd hdef)) .skip

section

variable {accs : MintVoucher}

theorem mintVoucherUpToNft_local {voucherId uri} (hb : accs.business ∈ F) (hc : accs.card ∈ F)
    (hv : accs.voucher ∈ F) (hm : accs.mint ∈ F) (hx : accs.customerToken ∈ F) (hp : accs.relayer ∈ F ∪ W) :
    LocalWith State.view F W (fun s => mintVoucherUpToNft P tx accs voucherId uri s) := by
  refine .read (load_reads (.inl hb)) fun b => .read (load_reads (.inl hc)) fun c => .pass fun _ _ =>
    .pass fun _ _ => .pass fun _ _ => .seq (create_local hv hp) <| .pass fun _ _ =>
    .seq (createAddress_local hm hp) <| .seq (invoke_local ?_) <|
    .seq (createAssociatedToken_local hx hm hp) <| .pass fun _ _ => .pass fun _ _ => .pass fun _ _ =>
    .pass fun _ _ => .pass fun _ _ => .seq (mintVoucherTokens_local hm hx hp) .skip
  simp [Op.reads, hm]

theorem mintVoucherFromNft_local {b : Business} {c : LoyaltyCard} {v : Voucher} (hb : accs.business ∈ F)
    (hc : accs.card ∈ F) (hv : accs.voucher ∈ F) (hcm : accs.cardMint ∈ F) (hcx : accs.cardToken ∈ F)
    (hr : c.rentPayer = .default → accs.relayer ∈ F) (hd : c.rentPayer ≠ .default → accs.cardRentPayer ∈ F) :
    Local State.view F W (fun s => mintVoucherFromNft P tx accs b c v s) := by
  refine .seqWith (retireCardNft_local hcm hcx hr hd) fun retired => ?_
  cases retired
  · exact .seq (store_local hb) <| .seq (store_local hc) (store_local hv)
  · exact .pass fun _ _ => .seq (store_local hb) <| .seq (store_local hc) (store_local hv)

theorem mintVoucher_local {voucherId uri} (hb : accs.business ∈ F) (hc : accs.card ∈ F)
    (hv : accs.voucher ∈ F) (hm : accs.mint ∈ F) (hx : accs.customerToken ∈ F) (hcm : accs.cardMint ∈ F)
    (hcx : accs.cardToken ∈ F) (hr : accs.relayer ∈ F) (hd : accs.cardRentPayer ∈ F) :
    Local State.view F W (fun s => mintVoucher P tx accs voucherId uri s) := by
  simp only [mintVoucher_eq]
  exact .seqWith (mintVoucherUpToNft_local hb hc hv hm hx (.inl hr)) fun r =>
    mintVoucherFromNft_local (b := r.1) (c := r.2.1) (v := r.2.2) hb hc hv hcm hcx (fun _ => hr) fun _ => hd

end

theorem presentVoucher_local {accs : PresentVoucher} (hv : accs.voucher ∈ F) (hm : accs.mint ∈ F)
    (hx : accs.holderToken ∈ F) : Local State.view F W (fun s => presentVoucher P tx accs s) := by
  refine .read (load_reads (.inl hv)) fun v => .read (loadMint_reads (.inl hm)) fun _ =>
    .read (loadToken_reads (.inl hx)) fun x => .pass fun _ _ => .pass fun _ _ => .pass fun _ _ =>
    .pass fun _ _ => .pass fun _ _ => .pass fun _ _ => .ite (fun _ => .seq (invoke_local ?_) ?_) fun _ => ?_
  · simp [Op.reads, hx]
  all_goals exact invoke_local (by simp [Op.reads, hm, hx])

theorem cancelPresentation_local {accs : CancelPresentation} (hv : accs.voucher ∈ F) (hm : accs.mint ∈ F)
    (hx : accs.holderToken ∈ F) : Local State.view F W (fun s => cancelPresentation P tx accs s) :=
  .read (load_reads (.inl hv)) fun _ => .read (loadMint_reads (.inl hm)) fun _ =>
    .read (loadToken_reads (.inl hx)) fun _ => .pass fun _ _ => .pass fun _ _ => .pass fun _ _ =>
    .pass fun _ _ => .pass fun _ _ => invoke_local (by simp [Op.reads, hm, hx])

theorem receivingToken_local {accs : TransferVoucher} (hm : accs.mint ∈ F) (hx : accs.toToken ∈ F)
    (hp : accs.relayer ∈ F ∪ W) : Local State.view F W (fun s => receivingToken P tx accs s) :=
  .branch (fun hst => alike_inUse hst (.inl hx))
    (.read (loadToken_reads (.inl hx)) fun _ => .pass fun _ _ => .pass fun _ _ => .pass fun _ _ => .skip)
    (createAssociatedToken_local hx hm hp)

theorem transferVoucher_local {accs : TransferVoucher} (hv : accs.voucher ∈ F) (hm : accs.mint ∈ F)
    (hx : accs.fromToken ∈ F) (hy : accs.toToken ∈ F) (hd : accs.rentPayer ∈ F) (hp : accs.relayer ∈ F ∪ W) :
    Local State.view F W (fun s => transferVoucher P tx accs s) := by
  refine .read (load_reads (.inl hv)) fun v => .read (loadMint_reads (.inl hm)) fun m =>
    .read (loadToken_reads (.inl hx)) fun x => .pass fun _ _ => .pass fun _ _ =>
    .read (systemAccount_reads (.inl hd)) fun _ => .seq (receivingToken_local hm hy hp) <| .pass fun _ _ =>
    .pass fun _ _ => .pass fun _ _ => .pass fun _ _ => .pass fun _ _ => .seq (invoke_local ?_) <|
    .pass fun signers _ => .ite (fun _ => .seq (invokeClose_local hx hd) (store_local hv)) fun _ =>
    .ite (fun _ => .seq (invokeClose_local hx hd) (store_local hv)) fun _ => store_local hv
  simp [Op.reads, hm, hx, hy]

theorem closeVoucherMint_local {signers : List Address} {voucher mint rentPayer : Address} {m : Mint Address}
    (hm : mint ∈ F) (hd : rentPayer ∈ F) :
    Local State.view F W (fun s => closeVoucherMint signers voucher mint rentPayer m s) :=
  .ite (fun _ => invokeClose_local hm hd) fun _ => .skip

theorem redeemVoucher_local {accs : RedeemVoucher} (hb : accs.business ∈ F) (hv : accs.voucher ∈ F)
    (hm : accs.mint ∈ F) (hx : accs.holderToken ∈ F) (hd : accs.rentPayer ∈ F) :
    Local State.view F W (fun s => redeemVoucher P tx accs s) := by
  have hlast : ∀ (b : Business) (signers : List Address), Local State.view F W (fun s =>
      loadMint s accs.mint >>= fun m =>
      closeVoucherMint signers accs.voucher accs.mint accs.rentPayer m s >>= fun s =>
      addU32 b.totalRedemptions 1 >>= fun totalRedemptions =>
      store Business.account s accs.business { b with
        totalRedemptions := totalRedemptions
        openVouchers := satSubU32 b.openVouchers 1 } >>= fun s =>
      pure (close s accs.voucher accs.rentPayer)) := fun b signers =>
    .read (loadMint_reads (.inl hm)) fun _ => .seq (closeVoucherMint_local hm hd) <| .pass fun _ _ =>
      .seq (store_local hb) (close_local hv hd)
  refine .read (ownBusiness_reads (.inl hb)) fun b => .read (load_reads (.inl hv)) fun v =>
    .read (loadMint_reads (.inl hm)) fun m => .read (loadToken_reads (.inl hx)) fun x => .pass fun _ _ =>
    .pass fun _ _ => .read (systemAccount_reads (.inl hd)) fun _ => .pass fun _ _ => .pass fun _ _ =>
    .pass fun _ _ => .pass fun _ _ => .pass fun _ _ => .pass fun signers _ => .seq (invoke_local ?_) <|
    .seq (invoke_local ?_) <| .ite (fun _ => .seq (invokeClose_local hx hd) (hlast b signers))
      fun _ => hlast b signers
  all_goals simp [Op.reads, hm, hx]

theorem burnExpired_local {accs : CloseExpiredVoucher} {signers decimals} (hm : accs.mint ∈ F)
    (hx : accs.holderToken ∈ F) (hd : accs.rentPayer ∈ F) :
    Local State.view F W (fun s => burnExpired accs signers decimals s) := by
  have hlast : ∀ x : Account Address, Local State.view F W (fun s =>
      if x.closeAuthority = some accs.voucher then
        invokeClose signers s accs.holderToken accs.rentPayer accs.voucher
      else pure s) := fun x => .ite (fun _ => invokeClose_local hx hd) fun _ => .skip
  refine .branch (fun hst => alike_tokenOwned hst (.inl hx))
    (.read (loadToken_reads (.inl hx)) fun x => .pass fun _ _ => .ite (fun _ => .ite
      (fun _ => .seq (invoke_local ?_) <| .seq (invoke_local ?_) (hlast x))
      fun _ => .seq .skip <| .seq (invoke_local ?_) (hlast x)) fun _ => hlast x) .skip
  all_goals simp [Op.reads, hm, hx]

theorem closeExpiredVoucher_local {accs : CloseExpiredVoucher} (hv : accs.voucher ∈ F)
    (hb : accs.business ∈ F)
    (hm : accs.mint ∈ F) (hx : accs.holderToken ∈ F) (hd : accs.rentPayer ∈ F) :
    Local State.view F W (fun s => closeExpiredVoucher P tx accs s) :=
  .read (load_reads (.inl hv)) fun _ => .read (load_reads (.inl hb)) fun _ =>
    .read (loadMint_reads (.inl hm)) fun _ => .read (systemAccount_reads (.inl hd)) fun _ => .pass fun _ _ =>
    .pass fun _ _ => .pass fun _ _ => .pass fun _ _ => .pass fun _ _ => .seq (burnExpired_local hm hx hd) <|
    .read (loadMint_reads (.inl hm)) fun _ => .pass fun _ _ => .seq (closeVoucherMint_local hm hd) <|
    .seq (store_local hb) (close_local hv hd)

/-- An account that is passed to the clean-up and is no token account stays as it is. -/
theorem closeExpiredVoucher_kept {accs : CloseExpiredVoucher} (hv : accs.voucher ∈ F) (hb : accs.business ∈ F)
    (hm : accs.mint ∈ F) (hd : accs.rentPayer ∈ F) (hx : s.tokens.accounts.lookup accs.holderToken = none)
    (h : closeExpiredVoucher P tx accs s = .ok s') : State.view.Kept F W s s' := by
  simp only [closeExpiredVoucher, Except.bind_eq_ok, loadMint_eq_ok] at h
  obtain ⟨v, -, b, -, m, -, -, -, -, -, -, -, -, -, -, -, signers, -, s₁, hburn, m', -, -, -, h⟩ := h
  have hsame : s₁ = s := by
    unfold burnExpired at hburn
    split at hburn
    · obtain ⟨x, hload, -⟩ := Except.bind_eq_ok.mp hburn
      rw [loadToken_eq_ok, hx] at hload
      cases hload
    · cases hburn
      rfl
  subst hsame
  obtain ⟨s₂, h₂, s₃, h₃, h₄⟩ := h
  exact ((closeVoucherMint_local (W := W) hm hd).kept h₂).trans
    (((store_local hb).kept h₃).trans ((close_local hv hd).kept h₄))

/-! ## Migrations -/

theorem demand_reads {x : Failure} (ha : a ∈ F ∪ W) :
    Reads State.view (F ∪ W) (fun s => demand (s.program.lookup a) x) := by
  intro s t d hst hs
  simpa only [alike_program hst ha] using hs

theorem insert_local {data : List Byte} (ha : a ∈ F) : Local State.view F W
    (fun s => (pure { s with program := s.program.insert a data } : Except Failure State)) where
  kept h := by
    cases h
    exact put_kept ha fun b hb => by rw [Store.lookup_insert, if_neg hb]
  tracks hst h := by
    cases h
    refine ⟨_, rfl, put_alike hst fun b hb => ?_⟩
    rw [Store.lookup_insert, Store.lookup_insert, alike_program hst hb]

theorem recordedPayer_local {accs : MigrateCard} (hr : accs.record ∈ F) (hd : accs.rentPayer ∈ F) :
    LocalWith State.view F W (fun s => recordedPayer accs s) := by
  refine .branch (fun hst => by rw [alike_program hst (.inl hr)])
    (.read (load_reads (.inl hr)) fun x => .pass fun _ _ => ?_) .skip
  exact .seq (close_local hr hd) .skip

theorem migrateCard_local {accs : MigrateCard} (hc : accs.card ∈ F) (hr : accs.record ∈ F)
    (hd : accs.rentPayer ∈ F) (hp : accs.relayer ∈ F ∪ W) :
    Local State.view F W (fun s => migrateCard P tx accs s) :=
  .read (systemAccount_reads (.inl hd)) fun _ => .pass fun _ _ => .read (demand_reads (.inl hc)) fun _ =>
    .pass fun _ _ => .seq (topUp_local hc hp) <| .seq (insert_local hc) <| .pass fun _ _ => .pass fun _ _ =>
    .pass fun _ _ => .seqWith (recordedPayer_local hr hd) fun _ => insert_local hc

theorem migrateBusiness_local {accs : MigrateBusiness} (hb : accs.business ∈ F) (hp : accs.relayer ∈ F ∪ W) :
    Local State.view F W (fun s => migrateBusiness P tx accs s) :=
  .pass fun _ _ => .read (demand_reads (.inl hb)) fun _ => .pass fun _ _ => .pass fun _ _ => .pass fun _ _ =>
    .pass fun _ _ => .pass fun _ _ => .pass fun _ _ => .seq (topUp_local hb hp) <| .pass fun _ _ =>
    insert_local hb

/-! ## Every instruction -/

section

attribute [local simp] Instruction.writes Instruction.pays Instruction.accounts Instruction.refundees
  Instruction.payers

/-- **An instruction keeps to the accounts it is passed**: it changes nothing else, pays from an address no
program owns, and what is anywhere else neither makes it fail nor changes what it does. -/
theorem process_local (i : Instruction) : Local State.view i.writes i.pays (fun s => process P tx i s) := by
  cases i with
  | initializeCounter accs => apply initializeHandler_local <;> simp
  | registerBusiness accs args => exact registerBusiness_local (by simp) (by simp)
  | updateBusinessConfig accs args => exact updateBusinessConfig_local (by simp)
  | issueReceipt accs secretHash band => apply issueReceipt_local <;> simp
  | claimReceipt accs secret => apply claimReceipt_local <;> simp
  | mintCardNft accs uri => apply mintCardNft_local <;> simp
  | mintVoucher accs voucherId uri => apply mintVoucher_local <;> simp
  | transferStamps accs amount => apply transferStamps_local <;> simp
  | transferVoucher accs => apply transferVoucher_local <;> simp
  | presentVoucher accs => apply presentVoucher_local <;> simp
  | cancelPresentation accs => apply cancelPresentation_local <;> simp
  | redeemVoucher accs => apply redeemVoucher_local <;> simp
  | reclaimExpiredReceipt accs => apply reclaimExpiredReceipt_local <;> simp
  | closeExpiredVoucher accs => apply closeExpiredVoucher_local <;> simp
  | closeDeadCard accs => apply closeDeadCard_local <;> simp
  | closeBusiness accs => apply closeBusiness_local <;> simp
  | migrateCard accs => apply migrateCard_local <;> simp
  | migrateBusiness accs => apply migrateBusiness_local <;> simp
  | retireIdleCardNft accs => apply retireIdleCardNft_local <;> simp

end

end Passdari
