/-
Shops keep to themselves. Every address a shop's accounts are at is derived
from the shop's own, apart from those where holders keep its tokens, which
say whose mint they are of; and no instruction takes accounts of two shops.
-/
import Passdari.Books.Rent
import Passdari.Effect.Locality

namespace Passdari

open Wire Token2022

/-- The shop an address is derived from. -/
def Address.shop : Address → Option Address
  | .business authority bump => some (.business authority bump)
  | .receipt b _ _ | .card b _ _ | .voucher b _ _ | .voucherMint b _ _ => some b
  | .cardMint a _ _ | .cardNft a _ | .ata _ a => a.shop
  | .key _ | .counter _ _ => none

/-- The shop an address belongs to: the one whose mint it holds tokens of, or which it is derived from. -/
def State.shopOf (s : State) (a : Address) : Option Address :=
  ((s.tokens.accounts.lookup a).map fun x => x.mint.shop).getD a.shop

/-- The mints of a shop: those of its vouchers, and of its cards' NFTs. -/
inductive State.MintOf (s : State) (b : Address) : Address → Prop
  | voucher {a v} : s.voucher? a = some v → v.business = b → s.MintOf b v.mint
  | card {a c nftCycle bump} : s.card? a = some c → c.business = b → s.MintOf b (.cardMint a nftCycle bump)

/-- What a shop governs: its own account; the receipts, cards and vouchers that record it; its mints, and the
token accounts of these. -/
inductive State.Governs (s : State) (b : Address) : Address → Prop
  | business {x} : s.business? b = some x → s.Governs b b
  | receipt {a r} : s.receipt? a = some r → r.business = b → s.Governs b a
  | card {a c} : s.card? a = some c → c.business = b → s.Governs b a
  | voucher {a v} : s.voucher? a = some v → v.business = b → s.Governs b a
  | mint {a} : s.MintOf b a → s.Governs b a
  | token {a x} : s.tokens.accounts.lookup a = some x → s.MintOf b x.mint → s.Governs b a

/-- The shop an instruction acts for. -/
def Instruction.tenant : Instruction → Option Address
  | .initializeCounter _ => none
  | .registerBusiness accs _ => some accs.business
  | .updateBusinessConfig accs _ => some accs.business
  | .issueReceipt accs _ _ => some accs.business
  | .claimReceipt accs _ => some accs.business
  | .mintCardNft accs _ => some accs.business
  | .mintVoucher accs _ _ => some accs.business
  | .transferStamps accs _ => some accs.business
  | .transferVoucher accs => accs.voucher.shop
  | .presentVoucher accs => accs.voucher.shop
  | .cancelPresentation accs => accs.voucher.shop
  | .redeemVoucher accs => some accs.business
  | .reclaimExpiredReceipt accs => accs.receipt.shop
  | .closeExpiredVoucher accs => some accs.business
  | .closeDeadCard accs => some accs.business
  | .closeBusiness accs => some accs.business
  | .migrateCard accs => accs.card.shop
  | .migrateBusiness accs => some accs.business
  | .retireIdleCardNft accs => accs.card.shop

variable {P : Platform} {tx : Tx} {s s' start : State} {hist : History} {c : Call} {cs : List Change}
  {calls : List TokenCall} {ps : List Payment} {i : Instruction} {a b X : Address}

/-! ## Whose an address is -/

theorem State.shopOf_token {x : Account Address} (hx : s.tokens.accounts.lookup X = some x) :
    s.shopOf X = x.mint.shop := by
  rw [State.shopOf, hx]
  rfl

theorem State.shopOf_none (ha : s.tokens.accounts.lookup a = none) : s.shopOf a = a.shop := by
  rw [State.shopOf, ha]
  rfl

/-- Only at a key can there be tokens of a shop whose address does not say so. -/
theorem PlacedAccounts.shopOf (h : PlacedAccounts s.tokens) (ha : ∀ k, a ≠ .key k) : s.shopOf a = a.shop := by
  cases hx : s.tokens.accounts.lookup a with
  | none => exact State.shopOf_none hx
  | some x =>
    rw [State.shopOf_token hx]
    rcases h a x hx with ⟨k, rfl⟩ | ⟨owner, rfl⟩
    · exact absurd rfl (ha k)
    · rfl

theorem State.MintOf.shop (h : s.MintOf b a) (hw : s.WellPlaced) (ht : s.VoucherTokens P) :
    a.shop = some b := by
  cases h with
  | voucher hv hb =>
    obtain ⟨bump, hf⟩ := ht.address _ _ hv
    rw [findProgramAddress_eq hf, ← hb]
    rfl
  | card hc hb =>
    rw [Address.shop, hw.card (State.card?_eq_some.mp hc), ← hb]
    rfl

/-- What a shop governs belongs to it, and so to no other shop. -/
theorem State.Governs.shopOf (h : s.Governs b a) (hw : s.WellPlaced) (ht : s.VoucherTokens P) :
    s.shopOf a = some b := by
  cases h with
  | business hx =>
    have hb := hw.business (State.business?_eq_some.mp hx)
    rw [hb, ht.accounts.shopOf (by simp)]
    rfl
  | receipt hr hb =>
    obtain ⟨secretHash, rfl⟩ := hw.receipt (State.receipt?_eq_some.mp hr)
    rw [ht.accounts.shopOf (by simp), ← hb]
    rfl
  | card hc hb =>
    rw [hw.card (State.card?_eq_some.mp hc), ht.accounts.shopOf (by simp), ← hb]
    rfl
  | voucher hv hb =>
    rw [hw.voucher (State.voucher?_eq_some.mp hv), ht.accounts.shopOf (by simp), ← hb]
    rfl
  | mint hM =>
    have hshop := hM.shop hw ht
    rw [← hshop]
    refine ht.accounts.shopOf fun k hk => ?_
    rw [hk] at hshop
    cases hshop
  | token hx hM => rw [State.shopOf_token hx, hM.shop hw ht]

theorem PlacedAccounts.shopOf_of_shop (h : PlacedAccounts s.tokens) (ha : a.shop = some b) :
    s.shopOf a = some b := by
  rw [← ha]
  refine h.shopOf fun k hk => ?_
  rw [hk] at ha
  cases ha

namespace State.WellPlaced

variable (hw : s.WellPlaced)

include hw

theorem shop_of_business {x : Business} (h : s.record? a = some (.business x)) : a.shop = some a := by
  have ha := hw.business h
  rw [ha, Address.shop]

theorem shop_of_receipt {r : Receipt} (h : s.record? a = some (.receipt r)) : a.shop = some r.business := by
  obtain ⟨secretHash, ha⟩ := hw.receipt h
  rw [ha, Address.shop]

theorem shop_of_card {x : LoyaltyCard} (h : s.record? a = some (.card x)) : a.shop = some x.business := by
  rw [hw.card h, Address.shop]

theorem shop_of_voucher {v : Voucher} (h : s.record? a = some (.voucher v)) : a.shop = some v.business := by
  rw [hw.voucher h, Address.shop]

end State.WellPlaced

/-! ## Whose accounts an instruction takes -/

/-- The accounts of a voucher: itself, its mint, and where its tokens are. -/
theorem State.VoucherTokens.shop_of_mint (ht : s.VoucherTokens P) {V : Address} {v : Voucher}
    (hv : s.record? V = some (.voucher v)) : v.mint.shop = some v.business := by
  obtain ⟨bump, hf⟩ := ht.address V v (State.voucher?_eq_some.mpr hv)
  rw [findProgramAddress_eq hf, Address.shop]

/-- The clean-up is passed `a` as an account with tokens; there is none, so that the clean-up skips it. -/
structure Untaken (s : State) (accs : CloseExpiredVoucher) (a : Address) : Prop where
  holder : a = accs.holderToken
  empty : s.tokens.accounts.lookup a = none
  other : a ≠ accs.voucher ∧ a ≠ accs.business ∧ a ≠ accs.mint

/-- **Every account an instruction takes is the shop's it acts for**; or it is passed to a clean-up as an
account with tokens, and is none. -/
theorem Effect.accounts_tenant (hw : s.WellPlaced) (ht : s.VoucherTokens P)
    (h : Effect P tx s (.program i) cs calls ps) : ∀ a ∈ i.accounts, s.shopOf a = i.tenant ∨
      ∃ accs, i = .closeExpiredVoucher accs ∧ Untaken s accs a := by
  have hat : ∀ {a b : Address}, a.shop = some b → s.shopOf a = some b := ht.accounts.shopOf_of_shop
  have hall : ∀ {l : List Address}, (∀ a ∈ l, s.shopOf a = i.tenant) → ∀ a ∈ l, s.shopOf a = i.tenant ∨
      ∃ accs, i = .closeExpiredVoucher accs ∧ Untaken s accs a := fun h a ha => .inl (h a ha)
  -- A voucher of the shop, its mint, and an account with its tokens.
  have hmint : ∀ {V M v}, s.record? V = some (.voucher v) → v.mint = M → M.shop = some v.business :=
    fun hv hM => hM ▸ ht.shop_of_mint hv
  have htoken : ∀ {V M X v x}, s.record? V = some (.voucher v) → v.mint = M →
      s.tokens.accounts.lookup X = some x → x.mint = M → s.shopOf X = some v.business :=
        fun hv hM hx hxM => by
    rw [State.shopOf_token hx, hxM, hmint hv hM]
  cases h with
  | initializeCounter _ hf =>
    refine hall (List.forall_mem_singleton.mpr ?_)
    rw [findProgramAddress_eq hf]
    exact ht.accounts.shopOf (by simp)
  | registerBusiness _ _ hf =>
    refine hall (List.forall_mem_singleton.mpr (hat ?_))
    rw [findProgramAddress_eq hf, Address.shop]
  | updateBusinessConfig _ hb | closeBusiness hb =>
    exact hall (List.forall_mem_singleton.mpr (hat (hw.shop_of_business hb)))
  | issueReceipt hb _ _ _ _ hf =>
    refine hall ?_
    simp only [Instruction.accounts, Instruction.tenant, List.forall_mem_cons, List.not_mem_nil,
      false_imp_iff, implies_true, and_true]
    refine ⟨hat (hw.shop_of_business hb), hat ?_⟩
    rw [findProgramAddress_eq hf, Address.shop]
  | claimReceipt hb hr _ _ _ hf hc _ hown _ hok =>
    obtain ⟨⟨bump', hf'⟩, -⟩ := claimReceiptHandler_spec (hw.business_ne_default hb) hown hok
    refine hall ?_
    simp only [Instruction.accounts, Instruction.tenant, List.forall_mem_cons, List.not_mem_nil,
      false_imp_iff, implies_true, and_true]
    refine ⟨hat (hw.shop_of_business hb), hat ?_, hat ?_⟩
    · rw [findProgramAddress_eq hf', Address.shop]
    · rw [findProgramAddress_eq hf, Address.shop]
  | reclaimExpiredReceipt hr =>
    refine hall (List.forall_mem_singleton.mpr ?_)
    rw [Instruction.tenant, hw.shop_of_receipt hr]
    exact hat (hw.shop_of_receipt hr)
  | transferStamps hb hc hd _ _ _ hcb _ hdb =>
    refine hall ?_
    simp only [Instruction.accounts, Instruction.tenant, List.forall_mem_cons, List.not_mem_nil,
      false_imp_iff, implies_true, and_true]
    exact ⟨hat (hw.shop_of_business hb), hat (hcb ▸ hw.shop_of_card hc), hat (hdb ▸ hw.shop_of_card hd)⟩
  | closeDeadCard hc hb _ _ _ hbus hf =>
    refine hall ?_
    simp only [Instruction.accounts, Instruction.tenant, List.forall_mem_cons, List.not_mem_nil,
      false_imp_iff, implies_true, and_true]
    refine ⟨hat (hbus ▸ hw.shop_of_card hc), hat (hw.shop_of_business hb), hat ?_⟩
    rw [findProgramAddress_eq hf, Address.shop, hbus, hw.shop_of_card hc]
  | @mintCardNft accs _ _ _ _ hb hc _ _ _ hcb _ hf _ _ htok =>
    have hM : accs.mint.shop = some accs.business := by
      rw [findProgramAddress_eq hf, Address.shop, hw.shop_of_card hc, hcb]
    refine hall ?_
    simp only [Instruction.accounts, Instruction.tenant, List.forall_mem_cons, List.not_mem_nil,
      false_imp_iff, implies_true, and_true]
    refine ⟨hat (hw.shop_of_business hb), hat (hcb ▸ hw.shop_of_card hc), hat hM, hat ?_⟩
    rw [htok, Address.shop, hM]
  | @retireIdleCardNft accs c _ _ _ hc _ _ _ hf htok =>
    have hM : accs.cardMint.shop = some c.business := by
      rw [findProgramAddress_eq hf, Address.shop, hw.shop_of_card hc]
    refine hall ?_
    simp only [Instruction.accounts, Instruction.tenant, List.forall_mem_cons, List.not_mem_nil,
      false_imp_iff, implies_true, and_true, hw.shop_of_card hc]
    refine ⟨hat (hw.shop_of_card hc), hat hM, hat ?_⟩
    rw [htok, Address.shop, hM]
  | @mintVoucher accs _ _ _ _ _ _ _ _ _ _ _ _ _ hb hc _ _ hfv _ hfm _ htok _ _ hcb _ hfn hnft =>
    have hM : accs.mint.shop = some accs.business := by rw [findProgramAddress_eq hfm, Address.shop]
    have hN : accs.cardMint.shop = some accs.business := by
      rw [findProgramAddress_eq hfn, Address.shop, hw.shop_of_card hc, hcb]
    refine hall ?_
    simp only [Instruction.accounts, Instruction.tenant, List.forall_mem_cons, List.not_mem_nil,
      false_imp_iff, implies_true, and_true]
    refine ⟨hat (hw.shop_of_business hb), hat (hcb ▸ hw.shop_of_card hc), hat ?_, hat hM, hat ?_, hat hN,
      hat ?_⟩
    · rw [findProgramAddress_eq hfv, Address.shop]
    · rw [htok, Address.shop, hM]
    · rw [hnft, Address.shop, hN]
  | presentVoucher hv _ hM hx _ _ hxM | cancelPresentation hv _ hM hx _ _ hxM =>
    refine hall ?_
    simp only [Instruction.accounts, Instruction.tenant, List.forall_mem_cons, List.not_mem_nil,
      false_imp_iff, implies_true, and_true, hw.shop_of_voucher hv]
    exact ⟨hat (hw.shop_of_voucher hv), hat (hmint hv hM), htoken hv hM hx hxM⟩
  | transferVoucher hv _ _ _ _ hM _ hx _ _ hxM _ _ hto =>
    refine hall ?_
    simp only [Instruction.accounts, Instruction.tenant, List.forall_mem_cons, List.not_mem_nil,
      false_imp_iff, implies_true, and_true, hw.shop_of_voucher hv]
    refine ⟨hat (hw.shop_of_voucher hv), hat (hmint hv hM), htoken hv hM hx hxM, hat ?_⟩
    rw [hto, Address.shop, hmint hv hM]
  | redeemVoucher hb _ _ hv _ _ _ _ hvb hM _ hx _ _ hxM =>
    refine hall ?_
    simp only [Instruction.accounts, Instruction.tenant, List.forall_mem_cons, List.not_mem_nil,
      false_imp_iff, implies_true, and_true, ← hvb]
    exact ⟨hat (hvb ▸ hw.shop_of_business hb), hat (hw.shop_of_voucher hv), hat (hmint hv hM),
      htoken hv hM hx hxM⟩
  | @closeExpiredVoucher accs b v m m' t x hv hb _ _ hM' _ hbus _ _ hx hxM =>
    simp only [Instruction.accounts, Instruction.tenant, List.forall_mem_cons, List.not_mem_nil,
      false_imp_iff, implies_true, and_true, hbus]
    have hV := hat (hw.shop_of_voucher hv)
    have hB := hat (hbus ▸ hw.shop_of_business hb)
    have hM := hat (hmint hv hM')
    refine ⟨.inl hV, .inl hB, .inl hM, ?_⟩
    cases x with
    | none =>
      by_cases hshop : s.shopOf accs.holderToken = some v.business
      · exact .inl hshop
      · refine .inr ⟨accs, rfl, rfl, hx, fun he => ?_, fun he => ?_, fun he => ?_⟩
        · exact hshop (he ▸ hV)
        · exact hshop (he.trans hbus ▸ hB)
        · exact hshop (he ▸ hM)
    | some y => exact .inl (htoken hv hM' hx (hxM y rfl))
  | @migrateCard accs old c c' mint mintBump recordBump n _ _ _ _ _ hf _ hfm hfr =>
    have hc : accs.card.shop = some c.business := by
      rw [hw.placed hf, Address.shop]
    refine hall ?_
    simp only [Instruction.accounts, Instruction.tenant, List.forall_mem_cons, List.not_mem_nil,
      false_imp_iff, implies_true, and_true, hc]
    refine ⟨hat hc, hat ?_⟩
    rw [findProgramAddress_eq hfr, Address.shop, findProgramAddress_eq hfm, Address.shop, hc]
  | migrateBusiness _ _ _ hf =>
    refine hall (List.forall_mem_singleton.mpr (hat ?_))
    have ha := hw.placed hf
    rw [Face.At] at ha
    rw [ha, Address.shop]

/-! ## Whose wallets -/

/-- Whoever is on record as the payer of an account's rent can sign. -/
def State.PayersSign (s : State) : Prop :=
  ∀ a r w, s.record? a = some r → r.rentPayer? = some w → w.canSign = true

theorem Step.payersSign (hw : s.WellPlaced) (hcur : s.Current) (hp : s.PayersSign)
    (h : Step P s c s' cs calls ps) : s'.PayersSign := by
  intro a r w hr hpayer
  by_cases ha : a ∈ cs.map Change.addr
  · obtain ⟨k, hk, rfl⟩ := List.mem_map.mp ha
    rw [h.changed.record? hk] at hr
    rcases h.effect.record_payers hw hcur k hk r w hr hpayer with ⟨q, hq, hqw⟩ | ho
    · exact hp _ q w ((h.changed.before k hk).trans hq) hqw
    · exact h.signers w ho.signed
  · exact hp a r w (h.changed.record?_frame ha ▸ hr) hpayer

theorem Run.payersSign (h : Run P start hist s) (hs : start.Empty) : s.PayersSign :=
  Run.induct_empty (I := fun _ s => s.PayersSign) h hs
    (fun a r w hr => by rw [State.record?, hs.program] at hr; cases hr)
    fun _ hw hcur hi hst => hst.payersSign hw hcur hi

/-- A wallet no program owns is no shop's. -/
theorem State.shopOf_wallet (ha : a.canSign = true) (hfree : ¬s.InUse a) : s.shopOf a = none := by
  obtain ⟨k, rfl⟩ := Address.exists_key ha
  rw [State.shopOf_none (State.tokens_of_not_inUse hfree).2, Address.shop]

/-- The wallets rent goes back to are wallets; but `mint_voucher` does not check its own. -/
theorem Effect.refundees_wallets (hcur : s.Current) (hp : s.PayersSign)
    (h : Effect P tx s (.program i) cs calls ps) :
    ∀ a ∈ i.refundees, a.canSign = true ∧ ¬s.InUse a ∨ ∃ accs id uri, i = .mintVoucher accs id uri := by
  obtain ⟨hnoCard, -⟩ := h.not_migration hcur
  cases h with
  | mintVoucher => exact fun a _ => .inr ⟨_, _, _, rfl⟩
  | claimReceipt _ hr _ _ hfree _ _ _ _ hpayer | reclaimExpiredReceipt hr hfree hpayer =>
    refine List.forall_mem_singleton.mpr (.inl ⟨?_, hfree⟩)
    exact hp _ _ _ hr (congrArg some hpayer)
  | transferVoucher hr _ _ _ hfree _ hpayer | redeemVoucher _ _ _ hr _ _ _ hfree _ _ hpayer
  | closeExpiredVoucher hr _ _ hfree _ hpayer | closeDeadCard hr _ hfree _ hpayer
  | retireIdleCardNft hr hfree _ hpayer | closeBusiness hr hfree _ hpayer =>
    refine List.forall_mem_singleton.mpr (.inl ⟨?_, hfree⟩)
    exact hp _ _ _ hr (congrArg some hpayer)
  | migrateCard => exact absurd rfl (hnoCard _)
  | _ => simp [Instruction.refundees]

/-- Whoever pays for new accounts signs. -/
theorem Effect.payers_signed (h : Effect P tx s (.program i) cs calls ps) :
    ∀ a ∈ i.payers, a ∈ tx.signers := by
  cases h with
  | initializeCounter hr | registerBusiness _ hr | issueReceipt _ _ _ _ hr | claimReceipt _ _ _ hr
  | mintCardNft _ _ _ hr | mintVoucher _ _ _ hr | transferVoucher _ _ _ hr | migrateCard _ hr
  | migrateBusiness hr => exact List.forall_mem_singleton.mpr hr
  | _ => simp [Instruction.payers]

/-! ## What is left to the other shops -/

/-- The same but for lamports it was paid. -/
structure Cell.Gains (c d : Cell) : Prop where
  data : d.data = c.data
  mint : d.mint = c.mint
  token : d.token = c.token
  foreign : d.foreign = c.foreign
  lamports : c.lamports ≤ d.lamports

theorem Cell.Gains.refl (c : Cell) : c.Gains c := ⟨rfl, rfl, rfl, rfl, Nat.le_refl _⟩

/-- Accounts that are emptied take nothing from any other. -/
theorem settle_empties : ∀ {ps : List Payment} {p : Purse},
    (∀ q ∈ ps, ∃ kind x dest, q = .empty kind x dest ∧ a ≠ x) → p.lamports a ≤ (p.settle ps).lamports a
  | [], _, _ => Nat.le_refl _
  | q :: ps, p, hq => by
    obtain ⟨kind, x, dest, rfl, hne⟩ := hq q List.mem_cons_self
    have hrest := settle_empties (p := p.pay (.empty kind x dest)) fun q' hq' =>
      hq q' (List.mem_cons_of_mem _ hq')
    refine Nat.le_trans ?_ hrest
    simp only [Purse.pay, Purse.move, Function.update_apply, if_neg hne]
    split
    · next hd =>
      subst hd
      rw [if_neg hne]
      exact Nat.le_add_right _ _
    · exact Nat.le_refl _

/-- The NFT's rent is all that its retirement brings to any account but its own. -/
theorem retireCardNft_gains {accs : MintVoucher} {x : LoyaltyCard} {retired : Bool}
    (hpda : accs.card = .card x.business x.customer x.bump)
    (h : retireCardNft P tx accs x s = .ok (s', retired)) (hM : a ≠ accs.cardMint) (hX : a ≠ accs.cardToken) :
    (s.cell a).Gains (s'.cell a) := by
  obtain ⟨-, destination, -, hd⟩ := retireCardNft_delta hpda h
  have hframe := run_frame (a := a) hd.tokens (by
    split
    · exact forall_burnCardNftCalls (by simp [Op.touched, hM, hX]) (by simp [Op.touched, hX])
        (by simp [Op.touched, hX]) (by simp [Op.touched, hM])
    · simp)
  refine ⟨hd.program_eq a, hframe.1, hframe.2, by simp only [State.cell, hd.foreign], ?_⟩
  show s.purse.lamports a ≤ s'.purse.lamports a
  rw [hd.purse]
  refine settle_empties ?_
  split
  · exact forall_burnCardNftPayments ⟨_, _, _, rfl, hX⟩ ⟨_, _, _, rfl, hM⟩
  · simp

/-- A retirement takes nothing to an account the card does not name as its payer. -/
theorem retireCardNft_kept {accs : MintVoucher} {x : LoyaltyCard} {retired : Bool}
    (h : retireCardNft P tx accs x s = .ok (s', retired)) (hM : a ≠ accs.cardMint) (hX : a ≠ accs.cardToken)
    (hdef : x.rentPayer ≠ .default) (hpayer : a ≠ x.rentPayer) : s'.cell a = s.cell a := by
  by_cases hpassed : accs.cardRentPayer = x.rentPayer
  · have hlocal : LocalWith State.view {a}ᶜ ∅ (fun s => retireCardNft P tx accs x s) :=
      retireCardNft_local (Ne.symm hM) (Ne.symm hX) (fun h => absurd h hdef)
        fun _ => Ne.symm (hpassed ▸ hpayer)
    exact hlocal.kept h a (fun hmem => hmem rfl) fun hno => hno.elim
  · -- passed another payer, it is refused
    simp only [retireCardNft, if_neg hdef] at h
    split at h
    · obtain ⟨_, hreq, -⟩ := Except.bind_eq_ok.mp h
      exact absurd (require_eq_ok.mp hreq) hpassed
    · cases h
      rfl

/-- To an account that is not passed to it, cashing in does what the retirement of the card's NFT does. -/
theorem mintVoucher_retires {accs : MintVoucher} {voucherId uri} (hw : s.WellPlaced)
    (h : mintVoucher P tx accs voucherId uri s = .ok s')
    (ha : a ∉ (Instruction.mintVoucher accs voucherId uri).accounts)
    (hheld : a = accs.relayer → (s.cell a).Held) :
    ∃ s₁ s₂ x₀ x retired, s.record? accs.card = some (.card x₀) ∧ x.rentPayer = x₀.rentPayer ∧
      accs.card = .card x.business x.customer x.bump ∧ s₁.cell a = s.cell a ∧
      retireCardNft P tx accs x s₁ = .ok (s₂, retired) ∧ s'.cell a = s₂.cell a := by
  simp only [Instruction.accounts, List.mem_cons, List.not_mem_nil, or_false, not_or] at ha
  obtain ⟨hB, hA, hV, hM, hX, -, -⟩ := ha
  rw [mintVoucher_eq] at h
  obtain ⟨⟨s₁, b, x, v⟩, h₁, h₂⟩ := Except.bind_eq_ok.mp h
  obtain ⟨⟨s₂, retired⟩, h₂, h₃⟩ := Except.bind_eq_ok.mp h₂
  obtain ⟨_, x₀, hcash, -⟩ := mintVoucherUpToNft_eq_ok hw h₁
  obtain ⟨-, hpayer, hbus, hcus, hbump⟩ := hcash.kept
  -- before the retirement and after it `a` stays as it is
  have hfirst : s₁.cell a = s.cell a :=
    (mintVoucherUpToNft_local (F := {a}ᶜ) (W := {accs.relayer}) (Ne.symm hB) (Ne.symm hA) (Ne.symm hV)
      (Ne.symm hM) (Ne.symm hX) (.inr rfl)).kept h₁ a (fun hmem => hmem rfl) hheld
  have hlast : ∀ nftCycle, Local State.view {a}ᶜ ∅ (fun s => store Business.account s accs.business b >>=
      fun s => store LoyaltyCard.account s accs.card { x with nftCycle := nftCycle } >>= fun s =>
      store Voucher.account s accs.voucher v) := fun nftCycle =>
    .seq (store_local (Ne.symm hB)) <| .seq (store_local (Ne.symm hA)) (store_local (Ne.symm hV))
  have hsecond : s'.cell a = s₂.cell a := by
    cases retired
    · exact (hlast _).kept h₃ a (fun hmem => hmem rfl) fun hno => hno.elim
    · obtain ⟨nftCycle, -, h₃⟩ := Except.bind_eq_ok.mp h₃
      exact (hlast nftCycle).kept h₃ a (fun hmem => hmem rfl) fun hno => hno.elim
  refine ⟨s₁, s₂, x₀, x, retired, hcash.card, hpayer, ?_, hfirst, h₂, hsecond⟩
  rw [hbus, hcus, hbump]
  exact hw.card hcash.card

/-- Cashing in brings an account that is not passed to it no more than the rent of the card's NFT. -/
theorem mintVoucher_gains {accs : MintVoucher} {voucherId uri} (hw : s.WellPlaced)
    (h : mintVoucher P tx accs voucherId uri s = .ok s')
    (ha : a ∉ (Instruction.mintVoucher accs voucherId uri).accounts)
    (hheld : a = accs.relayer → (s.cell a).Held) :
    (s.cell a).Gains (s'.cell a) := by
  obtain ⟨s₁, s₂, _, _, _, -, -, hpda, hfirst, hretire, hsecond⟩ := mintVoucher_retires hw h ha hheld
  simp only [Instruction.accounts, List.mem_cons, List.not_mem_nil, or_false, not_or] at ha
  obtain ⟨-, -, -, -, -, hN, hY⟩ := ha
  rw [hsecond, ← hfirst]
  exact retireCardNft_gains hpda hretire hN hY

/-- And nothing at all, unless the card names it as who paid for that. -/
theorem mintVoucher_kept {accs : MintVoucher} {voucherId uri} (hw : s.WellPlaced) (hp : s.PayersSign)
    (h : mintVoucher P tx accs voucherId uri s = .ok s')
    (ha : a ∉ (Instruction.mintVoucher accs voucherId uri).accounts)
    (hheld : a = accs.relayer → (s.cell a).Held)
    (hpayer : ∀ x, s.card? accs.card = some x → a ≠ x.rentPayer) : s'.cell a = s.cell a := by
  obtain ⟨s₁, s₂, x₀, x, _, hx, hsame, -, hfirst, hretire, hsecond⟩ := mintVoucher_retires hw h ha hheld
  simp only [Instruction.accounts, List.mem_cons, List.not_mem_nil, or_false, not_or] at ha
  obtain ⟨-, -, -, -, -, hN, hY⟩ := ha
  have hdef : x.rentPayer ≠ .default := by
    intro hdef
    have hsign := hp _ _ _ hx (congrArg some (hsame.symm.trans hdef))
    simp [Address.default, Address.canSign] at hsign
  have hkept := retireCardNft_kept hretire hN hY hdef (hsame ▸ hpayer x₀ (State.card?_eq_some.mpr hx))
  exact hsecond.trans (hkept.trans hfirst)

/-- What holds of every state a run from an empty start reaches, and is needed to tell the shops apart. -/
structure State.Told (P : Platform) (s : State) : Prop where
  placed : s.WellPlaced
  current : s.Current
  vouchers : s.VoucherTokens P
  payers : s.PayersSign

theorem Run.told (h : Run P start hist s) (hs : start.Empty) : s.Told P :=
  ⟨h.wellPlaced hs.wellPlaced, h.current hs, h.voucherTokens hs, h.payersSign hs⟩

/-- **An instruction leaves what is another shop's as it is**, but for the rent a cash-in sends to whoever the
card names. -/
theorem process_isolated (hs : s.Told P) (hsig : ∀ k ∈ tx.signers, k.canSign = true)
    (h : process P tx i s = .ok s') (ha : s.shopOf a = some b) (hb : i.tenant ≠ some b) :
    (s.cell a).Gains (s'.cell a) ∧
    ((∀ accs id uri x, i = .mintVoucher accs id uri → s.card? accs.card = some x → a ≠ x.rentPayer) →
      s'.cell a = s.cell a) := by
  obtain ⟨cs, calls, ps, he, -⟩ := process_refined hs.placed h
  have hmine : s.shopOf a ≠ i.tenant := fun he => hb (he ▸ ha)
  -- who pays is a wallet, so that `a` is not, unless somebody owns it
  have hheld : a ∈ i.payers → (s.cell a).Held := by
    intro hpay
    by_contra hno
    have hsign := hsig a (he.payers_signed a hpay)
    have hdef : a ≠ .default := fun hd => by
      rw [hd] at hsign
      simp [Address.default, Address.canSign] at hsign
    rw [State.shopOf_wallet hsign fun hu => (State.inUse_iff_held.mp hu).elim hno hdef] at ha
    cases ha
  have hcells : s'.cell a = s.cell a → (s.cell a).Gains (s'.cell a) ∧
      ((∀ accs id uri x, i = .mintVoucher accs id uri → s.card? accs.card = some x → a ≠ x.rentPayer) →
        s'.cell a = s.cell a) :=
    fun he => ⟨he ▸ .refl _, fun _ => he⟩
  by_cases hmem : a ∈ i.accounts
  · rcases he.accounts_tenant hs.placed hs.vouchers a hmem with hshop | ⟨accs, rfl, hun⟩
    · exact absurd hshop hmine
    -- a clean-up that was passed `a` for nothing
    · obtain ⟨hV, hB, hM⟩ := hun.other
      have hpayer : a ≠ accs.rentPayer := by
        intro hd
        rcases he.refundees_wallets hs.current hs.payers a (List.mem_singleton.mpr hd) with
          ⟨hsign, hfree⟩ | ⟨_, _, _, hno⟩
        · rw [State.shopOf_wallet hsign hfree] at ha
          cases ha
        · cases hno
      exact hcells (closeExpiredVoucher_kept (F := {a}ᶜ) (W := ∅) (Ne.symm hV) (Ne.symm hB) (Ne.symm hM)
        (Ne.symm hpayer) (hun.holder ▸ hun.empty) h a (fun hmem => hmem rfl) fun hno => hno.elim)
  · by_cases hwallet : a ∈ i.refundees
    · rcases he.refundees_wallets hs.current hs.payers a hwallet with ⟨hsign, hfree⟩ | ⟨accs, id, uri, rfl⟩
      · rw [State.shopOf_wallet hsign hfree] at ha
        cases ha
      · have hrel : a = accs.relayer → (s.cell a).Held := fun hr => hheld (List.mem_singleton.mpr hr)
        exact ⟨mintVoucher_gains hs.placed h hmem hrel, fun hne =>
          mintVoucher_kept hs.placed hs.payers h hmem hrel fun x => hne _ _ _ x rfl⟩
    · refine hcells ((process_local i).kept h a (fun hin => ?_) hheld)
      rcases List.mem_append.mp hin with hin | hin
      · exact hmem hin
      · exact hwallet hin

/-! ## Isolation -/

/-- No instruction makes an address a shop's that was not its before. -/
theorem process_shopOf (hs : s.Told P) (hs' : s'.Told P) (h : process P tx i s = .ok s')
    (ha : s'.shopOf a = some b) : s.shopOf a = some b := by
  by_cases hkey : ∃ k, a = .key k
  · obtain ⟨k, rfl⟩ := hkey
    cases hx' : s'.tokens.accounts.lookup (.key k) with
    | none =>
      rw [State.shopOf_none hx'] at ha
      cases ha
    | some x' =>
      obtain ⟨cs, calls, ps, he, -, hr, -⟩ := process_refined hs.placed h
      obtain ⟨x, hx, hmint⟩ := run_account_before hr hx' fun c hc mint owner io hop => by
        rcases he.opens_account c hc _ mint owner io hop with ⟨hata, -⟩ | ⟨-, _, _, hact⟩
        · cases hata
        · cases hact
      rw [State.shopOf_token hx'] at ha
      rw [State.shopOf_token hx, ← ha, hmint]
  · have hne : ∀ k, a ≠ .key k := fun k hk => hkey ⟨k, hk⟩
    rw [hs.vouchers.accounts.shopOf hne]
    rwa [hs'.vouchers.accounts.shopOf hne] at ha

theorem Run.told_next {c : Call} (h : Run P start hist s) (hs : start.Empty) (hn : Next P s c s') :
    s'.Told P :=
  Run.told (h.step hn) hs

/-- **Shops are isolated.** Whatever accounts an instruction is passed, all that another shop governs, before
it or after it, is as it was: its data, tokens and lamports. Only the wallet a card names as its payer is sent
the rent of the card's NFT, whatever it has become since. -/
theorem tenant_isolation (h : Run P start hist s) (hs : start.Empty) (hn : Next P s ⟨tx, .program i⟩ s')
    (ha : s.Governs b a ∨ s'.Governs b a) (hb : i.tenant ≠ some b) : (s.cell a).Gains (s'.cell a) ∧
    ((∀ accs id uri x, i = .mintVoucher accs id uri → s.card? accs.card = some x → a ≠ x.rentPayer) →
      s'.cell a = s.cell a) := by
  have htold := h.told hs
  have htold' := h.told_next hs hn
  refine process_isolated htold hn.1 hn.2 (b := b) ?_ hb
  rcases ha with ha | ha
  · exact ha.shopOf htold.placed htold.vouchers
  · exact process_shopOf htold htold' hn.2 (ha.shopOf htold'.placed htold'.vouchers)

namespace Sample

/-- The shop of `key 3`; `key 4` relays for it. -/
def otherShop : Address := .business (key 3) 255

def registerOther (now : Int64) : Call :=
  call now [key 3, key 4] (.registerBusiness ⟨otherShop, key 3, key 4⟩
    ⟨name, category, rewardLabel, 1, 0, currency, 600, 0⟩)

/-- Either shop issues a receipt. -/
def issuing (n : UInt8) : Instruction :=
  .issueReceipt ⟨shop, .receipt shop (hash n) 255, key 1, key 2⟩ (hash n) 1

def issuingOther (n : UInt8) : Instruction :=
  .issueReceipt ⟨otherShop, .receipt otherShop (hash n) 255, key 3, key 4⟩ (hash n) 1

end Sample

/-- Another shop is registered while a receipt of the first is out. -/
theorem tenant_isolation_registered : ∃ hist s s', Run Sample.platform Sample.start hist s ∧
    (s.receipt? (.receipt Sample.shop (Sample.hash 7) 255)).isSome = true ∧
    Next Sample.platform s (Sample.registerOther 1020) s' ∧
    s'.cell (.receipt Sample.shop (Sample.hash 7) 255) = s.cell
    (.receipt Sample.shop (Sample.hash 7) 255) := by
  obtain ⟨hist, s, hrun, -, hp⟩ := Leads.run (P := Sample.platform) (s := Sample.start)
    (l := [Sample.register 1000 1 0, Sample.issue 1010 7])
    (p := fun s => decide (∃ r ∈ s.receipt? (.receipt Sample.shop (Sample.hash 7) 255),
      r.business = Sample.shop) &&
      Leads Sample.platform s [Sample.registerOther 1020] fun _ => true)
    (by decide +kernel)
  obtain ⟨hthere, hp⟩ := Bool.and_eq_true_iff.mp hp
  obtain ⟨r, hr, hbus⟩ := of_decide_eq_true hthere
  obtain ⟨s', hn, -⟩ := Leads.step hp
  refine ⟨hist, s, s', hrun, by rw [Option.mem_def.mp hr]; rfl, hn, ?_⟩
  exact (tenant_isolation hrun Sample.start_empty hn (.inl (.receipt (Option.mem_def.mp hr) hbus))
    (by decide)).2
    (by simp)

/-! ## Commuting -/

/-- The wallets an instruction pays from and refunds to. -/
def Instruction.wallets (i : Instruction) : List Address := i.refundees ++ i.payers

/-- What `i` is passed as wallets, `j` is not passed at all; and a clean-up is not passed an account of `j`'s
for one with the voucher's tokens. -/
structure Instruction.Apart (i j : Instruction) : Prop where
  wallets : ∀ a ∈ i.wallets, a ∉ j.accounts ∧ a ∉ j.wallets
  holder : ∀ accs, i = .closeExpiredVoucher accs → accs.holderToken ∉ j.accounts

/-- What an instruction succeeds on in either state is the same in both, when an instruction of another shop
leads from one to the other. -/
theorem process_apart {tx' : Tx} {j : Instruction} {b' : Address} (hs : s.Told P) (hs' : s'.Told P)
    (hb : i.tenant = some b) (hb' : j.tenant = some b') (hne : b ≠ b') (hij : i.Apart j) (hji : j.Apart i)
    (h : process P tx' j s = .ok s')
    (hok : (process P tx i s).isOk = true ∨ (process P tx i s').isOk = true) :
    State.view.Alike (i.writes ∪ i.pays) s s' := by
  obtain ⟨_, _, _, hj, -⟩ := process_refined hs.placed h
  have hwrites : ∀ {k : Instruction} {a}, a ∈ k.writes ∪ k.pays → a ∈ k.accounts ∨ a ∈ k.wallets := by
    intro k a ha
    rcases ha with ha | ha
    · rcases List.mem_append.mp ha with ha | ha
      · exact .inl ha
      · exact .inr (List.mem_append_left _ ha)
    · exact .inr (List.mem_append_right _ ha)
  -- whose the accounts of `i` are, in the state where it succeeds
  have hmine : ∀ a ∈ i.accounts, a ∈ j.accounts → s.shopOf a = some b := by
    intro a ha haj
    have hown : ∀ {t : State}, t.Told P → (process P tx i t).isOk = true → t.shopOf a = some b := by
      intro t ht hok
      cases hr : process P tx i t with
      | error e => rw [hr] at hok; cases hok
      | ok t' =>
        obtain ⟨_, _, _, hi, -⟩ := process_refined ht.placed hr
        rcases hi.accounts_tenant ht.placed ht.vouchers a ha with hshop | ⟨accs, hacc, hun⟩
        · exact hshop.trans hb
        · exact absurd (hun.holder ▸ haj) (hij.holder accs hacc)
    rcases hok with hok | hok
    · exact hown hs hok
    · exact process_shopOf hs hs' h (hown hs' hok)
  intro a ha
  refine ((process_local j).kept h).outside (fun haj => ?_) |>.symm
  rcases hwrites ha with ha | ha
  · rcases hwrites haj with haj | haj
    · rcases hj.accounts_tenant hs.placed hs.vouchers a haj with hshop | ⟨accs, hacc, hun⟩
      · rw [hmine a ha haj, hb', Option.some.injEq] at hshop
        exact hne hshop
      · exact hji.holder accs hacc (hun.holder ▸ ha)
    · exact (hji.wallets a haj).1 ha
  · rcases hwrites haj with haj | haj
    · exact (hij.wallets a ha).1 haj
    · exact (hij.wallets a ha).2 haj

/-- **Instructions for different shops commute**, unless they share a wallet: in either order each succeeds or
fails as it does alone, and everything at every address comes out the same. -/
theorem tenants_commute {tx' : Tx} {j : Instruction} {b' : Address} (h : Run P start hist s)
    (hs : start.Empty) (hsig : ∀ k ∈ tx.signers, k.canSign = true)
    (hsig' : ∀ k ∈ tx'.signers, k.canSign = true)
    (hb : i.tenant = some b) (hb' : j.tenant = some b') (hne : b ≠ b') (hij : i.Apart j) (hji : j.Apart i) :
    CommuteAt State.view (process P tx i) (process P tx' j) s := by
  have htold := h.told hs
  have hnext : ∀ {t : State} {tx : Tx} {i : Instruction}, (∀ k ∈ tx.signers, k.canSign = true) →
      process P tx i s = .ok t → t.Told P :=
    fun {t tx i} hsig hok => h.told_next (c := ⟨tx, .program i⟩) hs ⟨hsig, hok⟩
  exact (process_local i).commute_at (process_local j)
    (fun s' hok hi => process_apart htold (hnext hsig' hok) hb hb' hne hij hji hok hi)
    fun s' hok hj => process_apart htold (hnext hsig hok) hb' hb hne.symm hji hij hok hj

/-- Two shops issue a receipt each. -/
theorem tenants_commute_issued : ∃ hist s, Run Sample.platform Sample.start hist s ∧
    CommuteAt State.view (process Sample.platform ⟨1020, [Sample.key 1, Sample.key 2]⟩ (Sample.issuing 7))
      (process Sample.platform ⟨1020, [Sample.key 3, Sample.key 4]⟩ (Sample.issuingOther 7)) s := by
  obtain ⟨hist, s, hrun, -, -⟩ := Leads.run (P := Sample.platform) (s := Sample.start)
    (l := [Sample.register 1000 1 0, Sample.registerOther 1010])
    (p := fun _ => true) (by decide +kernel)
  refine ⟨hist, s, hrun, tenants_commute hrun Sample.start_empty (by decide) (by decide) rfl rfl (by decide)
    ⟨?_, by simp [Sample.issuing]⟩ ⟨?_, by simp [Sample.issuingOther]⟩⟩
  · decide
  · decide

/-- **An instruction depends on the accounts it is passed and on no others**: nothing else changes, chains
that agree there let it succeed alike and agree there afterwards, and two instructions with no account in
common commute from any state. -/
theorem instruction_confined (P : Platform) (tx : Tx) (i : Instruction) :
    (∀ s s', process P tx i s = .ok s' → State.view.Kept i.writes i.pays s s') ∧
    (∀ s t, State.view.Alike (i.writes ∪ i.pays) s t → (process P tx i s).isOk = (process P tx i t).isOk ∧
      ∀ s' t', process P tx i s = .ok s' → process P tx i t = .ok t' →
        State.view.Alike (i.writes ∪ i.pays) s' t') ∧
    ∀ tx' j, (∀ a ∈ i.writes ∪ i.pays, a ∉ j.writes ∪ j.pays) → ∀ s,
      CommuteAt State.view (process P tx i) (process P tx' j) s := by
  refine ⟨fun s s' h => (process_local i).kept h, fun s t hst => ⟨(process_local i).isOk_of_alike hst, ?_⟩,
    fun tx' j hd s => (process_local i).commute (process_local j) hd s⟩
  intro s' t' hs' ht'
  obtain ⟨u, hu, hsu⟩ := (process_local i).tracks hst hs'
  have hut := hu.symm.trans ht'
  cases hut
  exact hsu

end Passdari
