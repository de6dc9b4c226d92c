/-
The retirement of a card's NFT, for whatever its holder did to it before.
What there is of it is in the customer's account, so the card burns it there,
and closes the mint; only an account that is the card's or the customer's to
close, and refuses, and a count of cycles with no room left, are in the way.
-/
import Passdari.Books.BoundNfts
import Passdari.Books.CloseRights

namespace Passdari

open Wire Token2022

variable {P : Platform} {tx : Tx} {s s' start : State} {hist : History} {c : Call} {cs : List Change}
  {calls : List TokenCall} {ps : List Payment} {action : Action} {A M X : Address} {m : Mint Address}
  {customer dest : Address} {z : LoyaltyCard} {bump : UInt8}

/-! ## The burning -/

/-- The account at `X` refuses to be closed: its guard is on, the rent would go to another wallet than its
owner's, and the card, or the customer where they sign, is who would close it. -/
def State.Refuses (s : State) (A X : Address) (signed : Bool) (dest : Address) : Prop :=
  ∃ x, s.tokens.accounts.lookup X = some x ∧ x.cpiGuard = true ∧ dest ≠ x.owner ∧
    (x.closeAuthority = some A ∨ signed = true ∧ x.closeAuthority = none)

/-- The NFT at `M` of the card at `A` is live, and what there is of it is in the customer's account at `X`. -/
structure LiveNft (s : State) (A M X customer : Address) (m : Mint Address) : Prop where
  mint : s.tokens.mints.lookup M = some m
  obeys : IsCardMint A m
  bound : s.tokens.Bound M X customer
  mintOnly : s.tokens.accounts.lookup M = none
  accountOnly : s.tokens.mints.lookup X = none
  other : customer ≠ A

theorem LiveNft.ne (h : LiveNft s A M X customer m) : X ≠ M := by
  intro heq
  subst heq
  cases h.accountOnly.symm.trans h.mint

theorem LiveNft.emptied (h : LiveNft s A M X customer m) (tx : Tx) {x : Account Address}
    (hx : s.tokens.accounts.lookup X = some x) :
    ∃ s₁ m₁, (if 0 < x.amount then invoke (A :: tx.signers) s (.burn X M A x.amount 0) else pure s) = .ok s₁ ∧
      s₁.program = s.program ∧ s₁.tokens.accounts.lookup X = some { x with amount := 0 } ∧
      LiveNft s₁ A M X customer m₁ := by
  by_cases hpos : 0 < x.amount
  · have hfast := h.bound.fast m h.mint
    obtain ⟨hmint, howner⟩ := h.bound.home x hx
    have hsp : Spends ⟨A :: tx.signers, true⟩ m x A x.amount x :=
      ⟨.permanent h.obeys.permanentDelegate, List.mem_cons_self,
        fun hg => h.other (howner.symm.trans hg.1.symm)⟩
    have hd : Did ⟨A :: tx.signers, true⟩ s.tokens (.burn X M A x.amount 0) _ :=
      .burn hx h.mint (h.bound.unfrozen X x hx hmint) (Nat.le_refl _) hmint hfast.decimals hsp
    rw [if_pos hpos]
    refine ⟨_, { m with supply := m.supply - x.amount }, invoke_ok hd, rfl, ?_,
      Store.lookup_insert_self _ _ _, ?_, hd.bound trivial h.bound, ?_, ?_, h.other⟩
    · rw [Tokens.setAccount_accounts, Store.lookup_insert_self, Nat.sub_self]
    · exact ⟨h.obeys.mintAuthority, h.obeys.freezeAuthority, h.obeys.closeAuthority,
        h.obeys.permanentDelegate⟩
    · simp only [Tokens.setAccount_accounts, Tokens.setMint_accounts, Store.lookup_insert, if_neg h.ne.symm,
        h.mintOnly]
    · simp only [Tokens.setAccount_mints, Tokens.setMint_mints, Store.lookup_insert, if_neg h.ne,
        h.accountOnly]
  · have h0 : x.amount = 0 := by omega
    rw [if_neg hpos]
    exact ⟨s, m, rfl, rfl, by rw [hx, ← h0], h⟩

theorem LiveNft.mint_closes (h : LiveNft s A M X customer m) (tx : Tx) (hd : M ≠ dest)
    (h0 : ∀ x, s.tokens.accounts.lookup X = some x → x.amount = 0) :
    ∃ s', invokeClose (A :: tx.signers) s M dest A = .ok s' ∧ s'.program = s.program :=
  ⟨_, invokeClose_ok (.closeMint hd h.mintOnly h.mint h.obeys.closeAuthority List.mem_cons_self
    (h.bound.supply_eq_zero h.mint h0)), rfl⟩

theorem LiveNft.account_closes (h : LiveNft s A M X customer m) {signers : List Address} {closer : Address}
    {x : Account Address} (hx : s.tokens.accounts.lookup X = some x) (h0 : x.amount = 0)
    (hc : x.closer = closer)
    (hsign : closer ∈ signers) (hd : X ≠ dest) (hguard : ¬(x.cpiGuard = true ∧ dest ≠ x.owner)) :
    ∃ s₁, invokeClose signers s X dest closer = .ok s₁ ∧ s₁.program = s.program ∧
      s₁.tokens.accounts.lookup X = none ∧ LiveNft s₁ A M X customer m := by
  have hdid : Did ⟨signers, true⟩ s.tokens (.close X dest closer) _ :=
    .closeAccount hd hx h0 hc hsign fun hg => hguard ⟨hg.1, hg.2.2⟩
  refine ⟨_, invokeClose_ok hdid, rfl, Store.lookup_erase_self _ _, h.mint, h.obeys,
    hdid.bound trivial h.bound, ?_, h.accountOnly, h.other⟩
  show (s.tokens.accounts.erase X).lookup M = none
  rw [Store.lookup_erase, if_neg h.ne.symm, h.mintOnly]

theorem LiveNft.holder_closes (h : LiveNft s A M X customer m) (tx : Tx) {who : Option Address}
    {x : Account Address}
    (hx : s.tokens.accounts.lookup X = some x) (h0 : x.amount = 0)
    (hwho : ∀ a, who = some a → a = customer ∧ a ∈ tx.signers) (hd : X ≠ dest)
    (hfree : ¬s.Refuses A X who.isSome dest) :
    ∃ s₁, (if x.closeAuthority = some A then invokeClose (A :: tx.signers) s X dest A
        else match x.closeAuthority, who with
          | none, some customer => invokeClose tx.signers s X dest customer
          | _, _ => pure s) = .ok s₁ ∧ s₁.program = s.program ∧
      (∀ y, s₁.tokens.accounts.lookup X = some y → y.amount = 0) ∧ LiveNft s₁ A M X customer m := by
  obtain ⟨-, howner⟩ := h.bound.home x hx
  by_cases hA : x.closeAuthority = some A
  · obtain ⟨s₁, hs₁, hprog, hgone, hlive⟩ :=
      h.account_closes hx h0 (show x.closer = A by rw [Account.closer, hA]; rfl)
      (List.mem_cons_self (l := tx.signers)) hd fun hg => hfree ⟨x, hx, hg.1, hg.2, .inl hA⟩
    rw [if_pos hA]
    exact ⟨s₁, hs₁, hprog, fun y hy => absurd (hgone.symm.trans hy) (by simp), hlive⟩
  rw [if_neg hA]
  cases hcl : x.closeAuthority with
  | some a => exact ⟨s, rfl, rfl, fun y hy => by rw [hx] at hy; cases hy; exact h0, h⟩
  | none =>
    cases who with
    | none => exact ⟨s, rfl, rfl, fun y hy => by rw [hx] at hy; cases hy; exact h0, h⟩
    | some signer =>
      obtain ⟨rfl, hsign⟩ := hwho signer rfl
      obtain ⟨s₁, hs₁, hprog, hgone, hlive⟩ := h.account_closes hx h0
        (show x.closer = signer by rw [Account.closer, hcl, Option.getD_none, howner]) hsign hd fun hg =>
          hfree ⟨x, hx, hg.1, hg.2, .inr ⟨rfl, hcl⟩⟩
      exact ⟨s₁, hs₁, hprog, fun y hy => absurd (hgone.symm.trans hy) (by simp), hlive⟩

/-- **A live NFT can be burned and closed**, whatever its holder did to it, unless its account refuses. -/
theorem LiveNft.retires (h : LiveNft s A M X customer m) (tx : Tx) (who : Option Address)
    (hwho : ∀ a, who = some a → a = customer ∧ a ∈ tx.signers) (hdM : M ≠ dest) (hdX : X ≠ dest)
    (hfree : ¬s.Refuses A X who.isSome dest) :
    ∃ s', burnAndCloseCardNft tx (A :: tx.signers) A M X who dest s = .ok s' ∧ s'.program = s.program := by
  unfold burnAndCloseCardNft
  cases hx : s.tokens.accounts.lookup X with
  | none =>
    rw [if_neg (not_inUse.mpr ⟨h.accountOnly, hx⟩)]
    exact h.mint_closes tx hdM fun x hx' => absurd (hx.symm.trans hx') (by simp)
  | some x =>
    rw [if_pos (State.tokenOwned_of_account hx)]
    obtain ⟨s₁, m₁, hburn, hp₁, hx₁, h₁⟩ := h.emptied tx hx
    have hfree₁ : ¬s₁.Refuses A X who.isSome dest := by
      intro hex
      obtain ⟨y, hy, hg, hd, hc⟩ := hex
      rw [hx₁, Option.some.injEq] at hy
      subst hy
      exact hfree ⟨x, hx, hg, hd, hc⟩
    obtain ⟨s₂, hclose, hp₂, h0, h₂⟩ := h₁.holder_closes tx hx₁ rfl hwho hdX hfree₁
    obtain ⟨s₃, hmint, hp₃⟩ := h₂.mint_closes tx hdM h0
    refine ⟨s₃, ?_, hp₃.trans (hp₂.trans hp₁)⟩
    simp only [Except.bind_eq_ok, loadToken_eq_ok]
    refine ⟨x, hx, Except.ite_bind_eq_ok.mpr ⟨s₁, hburn, ?_⟩⟩
    dsimp only at hclose
    split at hclose
    · next hA =>
      rw [if_pos hA]
      exact Except.bind_eq_ok.mpr ⟨s₂, hclose, hmint⟩
    · next hA =>
      rw [if_neg hA]
      cases hcl : x.closeAuthority with
      | some a =>
        simp only [hcl] at hclose ⊢
        exact Except.bind_eq_ok.mpr ⟨s₂, hclose, hmint⟩
      | none =>
        cases who <;> simp only [hcl] at hclose ⊢ <;> exact Except.bind_eq_ok.mpr ⟨s₂, hclose, hmint⟩

theorem burnCardNftCalls_free {t t' : Tokens Address} {who : Option Address} {x : Account Address}
    (h : run t (burnCardNftCalls tx A M X who dest (some x)) = .ok t') (hx : t.accounts.lookup X = some x)
    (hc : x.closeAuthority = some A ∨ who.isSome = true ∧ x.closeAuthority = none) (hg : x.cpiGuard = true) :
    dest = x.owner := by
  obtain ⟨⟨ctx, closer⟩, hwho⟩ := Option.isSome_iff_exists.mp 
    (cardTokenCloser_isSome hc : (cardTokenCloser tx A who x).isSome = true)
  have hcpi : ctx.cpi = true := by
    unfold cardTokenCloser at hwho
    split at hwho
    · cases hwho
      rfl
    · split at hwho <;> cases hwho
      rfl
  rw [burnCardNftCalls, Option.elim_some, hwho, Option.elim_some] at h
  obtain ⟨t₁, hr, -⟩ := run_append_eq_ok.mp h
  obtain ⟨t₂, hburn, hclose⟩ := run_append_eq_ok.mp hr
  obtain ⟨y, hy, hsame⟩ := run_same_rights hburn hx (by
    split
    · rw [List.forall_mem_singleton]
      rfl
    · exact (by simp))
  have hd := run_singleton_eq_ok.mp hclose
  cases hd with
  | closeAccount _ hy' _ _ _ hguard =>
    rw [hy, Option.some.injEq] at hy'
    subst hy'
    by_contra hne
    exact hguard ⟨hsame.cpiGuard.trans hg, hcpi, by rw [hsame.owner]; exact hne⟩
  | closeMint _ hnone =>
    rw [hy] at hnone
    cases hnone

theorem burnAndClose_free {who : Option Address}
    (h : burnAndCloseCardNft tx (A :: tx.signers) A M X who dest s = .ok s') :
    ¬s.Refuses A X who.isSome dest := by
  intro hex
  obtain ⟨x, hx, hg, hd, hc⟩ := hex
  have hrun := (burnAndCloseCardNft_delta h).tokens
  rw [hx] at hrun
  exact hd (burnCardNftCalls_free hrun hx hc hg)

/-! ## The idle sweep -/

theorem State.NftSound.live (hs : s.NftSound P) (hz : s.card? A = some z)
    (hf : findProgramAddress P (.cardMint A z.nftCycle) = some (M, bump))
    (hm : s.tokens.mints.lookup M = some m) :
    LiveNft s A M (.ata z.customer M) z.customer m := by
  have hA := hs.placed.card (State.card?_eq_some.mp hz)
  have hM := findProgramAddress_eq hf
  subst hM
  refine ⟨hm, (hs.nfts _ _ _ m hm).obeys, ?_, ?_, ?_, ?_⟩
  · have hb := hs.bound z.business z.customer z.bump z.nftCycle bump
    rwa [← hA] at hb
  · cases hx : s.tokens.accounts.lookup (.cardMint A z.nftCycle bump) with
    | none => rfl
    | some x => obtain ⟨_, hk⟩ | ⟨_, hk⟩ := hs.accounts _ x hx <;> cases hk
  · cases hm' : s.tokens.mints.lookup (.ata z.customer (.cardMint A z.nftCycle bump)) with
    | none => rfl
    | some m => obtain ⟨_, hk⟩ | hk | hk := hs.mints _ m hm' <;> cases hk
  · intro he
    rw [he] at hA
    have := congrArg sizeOf hA
    simp only [Address.card.sizeOf_spec] at this
    omega

abbrev LoyaltyCard.retirement (z : LoyaltyCard) (A M : Address) : RetireIdleCardNft :=
  ⟨A, z.customer, M, .ata z.customer M, z.rentPayer⟩

/-- Everything but the NFT is ready for the idle sweep: ninety days have passed, and the wallet on record is
one. -/
structure SweepDue (s : State) (tx : Tx) (z : LoyaltyCard) : Prop where
  signers : ∀ a ∈ tx.signers, a.canSign = true
  payer : ¬s.InUse z.rentPayer
  idle : ∃ since, subI64 tx.now z.lastStampTs = .ok since ∧ cardNftIdleSeconds ≤ since

theorem State.NftSound.sweeps_iff (hs : s.NftSound P) (hz : s.card? A = some z)
    (hf : findProgramAddress P (.cardMint A z.nftCycle) = some (M, bump))
    (hm : s.tokens.mints.lookup M = some m)
    (hdue : SweepDue s tx z) : (∃ s', retireIdleCardNft P tx (z.retirement A M) s = .ok s') ↔
      z.nftCycle.toNat + 1 < 2 ^ 32 ∧ ¬s.Refuses A (.ata z.customer M) false z.rentPayer := by
  have hrec := State.card?_eq_some.mp hz
  have hlive := hs.live hz hf hm
  have haddr : createProgramAddress P (.card z.business z.customer) z.bump = some A :=
    createProgramAddress_eq_some.mpr ⟨hs.offCurve A _ hrec, hs.placed.card hrec⟩
  simp only [retireIdleCardNft, Except.bind_eq_ok, load_eq_ok, systemAccount_eq_ok, hasOne_eq_ok,
    seedsConstraint_eq_ok, check_eq_ok, require_eq_ok, withSigner_eq_ok, exists_const]
  constructor
  · intro hex
    obtain ⟨s', z', hrec', -, -, -, _, -, -, since, -, -, signers, ⟨pda, hpda, rfl⟩, s₁, hburn, n, hn, -⟩ :=
      hex
    have hsame : Record.card z = Record.card z' := Option.some.inj (hrec.symm.trans hrec')
    cases hsame
    rw [haddr, Option.some.injEq] at hpda
    subst hpda
    have := n.toNat_lt
    exact ⟨by rw [addU32_eq_ok] at hn; simpa [hn] using this, burnAndClose_free hburn⟩
  · intro hex
    obtain ⟨hcycle, hfree⟩ := hex
    have hM : M ≠ z.rentPayer := by
      intro heq
      subst heq
      exact hdue.payer (State.inUse_iff.mpr (.inr (.inl (Tokens.inUse_of_mint hm))))
    have hX : Address.ata z.customer M ≠ z.rentPayer := by
      intro he
      rcases hs.payers A z hz with hblank | hkey
      · cases he.trans hblank
      · rw [← he] at hkey
        cases hkey
    obtain ⟨s₁, hburn, hprog⟩ := hlive.retires tx none (by simp) hM hX hfree
    obtain ⟨since, hsince, hidle⟩ := hdue.idle
    obtain ⟨n, hn⟩ : ∃ n, addU32 z.nftCycle 1 = .ok n := ⟨z.nftCycle + 1, by
      rw [addU32, check_pos (by simpa using hcycle)]
      rfl⟩
    have hz₁ : s₁.record? A = some (.card z) := by rw [State.record?, hprog]; exact hrec
    obtain ⟨s', hst⟩ := store_ok (T := LoyaltyCard.account) (y := { z with nftCycle := n }) hz₁ (by
      show (Record.card { z with nftCycle := n }).bytes.length ≤ _
      simp [Record.bytes, LoyaltyCard.layout_sized _])
    exact ⟨s', z, hrec, hdue.payer, rfl, rfl, bump, hf, trivial, since, hsince, hidle, _,
      ⟨A, haddr, rfl⟩, s₁, hburn, n, hn, hst⟩

/-! ## What a retirement leaves -/

/-- The NFT at `M` of the card at `A`, which was `z`, is no more, and nobody holds any of it; the card is a
cycle further. -/
structure Retired (s' : State) (A M : Address) (z : LoyaltyCard) : Prop where
  mint : s'.tokens.mints.lookup M = none
  nothing : ∀ a, ¬s'.tokens.Carries M a
  cycle : ∃ z', s'.card? A = some z' ∧ z'.nftCycle.toNat = z.nftCycle.toNat + 1

/-- **A call that burns a card's NFT retires it.** -/
theorem Step.retired (hs : s.NftSound P) (h : Step P s c s' cs calls ps) (hz : s.card? A = some z)
    (hf : findProgramAddress P (.cardMint A z.nftCycle) = some (M, bump)) (hb : BurnsNftOf s A c.action) :
    Retired s' A M z := by
  have hM := findProgramAddress_eq hf
  have hmint : s'.tokens.mints.lookup M = none := by
    obtain ⟨z', M', bump', hz', hf', hburns⟩ := h.effect.burns hb
    obtain ⟨rfl, rfl⟩ := current_nft hz hf hz' hf'
    exact h.burned hs.accounts hburns (by rw [hM]; rfl)
  refine ⟨hmint, ?_, ?_⟩
  · have hadr := hs.placed.card (State.card?_eq_some.mp hz)
    have hbound := (h.nftSound hs).bound z.business z.customer z.bump z.nftCycle bump
    rw [← hadr, ← hM] at hbound
    exact hbound.nothing_left hmint
  · have hrec := State.card?_eq_some.mp hz
    obtain ⟨tx, action⟩ := c
    obtain ⟨he, hch, -⟩ := h
    rcases hb with ⟨accs, rfl, rfl⟩ | ⟨accs, voucherId, uri, rfl, rfl, hlive⟩
    · cases he with
      | retireIdleCardNft hc _ _ _ _ _ _ _ _ hn =>
        rw [hc, Option.some.injEq, Record.card.injEq] at hrec
        subst hrec
        exact ⟨_, State.card?_eq_some.mpr (hch.record? List.mem_cons_self), addU32_eq_ok.mp hn⟩
    · cases he with
      | @mintVoucher _ _ _ _ _ _ _ _ _ _ _ _ _ retired _ hc _ _ _ _ _ _ _ _ _ _ _ _ _ _ hretired hn =>
        obtain rfl : retired = true := hretired.mpr hlive
        rw [hc, Option.some.injEq, Record.card.injEq] at hrec
        subst hrec
        exact ⟨_, State.card?_eq_some.mpr (hch.record? (List.mem_cons_of_mem _ List.mem_cons_self)),
          addU32_eq_ok.mp hn⟩

theorem Step.cycle_kept {accs voucherId uri}
    (h : Step P s ⟨tx, .program (.mintVoucher accs voucherId uri)⟩ s' cs calls ps)
    (hz : s.card? accs.card = some z) (hno : ¬s.TokenOwned accs.cardMint) :
    ∃ z', s'.card? accs.card = some z' ∧ z'.nftCycle = z.nftCycle := by
  have hrec := State.card?_eq_some.mp hz
  obtain ⟨he, hch, -⟩ := h
  cases he with
  | @mintVoucher _ _ _ _ _ _ _ _ _ _ _ _ _ retired _ hc _ _ _ _ _ _ _ _ _ _ _ _ _ _ hretired hn =>
    obtain rfl : retired = false := by
      rw [← Bool.not_eq_true, hretired]
      exact hno
    rw [hc, Option.some.injEq, Record.card.injEq] at hrec
    subst hrec
    exact ⟨_, State.card?_eq_some.mpr (hch.record? (List.mem_cons_of_mem _ List.mem_cons_self)),
      (Except.ok.inj hn).symm⟩

/-! ## Cashing in -/

/-- Who a cash-in sends the rent of the card's NFT to. -/
def MintVoucher.refundee (accs : MintVoucher) (z : LoyaltyCard) : Address :=
  if z.rentPayer = .default then accs.relayer else z.rentPayer

variable {accs : MintVoucher} {voucherId : UInt64} {uri : Text} {b b' : Business} {z' : LoyaltyCard}
  {v : Voucher} {s₁ : State} {ws : List Write} {name : String}

theorem LiveNft.reached (h : LiveNft s A accs.cardMint accs.cardToken customer m)
    (hin : CashesIn P tx s accs voucherId uri b b' z z' v)
    (hat : accs.cardToken = .ata customer accs.cardMint)
    (hd : Delta s s₁ ws (mintVoucherCalls tx accs name uri) ps) :
    LiveNft s₁ A accs.cardMint accs.cardToken customer m where
  mint := (hin.frame hd _ (.inl rfl)).1.trans h.mint
  obeys := h.obeys
  bound := by
    obtain ⟨_, hmint⟩ := hin.mint
    obtain ⟨_, hcardMint⟩ := hin.cardMint
    have hne : accs.mint ≠ accs.cardMint := by
      rw [findProgramAddress_eq hmint, findProgramAddress_eq hcardMint]
      simp
    have hb := h.bound
    rw [hat] at hb ⊢
    exact run_bound hd.tokens hb (mintVoucherCalls_bind hne hin.customerToken)
  mintOnly := (hin.frame hd _ (.inl rfl)).2.trans h.mintOnly
  accountOnly := (hin.frame hd _ (.inr rfl)).1.trans h.accountOnly
  other := h.other

theorem CashesIn.stores (hin : CashesIn P tx s accs voucherId uri b b' z z' v)
    (hd : Delta s s₁ [⟨accs.voucher, some (List.replicate Voucher.space (.lit 0))⟩] calls ps) {s₂ : State}
    (hprog : s₂.program = s₁.program) (n : UInt32) :
    ∃ s₃ s₄ s', store Business.account s₂ accs.business b' = .ok s₃ ∧
      store LoyaltyCard.account s₃ accs.card { z' with nftCycle := n } = .ok s₄ ∧
      store Voucher.account s₄ accs.voucher v = .ok s' := by
  have hbc : accs.business ≠ accs.card := ne_of_record? hin.business hin.card (by simp)
  have hbv : accs.business ≠ accs.voucher := ne_of_not_inUse hin.business hin.voucherFree
  have hcv : accs.card ≠ accs.voucher := ne_of_not_inUse hin.card hin.voucherFree
  have hlook : ∀ a, a ≠ accs.voucher → s₂.program.lookup a = s.program.lookup a := fun a ha => by
    rw [hprog, hd.program, patch_cons, patch_nil]
    exact if_neg (Ne.symm ha)
  obtain ⟨_, -, hok⟩ := hin.voucher
  obtain ⟨-, -, -, _, _, _, -, -, -, hb', -⟩ := mintVoucherHandler_eq_ok hok
  have hb₂ : s₂.record? accs.business = some (.business b) := by
    rw [State.record?, hlook _ hbv]
    exact hin.business
  obtain ⟨s₃, h₃⟩ := store_business_ok b' hb₂ (by rw [hb']) (by rw [hb']) (by rw [hb']) (by rw [hb'])
  have hz₃ : s₃.record? accs.card = some (.card z) := by
    rw [State.record?, store_program h₃ hbc.symm, hlook _ hcv]
    exact hin.card
  obtain ⟨s₄, h₄⟩ := store_ok (T := LoyaltyCard.account) (y := { z' with nftCycle := n }) hz₃ (by
    show (Record.card { z' with nftCycle := n }).bytes.length ≤ _
    simp [Record.bytes, LoyaltyCard.layout_sized _])
  have hzeros : s₄.program.lookup accs.voucher = some (List.replicate Voucher.space (.lit 0)) := by
    rw [store_program h₄ hcv.symm, store_program h₃ hbv.symm, hprog, hd.program, patch_cons, patch_nil]
    exact if_pos rfl
  refine ⟨s₃, s₄, _, h₃, h₄, store_eq_ok.mpr ⟨_, hzeros, ?_, rfl⟩⟩
  rw [show (Voucher.account.record v).bytes.length = Voucher.space from
    Record.length_bytes (r := .voucher v) fun _ h => (by cases h), List.length_replicate]

theorem LiveNft.retires_in_cashIn (h : LiveNft s₁ accs.card accs.cardMint accs.cardToken accs.customer m)
    (hin : CashesIn P tx s accs voucherId uri b b' z z' v) (hM : accs.cardMint ≠ accs.refundee z)
    (hX : accs.cardToken ≠ accs.refundee z) (hpayer : z.rentPayer = .default ∨
      accs.cardRentPayer = z.rentPayer)
    (hfree : ¬s₁.Refuses accs.card accs.cardToken true (accs.refundee z)) :
    ∃ s₂, retireCardNft P tx accs z' s₁ = .ok (s₂, true) ∧ s₂.program = s₁.program := by
  obtain ⟨-, hpay, hbus, hcus, hbump⟩ := hin.kept
  obtain ⟨s₂, hburn, hprog⟩ := h.retires tx (some accs.customer)
    (fun a ha => by cases ha; exact ⟨rfl, hin.customer⟩) hM hX hfree
  have hsigner : withSigner P tx (.card z'.business z'.customer) z'.bump = .ok (accs.card :: tx.signers) := by
    rw [withSigner_eq_ok]
    exact ⟨_, by rw [hbus, hcus, hbump, hin.ofBusiness, hin.ofCustomer]; exact hin.cardAddress, rfl⟩
  refine ⟨s₂, ?_, hprog⟩
  unfold retireCardNft
  rw [if_pos (Tokens.inUse_of_mint h.mint), hpay, hsigner]
  unfold MintVoucher.refundee at hburn
  by_cases hdef : z.rentPayer = .default
  · rw [if_pos hdef] at hburn ⊢
    simp only [pure_bind, Except.ok_bind, hburn]
    rfl
  · have hnamed := hpayer.resolve_left hdef
    rw [if_neg hdef] at hburn ⊢
    simp only [require, Except.ok_bind, pure_bind, hnamed, hburn]
    rfl

/-- Everything but the NFT of the card at `A` is ready for a cash-in: the call comes to the step at its
NFT. -/
structure CashInDue (P : Platform) (s : State) (tx : Tx) (accs : MintVoucher) (voucherId : UInt64)
    (uri : Text) (A : Address) :
    Prop where
  signers : ∀ a ∈ tx.signers, a.canSign = true
  card : accs.card = A
  reached : ∃ r, mintVoucherUpToNft P tx accs voucherId uri s = .ok r

theorem CashesIn.retired (hw : s.WellPlaced) (hin : CashesIn P tx s accs voucherId uri b b' z z' v)
    (hd : Delta s s₁ ws (mintVoucherCalls tx accs name uri) ps) (hlive : s.TokenOwned accs.cardMint)
    (h : mintVoucherFromNft P tx accs b' z' v s₁ = .ok s') :
    z.nftCycle.toNat + 1 < 2 ^ 32 ∧ ¬s.Refuses accs.card accs.cardToken true (accs.refundee z) := by
  obtain ⟨hcycle, hpay, hbus, hcus, hbump⟩ := hin.kept
  have hadr : accs.card = .card z'.business z'.customer z'.bump := by
    rw [hbus, hcus, hbump]
    exact hw.card hin.card
  simp only [mintVoucherFromNft, Except.bind_eq_ok] at h
  obtain ⟨⟨s₂, retired⟩, hretire, h⟩ := h
  obtain ⟨n, hn, -⟩ := Except.ite_bind_eq_ok.mp h
  obtain ⟨hretired, dest, hdest, hburn⟩ := retireCardNft_delta hadr hretire
  have howned : s₁.TokenOwned accs.cardMint := by
    by_contra hno
    obtain ⟨hm, hx⟩ := hin.frame hd _ (.inl rfl)
    exact not_inUse.mpr ⟨hm.symm.trans (not_inUse.mp hno).1, hx.symm.trans (not_inUse.mp hno).2⟩ hlive
  obtain rfl : retired = true := hretired.mpr howned
  constructor
  · have := n.toNat_lt
    rw [if_pos rfl, addU32_eq_ok, hcycle] at hn
    simpa [hn] using this
  · intro hex
    obtain ⟨x, hx, hg, hne, hc⟩ := hex
    obtain ⟨-, hsame⟩ := hin.frame hd _ (.inr rfl)
    have hrun := hburn.tokens
    rw [if_pos rfl, hsame, hx] at hrun
    refine hne ?_
    rw [← burnCardNftCalls_free hrun (hsame.trans hx) (hc.imp_right fun h => ⟨rfl, h.2⟩) hg]
    unfold MintVoucher.refundee
    rw [hpay] at hdest
    split <;> rename_i hdef
    · rw [if_pos hdef] at hdest
      exact hdest.symm
    · rw [if_neg hdef] at hdest
      exact hdest.symm

theorem CashInDue.cashesIn (h : CashInDue P s tx accs voucherId uri A) (hw : s.WellPlaced)
    (hz : s.card? A = some z)
    (hf : findProgramAddress P (.cardMint A z.nftCycle) = some (M, bump)) : ∃ s₁ b b' z' v ps,
      mintVoucherUpToNft P tx accs voucherId uri s = .ok (s₁, b', z', v) ∧
      CashesIn P tx s accs voucherId uri b b' z z' v ∧
      Delta s s₁ [⟨accs.voucher, some (List.replicate Voucher.space (.lit 0))⟩]
        (mintVoucherCalls tx accs (voucherName b.toBusinessV1) uri) ps ∧
      accs.cardMint = M ∧ accs.cardToken = .ata z.customer M := by
  obtain ⟨⟨s₁, b', z', v⟩, hup⟩ := h.reached
  obtain ⟨b, z₀, hin, hd⟩ := mintVoucherUpToNft_eq_ok hw hup
  obtain rfl : accs.card = A := h.card
  have hsame : Record.card z = Record.card z₀ :=
    Option.some.inj ((State.card?_eq_some.mp hz).symm.trans hin.card)
  cases hsame
  obtain ⟨_, hcardMint⟩ := hin.cardMint
  rw [hf, Option.some.injEq, Prod.mk.injEq] at hcardMint
  obtain ⟨rfl, -⟩ := hcardMint
  exact ⟨s₁, b, b', z', v, _, hup, hin, hd, rfl, by rw [hin.cardToken, hin.ofCustomer]⟩

theorem State.NftSound.cashes_in_iff (hs : s.NftSound P) (hz : s.card? A = some z)
    (hf : findProgramAddress P (.cardMint A z.nftCycle) = some (M, bump))
    (hm : s.tokens.mints.lookup M = some m)
    (hdue : CashInDue P s tx accs voucherId uri A)
    (hpayer : z.rentPayer = .default ∨ accs.cardRentPayer = z.rentPayer) :
    (∃ s', mintVoucher P tx accs voucherId uri s = .ok s') ↔
      z.nftCycle.toNat + 1 < 2 ^ 32 ∧ ¬s.Refuses A (.ata z.customer M) true (accs.refundee z) := by
  obtain ⟨s₁, b, b', z', v, ps, hup, hin, hd, rfl, hat⟩ := hdue.cashesIn hs.placed hz hf
  obtain rfl : accs.card = A := hdue.card
  rw [mintVoucher_eq, hup, Except.ok_bind, ← hat]
  constructor
  · intro hex
    obtain ⟨s', h⟩ := hex
    exact hin.retired hs.placed hd (Tokens.inUse_of_mint hm) h
  · intro hex
    obtain ⟨hcycle, hfree⟩ := hex
    have hlive := hs.live hz hf hm
    rw [← hat] at hlive
    have hlive₁ := hlive.reached hin hat hd
    have hkey : (accs.refundee z).canSign = true := by
      unfold MintVoucher.refundee
      split
      · exact hdue.signers _ hin.relayer
      · next hpaid => exact (hs.payers _ z hz).resolve_left hpaid
    have hM : accs.cardMint ≠ accs.refundee z := by
      intro he
      rw [← he, findProgramAddress_eq hf] at hkey
      cases hkey
    have hX : accs.cardToken ≠ accs.refundee z := by
      intro he
      rw [← he, hat] at hkey
      cases hkey
    have hfree₁ : ¬s₁.Refuses accs.card accs.cardToken true (accs.refundee z) := by
      intro hex
      obtain ⟨x, hx, hrest⟩ := hex
      exact hfree ⟨x, (hin.frame hd _ (.inr rfl)).2.symm.trans hx, hrest⟩
    rw [hin.ofCustomer] at hlive₁
    obtain ⟨s₂, hretire, hprog⟩ := hlive₁.retires_in_cashIn hin hM hX hpayer hfree₁
    obtain ⟨n, hn⟩ : ∃ n, addU32 z'.nftCycle 1 = .ok n := ⟨z.nftCycle + 1, by
      rw [hin.kept.1, addU32, check_pos (by simpa using hcycle)]
      rfl⟩
    obtain ⟨s₃, s₄, s', h₃, h₄, h'⟩ := hin.stores hd hprog n
    refine ⟨s', ?_⟩
    simp only [mintVoucherFromNft, hretire, Except.ok_bind, if_true, hn, h₃, h₄, h']

theorem State.NftSound.cashes_in_without (hs : s.NftSound P) (hz : s.card? A = some z)
    (hf : findProgramAddress P (.cardMint A z.nftCycle) = some (M, bump)) (hno : ¬s.TokenOwned M)
    (hdue : CashInDue P s tx accs voucherId uri A) :
    accs.cardMint = M ∧ ∃ s', mintVoucher P tx accs voucherId uri s = .ok s' := by
  obtain ⟨s₁, b, b', z', v, ps, hup, hin, hd, rfl, -⟩ := hdue.cashesIn hs.placed hz hf
  have hno₁ : ¬s₁.TokenOwned accs.cardMint := by
    obtain ⟨hm, hx⟩ := hin.frame hd _ (.inl rfl)
    exact not_inUse.mpr ⟨hm.trans (not_inUse.mp hno).1, hx.trans (not_inUse.mp hno).2⟩
  obtain ⟨s₃, s₄, s', h₃, h₄, h'⟩ := hin.stores hd rfl z'.nftCycle
  refine ⟨rfl, s', ?_⟩
  rw [mintVoucher_eq, hup, Except.ok_bind]
  simp only [mintVoucherFromNft, retireCardNft, if_neg hno₁, pure_bind, h₃, Except.ok_bind, h₄, h']
  rfl

/-! ## Whole runs -/

/-- **When a card's NFT can be retired.** After every run, whatever was done to the NFT and whomever the
customer's account for it names: the idle sweep and a cash-in that comes to its step go through, and leave
nothing of the NFT and the card one cycle further, exactly when the card's count of cycles has room for one
more and the account does not refuse; and a cash-in without an NFT passes its step over, and leaves the
count. -/
theorem card_nft_retires_iff (h : Run P start hist s) (hs : start.NftSound P) (hz : s.card? A = some z)
    (hf : findProgramAddress P (.cardMint A z.nftCycle) = some (M, bump)) :
    (∀ m, s.tokens.mints.lookup M = some m →
      (∀ tx, SweepDue s tx z →
        ((∃ s', Next P s ⟨tx, .program (.retireIdleCardNft (z.retirement A M))⟩ s' ∧ Retired s' A M z) ↔
          z.nftCycle.toNat + 1 < 2 ^ 32 ∧ ¬s.Refuses A (.ata z.customer M) false z.rentPayer)) ∧
      ∀ tx accs voucherId uri, CashInDue P s tx accs voucherId uri A →
        z.rentPayer = .default ∨ accs.cardRentPayer = z.rentPayer →
        ((∃ s', Next P s ⟨tx, .program (.mintVoucher accs voucherId uri)⟩ s' ∧ Retired s' A M z) ↔
          z.nftCycle.toNat + 1 < 2 ^ 32 ∧ ¬s.Refuses A (.ata z.customer M) true (accs.refundee z))) ∧
    (s.tokens.mints.lookup M = none → ∀ tx accs voucherId uri, CashInDue P s tx accs voucherId uri A →
      ∃ s', Next P s ⟨tx, .program (.mintVoucher accs voucherId uri)⟩ s' ∧
        ∃ z', s'.card? A = some z' ∧ z'.nftCycle = z.nftCycle) := by
  have hsound := h.nftSound hs
  constructor
  · intro m hm
    constructor
    · intro tx hdue
      rw [← hsound.sweeps_iff hz hf hm hdue]
      refine ⟨fun ⟨s', hnext, _⟩ => ⟨s', hnext.2⟩, fun ⟨s', hok⟩ => ?_⟩
      have hnext : Next P s ⟨tx, .program (.retireIdleCardNft (z.retirement A M))⟩ s' := ⟨hdue.signers, hok⟩
      obtain ⟨cs, calls, ps, hst⟩ := hnext.step hsound.placed
      exact ⟨s', hnext, hst.retired hsound hz hf (.inl ⟨_, rfl, rfl⟩)⟩
    · intro tx accs voucherId uri hdue hpayer
      rw [← hsound.cashes_in_iff hz hf hm hdue hpayer]
      refine ⟨fun ⟨s', hnext, _⟩ => ⟨s', hnext.2⟩, fun ⟨s', hok⟩ => ?_⟩
      have hnext : Next P s ⟨tx, .program (.mintVoucher accs voucherId uri)⟩ s' := ⟨hdue.signers, hok⟩
      obtain ⟨cs, calls, ps, hst⟩ := hnext.step hsound.placed
      obtain ⟨_, _, _, _, _, _, -, -, -, rfl, -⟩ := hdue.cashesIn hsound.placed hz hf
      exact ⟨s', hnext, hst.retired hsound hz hf
        (.inr ⟨accs, voucherId, uri, rfl, hdue.card, Tokens.inUse_of_mint hm⟩)⟩
  · intro hm tx accs voucherId uri hdue
    have hM := findProgramAddress_eq hf
    have hno : ¬s.TokenOwned M := by
      refine not_inUse.mpr ⟨hm, ?_⟩
      cases hx : s.tokens.accounts.lookup M with
      | none => rfl
      | some x =>
        rw [hM] at hx
        obtain ⟨_, hk⟩ | ⟨_, hk⟩ := hsound.accounts _ x hx <;> cases hk
    obtain ⟨rfl, s', hok⟩ := hsound.cashes_in_without hz hf hno hdue
    have hnext : Next P s ⟨tx, .program (.mintVoucher accs voucherId uri)⟩ s' := ⟨hdue.signers, hok⟩
    obtain ⟨cs, calls, ps, hst⟩ := hnext.step hsound.placed
    obtain rfl := hdue.card
    exact ⟨s', hnext, hst.cycle_kept hz hno⟩

namespace Sample

/-- The customer `key c` burns their NFT, and turns their account's guard on. -/
def burnNft (now : Int64) (c : UInt8) : Call :=
  ⟨⟨now, [key c]⟩, .wallet (.token (.burn (nftToken c 0) (nft c 0) (key c) 1 0) false)⟩

def guardNft (now : Int64) (c : UInt8) : Call :=
  ⟨⟨now, [key c]⟩, .wallet (.token (.cpiGuard (nftToken c 0) (key c) true) false)⟩

def openNft (now : Int64) (c d : UInt8) : Call :=
  ⟨⟨now, [key d]⟩, .wallet (.openToken (key d) (.ata (key d) (nft c 0)) (nft c 0) (key d) true 100)⟩

def minted : List Call := [register 1000 1 0, issue 1010 7, claim 1020 9 7, mintNft 1025 9 (key 2)]

/-- The NFT of the first cycle is live, its account does not mind being closed, and it is due for the
sweep. -/
def sweepable (s : State) : Bool :=
  (s.card? (card 9)).any (fun z => z.nftCycle = 0 ∧ z.customer = key 9 ∧ z.rentPayer = key 2 ∧
    z.lastStampTs = 1020) &&
    (s.tokens.mints.lookup (nft 9 0)).isSome && decide (¬s.InUse (key 2))

end Sample

/-- Burned by its holder, and with another account about, the NFT is swept away. -/
theorem card_nft_retires_burned : ∃ hist s s' z, Run Sample.platform Sample.start hist s ∧ hist.length = 7 ∧
    Next Sample.platform s
    ⟨⟨7777020, []⟩, .program (.retireIdleCardNft (z.retirement (Sample.card 9) (Sample.nft 9 0)))⟩ s' ∧
    Retired s' (Sample.card 9) (Sample.nft 9 0) z := by
  obtain ⟨hist, s, hrun, hcalls, hp⟩ := Leads.run (P := Sample.platform) (s := Sample.start)
    (l := Sample.minted ++ [Sample.burnNft 1030 9, Sample.openNft 1040 9 8,
      ⟨⟨1050, [Sample.key 8]⟩, .wallet (.pay (Sample.key 8) (Sample.nft 9 0) 5)⟩])
    (p := fun s => Sample.sweepable s && (s.tokens.accounts.lookup (Sample.nftToken 9 0)).all fun x =>
      !x.cpiGuard)
    (by decide +kernel)
  simp only [Sample.sweepable, Bool.and_eq_true, decide_eq_true_eq] at hp
  obtain ⟨⟨⟨hcard, hmint⟩, hsystem⟩, hguard⟩ := hp
  obtain ⟨z, hz, hfields⟩ := (Option.any_eq_true _ _).mp hcard
  obtain ⟨hcycle, hcustomer, hpayer, hstamp⟩ := of_decide_eq_true hfields
  obtain ⟨m, hm⟩ := Option.isSome_iff_exists.mp hmint
  have hfree : ¬s.Refuses (Sample.card 9) (.ata z.customer (Sample.nft 9 0)) false z.rentPayer := by
    intro hex
    obtain ⟨x, hx, hg, -⟩ := hex
    rw [hcustomer] at hx
    rw [show s.tokens.accounts.lookup (Sample.nftToken 9 0) = some x from hx, Option.all_some, hg] at hguard
    cases hguard
  have hf : findProgramAddress Sample.platform (.cardMint (Sample.card 9) z.nftCycle) = some
    (Sample.nft 9 0, 255) := by
    rw [hcycle]
    rfl
  obtain ⟨s', hnext, hretired⟩ :=
    (((card_nft_retires_iff hrun Sample.start_empty.nftSound hz hf).1 m hm).1 ⟨7777020, []⟩
      ⟨nofun, by rw [hpayer]; exact hsystem, 7776000, by rw [hstamp]; rfl, by decide⟩).mpr
      ⟨by rw [hcycle]; decide, hfree⟩
  exact ⟨hist, s, s', z, hrun, by simpa [Sample.minted] using congrArg List.length hcalls, hnext, hretired⟩

/-! ## Cycle after cycle -/

theorem Purse.pay_topUp (p : Purse) (kind : MoveKind) {payer a : Address} {rent : Nat} (hne : a ≠ payer)
    (hf : rent - p.lamports a ≤ p.lamports payer) :
    (p.pay (.topUp kind payer a rent)).lamports payer + (p.pay (.topUp kind payer a rent)).lamports a =
      p.lamports payer + p.lamports a ∧
    ∀ e, e ≠ payer → e ≠ a → (p.pay (.topUp kind payer a rent)).lamports e = p.lamports e := by
  unfold Purse.pay
  dsimp only
  split
  · exact ⟨rfl, fun _ _ _ => rfl⟩
  · constructor
    · simp only [Purse.move, Function.update_self, Function.update_of_ne hne.symm, Function.update_of_ne hne]
      omega
    · intro e hp ha
      simp only [Purse.move, Function.update_of_ne hp, Function.update_of_ne ha]

theorem Purse.pay_empty (p : Purse) (kind : MoveKind) {a dest : Address} (hne : a ≠ dest) :
    (p.pay (.empty kind a dest)).lamports dest = p.lamports dest + p.lamports a ∧
    ∀ e, e ≠ dest → e ≠ a → (p.pay (.empty kind a dest)).lamports e = p.lamports e := by
  constructor
  · simp only [Purse.pay, Purse.move, Function.update_self, Function.update_of_ne hne.symm]
  · intro e hd ha
    simp only [Purse.pay, Purse.move, Function.update_of_ne hd, Function.update_of_ne ha]

theorem Step.minted_lamports {accs : MintCardNft} {uri : Text}
    (h : Step P s ⟨tx, .program (.mintCardNft accs uri)⟩ s' cs calls ps)
    (hM : accs.mint ≠ accs.relayer) (hX : accs.customerToken ≠ accs.relayer)
    (hXM : accs.customerToken ≠ accs.mint) :
    s'.lamports accs.relayer + s'.lamports accs.mint + s'.lamports accs.customerToken =
      s.lamports accs.relayer + s.lamports accs.mint + s.lamports accs.customerToken := by
  have hpurse := congrArg Purse.lamports h.purse
  have hfunded := h.funded
  obtain ⟨he, -⟩ := h
  cases he with
  | mintCardNft =>
    obtain ⟨hf₁, hf₂, -⟩ := hfunded
    obtain ⟨h₁, hrest₁⟩ := s.purse.pay_topUp .deposit hM hf₁
    obtain ⟨h₂, hrest₂⟩ := (s.purse.pay (.topUp .deposit accs.relayer accs.mint _)).pay_topUp .deposit hX hf₂
    have hmint := hrest₂ accs.mint hM hXM.symm
    have htoken := hrest₁ accs.customerToken hX hXM
    simp only [State.purse, Purse.settle, List.foldl_cons, List.foldl_nil] at hpurse h₁ h₂ hmint htoken
    rw [hpurse]
    omega

theorem Step.swept_lamports {accs : RetireIdleCardNft}
    (h : Step P s ⟨tx, .program (.retireIdleCardNft accs)⟩ s' cs calls ps)
    (hM : accs.cardMint ≠ accs.rentPayer) (hX : accs.cardToken ≠ accs.rentPayer)
    (hXM : accs.cardToken ≠ accs.cardMint)
    {x : Account Address} (hx : s.tokens.accounts.lookup accs.cardToken = some x)
    (hc : x.closeAuthority = some accs.card) :
    s'.lamports accs.rentPayer =
      s.lamports accs.rentPayer + s.lamports accs.cardMint + s.lamports accs.cardToken := by
  have hpurse := congrArg Purse.lamports h.purse
  obtain ⟨he, -⟩ := h
  cases he with
  | retireIdleCardNft =>
    obtain ⟨h₁, hrest₁⟩ := s.purse.pay_empty .refund hX
    obtain ⟨h₂, -⟩ := (s.purse.pay (.empty .refund accs.cardToken accs.rentPayer)).pay_empty .refund hM
    have hmint := hrest₁ accs.cardMint hM hXM.symm
    have hcloser : cardTokenCloser tx accs.card none x = some (pdaCtx tx accs.card, accs.card) := if_pos hc
    rw [hx, burnCardNftPayments, Option.elim_some, hcloser, Option.elim_some] at hpurse
    simp only [State.purse, Purse.settle, List.cons_append, List.nil_append, List.foldl_cons, List.foldl_nil]
      at hpurse h₁ h₂ hmint
    rw [hpurse]
    omega

namespace Sample

/-- The card of the customer `key 9` is in its `n`-th cycle, without an NFT, and idle for ninety days at
7777020. -/
structure Cycling (s : State) (n : Nat) (z : LoyaltyCard) (b : Business) : Prop where
  run : ∃ hist, Run platform Sample.start hist s
  card : s.card? (Sample.card 9) = some z
  cycle : z.nftCycle.toNat = n
  business : z.business = Sample.shop
  customer : z.customer = key 9
  payer : z.rentPayer = key 2
  stamp : z.lastStampTs = 1020
  shop : s.business? Sample.shop = some b
  unminted : s.tokens.mints.lookup (nft 9 z.nftCycle) = none
  system : ¬s.InUse (key 2)
  funds : nftCost platform b.name.val "u" ≤ s.lamports (key 2)

theorem find_nft (n : UInt32) : findProgramAddress platform (.cardMint (Sample.card 9) n) = some
    (nft 9 n, 255) := rfl

/-- With its NFT minted, which is not guarded. -/
structure Minted (s s₁ : State) (z : LoyaltyCard) (b : Business) : Prop where
  run : ∃ hist, Run platform Sample.start hist s₁
  card : s₁.card? (Sample.card 9) = some z
  shop : s₁.business? Sample.shop = some b
  mint : ∃ m, s₁.tokens.mints.lookup (nft 9 z.nftCycle) = some m
  token : s₁.tokens.accounts.lookup (nftToken 9 z.nftCycle) =
    some (mintedCardToken (Sample.card 9) (nft 9 z.nftCycle) (key 9))
  system : ¬s₁.InUse (key 2)
  lamports : s₁.lamports (key 2) + s₁.lamports (nft 9 z.nftCycle) + s₁.lamports (nftToken 9 z.nftCycle) =
    s.lamports (key 2) + s.lamports (nft 9 z.nftCycle) + s.lamports (nftToken 9 z.nftCycle)

theorem Cycling.minted {n : Nat} {b : Business} (h : Cycling s n z b) : ∃ s₁, Minted s s₁ z b := by
  obtain ⟨hist, hrun⟩ := h.run
  have hw := hrun.wellPlaced start_empty.wellPlaced
  obtain ⟨hM, hX⟩ : ¬s.InUse (nft 9 z.nftCycle) ∧ ¬s.InUse (nftToken 9 z.nftCycle) :=
    (hrun.sound_of_empty start_empty).nft_free h.unminted
  let tx : Tx := ⟨7777020, [key 9, key 2]⟩
  have hsig : ∀ a ∈ tx.signers, a.canSign = true := by decide
  let uri : Text := ⟨"u", by decide⟩
  let accs : MintCardNft :=
    ⟨Sample.shop, Sample.card 9, nft 9 z.nftCycle, nftToken 9 z.nftCycle, key 9, key 2⟩
  have hpda : createProgramAddress platform (.card accs.business accs.customer) z.bump = some accs.card := by
    refine createProgramAddress_eq_some.mpr ⟨rfl, ?_⟩
    have := hw.card (State.card?_eq_some.mp h.card)
    rwa [h.business, h.customer] at this
  obtain ⟨s₁, hok⟩ := mintCardNft_ok (P := platform) accs h.shop h.card
    (show key 9 ∈ tx.signers by simp [tx]) (show key 2 ∈ tx.signers by simp [tx]) hpda h.business h.customer
    (find_nft z.nftCycle) (show uri.len ≤ maxVoucherUriLen by decide) hM rfl hX h.system rfl h.funds
  have hnext : Next platform s ⟨tx, .program (.mintCardNft accs uri)⟩ s₁ := ⟨hsig, hok⟩
  obtain ⟨cs, calls, ps, hst⟩ := hnext.step hw
  obtain ⟨_, _, name, hz, -, -, -, -, hcalls, hsame⟩ := hst.mintCardNft
  have hrunCalls := hst.tokens
  rw [hcalls] at hrunCalls
  obtain ⟨hm, hx⟩ := run_mintCardNftCalls hrunCalls
  refine ⟨s₁, ⟨_, hrun.step hnext⟩, ?_, ?_, ⟨_, hm⟩, hx, hst.key_free hw rfl rfl h.system (by simp), ?_⟩
  · rw [State.card?, hsame]
    exact h.card
  · rw [State.business?, hsame]
    exact h.shop
  · exact hst.minted_lamports (fun h => by cases h) (fun h => by cases h) (fun h => by cases h)

theorem Cycling.next {n : Nat} {b : Business} (h : Cycling s n z b) (hn : n + 1 < 2 ^ 32) :
    ∃ s' z', Cycling s' (n + 1) z' b := by
  obtain ⟨s₁, h₁⟩ := h.minted
  obtain ⟨hist, hrun⟩ := h₁.run
  have hs := hrun.nftSound (P := platform) start_empty.nftSound
  obtain ⟨m, hm⟩ := h₁.mint
  have hfree : ¬s₁.Refuses (Sample.card 9) (.ata z.customer (nft 9 z.nftCycle)) false z.rentPayer := by
    intro hex
    obtain ⟨x, hx, hguard, -⟩ := hex
    rw [h.customer, show s₁.tokens.accounts.lookup (.ata (key 9) (nft 9 z.nftCycle)) = _ from h₁.token,
      Option.some.injEq] at hx
    subst hx
    cases hguard
  obtain ⟨s', hok⟩ := (hs.sweeps_iff h₁.card (find_nft _) hm
    (⟨(by simp), by rw [h.payer]; exact h₁.system, 7776000, by rw [h.stamp]; rfl, by decide⟩ :
      SweepDue s₁ ⟨7777020, []⟩ z)).mpr ⟨by rw [h.cycle]; exact hn, hfree⟩
  have hnext : Next platform s₁ ⟨⟨7777020, []⟩,
      .program (.retireIdleCardNft (z.retirement (Sample.card 9) (nft 9 z.nftCycle)))⟩ s' := ⟨(by simp), hok⟩
  obtain ⟨cs, calls, ps, hst⟩ := hnext.step hs.placed
  have hsystem : ¬s'.InUse (key 2) := hst.key_free hs.placed rfl rfl h₁.system (by simp)
  have hlamports : s'.lamports (key 2) =
      s₁.lamports (key 2) + s₁.lamports (nft 9 z.nftCycle) + s₁.lamports (nftToken 9 z.nftCycle) := by
    have hM : nft 9 z.nftCycle ≠ z.rentPayer := by rw [h.payer]; intro h; cases h
    have hX : Address.ata z.customer (nft 9 z.nftCycle) ≠ z.rentPayer := by rw [h.payer]; intro h; cases h
    have hx : s₁.tokens.accounts.lookup (.ata z.customer (nft 9 z.nftCycle)) =
        some (mintedCardToken (Sample.card 9) (nft 9 z.nftCycle)
          (key 9)) := by rw [h.customer]; exact h₁.token
    have hback := hst.swept_lamports hM hX (fun h => by cases h) hx rfl
    dsimp only at hback
    rwa [h.payer, h.customer] at hback
  obtain ⟨z', hz', hcycle', hbus, hcus, hpay, hstamp⟩ : ∃ z', s'.card? (Sample.card 9) = some z' ∧
      z'.nftCycle.toNat = z.nftCycle.toNat + 1 ∧ z'.business = z.business ∧ z'.customer = z.customer ∧
      z'.rentPayer = z.rentPayer ∧ z'.lastStampTs = z.lastStampTs := by
    have hrec := State.card?_eq_some.mp h₁.card
    obtain ⟨he, hch, -⟩ := hst
    cases he with
    | retireIdleCardNft hc _ _ _ _ _ _ _ _ hinc =>
      rw [hrec, Option.some.injEq, Record.card.injEq] at hc
      subst hc
      exact ⟨_, State.card?_eq_some.mpr (hch.record? List.mem_cons_self), addU32_eq_ok.mp hinc, rfl, rfl, rfl,
        rfl⟩
  refine ⟨s', z', ⟨_, hrun.step hnext⟩, hz',
    by rw [hcycle', h.cycle], hbus.trans h.business, hcus.trans h.customer,
    hpay.trans h.payer, hstamp.trans h.stamp, ?_, ?_, hsystem, ?_⟩
  · have hb := State.business?_eq_some.mp h₁.shop
    obtain ⟨he, hch, -⟩ := hst
    cases he with
    | retireIdleCardNft hc =>
      refine State.business?_eq_some.mpr ((hch.record?_frame ?_).trans hb)
      simp only [List.map_cons, List.map_nil, List.mem_singleton]
      intro h; cases h
  · -- an NFT of the next cycle would have been there before
    cases hm' : s'.tokens.mints.lookup (nft 9 z'.nftCycle) with
    | none => rfl
    | some m' =>
      exfalso
      cases hm₁ : s₁.tokens.mints.lookup (nft 9 z'.nftCycle) with
      | none =>
        obtain ⟨_, _, hact, -⟩ := hst.cardNft_minted rfl hm₁ hm'
        cases hact
      | some m₁ =>
        have := (hs.nfts _ _ _ _ hm₁).current_eq h₁.card (find_nft _)
        simp only [nft, Address.cardMint.injEq, true_and, and_true] at this
        rw [this] at hcycle'
        omega
  · have := h.funds
    have := h₁.lamports
    rw [hlamports]
    omega

theorem Cycling.reaches {b : Business} (h : Cycling s 0 z b) :
    ∀ n : Nat, n < 2 ^ 32 → ∃ s' z', Cycling s' n z' b
  | 0, _ => ⟨s, z, h⟩
  | n + 1, hn => by
    obtain ⟨s', z', h'⟩ := Cycling.reaches h n (by omega)
    exact h'.next hn

def opened : List Call := [register 1000 1 0, issue 1010 7, claim 1020 9 7]

theorem cycling : ∃ s z b, Cycling s 0 z b := by
  obtain ⟨hist, s, hrun, -, hp⟩ := Leads.run (P := platform) (s := Sample.start) (l := opened)
    (p := fun s => (s.card? (Sample.card 9)).any
      (fun z => z.nftCycle = 0 ∧ z.business = Sample.shop ∧ z.customer = key 9 ∧
        z.rentPayer = key 2 ∧ z.lastStampTs = 1020) &&
      (s.business? Sample.shop).any (fun b => nftCost platform b.name.val "u" ≤ s.lamports (key 2)) &&
      decide (s.tokens.mints.lookup (nft 9 0) = none ∧ ¬s.InUse (key 2))) (by decide +kernel)
  simp only [Bool.and_eq_true, decide_eq_true_eq] at hp
  obtain ⟨⟨hcard, hshop⟩, hmint, hsystem⟩ := hp
  obtain ⟨z, hz, hfields⟩ := (Option.any_eq_true _ _).mp hcard
  obtain ⟨hcycle, hbus, hcus, hpayer, hstamp⟩ := of_decide_eq_true hfields
  obtain ⟨b, hb, hfunds⟩ := (Option.any_eq_true _ _).mp hshop
  exact ⟨s, z, b, ⟨hist, hrun⟩, hz,
    by rw [hcycle]; rfl, hbus, hcus, hpayer, hstamp, hb, by rw [hcycle]; exact hmint,
    hsystem, of_decide_eq_true hfunds⟩

end Sample

/-- **An NFT can get stuck.** With the guard of their account on, a customer can neither cash in nor be swept;
and after 4294967295 cycles the card's last NFT cannot be swept, though nobody has touched it. -/
theorem card_nft_stuck :
    (∃ hist s z accs, Run Sample.platform Sample.start hist s ∧ s.card? (Sample.card 9) = some z ∧
      (s.tokens.mints.lookup (Sample.nft 9 z.nftCycle)).isSome = true ∧ SweepDue s ⟨7777020, []⟩ z ∧
      (∀ s', ¬Next Sample.platform s ⟨⟨7777020, []⟩,
        .program (.retireIdleCardNft (z.retirement (Sample.card 9) (Sample.nft 9 z.nftCycle)))⟩ s') ∧
      CashInDue Sample.platform s ⟨1040, [Sample.key 9, Sample.key 2]⟩ accs 0 ⟨"u", by decide⟩
      (Sample.card 9) ∧
      accs.cardRentPayer = z.rentPayer ∧
      ∀ s', ¬Next Sample.platform s
      ⟨⟨1040, [Sample.key 9, Sample.key 2]⟩, .program (.mintVoucher accs 0 ⟨"u", by decide⟩)⟩ s') ∧
    ∃ hist s z, Run Sample.platform Sample.start hist s ∧ s.card? (Sample.card 9) = some z ∧
      (s.tokens.mints.lookup (Sample.nft 9 z.nftCycle)).isSome = true ∧ z.nftCycle.toNat = 2 ^ 32 - 1 ∧
      SweepDue s ⟨7777020, []⟩ z ∧ ∀ s', ¬Next Sample.platform s ⟨⟨7777020, []⟩,
        .program (.retireIdleCardNft (z.retirement (Sample.card 9) (Sample.nft 9 z.nftCycle)))⟩ s' := by
  constructor
  · let accs : MintVoucher :=
      { business := Sample.shop, card := Sample.card 9, voucher := Sample.voucher 0, mint :=
        Sample.voucherMint 0,
        customerToken := Sample.voucherToken 9 0, cardMint := Sample.nft 9 0, cardToken :=
        Sample.nftToken 9 0,
        cardRentPayer := Sample.key 2, customer := Sample.key 9, relayer := Sample.key 2 }
    obtain ⟨hist, s, hrun, -, hp⟩ := Leads.run (P := Sample.platform) (s := Sample.start)
      (l := Sample.minted ++ [Sample.guardNft 1030 9])
      (p := fun s => Sample.sweepable s && (s.tokens.accounts.lookup (Sample.nftToken 9 0)).any (fun x =>
          x.cpiGuard && x.owner == Sample.key 9 && x.closeAuthority == some (Sample.card 9)) &&
        (mintVoucherUpToNft Sample.platform ⟨1040, [Sample.key 9, Sample.key 2]⟩ accs 0 ⟨"u", by decide⟩
          s).toOption.isSome)
      (by decide +kernel)
    simp only [Sample.sweepable, Bool.and_eq_true, decide_eq_true_eq] at hp
    obtain ⟨⟨⟨⟨hcard, hmint⟩, hsystem⟩, hguard⟩, hup⟩ := hp
    obtain ⟨z, hz, hfields⟩ := (Option.any_eq_true _ _).mp hcard
    obtain ⟨hcycle, hcustomer, hpayer, hstamp⟩ := of_decide_eq_true hfields
    obtain ⟨m, hm⟩ := Option.isSome_iff_exists.mp hmint
    obtain ⟨x, hx, hfacts⟩ := (Option.any_eq_true _ _).mp hguard
    simp only [Bool.and_eq_true, beq_iff_eq] at hfacts
    obtain ⟨⟨hg, howner⟩, hcloser⟩ := hfacts
    obtain ⟨r, hr⟩ := Option.isSome_iff_exists.mp hup
    have hreached : mintVoucherUpToNft Sample.platform ⟨1040, [Sample.key 9, Sample.key 2]⟩ accs 0
      ⟨"u", by decide⟩ s =
        .ok r := by
      generalize mintVoucherUpToNft Sample.platform _ accs 0 _ s = res at hr ⊢
      cases res <;> cases hr
      rfl
    have hsound := hrun.nftSound (P := Sample.platform) Sample.start_empty.nftSound
    have hdue : SweepDue s ⟨7777020, []⟩ z :=
      ⟨nofun, by rw [hpayer]; exact hsystem, 7776000, by rw [hstamp]; rfl, by decide⟩
    have hcash : CashInDue Sample.platform s ⟨1040, [Sample.key 9, Sample.key 2]⟩ accs 0 ⟨"u", by decide⟩
      (Sample.card 9) :=
      ⟨by decide, rfl, r, hreached⟩
    have hrefuses : ∀ signed, s.Refuses (Sample.card 9) (.ata z.customer (Sample.nft 9 z.nftCycle)) signed
      (Sample.key 2) :=
      fun signed => ⟨x, by rw [hcustomer, hcycle]; exact hx, hg, by rw [howner]; exact nofun, .inl hcloser⟩
    rw [← hcycle] at hm
    refine ⟨hist, s, z, accs, hrun, hz,
      by rw [hm]; rfl, hdue, fun s' hnext => ?_, hcash, hpayer.symm, fun s' hnext => ?_⟩
    · have hfree := ((hsound.sweeps_iff hz (Sample.find_nft _) hm hdue).mp ⟨s', hnext.2⟩).2
      rw [hpayer] at hfree
      exact hfree (hrefuses false)
    · have hfree :=
        ((hsound.cashes_in_iff hz (Sample.find_nft _) hm hcash (.inr hpayer.symm)).mp ⟨s', hnext.2⟩).2
      have hto : accs.refundee z = Sample.key 2 := by
        rw [MintVoucher.refundee, hpayer]
        rfl
      rw [hto] at hfree
      exact hfree (hrefuses true)
  · obtain ⟨s, z, b, h⟩ := Sample.cycling
    obtain ⟨s, z, h⟩ := h.reaches (2 ^ 32 - 1) (by decide)
    obtain ⟨s₁, h₁⟩ := h.minted
    obtain ⟨hist, hrun⟩ := h₁.run
    obtain ⟨m, hm⟩ := h₁.mint
    have hdue : SweepDue s₁ ⟨7777020, []⟩ z :=
      ⟨nofun, by rw [h.payer]; exact h₁.system, 7776000, by rw [h.stamp]; rfl, by decide⟩
    refine ⟨hist, s₁, z, hrun, h₁.card, by rw [hm]; rfl, h.cycle, hdue, fun s' hnext => ?_⟩
    have hroom :=
      (((hrun.nftSound Sample.start_empty.nftSound).sweeps_iff h₁.card (Sample.find_nft _) hm hdue).mp
        ⟨s', hnext.2⟩).1
    rw [h.cycle] at hroom
    exact absurd hroom (by decide)

end Passdari
