/-
The tokens behind the vouchers. While a voucher is live its mint is there
and obeys the voucher alone; while a mint at a voucher's address is there,
so is the voucher.
-/
import Passdari.Books.Issued
import Passdari.Effect.TokenCalls

namespace Passdari

open Wire Token2022

variable {P : Platform} {tx : Tx} {s s' start : State} {hist : History} {c : Call} {cs : List Change}
  {calls : List TokenCall} {ps : List Payment} {action : Action} {V M X : Address} {v : Voucher}
  {m : Mint Address} {t t' : Tokens Address}

/-! ## Token accounts and their addresses -/

/-- Token accounts are at keys, or at the associated address of their mint. -/
def PlacedAccounts (t : Tokens Address) : Prop :=
  ∀ X x, t.accounts.lookup X = some x → (∃ k, X = .key k) ∨ ∃ owner, X = .ata owner x.mint

theorem PlacedAccounts.not_mint (h : PlacedAccounts t) (hM : M.isVoucherMint = true) :
    t.accounts.lookup M = none := by
  cases hx : t.accounts.lookup M with
  | none => rfl
  | some x =>
    rcases h M x hx with ⟨k, rfl⟩ | ⟨owner, rfl⟩
    · cases hM
    · cases hM

/-- An associated account is of the mint in its address. -/
theorem PlacedAccounts.mint_eq {owner : Address} (h : PlacedAccounts t)
    (hx : t.accounts.lookup (.ata owner M) = some x) : x.mint = M := by
  rcases h _ x hx with ⟨_, hk⟩ | ⟨_, hk⟩
  · cases hk
  · rw [Address.ata.injEq] at hk
    exact hk.2.symm

theorem run_placed (h : run t calls = .ok t') (ht : PlacedAccounts t) (hcs : ∀ c ∈ calls, ∀ a mint owner io,
      c.op = .initializeAccount a mint owner io → (∃ k, a = .key k) ∨ ∃ o, a = .ata o mint) :
    PlacedAccounts t' := by
  refine run_invariant PlacedAccounts (fun c hc t₁ t₂ hi hd X x hx => ?_) h ht
  rcases hd.account_before hx with ⟨owner, io, hop⟩ | ⟨y, hy, hmint⟩
  · exact hcs c hc _ _ _ _ hop
  · exact hmint ▸ hi X y hy

/-- Token accounts are opened at the associated address of their owner and mint, for good, or by a wallet at a
key that signs. -/
theorem Effect.opens_account (h : Effect P tx s action cs calls ps) :
    ∀ c ∈ calls, ∀ a mint owner io, c.op = .initializeAccount a mint owner io →
      a = .ata owner mint ∧ io = true ∨ a ∈ tx.signers ∧ ∃ payer rent,
      action = .wallet (.openToken payer a mint owner io rent) := by
  cases h with
  | mintCardNft _ _ _ _ _ _ _ _ _ _ hat =>
    simp [mintCardNftCalls, hat]
  | retireIdleCardNft =>
    exact forall_burnCardNftCalls (by simp) (by simp) (by simp) (by simp)
  | mintVoucher _ _ _ _ _ _ _ _ hat =>
    rw [List.forall_mem_append]
    constructor
    · simp [mintVoucherCalls, hat]
    · split
      · exact forall_burnCardNftCalls (by simp) (by simp) (by simp) (by simp)
      · simp
  | presentVoucher => exact forall_presentVoucherCalls (by simp) (by simp)
  | transferVoucher _ _ _ _ _ _ _ _ _ _ _ _ _ hat =>
    refine forall_transferVoucherCalls (fun _ => ?_) (by simp) (by simp) (by simp)
    intro _ _ _ _ heq
    cases heq
    exact .inl ⟨hat, rfl⟩
  | redeemVoucher =>
    rw [List.forall_mem_append]
    exact ⟨forall_redeemCalls (by simp) (by simp) (by simp), forall_closeMintCalls (by simp)⟩
  | closeExpiredVoucher =>
    rw [List.forall_mem_append]
    exact ⟨forall_burnExpiredCalls (by simp) (by simp) (by simp), forall_closeMintCalls (by simp)⟩
  | openToken hat =>
    simp only [List.forall_mem_singleton]
    intro _ _ _ _ heq
    cases heq
    rcases hat with hs | hat
    · exact .inr ⟨hs, _, _, rfl⟩
    · exact .inl hat
  | token hop =>
    simp only [List.forall_mem_singleton]
    intro _ _ _ _ heq
    subst heq
    cases hop
  | cancelPresentation | openMint | closeToken => simp
  | _ => simp

theorem Effect.opens_placed (h : Effect P tx s action cs calls ps)
    (hsig : ∀ a ∈ tx.signers, a.canSign = true) :
    ∀ c ∈ calls, ∀ a mint owner io, c.op = .initializeAccount a mint owner io →
      (∃ k, a = .key k) ∨ ∃ o, a = .ata o mint := by
  intro k hk a mint owner io hop
  rcases h.opens_account k hk a mint owner io hop with ⟨hat, -⟩ | ⟨hs, -⟩
  · exact .inr ⟨_, hat⟩
  · exact .inl (Address.exists_key (hsig a hs))

theorem Step.placed_accounts (h : Step P s c s' cs calls ps) (ht : PlacedAccounts s.tokens) :
    PlacedAccounts s'.tokens := run_placed h.tokens ht (h.effect.opens_placed h.signers)

/-! ## Mints of vouchers -/

/-- The mint obeys the voucher at `V` alone, and at most one token of it is about. -/
structure IsVoucherMint (V : Address) (m : Mint Address) : Prop where
  mintAuthority : m.mintAuthority = none
  freezeAuthority : m.freezeAuthority = some V
  closeAuthority : m.closeAuthority = some V
  permanentDelegate : m.permanentDelegate = some V
  nonTransferable : m.nonTransferable = false
  decimals : m.decimals = 0
  supply : m.supply ≤ 1

theorem IsVoucherMint.of_same {m' : Mint Address} (h : IsVoucherMint V m) (hs : SameMint m m') :
    IsVoucherMint V m' where
  mintAuthority := hs.mintAuthority.trans h.mintAuthority
  freezeAuthority := hs.freezeAuthority.trans h.freezeAuthority
  closeAuthority := hs.closeAuthority.trans h.closeAuthority
  permanentDelegate := hs.permanentDelegate.trans h.permanentDelegate
  nonTransferable := hs.nonTransferable.trans h.nonTransferable
  decimals := hs.decimals.trans h.decimals
  supply := Nat.le_trans hs.supply h.supply

theorem IsVoucherMint.authority (h : IsVoucherMint V m) {k : AuthorityType} {auth : Address}
    (ha : m.authority k = some auth) : auth = V := by
  cases k with
  | mintTokens => cases h.mintAuthority.symm.trans ha
  | freezeAccount => exact (Option.some.inj (h.freezeAuthority.symm.trans ha)).symm
  | closeMint => exact (Option.some.inj (h.closeAuthority.symm.trans ha)).symm
  | permanentDelegate => exact (Option.some.inj (h.permanentDelegate.symm.trans ha)).symm

theorem isVoucherMint_minted (V : Address) (md : Metadata Address) :
    IsVoucherMint V (mintedVoucherMint V md) :=
  ⟨rfl, rfl, rfl, rfl, rfl, rfl, Nat.le_refl 1⟩

/-- Only the minting of a voucher and its two ends sign, as the voucher, for a change of its mint. -/
theorem Effect.governs (h : Effect P tx s action cs calls ps) (ht : PlacedAccounts s.tokens)
    (hM : M.isVoucherMint = true) (hV : action.voucher = some V) :
    ∀ c ∈ calls, c.op.Governs M → action.mints V ∨ action.ends V := by
  have hno : ∀ {X x}, s.tokens.accounts.lookup X = some x → X ≠ M := by
    intro X x hx heq
    subst heq
    rw [ht.not_mint hM] at hx
    cases hx
  cases h with
  | mintVoucher =>
    cases hV
    exact fun _ _ _ => .inl ⟨_, _, _, rfl, rfl⟩
  | redeemVoucher =>
    cases hV
    exact fun _ _ _ => .inr (.inl ⟨_, rfl, rfl⟩)
  | closeExpiredVoucher =>
    cases hV
    exact fun _ _ _ => .inr (.inr ⟨_, rfl, rfl⟩)
  | presentVoucher => exact forall_presentVoucherCalls (fun hg => hg.elim) fun hg => hg.elim
  | cancelPresentation => simp [Op.Governs]
  | transferVoucher _ _ _ _ _ _ _ hx =>
    exact forall_transferVoucherCalls (fun _ hg => hg.elim) (fun hg => hg.elim) (fun hg => absurd hg (hno hx))
      fun hg => absurd hg (hno hx)
  | _ => cases hV

/-- What is known of the tokens behind the vouchers. -/
structure State.VoucherTokens (P : Platform) (s : State) : Prop where
  accounts : PlacedAccounts s.tokens
  address : ∀ V v, s.voucher? V = some v →
    ∃ bump, findProgramAddress P (.voucherMint v.business v.voucherId) = some (v.mint, bump)
  minted : ∀ V v, s.voucher? V = some v → ∃ m, s.tokens.mints.lookup v.mint = some m ∧ IsVoucherMint V m
  live : ∀ M m, M.isVoucherMint = true → s.tokens.mints.lookup M = some m → ∃ V v, s.voucher? V = some v ∧
    v.mint = M

theorem State.VoucherTokens.isVoucherMint (h : s.VoucherTokens P) (hv : s.voucher? V = some v) :
    v.mint.isVoucherMint = true := by
  obtain ⟨_, hf⟩ := h.address V v hv
  rw [findProgramAddress_eq hf]
  rfl

/-- Two live vouchers do not share a mint. -/
theorem State.VoucherTokens.mint_inj (ht : s.VoucherTokens P) (hn : s.Numbered P) {V' : Address}
    {v' : Voucher}
    (hv : s.voucher? V = some v) (hv' : s.voucher? V' = some v') (hm : v'.mint = v.mint) : V' = V := by
  obtain ⟨_, hf⟩ := ht.address V v hv
  obtain ⟨_, hf'⟩ := ht.address V' v' hv'
  have he := (findProgramAddress_eq hf').symm.trans (hm.trans (findProgramAddress_eq hf))
  simp only [Address.voucherMint.injEq] at he
  obtain ⟨hbus, hid, -⟩ := he
  obtain ⟨⟨_, ha⟩, -⟩ := hn V v hv
  obtain ⟨⟨_, ha'⟩, -⟩ := hn V' v' hv'
  rw [hbus, hid, ha] at ha'
  cases ha'
  rfl

/-- A voucher's address is no key. -/
theorem Step.voucher_unsigned (hw : s.WellPlaced) (h : Step P s c s' cs calls ps)
    (hv : s.voucher? V = some v) :
    V.isVoucher = true ∧ V ∉ c.tx.signers := by
  have hadr := hw.voucher (State.voucher?_eq_some.mp hv)
  have hV : V.isVoucher = true := by rw [hadr]; rfl
  refine ⟨hV, fun hs => ?_⟩
  have := h.signers V hs
  rw [Address.not_canSign hV] at this
  cases this

/-- A live voucher's mint outlasts every step but the voucher's end. -/
theorem Step.mint_kept (hw : s.WellPlaced) (ht : s.VoucherTokens P) (h : Step P s c s' cs calls ps)
    (hv : s.voucher? V = some v) (hend : ¬c.action.ends V) :
    ∃ m', s'.tokens.mints.lookup v.mint = some m' ∧ IsVoucherMint V m' := by
  obtain ⟨m, hm, hvm⟩ := ht.minted V v hv
  obtain ⟨hV, hunsigned⟩ := h.voucher_unsigned hw hv
  have hsafe : ∀ k ∈ calls, k.op.Governs v.mint → ∀ kind auth, m.authority kind = some auth →
    auth ∉ k.ctx.signers := by
    intro k hk hg kind auth hauth hs
    rw [hvm.authority hauth] at hs
    have hact := h.effect.voucher_signed hV hunsigned k hk hs
    obtain ⟨accs, voucherId, uri, hmint, rfl⟩ | hends :=
      h.effect.governs ht.accounts (ht.isVoucherMint hv) hact k hk hg
    · obtain ⟨tx, action⟩ := c
      subst hmint
      obtain ⟨_, _, _, _, _, _, -, -, hnone, -⟩ := h.mintVoucher
      rw [hv] at hnone
      cases hnone
    · exact hend hends
  obtain ⟨m', hm', hsame⟩ := run_same_mint h.tokens hm hvm.mintAuthority hsafe
  exact ⟨m', hm', hvm.of_same hsame⟩

/-- Closing a mint that names the voucher leaves no mint. -/
theorem run_closeMintCalls {rentPayer : Address} (h : run t (closeMintCalls tx V M rentPayer m) = .ok t')
    (hM : t.accounts.lookup M = none) (hc : m.closeAuthority = some V) : t'.mints.lookup M = none := by
  rw [closeMintCalls, if_pos hc, run_cons_eq_ok] at h
  obtain ⟨t₁, hd, hrest⟩ := h
  cases hrest
  cases hd with
  | closeAccount _ hx =>
    rw [hM] at hx
    cases hx
  | closeMint => exact Store.lookup_erase_self _ _

/-- The end of a voucher is the end of its mint. -/
theorem Step.mint_closed (ht : s.VoucherTokens P) (h : Step P s c s' cs calls ps)
    (hv : s.voucher? V = some v) (hend : c.action.ends V) : s'.tokens.mints.lookup v.mint = none := by
  obtain ⟨m, hm, hvm⟩ := ht.minted V v hv
  have hM := ht.isVoucherMint hv
  have hno : ∀ {X x}, s.tokens.accounts.lookup X = some x → X ≠ v.mint := by
    intro X x hx heq
    subst heq
    rw [ht.accounts.not_mint hM] at hx
    cases hx
  -- what is done to the holder's account leaves the mint to be closed after it
  have hclose : ∀ {cs₁ : List TokenCall} {t m' rentPayer}, run s.tokens cs₁ = .ok t →
      (∀ k ∈ cs₁, ¬k.op.Governs v.mint) →
        (∀ k ∈ cs₁, ∀ a mint owner io, k.op ≠ .initializeAccount a mint owner io) →
      t.mints.lookup v.mint = some m' → run t (closeMintCalls c.tx V v.mint rentPayer m') = .ok s'.tokens →
      s'.tokens.mints.lookup v.mint = none := by
    intro cs₁ t m' rentPayer hr hgov hopen hm' hrest
    obtain ⟨m₁, hm₁, hsame⟩ := run_same_mint hr hm hvm.mintAuthority fun k hk hg => absurd hg (hgov k hk)
    rw [hm', Option.some.injEq] at hm₁
    subst hm₁
    have hplaced := run_placed hr ht.accounts fun k hk a mint owner io hop =>
      absurd hop (hopen k hk a mint owner io)
    exact run_closeMintCalls hrest (hplaced.not_mint hM) (hvm.of_same hsame).closeAuthority
  obtain ⟨tx, action⟩ := c
  rcases hend with ⟨accs, rfl, rfl⟩ | ⟨accs, rfl, rfl⟩
  · obtain ⟨he, -, htok, -⟩ := h
    cases he with
    | redeemVoucher _ _ _ hv' _ _ _ _ _ hmint _ hx _ _ _ _ _ hr hm' =>
      have := State.voucher?_eq_some.mpr hv'
      rw [hv, Option.some.injEq] at this
      subst this
      obtain ⟨t, hr', hrest⟩ := run_append_eq_ok.mp htok
      rw [hr] at hr'
      cases hr'
      rw [← hmint] at hm' hrest
      exact hclose hr (forall_redeemCalls (fun hg => hg.elim) (fun hg => hg.elim) (hno hx))
        (forall_redeemCalls (by simp) (by simp) (by simp)) hm' hrest
  · obtain ⟨he, -, htok, -⟩ := h
    cases he with
    | @closeExpiredVoucher _ _ v' _ _ _ x hv' _ _ _ hmint _ _ _ _ hx _ hr hm' =>
      have := State.voucher?_eq_some.mpr hv'
      rw [hv, Option.some.injEq] at this
      subst this
      obtain ⟨t, hr', hrest⟩ := run_append_eq_ok.mp htok
      rw [hr] at hr'
      cases hr'
      rw [← hmint] at hm' hrest
      refine hclose hr ?_ (forall_burnExpiredCalls (by simp) (by simp) (by simp)) hm' hrest
      cases x with
      | none => simp [burnExpiredCalls]
      | some y => exact forall_burnExpiredCalls (fun hg => hg.elim) (fun _ hg => hg.elim) (hno hx)

/-- The program opens the mints of vouchers and of card NFTs, and the wallets mints at keys that sign. -/
theorem Effect.opens_mint (h : Effect P tx s action cs calls ps) :
    ∀ c ∈ calls, ∀ m, c.op = .initializeMint M m →
    (M.isVoucherMint = true ∧ ∃ accs voucherId uri,
      action = .program (.mintVoucher accs voucherId uri) ∧ accs.mint = M) ∨
    (M.isCardMint = true ∧ ∃ accs uri, action = .program (.mintCardNft accs uri) ∧ accs.mint = M) ∨
    M ∈ tx.signers := by
  cases h with
  | mintCardNft _ _ _ _ _ _ _ hf =>
    simp only [mintCardNftCalls, List.forall_mem_cons]
    refine ⟨?_, by simp, by simp, by simp, by simp, by simp, by simp⟩
    intro _ heq
    cases heq
    exact .inr (.inl ⟨by rw [findProgramAddress_eq hf]; rfl, _, _, rfl, rfl⟩)
  | retireIdleCardNft => exact forall_burnCardNftCalls (by simp) (by simp) (by simp) (by simp)
  | mintVoucher _ _ _ _ _ _ hf =>
    rw [List.forall_mem_append]
    constructor
    · simp only [mintVoucherCalls, List.forall_mem_cons]
      refine ⟨?_, by simp, by simp, by simp, by simp, by simp, by simp⟩
      intro _ heq
      cases heq
      exact .inl ⟨by rw [findProgramAddress_eq hf]; rfl, _, _, _, rfl, rfl⟩
    · split
      · exact forall_burnCardNftCalls (by simp) (by simp) (by simp) (by simp)
      · simp
  | presentVoucher => exact forall_presentVoucherCalls (by simp) (by simp)
  | transferVoucher => exact forall_transferVoucherCalls (by simp) (by simp) (by simp) (by simp)
  | redeemVoucher =>
    rw [List.forall_mem_append]
    exact ⟨forall_redeemCalls (by simp) (by simp) (by simp), forall_closeMintCalls (by simp)⟩
  | closeExpiredVoucher =>
    rw [List.forall_mem_append]
    exact ⟨forall_burnExpiredCalls (by simp) (by simp) (by simp), forall_closeMintCalls (by simp)⟩
  | openMint hs =>
    simp only [List.forall_mem_singleton]
    intro _ heq
    cases heq
    exact .inr (.inr hs)
  | token hop =>
    simp only [List.forall_mem_singleton]
    intro _ heq
    subst heq
    cases hop
  | cancelPresentation | openToken | closeToken => simp
  | _ => simp

/-- A live voucher stays, with its mint, or ends, or was minted just now. -/
theorem Step.voucher_goes_on (h : Step P s c s' cs calls ps) {v' : Voucher} (hv' : s'.voucher? V = some v') :
    (∃ v, s.voucher? V = some v ∧ v'.mint = v.mint ∧ v'.business = v.business ∧ v'.voucherId = v.voucherId ∧
      v'.expiresAt = v.expiresAt ∧ v'.rentPayer = v.rentPayer ∧ ¬c.action.ends V) ∨
    ∃ accs voucherId uri, c.action = .program (.mintVoucher accs voucherId uri) ∧ accs.voucher = V ∧
      v'.mint = accs.mint ∧
      ∃ bump, findProgramAddress P (.voucherMint v'.business v'.voucherId) = some (v'.mint, bump) := by
  have hnot : ¬c.action.ends V := fun he => by
    rw [(h.ended he).2] at hv'
    cases hv'
  rcases h.voucher V with hsame | hch
  · exact .inl ⟨v', hsame.symm.trans hv', rfl, rfl, rfl, rfl, rfl, hnot⟩
  obtain ⟨tx, action⟩ := c
  rw [hv'] at hch
  generalize s.voucher? V = before at hch
  cases hch with
  | minted hadr _ _ _ _ hf => exact .inr ⟨_, _, _, rfl, hadr, rfl, _, hf⟩
  | handed => exact .inl ⟨_, rfl, rfl, rfl, rfl, rfl, rfl, hnot⟩

/-- A voucher that does not end in the step is there after it, for the same mint. -/
theorem Step.voucher_stays (h : Step P s c s' cs calls ps) (hv : s.voucher? V = some v)
    (hend : ¬c.action.ends V) : ∃ v', s'.voucher? V = some v' ∧ v'.mint = v.mint ∧
    v'.expiresAt = v.expiresAt ∧
      v'.rentPayer = v.rentPayer := by
  rcases h.voucher V with hsame | hch
  · exact ⟨v, hsame.trans hv, rfl, rfl, rfl⟩
  obtain ⟨tx, action⟩ := c
  rw [hv] at hch
  generalize s'.voucher? V = after at hch
  cases hch with
  | handed => exact ⟨_, rfl, rfl, rfl, rfl⟩
  | redeemed hadr => exact absurd (.inl ⟨_, rfl, hadr⟩) hend
  | expired hadr => exact absurd (.inr ⟨_, rfl, hadr⟩) hend

theorem Step.voucherTokens (hw : s.WellPlaced) (ht : s.VoucherTokens P) (h : Step P s c s' cs calls ps) :
    s'.VoucherTokens P where
  accounts := h.placed_accounts ht.accounts
  address V v' hv' := by
    rcases h.voucher_goes_on hv' with ⟨v, hv, hmint, hbus, hid, -⟩ | ⟨_, _, _, -, -, -, hf⟩
    · rw [hmint, hbus, hid]
      exact ht.address V v hv
    · exact hf
  minted V v' hv' := by
    obtain ⟨v, hv, hmint, -, -, -, -, hend⟩ | ⟨accs, voucherId, uri, hact, rfl, hmint, -⟩ :=
      h.voucher_goes_on hv'
    · rw [hmint]
      exact h.mint_kept hw ht hv hend
    · obtain ⟨tx, action⟩ := c
      subst hact
      obtain ⟨_, -, hm, -⟩ := h.minted
      rw [hmint]
      exact ⟨_, hm, isVoucherMint_minted _ _⟩
  live M m' hM hm' := by
    cases hm : s.tokens.mints.lookup M with
    | none =>
      obtain ⟨k, hk, m₀, hop⟩ := run_opens_mint h.tokens hm hm'
      rcases h.effect.opens_mint k hk m₀ hop with ⟨-, accs, voucherId, uri, hact, rfl⟩ | ⟨hcard, -⟩ | hs
      · obtain ⟨tx, action⟩ := c
        subst hact
        obtain ⟨_, _, _, _, v, _, -, -, -, -, -, -, -, hok, -, -, hv⟩ := h.mintVoucher
        obtain ⟨-, -, -, _, _, _, -, -, -, -, rfl⟩ := mintVoucherHandler_eq_ok hok
        exact ⟨_, _, hv, rfl⟩
      · cases M with
        | voucherMint => cases hcard
        | _ => cases hM
      · obtain ⟨_, rfl⟩ := Address.exists_key (h.signers _ hs)
        cases hM
    | some m =>
      obtain ⟨V, v, hv, rfl⟩ := ht.live M m hM hm
      by_cases hend : c.action.ends V
      · rw [h.mint_closed ht hv hend] at hm'
        cases hm'
      · obtain ⟨v', hv', hmint, -⟩ := h.voucher_stays hv hend
        exact ⟨V, v', hv', hmint⟩

theorem Run.voucherTokens (h : Run P start hist s) (hs : start.Empty) : s.VoucherTokens P := by
  refine h.induct_empty (I := fun _ s => s.VoucherTokens P) hs ⟨?_, ?_, ?_, ?_⟩ fun _ hw _ hi hst =>
    hst.voucherTokens hw hi
  · intro X x hx
    exact (hs.accounts hx).2
  · intro V v hv
    rw [State.voucher?, State.record?, hs.program] at hv
    cases hv
  · intro V v hv
    rw [State.voucher?, State.record?, hs.program] at hv
    cases hv
  · intro M m hM hm
    obtain ⟨k, rfl⟩ := hs.mints hm
    cases hM

end Passdari
