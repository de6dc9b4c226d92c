/-
Who can move the token of a voucher. A frozen account was presented by its
owner and not taken back since, a delegate was approved by the owner, and so
the token leaves an account with its owner's leave, or redeemed by the shop
after the owner presented it, or cleaned up once the voucher has expired.
-/
import Passdari.Books.VoucherTokens

namespace Passdari

open Wire Token2022

variable {P : Platform} {tx : Tx} {s s' start : State} {hist : History} {c : Call} {cs : List Change}
  {calls : List TokenCall} {ps : List Payment} {action : Action} {V M X d h : Address} {v : Voucher}
  {x x' : Account Address} {t t' : Tokens Address}

/-! ## What owners did -/

/-- A `present_voucher` on `X`, signed by its owner `h`. -/
def Call.Presents (c : Call) (X h : Address) : Prop :=
  ∃ accs, c.action = .program (.presentVoucher accs) ∧ accs.holderToken = X ∧ accs.owner = h ∧
    h ∈ c.tx.signers

/-- A `cancel_presentation` on `X`. -/
def Call.Cancels (c : Call) (X : Address) : Prop :=
  ∃ accs, c.action = .program (.cancelPresentation accs) ∧ accs.holderToken = X

/-- An approval of `d` on `X`, signed by the owner `h`. -/
def Call.Approves (c : Call) (X d h : Address) : Prop :=
  ∃ amount cpi, c.action = .wallet (.token (.approve X d h amount) cpi) ∧ h ∈ c.tx.signers

/-- `h` presented `X`, and nobody cancelled since. -/
def Presented (hist : History) (X h : Address) : Prop :=
  ∃ later st earlier, hist = later ++ st :: earlier ∧ st.label.Presents X h ∧ ∀ y ∈ later, ¬y.label.Cancels X

/-- `h` approved `d` on `X` at some time. -/
def Approved (hist : History) (X d h : Address) : Prop := ∃ st ∈ hist, st.label.Approves X d h

theorem Presented.cons (hp : Presented hist X h) {st : Taken} (hst : ¬st.label.Cancels X) :
    Presented (st :: hist) X h := by
  obtain ⟨later, p, earlier, rfl, hpres, hlater⟩ := hp
  exact ⟨st :: later, p, earlier, rfl, hpres, List.forall_mem_cons.mpr ⟨hst, hlater⟩⟩

/-! ## Frozen accounts -/

theorem run_presentVoucherCalls {accs : PresentVoucher} (hr : run t (presentVoucherCalls tx accs x) = .ok t')
    (hx : t.accounts.lookup accs.holderToken = some x) :
    ∃ closer, t'.accounts.lookup accs.holderToken =
      some { x with closeAuthority := closer, frozen := true } := by
  have hfreeze : ∀ {t₁ : Tokens Address} {y : Account Address}, t₁.accounts.lookup accs.holderToken = some y →
      run t₁ [⟨pdaCtx tx accs.voucher, .freeze accs.holderToken accs.mint accs.voucher⟩] = .ok t' →
      t'.accounts.lookup accs.holderToken = some { y with frozen := true } := by
    intro t₁ y hy hr
    cases run_singleton_eq_ok.mp hr with
    | freeze hy' =>
      rw [hy, Option.some.injEq] at hy'
      subst hy'
      exact Store.lookup_insert_self _ _ _
  unfold presentVoucherCalls at hr
  split at hr
  · obtain ⟨t₁, hd, hrest⟩ := run_cons_eq_ok.mp hr
    cases hd with
    | setCloseAuthority hx' =>
      rw [hx, Option.some.injEq] at hx'
      subst hx'
      have hset := Store.lookup_insert_self t.accounts accs.holderToken
        { x with closeAuthority := some accs.voucher }
      have hafter := hfreeze hset hrest
      exact ⟨some accs.voucher, hafter⟩
  · exact ⟨x.closeAuthority, hfreeze hx hr⟩

theorem Effect.freezes (he : Effect P tx s action cs calls ps) :
    ∀ k ∈ calls, ∀ mint auth, k.op = .freeze X mint auth →
    (∃ accs, action = .program (.presentVoucher accs) ∧ accs.holderToken = X) ∨
      ∃ cpi, action = .wallet (.token (.freeze X mint auth) cpi) := by
  cases he with
  | mintCardNft => simp [mintCardNftCalls]
  | retireIdleCardNft => exact forall_burnCardNftCalls (by simp) (by simp) (by simp) (by simp)
  | mintVoucher =>
    rw [List.forall_mem_append]
    constructor
    · simp [mintVoucherCalls]
    · split
      · exact forall_burnCardNftCalls (by simp) (by simp) (by simp) (by simp)
      · simp
  | presentVoucher =>
    refine forall_presentVoucherCalls (by simp) ?_
    intro _ _ heq
    cases heq
    exact .inl ⟨_, rfl, rfl⟩
  | transferVoucher => exact forall_transferVoucherCalls (by simp) (by simp) (by simp) (by simp)
  | redeemVoucher =>
    rw [List.forall_mem_append]
    exact ⟨forall_redeemCalls (by simp) (by simp) (by simp), forall_closeMintCalls (by simp)⟩
  | closeExpiredVoucher =>
    rw [List.forall_mem_append]
    exact ⟨forall_burnExpiredCalls (by simp) (by simp) (by simp), forall_closeMintCalls (by simp)⟩
  | token =>
    simp only [List.forall_mem_singleton]
    intro _ _ heq
    subst heq
    exact .inr ⟨_, rfl⟩
  | cancelPresentation | openMint | openToken | closeToken => simp
  | _ => simp

theorem Step.mint_unsigned (hw : s.WellPlaced) (ht : s.VoucherTokens P) (hst : Step P s c s' cs calls ps)
    (hM : M.isVoucherMint = true) {m : Mint Address} (hm : s.tokens.mints.lookup M = some m)
    {k : AuthorityType}
    {auth : Address} (ha : m.authority k = some auth) : auth ∉ c.tx.signers := by
  obtain ⟨V, v, hv, rfl⟩ := ht.live M m hM hm
  obtain ⟨m', hm', hvm⟩ := ht.minted V v hv
  rw [hm, Option.some.injEq] at hm'
  subst hm'
  rw [hvm.authority ha]
  exact (hst.voucher_unsigned hw hv).2

/-- An account of a voucher mint that is frozen was presented in this step with a token on it, or was frozen
before, for the same owner with as much on it, and not taken back. -/
theorem Step.frozen_before (hw : s.WellPlaced) (ht : s.VoucherTokens P) (hst : Step P s c s' cs calls ps)
    (hx' : s'.tokens.accounts.lookup X = some x') (hM : x'.mint.isVoucherMint = true)
    (hf : x'.frozen = true) :
    c.Presents X x'.owner ∧ 0 < x'.amount ∨ ¬c.Cancels X ∧
      ∃ x, s.tokens.accounts.lookup X = some x ∧ x.frozen = true ∧ x.mint = x'.mint ∧ x.owner = x'.owner ∧
        x.amount = x'.amount := by
  by_cases hfreeze : ∃ k ∈ calls, ∃ mint auth, k.op = .freeze X mint auth
  · obtain ⟨k, hk, mint, auth, hop⟩ := hfreeze
    obtain ⟨tx, action⟩ := c
    rcases hst.effect.freezes k hk mint auth hop with ⟨accs, rfl, rfl⟩ | ⟨cpi, rfl⟩
    · obtain ⟨he, -, htok, -⟩ := hst
      cases he with
      | presentVoucher _ hs _ hx hone _ _ howner =>
        obtain ⟨_, hafter⟩ := run_presentVoucherCalls htok hx
        rw [hx', Option.some.injEq] at hafter
        subst hafter
        exact .inl ⟨⟨accs, rfl, rfl, howner.symm, howner ▸ hs⟩, hone ▸ Nat.one_pos⟩
    · -- a wallet would have to sign as the voucher
      exfalso
      have hun : ∀ {M m}, M.isVoucherMint = true → s.tokens.mints.lookup M = some m →
          ∀ {auth}, m.authority .freezeAccount = some auth → auth ∉ tx.signers :=
        fun hM hm _ ha => hst.mint_unsigned hw ht hM hm ha
      obtain ⟨he, -, htok, -⟩ := hst
      cases he with
      | token =>
        have hd := run_singleton_eq_ok.mp htok
        generalize s'.tokens = t' at hd hx'
        cases hd with
        | freeze hx _ hmint hm ha hs =>
          rw [Tokens.setAccount_accounts, Store.lookup_insert_self, Option.some.injEq] at hx'
          subst hx'
          exact hun (hmint ▸ hM) hm ha hs
  · simp only [not_exists, not_and] at hfreeze
    obtain ⟨x, hx, hfx, hmint, howner, hn⟩ := run_frozen_before hst.tokens hx' hf hfreeze
    refine .inr ⟨?_, x, hx, hfx, hmint, howner, hn⟩
    intro hex
    obtain ⟨accs, hact, rfl⟩ := hex
    obtain ⟨tx, action⟩ := c
    subst hact
    obtain ⟨he, -, htok, -⟩ := hst
    cases he with
    | cancelPresentation =>
      have hd := run_singleton_eq_ok.mp htok
      generalize s'.tokens = t' at hd hx'
      cases hd with
      | thaw =>
        rw [Tokens.setAccount_accounts, Store.lookup_insert_self, Option.some.injEq] at hx'
        subst hx'
        cases hf

/-! ## Delegates -/

theorem Effect.approves (he : Effect P tx s action cs calls ps) :
    ∀ k ∈ calls, ∀ amount, k.op = .approve X d h amount →
    h ∈ k.ctx.signers → Call.Approves ⟨tx, action⟩ X d h := by
  cases he with
  | mintCardNft => simp [mintCardNftCalls]
  | retireIdleCardNft => exact forall_burnCardNftCalls (by simp) (by simp) (by simp) (by simp)
  | mintVoucher =>
    rw [List.forall_mem_append]
    constructor
    · simp [mintVoucherCalls]
    · split
      · exact forall_burnCardNftCalls (by simp) (by simp) (by simp) (by simp)
      · simp
  | presentVoucher => exact forall_presentVoucherCalls (by simp) (by simp)
  | transferVoucher => exact forall_transferVoucherCalls (by simp) (by simp) (by simp) (by simp)
  | redeemVoucher =>
    rw [List.forall_mem_append]
    exact ⟨forall_redeemCalls (by simp) (by simp) (by simp), forall_closeMintCalls (by simp)⟩
  | closeExpiredVoucher =>
    rw [List.forall_mem_append]
    exact ⟨forall_burnExpiredCalls (by simp) (by simp) (by simp), forall_closeMintCalls (by simp)⟩
  | token =>
    simp only [List.forall_mem_singleton]
    intro _ heq
    subst heq
    intro hs
    exact ⟨_, _, rfl, hs⟩
  | cancelPresentation | openMint | openToken | closeToken => simp
  | _ => simp

theorem Step.delegate_before (hst : Step P s c s' cs calls ps) (hx' : s'.tokens.accounts.lookup X = some x')
    (hd : x'.delegate = some d) : c.Approves X d x'.owner ∨
      ∃ x, s.tokens.accounts.lookup X = some x ∧ x.delegate = some d ∧ x.mint = x'.mint ∧
      x.owner = x'.owner := by
  by_cases hap : c.Approves X d x'.owner
  · exact .inl hap
  · exact .inr (run_delegate_before hst.tokens hx' hd fun k hk amount hop hs =>
      hap (hst.effect.approves k hk amount hop hs))

/-- What the owners did for the accounts of voucher mints to be as they are. -/
structure OwnersDid (hist : History) (s : State) : Prop where
  presented : ∀ X x, s.tokens.accounts.lookup X = some x → x.mint.isVoucherMint = true → x.frozen = true →
    Presented hist X x.owner
  approved : ∀ X x d, s.tokens.accounts.lookup X = some x → x.mint.isVoucherMint = true →
    x.delegate = some d →
    Approved hist X d x.owner

theorem Step.ownersDid (hw : s.WellPlaced) (ht : s.VoucherTokens P) (hi : OwnersDid hist s)
    (hst : Step P s c s' cs calls ps) : OwnersDid (⟨s, c, s'⟩ :: hist) s' where
  presented X x' hx' hM hf := by
    rcases hst.frozen_before hw ht hx' hM hf with ⟨hpres, -⟩ | ⟨hcan, x, hx, hfx, hmint, howner, -⟩
    · exact ⟨[], _, hist, rfl, hpres, (by simp)⟩
    · rw [← howner]
      exact (hi.presented X x hx (hmint ▸ hM) hfx).cons hcan
  approved X x' d hx' hM hd := by
    rcases hst.delegate_before hx' hd with hap | ⟨x, hx, hdx, hmint, howner⟩
    · exact ⟨_, List.mem_cons_self, hap⟩
    · obtain ⟨st, hmem, hap⟩ := hi.approved X x d hx (hmint ▸ hM) hdx
      exact ⟨st, List.mem_cons_of_mem _ hmem, howner ▸ hap⟩

theorem Run.ownersDid (hr : Run P start hist s) (hs : start.Empty) : OwnersDid hist s := by
  refine hr.induct_empty (I := OwnersDid) hs ⟨?_, ?_⟩ fun hrun hw _ hi hst =>
    hst.ownersDid hw (hrun.voucherTokens hs) hi
  · intro X x hx hM
    obtain ⟨⟨k, hk⟩, -⟩ := hs.accounts hx
    rw [hk] at hM
    cases hM
  · intro X x d hx hM
    obtain ⟨⟨k, hk⟩, -⟩ := hs.accounts hx
    rw [hk] at hM
    cases hM

/-! ## The token leaves an account -/

/-- What takes from an account of a voucher mint, or gives it away. -/
theorem Effect.takes (he : Effect P tx s action cs calls ps) (hM : M.isVoucherMint = true) : ∀ k ∈ calls,
    (∃ auth, k.op.TakesFrom X M auth) ∨ (∃ new auth, k.op = .setOwner X new auth) →
    (∃ accs, action = .program (.transferVoucher accs) ∧ accs.fromToken = X) ∨
    (∃ accs, action = .program (.redeemVoucher accs) ∧ accs.holderToken = X ∧ accs.mint = M) ∨
    (∃ accs, action = .program (.closeExpiredVoucher accs) ∧ accs.mint = M) ∨
    ∃ op cpi, action = .wallet (.token op cpi) := by
  have hcard : ∀ {card cardMint cardToken destination : Address} {customer : Option Address}
      {y : Option (Account Address)} {seeds : UInt8 → Address} {bump : UInt8} {Q : Prop},
      findProgramAddress P seeds = some (cardMint, bump) → (∀ n, (seeds n).isVoucherMint = false) →
      ∀ k ∈ burnCardNftCalls tx card cardMint cardToken customer destination y,
        (∃ auth, k.op.TakesFrom X M auth) ∨ (∃ new auth, k.op = .setOwner X new auth) → Q := by
    intro _ cardMint _ _ _ _ seeds bump Q hf hseeds
    refine forall_burnCardNftCalls ?_ (by simp [Op.TakesFrom]) (by simp [Op.TakesFrom])
      (by simp [Op.TakesFrom])
    rintro n (⟨auth, ⟨_, _, _, hop⟩ | ⟨_, _, hop⟩⟩ | ⟨_, _, hop⟩) <;> cases hop
    have := findProgramAddress_eq hf
    rw [this, hseeds] at hM
    cases hM
  cases he with
  | mintCardNft => simp [mintCardNftCalls, Op.TakesFrom]
  | retireIdleCardNft _ _ _ _ hf => exact hcard hf fun _ => rfl
  | mintVoucher _ _ _ _ _ _ _ _ _ _ _ _ _ hf =>
    rw [List.forall_mem_append]
    constructor
    · simp [mintVoucherCalls, Op.TakesFrom]
    · split
      · exact hcard hf fun _ => rfl
      · simp
  | presentVoucher => exact forall_presentVoucherCalls (by simp [Op.TakesFrom]) (by simp [Op.TakesFrom])
  | transferVoucher =>
    refine forall_transferVoucherCalls (by simp [Op.TakesFrom]) ?_ (by simp [Op.TakesFrom])
      (by simp [Op.TakesFrom])
    rintro (⟨auth, ⟨_, _, _, hop⟩ | ⟨_, _, hop⟩⟩ | ⟨_, _, hop⟩) <;> cases hop
    exact .inl ⟨_, rfl, rfl⟩
  | redeemVoucher =>
    rw [List.forall_mem_append]
    refine ⟨forall_redeemCalls (by simp [Op.TakesFrom]) ?_ (by simp [Op.TakesFrom]),
      forall_closeMintCalls (by simp [Op.TakesFrom])⟩
    rintro (⟨auth, ⟨_, _, _, hop⟩ | ⟨_, _, hop⟩⟩ | ⟨_, _, hop⟩) <;> cases hop
    exact .inr (.inl ⟨_, rfl, rfl, rfl⟩)
  | closeExpiredVoucher =>
    rw [List.forall_mem_append]
    refine ⟨forall_burnExpiredCalls (by simp [Op.TakesFrom]) ?_ (by simp [Op.TakesFrom]),
      forall_closeMintCalls (by simp [Op.TakesFrom])⟩
    rintro n (⟨auth, ⟨_, _, _, hop⟩ | ⟨_, _, hop⟩⟩ | ⟨_, _, hop⟩) <;> cases hop
    exact .inr (.inr (.inl ⟨_, rfl, rfl⟩))
  | token => exact fun _ _ _ => .inr (.inr (.inr ⟨_, _, rfl⟩))
  | cancelPresentation | openMint | openToken | closeToken => simp [Op.TakesFrom]
  | _ => simp

/-- What takes the token of a live voucher out of an account: handing the voucher over, redeeming it, cleaning
up after it, or a wallet's own call. -/
theorem Step.token_taken (ht : s.VoucherTokens P) (hn : s.Numbered P) (hst : Step P s c s' cs calls ps)
    (hv : s.voucher? V = some v) {owner : Address} (hheld : s.tokens.Holds X v.mint owner)
    (hlost : ¬s'.tokens.Holds X v.mint owner) :
    (∃ accs, c.action = .program (.transferVoucher accs) ∧ accs.fromToken = X ∧ accs.voucher = V) ∨
    (∃ accs, c.action = .program (.redeemVoucher accs) ∧ accs.holderToken = X ∧ accs.voucher = V) ∨
    (∃ accs, c.action = .program (.closeExpiredVoucher accs) ∧ accs.voucher = V) ∨
    ∃ op cpi, c.action = .wallet (.token op cpi) := by
  have hM := ht.isVoucherMint hv
  obtain ⟨k, hk, hop⟩ := run_lost hst.tokens hheld hlost
  have hop' : (∃ auth, k.op.TakesFrom X v.mint auth) ∨ ∃ new auth, k.op = .setOwner X new auth := by
    rcases hop with ⟨auth, htakes, -⟩ | ⟨new, hgives, -⟩
    · exact .inl ⟨auth, htakes⟩
    · exact .inr ⟨new, _, hgives⟩
  obtain ⟨he, -⟩ := hst
  obtain ⟨tx, action⟩ := c
  -- a call names the mint it takes from, and the mint tells the voucher
  obtain ⟨accs, rfl, rfl⟩ | ⟨accs, rfl, hX, hm⟩ | ⟨accs, rfl, hm⟩ | hwallet := he.takes hM k hk hop'
  · obtain ⟨x, hx, hxm, -, -⟩ := hheld
    cases he with
    | transferVoucher hv₁ _ _ _ _ hm₁ _ hx₁ _ _ hxm₁ =>
      rw [hx, Option.some.injEq] at hx₁
      subst hx₁
      exact .inl ⟨accs, rfl, rfl,
        ht.mint_inj hn hv (State.voucher?_eq_some.mpr hv₁) (hm₁.trans (hxm₁.symm.trans hxm))⟩
  · cases he with
    | redeemVoucher _ _ _ hv₁ _ _ _ _ _ hm₁ =>
      exact .inr (.inl ⟨accs, rfl, hX, ht.mint_inj hn hv (State.voucher?_eq_some.mpr hv₁) (hm₁.trans hm)⟩)
  · cases he with
    | closeExpiredVoucher hv₁ _ _ _ hm₁ =>
      exact .inr (.inr (.inl ⟨accs, rfl,
        ht.mint_inj hn hv (State.voucher?_eq_some.mpr hv₁) (hm₁.trans hm)⟩))
  · exact .inr (.inr (.inr hwallet))

/-- The token of a voucher leaves an account by its owner's or delegate's signature, by redemption, or by the
clean-up after expiry. -/
theorem Step.token_lost (hw : s.WellPlaced) (ht : s.VoucherTokens P) (hn : s.Numbered P)
    (hst : Step P s c s' cs calls ps) (hv : s.voucher? V = some v) (hx : s.tokens.accounts.lookup X = some x)
    (hmint : x.mint = v.mint) (hpos : 0 < x.amount) (hlost : ¬s'.tokens.Holds X v.mint x.owner) :
    (x.frozen = false ∧ (x.owner ∈ c.tx.signers ∨ ∃ d, x.delegate = some d ∧ d ∈ c.tx.signers)) ∨
    (x.frozen = true ∧ ∃ accs b, c.action = .program (.redeemVoucher accs) ∧ accs.voucher = V ∧
      s.business? v.business = some b ∧ b.authority ∈ c.tx.signers ∧ c.tx.now ≤ v.expiresAt) ∨
    ∃ accs, c.action = .program (.closeExpiredVoucher accs) ∧ accs.voucher = V ∧ v.expiresAt < c.tx.now := by
  have hun : ∀ {m auth}, s.tokens.mints.lookup v.mint = some m → m.permanentDelegate = some auth →
      auth ∉ c.tx.signers := fun hm hp =>
    hst.mint_unsigned hw ht (ht.isVoucherMint hv) hm (k := .permanentDelegate) hp
  obtain ⟨tx, action⟩ := c
  obtain ⟨accs, rfl, rfl, rfl⟩ | ⟨accs, rfl, rfl, rfl⟩ | ⟨accs, rfl, rfl⟩ | ⟨op, cpi, rfl⟩ :=
    hst.token_taken ht hn hv ⟨x, hx, hmint, rfl, hpos⟩ hlost
  · obtain ⟨he, -⟩ := hst
    cases he with
    | transferVoucher _ _ hs _ _ _ _ hx₁ _ hf _ howner =>
      rw [hx, Option.some.injEq] at hx₁
      subst hx₁
      exact .inl ⟨hf, .inl (howner ▸ hs)⟩
  · obtain ⟨he, -⟩ := hst
    cases he with
    | redeemVoucher hb _ hauth hv₁ _ hs _ _ hbus _ _ hx₁ _ hf _ hexp =>
      rw [hx, Option.some.injEq] at hx₁
      subst hx₁
      rw [State.voucher?_eq_some.mpr hv₁, Option.some.injEq] at hv
      subst hv
      rw [hbus]
      exact .inr (.inl ⟨hf, accs, _, rfl, rfl, State.business?_eq_some.mpr hb, hauth ▸ hs, hexp⟩)
  · obtain ⟨he, -⟩ := hst
    cases he with
    | closeExpiredVoucher hv₁ _ _ _ _ _ _ hexp =>
      rw [State.voucher?_eq_some.mpr hv₁, Option.some.injEq] at hv
      subst hv
      exact .inr (.inr ⟨accs, rfl, rfl, hexp⟩)
  · obtain ⟨he, -, htok, -⟩ := hst
    cases he with
    | token =>
      have hd := run_singleton_eq_ok.mp htok
      obtain ⟨hf, ⟨m, auth, _, _, -, hm, hsp⟩ | ⟨_, -, hs⟩⟩ := hd.lost hx hpos (hmint ▸ hlost)
      · refine .inl ⟨hf, ?_⟩
        rw [hmint] at hm
        cases hsp.as with
        | permanent hp => exact absurd hsp.signed (hun hm hp)
        | delegate _ hdel => exact .inr ⟨auth, hdel, hsp.signed⟩
        | owner _ _ howner => exact .inl (howner ▸ hsp.signed)
      · exact .inl ⟨hf, .inl hs⟩

theorem Step.expiry_kept (hst : Step P s c s' cs calls ps) (hv : s.voucher? V = some v) {v' : Voucher}
    (hv' : s'.voucher? V = some v') : v'.expiresAt = v.expiresAt := by
  by_cases hend : c.action.ends V
  · rw [(hst.ended hend).2] at hv'
    cases hv'
  · obtain ⟨v₁, hv₁, -, hexp, -⟩ := hst.voucher_stays hv hend
    rw [hv', Option.some.injEq] at hv₁
    rw [hv₁, hexp]

/-- **Two-party redemption.** -/
theorem two_party_redemption (hr : Run P start hist s) (hs : start.Empty) (hnext : Next P s c s')
    (hv : s.voucher? V = some v) :
    (∀ v', s'.voucher? V = some v' → v'.expiresAt = v.expiresAt) ∧
    ∀ X x, s.tokens.accounts.lookup X = some x → x.mint = v.mint → 0 < x.amount →
      ¬s'.tokens.Holds X v.mint x.owner →
      (x.frozen = false ∧ (x.owner ∈ c.tx.signers ∨ ∃ d ∈ c.tx.signers, Approved hist X d x.owner)) ∨
      ((∃ accs b, c.action = .program (.redeemVoucher accs) ∧ accs.voucher = V ∧
          s.business? v.business = some b ∧ b.authority ∈ c.tx.signers ∧ c.tx.now ≤ v.expiresAt) ∧
        Presented hist X x.owner) ∨
      ∃ accs, c.action = .program (.closeExpiredVoucher accs) ∧ accs.voucher = V ∧
      v.expiresAt < c.tx.now := by
  have hw := hr.wellPlaced hs.wellPlaced
  have ht := hr.voucherTokens hs
  obtain ⟨cs, calls, ps, hst⟩ := hnext.step hw
  refine ⟨fun v' hv' => hst.expiry_kept hv hv', fun X x hx hmint hpos hlost => ?_⟩
  have hdid := hr.ownersDid hs
  have hM : x.mint.isVoucherMint = true := hmint ▸ ht.isVoucherMint hv
  obtain ⟨hf, hs | ⟨d, hd, hs⟩⟩ | ⟨hf, hredeem⟩ | hexpired :=
    hst.token_lost hw ht (hr.numbered hs) hv hx hmint hpos hlost
  · exact .inl ⟨hf, .inl hs⟩
  · exact .inl ⟨hf, .inr ⟨d, hs, hdid.approved X x d hx hM hd⟩⟩
  · exact .inr (.inl ⟨hredeem, hdid.presented X x hx hM hf⟩)
  · exact .inr (.inr hexpired)

/-- A customer cashes in and presents the voucher, and the shop redeems it. -/
theorem two_party_redemption_redeemed : ∃ hist s c s', Run Sample.platform Sample.start hist s ∧
    Next Sample.platform s c s' ∧ c = Sample.redeem 1040 9 0 ∧
    ¬s'.tokens.Holds (Sample.voucherToken 9 0) (Sample.voucherMint 0) (Sample.key 9) ∧
    Presented hist (Sample.voucherToken 9 0) (Sample.key 9) := by
  obtain ⟨hist, s, hrun, -, hp⟩ := Leads.run (P := Sample.platform) (s := Sample.start)
    (l := [Sample.register 1000 1 0, Sample.issue 1010 7, Sample.claim 1020 9 7, Sample.cashIn 1030 9 0,
      Sample.present 1035 9 0])
    (p := fun s => (s.voucher? (Sample.voucher 0)).any (fun v : Voucher => v.mint = Sample.voucherMint 0) &&
      (s.tokens.accounts.lookup (Sample.voucherToken 9 0)).any (fun x : Account Address =>
        x.mint = Sample.voucherMint 0 ∧ x.owner = Sample.key 9 ∧ 0 < x.amount ∧ x.frozen = true) &&
      Leads Sample.platform s [Sample.redeem 1040 9 0] fun s' =>
        (s'.tokens.accounts.lookup (Sample.voucherToken 9 0)).isNone) (by decide +kernel)
  simp only [Bool.and_eq_true, Option.any_eq_true, decide_eq_true_eq] at hp
  obtain ⟨⟨⟨v, hv, hm⟩, x, hx, hmint, howner, hpos, hf⟩, hredeem⟩ := hp
  obtain ⟨later, s', hlater, hcalls, hgone⟩ := Leads.run hredeem
  obtain ⟨⟨_, c, _⟩, rfl, rfl⟩ := List.map_eq_singleton_iff.mp hcalls
  obtain ⟨hnil, hnext, rfl⟩ := Runs.Run.cons_inv hlater
  obtain rfl := Runs.Run.nil_inv hnil
  have hlost : ¬s'.tokens.Holds (Sample.voucherToken 9 0) v.mint x.owner := by
    intro hex
    obtain ⟨y, hy, -⟩ := hex
    rw [Option.isNone_iff_eq_none.mp hgone] at hy
    cases hy
  obtain ⟨hfree, -⟩ | ⟨-, hpres⟩ | ⟨_, hact, -⟩ :=
    (two_party_redemption hrun Sample.start_empty hnext hv).2 _ x hx
    (hmint.trans hm.symm) hpos hlost
  · rw [hf] at hfree
    cases hfree
  · rw [hm, howner] at hlost
    rw [howner] at hpres
    exact ⟨hist, _, _, s', hrun, hnext, rfl, hlost, hpres⟩
  · cases hact

end Passdari
