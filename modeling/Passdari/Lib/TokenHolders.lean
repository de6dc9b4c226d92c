/-
Who is behind a change in the token program: how an account comes to hold
less, to be frozen, to have a delegate or a guard, and when the authorities
of a mint stay what they are.
-/
import Passdari.Lib.TokenFacts

namespace Token2022

variable {K : Type} [DecidableEq K] {ctx : Ctx K} {t t' : Tokens K} {op : Op K} {a d mint owner : K}
  {x x' : Account K} {m : Mint K}

/-! ## Accounts -/

def Tokens.Holds (t : Tokens K) (a mint owner : K) : Prop :=
  ∃ x, t.accounts.lookup a = some x ∧ x.mint = mint ∧ x.owner = owner ∧ 0 < x.amount

/-- The instruction takes from the account at `a`, as `auth`. -/
def Op.TakesFrom (a mint auth : K) (op : Op K) : Prop :=
  (∃ dest amount decimals, op = .transfer a mint dest auth amount decimals) ∨
    ∃ amount decimals, op = .burn a mint auth amount decimals

/-- An account that stops holding what it held was not frozen, and either something was taken from it by
who may spend it, or its owner gave it away. -/
theorem Did.lost (h : Did ctx t op t') (hx : t.accounts.lookup a = some x) (hpos : 0 < x.amount)
    (hlost : ¬t'.Holds a x.mint x.owner) : x.frozen = false ∧
      ((∃ m auth amount x', op.TakesFrom a x.mint auth ∧ t.mints.lookup x.mint = some m ∧
          Spends ctx m x auth amount x') ∨
        ∃ new, op = .setOwner a new x.owner ∧ x.owner ∈ ctx.signers) := by
  rcases h.account a with hsame | hch
  · exact absurd ⟨x, hsame.trans hx, rfl, rfl, hpos⟩ hlost
  rw [hx] at hch
  generalize hafter : t'.accounts.lookup a = after at hch
  cases hch with
  | minted => exact absurd ⟨_, hafter, rfl, rfl, Nat.add_pos_left hpos _⟩ hlost
  | received => exact absurd ⟨_, hafter, rfl, rfl, Nat.add_pos_left hpos _⟩ hlost
  | sent _ hf _ hmint hm _ hsp =>
    exact ⟨hf, .inl ⟨_, _, _, _, .inl ⟨_, _, _, by rw [hmint]⟩, hmint ▸ hm, hsp⟩⟩
  | burned hf _ hmint hm hsp => exact ⟨hf, .inl ⟨_, _, _, _, .inr ⟨_, _, by rw [hmint]⟩, hmint ▸ hm, hsp⟩⟩
  | ownerSet hf hs => exact ⟨hf, .inr ⟨_, rfl, hs⟩⟩
  | closed _ h0 => exact absurd h0 (Nat.ne_of_gt hpos)
  | approved | revoked | closerSet | froze | thawed | guarded | memoSet =>
    exact absurd ⟨_, hafter, rfl, rfl, hpos⟩ hlost

/-- A frozen account was frozen in this step, or was so before and only its switches changed. -/
theorem Did.frozen_before (h : Did ctx t op t') (hx : t'.accounts.lookup a = some x') (hf : x'.frozen = true)
    (hop : ∀ mint auth, op ≠ .freeze a mint auth) :
    ∃ x, t.accounts.lookup a = some x ∧ x.frozen = true ∧ x.mint = x'.mint ∧ x.owner = x'.owner ∧
      x.amount = x'.amount := by
  rcases h.account a with hsame | hch
  · exact ⟨x', hsame.symm.trans hx, hf, rfl, rfl, rfl⟩
  rw [hx] at hch
  generalize hbefore : t.accounts.lookup a = before at hch
  cases hch with
  | opened => cases hf
  | minted hff | approved hff | revoked hff | ownerSet hff | closerSet hff | received _ hff =>
    cases hff.symm.trans hf
  | sent _ hff _ _ _ _ hsp | burned hff _ _ _ hsp =>
    obtain ⟨-, -, -, hfs, -⟩ := hsp.as.same
    cases hff.symm.trans (hfs.symm.trans hf)
  | froze => exact absurd rfl (hop _ _)
  | thawed => cases hf
  | guarded | memoSet => exact ⟨_, rfl, hf, rfl, rfl, rfl⟩

theorem Did.owner_kept (h : Did ctx t op t') (hx : t'.accounts.lookup a = some x') :
    (∃ mint owner io, op = .initializeAccount a mint owner io ∧ x'.owner = owner ∧
      (io = true → x'.immutableOwner = true)) ∨
    ∃ x, t.accounts.lookup a = some x ∧ x'.immutableOwner = x.immutableOwner ∧
      (x.immutableOwner = true → x'.owner = x.owner) := by
  rcases h.account a with hsame | hch
  · exact .inr ⟨x', hsame.symm.trans hx, rfl, fun _ => rfl⟩
  rw [hx] at hch
  generalize hbefore : t.accounts.lookup a = before at hch
  cases hch with
  | opened =>
    refine .inl ⟨_, _, _, rfl, rfl, fun hio => ?_⟩
    rw [Account.fresh, hio, Bool.true_or]
  | sent _ _ _ _ _ _ hsp | burned _ _ _ _ hsp =>
    obtain ⟨-, howner, -, -, -, himm, -⟩ := hsp.as.same
    exact .inr ⟨_, rfl, himm, fun _ => howner⟩
  | ownerSet =>
    cases h with
    | setOwner hy _ _ _ hfree =>
      rw [hbefore, Option.some.injEq] at hy
      subst hy
      refine .inr ⟨_, rfl, rfl, fun hgood => ?_⟩
      cases hfree.symm.trans hgood
  | minted | received | approved | revoked | closerSet | froze | thawed | guarded | memoSet =>
    exact .inr ⟨_, rfl, rfl, fun _ => rfl⟩

/-- What is sent to an account is there, also when it was sent from the same account. -/
theorem Did.delivered {source dest auth : K} {n decimals : Nat}
    (h : Did ctx t (.transfer source mint dest auth n decimals) t') (hy : t.accounts.lookup dest = some x)
    (hmint : x.mint = mint) (hpos : 0 < n) (hself : source = dest → 0 < x.amount) :
    t'.Holds dest mint x.owner := by
  cases h with
  | transferSelf => exact ⟨x, hy, hmint, rfl, hself rfl⟩
  | transfer _ hy' =>
    rw [hy, Option.some.injEq] at hy'
    subst hy'
    exact ⟨_, Store.lookup_insert_self _ _ _, hmint, rfl, Nat.add_pos_right _ hpos⟩

theorem Did.spent {m : Mint K} {source dest auth : K} {n decimals : Nat}
    (h : Did ctx t (.transfer source mint dest auth n decimals) t') (hx : t.accounts.lookup source = some x)
    (hm : t.mints.lookup mint = some m) : ∃ x', Spends ctx m x auth n x' := by
  cases h with
  | transferSelf hx₁ _ _ _ hm₁ _ _ hsp | transfer hx₁ _ _ _ _ _ _ hm₁ _ _ hsp =>
    rw [hx, Option.some.injEq] at hx₁
    rw [hm, Option.some.injEq] at hm₁
    subst hx₁ hm₁
    exact ⟨_, hsp⟩

/-- No other program moves tokens to where a memo is asked for. -/
theorem Did.memoless {source dest auth : K} {n decimals : Nat}
    (h : Did ctx t (.transfer source mint dest auth n decimals) t') (hcpi : ctx.cpi = true)
    (hy : t.accounts.lookup dest = some x) : x.memoTransfer = false := by
  cases h with
  | transferSelf hy' _ _ _ _ _ _ _ hmemo | transfer _ hy' _ _ _ _ _ _ _ _ _ _ hmemo =>
    rw [hy, Option.some.injEq] at hy'
    subst hy'
    by_contra hx
    exact hmemo ⟨by simpa using hx, hcpi⟩

/-- A delegate was approved in this step, or was the delegate before, of the same owner. -/
theorem Did.delegate_before (h : Did ctx t op t') (hx : t'.accounts.lookup a = some x')
    (hd : x'.delegate = some d)
    (hop : ∀ amount, op = .approve a d x'.owner amount → x'.owner ∉ ctx.signers) :
    ∃ x, t.accounts.lookup a = some x ∧ x.delegate = some d ∧ x.mint = x'.mint ∧ x.owner = x'.owner := by
  rcases h.account a with hsame | hch
  · exact ⟨x', hsame.symm.trans hx, hd, rfl, rfl⟩
  rw [hx] at hch
  generalize hbefore : t.accounts.lookup a = before at hch
  cases hch with
  | opened | revoked | ownerSet => cases hd
  | sent _ _ _ _ _ _ hsp | burned _ _ _ _ hsp =>
    obtain ⟨hmint, howner, -, -, -, -, -, hdel⟩ := hsp.as.same
    rcases hdel with hdel | hdel
    · exact ⟨_, rfl, hdel.symm.trans hd, hmint.symm, howner.symm⟩
    · cases hdel.symm.trans hd
  | approved _ hs =>
    cases hd
    exact absurd hs (hop _ rfl)
  | minted | received | closerSet | froze | thawed | guarded | memoSet => exact ⟨_, rfl, hd, rfl, rfl⟩

/-- A guard was switched on by the owner in this step, directly, or was on before, for the same owner. -/
theorem Did.guard_before (h : Did ctx t op t') (hx : t'.accounts.lookup a = some x')
    (hg : x'.cpiGuard = true) :
    (x'.owner ∈ ctx.signers ∧ ctx.cpi = false) ∨
      ∃ x, t.accounts.lookup a = some x ∧ x.cpiGuard = true ∧ x.mint = x'.mint ∧ x.owner = x'.owner := by
  rcases h.account a with hsame | hch
  · exact .inr ⟨x', hsame.symm.trans hx, hg, rfl, rfl⟩
  rw [hx] at hch
  generalize hbefore : t.accounts.lookup a = before at hch
  cases hch with
  | opened => cases hg
  | sent _ _ _ _ _ _ hsp | burned _ _ _ _ hsp =>
    obtain ⟨hmint, howner, -, -, -, -, hguard, -⟩ := hsp.as.same
    exact .inr ⟨_, rfl, hguard.symm.trans hg, hmint.symm, howner.symm⟩
  | ownerSet _ _ hoff => cases hoff.symm.trans hg
  | guarded hs hc => exact .inl ⟨hs, hc⟩
  | minted | received | approved | revoked | closerSet | froze | thawed | memoSet =>
    exact .inr ⟨_, rfl, hg, rfl, rfl⟩

theorem Did.account_before (h : Did ctx t op t') (hx : t'.accounts.lookup a = some x') :
    (∃ owner io, op = .initializeAccount a x'.mint owner io) ∨
      ∃ x, t.accounts.lookup a = some x ∧ x.mint = x'.mint := by
  rcases h.account a with hsame | hch
  · exact .inr ⟨x', hsame.symm.trans hx, rfl⟩
  rw [hx] at hch
  generalize hbefore : t.accounts.lookup a = before at hch
  cases hch with
  | opened => exact .inl ⟨_, _, rfl⟩
  | sent _ _ _ _ _ _ hsp | burned _ _ _ _ hsp => exact .inr ⟨_, rfl, hsp.as.same.1.symm⟩
  | minted | received | approved | revoked | ownerSet | closerSet | froze | thawed | guarded | memoSet =>
    exact .inr ⟨_, rfl, rfl⟩

/-- The instructions that move tokens or freeze accounts. They leave every account to whom it was. -/
def Op.moves : Op K → Bool
  | .mintTo .. | .transfer .. | .burn .. | .freeze .. | .thaw .. => true
  | _ => false

/-- The accounts answer to the same keys in the same way. -/
structure SameRights (x x' : Account K) : Prop where
  mint : x'.mint = x.mint
  owner : x'.owner = x.owner
  closeAuthority : x'.closeAuthority = x.closeAuthority
  cpiGuard : x'.cpiGuard = x.cpiGuard

theorem Did.same_rights (h : Did ctx t op t') (hop : op.moves = true) (hx : t.accounts.lookup a = some x) :
    ∃ x', t'.accounts.lookup a = some x' ∧ SameRights x x' := by
  rcases h.account a with hsame | hch
  · exact ⟨x, hsame.trans hx, rfl, rfl, rfl, rfl⟩
  rw [hx] at hch
  generalize t'.accounts.lookup a = after at hch
  cases hch with
  | minted | received | froze | thawed => exact ⟨_, rfl, rfl, rfl, rfl, rfl⟩
  | sent _ _ _ _ _ _ hsp | burned _ _ _ _ hsp =>
    obtain ⟨hmint, howner, -, -, hcloser, -, hguard, -⟩ := hsp.as.same
    exact ⟨_, rfl, hmint, howner, hcloser, hguard⟩
  | approved | revoked | ownerSet | closerSet | closed | guarded | memoSet => cases hop

/-! ## Accounts over a sequence -/

theorem run_same_rights : ∀ {cs : List (Call K)} {t t' : Tokens K} {x : Account K}, run t cs = .ok t' →
    t.accounts.lookup a = some x → (∀ c ∈ cs, c.op.moves = true) →
    ∃ x', t'.accounts.lookup a = some x' ∧ SameRights x x'
  | [], _, _, x, h, hx, _ => by
    cases h
    exact ⟨x, hx, rfl, rfl, rfl, rfl⟩
  | c :: cs, t, t', x, h, hx, hop => by
    obtain ⟨t₁, hd, hr⟩ := run_cons_eq_ok.mp h
    obtain ⟨x₁, hx₁, h₁⟩ := hd.same_rights (hop c List.mem_cons_self) hx
    obtain ⟨x₂, hx₂, h₂⟩ := run_same_rights hr hx₁ fun d hd => hop d (List.mem_cons_of_mem _ hd)
    exact ⟨x₂, hx₂, h₂.mint.trans h₁.mint, h₂.owner.trans h₁.owner, h₂.closeAuthority.trans h₁.closeAuthority,
      h₂.cpiGuard.trans h₁.cpiGuard⟩

/-- An account was opened in the sequence, or was of the same mint before it. -/
theorem run_account_was : ∀ {cs : List (Call K)} {t t' : Tokens K}, run t cs = .ok t' →
    t'.accounts.lookup a = some x' → (∃ c ∈ cs, ∃ owner io, c.op = .initializeAccount a x'.mint owner io) ∨
      ∃ x, t.accounts.lookup a = some x ∧ x.mint = x'.mint
  | [], _, _, h, hx => by
    cases h
    exact .inr ⟨x', hx, rfl⟩
  | c :: cs, t, t', h, hx => by
    obtain ⟨t₁, hd, hr⟩ := run_cons_eq_ok.mp h
    rcases run_account_was hr hx with ⟨d, hmem, hopen⟩ | ⟨x₁, hx₁, hm₁⟩
    · exact .inl ⟨d, List.mem_cons_of_mem _ hmem, hopen⟩
    · rcases hd.account_before hx₁ with ⟨owner, io, hopen⟩ | ⟨x, hx, hm⟩
      · exact .inl ⟨c, List.mem_cons_self, owner, io, hm₁ ▸ hopen⟩
      · exact .inr ⟨x, hx, hm.trans hm₁⟩

theorem run_account_before {cs : List (Call K)} (h : run t cs = .ok t') (hx : t'.accounts.lookup a = some x')
    (hop : ∀ c ∈ cs, ∀ mint owner io, c.op ≠ .initializeAccount a mint owner io) :
    ∃ x, t.accounts.lookup a = some x ∧ x.mint = x'.mint := by
  rcases run_account_was h hx with ⟨c, hc, owner, io, hopen⟩ | hbefore
  · exact absurd hopen (hop c hc _ _ _)
  · exact hbefore

/-- What an account stops holding in a sequence, it stops holding in one call of it: a signer takes from it,
or its owner gives it away. -/
theorem run_lost : ∀ {cs : List (Call K)} {t t' : Tokens K}, run t cs = .ok t' →
    t.Holds a mint owner → ¬t'.Holds a mint owner →
    ∃ c ∈ cs, (∃ auth, c.op.TakesFrom a mint auth ∧ auth ∈ c.ctx.signers) ∨
      ∃ new, c.op = .setOwner a new owner ∧ owner ∈ c.ctx.signers
  | [], _, _, h, hh, hlost => by
    cases h
    exact absurd hh hlost
  | c :: cs, t, t', h, ⟨x, hx, hmint, howner, hpos⟩, hlost => by
    obtain ⟨t₁, hd, hr⟩ := run_cons_eq_ok.mp h
    by_cases hh : t₁.Holds a mint owner
    · obtain ⟨d, hmem, hd⟩ := run_lost hr hh hlost
      exact ⟨d, List.mem_cons_of_mem _ hmem, hd⟩
    · subst hmint howner
      obtain ⟨-, ⟨_, auth, _, _, htakes, -, hsp⟩ | hgives⟩ := hd.lost hx hpos hh
      · exact ⟨c, List.mem_cons_self, .inl ⟨auth, htakes, hsp.signed⟩⟩
      · exact ⟨c, List.mem_cons_self, .inr hgives⟩

theorem run_frozen_before : ∀ {cs : List (Call K)} {t t' : Tokens K}, run t cs = .ok t' →
    t'.accounts.lookup a = some x' → x'.frozen = true → (∀ c ∈ cs, ∀ mint auth, c.op ≠ .freeze a mint auth) →
    ∃ x, t.accounts.lookup a = some x ∧ x.frozen = true ∧ x.mint = x'.mint ∧ x.owner = x'.owner ∧
      x.amount = x'.amount
  | [], _, _, h, hx, hf, _ => by
    cases h
    exact ⟨x', hx, hf, rfl, rfl, rfl⟩
  | c :: cs, t, t', h, hx, hf, hop => by
    obtain ⟨t₁, hd, hr⟩ := run_cons_eq_ok.mp h
    obtain ⟨x₁, hx₁, hf₁, hm₁, ho₁, hn₁⟩ :=
      run_frozen_before hr hx hf fun d hd => hop d (List.mem_cons_of_mem _ hd)
    obtain ⟨x, hx, hf, hm, ho, hn⟩ := hd.frozen_before hx₁ hf₁ (hop c List.mem_cons_self)
    exact ⟨x, hx, hf, hm.trans hm₁, ho.trans ho₁, hn.trans hn₁⟩

theorem run_delegate_before : ∀ {cs : List (Call K)} {t t' : Tokens K}, run t cs = .ok t' →
    t'.accounts.lookup a = some x' → x'.delegate = some d →
    (∀ c ∈ cs, ∀ amount, c.op = .approve a d x'.owner amount → x'.owner ∉ c.ctx.signers) →
    ∃ x, t.accounts.lookup a = some x ∧ x.delegate = some d ∧ x.mint = x'.mint ∧ x.owner = x'.owner
  | [], _, _, h, hx, hd, _ => by
    cases h
    exact ⟨x', hx, hd, rfl, rfl⟩
  | c :: cs, t, t', h, hx, hd, hop => by
    obtain ⟨t₁, hdid, hr⟩ := run_cons_eq_ok.mp h
    obtain ⟨x₁, hx₁, hd₁, hm₁, ho₁⟩ := run_delegate_before hr hx hd fun e he =>
      hop e (List.mem_cons_of_mem _ he)
    obtain ⟨x, hx, hd, hm, ho⟩ := hdid.delegate_before hx₁ hd₁ (by rw [ho₁]; exact hop c List.mem_cons_self)
    exact ⟨x, hx, hd, hm.trans hm₁, ho.trans ho₁⟩

theorem run_guard_before : ∀ {cs : List (Call K)} {t t' : Tokens K}, run t cs = .ok t' →
    t'.accounts.lookup a = some x' → x'.cpiGuard = true →
    (∃ c ∈ cs, x'.owner ∈ c.ctx.signers ∧ c.ctx.cpi = false) ∨
      ∃ x, t.accounts.lookup a = some x ∧ x.cpiGuard = true ∧ x.mint = x'.mint ∧ x.owner = x'.owner
  | [], _, _, h, hx, hg => by
    cases h
    exact .inr ⟨x', hx, hg, rfl, rfl⟩
  | c :: cs, t, t', h, hx, hg => by
    obtain ⟨t₁, hd, hr⟩ := run_cons_eq_ok.mp h
    rcases run_guard_before hr hx hg with ⟨d, hmem, hs⟩ | ⟨x₁, hx₁, hg₁, hm₁, ho₁⟩
    · exact .inl ⟨d, List.mem_cons_of_mem _ hmem, hs⟩
    · rcases hd.guard_before hx₁ hg₁ with ⟨hs, hc⟩ | ⟨x, hx, hg, hm, ho⟩
      · exact .inl ⟨c, List.mem_cons_self, ho₁ ▸ hs, hc⟩
      · exact .inr ⟨x, hx, hg, hm.trans hm₁, ho.trans ho₁⟩

/-- An account stays with the close authority it names, while that does not sign. -/
theorem Did.closer_kept {closer : K} (h : Did ctx t op t') (hx : t.accounts.lookup a = some x)
    (hc : x.closeAuthority = some closer) (hs : closer ∉ ctx.signers) :
    ∃ x', t'.accounts.lookup a = some x' ∧ x'.closeAuthority = some closer := by
  rcases h.account a with hsame | hch
  · exact ⟨x, hsame.trans hx, hc⟩
  have hcl : x.closer = closer := by rw [Account.closer, hc]; rfl
  rw [hx] at hch
  generalize t'.accounts.lookup a = after at hch
  cases hch with
  | closerSet _ hsigned => exact absurd (hcl ▸ hsigned) hs
  | closed _ _ hsigned => exact absurd (hcl ▸ hsigned) hs
  | sent _ _ _ _ _ _ hsp | burned _ _ _ _ hsp => exact ⟨_, rfl, hsp.as.same.2.2.2.2.1.trans hc⟩
  | minted | received | approved | revoked | ownerSet | froze | thawed | guarded | memoSet =>
    exact ⟨_, rfl, hc⟩

theorem run_closer_kept {closer : K} {cs : List (Call K)} (h : run t cs = .ok t')
    (hx : t.accounts.lookup a = some x) (hc : x.closeAuthority = some closer)
    (hcs : ∀ c ∈ cs, closer ∉ c.ctx.signers) :
    ∃ x', t'.accounts.lookup a = some x' ∧ x'.closeAuthority = some closer := by
  refine run_invariant (fun t => ∃ x, t.accounts.lookup a = some x ∧ x.closeAuthority = some closer) ?_ h
    ⟨x, hx, hc⟩
  intro c hmem t₁ t₂ hex
  obtain ⟨x₁, hx₁, hc₁⟩ := hex
  intro hd
  exact hd.closer_kept hx₁ hc₁ (hcs c hmem)

theorem run_opens_account : ∀ {cs : List (Call K)} {t t' : Tokens K}, run t cs = .ok t' →
    t.accounts.lookup a = none → t'.accounts.lookup a = some x →
    ∃ c ∈ cs, ∃ mint owner io, c.op = .initializeAccount a mint owner io
  | [], _, _, h, h0, hx => by
    cases h
    rw [h0] at hx
    cases hx
  | c :: cs, t, t', h, h0, hx => by
    obtain ⟨t₁, hd, hr⟩ := run_cons_eq_ok.mp h
    rcases hd.account a with hsame | hch
    · obtain ⟨d, hd, hop⟩ := run_opens_account hr (hsame.trans h0) hx
      exact ⟨d, List.mem_cons_of_mem _ hd, hop⟩
    · rw [h0] at hch
      generalize t₁.accounts.lookup a = after, hop : c.op = op at hch
      cases hch with
      | opened => exact ⟨c, List.mem_cons_self, _, _, _, hop⟩

/-- What is closed is gone: the account, or the mint where there was no account. -/
theorem Did.close {dest auth : K} (h : Did ctx t (.close a dest auth) t') :
    t'.accounts.lookup a = none ∧ (t.accounts.lookup a = none → t'.mints.lookup a = none) := by
  cases h with
  | closeAccount _ hx => exact ⟨Store.lookup_erase_self _ _, fun hno => absurd (hno.symm.trans hx) (by simp)⟩
  | closeMint _ hno => exact ⟨hno, fun _ => Store.lookup_erase_self _ _⟩

/-! ## Mints -/

/-- The instruction changes an authority of the mint at `a`, or closes it. -/
def Op.Governs (a : K) : Op K → Prop
  | .setMintAuthority b _ _ _ | .close b _ _ => b = a
  | _ => False

/-- `m'` is `m`, with no more of it about. -/
structure SameMint (m m' : Mint K) : Prop where
  mintAuthority : m'.mintAuthority = m.mintAuthority
  freezeAuthority : m'.freezeAuthority = m.freezeAuthority
  closeAuthority : m'.closeAuthority = m.closeAuthority
  permanentDelegate : m'.permanentDelegate = m.permanentDelegate
  nonTransferable : m'.nonTransferable = m.nonTransferable
  decimals : m'.decimals = m.decimals
  supply : m'.supply ≤ m.supply

omit [DecidableEq K] in
theorem SameMint.refl (m : Mint K) : SameMint m m := ⟨rfl, rfl, rfl, rfl, rfl, rfl, Nat.le_refl _⟩

omit [DecidableEq K] in
theorem SameMint.trans {m₁ m₂ m₃ : Mint K} (h : SameMint m₁ m₂) (h' : SameMint m₂ m₃) : SameMint m₁ m₃ :=
  ⟨h'.1.trans h.1, h'.2.trans h.2, h'.3.trans h.3, h'.4.trans h.4, h'.5.trans h.5, h'.6.trans h.6,
    h'.7.trans h.7⟩

omit [DecidableEq K] in
theorem SameMint.authority {m m' : Mint K} (h : SameMint m m') (k : AuthorityType) :
    m'.authority k = m.authority k := by
  cases k
  · exact h.mintAuthority
  · exact h.freezeAuthority
  · exact h.closeAuthority
  · exact h.permanentDelegate

/-- A mint nobody can mint more of stays as it is, unless one of its authorities signs for a change. -/
theorem Did.same_mint (h : Did ctx t op t') (hm : t.mints.lookup a = some m) (hfixed : m.mintAuthority = none)
    (hop : op.Governs a → ∀ k auth, m.authority k = some auth → auth ∉ ctx.signers) :
    ∃ m', t'.mints.lookup a = some m' ∧ SameMint m m' := by
  rcases h.mint a with hsame | hch
  · exact ⟨m, hsame.trans hm, .refl m⟩
  rw [hm] at hch
  generalize hafter : t'.mints.lookup a = after at hch
  cases hch with
  | described hauth | minted hauth => rw [hfixed] at hauth; cases hauth
  | burned => exact ⟨_, rfl, rfl, rfl, rfl, rfl, rfl, rfl, Nat.sub_le _ _⟩
  | authoritySet hauth hs => exact absurd hs (hop rfl _ _ hauth)
  | closed hauth hs => exact absurd hs (hop rfl .closeMint _ hauth)

theorem run_same_mint {cs : List (Call K)} (h : run t cs = .ok t') (hm : t.mints.lookup a = some m)
    (hfixed : m.mintAuthority = none)
    (hcs : ∀ c ∈ cs, c.op.Governs a → ∀ k auth, m.authority k = some auth → auth ∉ c.ctx.signers) :
    ∃ m', t'.mints.lookup a = some m' ∧ SameMint m m' := by
  refine run_invariant (fun t => ∃ m', t.mints.lookup a = some m' ∧ SameMint m m') ?_ h ⟨m, hm, .refl m⟩
  intro c hc t₁ t₂ hex
  obtain ⟨m₁, hm₁, hsame⟩ := hex
  intro hd
  obtain ⟨m₂, hm₂, hsame₂⟩ := hd.same_mint hm₁ (hsame.mintAuthority.trans hfixed)
    fun hg k auth hauth => hcs c hc hg k auth ((hsame.authority k).symm.trans hauth)
  exact ⟨m₂, hm₂, hsame.trans hsame₂⟩

theorem run_opens_mint : ∀ {cs : List (Call K)} {t t' : Tokens K}, run t cs = .ok t' →
    t.mints.lookup a = none →
    t'.mints.lookup a = some m → ∃ c ∈ cs, ∃ m₀, c.op = .initializeMint a m₀
  | [], _, _, h, h0, hm => by
    cases h
    rw [h0] at hm
    cases hm
  | c :: cs, t, t', h, h0, hm => by
    obtain ⟨t₁, hd, hr⟩ := run_cons_eq_ok.mp h
    rcases hd.mint a with hsame | hch
    · obtain ⟨d, hd, hop⟩ := run_opens_mint hr (hsame.trans h0) hm
      exact ⟨d, List.mem_cons_of_mem _ hd, hop⟩
    · rw [h0] at hch
      generalize t₁.mints.lookup a = after, hop : c.op = op at hch
      cases hch with
      | opened => exact ⟨c, List.mem_cons_self, _, hop⟩

/-! ## What is opened and what is closed -/

/-- The address an instruction puts a new mint or account at. -/
@[simp] def Op.opens : Op K → Option K
  | .initializeMint a _ | .initializeAccount a _ _ _ => some a
  | _ => none

omit [DecidableEq K] in
theorem Op.opens_eq_some (h : op.opens = some a) :
    (∃ m, op = .initializeMint a m) ∨ ∃ mint owner io, op = .initializeAccount a mint owner io := by
  cases op <;> cases h
  · exact .inl ⟨_, rfl⟩
  · exact .inr ⟨_, _, _, rfl⟩

/-- An address is a mint or an account, not both. -/
def Tokens.OneKind (t : Tokens K) : Prop := ∀ a, t.mints.lookup a = none ∨ t.accounts.lookup a = none

/-- Only opening puts something at an address. -/
theorem Did.not_inUse (h : Did ctx t op t') (ha : ¬t.InUse a) (hop : op.opens ≠ some a) : ¬t'.InUse a := by
  rw [Token2022.not_inUse] at ha ⊢
  constructor
  · rcases h.mint a with hsame | hch
    · exact hsame.trans ha.1
    · rw [ha.1] at hch
      generalize t'.mints.lookup a = after at hch
      cases hch with
      | opened => exact absurd rfl hop
  · rcases h.account a with hsame | hch
    · exact hsame.trans ha.2
    · rw [ha.2] at hch
      generalize t'.accounts.lookup a = after at hch
      cases hch with
      | opened => exact absurd rfl hop

theorem Did.oneKind (h : Did ctx t op t') (hk : t.OneKind) : t'.OneKind := by
  intro a
  rcases hk a with hm | hx
  · rcases h.mint a with hsame | hch
    · exact .inl (hsame.trans hm)
    · rw [hm] at hch
      generalize t'.mints.lookup a = after at hch ⊢
      cases hch with
      | opened hu =>
        cases h
        exact .inr (Token2022.not_inUse.mp hu).2
  · rcases h.account a with hsame | hch
    · exact .inr (hsame.trans hx)
    · rw [hx] at hch
      generalize t'.accounts.lookup a = after at hch ⊢
      cases hch with
      | opened hu =>
        cases h
        exact .inl (Token2022.not_inUse.mp hu).1

theorem Did.close_gone {dest auth : K} (h : Did ctx t (.close a dest auth) t') (hk : t.OneKind) :
    t.InUse a ∧ ¬t'.InUse a ∧ a ≠ dest := by
  have hthere : t.InUse a := by
    by_contra hno
    obtain ⟨hm, hx⟩ := Token2022.not_inUse.mp hno
    cases h with
    | closeAccount _ hx' => cases hx.symm.trans hx'
    | closeMint _ _ hm' => cases hm.symm.trans hm'
  obtain ⟨hx, hm⟩ := h.close
  refine ⟨hthere, Token2022.not_inUse.mpr ⟨?_, hx⟩, ?_⟩
  · cases h with
    | closeAccount _ hx' => exact (hk a).resolve_right (by rw [hx']; exact (by simp))
    | closeMint _ hno => exact hm hno
  · cases h with
    | closeAccount hne | closeMint hne => exact hne

/-- **What a sequence closes was there, is gone, and went elsewhere**, when nothing is opened in its place. -/
theorem run_closes {dest auth : K} {k : Call K} : ∀ {cs : List (Call K)} {t t' : Tokens K},
    run t cs = .ok t' →
    t.OneKind → (∀ c ∈ cs, c.op.opens ≠ some a) → k ∈ cs → k.op = .close a dest auth →
    t.InUse a ∧ ¬t'.InUse a ∧ a ≠ dest
  | [], _, _, _, _, _, hk, _ => by cases hk
  | c :: cs, t, t', h, hone, hno, hk, hop => by
    obtain ⟨t₁, hd, hr⟩ := run_cons_eq_ok.mp h
    have hno₁ : ∀ c ∈ cs, c.op.opens ≠ some a := fun c hc => hno c (List.mem_cons_of_mem _ hc)
    rcases List.mem_cons.mp hk with rfl | hk
    · rw [hop] at hd
      obtain ⟨hthere, hgone, hne⟩ := hd.close_gone hone
      exact ⟨hthere, run_invariant (fun t => ¬t.InUse a) (fun c hc {_ _} hi hd => hd.not_inUse hi (hno₁ c hc))
        hr hgone, hne⟩
    · obtain ⟨hthere, hgone, hne⟩ := run_closes hr (hd.oneKind hone) hno₁ hk hop
      refine ⟨?_, hgone, hne⟩
      by_contra hfree
      exact hd.not_inUse hfree (hno c List.mem_cons_self) hthere

end Token2022
