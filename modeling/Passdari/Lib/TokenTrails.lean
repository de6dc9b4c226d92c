/-
What an account was, from what it is: the owner, guard and close authority it
has it had before, unless an instruction set them, and what it holds somebody
sent there. And a mint nobody may use leaves the account of its only token
exactly as it is.
-/
import Passdari.Lib.TokenHolders

namespace Token2022

variable {K : Type} [DecidableEq K] {ctx : Ctx K} {t t' : Tokens K} {op : Op K} {a mint closer : K}
  {x x' : Account K} {m : Mint K}

/-! ## Rights -/

/-- The instructions that give an account another owner or delegate, or switch its guard or its memo. -/
def Op.reassigns : Op K → Bool
  | .approve .. | .revoke .. | .setOwner .. | .cpiGuard .. | .memoTransfer .. => true
  | _ => false

/-- The accounts are one holder's, of one mint, and the later one has a delegate only if the earlier one
has. -/
structure SameHolder (x x' : Account K) : Prop where
  mint : x.mint = x'.mint
  owner : x.owner = x'.owner
  cpiGuard : x.cpiGuard = x'.cpiGuard
  memoTransfer : x.memoTransfer = x'.memoTransfer
  delegate : x.delegate = none → x'.delegate = none

omit [DecidableEq K] in
theorem SameHolder.trans {x₁ x₂ x₃ : Account K} (h : SameHolder x₁ x₂) (h' : SameHolder x₂ x₃) :
    SameHolder x₁ x₃ :=
  ⟨h.mint.trans h'.mint, h.owner.trans h'.owner, h.cpiGuard.trans h'.cpiGuard,
    h.memoTransfer.trans h'.memoTransfer, fun hd => h'.delegate (h.delegate hd)⟩

/-- An account is whose it was, with the switches and without the delegate it had, or it is new. -/
theorem Did.rights_before (h : Did ctx t op t') (hx : t'.accounts.lookup a = some x')
    (hop : op.reassigns = false) :
    (x'.cpiGuard = false ∧ x'.memoTransfer = false ∧ x'.delegate = none ∧
      ∃ io, op = .initializeAccount a x'.mint x'.owner io) ∨
      ∃ x, t.accounts.lookup a = some x ∧ SameHolder x x' := by
  rcases h.account a with hsame | hch
  · exact .inr ⟨x', hsame.symm.trans hx, rfl, rfl, rfl, rfl, id⟩
  rw [hx] at hch
  generalize t.accounts.lookup a = before at hch ⊢
  cases hch with
  | opened => exact .inl ⟨rfl, rfl, rfl, _, rfl⟩
  | sent _ _ _ _ _ _ hsp | burned _ _ _ _ hsp =>
    obtain ⟨hmint, howner, -, -, -, -, hguard, hdelegate⟩ := hsp.as.same
    exact .inr ⟨_, rfl, hmint.symm, howner.symm, hguard.symm, hsp.as.memo_same.symm,
      fun hd => hdelegate.elim (fun he => he.trans hd) id⟩
  | minted | received | closerSet | froze | thawed => exact .inr ⟨_, rfl, rfl, rfl, rfl, rfl, id⟩
  | approved | revoked | ownerSet | guarded | memoSet => cases hop

theorem run_rights_before : ∀ {cs : List (Call K)} {t t' : Tokens K} {x' : Account K}, run t cs = .ok t' →
    t'.accounts.lookup a = some x' → (∀ c ∈ cs, c.op.reassigns = false) →
    (x'.cpiGuard = false ∧ x'.memoTransfer = false ∧ x'.delegate = none ∧ ∃ c ∈ cs, ∃ io,
      c.op = .initializeAccount a x'.mint x'.owner io) ∨
      ∃ x, t.accounts.lookup a = some x ∧ SameHolder x x'
  | [], _, _, x', h, hx, _ => by
    cases h
    exact .inr ⟨x', hx, rfl, rfl, rfl, rfl, id⟩
  | c :: cs, t, t', x', h, hx, hop => by
    obtain ⟨t₁, hd, hr⟩ := run_cons_eq_ok.mp h
    obtain ⟨hg, hmemo, hdel, d, hmem, hopen⟩ | ⟨x₁, hx₁, hs₁⟩ :=
      run_rights_before hr hx fun d hd => hop d (List.mem_cons_of_mem _ hd)
    · exact .inl ⟨hg, hmemo, hdel, d, List.mem_cons_of_mem _ hmem, hopen⟩
    · rcases hd.rights_before hx₁ (hop c List.mem_cons_self) with ⟨hg, hmemo, hdel, io, hopen⟩ | ⟨x, hx, hs⟩
      · refine .inl ⟨hs₁.cpiGuard.symm.trans hg, hs₁.memoTransfer.symm.trans hmemo, hs₁.delegate hdel, c,
          List.mem_cons_self, io, ?_⟩
        rw [hopen, hs₁.mint, hs₁.owner]
      · exact .inr ⟨x, hx, hs.trans hs₁⟩

/-- An account names as its close authority whom it named before, or whom it was told to in this step. -/
theorem Did.closer_before (h : Did ctx t op t') (hx : t'.accounts.lookup a = some x')
    (hc : x'.closeAuthority = some closer) :
    (∃ auth, op = .setCloseAuthority a (some closer) auth) ∨
      ∃ x, t.accounts.lookup a = some x ∧ x.mint = x'.mint ∧ x.closeAuthority = some closer := by
  rcases h.account a with hsame | hch
  · exact .inr ⟨x', hsame.symm.trans hx, rfl, hc⟩
  rw [hx] at hch
  generalize t.accounts.lookup a = before at hch ⊢
  cases hch with
  | opened => cases hc
  | closerSet =>
    cases hc
    exact .inl ⟨_, rfl⟩
  | sent _ _ _ _ _ _ hsp | burned _ _ _ _ hsp =>
    exact .inr ⟨_, rfl, hsp.as.same.1.symm, hsp.as.same.2.2.2.2.1.symm.trans hc⟩
  | minted | received | approved | revoked | ownerSet | froze | thawed | guarded | memoSet =>
    exact .inr ⟨_, rfl, rfl, hc⟩

theorem run_closer_before : ∀ {cs : List (Call K)} {t t' : Tokens K}, run t cs = .ok t' →
    t'.accounts.lookup a = some x' → x'.closeAuthority = some closer →
    (∃ c ∈ cs, ∃ auth, c.op = .setCloseAuthority a (some closer) auth) ∨
      ∃ x, t.accounts.lookup a = some x ∧ x.mint = x'.mint ∧ x.closeAuthority = some closer
  | [], _, _, h, hx, hc => by
    cases h
    exact .inr ⟨x', hx, rfl, hc⟩
  | c :: cs, t, t', h, hx, hc => by
    obtain ⟨t₁, hd, hr⟩ := run_cons_eq_ok.mp h
    rcases run_closer_before hr hx hc with ⟨d, hmem, hset⟩ | ⟨x₁, hx₁, hm₁, hc₁⟩
    · exact .inl ⟨d, List.mem_cons_of_mem _ hmem, hset⟩
    · rcases hd.closer_before hx₁ hc₁ with ⟨auth, hset⟩ | ⟨x, hx, hm, hc⟩
      · exact .inl ⟨c, List.mem_cons_self, auth, hset⟩
      · exact .inr ⟨x, hx, hm.trans hm₁, hc⟩

/-- An account that is closed and not opened again is gone. -/
theorem run_close_gone {dest auth : K} {k : Call K} {cs : List (Call K)} (h : run t cs = .ok t') (hk : k ∈ cs)
    (hop : k.op = .close a dest auth)
    (hno : ∀ c ∈ cs, ∀ mint owner io, c.op ≠ .initializeAccount a mint owner io) :
    t'.accounts.lookup a = none := by
  obtain ⟨l, r, rfl⟩ := List.append_of_mem hk
  obtain ⟨t₁, -, hr⟩ := run_append_eq_ok.mp h
  obtain ⟨t₂, hd, hrest⟩ := run_cons_eq_ok.mp hr
  rw [hop] at hd
  by_contra hne
  obtain ⟨y, hy⟩ := Option.ne_none_iff_exists'.mp hne
  obtain ⟨c, hc, mint, owner, io, hopen⟩ := run_opens_account hrest hd.close.1 hy
  exact hno c (List.mem_append_right _ (List.mem_cons_of_mem _ hc)) mint owner io hopen

/-! ## What is sent -/

/-- The instruction puts some of the mint on the account at `a`. -/
def Op.GivesTo (a mint : K) (op : Op K) : Prop :=
  (∃ auth amount decimals, op = .mintTo mint a auth amount decimals) ∨
    ∃ src auth amount decimals, op = .transfer src mint a auth amount decimals ∧ src ≠ a ∧ 0 < amount

/-- What holds something held something before, or was given it. -/
theorem Did.gained (h : Did ctx t op t') (hx : t'.accounts.lookup a = some x') (hpos : 0 < x'.amount) :
    op.GivesTo a x'.mint ∨ ∃ x, t.accounts.lookup a = some x ∧ x.mint = x'.mint ∧ 0 < x.amount := by
  rcases h.account a with hsame | hch
  · exact .inr ⟨x', hsame.symm.trans hx, rfl, hpos⟩
  rw [hx] at hch
  generalize t.accounts.lookup a = before at hch ⊢
  cases hch with
  | opened => exact absurd hpos (Nat.lt_irrefl 0)
  | minted _ hmint => exact .inl (.inl ⟨_, _, _, by rw [hmint]⟩)
  | @received _ _ _ amount _ y _ _ _ hne _ hmint =>
    by_cases h0 : 0 < y.amount
    · exact .inr ⟨y, rfl, rfl, h0⟩
    · refine .inl (.inr ⟨_, _, _, _, by rw [hmint], hne, ?_⟩)
      have : 0 < y.amount + amount := hpos
      omega
  | sent _ _ _ _ _ _ hsp | burned _ _ _ _ hsp =>
    exact .inr ⟨_, rfl, hsp.as.same.1.symm, Nat.lt_of_lt_of_le hpos (Nat.sub_le _ _)⟩
  | approved | revoked | ownerSet | closerSet | froze | thawed | guarded | memoSet =>
    exact .inr ⟨_, rfl, rfl, hpos⟩

theorem run_gained : ∀ {cs : List (Call K)} {t t' : Tokens K} {x' : Account K}, run t cs = .ok t' →
    t'.accounts.lookup a = some x' → 0 < x'.amount →
    (∃ c ∈ cs, c.op.GivesTo a x'.mint) ∨ ∃ x, t.accounts.lookup a = some x ∧ x.mint = x'.mint ∧ 0 < x.amount
  | [], _, _, x', h, hx, hpos => by
    cases h
    exact .inr ⟨x', hx, rfl, hpos⟩
  | c :: cs, t, t', x', h, hx, hpos => by
    obtain ⟨t₁, hd, hr⟩ := run_cons_eq_ok.mp h
    rcases run_gained hr hx hpos with ⟨d, hmem, hgive⟩ | ⟨x₁, hx₁, hm₁, hpos₁⟩
    · exact .inl ⟨d, List.mem_cons_of_mem _ hmem, hgive⟩
    · rcases hd.gained hx₁ hpos₁ with hgive | ⟨x, hx, hm, hpos⟩
      · exact .inl ⟨c, List.mem_cons_self, hm₁ ▸ hgive⟩
      · exact .inr ⟨x, hx, hm.trans hm₁, hpos⟩

/-! ## A token nobody may touch -/

/-- The mint is done, and it and the account obey `auth` alone. -/
structure Sealed (auth : K) (m : Mint K) (x : Account K) : Prop where
  mintAuthority : m.mintAuthority = none
  freezeAuthority : m.freezeAuthority = none
  closeAuthority : m.closeAuthority = some auth
  permanentDelegate : m.permanentDelegate = some auth
  nonTransferable : m.nonTransferable = true
  closer : x.closeAuthority = some auth
  frozen : x.frozen = false
  delegate : x.delegate = none

/-- The instruction burns none of the mint, and changes no delegate, owner or switch. -/
def Op.Spares (mint : K) (op : Op K) : Prop :=
  op.reassigns = false ∧ ∀ src auth amount decimals, op ≠ .burn src mint auth amount decimals

/-- **While its authority does not sign, a sealed token stays where it is**: the mint and the account are left
alone. -/
theorem Did.sealed {auth : K} (h : Did ctx t op t') (hm : t.mints.lookup x.mint = some m)
    (hx : t.accounts.lookup a = some x) (hs : Sealed auth m x) (hauth : auth ∉ ctx.signers)
    (hop : op.Spares x.mint) :
    t'.mints.lookup x.mint = some m ∧ t'.accounts.lookup a = some x := by
  have hcloser : x.closer = auth := by rw [Account.closer, hs.closer]; rfl
  constructor
  · rcases h.mint x.mint with hsame | hch
    · exact hsame.trans hm
    rw [hm] at hch
    generalize t'.mints.lookup x.mint = after at hch
    cases hch with
    | described hma | minted hma => cases hs.mintAuthority.symm.trans hma
    | burned => exact absurd rfl (hop.2 _ _ _ _)
    | @authoritySet kind _ _ _ hset hsigned =>
      cases kind with
      | mintTokens => cases hs.mintAuthority.symm.trans hset
      | freezeAccount => cases hs.freezeAuthority.symm.trans hset
      | closeMint => exact absurd (Option.some.inj (hs.closeAuthority.symm.trans hset) ▸ hsigned) hauth
      | permanentDelegate =>
        exact absurd (Option.some.inj (hs.permanentDelegate.symm.trans hset) ▸ hsigned) hauth
    | closed hset hsigned =>
      exact absurd (Option.some.inj (hs.closeAuthority.symm.trans hset) ▸ hsigned) hauth
  · rcases h.account a with hsame | hch
    · exact hsame.trans hx
    rw [hx] at hch
    generalize t'.accounts.lookup a = after at hch
    cases hch with
    | minted _ hmint hm' hma =>
      rw [← hmint, hm, Option.some.injEq] at hm'
      subst hm'
      cases hs.mintAuthority.symm.trans hma
    | sent _ _ _ hmint hm' hnon | received _ _ hmint hm' hnon =>
      rw [← hmint, hm, Option.some.injEq] at hm'
      subst hm'
      cases hs.nonTransferable.symm.trans hnon
    | burned _ _ hmint => exact absurd (by rw [hmint]) (hop.2 _ _ _ _)
    | closerSet _ hsigned | closed _ _ hsigned => exact absurd (hcloser ▸ hsigned) hauth
    | froze _ hm' hfreeze =>
      rw [hm, Option.some.injEq] at hm'
      subst hm'
      cases hs.freezeAuthority.symm.trans hfreeze
    | thawed hf => cases hs.frozen.symm.trans hf
    | approved | revoked | ownerSet | guarded | memoSet => cases hop.1

theorem run_sealed {auth : K} {cs : List (Call K)} (h : run t cs = .ok t')
    (hm : t.mints.lookup x.mint = some m)
    (hx : t.accounts.lookup a = some x) (hs : Sealed auth m x)
    (hcs : ∀ c ∈ cs, auth ∉ c.ctx.signers ∧ c.op.Spares x.mint) :
    t'.mints.lookup x.mint = some m ∧ t'.accounts.lookup a = some x := by
  refine run_invariant (fun t => t.mints.lookup x.mint = some m ∧ t.accounts.lookup a = some x) ?_ h ⟨hm, hx⟩
  intro c hc t₁ t₂ hex
  obtain ⟨hm₁, hx₁⟩ := hex
  intro hd
  exact hd.sealed hm₁ hx₁ hs (hcs c hc).1 (hcs c hc).2

end Token2022
