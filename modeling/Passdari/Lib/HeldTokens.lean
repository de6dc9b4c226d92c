/-
A token held fast. When all there is of a finished mint is in one account,
the account has no delegate, and one key is behind every authority of the
mint and may close the account, then nothing happens to either while neither
that key nor the account's owner signs.
-/
import Passdari.Lib.TokenTrails

namespace Token2022

variable {K : Type} [DecidableEq K] {ctx : Ctx K} {t t' : Tokens K} {op : Op K} {a auth : K} {x : Account K}
  {m : Mint K}

/-- The mint and the account obey `auth` and the account's owner alone, and the account has all of it. -/
structure HeldFast (t : Tokens K) (a auth : K) (m : Mint K) (x : Account K) : Prop where
  mint : t.mints.lookup x.mint = some m
  account : t.accounts.lookup a = some x
  done : m.mintAuthority = none
  obeys : ∀ k other, m.authority k = some other → other = auth
  closer : x.closeAuthority = some auth
  delegate : x.delegate = none
  delegated : x.delegatedAmount = 0
  pos : 0 < x.amount
  whole : m.supply = x.amount
  conserved : t.Conserved x.mint

namespace HeldFast

/-- Nobody else can spend from it. -/
theorem unspent (h : HeldFast t a auth m x) {who : K} {n : Nat} {x' : Account K} (hauth : auth ∉ ctx.signers)
    (howner : x.owner ∉ ctx.signers) : ¬Spends ctx m x who n x' := by
  intro hsp
  cases hsp.as with
  | permanent hp => exact hauth (h.obeys .permanentDelegate _ hp ▸ hsp.signed)
  | delegate _ hd => cases h.delegate.symm.trans hd
  | owner _ _ ho => exact howner (ho ▸ hsp.signed)

theorem none_elsewhere (h : HeldFast t a auth m x) {b : K} {y : Account K} (hy : t.accounts.lookup b = some y)
    (hmint : y.mint = x.mint) (hne : b ≠ a) : y.amount = 0 := by
  have hsum := Store.weight_add_weight_le (holding x.mint) t.accounts hne
  rw [Store.weight_of_lookup hy, Store.weight_of_lookup h.account, holding, holding, if_pos hmint, if_pos rfl]
    at hsum
  have hheld : t.held x.mint = x.amount := by
    rw [h.conserved, Tokens.supply, h.mint]
    exact h.whole
  rw [Tokens.held] at hheld
  omega

theorem account_kept (h : HeldFast t a auth m x) (hd : Did ctx t op t') (hauth : auth ∉ ctx.signers)
    (howner : x.owner ∉ ctx.signers) : t'.accounts.lookup a = some x := by
  have hcloser : x.closer = auth := by rw [Account.closer, h.closer]; rfl
  rcases hd.account a with hsame | hch
  · exact hsame.trans h.account
  rw [h.account] at hch
  generalize t'.accounts.lookup a = after at hch
  cases hch with
  | minted _ hmint hm hma =>
    rw [← hmint, h.mint, Option.some.injEq] at hm
    subst hm
    cases h.done.symm.trans hma
  | sent _ _ _ hmint hm _ hsp | burned _ _ hmint hm hsp =>
    rw [← hmint, h.mint, Option.some.injEq] at hm
    subst hm
    exact absurd hsp (h.unspent hauth howner)
  | received hne _ hmint _ _ hy hle hymint =>
    have h0 := h.none_elsewhere hy (hymint.trans hmint.symm) hne
    obtain rfl : _ = 0 := Nat.le_zero.mp (h0 ▸ hle)
    rfl
  | approved _ hs | ownerSet _ hs | guarded hs | memoSet hs => exact absurd hs howner
  | revoked =>
    rw [← h.delegate, ← h.delegated]
  | closerSet _ hs => exact absurd (hcloser ▸ hs) hauth
  | froze _ hm ha hs | thawed _ hm ha hs =>
    rw [h.mint, Option.some.injEq] at hm
    subst hm
    exact absurd (h.obeys .freezeAccount _ ha ▸ hs) hauth
  | closed _ h0 => exact absurd h0 (Nat.ne_of_gt h.pos)

theorem mint_kept (h : HeldFast t a auth m x) (hd : Did ctx t op t') (hauth : auth ∉ ctx.signers)
    (howner : x.owner ∉ ctx.signers) : t'.mints.lookup x.mint = some m := by
  rcases hd.mint x.mint with hsame | hch
  · exact hsame.trans h.mint
  rw [h.mint] at hch
  generalize t'.mints.lookup x.mint = after at hch
  cases hch with
  | described hma | minted hma => cases h.done.symm.trans hma
  | @burned src _ amount _ _ y _ hy hmint _ hle hsp =>
    by_cases hsrc : src = a
    · subst hsrc
      rw [h.account, Option.some.injEq] at hy
      subst hy
      exact absurd hsp (h.unspent hauth howner)
    · have h0 := h.none_elsewhere hy hmint hsrc
      obtain rfl : amount = 0 := Nat.le_zero.mp (h0 ▸ hle)
      rfl
  | authoritySet ha hs => exact absurd (h.obeys _ _ ha ▸ hs) hauth
  | closed ha hs => exact absurd (h.obeys .closeMint _ ha ▸ hs) hauth

/-- **A token held fast stays where it is** while neither its owner nor its authority signs. -/
theorem step (h : HeldFast t a auth m x) (hd : Did ctx t op t') (hauth : auth ∉ ctx.signers)
    (howner : x.owner ∉ ctx.signers) : HeldFast t' a auth m x where
  mint := h.mint_kept hd hauth howner
  account := h.account_kept hd hauth howner
  done := h.done
  obeys := h.obeys
  closer := h.closer
  delegate := h.delegate
  delegated := h.delegated
  pos := h.pos
  whole := h.whole
  conserved := hd.conserved h.conserved

theorem run {cs : List (Call K)} (h : HeldFast t a auth m x) (hr : Token2022.run t cs = .ok t')
    (hcs : ∀ c ∈ cs, auth ∉ c.ctx.signers ∧ x.owner ∉ c.ctx.signers) : HeldFast t' a auth m x := by
  refine run_invariant (fun t => HeldFast t a auth m x) ?_ hr h
  intro c hc t₁ t₂ hi hd
  exact hi.step hd (hcs c hc).1 (hcs c hc).2

end HeldFast

/-! ## No signature at all -/

/-- Without a signature, what is at an address in use stays as it is. -/
theorem Did.kept_of_unsigned (h : Did ctx t op t') (hs : ctx.signers = []) (ha : t.InUse a) :
    t'.mints.lookup a = t.mints.lookup a ∧ t'.accounts.lookup a = t.accounts.lookup a := by
  have hno : ∀ {k : K}, k ∉ ctx.signers := by simp [hs]
  cases h with
  | @initializeMint b _ hb =>
    have hne : a ≠ b := fun he => hb (he ▸ ha)
    exact ⟨by rw [Tokens.setMint_mints, Store.lookup_insert, if_neg hne], rfl⟩
  | @initializeAccount b _ _ _ _ hb =>
    have hne : a ≠ b := fun he => hb (he ▸ ha)
    exact ⟨rfl, by rw [Tokens.setAccount_accounts, Store.lookup_insert, if_neg hne]⟩
  | transferSelf _ _ _ _ _ _ _ hsp | transfer _ _ _ _ _ _ _ _ _ _ hsp | burn _ _ _ _ _ _ hsp =>
    exact absurd hsp.signed hno
  | initializeMetadata _ _ hs' | mintTo _ _ _ _ _ _ _ hs' | approve _ _ _ hs' | revoke _ _ _ hs'
  | setOwner _ _ _ hs' | setCloseAuthority _ _ _ hs' | setMintAuthority _ _ hs' | freeze _ _ _ _ _ hs'
  | thaw _ _ _ _ _ hs' | closeAccount _ _ _ _ hs' | closeMint _ _ _ _ hs' | cpiGuard _ _ hs'
  | memoTransfer _ _ hs' =>
    exact absurd hs' hno

theorem run_kept_of_unsigned {cs : List (Call K)} (hr : run t cs = .ok t')
    (hcs : ∀ c ∈ cs, c.ctx.signers = [])
    (ha : t.InUse a) :
    t'.mints.lookup a = t.mints.lookup a ∧ t'.accounts.lookup a = t.accounts.lookup a := by
  refine run_invariant (fun u : Tokens K => u.mints.lookup a = t.mints.lookup a ∧
    u.accounts.lookup a = t.accounts.lookup a) ?_ hr ⟨rfl, rfl⟩
  intro c hc u u' hu hd
  have hau : u.InUse a := by
    by_contra hfree
    obtain ⟨hm, hx⟩ := Token2022.not_inUse.mp hfree
    exact absurd ha (Token2022.not_inUse.mpr ⟨hu.1.symm.trans hm, hu.2.symm.trans hx⟩ :)
  obtain ⟨hm, hx⟩ := hd.kept_of_unsigned (hcs c hc) hau
  exact ⟨hm.trans hu.1, hx.trans hu.2⟩

/-! ## Finished mints -/

/-- The mint is finished, and describes itself with `md`. -/
structure Mint.Finished (m : Mint K) (md : Metadata K) : Prop where
  done : m.mintAuthority = none
  metadata : m.metadata = some md

theorem Did.finished {md : Metadata K} {m' : Mint K} (h : Did ctx t op t') (hm : t.mints.lookup a = some m)
    (hf : m.Finished md) (hm' : t'.mints.lookup a = some m') : m'.Finished md := by
  rcases h.mint a with hsame | hch
  · rw [hsame, hm, Option.some.injEq] at hm'
    subst hm'
    exact hf
  rw [hm, hm'] at hch
  cases hch with
  | described hma | minted hma => cases hf.done.symm.trans hma
  | burned => exact ⟨hf.done, hf.metadata⟩
  | @authoritySet kind _ _ _ ha =>
    cases kind with
    | mintTokens => cases hf.done.symm.trans ha
    | _ => exact ⟨hf.done, hf.metadata⟩

theorem run_finished {md : Metadata K} {cs : List (Call K)} {m' : Mint K} (hr : run t cs = .ok t')
    (hcs : ∀ c ∈ cs, c.op.opens ≠ some a) (hm : t.mints.lookup a = some m) (hf : m.Finished md)
    (hm' : t'.mints.lookup a = some m') : m'.Finished md := by
  refine run_invariant (fun u : Tokens K => ∀ n, u.mints.lookup a = some n → n.Finished md) ?_ hr
    (fun n hn => by rw [hm, Option.some.injEq] at hn; exact hn ▸ hf) m' hm'
  intro c hc u u' hi hd n hn
  cases hu : u.mints.lookup a with
  | some k => exact hd.finished hu (hi k hu) hn
  | none =>
    rcases hd.mint a with hsame | hch
    · cases (hsame.trans hu).symm.trans hn
    · rw [hu, hn] at hch
      generalize hop : c.op = op at hch
      cases hch with
      | opened => exact absurd (congrArg Op.opens hop) (hcs c hc)

end Token2022
