/-
Tokens bound to one account: of a mint that cannot be transferred or frozen,
everything stays in the account it was minted to, which stays its owner's.
The mint need not be there (yet, or any more); what is bound is then nothing.
-/
import Passdari.Lib.TokenHolders

namespace Token2022

variable {K : Type} [DecidableEq K] {ctx : Ctx K} {t t' : Tokens K} {op : Op K} {a mint home owner : K}
  {x : Account K} {m : Mint K}

/-- Nothing of the mint can be moved or frozen. -/
structure Mint.Fast (m : Mint K) : Prop where
  nonTransferable : m.nonTransferable = true
  decimals : m.decimals = 0
  freezeAuthority : m.freezeAuthority = none

/-- What there is of the mint is in the account at `home`, which is `owner`'s for good. -/
structure Tokens.Bound (t : Tokens K) (mint home owner : K) : Prop where
  fast : ∀ m, t.mints.lookup mint = some m → m.Fast
  conserved : t.Conserved mint
  unfrozen : ∀ a x, t.accounts.lookup a = some x → x.mint = mint → x.frozen = false
  immutable : ∀ a x, t.accounts.lookup a = some x → x.mint = mint → x.immutableOwner = true
  only : ∀ a, t.Carries mint a → a = home
  home : ∀ x, t.accounts.lookup home = some x → x.mint = mint ∧ x.owner = owner

/-- The instruction makes the mint one that cannot be moved or frozen, and `home` an account of it for
`owner`, and mints it to nobody else. -/
def Op.Binds (mint home owner : K) : Op K → Prop
  | .initializeMint a m => a = mint → m.Fast
  | .initializeAccount a mint' owner' _ => a = home → mint' = mint ∧ owner' = owner
  | .mintTo a dest _ _ _ => a = mint → dest = home
  | _ => True

/-! ## One instruction -/

theorem Did.fast (h : Did ctx t op t') (hop : op.Binds mint home owner)
    (hf : ∀ m, t.mints.lookup mint = some m → m.Fast) : ∀ m, t'.mints.lookup mint = some m → m.Fast := by
  intro m' hm'
  rcases h.mint mint with hsame | hch
  · exact hf m' (hsame.symm.trans hm')
  rw [hm'] at hch
  generalize hbefore : t.mints.lookup mint = before at hch
  cases hch with
  | opened => exact ⟨(hop rfl).nonTransferable, (hop rfl).decimals, (hop rfl).freezeAuthority⟩
  | described | minted | burned =>
    have hm := hf _ hbefore
    exact ⟨hm.nonTransferable, hm.decimals, hm.freezeAuthority⟩
  | @authoritySet kind _ _ _ hauth =>
    have hm := hf _ hbefore
    cases kind with
    | freezeAccount => cases hm.freezeAuthority.symm.trans hauth
    | mintTokens | closeMint | permanentDelegate =>
      exact ⟨hm.nonTransferable, hm.decimals, hm.freezeAuthority⟩

/-- An account of the mint was opened unfrozen, with its owner for good, or stays so. -/
theorem Did.fast_account (h : Did ctx t op t') (hb : t.Bound mint home owner)
    (hx : t'.accounts.lookup a = some x)
    (hm : x.mint = mint) : x.frozen = false ∧ x.immutableOwner = true := by
  rcases h.account a with hsame | hch
  · exact ⟨hb.unfrozen a x (hsame.symm.trans hx) hm, hb.immutable a x (hsame.symm.trans hx) hm⟩
  rw [hx] at hch
  generalize hbefore : t.accounts.lookup a = before at hch
  have hwas : ∀ y, before = some y → y.mint = mint → y.frozen = false ∧ y.immutableOwner = true :=
    fun y hy hym =>
    ⟨hb.unfrozen a y (hbefore.trans hy) hym, hb.immutable a y (hbefore.trans hy) hym⟩
  cases hch with
  | opened _ hmint =>
    refine ⟨rfl, ?_⟩
    rw [Account.fresh, (hb.fast _ (hm ▸ hmint)).nonTransferable, Bool.or_true]
  | sent _ _ _ _ _ _ hsp | burned _ _ _ _ hsp =>
    obtain ⟨hmint, -, -, hfrozen, -, himm, -⟩ := hsp.as.same
    obtain ⟨hf, hi⟩ := hwas _ rfl (hmint.symm.trans hm)
    exact ⟨hfrozen.trans hf, himm.trans hi⟩
  | froze _ hmint hauth =>
    rw [(hb.fast _ (hm ▸ hmint)).freezeAuthority] at hauth
    cases hauth
  | thawed => exact ⟨rfl, (hwas _ rfl hm).2⟩
  | minted | received | approved | revoked | ownerSet | closerSet | guarded | memoSet =>
    have := hwas _ rfl hm
    exact this

theorem Did.fast_carries (h : Did ctx t op t') (hop : op.Binds mint home owner)
    (hf : ∀ m, t.mints.lookup mint = some m → m.Fast) (hc : t'.Carries mint a) :
    t.Carries mint a ∨ a = home := by
  obtain ⟨x, hx, hm, hpos⟩ := hc
  rcases h.account a with hsame | hch
  · exact .inl ⟨x, hsame.symm.trans hx, hm, hpos⟩
  rw [hx] at hch
  generalize hbefore : t.accounts.lookup a = before at hch
  cases hch with
  | opened => exact absurd hpos (Nat.lt_irrefl 0)
  | minted _ hmint => exact .inr (hop (hmint.symm.trans hm))
  | sent _ _ _ hmint hm' hnon hsp =>
    rw [← hmint, ← hsp.as.same.1, show _ = mint from hm] at hm'
    cases (hf _ hm').nonTransferable.symm.trans hnon
  | received _ _ hmint hm' hnon =>
    rw [← hmint, show _ = mint from hm] at hm'
    cases (hf _ hm').nonTransferable.symm.trans hnon
  | burned _ _ _ _ hsp =>
    exact .inl ⟨_, hbefore, hsp.as.same.1.symm.trans hm, Nat.lt_of_lt_of_le hpos (Nat.sub_le _ _)⟩
  | approved | revoked | ownerSet | closerSet | froze | thawed | guarded | memoSet =>
    exact .inl ⟨_, hbefore, hm, hpos⟩

theorem Did.fast_home (h : Did ctx t op t') (hop : op.Binds mint home owner) (hb : t.Bound mint home owner)
    (hx : t'.accounts.lookup home = some x) : x.mint = mint ∧ x.owner = owner := by
  rcases h.account home with hsame | hch
  · exact hb.home x (hsame.symm.trans hx)
  rw [hx] at hch
  generalize hbefore : t.accounts.lookup home = before at hch
  have hwas : ∀ y, before = some y → y.mint = mint ∧ y.owner = owner :=
    fun y hy => hb.home y (hbefore.trans hy)
  cases hch with
  | opened => exact hop rfl
  | sent _ _ _ _ _ _ hsp | burned _ _ _ _ hsp =>
    obtain ⟨hmint, howner, -⟩ := hsp.as.same
    exact ⟨hmint.trans (hwas _ rfl).1, howner.trans (hwas _ rfl).2⟩
  | ownerSet =>
    cases h with
    | setOwner hy _ _ _ himm =>
      rw [hb.immutable _ _ hy (hb.home _ hy).1] at himm
      cases himm
  | minted | received | approved | revoked | closerSet | froze | thawed | guarded | memoSet =>
    have := hwas _ rfl
    exact this

/-- **Bound tokens stay bound**, whatever is done. -/
theorem Did.bound (h : Did ctx t op t') (hop : op.Binds mint home owner) (hb : t.Bound mint home owner) :
    t'.Bound mint home owner where
  fast := h.fast hop hb.fast
  conserved := h.conserved hb.conserved
  unfrozen _ _ hx hm := (h.fast_account hb hx hm).1
  immutable _ _ hx hm := (h.fast_account hb hx hm).2
  only a hc := (h.fast_carries hop hb.fast hc).elim (hb.only a) id
  home _ hx := h.fast_home hop hb hx

theorem run_bound {cs : List (Call K)} (h : run t cs = .ok t') (hb : t.Bound mint home owner)
    (hcs : ∀ c ∈ cs, c.op.Binds mint home owner) : t'.Bound mint home owner :=
  run_invariant (fun t => t.Bound mint home owner) (fun c hc {_ _} hi hd => hd.bound (hcs c hc) hi) h hb

/-! ## What is left of it -/

/-- Of a mint whose home is empty, or not there, nothing is about. -/
theorem Tokens.Bound.supply_eq_zero (hb : t.Bound mint home owner) (hm : t.mints.lookup mint = some m)
    (h0 : ∀ x, t.accounts.lookup home = some x → x.amount = 0) : m.supply = 0 := by
  have hheld : t.held mint = 0 := by
    refine Tokens.held_eq_zero_iff.mpr fun a hc => ?_
    obtain rfl := hb.only a hc
    obtain ⟨x, hx, -, hpos⟩ := hc
    rw [h0 x hx] at hpos
    exact Nat.lt_irrefl 0 hpos
  have hsupply : t.held mint = m.supply := by
    rw [hb.conserved, Tokens.supply, hm]
    rfl
  omega

theorem Tokens.Bound.nothing_left (hb : t.Bound mint home owner) (hm : t.mints.lookup mint = none) (a : K) :
    ¬t.Carries mint a := by
  refine Tokens.held_eq_zero_iff.mp ?_ a
  rw [hb.conserved, Tokens.supply, hm]
  rfl

end Token2022
