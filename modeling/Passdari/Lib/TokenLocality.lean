/-
A token instruction keeps to the addresses it names: it changes the mints
and accounts there and no others, and does so by what is there.
-/
import Passdari.Lib.Locality
import Passdari.Lib.TokenFacts

namespace Token2022

variable {K : Type} [DecidableEq K] {ctx : Ctx K} {t t' u : Tokens K} {op : Op K}

/-- The mint and the account at an address. -/
def Tokens.view : View (Tokens K) K (Option (Mint K) × Option (Account K)) where
  look t a := (t.mints.lookup a, t.accounts.lookup a)
  held x := x.1.isSome = true ∨ x.2.isSome = true

/-- The addresses an instruction looks at. -/
def Op.reads : Op K → List K
  | .initializeMint a _ | .initializeMetadata a _ _ | .setMintAuthority a _ _ _ | .approve a _ _ _
  | .revoke a _ | .setOwner a _ _ | .setCloseAuthority a _ _ | .close a _ _ | .cpiGuard a _ _
  | .memoTransfer a _ _ => [a]
  | .initializeAccount a mint _ _ | .freeze a mint _ | .thaw a mint _ => [a, mint]
  | .mintTo mint dest _ _ _ => [mint, dest]
  | .transfer src mint dest _ _ _ => [src, mint, dest]
  | .burn src mint _ _ _ => [src, mint]

omit [DecidableEq K] in
theorem Op.touched_subset_reads {a : K} (h : a ∈ op.touched) : a ∈ op.reads := by
  cases op <;> simp only [Op.touched, Op.reads, List.mem_cons, List.not_mem_nil, or_false] at h ⊢ <;>
    grind

/-- What an instruction does where it reads the same, it does there too; and where they were alike they still
are. -/
theorem Did.transport (h : Did ctx t op t')
    (hm : ∀ a ∈ op.reads, u.mints.lookup a = t.mints.lookup a)
    (hx : ∀ a ∈ op.reads, u.accounts.lookup a = t.accounts.lookup a) :
    ∃ u', Did ctx u op u' ∧ ∀ b,
      (u.mints.lookup b = t.mints.lookup b → u'.mints.lookup b = t'.mints.lookup b) ∧
      (u.accounts.lookup b = t.accounts.lookup b → u'.accounts.lookup b = t'.accounts.lookup b) := by
  have hfree : ∀ {a}, a ∈ op.reads → ¬t.InUse a → ¬u.InUse a := fun ha hu =>
    Token2022.not_inUse.mpr
      ⟨(hm _ ha).trans (Token2022.not_inUse.mp hu).1, (hx _ ha).trans (Token2022.not_inUse.mp hu).2⟩
  have hmint : ∀ {a m}, a ∈ op.reads → t.mints.lookup a = some m → u.mints.lookup a = some m :=
    fun ha h => (hm _ ha).trans h
  have hacc : ∀ {a x}, a ∈ op.reads → t.accounts.lookup a = some x → u.accounts.lookup a = some x :=
    fun ha h => (hx _ ha).trans h
  cases h with
  | initializeMint hu =>
    refine ⟨_, .initializeMint (hfree (by simp [Op.reads]) hu), fun b => ⟨fun hb => ?_, fun hb => hb⟩⟩
    simp only [Tokens.setMint_mints, Store.lookup_insert, hb]
  | initializeMetadata h₁ ha hs hmd =>
    refine ⟨_, .initializeMetadata (hmint (by simp [Op.reads]) h₁) ha hs hmd,
      fun b => ⟨fun hb => ?_, fun hb => hb⟩⟩
    simp only [Tokens.setMint_mints, Store.lookup_insert, hb]
  | initializeAccount hu h₁ =>
    refine ⟨_, .initializeAccount (hfree (by simp [Op.reads]) hu) (hmint (by simp [Op.reads]) h₁),
      fun b => ⟨fun hb => hb, fun hb => ?_⟩⟩
    simp only [Tokens.setAccount_accounts, Store.lookup_insert, hb]
  | mintTo h₁ hf hmm h₂ hnt hd ha hs hle =>
    refine ⟨_, .mintTo (hacc (by simp [Op.reads]) h₁) hf hmm (hmint (by simp [Op.reads]) h₂) hnt hd ha hs hle,
      fun b => ⟨fun hb => ?_, fun hb => ?_⟩⟩
    · simp only [Tokens.setAccount_mints, Tokens.setMint_mints, Store.lookup_insert, hb]
    · simp only [Tokens.setAccount_accounts, Tokens.setMint_accounts, Store.lookup_insert, hb]
  | transferSelf h₁ hf hle hmm h₂ hnt hd hsp hmemo =>
    exact ⟨_, .transferSelf (hacc (by simp [Op.reads]) h₁) hf hle hmm (hmint (by simp [Op.reads]) h₂) hnt hd
      hsp hmemo, fun b => ⟨fun hb => hb, fun hb => hb⟩⟩
  | transfer h₁ h₂ hfx hfy hle hmx hmy h₃ hnt hd hsp hne hmemo =>
    refine ⟨_, .transfer (hacc (by simp [Op.reads]) h₁) (hacc (by simp [Op.reads]) h₂) hfx hfy hle hmx hmy
      (hmint (by simp [Op.reads]) h₃) hnt hd hsp hne hmemo, fun b => ⟨fun hb => hb, fun hb => ?_⟩⟩
    simp only [Tokens.setAccount_accounts, Store.lookup_insert, hb]
  | burn h₁ h₂ hf hle hmm hd hsp =>
    refine ⟨_, .burn (hacc (by simp [Op.reads]) h₁) (hmint (by simp [Op.reads]) h₂) hf hle hmm hd hsp,
      fun b => ⟨fun hb => ?_, fun hb => ?_⟩⟩
    · simp only [Tokens.setAccount_mints, Tokens.setMint_mints, Store.lookup_insert, hb]
    · simp only [Tokens.setAccount_accounts, Tokens.setMint_accounts, Store.lookup_insert, hb]
  | approve h₁ hf ho hs hg =>
    refine ⟨_, .approve (hacc (by simp [Op.reads]) h₁) hf ho hs hg, fun b => ⟨fun hb => hb, fun hb => ?_⟩⟩
    simp only [Tokens.setAccount_accounts, Store.lookup_insert, hb]
  | revoke h₁ hf ho hs =>
    refine ⟨_, .revoke (hacc (by simp [Op.reads]) h₁) hf ho hs, fun b => ⟨fun hb => hb, fun hb => ?_⟩⟩
    simp only [Tokens.setAccount_accounts, Store.lookup_insert, hb]
  | setOwner h₁ hf ho hs hi hg =>
    refine ⟨_, .setOwner (hacc (by simp [Op.reads]) h₁) hf ho hs hi hg, fun b => ⟨fun hb => hb, fun hb => ?_⟩⟩
    simp only [Tokens.setAccount_accounts, Store.lookup_insert, hb]
  | setCloseAuthority h₁ hf ho hs hg =>
    refine ⟨_, .setCloseAuthority (hacc (by simp [Op.reads]) h₁) hf ho hs hg,
      fun b => ⟨fun hb => hb, fun hb => ?_⟩⟩
    simp only [Tokens.setAccount_accounts, Store.lookup_insert, hb]
  | setMintAuthority h₁ ha hs =>
    refine ⟨_, .setMintAuthority (hmint (by simp [Op.reads]) h₁) ha hs, fun b => ⟨fun hb => ?_, fun hb => hb⟩⟩
    simp only [Tokens.setMint_mints, Store.lookup_insert, hb]
  | freeze h₁ hf hmm h₂ ha hs =>
    refine ⟨_, .freeze (hacc (by simp [Op.reads]) h₁) hf hmm (hmint (by simp [Op.reads]) h₂) ha hs,
      fun b => ⟨fun hb => hb, fun hb => ?_⟩⟩
    simp only [Tokens.setAccount_accounts, Store.lookup_insert, hb]
  | thaw h₁ hf hmm h₂ ha hs =>
    refine ⟨_, .thaw (hacc (by simp [Op.reads]) h₁) hf hmm (hmint (by simp [Op.reads]) h₂) ha hs,
      fun b => ⟨fun hb => hb, fun hb => ?_⟩⟩
    simp only [Tokens.setAccount_accounts, Store.lookup_insert, hb]
  | closeAccount hne h₁ h0 hc hs hg =>
    refine ⟨_, .closeAccount hne (hacc (by simp [Op.reads]) h₁) h0 hc hs hg,
      fun b => ⟨fun hb => hb, fun hb => ?_⟩⟩
    simp only [Store.lookup_erase, hb]
  | closeMint hne h₁ h₂ hc hs h0 =>
    refine ⟨_, .closeMint hne ((hx _ (by simp [Op.reads])).trans h₁) (hmint (by simp [Op.reads]) h₂) hc hs h0,
      fun b => ⟨fun hb => ?_, fun hb => hb⟩⟩
    simp only [Store.lookup_erase, hb]
  | cpiGuard h₁ ho hs hc =>
    refine ⟨_, .cpiGuard (hacc (by simp [Op.reads]) h₁) ho hs hc, fun b => ⟨fun hb => hb, fun hb => ?_⟩⟩
    simp only [Tokens.setAccount_accounts, Store.lookup_insert, hb]
  | memoTransfer h₁ ho hs =>
    refine ⟨_, .memoTransfer (hacc (by simp [Op.reads]) h₁) ho hs, fun b => ⟨fun hb => hb, fun hb => ?_⟩⟩
    simp only [Tokens.setAccount_accounts, Store.lookup_insert, hb]

/-- **A token instruction is local to the addresses it looks at.** -/
theorem exec_local {F W : Set K} (hF : ∀ a ∈ op.reads, a ∈ F) :
    Local Tokens.view F W (fun t => exec ctx t op) where
  kept h a ha _ := by
    have hsame := (exec_eq_ok.mp h).frame fun hop => ha (hF a (Op.touched_subset_reads hop))
    exact Prod.ext hsame.1 hsame.2
  tracks {t u t'} htu h := by
    have hlook : ∀ a ∈ F ∪ W, u.mints.lookup a = t.mints.lookup a ∧
      u.accounts.lookup a = t.accounts.lookup a :=
      fun a ha => Prod.mk.injEq .. ▸ (htu a ha).symm
    obtain ⟨u', hu', hsame⟩ := (exec_eq_ok.mp h).transport (u := u) (fun a ha => (hlook a (.inl (hF a ha))).1)
      fun a ha => (hlook a (.inl (hF a ha))).2
    refine ⟨u', exec_eq_ok.mpr hu', fun a ha => ?_⟩
    obtain ⟨hm, hx⟩ := hlook a ha
    exact Prod.ext ((hsame a).1 hm).symm ((hsame a).2 hx).symm

end Token2022
