/-
Facts about the token program: what each instruction went through when it
succeeded (`exec_eq_ok`), what one instruction can do to one account and to
one mint, sequences of instructions, and the conservation law: what all
accounts of a mint hold together is its supply.
-/
import Passdari.Lib.Token2022

namespace Token2022

variable {K : Type} [DecidableEq K]

/-! ## Instructions -/

/-- As what `auth` may spend `amount` of an account: the account with the approval used up. -/
inductive SpendsAs (m : Mint K) (x : Account K) (auth : K) (amount : Nat) : Account K → Prop
  | permanent : m.permanentDelegate = some auth → SpendsAs m x auth amount x
  | delegate : m.permanentDelegate ≠ some auth → x.delegate = some auth → amount ≤ x.delegatedAmount →
      SpendsAs m x auth amount (x.useDelegate amount)
  | owner : m.permanentDelegate ≠ some auth → x.delegate ≠ some auth → auth = x.owner →
      SpendsAs m x auth amount x

/-- `auth` signed, and may spend `amount` of the account, which becomes `x'`. -/
structure Spends (ctx : Ctx K) (m : Mint K) (x : Account K) (auth : K) (amount : Nat) (x' : Account K) :
    Prop where
  as : SpendsAs m x auth amount x'
  signed : auth ∈ ctx.signers
  unguarded : ¬(auth = x.owner ∧ x.cpiGuard = true ∧ ctx.cpi = true)

theorem spend_eq_ok {ctx : Ctx K} {m x auth amount x'} :
    spend ctx m x auth amount = .ok x' ↔ Spends ctx m x auth amount x' := by
  unfold spend
  constructor
  · intro h
    split at h
    · next hp =>
      simp only [Except.bind_eq_ok, check_eq_ok, Except.pure_eq_ok, exists_const, exists_eq_left'] at h
      obtain ⟨hs, hg, rfl⟩ := h
      exact ⟨.permanent hp, hs, hg⟩
    · next hp =>
      split at h
      · next hd =>
        simp only [Except.bind_eq_ok, check_eq_ok, Except.pure_eq_ok, exists_const, exists_eq_left'] at h
        obtain ⟨hle, hs, hg, rfl⟩ := h
        exact ⟨.delegate hp hd hle, hs, hg⟩
      · next hd =>
        simp only [Except.bind_eq_ok, check_eq_ok, Except.pure_eq_ok, exists_const, exists_eq_left'] at h
        obtain ⟨ho, hs, hg, rfl⟩ := h
        exact ⟨.owner hp hd ho, hs, hg⟩
  · intro hex
    obtain ⟨has, hs, hg⟩ := hex
    cases has with
    | permanent hp => rw [if_pos hp, check_pos hs, check_pos hg]; rfl
    | delegate hp hd hle => rw [if_neg hp, if_pos hd, check_pos hle, check_pos hs, check_pos hg]; rfl
    | owner hp hd ho => rw [if_neg hp, if_neg hd, check_pos ho, check_pos hs, check_pos hg]; rfl

/-- What a successful instruction went through, and what it leaves. -/
inductive Did (ctx : Ctx K) (t : Tokens K) : Op K → Tokens K → Prop
  | initializeMint {a m} : ¬t.InUse a → Did ctx t (.initializeMint a m) (t.setMint a { m with supply := 0 })
  | initializeMetadata {a auth md m} : t.mints.lookup a = some m → m.mintAuthority = some auth →
      auth ∈ ctx.signers → m.metadata = none →
      Did ctx t (.initializeMetadata a auth md) (t.setMint a { m with metadata := some md })
  | initializeAccount {a mint owner io m} : ¬t.InUse a → t.mints.lookup mint = some m →
      Did ctx t (.initializeAccount a mint owner io)
        (t.setAccount a (.fresh mint owner (io || m.nonTransferable)))
  | mintTo {mint dest auth amount decimals x m} : t.accounts.lookup dest = some x → x.frozen = false →
      x.mint = mint → t.mints.lookup mint = some m → (m.nonTransferable = true → x.immutableOwner = true) →
      m.decimals = decimals → m.mintAuthority = some auth → auth ∈ ctx.signers → m.supply + amount < 2 ^ 64 →
      Did ctx t (.mintTo mint dest auth amount decimals)
        ((t.setMint mint { m with supply := m.supply + amount }).setAccount dest
          { x with amount := x.amount + amount })
  | transferSelf {src mint auth amount decimals x m x'} : t.accounts.lookup src = some x → x.frozen = false →
      amount ≤ x.amount → x.mint = mint → t.mints.lookup mint = some m → m.nonTransferable = false →
      m.decimals = decimals → Spends ctx m x auth amount x' → ¬(x.memoTransfer = true ∧ ctx.cpi = true) →
      Did ctx t (.transfer src mint src auth amount decimals) t
  | transfer {src mint dest auth amount decimals x y m x'} : t.accounts.lookup src = some x →
      t.accounts.lookup dest = some y → x.frozen = false → y.frozen = false → amount ≤ x.amount →
      x.mint = mint → y.mint = mint → t.mints.lookup mint = some m → m.nonTransferable = false →
      m.decimals = decimals → Spends ctx m x auth amount x' → src ≠ dest →
      ¬(y.memoTransfer = true ∧ ctx.cpi = true) →
      Did ctx t (.transfer src mint dest auth amount decimals)
        ((t.setAccount src { x' with amount := x.amount - amount }).setAccount dest
          { y with amount := y.amount + amount })
  | burn {src mint auth amount decimals x m x'} : t.accounts.lookup src = some x →
      t.mints.lookup mint = some m → x.frozen = false → amount ≤ x.amount → x.mint = mint →
      m.decimals = decimals → Spends ctx m x auth amount x' →
      Did ctx t (.burn src mint auth amount decimals)
        ((t.setMint mint { m with supply := m.supply - amount }).setAccount src
          { x' with amount := x.amount - amount })
  | approve {src delegate owner amount x} : t.accounts.lookup src = some x → x.frozen = false →
      x.owner = owner → owner ∈ ctx.signers → ¬(x.cpiGuard = true ∧ ctx.cpi = true) →
      Did ctx t (.approve src delegate owner amount)
        (t.setAccount src { x with delegate := some delegate, delegatedAmount := amount })
  | revoke {src auth x} : t.accounts.lookup src = some x → x.frozen = false →
      (x.delegate = some auth ∨ x.owner = auth) → auth ∈ ctx.signers →
      Did ctx t (.revoke src auth) (t.setAccount src { x with delegate := none, delegatedAmount := 0 })
  | setOwner {a new auth x} : t.accounts.lookup a = some x → x.frozen = false → x.owner = auth →
      auth ∈ ctx.signers → x.immutableOwner = false → x.cpiGuard = false →
      Did ctx t (.setOwner a new auth)
        (t.setAccount a { x with owner := new, delegate := none, delegatedAmount := 0 })
  | setCloseAuthority {a new auth x} : t.accounts.lookup a = some x → x.frozen = false → x.closer = auth →
      auth ∈ ctx.signers → ¬(x.cpiGuard = true ∧ ctx.cpi = true ∧ new ≠ none) →
      Did ctx t (.setCloseAuthority a new auth) (t.setAccount a { x with closeAuthority := new })
  | setMintAuthority {a kind new auth m} : t.mints.lookup a = some m → m.authority kind = some auth →
      auth ∈ ctx.signers → Did ctx t (.setMintAuthority a kind new auth)
        (t.setMint a (m.withAuthority new kind))
  | freeze {a mint auth x m} : t.accounts.lookup a = some x → x.frozen = false → x.mint = mint →
      t.mints.lookup mint = some m → m.freezeAuthority = some auth → auth ∈ ctx.signers →
      Did ctx t (.freeze a mint auth) (t.setAccount a { x with frozen := true })
  | thaw {a mint auth x m} : t.accounts.lookup a = some x → x.frozen = true → x.mint = mint →
      t.mints.lookup mint = some m → m.freezeAuthority = some auth → auth ∈ ctx.signers →
      Did ctx t (.thaw a mint auth) (t.setAccount a { x with frozen := false })
  | closeAccount {a dest auth x} : a ≠ dest → t.accounts.lookup a = some x → x.amount = 0 → x.closer = auth →
      auth ∈ ctx.signers → ¬(x.cpiGuard = true ∧ ctx.cpi = true ∧ dest ≠ x.owner) →
      Did ctx t (.close a dest auth) { t with accounts := t.accounts.erase a }
  | closeMint {a dest auth m} : a ≠ dest → t.accounts.lookup a = none → t.mints.lookup a = some m →
      m.closeAuthority = some auth → auth ∈ ctx.signers → m.supply = 0 →
      Did ctx t (.close a dest auth) { t with mints := t.mints.erase a }
  | cpiGuard {a owner on x} : t.accounts.lookup a = some x → x.owner = owner → owner ∈ ctx.signers →
      ctx.cpi = false → Did ctx t (.cpiGuard a owner on) (t.setAccount a { x with cpiGuard := on })
  | memoTransfer {a owner on x} : t.accounts.lookup a = some x → x.owner = owner → owner ∈ ctx.signers →
      Did ctx t (.memoTransfer a owner on) (t.setAccount a { x with memoTransfer := on })

variable {ctx : Ctx K} {t t' : Tokens K} {op : Op K}

/-- **An instruction succeeds exactly when everything it checks holds.** -/
theorem exec_eq_ok : exec ctx t op = .ok t' ↔ Did ctx t op t' := by
  constructor
  · intro h
    cases op <;>
      simp only [exec, Except.bind_eq_ok, check_eq_ok, Except.pure_eq_ok, exists_const, Tokens.mint,
        Tokens.account, demand_eq_ok, spend_eq_ok] at h
    case initializeMint => obtain ⟨hu, rfl⟩ := h; exact .initializeMint hu
    case initializeMetadata =>
      obtain ⟨m, hm, ⟨ha, hs⟩, hmd, rfl⟩ := h
      exact .initializeMetadata hm ha hs hmd
    case initializeAccount => obtain ⟨hu, m, hm, rfl⟩ := h; exact .initializeAccount hu hm
    case mintTo =>
      obtain ⟨x, hx, hf, hmint, m, hm, hnt, hd, -, ⟨ha, hs⟩, hle, rfl⟩ := h
      exact .mintTo hx hf hmint hm hnt hd ha hs hle
    case transfer =>
      obtain ⟨x, hx, y, hy, ⟨hfx, hfy⟩, hle, hxy, hmint, m, hm, hnt, hd, x', hsp, hmemo, h⟩ := h
      split at h
      · next he =>
        subst he
        rw [hx, Option.some.injEq] at hy
        subst hy
        cases h
        exact .transferSelf hx hfx hle hmint hm hnt hd hsp hmemo
      · next he =>
        cases h
        exact .transfer hx hy hfx hfy hle hmint (hxy.symm.trans hmint) hm hnt hd hsp he hmemo
    case burn =>
      obtain ⟨x, hx, m, hm, hf, hle, hmint, hd, x', hsp, rfl⟩ := h
      exact .burn hx hm hf hle hmint hd hsp
    case approve => obtain ⟨x, hx, hf, ⟨ho, hs⟩, hg, rfl⟩ := h; exact .approve hx hf ho hs hg
    case revoke => obtain ⟨x, hx, hf, ⟨ho, hs⟩, rfl⟩ := h; exact .revoke hx hf ho hs
    case setOwner =>
      obtain ⟨x, hx, hf, ⟨ho, hs⟩, hi, hg, rfl⟩ := h
      exact .setOwner hx hf ho hs hi hg
    case setCloseAuthority =>
      obtain ⟨x, hx, hf, ⟨ho, hs⟩, hg, rfl⟩ := h
      exact .setCloseAuthority hx hf ho hs hg
    case setMintAuthority => obtain ⟨m, hm, -, ⟨ha, hs⟩, rfl⟩ := h; exact .setMintAuthority hm ha hs
    case freeze => obtain ⟨x, hx, hf, hmint, m, hm, -, ⟨ha, hs⟩, rfl⟩ := h; exact .freeze hx hf hmint hm ha hs
    case thaw => obtain ⟨x, hx, hf, hmint, m, hm, -, ⟨ha, hs⟩, rfl⟩ := h; exact .thaw hx hf hmint hm ha hs
    case close =>
      obtain ⟨hne, h⟩ := h
      split at h
      · next x hx =>
        simp only [Except.bind_eq_ok, check_eq_ok, Except.pure_eq_ok, exists_const] at h
        obtain ⟨h0, ⟨hc, hs⟩, hg, rfl⟩ := h
        exact .closeAccount hne hx h0 hc hs hg
      · next hx =>
        simp only [Except.bind_eq_ok, check_eq_ok, Except.pure_eq_ok, exists_const, demand_eq_ok] at h
        obtain ⟨m, hm, ⟨hc, hs⟩, h0, rfl⟩ := h
        exact .closeMint hne hx hm hc hs h0
    case cpiGuard => obtain ⟨x, hx, ⟨ho, hs⟩, hc, rfl⟩ := h; exact .cpiGuard hx ho hs hc
    case memoTransfer => obtain ⟨x, hx, ⟨ho, hs⟩, rfl⟩ := h; exact .memoTransfer hx ho hs
  · intro h
    cases h <;>
      simp only [exec, Except.bind_eq_ok, check_eq_ok, Except.pure_eq_ok, exists_const, Tokens.mint,
        Tokens.account, demand_eq_ok, spend_eq_ok, and_true]
    case initializeMint hu => exact hu
    case initializeMetadata m hm ha hs hmd => exact ⟨m, hm, ⟨ha, hs⟩, hmd, rfl⟩
    case initializeAccount m hu hm => exact ⟨hu, m, hm, rfl⟩
    case mintTo x m hx hf hmint hm hnt hd ha hs hle =>
      exact ⟨x, hx, hf, hmint, m, hm, hnt, hd, by simp [ha], ⟨ha, hs⟩, hle, rfl⟩
    case transferSelf x m x' hx hf hle hmint hm hnt hd hsp hmemo =>
      exact ⟨x, hx, x, hx, ⟨hf, hf⟩, hle, rfl, hmint, m, hm, hnt, hd, x', hsp, hmemo, if_pos trivial⟩
    case transfer x y m x' hx hy hfx hfy hle hmx hmy hm hnt hd hsp hne hmemo =>
      exact ⟨x, hx, y, hy, ⟨hfx, hfy⟩, hle, hmx.trans hmy.symm, hmx, m, hm, hnt, hd, x', hsp, hmemo, by
        rw [if_neg hne]; rfl⟩
    case burn x m x' hx hm hf hle hmint hd hsp => exact ⟨x, hx, m, hm, hf, hle, hmint, hd, x', hsp, rfl⟩
    case approve x hx hf ho hs hg => exact ⟨x, hx, hf, ⟨ho, hs⟩, hg, rfl⟩
    case revoke x hx hf ho hs => exact ⟨x, hx, hf, ⟨ho, hs⟩, rfl⟩
    case setOwner x hx hf ho hs hi hg => exact ⟨x, hx, hf, ⟨ho, hs⟩, hi, hg, rfl⟩
    case setCloseAuthority x hx hf ho hs hg => exact ⟨x, hx, hf, ⟨ho, hs⟩, hg, rfl⟩
    case setMintAuthority m hm ha hs => exact ⟨m, hm, by simp [ha], ⟨ha, hs⟩, rfl⟩
    case freeze x m hx hf hmint hm ha hs => exact ⟨x, hx, hf, hmint, m, hm, by simp [ha], ⟨ha, hs⟩, rfl⟩
    case thaw x m hx hf hmint hm ha hs => exact ⟨x, hx, hf, hmint, m, hm, by simp [ha], ⟨ha, hs⟩, rfl⟩
    case closeAccount x hne hx h0 hc hs hg =>
      refine ⟨hne, ?_⟩
      rw [hx]
      simp only [Except.bind_eq_ok, check_eq_ok, Except.pure_eq_ok, exists_const]
      exact ⟨h0, ⟨hc, hs⟩, hg, trivial⟩
    case closeMint m hne hx hm hc hs h0 =>
      refine ⟨hne, ?_⟩
      rw [hx]
      simp only [Except.bind_eq_ok, check_eq_ok, Except.pure_eq_ok, exists_const, demand_eq_ok]
      exact ⟨m, hm, ⟨hc, hs⟩, h0, trivial⟩
    case cpiGuard x hx ho hs hc => exact ⟨x, hx, ⟨ho, hs⟩, hc, rfl⟩
    case memoTransfer x hx ho hs => exact ⟨x, hx, ⟨ho, hs⟩, rfl⟩

/-! ## One account -/

/-- What an instruction does to the account at `a`, when it does anything to it. -/
inductive AccountChange (ctx : Ctx K) (t : Tokens K) (a : K) :
    Op K → Option (Account K) → Option (Account K) → Prop
  | opened {mint owner io m} : ¬t.InUse a → t.mints.lookup mint = some m →
      AccountChange ctx t a (.initializeAccount a mint owner io) none
        (some (.fresh mint owner (io || m.nonTransferable)))
  | minted {mint auth amount decimals x m} : x.frozen = false → x.mint = mint → t.mints.lookup mint = some m →
      m.mintAuthority = some auth → auth ∈ ctx.signers →
      AccountChange ctx t a (.mintTo mint a auth amount decimals) (some x)
        (some { x with amount := x.amount + amount })
  | sent {mint dest auth amount decimals x m x'} : a ≠ dest → x.frozen = false → amount ≤ x.amount →
      x.mint = mint → t.mints.lookup mint = some m → m.nonTransferable = false →
      Spends ctx m x auth amount x' →
      AccountChange ctx t a (.transfer a mint dest auth amount decimals) (some x)
        (some { x' with amount := x.amount - amount })
  | received {mint src auth amount decimals x m y y'} : src ≠ a → x.frozen = false → x.mint = mint →
      t.mints.lookup mint = some m → m.nonTransferable = false → t.accounts.lookup src = some y →
      amount ≤ y.amount → y.mint = mint → Spends ctx m y auth amount y' →
      AccountChange ctx t a (.transfer src mint a auth amount decimals) (some x)
        (some { x with amount := x.amount + amount })
  | burned {mint auth amount decimals x m x'} : x.frozen = false → amount ≤ x.amount → x.mint = mint →
      t.mints.lookup mint = some m → Spends ctx m x auth amount x' →
      AccountChange ctx t a (.burn a mint auth amount decimals) (some x)
        (some { x' with amount := x.amount - amount })
  | approved {delegate amount x} : x.frozen = false → x.owner ∈ ctx.signers →
      AccountChange ctx t a (.approve a delegate x.owner amount) (some x)
        (some { x with delegate := some delegate, delegatedAmount := amount })
  | revoked {auth x} : x.frozen = false → AccountChange ctx t a (.revoke a auth) (some x)
      (some { x with delegate := none, delegatedAmount := 0 })
  | ownerSet {new x} : x.frozen = false → x.owner ∈ ctx.signers → x.cpiGuard = false →
      AccountChange ctx t a (.setOwner a new x.owner) (some x)
        (some { x with owner := new, delegate := none, delegatedAmount := 0 })
  | closerSet {new x} : x.frozen = false → x.closer ∈ ctx.signers →
      AccountChange ctx t a (.setCloseAuthority a new x.closer) (some x)
        (some { x with closeAuthority := new })
  | froze {auth x m} : x.frozen = false → t.mints.lookup x.mint = some m → m.freezeAuthority = some auth →
      auth ∈ ctx.signers → AccountChange ctx t a (.freeze a x.mint auth) (some x)
        (some { x with frozen := true })
  | thawed {auth x m} : x.frozen = true → t.mints.lookup x.mint = some m → m.freezeAuthority = some auth →
      auth ∈ ctx.signers → AccountChange ctx t a (.thaw a x.mint auth) (some x)
        (some { x with frozen := false })
  | closed {dest x} : a ≠ dest → x.amount = 0 → x.closer ∈ ctx.signers →
      ¬(x.cpiGuard = true ∧ ctx.cpi = true ∧ dest ≠ x.owner) →
      AccountChange ctx t a (.close a dest x.closer) (some x) none
  | guarded {on x} : x.owner ∈ ctx.signers → ctx.cpi = false →
      AccountChange ctx t a (.cpiGuard a x.owner on) (some x) (some { x with cpiGuard := on })
  | memoSet {on x} : x.owner ∈ ctx.signers →
      AccountChange ctx t a (.memoTransfer a x.owner on) (some x) (some { x with memoTransfer := on })

@[simp] theorem Tokens.setMint_accounts (t : Tokens K) (a : K) (m : Mint K) :
    (t.setMint a m).accounts = t.accounts := rfl

@[simp] theorem Tokens.setMint_mints (t : Tokens K) (a : K) (m : Mint K) :
    (t.setMint a m).mints = t.mints.insert a m := rfl

@[simp] theorem Tokens.setAccount_accounts (t : Tokens K) (a : K) (x : Account K) :
    (t.setAccount a x).accounts = t.accounts.insert a x := rfl

@[simp] theorem Tokens.setAccount_mints (t : Tokens K) (a : K) (x : Account K) :
    (t.setAccount a x).mints = t.mints := rfl

theorem not_inUse {t : Tokens K} {a : K} : ¬t.InUse a ↔ t.mints.lookup a = none ∧
    t.accounts.lookup a = none := by
  simp only [Tokens.InUse, not_or, AList.lookup_eq_none]

/-- **Every account is left alone or changed in one of these ways.** -/
theorem Did.account (h : Did ctx t op t') (a : K) :
    t'.accounts.lookup a = t.accounts.lookup a ∨
      AccountChange ctx t a op (t.accounts.lookup a) (t'.accounts.lookup a) := by
  cases h with
  | initializeMint | initializeMetadata | setMintAuthority | transferSelf | closeMint => exact .inl rfl
  | @initializeAccount b mint owner io m hu hm =>
    by_cases he : a = b
    · subst he
      rw [Tokens.setAccount_accounts, Store.lookup_insert_self, (not_inUse.mp hu).2]
      exact .inr (.opened hu hm)
    · exact .inl (by rw [Tokens.setAccount_accounts, Store.lookup_insert, if_neg he])
  | @mintTo mint b auth n d x m hx hf hmint hm hnt hd ha hs hle =>
    by_cases he : a = b
    · subst he
      rw [Tokens.setAccount_accounts, Store.lookup_insert_self, hx]
      exact .inr (.minted hf hmint hm ha hs)
    · exact .inl (by rw [Tokens.setAccount_accounts, Store.lookup_insert, if_neg he]; rfl)
  | @transfer src mint dest auth n d x y m x' hx hy hfx hfy hle hmx hmy hm hnt hd hsp hne =>
    by_cases he : a = dest
    · subst he
      rw [Tokens.setAccount_accounts, Store.lookup_insert_self, hy]
      exact .inr (.received hne hfy hmy hm hnt hx hle hmx hsp)
    by_cases hs : a = src
    · subst hs
      rw [Tokens.setAccount_accounts, Store.lookup_insert, if_neg he, Tokens.setAccount_accounts,
        Store.lookup_insert_self, hx]
      exact .inr (.sent hne hfx hle hmx hm hnt hsp)
    · exact .inl (by simp only [Tokens.setAccount_accounts, Store.lookup_insert, if_neg he, if_neg hs])
  | @burn b mint auth n d x m x' hx hm hf hle hmint hd hsp =>
    by_cases he : a = b
    · subst he
      rw [Tokens.setAccount_accounts, Store.lookup_insert_self, hx]
      exact .inr (.burned hf hle hmint hm hsp)
    · exact .inl (by rw [Tokens.setAccount_accounts, Store.lookup_insert, if_neg he]; rfl)
  | @approve b delegate owner n x hx hf ho hs hg =>
    by_cases he : a = b
    · subst he ho
      rw [Tokens.setAccount_accounts, Store.lookup_insert_self, hx]
      exact .inr (.approved hf hs)
    · exact .inl (by rw [Tokens.setAccount_accounts, Store.lookup_insert, if_neg he])
  | @revoke b auth x hx hf ho hs =>
    by_cases he : a = b
    · subst he
      rw [Tokens.setAccount_accounts, Store.lookup_insert_self, hx]
      exact .inr (.revoked hf)
    · exact .inl (by rw [Tokens.setAccount_accounts, Store.lookup_insert, if_neg he])
  | @setOwner b new auth x hx hf ho hs hi hg =>
    by_cases he : a = b
    · subst he ho
      rw [Tokens.setAccount_accounts, Store.lookup_insert_self, hx]
      exact .inr (.ownerSet hf hs hg)
    · exact .inl (by rw [Tokens.setAccount_accounts, Store.lookup_insert, if_neg he])
  | @setCloseAuthority b new auth x hx hf ho hs hg =>
    by_cases he : a = b
    · subst he ho
      rw [Tokens.setAccount_accounts, Store.lookup_insert_self, hx]
      exact .inr (.closerSet hf hs)
    · exact .inl (by rw [Tokens.setAccount_accounts, Store.lookup_insert, if_neg he])
  | @freeze b mint auth x m hx hf hmint hm ha hs =>
    by_cases he : a = b
    · subst he hmint
      rw [Tokens.setAccount_accounts, Store.lookup_insert_self, hx]
      exact .inr (.froze hf hm ha hs)
    · exact .inl (by rw [Tokens.setAccount_accounts, Store.lookup_insert, if_neg he])
  | @thaw b mint auth x m hx hf hmint hm ha hs =>
    by_cases he : a = b
    · subst he hmint
      rw [Tokens.setAccount_accounts, Store.lookup_insert_self, hx]
      exact .inr (.thawed hf hm ha hs)
    · exact .inl (by rw [Tokens.setAccount_accounts, Store.lookup_insert, if_neg he])
  | @closeAccount b dest auth x hne hx h0 hc hs hg =>
    by_cases he : a = b
    · subst he hc
      rw [Store.lookup_erase_self, hx]
      exact .inr (.closed hne h0 hs hg)
    · exact .inl (by rw [Store.lookup_erase, if_neg he])
  | @cpiGuard b owner on x hx ho hs hc =>
    by_cases he : a = b
    · subst he ho
      rw [Tokens.setAccount_accounts, Store.lookup_insert_self, hx]
      exact .inr (.guarded hs hc)
    · exact .inl (by rw [Tokens.setAccount_accounts, Store.lookup_insert, if_neg he])
  | @memoTransfer b owner on x hx ho hs =>
    by_cases he : a = b
    · subst he ho
      rw [Tokens.setAccount_accounts, Store.lookup_insert_self, hx]
      exact .inr (.memoSet hs)
    · exact .inl (by rw [Tokens.setAccount_accounts, Store.lookup_insert, if_neg he])

/-! ## One mint -/

/-- What an instruction does to the mint at `a`, when it does anything to it. -/
inductive MintChange (ctx : Ctx K) (t : Tokens K) (a : K) : Op K → Option (Mint K) → Option (Mint K) → Prop
  | opened {m} : ¬t.InUse a → MintChange ctx t a (.initializeMint a m) none (some { m with supply := 0 })
  | described {auth md m} : m.mintAuthority = some auth → auth ∈ ctx.signers →
      MintChange ctx t a (.initializeMetadata a auth md) (some m) (some { m with metadata := some md })
  | minted {dest auth amount decimals m} : m.mintAuthority = some auth → auth ∈ ctx.signers →
      MintChange ctx t a (.mintTo a dest auth amount decimals) (some m)
        (some { m with supply := m.supply + amount })
  | burned {src auth amount decimals m x x'} : t.accounts.lookup src = some x → x.mint = a →
    x.frozen = false →
      amount ≤ x.amount → Spends ctx m x auth amount x' →
      MintChange ctx t a (.burn src a auth amount decimals) (some m)
        (some { m with supply := m.supply - amount })
  | authoritySet {kind new auth m} : m.authority kind = some auth → auth ∈ ctx.signers →
      MintChange ctx t a (.setMintAuthority a kind new auth) (some m) (some (m.withAuthority new kind))
  | closed {dest auth m} : m.closeAuthority = some auth → auth ∈ ctx.signers → m.supply = 0 →
      t.accounts.lookup a = none → MintChange ctx t a (.close a dest auth) (some m) none

/-- **Every mint is left alone or changed in one of these ways.** -/
theorem Did.mint (h : Did ctx t op t') (a : K) :
    t'.mints.lookup a = t.mints.lookup a ∨ MintChange ctx t a op (t.mints.lookup a) (t'.mints.lookup a) := by
  cases h with
  | initializeAccount | transferSelf | transfer | approve | revoke | setOwner | setCloseAuthority | freeze
  | thaw | closeAccount | cpiGuard | memoTransfer => exact .inl rfl
  | @initializeMint b m hu =>
    by_cases he : a = b
    · subst he
      rw [Tokens.setMint_mints, Store.lookup_insert_self, (not_inUse.mp hu).1]
      exact .inr (.opened hu)
    · exact .inl (by rw [Tokens.setMint_mints, Store.lookup_insert, if_neg he])
  | @initializeMetadata b auth md m hm ha hs hmd =>
    by_cases he : a = b
    · subst he
      rw [Tokens.setMint_mints, Store.lookup_insert_self, hm]
      exact .inr (.described ha hs)
    · exact .inl (by rw [Tokens.setMint_mints, Store.lookup_insert, if_neg he])
  | @mintTo b dest auth n d x m hx hf hmint hm hnt hd ha hs hle =>
    by_cases he : a = b
    · subst he
      rw [Tokens.setAccount_mints, Tokens.setMint_mints, Store.lookup_insert_self, hm]
      exact .inr (.minted ha hs)
    · exact .inl (by rw [Tokens.setAccount_mints, Tokens.setMint_mints, Store.lookup_insert, if_neg he])
  | @burn src b auth n d x m x' hx hm hf hle hmint hd hsp =>
    by_cases he : a = b
    · subst he
      rw [Tokens.setAccount_mints, Tokens.setMint_mints, Store.lookup_insert_self, hm]
      exact .inr (.burned hx hmint hf hle hsp)
    · exact .inl (by rw [Tokens.setAccount_mints, Tokens.setMint_mints, Store.lookup_insert, if_neg he])
  | @setMintAuthority b kind new auth m hm ha hs =>
    by_cases he : a = b
    · subst he
      rw [Tokens.setMint_mints, Store.lookup_insert_self, hm]
      exact .inr (.authoritySet ha hs)
    · exact .inl (by rw [Tokens.setMint_mints, Store.lookup_insert, if_neg he])
  | @closeMint b dest auth m hne hx hm hc hs h0 =>
    by_cases he : a = b
    · subst he
      rw [Store.lookup_erase_self, hm]
      exact .inr (.closed hc hs h0 hx)
    · exact .inl (by rw [Store.lookup_erase, if_neg he])

/-- The accounts and mints an instruction may write. -/
def Op.touched : Op K → List K
  | .initializeMint a _ | .initializeMetadata a _ _ | .initializeAccount a _ _ _ | .approve a _ _ _ | .revoke
    a _
  | .setOwner a _ _ | .setCloseAuthority a _ _ | .setMintAuthority a _ _ _ | .freeze a _ _ | .thaw a _ _
  | .close a _ _ | .cpiGuard a _ _ | .memoTransfer a _ _ => [a]
  | .mintTo mint dest _ _ _ => [mint, dest]
  | .transfer src _ dest _ _ _ => [src, dest]
  | .burn src mint _ _ _ => [src, mint]

/-- Everything else is unchanged. -/
theorem Did.frame {a : K} (h : Did ctx t op t') (ha : a ∉ op.touched) :
    t'.mints.lookup a = t.mints.lookup a ∧ t'.accounts.lookup a = t.accounts.lookup a := by
  constructor
  · rcases h.mint a with he | hc
    · exact he
    · exfalso
      generalize t.mints.lookup a = x, t'.mints.lookup a = y at hc
      cases hc <;> simp [Op.touched] at ha
  · rcases h.account a with he | hc
    · exact he
    · exfalso
      generalize t.accounts.lookup a = x, t'.accounts.lookup a = y at hc
      cases hc <;> simp [Op.touched] at ha

/-- Only closing takes a mint or an account away. -/
theorem Did.inUse {a : K} (h : Did ctx t op t') (ha : t.InUse a)
    (hop : ∀ dest auth, op ≠ .close a dest auth) :
    t'.InUse a := by
  by_contra hn
  obtain ⟨hm', hx'⟩ := not_inUse.mp hn
  refine absurd ha (not_inUse.mpr ⟨?_, ?_⟩)
  · rcases h.mint a with hsame | hch
    · exact hsame.symm.trans hm'
    · rw [hm'] at hch
      generalize t.mints.lookup a = before at hch
      cases hch with
      | closed => exact absurd rfl (hop _ _)
  · rcases h.account a with hsame | hch
    · exact hsame.symm.trans hx'
    · rw [hx'] at hch
      generalize t.accounts.lookup a = before at hch
      cases hch with
      | closed => exact absurd rfl (hop _ _)

/-! ## Conservation -/

/-- What an account holds of a mint. -/
def holding (mint : K) (_ : K) (x : Account K) : Nat := if x.mint = mint then x.amount else 0

/-- What all accounts hold of a mint. -/
def Tokens.held (t : Tokens K) (mint : K) : Nat := Store.total (holding mint) t.accounts

/-- The supply of a mint; there is none of a mint that does not exist. -/
def Tokens.supply (t : Tokens K) (mint : K) : Nat := (t.mints.lookup mint).elim 0 Mint.supply

def Tokens.Conserved (t : Tokens K) (mint : K) : Prop := t.held mint = t.supply mint

theorem held_setAccount {t : Tokens K} {a : K} {x : Account K} (mint : K) (x' : Account K)
    (hx : t.accounts.lookup a = some x) :
    (t.setAccount a x').held mint + holding mint a x = t.held mint + holding mint a x' := by
  rw [← Store.weight_of_lookup (w := holding mint) hx]
  exact Store.total_insert (holding mint) t.accounts a x'

theorem held_setAccount_of_mint {t : Tokens K} {mint a : K} {x : Account K} (x' : Account K)
    (hx : t.accounts.lookup a = some x) (hm : x.mint = mint) (hm' : x'.mint = mint) :
    (t.setAccount a x').held mint + x.amount = t.held mint + x'.amount := by
  simpa only [holding, if_pos hm, if_pos hm'] using held_setAccount mint x' hx

theorem held_setAccount_of_ne {t : Tokens K} {mint a : K} {x : Account K} (x' : Account K)
    (hx : t.accounts.lookup a = some x) (hm : x.mint ≠ mint) (hm' : x'.mint ≠ mint) :
    (t.setAccount a x').held mint = t.held mint := by
  simpa only [holding, if_neg hm, if_neg hm', Nat.add_zero] using held_setAccount mint x' hx

theorem held_openAccount {t : Tokens K} {a : K} (mint : K) (x' : Account K)
    (hx : t.accounts.lookup a = none) :
    (t.setAccount a x').held mint = holding mint a x' + t.held mint :=
  Store.total_insert_of_none hx

theorem held_setMint (t : Tokens K) (mint a : K) (m : Mint K) : (t.setMint a m).held mint = t.held mint := rfl

theorem supply_setAccount (t : Tokens K) (mint a : K) (x : Account K) :
    (t.setAccount a x).supply mint = t.supply mint := rfl

theorem supply_setMint (t : Tokens K) (mint a : K) (m : Mint K) :
    (t.setMint a m).supply mint = if mint = a then m.supply else t.supply mint := by
  simp only [Tokens.supply, Tokens.setMint_mints, Store.lookup_insert]
  split <;> rfl

/-- An account rewritten with the mint and amount it had. -/
theorem held_setAccount_same {t : Tokens K} {mint a : K} {x x' : Account K}
    (hx : t.accounts.lookup a = some x)
    (hm : x'.mint = x.mint) (ha : x'.amount = x.amount) : (t.setAccount a x').held mint = t.held mint := by
  have h := held_setAccount mint x' hx
  simp only [holding, hm, ha] at h
  omega

theorem holding_le_held {t : Tokens K} {a : K} {x : Account K} (hx : t.accounts.lookup a = some x) :
    x.amount ≤ t.held x.mint := by
  have h := Store.le_total_of_lookup (w := holding x.mint) hx
  rwa [holding, if_pos rfl] at h

/-- The account at `a` holds tokens of the mint. -/
def Tokens.Carries (t : Tokens K) (mint a : K) : Prop :=
  ∃ x, t.accounts.lookup a = some x ∧ x.mint = mint ∧ 0 < x.amount

theorem Tokens.held_eq_zero_iff {t : Tokens K} {mint : K} : t.held mint = 0 ↔ ∀ a, ¬t.Carries mint a := by
  constructor
  · intro h a hex
    obtain ⟨x, hx, rfl, hpos⟩ := hex
    have := holding_le_held hx
    omega
  · intro h
    refine Store.total_eq_zero_iff.mpr fun a x hx => ?_
    unfold holding
    split
    · next hm => exact Nat.eq_zero_of_not_pos fun hpos => h a ⟨x, hx, hm, hpos⟩
    · rfl

/-- A single token is in one account. -/
theorem Tokens.Carries.unique {t : Tokens K} {mint a b : K} (ha : t.Carries mint a) (hb : t.Carries mint b)
    (h : t.held mint ≤ 1) : a = b := by
  obtain ⟨x, hx, hxm, hxpos⟩ := ha
  obtain ⟨y, hy, hym, hypos⟩ := hb
  by_contra hne
  have hsum := Store.weight_add_weight_le (holding mint) t.accounts hne
  rw [Store.weight_of_lookup hx, Store.weight_of_lookup hy, holding, holding, if_pos hxm, if_pos hym] at hsum
  rw [Tokens.held] at h
  omega

omit [DecidableEq K] in
theorem SpendsAs.same {m : Mint K} {x x' : Account K} {auth : K} {n : Nat} (h : SpendsAs m x auth n x') :
    x'.mint = x.mint ∧ x'.owner = x.owner ∧ x'.amount = x.amount ∧ x'.frozen = x.frozen ∧
      x'.closeAuthority = x.closeAuthority ∧ x'.immutableOwner = x.immutableOwner ∧
      x'.cpiGuard = x.cpiGuard ∧ (x'.delegate = x.delegate ∨ x'.delegate = none) := by
  cases h with
  | permanent | owner => exact ⟨rfl, rfl, rfl, rfl, rfl, rfl, rfl, .inl rfl⟩
  | delegate =>
    refine ⟨rfl, rfl, rfl, rfl, rfl, rfl, rfl, ?_⟩
    simp only [Account.useDelegate]
    split
    · exact .inr rfl
    · exact .inl rfl

omit [DecidableEq K] in
theorem SpendsAs.memo_same {m : Mint K} {x x' : Account K} {auth : K} {n : Nat} (h : SpendsAs m x auth n x') :
    x'.memoTransfer = x.memoTransfer := by
  cases h <;> rfl

/-- **Conservation.** What the accounts of a mint hold together stays its supply, whatever is done. -/
theorem Did.conserved {mint : K} (h : Did ctx t op t') (hc : t.Conserved mint) : t'.Conserved mint := by
  have hsupply : ∀ {a m}, t.mints.lookup a = some m → t.supply a = m.supply := fun hm => by
    simp only [Tokens.supply, hm, Option.elim]
  simp only [Tokens.Conserved] at hc ⊢
  cases h with
  | transferSelf => exact hc
  | @initializeMint a m hu =>
    rw [held_setMint, supply_setMint]
    split
    · next he => subst he; simpa [Tokens.supply, (not_inUse.mp hu).1] using hc
    · exact hc
  | @initializeMetadata a auth md m hm =>
    rw [held_setMint, supply_setMint]
    split
    · next he => subst he; rw [hc, hsupply hm]
    · exact hc
  | @setMintAuthority a kind new auth m hm =>
    rw [held_setMint, supply_setMint]
    split
    · next he =>
      subst he
      rw [hc, hsupply hm]
      cases kind <;> rfl
    · exact hc
  | @initializeAccount a mint' owner io m hu =>
    have h0 : holding mint a (.fresh mint' owner (io || m.nonTransferable)) = 0 := by
      unfold holding Account.fresh
      split <;> rfl
    rw [supply_setAccount, held_openAccount mint _ (not_inUse.mp hu).2, h0, Nat.zero_add, hc]
  | @mintTo mint' dest auth n d x m hx hf hmint hm =>
    have hx' : (t.setMint mint' { m with supply := m.supply + n }).accounts.lookup dest = some x := hx
    rw [supply_setAccount, supply_setMint]
    by_cases he : mint = mint'
    · subst he
      have h := held_setAccount_of_mint { x with amount := x.amount + n } hx' hmint hmint
      have := hsupply hm
      rw [held_setMint] at h
      rw [if_pos rfl]
      simp only at h ⊢
      omega
    · have hne : x.mint ≠ mint := fun hx => he (hx.symm.trans hmint)
      rw [if_neg he]
      exact (held_setAccount_of_ne { x with amount := x.amount + n } hx' hne hne).trans hc
  | @transfer src mint' dest auth n d x y m x' hx hy hfx hfy hle hmx hmy hm hnt hd hsp hne =>
    obtain ⟨hm', -, -⟩ := hsp.as.same
    have hy' : (t.setAccount src { x' with amount := x.amount - n }).accounts.lookup dest = some y := by
      rw [Tokens.setAccount_accounts, Store.lookup_insert, if_neg (Ne.symm hne), hy]
    rw [supply_setAccount, supply_setAccount]
    by_cases he : mint = mint'
    · subst he
      have h1 := held_setAccount_of_mint { x' with amount := x.amount - n } hx hmx (hm'.trans hmx)
      have h2 := held_setAccount_of_mint { y with amount := y.amount + n } hy' hmy hmy
      simp only at h1 h2
      omega
    · have hnx : x.mint ≠ mint := fun hx => he (hx.symm.trans hmx)
      have hny : y.mint ≠ mint := fun hy => he (hy.symm.trans hmy)
      exact (held_setAccount_of_ne { y with amount := y.amount + n } hy' hny hny).trans <|
        (held_setAccount_of_ne { x' with amount := x.amount - n } hx hnx
          fun h => hnx (hm'.symm.trans h)).trans hc
  | @burn src mint' auth n d x m x' hx hm hf hle hmint hd hsp =>
    obtain ⟨hm', -, -⟩ := hsp.as.same
    have hx' : (t.setMint mint' { m with supply := m.supply - n }).accounts.lookup src = some x := hx
    rw [supply_setAccount, supply_setMint]
    by_cases he : mint = mint'
    · subst he
      have h := held_setAccount_of_mint { x' with amount := x.amount - n } hx' hmint (hm'.trans hmint)
      have hall := holding_le_held hx
      have := hsupply hm
      rw [hmint] at hall
      rw [held_setMint] at h
      rw [if_pos rfl]
      simp only at h ⊢
      omega
    · have hne : x.mint ≠ mint := fun hx => he (hx.symm.trans hmint)
      rw [if_neg he]
      exact (held_setAccount_of_ne { x' with amount := x.amount - n } hx' hne
        fun h => hne (hm'.symm.trans h)).trans hc
  | @approve _ _ _ _ _ hx | @revoke _ _ _ hx | @setOwner _ _ _ _ hx | @setCloseAuthority _ _ _ _ hx
  | @freeze _ _ _ _ _ hx | @thaw _ _ _ _ _ hx | @cpiGuard _ _ _ _ hx | @memoTransfer _ _ _ _ hx =>
    exact (held_setAccount_same hx rfl rfl).trans hc
  | @closeAccount a dest auth x hne hx h0 =>
    have h := Store.total_erase (holding mint) t.accounts a
    rw [Store.weight_of_lookup hx] at h
    simp only [holding, h0, ite_self] at h
    exact h.trans hc
  | @closeMint a dest auth m hne hx hm hca hs h0 =>
    show t.held mint = (Option.elim ((t.mints.erase a).lookup mint) 0 Mint.supply)
    rw [Store.lookup_erase, hc]
    split
    · next he => subst he; rw [hsupply hm, h0]; rfl
    · rfl

/-! ## Sequences -/

/-- A token instruction and how it is reached. -/
structure Call (K : Type) where
  ctx : Ctx K
  op : Op K

/-- One call after the other. -/
def run (t : Tokens K) : List (Call K) → Except Error (Tokens K)
  | [] => .ok t
  | c :: cs => exec c.ctx t c.op >>= fun t' => run t' cs

theorem run_cons_eq_ok {c : Call K} {cs : List (Call K)} :
    run t (c :: cs) = .ok t' ↔ ∃ t₁, Did c.ctx t c.op t₁ ∧ run t₁ cs = .ok t' := by
  simp only [run, Except.bind_eq_ok, exec_eq_ok]

theorem run_singleton_eq_ok {c : Call K} : run t [c] = .ok t' ↔ Did c.ctx t c.op t' := by
  rw [run_cons_eq_ok]
  constructor
  · intro hex
    obtain ⟨t₁, hd, hr⟩ := hex
    cases hr
    exact hd
  · exact fun hd => ⟨t', hd, rfl⟩

theorem run_append_eq_ok {cs ds : List (Call K)} :
    run t (cs ++ ds) = .ok t' ↔ ∃ t₁, run t cs = .ok t₁ ∧ run t₁ ds = .ok t' := by
  induction cs generalizing t with
  | nil => simp [run]
  | cons c cs ih =>
    simp only [List.cons_append, run_cons_eq_ok, ih]
    exact ⟨fun ⟨t₁, hd, t₂, hc, hr⟩ => ⟨t₂, ⟨t₁, hd, hc⟩, hr⟩, fun ⟨t₂, ⟨t₁, hd, hc⟩, hr⟩ =>
      ⟨t₁, hd, t₂, hc, hr⟩⟩

theorem run_frame {a : K} : ∀ {cs : List (Call K)} {t t' : Tokens K}, run t cs = .ok t' →
    (∀ c ∈ cs, a ∉ c.op.touched) →
    t'.mints.lookup a = t.mints.lookup a ∧ t'.accounts.lookup a = t.accounts.lookup a
  | [], _, _, h, _ => by cases h; exact ⟨rfl, rfl⟩
  | c :: cs, t, t', h, ha => by
    obtain ⟨t₁, hd, hr⟩ := run_cons_eq_ok.mp h
    obtain ⟨hm, hx⟩ := run_frame hr fun d hd => ha d (List.mem_cons_of_mem c hd)
    obtain ⟨hm₁, hx₁⟩ := hd.frame (ha c (by simp))
    exact ⟨hm.trans hm₁, hx.trans hx₁⟩

/-- What every call of a sequence preserves, the sequence preserves. -/
theorem run_invariant (I : Tokens K → Prop) : ∀ {cs : List (Call K)} {t t' : Tokens K},
    (∀ c ∈ cs, ∀ {t t'}, I t → Did c.ctx t c.op t' → I t') → run t cs = .ok t' → I t → I t'
  | [], _, _, _, h, hi => by cases h; exact hi
  | c :: cs, t, t', hI, h, hi => by
    obtain ⟨t₁, hd, hr⟩ := run_cons_eq_ok.mp h
    exact run_invariant I (fun d hd => hI d (List.mem_cons_of_mem c hd)) hr (hI c (by simp) hi hd)

theorem run_conserved {cs : List (Call K)} {mint : K} (h : run t cs = .ok t') (hc : t.Conserved mint) :
    t'.Conserved mint :=
  run_invariant (fun t => t.Conserved mint) (fun _ _ {_ _} hi hd => hd.conserved hi) h hc

theorem run_inUse {a : K} {cs : List (Call K)} (h : run t cs = .ok t') (ha : t.InUse a)
    (hcs : ∀ c ∈ cs, ∀ dest auth, c.op ≠ .close a dest auth) : t'.InUse a :=
  run_invariant (fun t => t.InUse a) (fun c hc {_ _} hi hd => hd.inUse hi (hcs c hc)) h ha

end Token2022
