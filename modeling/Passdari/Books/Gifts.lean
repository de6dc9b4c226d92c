/-
When a voucher can be given away. The account it is in can stand in the way,
and so can the wallet that its rent goes back to. The receiver need not have
done anything, and stands in the way only with an account that asks for memos.
-/
import Passdari.Books.CashingIn
import Passdari.Books.Closings
import Passdari.Books.OwnerHints

namespace Passdari

open Token2022

variable {P : Platform} {s s' start : State} {hist : History} {V X M receiver relayer : Address} {v : Voucher}
  {x : Account Address} {m : Mint Address} {b : Business} {tx : Tx} {c : Call} {cs : List Change}
  {calls : List TokenCall} {ps : List Payment}

/-! ## What it takes -/

/-- The accounts passed to give the voucher at `V`, held in `X`, to `receiver`. -/
def Voucher.gift (v : Voucher) (V X owner receiver relayer : Address) : TransferVoucher where
  voucher := V
  mint := v.mint
  fromToken := X
  toToken := .ata receiver v.mint
  newOwner := receiver
  owner := owner
  relayer := relayer
  rentPayer := v.rentPayer

/-- What giving away the voucher at `V`, held in `X`, takes. -/
structure Givable (P : Platform) (s : State) (tx : Tx) (V X : Address) (v : Voucher) (x : Account Address)
    (receiver relayer : Address) : Prop where
  inTime : tx.now ≤ v.expiresAt
  thawed : x.frozen = false
  unguarded : x.cpiGuard = false
  /-- An approval of the owner's own is what they spend. -/
  approval : x.delegate = some x.owner → 1 ≤ x.delegatedAmount
  refundee : ¬s.InUse v.rentPayer
  funded : s.tokens.accounts.lookup (.ata receiver v.mint) = none →
    s.lamports (.ata receiver v.mint) < P.minimumBalance (tokenAccountLen false) →
      ¬s.InUse relayer ∧
      P.minimumBalance (tokenAccountLen false) ≤ s.lamports (.ata receiver v.mint) + s.lamports relayer
  /-- The program sends no memo along. -/
  memoless : ∀ y, s.tokens.accounts.lookup (.ata receiver v.mint) = some y → y.memoTransfer = false
  /-- The account it comes from would be closed with the token still on it. -/
  elsewhere : X = .ata receiver v.mint → x.closeAuthority ≠ none ∧ x.closeAuthority ≠ some V

/-! ## Associated accounts are their owner's for good -/

/-- An associated account of a voucher mint is of the owner in its address, who stays it. -/
def HomeAccounts (t : Tokens Address) : Prop :=
  ∀ owner M x, M.isVoucherMint = true → t.accounts.lookup (.ata owner M) = some x →
    x.owner = owner ∧ x.immutableOwner = true

theorem Step.home_accounts (h : Step P s c s' cs calls ps) (hi : HomeAccounts s.tokens) :
    HomeAccounts s'.tokens := by
  refine run_invariant HomeAccounts (fun k hk t t' hi hd owner M x hM hx => ?_) h.tokens hi
  obtain ⟨mint, owner', io, hop, howner, himm⟩ | ⟨y, hy, himm, howner⟩ := hd.owner_kept hx
  · rcases h.effect.opens_account k hk _ _ _ _ hop with ⟨hat, hio⟩ | ⟨hs, -⟩
    · rw [Address.ata.injEq] at hat
      exact ⟨howner.trans hat.1.symm, himm hio⟩
    · cases h.signers _ hs
  · obtain ⟨hown, hgood⟩ := hi owner M y hM hy
    exact ⟨(howner hgood).trans hown, himm.trans hgood⟩

theorem Run.home_accounts (h : Run P start hist s) (hs : start.Empty) : HomeAccounts s.tokens := by
  refine h.induct_empty (I := fun _ s => HomeAccounts s.tokens) hs ?_ fun _ _ _ hi hst => hst.home_accounts hi
  intro owner M x hM hx
  obtain ⟨⟨k, hk⟩, ⟨_, hkey⟩ | ⟨_, hat⟩⟩ := hs.accounts hx
  · cases hkey
  · rw [Address.ata.injEq] at hat
    rw [hat.2, hk] at hM
    cases hM

theorem Run.frozen_holds (h : Run P start hist s) (hs : start.Empty) : ∀ X x,
    s.tokens.accounts.lookup X = some x → x.mint.isVoucherMint = true → x.frozen = true → 0 < x.amount := by
  refine h.induct_empty (I := fun _ s => ∀ X x, s.tokens.accounts.lookup X = some x →
    x.mint.isVoucherMint = true → x.frozen = true → 0 < x.amount) hs ?_
    fun hrun hw _ hi hst X x hx hM hf => ?_
  · intro X x hx hM
    obtain ⟨⟨k, hk⟩, -⟩ := hs.accounts hx
    rw [hk] at hM
    cases hM
  · rcases hst.frozen_before hw (hrun.voucherTokens hs) hx hM hf with ⟨-, hpos⟩ | ⟨-, y, hy, hfy, hym, -, hn⟩
    · exact hpos
    · rw [← hn]
      exact hi X y hy (hym ▸ hM) hfy

/-! ## The receiving account -/

theorem associated_funded (hm : s.tokens.mints.lookup M = some m)
    (h : createAssociatedToken P tx s relayer (.ata receiver M) receiver M = .ok s')
    (hlt : s.lamports (.ata receiver M) < P.minimumBalance (tokenAccountLen m.nonTransferable)) :
    ¬s.InUse relayer ∧ P.minimumBalance (tokenAccountLen m.nonTransferable) ≤
      s.lamports (.ata receiver M) + s.lamports relayer := by
  simp only [createAssociatedToken, createAddress, Except.bind_eq_ok, check_eq_ok, exists_const,
    loadMint_eq_ok] at h
  obtain ⟨-, m', hm', s₁, ⟨-, hpay⟩, -⟩ := h
  rw [hm, Option.some.injEq] at hm'
  subst hm'
  rcases transferLamports_eq_ok.mp hpay with ⟨h0, -⟩ | ⟨-, -, hsys, hle, -⟩
  · omega
  · exact ⟨hsys, by omega⟩

theorem associated_opened (hm : s.tokens.mints.lookup M = some m) (hsign : relayer ∈ tx.signers)
    (hfree : ¬s.InUse (.ata receiver M))
    (hfund : s.lamports (.ata receiver M) < P.minimumBalance (tokenAccountLen m.nonTransferable) →
      ¬s.InUse relayer ∧ P.minimumBalance (tokenAccountLen m.nonTransferable) ≤
        s.lamports (.ata receiver M) + s.lamports relayer) :
    ∃ s₁, createAssociatedToken P tx s relayer (.ata receiver M) receiver M = .ok s₁ ∧
      s₁.program = s.program ∧
      s₁.tokens = s.tokens.setAccount (.ata receiver M) (.fresh M receiver true) := by
  obtain ⟨s₁, hpay, hp, ht⟩ : ∃ s₁, transferLamports tx s .deposit relayer (.ata receiver M)
      (P.minimumBalance (tokenAccountLen m.nonTransferable) - s.lamports (.ata receiver M)) = .ok s₁ ∧
      s₁.program = s.program ∧ s₁.tokens = s.tokens := by
    by_cases hlt : s.lamports (.ata receiver M) < P.minimumBalance (tokenAccountLen m.nonTransferable)
    · obtain ⟨hsys, hle⟩ := hfund hlt
      exact ⟨_, transferLamports_eq_ok.mpr (.inr ⟨by omega, hsign, hsys, by omega, rfl⟩), rfl, rfl⟩
    · exact ⟨s, transferLamports_eq_ok.mpr (.inl ⟨by omega, rfl⟩), rfl, rfl⟩
  have hopen : Did ⟨tx.signers, true⟩ s₁.tokens (.initializeAccount (.ata receiver M) M receiver true) _ :=
    .initializeAccount (ht ▸ fun h => hfree (.inr (.inl h))) (ht ▸ hm)
  refine ⟨{ s₁ with tokens := s₁.tokens.setAccount (.ata receiver M) (.fresh M receiver true) }, ?_, hp,
    by rw [ht]⟩
  simp only [createAssociatedToken, createAddress, Except.bind_eq_ok, check_eq_ok, exists_const,
    loadMint_eq_ok]
  exact ⟨trivial, m, hm, s₁, ⟨hfree, hpay⟩, invoke_ok hopen⟩

/-- Whoever the voucher goes to, there is an account for it, or one can be opened. -/
theorem Live.receiving_ok (h : Live P s V v b m) (hhome : HomeAccounts s.tokens)
    (hfrozen : ∀ X x, s.tokens.accounts.lookup X = some x → x.mint.isVoucherMint = true → x.frozen = true →
      0 < x.amount)
    (hunused : ¬s.InUse (.ata receiver v.mint) ↔ s.tokens.accounts.lookup (.ata receiver v.mint) = none)
    (hx : s.tokens.accounts.lookup X = some x) (hxm : x.mint = v.mint) (hpos : 0 < x.amount)
    (hrelayer : relayer ∈ tx.signers) (hg : Givable P s tx V X v x receiver relayer) :
    ∃ s₁ y, receivingToken P tx (v.gift V X x.owner receiver relayer) s = .ok s₁ ∧ s₁.program = s.program ∧
      s₁.tokens.mints.lookup v.mint = some m ∧ s₁.tokens.accounts.lookup X = some x ∧
      s₁.tokens.accounts.lookup (.ata receiver v.mint) = some y ∧ y.mint = v.mint ∧ y.frozen = false ∧
      y.memoTransfer = false := by
  unfold Voucher.gift
  cases hy : s.tokens.accounts.lookup (.ata receiver v.mint) with
  | some y =>
    have hym : y.mint = v.mint := h.tokens.accounts.mint_eq hy
    obtain ⟨hyo, -⟩ := hhome receiver v.mint y h.isVoucherMint hy
    have hyf : y.frozen = false := by
      by_contra hf
      have hfy : y.frozen = true := by simpa using hf
      -- it would have the token on it, and there is but one
      have heq := h.alone hx hxm hpos hy hym (hfrozen _ y hy (hym ▸ h.isVoucherMint) hfy)
      rw [heq, hx, Option.some.injEq] at hy
      subst hy
      exact hf hg.thawed
    refine ⟨s, y, ?_, rfl, h.mint, hx, hy, hym, hyf, hg.memoless y hy⟩
    rw [receivingToken, if_pos (State.inUse_iff.mpr (.inr (.inl (State.tokenOwned_of_account hy))))]
    simp only [Except.bind_eq_ok, loadToken_eq_ok, check_eq_ok, Except.pure_eq_ok, exists_const]
    exact ⟨y, hy, hym, hyo, trivial, trivial⟩
  | none =>
    have hfree := hunused.mpr hy
    have hne : X ≠ .ata receiver v.mint := by
      intro heq
      rw [heq, hy] at hx
      cases hx
    have hfund := hg.funded hy
    rw [← h.obeys.nonTransferable] at hfund
    obtain ⟨s₁, h₁, hp, ht⟩ := associated_opened h.mint hrelayer hfree hfund
    refine ⟨s₁, .fresh v.mint receiver true, ?_, hp, by rw [ht]; exact h.mint, ?_, ?_, rfl, rfl, rfl⟩
    · rw [receivingToken, if_neg hfree]
      exact h₁
    · rw [ht, Tokens.setAccount_accounts, Store.lookup_insert, if_neg hne, hx]
    · rw [ht, Tokens.setAccount_accounts, Store.lookup_insert_self]

/-! ## What a gift took -/

theorem receivingToken_keeps {accs : TransferVoucher} (hm : s.tokens.mints.lookup accs.mint = some m)
    (h : receivingToken P tx accs s = .ok s') (hx : s.tokens.accounts.lookup X = some x) :
    s'.tokens.accounts.lookup X = some x ∧ s'.tokens.mints = s.tokens.mints := by
  obtain ⟨-, opens, hopens, hd⟩ := receivingToken_delta hm h
  have hrun := hd.tokens
  generalize s'.tokens = t' at hrun ⊢
  cases opens with
  | false =>
    cases hrun
    exact ⟨hx, rfl⟩
  | true =>
    have hfree := hopens.mp rfl
    have hne : X ≠ accs.toToken := by
      intro heq
      rw [heq, (State.tokens_of_not_inUse hfree).2] at hx
      cases hx
    rw [if_pos rfl] at hrun
    have hopened := run_singleton_eq_ok.mp hrun
    cases hopened with
    | initializeAccount =>
      refine ⟨?_, rfl⟩
      rw [Tokens.setAccount_accounts, Store.lookup_insert, if_neg hne, hx]

theorem not_closed {signers : List Address} {dest auth : Address} (hx : s.tokens.accounts.lookup X = some x)
    (hone : x.amount = 1) : invokeClose signers s X dest auth ≠ .ok s' := by
  intro h
  have hd := run_singleton_eq_ok.mp (invokeClose_delta h).tokens
  generalize s'.tokens = t' at hd
  cases hd with
  | closeAccount _ hx₁ h0 =>
    rw [hx, Option.some.injEq] at hx₁
    subst hx₁
    omega
  | closeMint _ hx₁ =>
    rw [hx] at hx₁
    cases hx₁

theorem Live.givable (h : Live P s V v b m) (hx : s.tokens.accounts.lookup X = some x)
    (hkey : x.owner.canSign = true)
    (hunused : ¬s.InUse (.ata receiver v.mint) ↔ s.tokens.accounts.lookup (.ata receiver v.mint) = none)
    (hok : transferVoucher P tx (v.gift V X x.owner receiver relayer) s = .ok s') :
    Givable P s tx V X v x receiver relayer := by
  unfold Voucher.gift at hok
  simp only [transferVoucher, Except.bind_eq_ok, load_eq_ok, loadMint_eq_ok, loadToken_eq_ok, signer_eq_ok,
    systemAccount_eq_ok, hasOne_eq_ok, holderConstraints, ownerConstraint, check_eq_ok, require_eq_ok,
    voucherSigner, withSigner_eq_ok, exists_const] at hok
  obtain ⟨v₁, hv₁, m₁, hm₁, x₁, hx₁, -, -, hsys, s₁, hrecv, -, -, ⟨hone, hf, -⟩, -, hexp, s₂, hmove, _, -,
    hrest⟩ := hok
  have hv₂ := h.voucher.symm.trans (State.voucher?_eq_some.mpr hv₁)
  rw [Option.some.injEq] at hv₂
  subst hv₂
  rw [h.mint, Option.some.injEq] at hm₁
  subst hm₁
  rw [hx, Option.some.injEq] at hx₁
  subst hx₁
  obtain ⟨hx₁, hmints⟩ := receivingToken_keeps h.mint hrecv hx
  have hmove := run_singleton_eq_ok.mp (invoke_delta hmove).tokens
  obtain ⟨x', hsp⟩ := hmove.spent hx₁ (hmints ▸ h.mint)
  refine ⟨hexp, hf, ?_, ?_, hsys, ?_, fun y hy => ?_, ?_⟩
  · by_contra hg
    exact hsp.unguarded ⟨rfl, by simpa using hg, rfl⟩
  · intro hd
    cases hsp.as with
    | permanent hp =>
      rw [h.obeys.permanentDelegate, Option.some.injEq] at hp
      rw [← hp, Address.not_canSign h.isVoucher] at hkey
      cases hkey
    | delegate _ _ hle => exact hle
    | owner _ hno => exact absurd hd hno
  · intro hnone hlt
    rw [receivingToken, if_neg (hunused.mpr hnone)] at hrecv
    have hfund := associated_funded h.mint hrecv
    rw [h.obeys.nonTransferable] at hfund
    exact hfund hlt
  · obtain ⟨hy₁, -⟩ := receivingToken_keeps h.mint hrecv hy
    exact hmove.memoless rfl hy₁
  · intro heq
    subst heq
    -- sent to itself, the token is still on it when it would be closed
    have hx₂ : s₂.tokens.accounts.lookup (.ata receiver v.mint) = some x := by
      generalize s₂.tokens = t₂ at hmove ⊢
      cases hmove with
      | transferSelf => exact hx₁
      | transfer _ _ _ _ _ _ _ _ _ _ _ hne => exact absurd rfl hne
    refine ⟨fun hnone => ?_, fun hsome => ?_⟩
    · rw [if_pos hnone] at hrest
      obtain ⟨s₃, hclose, -⟩ := Except.bind_eq_ok.mp hrest
      exact not_closed hx₂ hone hclose
    · rw [if_neg (by rw [hsome]; exact (by simp)), if_pos hsome] at hrest
      obtain ⟨s₃, hclose, -⟩ := Except.bind_eq_ok.mp hrest
      exact not_closed hx₂ hone hclose

/-! ## The theorem -/

/-- **When a voucher can be given away.** In every reachable state the owner of the account that holds a live
voucher's token can give it to anyone, with any relayer, exactly if the gift is in time, their account lets
the token go and the receiver's, if there is one, takes it without a memo, the wallet its rent goes back to is
still a system account and there is the rent for an account of the receiver's where there is none; the
receiver then holds it. -/
theorem voucher_givable_iff (h : Run P start hist s) (hs : start.Empty) (hv : s.voucher? V = some v)
    (hx : s.tokens.accounts.lookup X = some x) (hmint : x.mint = v.mint) (hone : x.amount = 1) (tx : Tx)
    (receiver relayer : Address) (hsig : ∀ a ∈ tx.signers, a.canSign = true) (howner : x.owner ∈ tx.signers)
    (hrelayer : relayer ∈ tx.signers) :
    ((∃ s', Next P s ⟨tx, .program (.transferVoucher (v.gift V X x.owner receiver relayer))⟩ s') ↔
      Givable P s tx V X v x receiver relayer) ∧
    ∀ s', Next P s ⟨tx, .program (.transferVoucher (v.gift V X x.owner receiver relayer))⟩ s' →
      s'.tokens.Holds (.ata receiver v.mint) v.mint receiver := by
  obtain ⟨b, hb, -⟩ := h.business_of_voucher hs hv
  obtain ⟨m, hl⟩ := h.live hs hv hb
  have hkey := hsig _ howner
  have hunused : ¬s.InUse (.ata receiver v.mint) ↔ s.tokens.accounts.lookup (.ata receiver v.mint) = none :=
    h.token_free_iff hs
  refine ⟨⟨fun hex => ?_, fun hg => ?_⟩, fun s' hnext => (Next.handed hl.placed hnext).2⟩
  · obtain ⟨s', hnext⟩ := hex
    exact hl.givable hx hkey hunused hnext.2
  · obtain ⟨s₁, y, hrecv, hprog, hm₁, hx₁, hy, hym, hyf, hmemo⟩ := hl.receiving_ok (h.home_accounts hs)
      (h.frozen_holds hs) hunused hx hmint (by omega) hrelayer hg
    obtain ⟨s', hok⟩ := hl.moveOn_ok hg.refundee hg.inTime hx hmint hone hg.thawed hg.unguarded hg.approval
      howner hkey hrelayer hrecv hprog hm₁ hx₁ hy hym hyf hmemo hg.elsewhere
    exact ⟨s', hsig, hok⟩

/-- A voucher just cashed in for can be given to the customer `key 8`, who has no account for it yet. -/
theorem voucher_givable_iff_given : ∃ hist s, ∃ v : Voucher, ∃ s', Run Sample.platform Sample.start hist s ∧
    s.tokens.accounts.lookup (Sample.voucherToken 8 0) = none ∧
    Next Sample.platform s (Sample.call 1040 [Sample.key 9, Sample.key 2] (.transferVoucher <|
      v.gift (Sample.voucher 0) (Sample.voucherToken 9 0) (Sample.key 9) (Sample.key 8) (Sample.key 2))) s' ∧
    s'.tokens.Holds (.ata (Sample.key 8) v.mint) v.mint (Sample.key 8) := by
  obtain ⟨hist, s, hrun, -, hp⟩ := Leads.run (P := Sample.platform) (s := Sample.start)
    (l := [Sample.register 1000 1 0, Sample.issue 1010 7, Sample.claim 1020 9 7, Sample.cashIn 1030 9 0])
    (p := fun s => (s.voucher? (Sample.voucher 0)).any (fun v : Voucher =>
        decide (v.mint = Sample.voucherMint 0 ∧ 1040 ≤ v.expiresAt ∧ v.rentPayer = Sample.key 2)) &&
      (s.tokens.accounts.lookup (Sample.voucherToken 9 0)).any (fun x : Account Address =>
        decide (x.mint = Sample.voucherMint 0 ∧ x.amount = 1 ∧ x.frozen = false ∧ x.owner = Sample.key 9 ∧
          x.cpiGuard = false ∧ x.delegate = none)) &&
      decide (s.tokens.accounts.lookup (Sample.voucherToken 8 0) = none ∧ ¬s.InUse (Sample.key 2) ∧
        Sample.platform.minimumBalance (tokenAccountLen false) ≤ s.lamports (Sample.key 2)))
    (by decide +kernel)
  simp only [Bool.and_eq_true, Option.any_eq_true, decide_eq_true_eq] at hp
  obtain ⟨⟨⟨v, hv, hM, hexp, hpayer⟩, x, hx, hmint, hone, hf, howner, hguard, hd⟩, hnone, hsys, hle⟩ := hp
  obtain ⟨hiff, hholds⟩ := voucher_givable_iff hrun Sample.start_empty hv hx (hmint.trans hM.symm) hone
    ⟨1040, [Sample.key 9, Sample.key 2]⟩ (Sample.key 8) (Sample.key 2) (by decide) (by simp [howner])
    (by simp)
  rw [howner] at hiff hholds
  obtain ⟨s', hnext⟩ := hiff.mpr
    { inTime := hexp
      thawed := hf
      unguarded := hguard
      approval := fun h => by
        rw [hd] at h
        cases h
      refundee := hpayer ▸ hsys
      funded := fun _ _ => ⟨hsys, Nat.le_trans hle (Nat.le_add_left _ _)⟩
      memoless := fun y hy => by
        rw [hM] at hy
        cases hnone.symm.trans hy
      elsewhere := fun he => by
        rw [hM] at he
        cases he }
  exact ⟨hist, s, v, s', hrun, hnone, hnext, hholds s' hnext⟩

end Passdari
