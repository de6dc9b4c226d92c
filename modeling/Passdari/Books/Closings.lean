/-
How the accounts are closed that a voucher or a card may close. While its
voucher is live, the account with the token goes with the clean-up of the
voucher, and an empty one once the token is handed back to its owner; the
account of a card's NFT goes when the NFT is retired.
-/
import Passdari.Books.Retirement
import Passdari.Books.Stranded

namespace Passdari

open Wire Token2022

variable {P : Platform} {tx : Tx} {s s' start : State} {hist : History} {c : Call} {cs : List Change}
  {calls : List TokenCall} {ps : List Payment} {a A V M X Y : Address} {v : Voucher} {b : Business}
  {m : Mint Address} {x x' y : Account Address} {latest : Taken}

/-! ## The clean-up of a voucher -/

theorem Live.burnExpired_empty (h : Live P s V v b m) (tx : Tx) (hpayer : ¬s.InUse v.rentPayer)
    (h0 : m.supply = 0)
    (hx : s.tokens.accounts.lookup X = some x) (hmint : x.mint = v.mint) (hxn : x.amount = 0)
    (hxc : x.closeAuthority = some V) (hg : x.cpiGuard = false) :
    ∃ s₁, burnExpired (v.cleanUp V X) (V :: tx.signers) m.decimals s = .ok s₁ ∧ s₁.program = s.program ∧
      s₁.tokens.mints.lookup v.mint = some { m with supply := 0 } ∧
      s₁.tokens.accounts.lookup v.mint = none := by
  have hne : X ≠ v.rentPayer := by
    intro heq
    subst heq
    rw [(State.tokens_of_not_inUse hpayer).2] at hx
    cases hx
  obtain ⟨s₁, hclose, hprog, hmints, hnone⟩ := closeHolder_ok tx (V := V) (d := v.rentPayer) hx hxn hxc hne
    fun _ hguard => by rw [hg] at hguard; cases hguard
  refine ⟨s₁, ?_, hprog, ?_, hnone _ h.no_account⟩
  · unfold burnExpired Voucher.cleanUp
    simp only [if_pos (State.tokenOwned_of_account hx), Except.bind_eq_ok, loadToken_eq_ok, require_eq_ok,
      exists_const]
    refine ⟨x, hx, hmint, ?_⟩
    rw [if_neg (by omega), hxc]
    exact hclose
  · rw [hmints, h.mint, ← h0]

/-- **The clean-up of a voucher closes the account passed to it**, when no token is left elsewhere. -/
theorem Live.closeExpired_named (h : Live P s V v b m) (tx : Tx) (hpayer : ¬s.InUse v.rentPayer)
    (hexp : v.expiresAt < tx.now)
    (hx : s.tokens.accounts.lookup X = some x) (hmint : x.mint = v.mint) (hxc : x.closeAuthority = some V)
    (hg : x.cpiGuard = false) (hlast : 0 < x.amount ∨ m.supply = 0) :
    ∃ s', closeExpiredVoucher P tx (v.cleanUp V X) s = .ok s' := by
  rcases Nat.eq_zero_or_pos x.amount with h0 | hpos
  · obtain ⟨s₁, hburn, hprog, hm, hM⟩ :=
      h.burnExpired_empty tx hpayer (hlast.resolve_left (by omega)) hx hmint h0 hxc hg
    exact h.closeExpired_of_burn tx hpayer hexp hburn hprog hm hM
  · have hfree : ¬Blocked s V v := by
      intro hex
      obtain ⟨Z, z, hz, hzm, hzn, -, hzg, -⟩ := hex
      obtain rfl := h.alone hx hmint hpos hz hzm hzn
      rw [hx, Option.some.injEq] at hz
      rw [← hz, hg] at hzg
      cases hzg
    obtain ⟨s₁, hburn, hprog, hm, hM⟩ := h.burnExpired_holder tx hpayer hfree hx hmint hpos
    exact h.closeExpired_of_burn tx hpayer hexp hburn hprog hm hM

/-! ## The handing back of a token -/

theorem Live.cancel_ok (h : Live P s V v b m) (tx : Tx) (hx : s.tokens.accounts.lookup X = some x)
    (hmint : x.mint = v.mint)
    (hone : x.amount = 1) (hf : x.frozen = true) (howner : x.owner ∈ tx.signers) :
    cancelPresentation P tx ⟨V, v.mint, X, x.owner⟩ s =
      .ok { s with tokens := s.tokens.setAccount X { x with frozen := false } } := by
  simp only [cancelPresentation, Except.bind_eq_ok, load_eq_ok, loadMint_eq_ok, loadToken_eq_ok, signer_eq_ok,
    hasOne_eq_ok,
    holderConstraints, ownerConstraint, require_eq_ok, voucherSigner, withSigner_eq_ok, exists_const]
  exact ⟨v, State.voucher?_eq_some.mp h.voucher, m, h.mint, x, hx, howner, rfl, (),
    ⟨hone, hf, check_pos hmint⟩, (),
    check_pos rfl, _, ⟨V, h.address, rfl⟩, thaw_ok tx h.obeys h.mint hx hmint hf⟩

theorem Live.owner_spends (h : Live P s V v b m) (hs : x.owner ∈ tx.signers) (hkey : x.owner.canSign = true)
    (hguard : x.cpiGuard = false) (happ : x.delegate = some x.owner → 1 ≤ x.delegatedAmount) :
    ∃ x', Spends ⟨tx.signers, true⟩ m x x.owner 1 x' := by
  have hnot : m.permanentDelegate ≠ some x.owner := by
    rw [h.obeys.permanentDelegate]
    intro he
    rw [← Option.some.inj he, Address.not_canSign h.isVoucher] at hkey
    cases hkey
  have hopen : ¬(x.owner = x.owner ∧ x.cpiGuard = true ∧ true = true) := by simp [hguard]
  by_cases hd : x.delegate = some x.owner
  · exact ⟨_, .delegate hnot hd (happ hd), hs, hopen⟩
  · exact ⟨_, .owner hnot hd rfl, hs, hopen⟩

/-- A voucher moves on, once there is an account for it to go to. -/
theorem Live.moveOn_ok (h : Live P s V v b m) {receiver relayer : Address} {s₁ : State}
    (hpayer : ¬s.InUse v.rentPayer) (hexp : tx.now ≤ v.expiresAt) (hx : s.tokens.accounts.lookup X = some x)
    (hxm : x.mint = v.mint) (hone : x.amount = 1) (hf : x.frozen = false) (hguard : x.cpiGuard = false)
    (happ : x.delegate = some x.owner → 1 ≤ x.delegatedAmount) (hs : x.owner ∈ tx.signers)
    (hkey : x.owner.canSign = true) (hrelayer : relayer ∈ tx.signers)
    (hrecv : receivingToken P tx ⟨V, v.mint, X, Y, receiver, x.owner, relayer, v.rentPayer⟩ s = .ok s₁)
    (hprog : s₁.program = s.program) (hm₁ : s₁.tokens.mints.lookup v.mint = some m)
    (hx₁ : s₁.tokens.accounts.lookup X = some x) (hy : s₁.tokens.accounts.lookup Y = some y)
    (hym : y.mint = v.mint) (hyf : y.frozen = false) (hmemo : y.memoTransfer = false)
    (hself : X = Y → x.closeAuthority ≠ none ∧ x.closeAuthority ≠ some V) :
    ∃ s', transferVoucher P tx ⟨V, v.mint, X, Y, receiver, x.owner, relayer, v.rentPayer⟩ s = .ok s' := by
  have hXpayer : X ≠ v.rentPayer := by
    intro heq
    subst heq
    rw [(State.tokens_of_not_inUse hpayer).2] at hx
    cases hx
  obtain ⟨x', hsp⟩ := h.owner_spends hs hkey hguard happ
  obtain ⟨-, howner', -, -, hcloser', -, hguard', -⟩ := hsp.as.same
  obtain ⟨s₂, hs₂, hprog₂, hsender⟩ : ∃ s₂, invoke tx.signers s₁ (.transfer X v.mint Y x.owner 1 m.decimals) =
      .ok s₂ ∧ s₂.program = s₁.program ∧
      (X ≠ Y → s₂.tokens.accounts.lookup X = some { x' with amount := 0 }) := by
    have hopen : ¬(y.memoTransfer = true ∧ true = true) := by simp [hmemo]
    by_cases hne : X = Y
    · subst hne
      rw [hx₁, Option.some.injEq] at hy
      subst hy
      exact ⟨_, invoke_ok (.transferSelf hx₁ hf (by omega) hxm hm₁ h.obeys.nonTransferable rfl hsp hopen),
        rfl, fun hno => absurd rfl hno⟩
    · have hmove : Did ⟨tx.signers, true⟩ s₁.tokens (.transfer X v.mint Y x.owner 1 m.decimals) _ :=
        .transfer hx₁ hy hf hyf (by omega) hxm hym hm₁ h.obeys.nonTransferable rfl hsp hne hopen
      refine ⟨_, invoke_ok hmove, rfl, fun _ => ?_⟩
      simp only [Tokens.setAccount_accounts, Store.lookup_insert, if_neg hne, if_true, hone]
  -- emptied, the account is closed by whoever may
  obtain ⟨s₃, hs₃, hprog₃⟩ : ∃ s₃,
      (if x.closeAuthority = none then invokeClose tx.signers s₂ X v.rentPayer x.owner
        else if x.closeAuthority = some V then invokeClose (V :: tx.signers) s₂ X v.rentPayer V
        else pure s₂) = .ok s₃ ∧ s₃.program = s₂.program := by
    have hopen : ∀ {d}, ¬({ x' with amount := 0 }.cpiGuard = true ∧ true = true ∧ d ≠ x'.owner) := by
      intro _ hg
      rw [hguard', hguard] at hg
      cases hg.1
    split
    · next hnone =>
      have hsender := hsender fun he => (hself he).1 hnone
      refine ⟨_, invokeClose_ok (.closeAccount hXpayer hsender rfl ?_ hs hopen), rfl⟩
      rw [Account.closer, hcloser', hnone]
      exact howner'
    · split
      · next hsome =>
        have hsender := hsender fun he => (hself he).2 hsome
        refine ⟨_, invokeClose_ok (.closeAccount hXpayer hsender rfl ?_ List.mem_cons_self hopen), rfl⟩
        rw [Account.closer, hcloser', hsome]
        rfl
      · exact ⟨s₂, rfl, rfl⟩
  have hv₃ : s₃.record? V = some (.voucher v) := by
    rw [State.record?, hprog₃, hprog₂, hprog]
    exact State.voucher?_eq_some.mp h.voucher
  obtain ⟨s₄, hst⟩ := store_ok (T := Voucher.account) (y := { v with owner := receiver }) hv₃ (by
    show (Record.voucher { v with owner := receiver }).bytes.length ≤ _
    simp [Record.bytes, Voucher.layout_sized _])
  refine ⟨s₄, ?_⟩
  simp only [transferVoucher, Except.bind_eq_ok, load_eq_ok, loadMint_eq_ok, loadToken_eq_ok, signer_eq_ok,
    systemAccount_eq_ok, hasOne_eq_ok, holderConstraints, ownerConstraint, require_eq_ok, voucherSigner,
    withSigner_eq_ok, exists_const]
  refine ⟨v, State.voucher?_eq_some.mp h.voucher, m, h.mint, x, hx, hs, hrelayer, hpayer, s₁, hrecv, rfl, rfl,
    (), ⟨hone, hf, check_pos hxm⟩, (), check_pos rfl, hexp, s₂, hs₂, _, ⟨V, h.address, rfl⟩, ?_⟩
  split at hs₃
  · next hnone =>
    rw [if_pos hnone]
    exact Except.bind_eq_ok.mpr ⟨s₃, hs₃, hst⟩
  · next hsome =>
    rw [if_neg hsome]
    exact Except.ite_bind_eq_ok.mpr ⟨s₃, hs₃, hst⟩

/-- A voucher handed back to an account that is there, by whoever holds it. -/
theorem Live.handBack_ok (h : Live P s V v b m) (tx : Tx) (hpayer : ¬s.InUse v.rentPayer)
    (hexp : tx.now ≤ v.expiresAt)
    (hy : s.tokens.accounts.lookup Y = some y) (hym : y.mint = v.mint) (hone : y.amount = 1)
    (hyf : y.frozen = false)
    (hyd : y.delegate = none) (hyg : y.cpiGuard = false) (hsign : y.owner ∈ tx.signers)
    (hkey : y.owner.canSign = true)
    (hx : s.tokens.accounts.lookup X = some x) (hxm : x.mint = v.mint) (hxf : x.frozen = false)
    (hmemo : x.memoTransfer = false) (hat : X = .ata x.owner v.mint) (hne : Y ≠ X) :
    ∃ s', transferVoucher P tx ⟨V, v.mint, Y, X, x.owner, y.owner, y.owner, v.rentPayer⟩ s = .ok s' := by
  have happ : y.delegate = some y.owner → 1 ≤ y.delegatedAmount := fun hd => by
    rw [hyd] at hd
    cases hd
  refine h.moveOn_ok hpayer hexp hy hym hone hyf hyg happ hsign hkey hsign ?_ rfl h.mint hy hx hxm hxf hmemo
    fun he => absurd he hne
  rw [receivingToken, if_pos (State.inUse_iff.mpr (.inr (.inl (State.tokenOwned_of_account hx))))]
  simp only [Except.bind_eq_ok, loadToken_eq_ok, check_eq_ok, Except.pure_eq_ok, exists_const]
  exact ⟨x, hx, hxm, rfl, hat, trivial⟩

theorem Step.handed_back {accs} (h : Step P s ⟨tx, .program (.transferVoucher accs)⟩ s' cs calls ps)
    (hx : s.tokens.accounts.lookup accs.toToken = some x) (hne : accs.fromToken ≠ accs.toToken) :
    s'.tokens.accounts.lookup accs.toToken = some { x with amount := x.amount + 1 } := by
  obtain ⟨heff, -, hrun, -⟩ := h
  obtain ⟨V, M, source, dest, newOwner, owner, relayer, rentPayer⟩ := accs
  simp only at hx hne ⊢
  cases heff with
  | @transferVoucher _ _ m y opens _ _ _ _ _ _ _ _ _ _ _ _ _ _ hopens =>
    have hthere : opens = false := by
      rw [← Bool.not_eq_true, hopens, not_not]
      exact State.inUse_iff.mpr (.inr (.inl (Tokens.inUse_of_account hx)))
    rw [transferVoucherCalls, hthere, if_neg (by decide), List.nil_append] at hrun
    obtain ⟨t, hmove, hclose⟩ := run_cons_eq_ok.mp hrun
    have hlast : t.accounts.lookup dest = some { x with amount := x.amount + 1 } := by
      cases hmove with
      | transferSelf => exact absurd rfl hne
      | transfer _ hx₁ =>
        rw [hx, Option.some.injEq] at hx₁
        subst hx₁
        exact Store.lookup_insert_self _ _ _
    refine (run_frame hclose fun k hk => ?_).2.trans hlast
    cases hwho : fromTokenCloser tx ⟨V, M, source, dest, newOwner, owner, relayer, rentPayer⟩ y with
    | none =>
      rw [hwho] at hk
      cases hk
    | some who =>
      rw [hwho, Option.elim_some, List.mem_singleton] at hk
      rw [hk]
      simpa [Op.touched] using Ne.symm hne

/-! ## Every account can be closed -/

/-- Instructions of this program, with whatever signers and clock they need, lead to where there is no account
at `X`. -/
def Closable (P : Platform) (hist : History) (s : State) (X : Address) : Prop :=
  ∃ later s', Run P s later s' ∧ (∀ st ∈ later, ∃ i, st.label.action = .program i) ∧
    ClockForward (later ++ hist) ∧
    s'.tokens.accounts.lookup X = none

def Voucher.lastCleanUp (v : Voucher) (V X : Address) : Call :=
  ⟨⟨Int64.maxValue, []⟩, .program (.closeExpiredVoucher (v.cleanUp V X))⟩

theorem Int64.le_maxValue_toInt (n : Int64) : n.toInt ≤ Int64.maxValue.toInt := by
  have := n.toInt_lt
  have h : Int64.maxValue.toInt = 2 ^ 63 - 1 := rfl
  omega

theorem ClockForward.last {st : Taken} (h : ClockForward hist) (hst : st.label.tx.now = Int64.maxValue) :
    ClockForward (st :: hist) := by
  refine h.cons ?_ fun older _ => ?_
  · rw [hst]
    decide
  · rw [hst]
    exact Int64.le_maxValue_toInt _

theorem ClockForward.le_latest (h : ClockForward (latest :: hist)) :
    ∀ older ∈ latest :: hist, older.label.tx.now.toInt ≤ latest.label.tx.now.toInt :=
  List.forall_mem_cons.mpr ⟨Int.le_refl _, (List.pairwise_cons.mp h.2).1⟩

/-- What is known of a reachable state and an account of it that is a live voucher's to close. -/
structure Claimed (P : Platform) (s : State) (V X : Address) (v : Voucher) (x : Account Address) : Prop where
  live : s.voucher? V = some v
  account : s.tokens.accounts.lookup X = some x
  mint : x.mint = v.mint
  named : x.closeAuthority = some V
  payer : ¬s.InUse v.rentPayer
  ends : v.expiresAt.toInt < Int64.maxValue.toInt
  unguarded : x.cpiGuard = false

/-- The clean-up of the voucher at the end of time closes the account that has the token, or that is left with
none. -/
theorem Run.last_cleanUp (h : Run P start hist s) (hs : start.Empty) (hc : Claimed P s V X v x)
    (hlast : 0 < x.amount ∨ ∀ m, s.tokens.mints.lookup v.mint = some m → m.supply = 0) :
    ∃ s', Next P s (v.lastCleanUp V X) s' ∧ s'.tokens.accounts.lookup X = none := by
  obtain ⟨-, b, hb, -⟩ := h.numbered hs V v hc.live
  obtain ⟨m, hlive⟩ := h.live hs hc.live hb
  obtain ⟨s', hok⟩ := hlive.closeExpired_named ⟨Int64.maxValue, []⟩ hc.payer
    (Int64.lt_iff_toInt_lt.mpr hc.ends)
    hc.account hc.mint hc.named hc.unguarded (hlast.imp_right fun h0 => h0 m hlive.mint)
  have hnext : Next P s (v.lastCleanUp V X) s' := ⟨(fun _ h => by cases h), hok⟩
  obtain ⟨cs, calls, ps, hst⟩ := hnext.step hlive.placed
  exact ⟨s', hnext, hst.expired_closed hc.account hc.named⟩

theorem Run.closable_holder (h : Run P start hist s) (hs : start.Empty) (hclock : ClockForward hist)
    (hc : Claimed P s V X v x)
    (hlast : 0 < x.amount ∨ ∀ m, s.tokens.mints.lookup v.mint = some m → m.supply = 0) :
    Closable P hist s X := by
  obtain ⟨s', hnext, hgone⟩ := h.last_cleanUp hs hc hlast
  refine ⟨[⟨s, v.lastCleanUp V X, s'⟩], s', .step .nil hnext, ?_, hclock.last rfl, hgone⟩
  rw [List.forall_mem_singleton]
  exact ⟨_, rfl⟩

theorem Run.thawed (h : Run P start (latest :: hist) s) (hs : start.Empty)
    (hclock : ClockForward (latest :: hist))
    (hv : s.voucher? V = some v) (hy : s.tokens.accounts.lookup Y = some y) (hym : y.mint = v.mint)
    (hone : y.amount = 1)
    (hkey : y.owner.canSign = true) : ∃ later s₁, Run P s later s₁ ∧
    (∀ st ∈ later, ∃ i, st.label.action = .program i) ∧
      (∀ st ∈ later, st.label.tx.now = latest.label.tx.now) ∧ ClockForward (later ++ latest :: hist) ∧
      s₁.tokens.accounts.lookup Y = some { y with frozen := false } ∧
      (∀ Z, Z ≠ Y → s₁.tokens.accounts.lookup Z = s.tokens.accounts.lookup Z) ∧ s₁.voucher? V = some v ∧
      ∀ a, a.canSign = true → ¬s.InUse a → ¬s₁.InUse a := by
  cases hf : y.frozen with
  | false =>
    exact ⟨[], s, .nil, (by simp), (by simp), hclock, by rw [hy, ← hf], fun _ _ => rfl, hv, fun _ _ ha => ha⟩
  | true =>
    obtain ⟨-, b, hb, -⟩ := h.numbered hs V v hv
    obtain ⟨m, hlive⟩ := h.live hs hv hb
    let tx : Tx := ⟨latest.label.tx.now, [y.owner]⟩
    have hok : cancelPresentation P tx ⟨V, v.mint, Y, y.owner⟩ s = _ :=
      hlive.cancel_ok tx hy hym hone hf List.mem_cons_self
    have hnext : Next P s ⟨tx, .program (.cancelPresentation ⟨V, v.mint, Y, y.owner⟩)⟩ _ :=
      ⟨List.forall_mem_singleton.mpr hkey, hok⟩
    obtain ⟨cs, calls, ps, hst⟩ := hnext.step hlive.placed
    refine ⟨[⟨s, _, _⟩], _, .step .nil hnext, List.forall_mem_singleton.mpr ⟨_, rfl⟩,
      List.forall_mem_singleton.mpr rfl,
      hclock.cons (hclock.1 latest List.mem_cons_self) hclock.le_latest, Store.lookup_insert_self _ _ _,
      fun Z hZ => ?_, hv, fun a ha hfree => hst.key_free hlive.placed rfl ha hfree (by simp)⟩
    simp only [Tokens.setAccount_accounts, Store.lookup_insert, if_neg hZ]

/-- **An emptied account can be closed** while its owner can be given the token back: it goes with the
clean-up then. -/
theorem Run.closable_emptied (h : Run P start hist s) (hs : start.Empty) (hclock : ClockForward hist)
    (hplain : ∀ X x, s.tokens.accounts.lookup X = some x → x.mint.isVoucherMint = true → Plain X x)
    (hc : Claimed P s V X v x) (h0 : x.amount = 0) (hf : x.frozen = false) (hi : Emptied hist s X x v)
    (hpayer : v.rentPayer.canSign = true) (hholder : s.tokens.accounts.lookup Y = some y)
    (hym : y.mint = v.mint)
    (hyn : 0 < y.amount) : Closable P hist s X := by
  cases hist with
  | nil =>
    have := h.nil_inv
    subst this
    have hv := hc.live
    rw [State.voucher?, State.record?, hs.program] at hv
    cases hv
  | cons latest hist =>
  have hg := h.grounds hs
  have hM : v.mint.isVoucherMint = true := hg.vouchers.isVoucherMint hc.live
  have hYX : Y ≠ X := by
    intro heq
    subst heq
    rw [hc.account, Option.some.injEq] at hholder
    subst hholder
    omega
  have hkey : y.owner.canSign = true := hi.holder Y y hholder (hym.trans hc.mint.symm) hyn
  have hyp := hplain Y y hholder (hym ▸ hM)
  have hxp := hplain X x hc.account (hc.mint ▸ hM)
  have hone : y.amount = 1 := by
    obtain ⟨-, b, hb, -⟩ := h.numbered hs V v hc.live
    obtain ⟨m, hlive⟩ := h.live hs hc.live hb
    exact (hlive.whole hholder hym hyn).1
  -- thawed first, if it was presented
  obtain ⟨later, s₁, hrun₁, hprog₁, hnow₁, hclock₁, hy₁, hother, hv₁, hfree₁⟩ :=
    h.thawed hs hclock hc.live hholder hym hone hkey
  have h₁ : Run P start (later ++ latest :: hist) s₁ := h.append hrun₁
  have hx₁ : s₁.tokens.accounts.lookup X = some x := (hother X hYX.symm).trans hc.account
  have hpayer₁ := hfree₁ _ hpayer hc.payer
  obtain ⟨-, b, hb₁, -⟩ := h₁.numbered hs V v hv₁
  obtain ⟨m, hlive₁⟩ := h₁.live hs hv₁ hb₁
  -- then handed back
  have hat : X = .ata x.owner v.mint := by
    rw [← hc.mint]
    exact hi.associated
  obtain ⟨s₂, hok⟩ := hlive₁.handBack_ok ⟨latest.label.tx.now, [y.owner]⟩ hpayer₁
    (hi.inTime latest List.mem_cons_self)
    hy₁ hym hone rfl hyp.delegate hyp.unguarded List.mem_cons_self hkey hx₁ hc.mint hf
    hxp.memoless hat hYX
  let handing : Call := ⟨⟨latest.label.tx.now, [y.owner]⟩,
    .program (.transferVoucher ⟨V, v.mint, Y, X, x.owner, y.owner, y.owner, v.rentPayer⟩)⟩
  have hnext : Next P s₁ handing s₂ := ⟨List.forall_mem_singleton.mpr hkey, hok⟩
  obtain ⟨cs, calls, ps, hst⟩ := hnext.step hlive₁.placed
  have hx₂ : s₂.tokens.accounts.lookup X = some { x with amount := x.amount + 1 } := hst.handed_back hx₁ hYX
  obtain ⟨v₂, hv₂, hm₂, hexp₂, hpay₂⟩ :=
    hst.voucher_stays hv₁ (by rintro (⟨_, he, -⟩ | ⟨_, he, -⟩) <;> cases he)
  have h₂ : Run P start (⟨s₁, handing, s₂⟩ :: (later ++ latest :: hist)) s₂ := h₁.step hnext
  have hle : ∀ older ∈ later ++ latest :: hist, older.label.tx.now.toInt ≤ latest.label.tx.now.toInt := by
    intro older ho
    rcases List.mem_append.mp ho with ho | ho
    · rw [hnow₁ older ho]
    · exact hclock.le_latest older ho
  have hclock₂ : ClockForward (⟨s₁, handing, s₂⟩ :: (later ++ latest :: hist)) :=
    hclock₁.cons (hclock.1 latest List.mem_cons_self) hle
  have hfree₂ : ¬s₂.InUse v.rentPayer := hst.key_free hlive₁.placed rfl hpayer hpayer₁ (by simp)
  -- and the clean-up is due when the voucher has expired
  have hc₂ : Claimed P s₂ V X v₂ { x with amount := x.amount + 1 } :=
    ⟨hv₂, hx₂, hc.mint.trans hm₂.symm, hc.named, hpay₂ ▸ hfree₂, hexp₂ ▸ hc.ends, hc.unguarded⟩
  obtain ⟨last, s', hrun, hprog, hclock', hgone⟩ := h₂.closable_holder hs hclock₂ hc₂ (.inl (Nat.succ_pos _))
  refine ⟨last ++ (⟨s₁, handing, s₂⟩ :: later), s', (hrun₁.step hnext).append hrun, ?_, ?_, hgone⟩
  · rw [List.forall_mem_append, List.forall_mem_cons]
    exact ⟨hprog, ⟨_, rfl⟩, hprog₁⟩
  · rw [List.append_assoc, List.cons_append]
    exact hclock'

theorem Run.closable_nft (h : Run P start hist s) (hs : start.Empty) (hclock : ClockForward hist)
    {z : LoyaltyCard}
    (hz : s.card? A = some z) (hstamp : 0 ≤ z.lastStampTs.toInt)
    (hidle : z.lastStampTs.toInt + cardNftIdleSeconds.toInt < Int64.maxValue.toInt)
    (hi : NamesCard P s A X x z)
    (hx : s.tokens.accounts.lookup X = some x) : Closable P hist s X := by
  have hg := h.grounds hs
  obtain ⟨M, bump, md, hf, rfl, rfl, hm⟩ := hi.holds
  have hM := findProgramAddress_eq hf
  have hmax : Int64.maxValue.toInt = 2 ^ 63 - 1 := rfl
  obtain ⟨since, hsince, hle⟩ : ∃ since, subI64 Int64.maxValue z.lastStampTs = .ok since ∧
    cardNftIdleSeconds ≤ since := by
    have hsub : (Int64.maxValue - z.lastStampTs).toInt = Int64.maxValue.toInt - z.lastStampTs.toInt := by
      rw [Int64.toInt_sub]
      have := z.lastStampTs.toInt_lt
      exact Int.bmod_eq_of_le (by omega) (by omega)
    refine ⟨Int64.maxValue - z.lastStampTs, subI64_eq_ok.mpr hsub, ?_⟩
    rw [Int64.le_iff_toInt_le, hsub]
    omega
  have hfree : ¬s.Refuses A (.ata z.customer M) false z.rentPayer := by
    intro hex
    obtain ⟨y, hy, hguard, -⟩ := hex
    rw [hx, Option.some.injEq] at hy
    subst hy
    cases hguard
  obtain ⟨s', hok⟩ := ((h.nftSound hs.nftSound).sweeps_iff hz hf hm
    (⟨(by simp), hi.payer, since, hsince, hle⟩ : SweepDue s ⟨Int64.maxValue, []⟩ z)).mpr ⟨hi.cycle, hfree⟩
  let retiring : Call := ⟨⟨Int64.maxValue, []⟩, .program (.retireIdleCardNft (z.retirement A M))⟩
  have hnext : Next P s retiring s' := ⟨(fun _ h => by cases h), hok⟩
  obtain ⟨cs, calls, ps, hst⟩ := hnext.step hg.placed
  obtain ⟨z', M', bump', hz', hf', hburns⟩ := hst.effect.burns (.inl ⟨_, rfl, rfl⟩)
  obtain ⟨rfl, rfl⟩ := current_nft hz hf hz' hf'
  refine ⟨[⟨s, retiring, s'⟩], s', .step .nil hnext, List.forall_mem_singleton.mpr ⟨_, rfl⟩, hclock.last rfl,
    ?_⟩
  exact (hst.burned_account hburns (by rw [hM]; rfl) hx rfl).1

/-! ## The whole run -/

/-- **No rent is stranded** while every call of a run minds what it must: each token account that is a
voucher's or a card's to close has that voucher or card, and the program can close it. -/
theorem no_rent_stranded (h : Run P start hist s) (hs : start.Empty) (hnone : start.NamesNone)
    (hclock : ClockForward hist)
    (hmind : Mindful hist) (hx : s.tokens.accounts.lookup X = some x) (hxa : x.closeAuthority = some a) :
    (a.isVoucher = true → (∃ v, s.voucher? a = some v) ∧ Closable P hist s X) ∧
      (a.isCard = true → (∃ z, s.card? a = some z) ∧ Closable P hist s X) := by
  have htidy := h.tidy hs hnone hmind hclock
  constructor
  · intro ha
    obtain ⟨v, hv, hn⟩ := htidy.voucher X x a hx hxa ha
    refine ⟨⟨v, hv⟩, ?_⟩
    have hM : x.mint.isVoucherMint = true := hn.mint ▸ (h.voucherTokens hs).isVoucherMint hv
    obtain ⟨hpayer, hends⟩ := htidy.vouchers a v hv
    have hc : Claimed P s a X v x :=
      ⟨hv, hx, hn.mint, hxa, hn.payer, hends, (htidy.plain X x hx hM).unguarded⟩
    rcases Nat.eq_zero_or_pos x.amount with h0 | hpos
    · by_cases hholder : ∃ Y y, s.tokens.accounts.lookup Y = some y ∧ y.mint = v.mint ∧ 0 < y.amount
      · obtain ⟨Y, y, hy, hym, hyn⟩ := hholder
        have hf : x.frozen = false := by
          by_contra hf
          have := htidy.frozen X x hx hM (by simpa using hf)
          omega
        exact h.closable_emptied hs hclock htidy.plain hc h0 hf (hn.emptied h0) hpayer hy hym hyn
      · -- nobody has the token any more
        refine h.closable_holder hs hclock hc (.inr fun m hm => ?_)
        have hheld : s.tokens.held v.mint = 0 :=
          Tokens.held_eq_zero_iff.mpr fun Y ⟨y, hy, hym, hyn⟩ => hholder ⟨Y, y, hy, hym, hyn⟩
        have hcons := h.conserved hs (hn.mint ▸ hM)
        rwa [Tokens.Conserved, hheld, Tokens.supply, hm, eq_comm] at hcons
    · exact h.closable_holder hs hclock hc (.inl hpos)
  · intro ha
    obtain ⟨z, hz, hn⟩ := htidy.card X x a hx hxa ha
    obtain ⟨-, hstamp, hidle⟩ := htidy.cards a z hz
    exact ⟨⟨z, hz⟩, h.closable_nft hs hclock hz hstamp hidle hn hx⟩

/-- Whether the calls, one after the other, are all ordinary and mind what they must. -/
def Minds (P : Platform) (s : State) : List Call → Bool
  | [] => true
  | c :: calls => c.action.ordinary && c.careful s && (perform P c s).toOption.all fun s' => Minds P s' calls

theorem Run.mindful {l : List Call} (h : Run P start hist s)
    (hcalls : hist.map (fun st => st.label) = l.reverse)
    (hl : Minds P start l = true) : Mindful hist := by
  induction l generalizing start hist with
  | nil =>
    rw [List.reverse_nil, List.map_eq_nil_iff] at hcalls
    rw [hcalls]
    intro _ h; cases h
  | cons c calls ih =>
    -- the first call is the last of the history
    rw [List.reverse_cons] at hcalls
    obtain ⟨later, first, rfl, hlater, hfirst⟩ := List.map_eq_append_iff.mp hcalls
    obtain ⟨st, rfl⟩ := List.length_eq_one_iff.mp (by simpa using congrArg List.length hfirst)
    obtain rfl : st.label = c := by simpa using hfirst
    obtain ⟨hnil, hnext, hrest⟩ := Runs.Run.split h
    have hpre := hnil.nil_inv
    simp only [Minds, Bool.and_eq_true, ← hpre, hnext.2, Except.toOption, Option.all_some] at hl
    rw [Mindful, List.forall_mem_append, List.forall_mem_singleton]
    exact ⟨ih hrest hlater hl.2, hl.1⟩

namespace Sample

/-- The friend `key 8` opens an account for the voucher and is sent it, plainly. -/
def openFor (now : Int64) (c : UInt8) (id : UInt64) : Call :=
  ⟨⟨now, [key c]⟩, .wallet (.openToken (key c) (voucherToken c id) (voucherMint id) (key c) true 100)⟩

def send (now : Int64) (c d : UInt8) (id : UInt64) : Call :=
  ⟨⟨now, [key c]⟩, .wallet
    (.token (.transfer (voucherToken c id) (voucherMint id) (voucherToken d id) (key c) 1 0) false)⟩

/-- A voucher of the customer `key 9` is sent on to `key 8`. -/
def sentOn : List Call :=
  [register 1000 1 0, issue 1010 7, claim 1020 9 7, cashIn 1030 9 0, openFor 1040 8 0, send 1050 9 8 0]

theorem start_namesNone : Sample.start.NamesNone := by decide

end Sample

/-- The account the customer sent the voucher from can be closed. -/
theorem no_rent_stranded_sent_on : ∃ hist s x, Run Sample.platform Sample.start hist s ∧
    s.tokens.accounts.lookup (Sample.voucherToken 9 0) = some x ∧ x.closeAuthority = some (Sample.voucher 0) ∧
    Closable Sample.platform hist s (Sample.voucherToken 9 0) := by
  obtain ⟨hist, s, hrun, hcalls, hp⟩ := Leads.run (P := Sample.platform) (s := Sample.start)
    (l := Sample.sentOn)
    (p := fun s => (s.tokens.accounts.lookup (Sample.voucherToken 9 0)).any fun x =>
      x.closeAuthority == some (Sample.voucher 0)) (by decide +kernel)
  obtain ⟨x, hx, hxc⟩ := (Option.any_eq_true _ _).mp hp
  have hclock : ClockForward hist := .of_calls hcalls (by decide) (by decide)
  have hmind : Mindful hist := hrun.mindful hcalls (by decide +kernel)
  have h := no_rent_stranded hrun Sample.start_empty Sample.start_namesNone hclock hmind hx (eq_of_beq hxc)
  exact ⟨hist, s, x, hrun, hx, eq_of_beq hxc, (h.1 rfl).2⟩

/-- **A redeemed voucher strands rent**: sent on plainly, and presented and redeemed by the next holder, it
leaves an empty account behind that only the voucher could close, and the voucher is gone. -/
theorem voucher_rent_stranded : ∃ hist s x, Run Sample.platform Sample.start hist s ∧ Sample.start.NamesNone ∧
    ClockForward hist ∧ (∀ st ∈ hist, st.label.action.ordinary = true) ∧
    s.tokens.accounts.lookup (Sample.voucherToken 9 0) = some x ∧ x.amount = 0 ∧
    x.closeAuthority = some (Sample.voucher 0) ∧ s.voucher? (Sample.voucher 0) = none := by
  obtain ⟨hist, s, hrun, hcalls, hp⟩ := Leads.run (P := Sample.platform) (s := Sample.start)
    (l := Sample.sentOn ++ [Sample.present 1060 8 0, Sample.redeem 1070 8 0])
    (p := fun s => (s.tokens.accounts.lookup (Sample.voucherToken 9 0)).any (fun x =>
      x.amount == 0 && x.closeAuthority == some (Sample.voucher 0)) && (s.voucher? (Sample.voucher 0)).isNone)
    (by decide +kernel)
  rw [Bool.and_eq_true, Option.isNone_iff_eq_none] at hp
  obtain ⟨x, hx, hxc⟩ := (Option.any_eq_true _ _).mp hp.1
  rw [Bool.and_eq_true, beq_iff_eq, beq_iff_eq] at hxc
  refine ⟨hist, s, x, hrun, Sample.start_namesNone, .of_calls hcalls (by decide) (by decide),
    fun st hst => ?_, hx, hxc.1, hxc.2, hp.2⟩
  have hmem := List.mem_map_of_mem (f := fun st => st.label) hst
  rw [hcalls] at hmem
  have hall : ∀ c ∈ (Sample.sentOn ++ [Sample.present 1060 8 0, Sample.redeem 1070 8 0]).reverse,
      c.action.ordinary = true := by decide
  exact hall _ hmem

end Passdari
