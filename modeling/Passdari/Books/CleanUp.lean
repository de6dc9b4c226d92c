/-
The end of a voucher. A live voucher's token, while there is one, is whole in
one account, and the voucher can always take it back; what can stop the end
of a voucher is only that account, when it cannot be closed: its guard lets a
program send its rent to nobody but its owner.
-/
import Passdari.Books.VoucherTokens

namespace Passdari

open Wire Token2022

variable {P : Platform} {tx : Tx} {s s' start : State} {hist : History} {c : Call} {cs : List Change}
  {calls : List TokenCall} {ps : List Payment} {action : Action} {V V' M X : Address} {v v' : Voucher}
  {b : Business} {m : Mint Address} {x x' : Account Address} {t t' : Tokens Address}

/-! ## The token of a live voucher -/

/-- Every mint of a voucher is conserved. -/
theorem Run.conserved (h : Run P start hist s) (hs : start.Empty) (hM : M.isVoucherMint = true) :
    s.tokens.Conserved M := by
  refine h.induct_empty (I := fun _ s => s.tokens.Conserved M) hs ?_ fun _ _ _ hi hst =>
    run_conserved hst.tokens hi
  have hheld : start.tokens.held M = 0 := by
    refine Store.total_eq_zero_iff.mpr fun a x hx => if_neg ?_
    intro heq
    subst heq
    obtain ⟨⟨k, hk⟩, -⟩ := hs.accounts hx
    rw [hk] at hM
    cases hM
  rw [Tokens.Conserved, hheld, Tokens.supply]
  cases hm : start.tokens.mints.lookup M with
  | none => rfl
  | some m =>
    obtain ⟨k, rfl⟩ := hs.mints hm
    cases hM

/-- The program calls the token program through its own signatures only. -/
theorem Effect.direct (h : Effect P tx s action cs calls ps) :
    ∀ k ∈ calls, k.ctx.cpi = false → k.ctx.signers = tx.signers := by
  have hcpi : ∀ {Q : Prop}, true = false → Q := fun h => by cases h
  cases h with
  | mintCardNft => simp [mintCardNftCalls, ownCtx, pdaCtx]
  | retireIdleCardNft => exact forall_burnCardNftCalls (by simp [pdaCtx]) hcpi (by simp [ownCtx]) hcpi
  | mintVoucher =>
    rw [List.forall_mem_append]
    constructor
    · simp [mintVoucherCalls, ownCtx, pdaCtx]
    · split
      · exact forall_burnCardNftCalls (by simp [pdaCtx]) hcpi (by simp [ownCtx]) hcpi
      · simp
  | presentVoucher => exact forall_presentVoucherCalls hcpi hcpi
  | transferVoucher => exact forall_transferVoucherCalls (fun _ => hcpi) hcpi hcpi hcpi
  | redeemVoucher =>
    rw [List.forall_mem_append]
    exact ⟨forall_redeemCalls hcpi hcpi hcpi, forall_closeMintCalls hcpi⟩
  | closeExpiredVoucher =>
    rw [List.forall_mem_append]
    exact ⟨forall_burnExpiredCalls hcpi (by simp [pdaCtx]) hcpi, forall_closeMintCalls hcpi⟩
  | cancelPresentation => simp [pdaCtx]
  | _ => simp

/-- Whoever has the guard on signed for it. -/
def GuardsSigned (t : Tokens Address) : Prop :=
  ∀ X x, t.accounts.lookup X = some x → x.mint.isVoucherMint = true → x.cpiGuard = true →
    x.owner.canSign = true

theorem Run.guardsSigned (h : Run P start hist s) (hs : start.Empty) : GuardsSigned s.tokens := by
  refine h.induct_empty (I := fun _ s => GuardsSigned s.tokens) hs ?_ ?_
  · intro X x hx hM
    obtain ⟨⟨k, hk⟩, -⟩ := hs.accounts hx
    rw [hk] at hM
    cases hM
  · intro hist s c s' cs calls ps _ _ _ hi hst X x' hx' hM hg
    rcases run_guard_before hst.tokens hx' hg with ⟨k, hk, hsig, hcpi⟩ | ⟨x, hx, hg, hmint, howner⟩
    · rw [hst.effect.direct k hk hcpi] at hsig
      exact hst.signers _ hsig
    · exact howner ▸ hi X x hx (hmint ▸ hM) hg

/-- What is known of a live voucher in a reachable state: its shop, its mint, and the account with its
token. -/
structure Live (P : Platform) (s : State) (V : Address) (v : Voucher) (b : Business) (m : Mint Address) :
    Prop where
  placed : s.WellPlaced
  voucher : s.voucher? V = some v
  shop : s.business? v.business = some b
  address : createProgramAddress P (.voucher v.business v.voucherId) v.bump = some V
  tokens : s.VoucherTokens P
  mint : s.tokens.mints.lookup v.mint = some m
  obeys : IsVoucherMint V m
  conserved : s.tokens.Conserved v.mint
  guards : GuardsSigned s.tokens

theorem Run.live (h : Run P start hist s) (hs : start.Empty) (hv : s.voucher? V = some v)
    (hb : s.business? v.business = some b) : ∃ m, Live P s V v b m := by
  have ht := h.voucherTokens hs
  have hw := h.wellPlaced hs.wellPlaced
  obtain ⟨m, hm, hvm⟩ := ht.minted V v hv
  obtain ⟨⟨bump, hf⟩, -⟩ := h.numbered hs V v hv
  refine ⟨m, hw, hv, hb, ?_, ht, hm, hvm, h.conserved hs (ht.isVoucherMint hv), h.guardsSigned hs⟩
  exact createProgramAddress_eq_some.mpr
    ⟨(createProgramAddress_eq_some.mp (createProgramAddress_of_find hf)).1,
      hw.voucher (State.voucher?_eq_some.mp hv)⟩

namespace Live

variable (h : Live P s V v b m)

include h

theorem isVoucherMint : v.mint.isVoucherMint = true := h.tokens.isVoucherMint h.voucher

theorem isVoucher : V.isVoucher = true := by
  rw [h.placed.voucher (State.voucher?_eq_some.mp h.voucher)]
  rfl

theorem no_account : s.tokens.accounts.lookup v.mint = none := h.tokens.accounts.not_mint h.isVoucherMint

theorem held_eq : s.tokens.held v.mint = m.supply := by
  have := h.conserved
  rwa [Tokens.Conserved, Tokens.supply, h.mint] at this

/-- An account that holds any of it holds all of it. -/
theorem whole (hx : s.tokens.accounts.lookup X = some x) (hmint : x.mint = v.mint) (hpos : 0 < x.amount) :
    x.amount = 1 ∧ m.supply = 1 := by
  have hle := holding_le_held hx
  have := h.obeys.supply
  rw [hmint, h.held_eq] at hle
  omega

/-- There is one account that holds it. -/
theorem alone (hx : s.tokens.accounts.lookup X = some x) (hmint : x.mint = v.mint) (hpos : 0 < x.amount)
    {Y : Address} {y : Account Address} (hy : s.tokens.accounts.lookup Y = some y) (hymint : y.mint = v.mint)
    (hypos : 0 < y.amount) : Y = X := by
  refine Tokens.Carries.unique ⟨y, hy, hymint, hypos⟩ ⟨x, hx, hmint, hpos⟩ ?_
  rw [h.held_eq]
  exact h.obeys.supply

theorem exists_holder (h1 : m.supply ≠ 0) : ∃ X x, s.tokens.accounts.lookup X = some x ∧ x.mint = v.mint ∧
    0 < x.amount := by
  have hpos : 0 < s.tokens.held v.mint := by
    rw [h.held_eq]
    omega
  obtain ⟨X, x, hx, hw⟩ := Store.exists_of_total_pos hpos
  unfold holding at hw
  split at hw
  · next hmint => exact ⟨X, x, hx, hmint, hw⟩
  · exact absurd hw (Nat.lt_irrefl 0)

/-- The voucher's own signature gets past the guard of an account it is the owner of. -/
theorem unguarded (hx : s.tokens.accounts.lookup X = some x) (hmint : x.mint = v.mint) :
    ¬(V = x.owner ∧ x.cpiGuard = true) := by
  intro hex
  obtain ⟨rfl, hg⟩ := hex
  have := h.guards X x hx (hmint ▸ h.isVoucherMint) hg
  rw [Address.not_canSign h.isVoucher] at this
  cases this

end Live

/-! ## Addresses -/

/-- A new record is at an address off the curve. -/
theorem Effect.offCurve (hc : s.Current) (h : Effect P tx s action cs calls ps) :
    ∀ y ∈ cs, y.before = none → ∀ r, y.after = some r → P.offCurve y.addr = true := by
  have hfound : ∀ {seeds : UInt8 → Address} {a bump}, findProgramAddress P seeds = some (a, bump) →
      P.offCurve a = true := fun hf => (createProgramAddress_eq_some.mp (createProgramAddress_of_find hf)).1
  have hm := h.not_migration hc
  cases h with
  | initializeCounter _ hf | registerBusiness _ _ hf => simp [hfound hf]
  | issueReceipt _ _ _ _ _ hf => simp [hfound hf]
  | claimReceipt _ _ _ _ _ hf => simp [hfound hf]
  | mintVoucher _ _ _ _ hf => simp [hfound hf]
  | migrateCard => exact absurd rfl (hm.1 _)
  | migrateBusiness => exact absurd rfl (hm.2 _)
  | _ => simp

/-- Where records are is off the curve. -/
def State.OffCurve (P : Platform) (s : State) : Prop := ∀ a r, s.record? a = some r → P.offCurve a = true

theorem Step.offCurve (hc : s.Current) (hi : s.OffCurve P) (h : Step P s c s' cs calls ps) :
    s'.OffCurve P := by
  intro a r hr
  by_cases ha : a ∈ cs.map Change.addr
  · obtain ⟨y, hy, rfl⟩ := List.mem_map.mp ha
    cases hbefore : y.before with
    | none => exact h.effect.offCurve hc y hy hbefore r ((h.changed.record? hy).symm.trans hr)
    | some q => exact hi _ q ((h.changed.before y hy).trans hbefore)
  · exact hi a r ((h.changed.record?_frame ha).symm.trans hr)

theorem Run.offCurve (h : Run P start hist s) (hs : start.Empty) : s.OffCurve P := by
  refine h.induct_empty (I := fun _ s => s.OffCurve P) hs ?_ fun _ _ hcur hi hst => hst.offCurve hcur hi
  intro a r hr
  rw [State.record?, hs.program] at hr
  cases hr

/-! ## When the primitives succeed -/

theorem invoke_ok {signers : List Address} {op : Op Address} {t : Tokens Address}
    (h : Did ⟨signers, true⟩ s.tokens op t) : invoke signers s op = .ok { s with tokens := t } := by
  rw [invoke, exec_eq_ok.mpr h]
  rfl

theorem invokeClose_ok {signers : List Address} {a dest authority : Address} {t : Tokens Address}
    (h : Did ⟨signers, true⟩ s.tokens (.close a dest authority) t) :
    invokeClose signers s a dest authority =
      .ok { s.move .refund a dest (s.lamports a) with tokens := t } := by
  rw [invokeClose, exec_eq_ok.mpr h]
  rfl

/-- A record no longer than the one that is there can be written over it. -/
theorem store_ok {α : Type} {T : AccountType α} {a : Address} {y : α} {r : Record} (hr : s.record? a = some r)
    (hle : (T.record y).bytes.length ≤ r.bytes.length) : ∃ s', store T s a y = .ok s' := by
  obtain ⟨data, hd, hp⟩ := Option.bind_eq_some_iff.mp hr
  exact ⟨_, store_eq_ok.mpr ⟨data, hd, Nat.le_trans hle (Record.length_le_of_parse hp), rfl⟩⟩

theorem store_program {α : Type} {T : AccountType α} {a e : Address} {x : α} (h : store T s a x = .ok s')
    (he : e ≠ a) :
    s'.program.lookup e = s.program.lookup e := by
  obtain ⟨data, -, -, rfl⟩ := store_eq_ok.mp h
  rw [Store.lookup_insert, if_neg he]

/-- A shop's record written over has the room of the one it replaces, when its strings stay. -/
theorem store_business_ok {b : Business} {a : Address} (b' : Business) (hb : s.record? a = some (.business b))
    (hname : b'.name = b.name) (hcategory : b'.category = b.category)
    (hlabel : b'.rewardLabel = b.rewardLabel)
    (hcurrency : b'.currency = b.currency) : ∃ s', store Business.account s a b' = .ok s' := by
  obtain ⟨data, hd, hp⟩ := Option.bind_eq_some_iff.mp hb
  have hlen := Record.length_le_of_parse hp
  refine ⟨_, store_eq_ok.mpr ⟨data, hd, Nat.le_trans (Nat.le_of_eq ?_) hlen, rfl⟩⟩
  show (Business.discriminator ++ Business.layout.enc b').length =
    (Business.discriminator ++ Business.layout.enc b).length
  rw [List.length_append, List.length_append, Business.layout_length, Business.layout_length, hname,
    hcategory, hlabel, hcurrency]

/-- The holder's account is thawed by the voucher. -/
theorem thaw_ok (tx : Tx) (hvm : IsVoucherMint V m) (hm : s.tokens.mints.lookup M = some m)
    (hx : s.tokens.accounts.lookup X = some x) (hmint : x.mint = M) (hf : x.frozen = true) :
    invoke (V :: tx.signers) s (.thaw X M V) =
      .ok { s with tokens := s.tokens.setAccount X { x with frozen := false } } :=
  invoke_ok (.thaw hx hf hmint hm hvm.freezeAuthority List.mem_cons_self)

/-- And everything on it burned, as the permanent delegate of the mint. -/
theorem burn_ok (tx : Tx) (hvm : IsVoucherMint V m) (hm : s.tokens.mints.lookup M = some m)
    (hx : s.tokens.accounts.lookup X = some x) (hmint : x.mint = M) (hf : x.frozen = false)
    (hguard : ¬(V = x.owner ∧ x.cpiGuard = true)) :
    invoke (V :: tx.signers) s (.burn X M V x.amount m.decimals) =
      .ok { s with
        tokens := (s.tokens.setMint M { m with supply := m.supply - x.amount }).setAccount X
          { x with amount := 0 } } := by
  have hsp : Spends ⟨V :: tx.signers, true⟩ m x V x.amount x :=
    ⟨.permanent hvm.permanentDelegate, List.mem_cons_self, fun h => hguard ⟨h.1, h.2.1⟩⟩
  have : Did ⟨V :: tx.signers, true⟩ s.tokens _ _ := .burn hx hm hf (Nat.le_refl _) hmint rfl hsp
  rw [Nat.sub_self] at this
  exact invoke_ok this

/-- An emptied account that names the voucher is closed, when its guard does not mind where the rent goes. -/
theorem closeHolder_ok (tx : Tx) {d : Address} {closer : Option Address}
    (hx : s.tokens.accounts.lookup X = some x)
    (h0 : x.amount = 0) (hcloser : x.closeAuthority = closer) (hne : X ≠ d)
    (hguard : closer = some V → x.cpiGuard = true → d = x.owner) :
    ∃ s₁, (if closer = some V then invokeClose (V :: tx.signers) s X d V else pure s) = .ok s₁ ∧
      s₁.program = s.program ∧ s₁.tokens.mints = s.tokens.mints ∧
      ∀ a, s.tokens.accounts.lookup a = none → s₁.tokens.accounts.lookup a = none := by
  split
  · next hV =>
    have hd : Did ⟨V :: tx.signers, true⟩ s.tokens (.close X d V)
        { s.tokens with accounts := s.tokens.accounts.erase X } := by
      refine .closeAccount hne hx h0 ?_ List.mem_cons_self fun hg => hg.2.2 (hguard hV hg.1)
      rw [Account.closer, hcloser, hV]
      rfl
    refine ⟨_, invokeClose_ok hd, rfl, rfl, fun a ha => ?_⟩
    show (s.tokens.accounts.erase X).lookup a = none
    rw [Store.lookup_erase]
    split
    · rfl
    · exact ha
  · exact ⟨s, rfl, rfl, rfl, fun _ ha => ha⟩

theorem closeVoucherMint_ok (tx : Tx) {rentPayer : Address} (hvm : IsVoucherMint V m)
    (hm : s.tokens.mints.lookup M = some m)
    (h0 : m.supply = 0) (hM : s.tokens.accounts.lookup M = none) (hne : M ≠ rentPayer) :
    ∃ s₁, closeVoucherMint (V :: tx.signers) V M rentPayer m s = .ok s₁ ∧ s₁.program = s.program := by
  rw [closeVoucherMint, if_pos hvm.closeAuthority]
  exact ⟨_, invokeClose_ok (.closeMint hne hM hm hvm.closeAuthority List.mem_cons_self h0), rfl⟩

/-! ## The two ends -/

/-- The account with the voucher's token cannot be closed by the program: it names the voucher as its close
authority, its guard is on, and the rent would go to somebody who is not its owner. -/
def Blocked (s : State) (V : Address) (v : Voucher) : Prop :=
  ∃ X x, s.tokens.accounts.lookup X = some x ∧ x.mint = v.mint ∧ 0 < x.amount ∧ x.closeAuthority = some V ∧
    x.cpiGuard = true ∧ x.owner ≠ v.rentPayer

/-- The clean-up of the voucher at `V` with what it records, for one choice of token account. -/
abbrev Voucher.cleanUp (v : Voucher) (V holderToken : Address) : CloseExpiredVoucher :=
  ⟨V, v.business, v.mint, holderToken, v.rentPayer⟩

abbrev Voucher.redemption (v : Voucher) (V holderToken authority relayer : Address) : RedeemVoucher :=
  ⟨v.business, V, v.mint, holderToken, authority, relayer, v.rentPayer⟩

/-- The mint and the shop's record after the token is gone. -/
theorem Live.tail_ok (h : Live P s V v b m) (tx : Tx) (hpayer : ¬s.InUse v.rentPayer) {s₁ : State}
    (hprog : s₁.program = s.program) (hm : s₁.tokens.mints.lookup v.mint = some { m with supply := 0 })
    (hM : s₁.tokens.accounts.lookup v.mint = none) (b' : Business) (hname : b'.name = b.name)
    (hcat : b'.category = b.category) (hlabel : b'.rewardLabel = b.rewardLabel)
      (hcur : b'.currency = b.currency) :
    ∃ s₂ s₃, closeVoucherMint (V :: tx.signers) V v.mint v.rentPayer { m with supply := 0 } s₁ = .ok s₂ ∧
      store Business.account s₂ v.business b' = .ok s₃ := by
  have hvm : IsVoucherMint V { m with supply := 0 } := { h.obeys with supply := Nat.zero_le 1 }
  have hne : v.mint ≠ v.rentPayer := by
    intro he
    have := (State.tokens_of_not_inUse (he ▸ hpayer)).1
    rw [h.mint] at this
    cases this
  obtain ⟨s₂, hclose, hprog₂⟩ := closeVoucherMint_ok tx hvm hm rfl hM hne
  have hb : s₂.record? v.business = some (.business b) := by
    rw [State.record?, hprog₂, hprog]
    exact State.business?_eq_some.mp h.shop
  obtain ⟨s₃, hst⟩ := store_business_ok _ hb hname hcat hlabel hcur
  exact ⟨s₂, s₃, hclose, hst⟩

/-- Not blocked, the account with the token is emptied once it is thawed, and closed where the voucher may. -/
theorem Live.holder_ok (h : Live P s V v b m) (tx : Tx) (hpayer : ¬s.InUse v.rentPayer)
    (hfree : ¬Blocked s V v)
    (hx : s.tokens.accounts.lookup X = some x) (hmint : x.mint = v.mint) (hpos : 0 < x.amount) {u : State}
    (hprog : u.program = s.program) (hm : u.tokens.mints.lookup v.mint = some m)
    (hM : u.tokens.accounts.lookup v.mint = none)
    (hthawed : u.tokens.accounts.lookup X = some { x with frozen := false }) :
    ∃ s₁ s₂, invoke (V :: tx.signers) u (.burn X v.mint V x.amount m.decimals) = .ok s₁ ∧
      (if x.closeAuthority = some V then invokeClose (V :: tx.signers) s₁ X v.rentPayer V else pure s₁) = .ok
        s₂ ∧
      s₂.program = s.program ∧ s₂.tokens.mints.lookup v.mint = some { m with supply := 0 } ∧
      s₂.tokens.accounts.lookup v.mint = none := by
  obtain ⟨hone, hsupply⟩ := h.whole hx hmint hpos
  have hXM : v.mint ≠ X := by
    intro heq
    subst heq
    rw [hM] at hthawed
    cases hthawed
  have hne : X ≠ v.rentPayer := by
    intro heq
    subst heq
    rw [(State.tokens_of_not_inUse hpayer).2] at hx
    cases hx
  have hguard := h.unguarded hx hmint
  have hburn := burn_ok tx h.obeys hm hthawed hmint rfl hguard
  have hzero : m.supply - x.amount = 0 := by omega
  rw [show ({ x with frozen := false } : Account Address).amount = x.amount from rfl, hzero] at hburn
  obtain ⟨s₂, hclose, hprog₂, hmints, hnone⟩ := closeHolder_ok tx (V := V) (d := v.rentPayer)
    (s := { u with
      tokens := (u.tokens.setMint v.mint { m with supply := 0 }).setAccount X
        { x with frozen := false, amount := 0 } })
    (X := X) (Store.lookup_insert_self _ _ _) rfl rfl hne fun hV hg => by
      by_contra ho
      exact hfree ⟨X, x, hx, hmint, hpos, hV, hg, Ne.symm ho⟩
  refine ⟨_, s₂, hburn, hclose, hprog₂.trans hprog, ?_, hnone _ ?_⟩
  · rw [hmints]
    exact Store.lookup_insert_self _ _ _
  · simp only [Tokens.setAccount_accounts, Tokens.setMint_accounts, Store.lookup_insert, if_neg hXM, hM]

/-- Once the token that is left is burned, the rest of the clean-up goes through. -/
theorem Live.closeExpired_of_burn (h : Live P s V v b m) (tx : Tx) (hpayer : ¬s.InUse v.rentPayer)
    (hexp : v.expiresAt < tx.now)
    {s₁ : State} (hburn : burnExpired (v.cleanUp V X) (V :: tx.signers) m.decimals s = .ok s₁)
    (hprog : s₁.program = s.program)
    (hm : s₁.tokens.mints.lookup v.mint = some { m with supply := 0 })
    (hM : s₁.tokens.accounts.lookup v.mint = none) :
    ∃ s', closeExpiredVoucher P tx (v.cleanUp V X) s = .ok s' := by
  have hV : V ≠ v.rentPayer := fun he => hpayer
    (he ▸ State.inUse_of_record? (State.voucher?_eq_some.mp h.voucher))
  obtain ⟨s₂, s₃, hclose, hst⟩ := h.tail_ok tx hpayer hprog hm hM
    { b with openVouchers := satSubU32 b.openVouchers 1 } rfl rfl rfl rfl
  refine ⟨close s₃ V v.rentPayer, ?_⟩
  simp only [closeExpiredVoucher, Voucher.cleanUp, Except.bind_eq_ok, load_eq_ok, loadMint_eq_ok,
    systemAccount_eq_ok, hasOne_eq_ok, closeConstraint_eq_ok, require_eq_ok, voucherSigner, withSigner_eq_ok,
    Except.pure_eq_ok, exists_const]
  exact ⟨v, State.voucher?_eq_some.mp h.voucher, b, State.business?_eq_some.mp h.shop, m, h.mint, hpayer, rfl,
    ⟨rfl, hV⟩, (), check_pos rfl, hexp, _, ⟨V, h.address, rfl⟩, s₁, hburn, _, hm, rfl, s₂, hclose, s₃, hst,
    rfl⟩

theorem State.tokenOwned_of_account (hx : s.tokens.accounts.lookup X = some x) : s.TokenOwned X :=
  .inr (AList.lookup_isSome.mp (by rw [hx]; rfl))

/-- The token is burned out of the account that has it. -/
theorem Live.burnExpired_holder (h : Live P s V v b m) (tx : Tx) (hpayer : ¬s.InUse v.rentPayer)
    (hfree : ¬Blocked s V v)
    (hx : s.tokens.accounts.lookup X = some x) (hmint : x.mint = v.mint) (hpos : 0 < x.amount) :
    ∃ s₁, burnExpired (v.cleanUp V X) (V :: tx.signers) m.decimals s = .ok s₁ ∧ s₁.program = s.program ∧
      s₁.tokens.mints.lookup v.mint = some { m with supply := 0 } ∧
      s₁.tokens.accounts.lookup v.mint = none := by
  have howned := State.tokenOwned_of_account hx
  have hXM : v.mint ≠ X := by
    intro heq
    subst heq
    rw [h.no_account] at hx
    cases hx
  cases hf : x.frozen with
  | true =>
    obtain ⟨s₁, s₂, hburn, hclose, hprog, hm, hM⟩ := h.holder_ok tx hpayer hfree hx hmint hpos
      (u := { s with tokens := s.tokens.setAccount X { x with frozen := false } }) rfl h.mint
      (by simp only [Tokens.setAccount_accounts, Store.lookup_insert, if_neg hXM, h.no_account])
      (Store.lookup_insert_self _ _ _)
    refine ⟨s₂, ?_, hprog, hm, hM⟩
    unfold burnExpired Voucher.cleanUp
    simp only [if_pos howned, Except.bind_eq_ok, loadToken_eq_ok, require_eq_ok, exists_const]
    refine ⟨x, hx, hmint, ?_⟩
    rw [if_pos hpos, if_pos hf]
    exact Except.bind_eq_ok.mpr ⟨_, thaw_ok tx h.obeys h.mint hx hmint hf,
      Except.bind_eq_ok.mpr ⟨s₁, hburn, hclose⟩⟩
  | false =>
    obtain ⟨s₁, s₂, hburn, hclose, hprog, hm, hM⟩ := h.holder_ok tx hpayer hfree hx hmint hpos
      (u := s) rfl h.mint h.no_account (by rw [hx, ← hf])
    refine ⟨s₂, ?_, hprog, hm, hM⟩
    unfold burnExpired Voucher.cleanUp
    simp only [if_pos howned, Except.bind_eq_ok, loadToken_eq_ok, require_eq_ok, exists_const]
    refine ⟨x, hx, hmint, ?_⟩
    rw [if_pos hpos, if_neg (by rw [hf]; exact (by simp))]
    exact Except.bind_eq_ok.mpr ⟨s, rfl, Except.bind_eq_ok.mpr ⟨s₁, hburn, hclose⟩⟩

theorem Live.closeExpired_ok (h : Live P s V v b m) (tx : Tx) (hpayer : ¬s.InUse v.rentPayer)
    (hexp : v.expiresAt < tx.now)
    (hfree : ¬Blocked s V v) : ∃ holderToken s',
    closeExpiredVoucher P tx (v.cleanUp V holderToken) s = .ok s' := by
  by_cases h0 : m.supply = 0
  · -- none is left, so any address without a token account will do
    have hburn : burnExpired (v.cleanUp V v.rentPayer) (V :: tx.signers) m.decimals s = .ok s := by
      have hno : ¬s.TokenOwned v.rentPayer := fun hu => hpayer (.inr (.inl hu))
      rw [burnExpired, Voucher.cleanUp, if_neg hno]
      rfl
    exact ⟨_, h.closeExpired_of_burn tx hpayer hexp hburn rfl (by rw [h.mint, ← h0]) h.no_account⟩
  · obtain ⟨X, x, hx, hmint, hpos⟩ := h.exists_holder h0
    obtain ⟨s₁, hburn, hprog, hm, hM⟩ := h.burnExpired_holder tx hpayer hfree hx hmint hpos
    exact ⟨X, h.closeExpired_of_burn tx hpayer hexp hburn hprog hm hM⟩

theorem Live.redeem_ok (h : Live P s V v b m) (hpayer : ¬s.InUse v.rentPayer)
    (hseeds : createProgramAddress P (.business b.authority) b.bump = some v.business) {relayer : Address}
    (hauth : b.authority ∈ tx.signers) (hrel : relayer ∈ tx.signers) (hexp : tx.now ≤ v.expiresAt)
    (hx : s.tokens.accounts.lookup X = some x) (hmint : x.mint = v.mint) (hpos : 0 < x.amount)
    (hf : x.frozen = true) (hfree : ¬Blocked s V v) (hcount : b.totalRedemptions.toNat + 1 < 2 ^ 32) :
    ∃ s', redeemVoucher P tx (v.redemption V X b.authority relayer) s = .ok s' := by
  have hV : V ≠ v.rentPayer :=
    fun he => hpayer (he ▸ State.inUse_of_record? (State.voucher?_eq_some.mp h.voucher))
  have hXM : v.mint ≠ X := by
    intro heq
    subst heq
    rw [h.no_account] at hx
    cases hx
  obtain ⟨hone, -⟩ := h.whole hx hmint hpos
  have hthaw := thaw_ok tx h.obeys h.mint hx hmint hf
  obtain ⟨s₁, s₂, hburn, hclose, hprog, hm, hM⟩ := h.holder_ok tx hpayer hfree hx hmint hpos
    (u := { s with tokens := s.tokens.setAccount X { x with frozen := false } }) rfl h.mint
    (by simp only [Tokens.setAccount_accounts, Store.lookup_insert, if_neg hXM, h.no_account])
    (Store.lookup_insert_self _ _ _)
  generalize ({ s with tokens := s.tokens.setAccount X { x with frozen := false } } : State) =
    s₀ at hthaw hburn
  rw [hone] at hburn
  have htotal : addU32 b.totalRedemptions 1 = .ok (b.totalRedemptions + 1) := by
    rw [addU32, check_pos (by simpa using hcount)]
    rfl
  obtain ⟨s₃, s₄, hmclose, hst⟩ := h.tail_ok tx hpayer hprog hm hM
    { b with totalRedemptions := b.totalRedemptions + 1, openVouchers := satSubU32 b.openVouchers 1 } rfl
      rfl rfl rfl
  refine ⟨close s₄ V v.rentPayer, ?_⟩
  simp only [redeemVoucher, Except.bind_eq_ok, ownBusiness_eq_ok, load_eq_ok, loadMint_eq_ok,
    loadToken_eq_ok, signer_eq_ok, systemAccount_eq_ok, hasOne_eq_ok, closeConstraint_eq_ok,
    holderConstraints, require_eq_ok, voucherSigner, withSigner_eq_ok, exists_const]
  refine ⟨b, ⟨State.business?_eq_some.mp h.shop, hseeds, rfl⟩, v, State.voucher?_eq_some.mp h.voucher, m,
    h.mint, x, hx,
    hauth, hrel, hpayer, rfl, rfl, ⟨rfl, hV⟩, (), ⟨hone, hf, check_pos hmint⟩, hexp, _, ⟨V, h.address, rfl⟩,
    _, hthaw, s₁, hburn, ?_⟩
  refine Except.ite_bind_eq_ok.mpr ⟨s₂, hclose, ?_⟩
  simp only [Except.bind_eq_ok, loadMint_eq_ok, Except.pure_eq_ok]
  exact ⟨_, hm, s₃, hmclose, _, htotal, s₄, hst, rfl⟩

/-! ## What blocks them -/

/-- With the guard on, the rent of an account goes to its owner, or the account stays. -/
theorem run_close_guarded {l : List TokenCall} {dest : Address}
    (hr : run t (l ++ [⟨pdaCtx tx V, .close X dest V⟩]) = .ok t') (hmoves : ∀ k ∈ l, k.op.moves = true)
    (hx : t.accounts.lookup X = some x) (hg : x.cpiGuard = true) : dest = x.owner := by
  obtain ⟨t₁, hr₁, hr₂⟩ := run_append_eq_ok.mp hr
  obtain ⟨x₁, hx₁, hsame⟩ := run_same_rights hr₁ hx hmoves
  cases run_singleton_eq_ok.mp hr₂ with
  | closeAccount _ hx₂ _ _ _ hguard =>
    rw [hx₁, Option.some.injEq] at hx₂
    subst hx₂
    by_contra hne
    exact hguard ⟨hsame.cpiGuard.trans hg, rfl, fun he => hne (he.trans hsame.owner)⟩
  | closeMint _ hnone =>
    rw [hx₁] at hnone
    cases hnone

/-- A voucher that was cleaned up was not blocked. -/
theorem Live.free_of_expired {accs : CloseExpiredVoucher} (h : Live P s accs.voucher v b m)
    (he : Effect P tx s (.program (.closeExpiredVoucher accs)) cs calls ps) : ¬Blocked s accs.voucher v := by
  intro hex
  obtain ⟨X, x, hx, hmint, hpos, hcloser, hg, howner⟩ := hex
  cases he with
  | closeExpiredVoucher hv _ _ _ hvm hpayer _ _ _ hy _ hr hm' h0 =>
    have hv := State.voucher?_eq_some.mpr hv
    rw [h.voucher, Option.some.injEq] at hv
    subst hv
    by_cases hX : X = accs.holderToken
    · rw [← hX, hx] at hy
      subst hy
      simp only [burnExpiredCalls, Option.elim_some, if_pos hpos, if_pos hcloser, ← hX] at hr
      refine howner ((run_close_guarded hr ?_ hx hg).symm.trans hpayer.symm)
      rw [List.forall_mem_append]
      refine ⟨?_, by simp [Op.moves]⟩
      split <;> simp [Op.moves]
    · -- the token is not burned, so there is still a supply
      have hXM : X ≠ accs.mint := by
        rw [← hvm]
        intro heq
        subst heq
        rw [h.no_account] at hx
        cases hx
      have hframe := (run_frame (a := X) hr
        (forall_burnExpiredCalls (by simp [Op.touched, hX]) (by simp [Op.touched, hX, hXM])
          (by simp [Op.touched, hX]))).2
      have hheld := holding_le_held (hframe.trans hx)
      have hcons := run_conserved hr h.conserved
      rw [← hvm] at hm'
      rw [Tokens.Conserved, Tokens.supply, hm', Option.elim_some, h0] at hcons
      rw [hmint, hcons] at hheld
      omega

theorem Live.free_of_redeemed {accs : RedeemVoucher} (h : Live P s accs.voucher v b m)
    (he : Effect P tx s (.program (.redeemVoucher accs)) cs calls ps) : ¬Blocked s accs.voucher v := by
  intro hex
  obtain ⟨Y, y, hy, hymint, hypos, hcloser, hg, howner⟩ := hex
  cases he with
  | redeemVoucher _ _ _ hv _ _ _ _ _ hvm hpayer hx hone _ hmint _ _ hr =>
    have hv := State.voucher?_eq_some.mpr hv
    rw [h.voucher, Option.some.injEq] at hv
    subst hv
    obtain rfl := h.alone hx (hmint.trans hvm.symm) (by rw [hone]; exact Nat.one_pos) hy hymint hypos
    rw [hx, Option.some.injEq] at hy
    subst hy
    simp only [redeemCalls, if_pos hcloser] at hr
    refine howner ((run_close_guarded (l := [_, _]) hr ?_ hx hg).symm.trans hpayer.symm)
    simp only [List.forall_mem_cons]
    exact ⟨rfl, rfl, (by simp)⟩

end Passdari
