/-
From a full card to the reward. The voucher a customer cashes in for can be
presented, a presentation can be taken back at any time, and a presented
voucher can be redeemed; so with a shop and a relayer that go along a full
card comes to its reward.
-/
import Passdari.Books.CashingIn
import Passdari.Books.Closings
import Passdari.Books.Drain
import Passdari.Lib.HeldTokens

namespace Passdari

open Wire Token2022

variable {P : Platform} {tx : Tx} {s s' start : State} {hist : History} {A V M N X : Address}
  {m : Mint Address} {relayer : Address} {b : Business} {z : LoyaltyCard} {uri : Text} {v : Voucher}
  {x : Account Address} {c : Call} {action : Action} {cs : List Change} {calls : List TokenCall}
  {ps : List Payment} {t' : Tokens Address}

/-! ## Presenting and taking back -/

/-- The account of a voucher's holder while it is presented. -/
def presentedAccount (x : Account Address) (V : Address) : Account Address :=
  { x with closeAuthority := some (x.closeAuthority.getD V), frozen := true }

def releasedAccount (x : Account Address) (V : Address) : Account Address :=
  { x with closeAuthority := some (x.closeAuthority.getD V) }

theorem freeze_ok (tx : Tx) (hvm : IsVoucherMint V m) (hm : s.tokens.mints.lookup M = some m)
    (hx : s.tokens.accounts.lookup X = some x) (hmint : x.mint = M) (hf : x.frozen = false) :
    invoke (V :: tx.signers) s (.freeze X M V) =
      .ok { s with tokens := s.tokens.setAccount X { x with frozen := true } } :=
  invoke_ok (.freeze hx hf hmint hm hvm.freezeAuthority List.mem_cons_self)

/-- An account is frozen under its close authority, which is the voucher when it had none. -/
theorem Live.grantAndFreeze_ok (h : Live P s V v b m) (tx : Tx) (hx : s.tokens.accounts.lookup X = some x)
    (hmint : x.mint = v.mint) (hf : x.frozen = false) (howner : x.owner ∈ tx.signers)
    (hopen : x.closeAuthority = none → x.cpiGuard = false) :
    ∃ s₁, (if x.closeAuthority = none then invoke tx.signers s (.setCloseAuthority X (some V) x.owner)
        else pure s) = .ok s₁ ∧
      invoke (V :: tx.signers) s₁ (.freeze X v.mint V) =
        .ok { s with tokens := s.tokens.setAccount X (presentedAccount x V) } := by
  cases hc : x.closeAuthority with
  | some d =>
    have hsame : presentedAccount x V = { x with frozen := true } := by
      rw [presentedAccount, hc]
      rfl
    exact ⟨s, rfl, hsame ▸ freeze_ok tx h.obeys h.mint hx hmint hf⟩
  | none =>
    have hgrant : Did ⟨tx.signers, true⟩ s.tokens (.setCloseAuthority X (some V) x.owner) _ :=
      .setCloseAuthority hx hf (by rw [Account.closer, hc]; rfl) howner fun hex => by
        rw [hopen hc] at hex
        cases hex.1
    refine ⟨_, invoke_ok hgrant, ?_⟩
    have hfreeze :=
      freeze_ok tx (s := { s with tokens := s.tokens.setAccount X { x with closeAuthority := some V } })
      h.obeys h.mint (Store.lookup_insert_self _ _ _) hmint hf
    rw [hfreeze, presentedAccount, hc, Tokens.setAccount, Tokens.setAccount, AList.insert_insert]
    rfl

theorem Live.present_ok (h : Live P s V v b m) (tx : Tx) (hexp : tx.now ≤ v.expiresAt)
    (hx : s.tokens.accounts.lookup X = some x) (hmint : x.mint = v.mint) (hone : x.amount = 1)
    (hf : x.frozen = false) (howner : x.owner ∈ tx.signers)
    (hopen : x.closeAuthority = none → x.cpiGuard = false) :
    presentVoucher P tx ⟨V, v.mint, X, x.owner⟩ s =
      .ok { s with tokens := s.tokens.setAccount X (presentedAccount x V) } := by
  obtain ⟨s₁, hgrant, hfreeze⟩ := h.grantAndFreeze_ok tx hx hmint hf howner hopen
  simp only [presentVoucher, Except.bind_eq_ok, load_eq_ok, loadMint_eq_ok, loadToken_eq_ok, signer_eq_ok,
    hasOne_eq_ok, holderConstraints, ownerConstraint, require_eq_ok, voucherSigner, withSigner_eq_ok,
    exists_const]
  exact ⟨v, State.voucher?_eq_some.mp h.voucher, m, h.mint, x, hx, howner, rfl, (),
    ⟨hone, hf, check_pos hmint⟩,
    (), check_pos rfl, hexp, _, ⟨V, h.address, rfl⟩, Except.ite_bind_eq_ok.mpr ⟨s₁, hgrant, hfreeze⟩⟩

/-- An account that names nobody, with its guard on, does not give the right to close it away through a
program. -/
theorem grant_refused {accs : PresentVoucher}
    (he : Effect P tx s (.program (.presentVoucher accs)) cs calls ps)
    (hr : run s.tokens calls = .ok t') (hx : s.tokens.accounts.lookup accs.holderToken = some x)
    (hnone : x.closeAuthority = none) : x.cpiGuard = false := by
  cases he with
  | presentVoucher _ _ _ hx' =>
    rw [hx, Option.some.injEq] at hx'
    subst hx'
    rw [presentVoucherCalls, if_pos hnone] at hr
    obtain ⟨t₁, hd, -⟩ := run_cons_eq_ok.mp hr
    cases hd with
    | setCloseAuthority hx' _ _ _ hguard =>
      rw [hx, Option.some.injEq] at hx'
      subst hx'
      cases hg : x.cpiGuard with
      | false => rfl
      | true => exact absurd ⟨hg, rfl, (by simp)⟩ hguard

/-- **A presentation can be taken back, and made again.** In every reachable state, for the account with a
live voucher's token: its owner can present the voucher until it expires, unless the account names nobody and
its guard is on; a presented voucher can be taken back by its owner at any time, also after it expired; and
nothing but the account is changed by the two together, which then names the voucher where it named nobody. -/
theorem presentation_reversible (h : Run P start hist s) (hs : start.Empty) (hv : s.voucher? V = some v)
    (hx : s.tokens.accounts.lookup X = some x) (hmint : x.mint = v.mint) (hone : x.amount = 1) :
    (x.frozen = false → ∀ tx : Tx, (∀ a ∈ tx.signers, a.canSign = true) → x.owner ∈ tx.signers →
      tx.now ≤ v.expiresAt →
      ((∃ s', Next P s ⟨tx, .program (.presentVoucher ⟨V, v.mint, X, x.owner⟩)⟩ s') ↔
        (x.closeAuthority = none → x.cpiGuard = false)) ∧
      ∀ s', Next P s ⟨tx, .program (.presentVoucher ⟨V, v.mint, X, x.owner⟩)⟩ s' →
        s' = { s with tokens := s.tokens.setAccount X (presentedAccount x V) } ∧
        ∀ tx' : Tx, (∀ a ∈ tx'.signers, a.canSign = true) → x.owner ∈ tx'.signers →
          Next P s' ⟨tx', .program (.cancelPresentation ⟨V, v.mint, X, x.owner⟩)⟩
            { s with tokens := s.tokens.setAccount X (releasedAccount x V) }) ∧
    (x.frozen = true → ∀ tx : Tx, (∀ a ∈ tx.signers, a.canSign = true) → x.owner ∈ tx.signers →
      Next P s ⟨tx, .program (.cancelPresentation ⟨V, v.mint, X, x.owner⟩)⟩
        { s with tokens := s.tokens.setAccount X { x with frozen := false } }) := by
  obtain ⟨b, hb, -⟩ := h.business_of_voucher hs hv
  obtain ⟨m, hl⟩ := h.live hs hv hb
  refine ⟨fun hf tx hsig howner hexp => ?_, fun hf tx hsig howner => ?_⟩
  · have hguard : ∀ s', Next P s ⟨tx, .program (.presentVoucher ⟨V, v.mint, X, x.owner⟩)⟩ s' →
        x.closeAuthority = none → x.cpiGuard = false := by
      intro s' hnext hnone
      obtain ⟨cs, calls, ps, hst⟩ := hnext.step hl.placed
      exact grant_refused hst.effect hst.tokens hx hnone
    have hok := hl.present_ok tx hexp hx hmint hone hf howner
    refine ⟨⟨fun hex => hex.elim hguard, fun hopen => ⟨_, hsig, hok hopen⟩⟩, fun s' hnext => ?_⟩
    have hs' : s' = { s with tokens := s.tokens.setAccount X (presentedAccount x V) } :=
      Except.ok.inj (hnext.2.symm.trans (hok (hguard s' hnext)))
    refine ⟨hs', fun tx' hsig' howner' => ⟨hsig', ?_⟩⟩
    have hrun := h.step hnext
    subst hs'
    obtain ⟨m', hl'⟩ := Run.live hrun hs hv hb
    have hback := hl'.cancel_ok tx' (x := presentedAccount x V) (Store.lookup_insert_self _ _ _) hmint hone
      rfl howner'
    have hsame : { presentedAccount x V with frozen := false } = releasedAccount x V := by
      rw [presentedAccount, releasedAccount, ← hf]
    rw [hsame, Tokens.setAccount, Tokens.setAccount, AList.insert_insert] at hback
    exact hback
  · exact ⟨hsig, hl.cancel_ok tx hx hmint hone hf howner⟩

/-- A voucher just cashed in for is presented, and after it has expired taken back. -/
theorem presentation_reversible_expired : ∃ hist s x s' s'', Run Sample.platform Sample.start hist s ∧
    Next Sample.platform s (Sample.present 1040 9 0) s' ∧
    s' = { s with tokens :=
      s.tokens.setAccount (Sample.voucherToken 9 0) (presentedAccount x (Sample.voucher 0)) } ∧
    Next Sample.platform s' ⟨⟨9000000, [Sample.key 9]⟩, .program (.cancelPresentation
      ⟨Sample.voucher 0, Sample.voucherMint 0, Sample.voucherToken 9 0, Sample.key 9⟩)⟩ s'' := by
  obtain ⟨hist, s, hrun, -, hp⟩ := Leads.run (P := Sample.platform) (s := Sample.start)
    (l := [Sample.register 1000 1 0, Sample.issue 1010 7, Sample.claim 1020 9 7, Sample.cashIn 1030 9 0])
    (p := fun s => (s.voucher? (Sample.voucher 0)).any (fun v : Voucher =>
      decide (v.mint = Sample.voucherMint 0 ∧ 1040 ≤ v.expiresAt)) &&
      (s.tokens.accounts.lookup (Sample.voucherToken 9 0)).any fun x : Account Address =>
        x.mint = Sample.voucherMint 0 ∧ x.amount = 1 ∧ x.frozen = false ∧ x.owner = Sample.key 9 ∧
        x.cpiGuard = false)
    (by decide +kernel)
  simp only [Bool.and_eq_true, Option.any_eq_true, decide_eq_true_eq] at hp
  obtain ⟨⟨v, hv, hM, hexp⟩, x, hx, hmint, hone, hf, howner, hguard⟩ := hp
  obtain ⟨hpresent, -⟩ := presentation_reversible hrun Sample.start_empty hv hx (hmint.trans hM.symm) hone
  obtain ⟨hiff, hback⟩ := hpresent hf ⟨1040, [Sample.key 9]⟩ (by decide) (by simp [howner]) hexp
  obtain ⟨s', hnext⟩ := hiff.mpr fun _ => hguard
  obtain ⟨hs', hcancel⟩ := hback s' hnext
  have hcancel := hcancel ⟨9000000, [Sample.key 9]⟩ (by decide) (by simp [howner])
  rw [hM, howner] at hnext hcancel
  exact ⟨hist, s, x, s', _, hrun, hnext, hs', hcancel⟩

/-! ## A voucher nobody touches -/

theorem Effect.key_signed {a : Address} (h : Effect P tx s action cs calls ps) (ha : a.canSign = true)
    (htx : a ∉ tx.signers) : ∀ k ∈ calls, a ∉ k.ctx.signers := by
  have hown : a ∉ (ownCtx tx).signers := htx
  have hpda : ∀ {seeds : UInt8 → Address} {bump : UInt8} {pda}, createProgramAddress P seeds bump = some pda →
      (∀ n, (seeds n).canSign = false) → a ∉ (pdaCtx tx pda).signers := by
    intro seeds bump pda hpda hseeds hmem
    rcases List.mem_cons.mp hmem with rfl | hmem
    · rw [(createProgramAddress_eq_some.mp hpda).2, hseeds] at ha
      cases ha
    · exact htx hmem
  cases h with
  | mintCardNft _ _ _ _ hp =>
    have := hpda hp fun _ => rfl
    simp [mintCardNftCalls, hown, this]
  | retireIdleCardNft _ _ _ _ _ _ _ _ hp =>
    have := hpda hp fun _ => rfl
    exact forall_burnCardNftCalls (fun _ => this) this (fun _ => hown) this
  | mintVoucher _ _ _ _ hf _ _ _ _ _ hp =>
    have hv := hpda (createProgramAddress_of_find hf) fun _ => rfl
    have hc := hpda hp fun _ => rfl
    rw [List.forall_mem_append]
    constructor
    · simp [mintVoucherCalls, hown, hv]
    · split
      · exact forall_burnCardNftCalls (fun _ => hc) hc (fun _ => hown) hc
      · simp
  | presentVoucher _ _ _ _ _ _ _ _ _ hp =>
    exact forall_presentVoucherCalls hown (hpda hp fun _ => rfl)
  | cancelPresentation _ _ _ _ _ _ _ _ hp =>
    simp only [List.forall_mem_singleton]
    exact hpda hp fun _ => rfl
  | transferVoucher _ _ _ _ _ _ _ _ _ _ _ _ _ _ _ hp =>
    exact forall_transferVoucherCalls (fun _ => hown) hown hown (hpda hp fun _ => rfl)
  | redeemVoucher _ _ _ _ _ _ _ _ _ _ _ _ _ _ _ _ hp =>
    have hv := hpda hp fun _ => rfl
    rw [List.forall_mem_append]
    exact ⟨forall_redeemCalls hv hv hv, forall_closeMintCalls hv⟩
  | closeExpiredVoucher _ _ _ _ _ _ _ _ hp =>
    have hv := hpda hp fun _ => rfl
    rw [List.forall_mem_append]
    exact ⟨forall_burnExpiredCalls hv (fun _ => hv) hv, forall_closeMintCalls hv⟩
  | openMint | openToken | closeToken | token =>
    simp only [List.forall_mem_singleton]
    exact htx
  | _ => simp

/-- The voucher `v` at `V` is live, and its token held fast in the account `x` at `X`. -/
structure Secured (s : State) (V X : Address) (v : Voucher) (m : Mint Address) (x : Account Address) :
    Prop where
  voucher : s.voucher? V = some v
  mint : x.mint = v.mint
  one : x.amount = 1
  held : HeldFast s.tokens X V m x

/-- A step of others, in time: not signed by the voucher's owner. -/
structure Others (owner : Address) (v : Voucher) (c : Call) : Prop where
  unsigned : owner ∉ c.tx.signers
  inTime : c.tx.now ≤ v.expiresAt

def Call.Redeems (c : Call) (V : Address) : Prop :=
  ∃ accs, c.action = .program (.redeemVoucher accs) ∧ accs.voucher = V

/-- **Others cannot touch a voucher**, short of redeeming it when it is presented: not the record, not the
mint, not the account with its token. -/
theorem Step.secured {m₀ : Mint Address} (hl : Live P s V v b m₀) (h : Step P s c s' cs calls ps)
    (hi : Secured s V X v m x)
    (hkey : x.owner.canSign = true) (ho : Others x.owner v c) (hr : x.frozen = false ∨ ¬c.Redeems V) :
    Secured s' V X v m x := by
  obtain ⟨hV, hunsigned⟩ := h.voucher_unsigned hl.placed hi.voucher
  have hv := hi.voucher
  have hpos : 0 < x.amount := by rw [hi.one]; exact Nat.one_pos
  -- the holder signs every instruction about the voucher but its ends
  have hnone : c.action.voucher ≠ some V := by
    intro hact
    obtain ⟨tx, action⟩ := c
    obtain ⟨he, -⟩ := h
    have hsame : ∀ {v₀}, s.record? V = some (.voucher v₀) → v₀.mint = v.mint := fun hrec => by
      rw [Option.some.inj (hv.symm.trans (State.voucher?_eq_some.mpr hrec))]
    have hholder : ∀ {Y y owner mint}, s.tokens.accounts.lookup Y = some y → y.amount = 1 → y.mint = mint →
        mint = v.mint → y.owner = owner → owner ∈ tx.signers → False := by
      intro Y y owner mint hy hone hmint hmv howner hs
      obtain rfl := hl.alone hi.held.account hi.mint hpos hy (hmint.trans hmv)
        (by rw [hone]; exact Nat.one_pos)
      rw [hi.held.account, Option.some.injEq] at hy
      subst hy
      exact ho.unsigned (howner ▸ hs)
    cases he with
    | mintVoucher _ _ _ _ _ hfree =>
      rw [← Option.some.inj hact, State.voucher?, State.record?_of_not_inUse hfree] at hv
      cases hv
    | presentVoucher hrec hs hvm hx hone _ hmint howner
    | cancelPresentation hrec hs hvm hx hone _ hmint howner =>
      exact hholder hx hone hmint (hvm.symm.trans (hsame (Option.some.inj hact ▸ hrec))) howner hs
    | transferVoucher hrec _ hs _ _ hvm _ hx hone _ hmint howner =>
      exact hholder hx hone hmint (hvm.symm.trans (hsame (Option.some.inj hact ▸ hrec))) howner hs
    | redeemVoucher _ _ _ hrec _ _ _ _ _ hvm _ hy hone hfrozen hymint =>
      rcases hr with hf | hno
      -- it is not presented, so that it is not redeemed
      · have hmv := hymint.trans (hvm.symm.trans (hsame (Option.some.inj hact ▸ hrec)))
        obtain rfl := hl.alone hi.held.account hi.mint hpos hy hmv (by rw [hone]; exact Nat.one_pos)
        rw [hi.held.account, Option.some.injEq] at hy
        subst hy
        cases hf.symm.trans hfrozen
      · exact hno ⟨_, rfl, Option.some.inj hact⟩
    | closeExpiredVoucher hrec _ _ _ _ _ _ hexp =>
      have hrec := State.voucher?_eq_some.mpr (Option.some.inj hact ▸ hrec)
      rw [hv, Option.some.injEq] at hrec
      subst hrec
      exact absurd ho.inTime (Int64.not_le.mpr hexp)
    | _ => cases hact
  refine ⟨?_, hi.mint, hi.one, hi.held.run h.tokens fun k hk => ⟨fun hs => ?_, ?_⟩⟩
  · rcases h.voucher V with hsame | hch
    · exact hsame.trans hv
    obtain ⟨tx, action⟩ := c
    rw [hv] at hch
    generalize s'.voucher? V = after at hch
    cases hch with
    | handed hadr | redeemed hadr | expired hadr => exact absurd (congrArg some hadr) hnone
  · exact hnone (h.effect.voucher_signed hV hunsigned k hk hs)
  · exact h.effect.key_signed hkey ho.unsigned k hk

theorem Run.secured {later : History} (h : Run P start hist s) (hs : start.Empty) (hi : Secured s V X v m x)
    (hkey : x.owner.canSign = true) (hlater : Run P s later s')
    (hothers : ∀ st ∈ later, Others x.owner v st.label)
    (hr : x.frozen = false ∨ ∀ st ∈ later, ¬st.label.Redeems V) : Secured s' V X v m x := by
  induction hlater with
  | nil => exact hi
  | step hrun hnext ih =>
    have hi := ih (fun st hmem => hothers st (List.mem_cons_of_mem _ hmem))
      (hr.imp_right fun hno st hmem => hno st (List.mem_cons_of_mem _ hmem))
    have hall := Runs.Run.append h hrun
    obtain ⟨b, hb, -⟩ := Run.business_of_voucher hall hs hi.voucher
    obtain ⟨m₀, hl⟩ := Run.live hall hs hi.voucher hb
    obtain ⟨_, _, _, hst⟩ := hnext.step hl.placed
    exact hst.secured hl hi hkey (hothers _ List.mem_cons_self)
      (hr.imp_right fun hno => hno _ List.mem_cons_self)

/-! ## From the cash-in to the counter -/

theorem Run.secured_minted {accs : MintVoucher} {voucherId : UInt64} (h : Run P start hist s)
    (hs : start.Empty)
    (hcash : Next P s ⟨tx, .program (.mintVoucher accs voucherId uri)⟩ s') :
    ∃ v m, s'.voucher? accs.voucher = some v ∧ v.owner = accs.customer ∧ v.business = accs.business ∧
      v.mint = accs.mint ∧ v.rentPayer = accs.relayer ∧
      v.expiresAt.toInt = tx.now.toInt + voucherValidSeconds.toInt ∧
      accs.customer.canSign = true ∧
      Secured s' accs.voucher accs.customerToken v m
      (mintedVoucherToken accs.voucher accs.mint accs.customer) := by
  have hw := h.wellPlaced hs.wellPlaced
  obtain ⟨cs, calls, ps, hst⟩ := hcash.step hw
  obtain ⟨b, c, b', c', v, bump, hb, hc, -, hsig, hcb, hcc, hf, hok, hb', -, hv⟩ := hst.mintVoucher
  obtain ⟨-, -, -, e, tv, ov, he, -, -, -, rfl⟩ := mintVoucherHandler_eq_ok hok
  obtain ⟨b₀, -, hm, hx⟩ := hst.minted
  have hrun := h.step hcash
  have ht := Run.voucherTokens hrun hs
  have hM := ht.isVoucherMint hv
  refine ⟨_, _, hv, rfl, rfl, rfl, rfl, he, hcash.1 _ hsig, hv, rfl, rfl, hm, hx, rfl, ?_, rfl, rfl, rfl,
    Nat.one_pos, rfl, Run.conserved hrun hs hM⟩
  intro k other hother
  exact (isVoucherMint_minted accs.voucher _).authority hother

/-- Presenting is the holder's own doing, and leaves the voucher as secured. -/
theorem Run.secured_presented (tx : Tx) (h : Run P start hist s) (hs : start.Empty) (hi : Secured s V X v m x)
    (hf : x.frozen = false) (hsig : ∀ a ∈ tx.signers, a.canSign = true) (howner : x.owner ∈ tx.signers)
    (hexp : tx.now ≤ v.expiresAt) :
    ∃ s', Next P s ⟨tx, .program (.presentVoucher ⟨V, v.mint, X, x.owner⟩)⟩ s' ∧
      Secured s' V X v m { x with frozen := true } := by
  obtain ⟨b, hb, -⟩ := h.business_of_voucher hs hi.voucher
  obtain ⟨m₀, hl⟩ := h.live hs hi.voucher hb
  have hcloser := hi.held.closer
  have hok := hl.present_ok tx hexp hi.held.account hi.mint hi.one hf howner fun hnone => by
    rw [hcloser] at hnone
    cases hnone
  have hsame : presentedAccount x V = { x with frozen := true } := by rw [presentedAccount, hcloser]; rfl
  rw [hsame] at hok
  have hnext : Next P s ⟨tx, .program (.presentVoucher ⟨V, v.mint, X, x.owner⟩)⟩ _ := ⟨hsig, hok⟩
  have hcons := Run.conserved (h.step hnext) hs (M := x.mint) (hi.mint ▸ hl.isVoucherMint)
  exact ⟨_, hnext, hi.voucher, hi.mint, hi.one, hi.held.mint, Store.lookup_insert_self _ _ _, hi.held.done,
    hi.held.obeys, hcloser, hi.held.delegate, hi.held.delegated, hi.held.pos, hi.held.whole, hcons⟩

theorem Run.secured_redeemable (h : Run P start hist s) (hs : start.Empty) (hi : Secured s V X v m x)
    (hf : x.frozen = true) (hguard : x.cpiGuard = false) :
    ∃ b, s.business? v.business = some b ∧
      ∀ (tx : Tx) relayer, (∀ a ∈ tx.signers, a.canSign = true) → b.authority ∈ tx.signers →
        relayer ∈ tx.signers → tx.now ≤ v.expiresAt → ¬s.InUse v.rentPayer →
        b.totalRedemptions.toNat + 1 < 2 ^ 32 →
        ∃ s', Next P s ⟨tx, .program (.redeemVoucher (v.redemption V X b.authority relayer))⟩ s' := by
  obtain ⟨b, hb, -⟩ := h.business_of_voucher hs hi.voucher
  obtain ⟨m₀, hl⟩ := h.live hs hi.voucher hb
  have hfree : ¬Blocked s V v := by
    intro hex
    obtain ⟨Y, y, hy, hym, hypos, -, hg, -⟩ := hex
    obtain rfl := hl.alone hi.held.account hi.mint hi.held.pos hy hym hypos
    rw [hi.held.account, Option.some.injEq] at hy
    subst hy
    cases hg.symm.trans hguard
  refine ⟨b, hb, fun tx relayer hsig hauth hrel hexp hsys hcount => ?_⟩
  obtain ⟨s', hok⟩ := hl.redeem_ok hsys (h.business_seeds hs hb) hauth hrel hexp hi.held.account
    hi.mint
    hi.held.pos hf hfree hcount
  exact ⟨s', hsig, hok⟩

/-- **A reward cannot be kept from its customer.** After a cash-in, whatever others do: until the voucher
expires its customer can present it; and whatever others do then, short of redeeming it, its shop is there and
can redeem it, as long as the wallet its rent goes back to is still one and the shop's count of redemptions
has room. -/
theorem reward_cannot_be_blocked {accs : MintVoucher} {voucherId : UInt64} (h : Run P start hist s)
    (hs : start.Empty) (hcash : Next P s ⟨tx, .program (.mintVoucher accs voucherId uri)⟩ s') :
    ∃ v, s'.voucher? accs.voucher = some v ∧ v.owner = accs.customer ∧ v.business = accs.business ∧
      v.expiresAt.toInt = tx.now.toInt + voucherValidSeconds.toInt ∧
      ∀ later s₂, Run P s' later s₂ → (∀ st ∈ later, Others accs.customer v st.label) →
      ∀ tx₂ : Tx, (∀ a ∈ tx₂.signers, a.canSign = true) → accs.customer ∈ tx₂.signers →
      tx₂.now ≤ v.expiresAt →
      ∃ s₃, Next P s₂
          ⟨tx₂, .program (.presentVoucher ⟨accs.voucher, accs.mint, accs.customerToken, accs.customer⟩)⟩ s₃ ∧
        ∀ later' s₄, Run P s₃ later' s₄ →
          (∀ st ∈ later', Others accs.customer v st.label ∧ ¬st.label.Redeems accs.voucher) →
        ∃ b, s₄.business? accs.business = some b ∧
          ∀ (tx₄ : Tx) relayer, (∀ a ∈ tx₄.signers, a.canSign = true) → b.authority ∈ tx₄.signers →
            relayer ∈ tx₄.signers → tx₄.now ≤ v.expiresAt → ¬s₄.InUse accs.relayer →
            b.totalRedemptions.toNat + 1 < 2 ^ 32 →
            ∃ s₅, Next P s₄ ⟨tx₄, .program (.redeemVoucher ⟨accs.business, accs.voucher, accs.mint,
              accs.customerToken, b.authority, relayer, accs.relayer⟩)⟩ s₅ := by
  obtain ⟨v, m, hv, howner, hbus, hmint, hpayer, hexp, hkey, hi⟩ := h.secured_minted hs hcash
  refine ⟨v, hv, howner, hbus, hexp, fun later s₂ hlater hothers tx₂ hsig₂ hcus₂ hexp₂ => ?_⟩
  have hrun₂ := Runs.Run.append (h.step hcash) hlater
  have hi₂ := Run.secured (h.step hcash) hs hi hkey hlater hothers (.inl rfl)
  obtain ⟨s₃, hpres, hi₃⟩ := Run.secured_presented tx₂ hrun₂ hs hi₂ rfl hsig₂ hcus₂ hexp₂
  rw [hmint] at hpres
  refine ⟨s₃, hpres, fun later' s₄ hlater' hothers' => ?_⟩
  have hrun₃ := Runs.Run.step hrun₂ hpres
  have hrun₄ : Run P start _ s₄ := Runs.Run.append hrun₃ hlater'
  have hi₄ := Run.secured hrun₃ hs hi₃ hkey hlater' (fun st hst => (hothers' st hst).1)
    (.inr fun st hst => (hothers' st hst).2)
  obtain ⟨b, hb, hredeem⟩ := hrun₄.secured_redeemable hs hi₄ rfl rfl
  refine ⟨b, hbus ▸ hb, fun tx₄ relayer hsig₄ hauth hrel hexp₄ hsys hcount => ?_⟩
  obtain ⟨s₅, hnext⟩ := hredeem tx₄ relayer hsig₄ hauth hrel hexp₄ (hpayer ▸ hsys) hcount
  rw [Voucher.redemption, hbus, hmint, hpayer] at hnext
  exact ⟨s₅, hnext⟩

/-- The shop changes its terms after the cash-in; the voucher is presented and redeemed all the same. -/
theorem reward_cannot_be_blocked_updated : ∃ hist s s' s₂ s₃ s₅, Run Sample.platform Sample.start hist s ∧
    Next Sample.platform s (Sample.cashIn 1030 9 0) s' ∧ Next Sample.platform s' (Sample.update 1035 5 0) s₂ ∧
    Next Sample.platform s₂ (Sample.present 1040 9 0) s₃ ∧
    Next Sample.platform s₃ (Sample.redeem 1050 9 0) s₅ := by
  obtain ⟨hist, s, hrun, -, hp⟩ := Leads.run (P := Sample.platform) (s := Sample.start)
    (l := [Sample.register 1000 1 0, Sample.issue 1010 7, Sample.claim 1020 9 7])
    (p := fun s => Leads Sample.platform s [Sample.cashIn 1030 9 0] fun s' =>
      Leads Sample.platform s' [Sample.update 1035 5 0] fun s₂ =>
      Leads Sample.platform s₂ [Sample.present 1040 9 0] fun s₃ => decide (¬s₃.InUse (Sample.key 2)) &&
        (s₃.business? Sample.shop).all fun b => b.authority = Sample.key 1 ∧ b.totalRedemptions = 0)
    (by decide +kernel)
  obtain ⟨s', hcash, hp⟩ := Leads.step hp
  obtain ⟨s₂, hupdate, hp⟩ := Leads.step hp
  obtain ⟨s₃, hpresent, hp⟩ := Leads.step hp
  simp only [Bool.and_eq_true, Option.all_eq_true, decide_eq_true_eq] at hp
  obtain ⟨hsys, hb⟩ := hp
  obtain ⟨v, -, -, -, hexp, hrest⟩ := reward_cannot_be_blocked hrun Sample.start_empty hcash
  have htime : ∀ n : Int64, n.toInt ≤ 7777030 → n ≤ v.expiresAt := by
    intro n hn
    rw [Int64.le_iff_toInt_le, hexp]
    exact hn
  have hother : Others (Sample.key 9) v (Sample.update 1035 5 0) := ⟨by decide, htime _ (by decide)⟩
  obtain ⟨s₃', hpresent', hrest⟩ := hrest _ s₂ (.step .nil hupdate) (List.forall_mem_singleton.mpr hother)
    ⟨1040, [Sample.key 9]⟩ (by decide) (by decide) (htime _ (by decide))
  obtain rfl : s₃ = s₃' := Except.ok.inj (hpresent.2.symm.trans hpresent'.2)
  obtain ⟨b, hbus, hredeem⟩ := hrest [] s₃ .nil (by simp)
  obtain ⟨hauth, hcount⟩ := hb b hbus
  obtain ⟨s₅, hredeem⟩ := hredeem ⟨1050, [Sample.key 1, Sample.key 2]⟩ (Sample.key 2) (by decide)
    (by rw [hauth]; decide) (by decide) (htime _ (by decide)) hsys (by rw [hcount]; decide)
  rw [hauth] at hredeem
  exact ⟨hist, s, s', s₂, s₃, s₅, hrun, hcash, hupdate, hpresent, hredeem⟩

end Passdari
