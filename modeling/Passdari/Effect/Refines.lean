/-
The program follows the rules: every successful instruction, computed on
bytes, is a step of `Effect`.
-/
import Passdari.Effect.Handlers
import Passdari.Effect.Rules

namespace Passdari

open Wire Token2022

variable {P : Platform} {tx : Tx} {s s' : State} {a : Action}

/-- What the bytes at a changed account are, for the change to have happened. -/
def Change.Holds (s : State) (c : Change) (d : Option (List Byte)) : Prop :=
  match c.after with
  | none => d = none
  | some r => ∃ rest, d = some (r.bytes ++ rest) ∧ ((r.bytes ++ rest).length = r.space ∨
      ∃ old, s.program.lookup c.addr = some old ∧ (r.bytes ++ rest).length = old.length)

theorem Delta.changed {cs : List Change} {ws calls ps} (hd : Delta s s' ws calls ps)
    (hnodup : (cs.map Change.addr).Nodup) (hbefore : ∀ c ∈ cs, s.record? c.addr = c.before)
    (hafter : ∀ c ∈ cs, c.Holds s (patch ws c.addr (s.program.lookup c.addr)))
    (hframe : ∀ w ∈ ws, w.addr ∈ cs.map Change.addr) : Changed cs s s' where
  nodup := hnodup
  before := hbefore
  closed c hc hn := by
    have h := hafter c hc
    simp only [Change.Holds, hn] at h
    rw [hd.program, h]
  written c hc r hr := by
    have h := hafter c hc
    simp only [Change.Holds, hr] at h
    rw [hd.program]
    exact h
  frame b hb := by
    refine (hd.program b).trans (patch_of_notMem fun hw => ?_)
    obtain ⟨w, hmem, rfl⟩ := List.mem_map.mp hw
    exact hb (hframe w hmem)

theorem Changed.of_same (h : ∀ b, s'.program.lookup b = s.program.lookup b) : Changed [] s s' :=
  ⟨List.nodup_nil, by simp, by simp, by simp, fun b _ => h b⟩

/-- The rules allow the call, and it changes what they say. -/
def Refined (P : Platform) (tx : Tx) (s : State) (a : Action) (s' : State) : Prop :=
  ∃ cs calls ps, Effect P tx s a cs calls ps ∧ Changed cs s s' ∧ run s.tokens calls = .ok s'.tokens ∧
    s'.purse = s.purse.settle ps ∧ s'.foreign = s.foreign ∧ Funded s.purse ps

theorem Refined.of {cs ws calls ps} (he : Effect P tx s a cs calls ps) (hc : Changed cs s s')
    (hd : Delta s s' ws calls ps) : Refined P tx s a s' :=
  ⟨cs, calls, ps, he, hc, hd.tokens, hd.purse, hd.foreign, hd.funded⟩

/-- Two different records are not at one address. -/
theorem ne_of_record? {a b : Address} {r q : Record} (ha : s.record? a = some r) (hb : s.record? b = some q)
    (h : r ≠ q) : a ≠ b := by
  intro heq
  subst heq
  rw [ha] at hb
  exact h (Option.some.inj hb)

theorem ne_of_not_inUse {a b : Address} {r : Record} (ha : s.record? a = some r) (hb : ¬s.InUse b) :
    a ≠ b := by
  intro heq
  subst heq
  exact hb (State.inUse_of_record? ha)

/-- A record put where there was nothing, in the room made for it. -/
theorem Change.holds_new {b : Address} {before r} {data rest d : List Byte} (hd : d = r.bytes ++ rest)
    (hdata : data = List.replicate r.space (.lit 0)) (hlen : (r.bytes ++ rest).length = data.length) :
    Change.Holds s ⟨b, before, some r⟩ (some d) :=
  ⟨rest, hd ▸ rfl, .inl (by rw [hlen, hdata, List.length_replicate])⟩

/-- A record written over the one that was there. -/
theorem Change.holds_over {b : Address} {before r} {data rest d : List Byte} (hd : d = r.bytes ++ rest)
    (hdata : s.program.lookup b = some data) (hlen : (r.bytes ++ rest).length = data.length) :
    Change.Holds s ⟨b, before, some r⟩ (some d) :=
  ⟨rest, hd ▸ rfl, .inr ⟨data, hdata, hlen⟩⟩

/-! ## A shop's own instructions -/

theorem initializeHandler_refined {accs : Initialize} (h : initializeHandler P tx accs s = .ok s') :
    Refined P tx s (.program (.initializeCounter accs)) s' := by
  simp only [initializeHandler, Except.bind_eq_ok, signer_eq_ok, seedsConstraint_eq_ok, exists_const] at h
  obtain ⟨hs, bump, hf, s₁, hc, hst⟩ := h
  obtain ⟨hu, d₁⟩ := create_delta hc
  obtain ⟨data, rest, hdata, hlen, d₂⟩ := store_delta hst
  have hd := d₁.trans d₂
  refine .of (.initializeCounter hs hf hu) (hd.changed (by simp) ?_ ?_ (by simp)) hd
  · simp [State.record?_of_not_inUse hu]
  · rw [d₁.program] at hdata
    simp only [patch_cons, patch_nil, if_true, Option.some.injEq] at hdata
    simp only [List.forall_mem_singleton, List.cons_append, List.nil_append, patch_cons, patch_nil, if_true]
    exact Change.holds_new rfl hdata.symm hlen

theorem registerBusiness_refined {accs : RegisterBusiness} {args}
    (h : registerBusiness P tx accs args s = .ok s') :
    Refined P tx s (.program (.registerBusiness accs args)) s' := by
  simp only [registerBusiness, Except.bind_eq_ok, signer_eq_ok, seedsConstraint_eq_ok, exists_const] at h
  obtain ⟨hs, hr, bump, hf, s₁, hc, b, hb, hst⟩ := h
  obtain ⟨hu, d₁⟩ := create_delta hc
  obtain ⟨data, rest, hdata, hlen, d₂⟩ := store_delta hst
  have hd := d₁.trans d₂
  refine .of (.registerBusiness hs hr hf hu hb) (hd.changed (by simp) ?_ ?_ (by simp)) hd
  · simp [State.record?_of_not_inUse hu]
  · rw [d₁.program] at hdata
    simp only [patch_cons, patch_nil, if_true, Option.some.injEq] at hdata
    simp only [List.forall_mem_singleton, List.cons_append, List.nil_append, patch_cons, patch_nil, if_true]
    exact Change.holds_new rfl hdata.symm hlen

theorem ownBusiness_eq_ok {business authority : Address} {b : Business} :
    ownBusiness P s business authority = .ok b ↔ s.record? business = some (.business b) ∧
      createProgramAddress P (.business authority) b.bump = some business ∧ b.authority = authority := by
  simp only [ownBusiness, Except.bind_eq_ok, load_eq_ok, seedsConstraintWith_eq_ok, hasOne_eq_ok,
    Except.pure_eq_ok, exists_const]
  exact ⟨fun ⟨_, h1, h2, h3, rfl⟩ => ⟨h1, h2, h3⟩, fun ⟨h1, h2, h3⟩ => ⟨_, h1, h2, h3, rfl⟩⟩

theorem updateBusinessConfig_refined {accs : UpdateBusinessConfig} {args}
    (h : updateBusinessConfig P tx accs args s = .ok s') :
    Refined P tx s (.program (.updateBusinessConfig accs args)) s' := by
  simp only [updateBusinessConfig, Except.bind_eq_ok, signer_eq_ok, ownBusiness_eq_ok, exists_const] at h
  obtain ⟨hs, b, ⟨hb, hseeds, hauth⟩, b', hb', hst⟩ := h
  obtain ⟨data, rest, hdata, hlen, hd⟩ := store_delta hst
  refine .of (.updateBusinessConfig hs hb hauth hseeds hb') (hd.changed (by simp) ?_ ?_ (by simp)) hd
  · simp [hb]
  · simp only [List.forall_mem_singleton, patch_cons, patch_nil, if_true]
    exact Change.holds_over rfl hdata hlen

theorem closeBusiness_refined {accs : CloseBusiness} (h : closeBusiness P tx accs s = .ok s') :
    Refined P tx s (.program (.closeBusiness accs)) s' := by
  simp only [closeBusiness, Except.bind_eq_ok, load_eq_ok, systemAccount_eq_ok, seedsConstraintWith_eq_ok,
    closeConstraint_eq_ok, Except.pure_eq_ok, exists_const] at h
  obtain ⟨b, hb, hu, hseeds, ⟨hpayer, -⟩, ⟨⟩, hok, rfl⟩ := h
  have hd := close_delta s accs.business accs.rentPayer
  refine .of (.closeBusiness hb hu hseeds hpayer hok) (hd.changed (by simp) ?_ ?_ (by simp)) hd
  · simp only [List.forall_mem_singleton]
    exact hb
  · simp [Change.Holds]

/-! ## Receipts, stamps and cards -/

theorem issueReceipt_refined {accs : IssueReceipt} {secretHash band}
    (h : issueReceipt P tx accs secretHash band s = .ok s') :
    Refined P tx s (.program (.issueReceipt accs secretHash band)) s' := by
  simp only [issueReceipt, Except.bind_eq_ok, ownBusiness_eq_ok, signer_eq_ok, seedsConstraint_eq_ok,
    exists_const] at h
  obtain ⟨b, ⟨hb, hseeds, hauth⟩, hs, hr, bump, hf, s₁, hc, ⟨b', r⟩, hok, s₂, hst₁, hst₂⟩ := h
  obtain ⟨hu, d₁⟩ := create_delta hc
  obtain ⟨data₁, rest₁, hdata₁, hlen₁, d₂⟩ := store_delta hst₁
  obtain ⟨data₂, rest₂, hdata₂, hlen₂, d₃⟩ := store_delta hst₂
  have hd := (d₁.trans d₂).trans d₃
  have hne : accs.business ≠ accs.receipt := ne_of_not_inUse hb hu
  rw [d₁.program] at hdata₁
  rw [(d₁.trans d₂).program] at hdata₂
  simp only [List.cons_append, List.nil_append, patch_cons, patch_nil, if_true, if_neg hne, if_neg hne.symm,
    Option.some.injEq] at hdata₁ hdata₂
  refine .of (.issueReceipt hb hseeds hauth hs hr hf hu hok) (hd.changed (by simpa using hne) ?_ ?_ (by simp))
    hd
  · simp [State.record?_of_not_inUse hu, hb]
  · simp only [List.forall_mem_cons, List.cons_append, List.nil_append, patch_cons, patch_nil, if_true,
      if_neg hne, if_neg hne.symm]
    exact ⟨Change.holds_over rfl hdata₁ hlen₁, Change.holds_new rfl hdata₂.symm hlen₂, by simp⟩

theorem createIfNeeded_eq_ok {α : Type} {T : AccountType α} {payer b : Address} {x : α}
    (h : createIfNeeded P tx T s payer b = .ok (s', x)) :
    s' = s ∧ s.record? b = some (T.record x) ∨
      x = T.zeroed ∧ create P tx T s payer b = .ok s' := by
  unfold createIfNeeded at h
  split at h
  · simp only [Except.bind_eq_ok, load_eq_ok, check_eq_ok, Except.pure_eq_ok, exists_const, Prod.mk.injEq]
      at h
    obtain ⟨y, hy, -, rfl, rfl⟩ := h
    exact .inl ⟨rfl, hy⟩
  · simp only [Except.bind_eq_ok, Except.pure_eq_ok, Prod.mk.injEq] at h
    obtain ⟨s₁, hc, rfl, rfl⟩ := h
    exact .inr ⟨rfl, hc⟩

theorem claimReceipt_refined {accs : ClaimReceipt} {secret} (hw : s.WellPlaced)
    (h : claimReceipt P tx accs secret s = .ok s') :
    Refined P tx s (.program (.claimReceipt accs secret)) s' := by
  simp only [claimReceipt, Except.bind_eq_ok, load_eq_ok, signer_eq_ok, systemAccount_eq_ok,
    seedsConstraint_eq_ok, closeConstraint_eq_ok, exists_const] at h
  obtain ⟨b, hb, r, hr, hs, hrel, hu, bump, hf, ⟨s₁, c⟩, hc, ⟨hpayer, -⟩, ⟨b', c'⟩, hok, s₂, hst₁, hst₂⟩ := h
  obtain ⟨data₁, rest₁, hdata₁, hlen₁, d₂⟩ := store_delta hst₁
  obtain ⟨data₂, rest₂, hdata₂, hlen₂, d₃⟩ := store_delta hst₂
  have d₂₃ := (d₂.trans (close_delta s₂ accs.receipt accs.rentPayer)).trans d₃
  have hbr : accs.business ≠ accs.receipt := ne_of_record? hb hr (fun h => by cases h)
  rw [(d₂.trans (close_delta s₂ accs.receipt accs.rentPayer)).program] at hdata₂
  rcases createIfNeeded_eq_ok hc with ⟨rfl, hcard⟩ | ⟨rfl, hcreate⟩
  · have hbc : accs.business ≠ accs.card := ne_of_record? hb hcard (fun h => by cases h)
    have hrc : accs.receipt ≠ accs.card := ne_of_record? hr hcard (fun h => by cases h)
    simp only [List.cons_append, List.nil_append, patch_cons, patch_nil, if_neg hbc, if_neg hrc] at hdata₂
    have hat := hw.card hcard
    rw [findProgramAddress_eq hf, Address.card.injEq] at hat
    have hown : ∀ x, some c = some x → x.business = accs.business ∧ x.customer = accs.customer := by
      intro x heq
      cases heq
      exact ⟨hat.1.symm, hat.2.1.symm⟩
    refine .of (.claimReceipt (c := some c) hb hr hs hrel hu hf hcard (by simp) hown hpayer hok)
      (d₂₃.changed (by simp [hbr, hbc, hrc]) ?_ ?_ (by simp)) d₂₃
    · simp only [List.forall_mem_cons]
      exact ⟨hb, hr, hcard, by simp⟩
    · simp only [List.forall_mem_cons, List.cons_append, List.nil_append, patch_cons, patch_nil, if_true,
        if_neg hbr, if_neg hbr.symm, if_neg hbc, if_neg hbc.symm, if_neg hrc, if_neg hrc.symm]
      exact ⟨Change.holds_over rfl hdata₁ hlen₁, rfl, Change.holds_over rfl hdata₂ hlen₂, by simp⟩
  · obtain ⟨hfree, d₁⟩ := create_delta hcreate
    have hd := d₁.trans d₂₃
    have hbc : accs.business ≠ accs.card := ne_of_not_inUse hb hfree
    have hrc : accs.receipt ≠ accs.card := ne_of_not_inUse hr hfree
    rw [d₁.program] at hdata₁ hdata₂
    simp only [List.cons_append, List.nil_append, patch_cons, patch_nil, if_true, if_neg hbc, if_neg hbc.symm,
      if_neg hrc, Option.some.injEq] at hdata₁ hdata₂
    refine .of (.claimReceipt (c := none) hb hr hs hrel hu hf (State.record?_of_not_inUse hfree)
      (fun _ => hfree)
      (by simp) hpayer hok) (hd.changed (by simp [hbr, hbc, hrc]) ?_ ?_ (by simp)) hd
    · simp only [List.forall_mem_cons]
      exact ⟨hb, hr, State.record?_of_not_inUse hfree, by simp⟩
    · simp only [List.forall_mem_cons, List.cons_append, List.nil_append, patch_cons, patch_nil, if_true,
        if_neg hbr, if_neg hbr.symm, if_neg hbc, if_neg hbc.symm, if_neg hrc, if_neg hrc.symm]
      exact ⟨Change.holds_over rfl hdata₁ hlen₁, rfl, Change.holds_new rfl hdata₂.symm hlen₂, by simp⟩

theorem reclaimExpiredReceipt_refined {accs : ReclaimExpiredReceipt}
    (h : reclaimExpiredReceipt tx accs s = .ok s') :
    Refined P tx s (.program (.reclaimExpiredReceipt accs)) s' := by
  simp only [reclaimExpiredReceipt, Except.bind_eq_ok, load_eq_ok, systemAccount_eq_ok, closeConstraint_eq_ok,
    require_eq_ok, Except.pure_eq_ok, exists_const] at h
  obtain ⟨r, hr, hu, ⟨hpayer, -⟩, hexp, rfl⟩ := h
  have hd := close_delta s accs.receipt accs.rentPayer
  refine .of (.reclaimExpiredReceipt hr hu hpayer hexp) (hd.changed (by simp) ?_ ?_ (by simp)) hd
  · simp only [List.forall_mem_singleton]
    exact hr
  · simp [Change.Holds]

theorem transferStamps_refined {accs : TransferStamps} {amount}
    (h : transferStamps tx accs amount s = .ok s') :
    Refined P tx s (.program (.transferStamps accs amount)) s' := by
  simp only [transferStamps, Except.bind_eq_ok, load_eq_ok, signer_eq_ok, check_eq_ok, hasOne_eq_ok,
    exists_const] at h
  obtain ⟨b, hb, c, hc, d, hd, hs, hr, hne, hcb, hcc, hdb, ⟨c', d'⟩, hok, s₁, hst₁, hst₂⟩ := h
  obtain ⟨data₁, rest₁, hdata₁, hlen₁, d₁⟩ := store_delta hst₁
  obtain ⟨data₂, rest₂, hdata₂, hlen₂, d₂⟩ := store_delta hst₂
  have hdelta := d₁.trans d₂
  rw [d₁.program] at hdata₂
  simp only [patch_cons, patch_nil, if_neg hne] at hdata₂
  refine .of (.transferStamps hb hc hd hs hr hne hcb hcc hdb hok)
    (hdelta.changed (by simpa using hne) ?_ ?_ (by simp)) hdelta
  · simp only [List.forall_mem_cons]
    exact ⟨hc, hd, by simp⟩
  · simp only [List.forall_mem_cons, List.cons_append, List.nil_append, patch_cons, patch_nil, if_true,
      if_neg hne, if_neg hne.symm]
    exact ⟨Change.holds_over rfl hdata₁ hlen₁, Change.holds_over rfl hdata₂ hlen₂, by simp⟩

theorem closeDeadCard_refined {accs : CloseDeadCard} (h : closeDeadCard P tx accs s = .ok s') :
    Refined P tx s (.program (.closeDeadCard accs)) s' := by
  simp only [closeDeadCard, Except.bind_eq_ok, load_eq_ok, systemAccount_eq_ok, seedsConstraintWith_eq_ok,
    closeConstraint_eq_ok, check_eq_ok, seedsConstraint_eq_ok, require_eq_ok, Except.pure_eq_ok,
    exists_const] at h
  obtain ⟨c, hc, b, hb, hu, hseeds, ⟨hpayer, -⟩, hbus, bump, hmint, h0, since, hsince, hdead, hnft, s₁, hst,
    rfl⟩ := h
  obtain ⟨data, rest, hdata, hlen, d₁⟩ := store_delta hst
  have hd := d₁.trans (close_delta s₁ accs.card accs.rentPayer)
  have hne : accs.business ≠ accs.card := ne_of_record? hb hc (fun h => by cases h)
  refine .of (.closeDeadCard hc hb hu hseeds hpayer hbus hmint h0 hsince hdead hnft)
    (hd.changed (by simpa using hne) ?_ ?_ (by simp)) hd
  · simp only [List.forall_mem_cons]
    exact ⟨hb, hc, by simp⟩
  · simp only [List.forall_mem_cons, List.cons_append, List.nil_append, patch_cons, patch_nil, if_true,
      if_neg hne, if_neg hne.symm]
    exact ⟨Change.holds_over rfl hdata hlen, rfl, by simp⟩

/-! ## Card NFTs -/

theorem mintCardNft_refined {accs : MintCardNft} {uri} (h : mintCardNft P tx accs uri s = .ok s') :
    Refined P tx s (.program (.mintCardNft accs uri)) s' := by
  simp only [mintCardNft, mintCardNftHandler, Except.bind_eq_ok, load_eq_ok, signer_eq_ok,
    seedsConstraintWith_eq_ok, hasOne_eq_ok, seedsConstraint_eq_ok, require_eq_ok, withSigner_eq_ok,
    exists_const] at h
  obtain ⟨b, hb, c, hc, hs, hrel, hseeds, hcb, hcc, bump, hmint, huri, signers, ⟨pda, hpda, rfl⟩, s₁, hnew,
    s₂, hi₁, s₃, hi₂, s₄, hata, s₅, hi₃, s₆, hi₄, hi₅⟩ := h
  rw [hcb, hcc, hseeds, Option.some.injEq] at hpda
  subst hpda
  obtain ⟨hfree, d₁⟩ := createAddress_delta hnew
  obtain ⟨htok, hfree', m, hm, d₄⟩ := createAssociatedToken_delta hata
  have d₃ := (d₁.trans (invoke_delta hi₁)).trans (invoke_delta hi₂)
  have hd := (((d₃.trans d₄).trans (invoke_delta hi₃)).trans (invoke_delta hi₄)).trans (invoke_delta hi₅)
  have hfree' : ¬s.InUse accs.customerToken := d₃.not_inUse (by simp) (by simp) hfree'
  -- The mint that was just set up cannot be moved, and so neither can its token account.
  have hnt : m.nonTransferable = true := by
    have hrun := d₃.tokens
    simp only [List.nil_append, List.cons_append, run_cons_eq_ok] at hrun
    obtain ⟨t₁, hd₁, t₂, hd₂, hr⟩ := hrun
    cases hr
    clear hd d₄ hi₃
    generalize s₃.tokens = t₃ at hd₂ hm
    cases hd₁
    cases hd₂ with
    | initializeMetadata hm' =>
      rw [Tokens.setMint_mints, Store.lookup_insert_self, Option.some.injEq] at hm'
      subst hm'
      rw [Tokens.setMint_mints, Store.lookup_insert_self, Option.some.injEq] at hm
      subst hm
      rfl
  rw [hnt] at hd
  exact .of (.mintCardNft hb hc hs hrel hseeds hcb hcc hmint huri hfree htok hfree')
    (Changed.of_same hd.program) hd

/-- The closing half of `burn_and_close_card_nft`: the token account, as whoever may, and the mint. -/
theorem closeCardNft_delta {card cardMint cardToken destination : Address} {customer : Option Address}
    {x : Account Address}
    (h : (if x.closeAuthority = some card then do
        let s ← invokeClose (card :: tx.signers) s cardToken destination card
        invokeClose (card :: tx.signers) s cardMint destination card
      else
        match x.closeAuthority, customer with
        | none, some customer => do
          let s ← invokeClose tx.signers s cardToken destination customer
          invokeClose (card :: tx.signers) s cardMint destination card
        | _, _ => do
          let s ← pure s
          invokeClose (card :: tx.signers) s cardMint destination card) = .ok s') :
    Delta s s' []
      (((cardTokenCloser tx card customer x).elim [] fun who =>
          [⟨who.1, .close cardToken destination who.2⟩]) ++
        [⟨pdaCtx tx card, .close cardMint destination card⟩])
      (((cardTokenCloser tx card customer x).elim [] fun _ => [.empty .refund cardToken destination]) ++
        [.empty .refund cardMint destination]) := by
  unfold cardTokenCloser
  split at h
  · next hca =>
    obtain ⟨s₁, h₁, h₂⟩ := Except.bind_eq_ok.mp h
    rw [if_pos hca]
    exact (invokeClose_delta h₁).trans (invokeClose_delta h₂)
  · next hca =>
    rw [if_neg hca]
    generalize x.closeAuthority = closer at h ⊢
    cases closer with
    | some closer => exact invokeClose_delta (s := s) h
    | none =>
      cases customer with
      | none => exact invokeClose_delta (s := s) h
      | some customer =>
        obtain ⟨s₁, h₁, h₂⟩ := Except.bind_eq_ok.mp h
        exact (invokeClose_delta h₁).trans (invokeClose_delta h₂)

theorem burnAndCloseCardNft_delta {card cardMint cardToken destination : Address} {customer : Option Address}
    (h : burnAndCloseCardNft tx (card :: tx.signers) card cardMint cardToken customer destination s = .ok
      s') :
    Delta s s' [] (burnCardNftCalls tx card cardMint cardToken customer destination
        (s.tokens.accounts.lookup cardToken))
      (burnCardNftPayments tx card cardMint cardToken customer destination
        (s.tokens.accounts.lookup cardToken)) := by
  unfold burnAndCloseCardNft at h
  split at h
  · simp only [Except.bind_eq_ok, loadToken_eq_ok] at h
    obtain ⟨x, hx, h⟩ := h
    rw [hx]
    simp only [burnCardNftCalls, burnCardNftPayments, Option.elim_some, List.append_assoc]
    split at h
    · next hpos =>
      obtain ⟨s₁, h₁, h₂⟩ := Except.bind_eq_ok.mp h
      rw [if_pos hpos]
      exact (invoke_delta h₁).trans (closeCardNft_delta h₂)
    · next hpos =>
      rw [if_neg hpos]
      exact closeCardNft_delta h
  · next hn =>
    rw [(not_inUse.mp hn).2]
    exact invokeClose_delta h

/-- The signature of a card that is at its own address. -/
theorem createProgramAddress_card (hw : s.WellPlaced) {b pda : Address} {c : LoyaltyCard}
    (hc : s.record? b = some (.card c))
    (hpda : createProgramAddress P (.card c.business c.customer) c.bump = some pda) : pda = b := by
  rw [hw.card hc, (createProgramAddress_eq_some.mp hpda).2]

theorem createProgramAddress_voucher (hw : s.WellPlaced) {b pda : Address} {v : Voucher}
    (hv : s.record? b = some (.voucher v))
    (hpda : createProgramAddress P (.voucher v.business v.voucherId) v.bump = some pda) : pda = b := by
  rw [hw.voucher hv, (createProgramAddress_eq_some.mp hpda).2]

theorem retireIdleCardNft_refined {accs : RetireIdleCardNft} (hw : s.WellPlaced)
    (h : retireIdleCardNft P tx accs s = .ok s') :
    Refined P tx s (.program (.retireIdleCardNft accs)) s' := by
  simp only [retireIdleCardNft, Except.bind_eq_ok, load_eq_ok, systemAccount_eq_ok, hasOne_eq_ok,
    seedsConstraint_eq_ok, check_eq_ok, require_eq_ok, withSigner_eq_ok, exists_const] at h
  obtain ⟨c, hc, hu, hcust, hpayer, bump, hmint, htok, since, hsince, hidle, signers, ⟨pda, hpda, rfl⟩, s₁,
    hburn, nftCycle, hcycle, hst⟩ := h
  obtain rfl := createProgramAddress_card hw hc hpda
  have d₁ := burnAndCloseCardNft_delta hburn
  obtain ⟨data, rest, hdata, hlen, d₂⟩ := store_delta hst
  have hd := d₁.trans d₂
  rw [List.append_nil, List.append_nil] at hd
  rw [d₁.program_eq] at hdata
  refine .of (.retireIdleCardNft hc hu hcust hpayer hmint htok hsince hidle hpda hcycle)
    (hd.changed (by simp) ?_ ?_ (by simp)) hd
  · simp only [List.forall_mem_singleton]
    exact hc
  · simp only [List.forall_mem_singleton, List.nil_append, patch_cons, patch_nil, if_true]
    exact Change.holds_over rfl hdata hlen

/-! ## Vouchers -/

theorem presentVoucher_refined {accs : PresentVoucher} (hw : s.WellPlaced)
    (h : presentVoucher P tx accs s = .ok s') : Refined P tx s (.program (.presentVoucher accs)) s' := by
  simp only [presentVoucher, Except.bind_eq_ok, load_eq_ok, loadMint_eq_ok, loadToken_eq_ok, signer_eq_ok,
    hasOne_eq_ok, holderConstraints, ownerConstraint, check_eq_ok, require_eq_ok, voucherSigner,
    withSigner_eq_ok, exists_const] at h
  obtain ⟨v, hv, m, hm, x, hx, hs, hvm, ⟨hone, hfrozen, hmint⟩, howner, hexp, signers, ⟨pda, hpda, rfl⟩, h⟩ :=
    h
  obtain rfl := createProgramAddress_voucher hw hv hpda
  have hd : Delta s s' [] (presentVoucherCalls tx accs x) [] := by
    unfold presentVoucherCalls
    split at h
    · next hnone =>
      obtain ⟨s₁, h₁, h₂⟩ := Except.bind_eq_ok.mp h
      rw [if_pos hnone]
      exact (invoke_delta h₁).trans (invoke_delta h₂)
    · next hnone =>
      rw [if_neg hnone]
      exact invoke_delta h
  exact .of (.presentVoucher hv hs hvm hx hone hfrozen hmint howner hexp hpda) (Changed.of_same hd.program) hd

theorem cancelPresentation_refined {accs : CancelPresentation} (hw : s.WellPlaced)
    (h : cancelPresentation P tx accs s = .ok s') :
    Refined P tx s (.program (.cancelPresentation accs)) s' := by
  simp only [cancelPresentation, Except.bind_eq_ok, load_eq_ok, loadMint_eq_ok, loadToken_eq_ok, signer_eq_ok,
    hasOne_eq_ok, holderConstraints, ownerConstraint, check_eq_ok, require_eq_ok, voucherSigner,
    withSigner_eq_ok, exists_const] at h
  obtain ⟨v, hv, m, hm, x, hx, hs, hvm, ⟨hone, hfrozen, hmint⟩, howner, signers, ⟨pda, hpda, rfl⟩, h⟩ := h
  obtain rfl := createProgramAddress_voucher hw hv hpda
  have hd := invoke_delta h
  exact .of (.cancelPresentation hv hs hvm hx hone hfrozen hmint howner hpda) (Changed.of_same hd.program) hd

theorem closeVoucherMint_delta {voucher mint rentPayer : Address} {m : Mint Address}
    (h : closeVoucherMint (voucher :: tx.signers) voucher mint rentPayer m s = .ok s') :
    Delta s s' [] (closeMintCalls tx voucher mint rentPayer m)
    (closeMintPayments voucher mint rentPayer m) := by
  unfold closeVoucherMint at h
  unfold closeMintCalls closeMintPayments
  split at h
  · next hca => rw [if_pos hca, if_pos hca]; exact invokeClose_delta h
  · next hca =>
    rw [if_neg hca, if_neg hca]
    cases h
    exact .refl s

/-- A token account closed if it names the voucher as its close authority. -/
theorem closeHolder_delta {voucher token rentPayer : Address} {x : Account Address}
    (h : (if x.closeAuthority = some voucher then invokeClose (voucher :: tx.signers) s token rentPayer
      voucher
      else pure s) = .ok s') :
    Delta s s' []
      (if x.closeAuthority = some voucher then [⟨pdaCtx tx voucher, .close token rentPayer voucher⟩] else [])
      (if x.closeAuthority = some voucher then [.empty .refund token rentPayer] else []) := by
  split at h
  · next hca => rw [if_pos hca, if_pos hca]; exact invokeClose_delta h
  · next hca =>
    rw [if_neg hca, if_neg hca]
    cases h
    exact .refl s

theorem redeemVoucher_refined {accs : RedeemVoucher} (hw : s.WellPlaced)
    (h : redeemVoucher P tx accs s = .ok s') : Refined P tx s (.program (.redeemVoucher accs)) s' := by
  simp only [redeemVoucher, Except.bind_eq_ok, ownBusiness_eq_ok, load_eq_ok, loadMint_eq_ok, loadToken_eq_ok,
    signer_eq_ok, systemAccount_eq_ok, hasOne_eq_ok, closeConstraint_eq_ok, holderConstraints, check_eq_ok,
    require_eq_ok, voucherSigner, withSigner_eq_ok, exists_const] at h
  obtain ⟨b, ⟨hb, hseeds, hauth⟩, v, hv, m, hm, x, hx, hs, hrel, hu, hvb, hvm, ⟨hpayer, -⟩,
    ⟨hone, hfrozen, hmint⟩, hexp, signers, ⟨pda, hpda, rfl⟩, s₁, hthaw, s₂, hburn, h⟩ := h
  obtain rfl := createProgramAddress_voucher hw hv hpda
  obtain ⟨s₃, hholder, h⟩ := Except.ite_bind_eq_ok.mp h
  simp only [Except.bind_eq_ok, loadMint_eq_ok, Except.pure_eq_ok] at h
  obtain ⟨m', hm', s₄, hclose, total, htotal, s₅, hst, rfl⟩ := h
  have d₃ := ((invoke_delta hthaw).trans (invoke_delta hburn)).trans (closeHolder_delta hholder)
  obtain ⟨data, rest, hdata, hlen, d₅⟩ := store_delta hst
  have d₄ := d₃.trans (closeVoucherMint_delta hclose)
  have hd := (d₄.trans d₅).trans (close_delta s₅ accs.voucher accs.rentPayer)
  have hne : accs.business ≠ accs.voucher := ne_of_record? hb hv (fun h => by cases h)
  rw [d₄.program] at hdata
  simp only [List.append_nil] at hd
  refine .of (.redeemVoucher hb hseeds hauth hv hm hs hrel hu hvb hvm hpayer hx hone hfrozen hmint hexp hpda
    d₃.tokens hm' htotal) (hd.changed (by simpa using hne) ?_ ?_ (by simp)) hd
  · simp only [List.forall_mem_cons]
    exact ⟨hb, hv, by simp⟩
  · simp only [List.forall_mem_cons, List.cons_append, List.nil_append, patch_cons, patch_nil, if_true,
      if_neg hne, if_neg hne.symm]
    exact ⟨Change.holds_over rfl hdata hlen, rfl, by simp⟩

theorem burnExpired_delta {accs : CloseExpiredVoucher} {decimals : Nat}
    (h : burnExpired accs (accs.voucher :: tx.signers) decimals s = .ok s') :
    (∀ y, s.tokens.accounts.lookup accs.holderToken = some y → y.mint = accs.mint) ∧
      Delta s s' [] (burnExpiredCalls tx accs decimals (s.tokens.accounts.lookup accs.holderToken))
        ((s.tokens.accounts.lookup accs.holderToken).elim [] fun x =>
          if x.closeAuthority = some accs.voucher then
          [.empty .refund accs.holderToken accs.rentPayer] else []) := by
  unfold burnExpired at h
  split at h
  · simp only [Except.bind_eq_ok, loadToken_eq_ok, require_eq_ok, exists_const] at h
    obtain ⟨x, hx, hmint, h⟩ := h
    rw [hx]
    refine ⟨fun y hy => Option.some.inj hy ▸ hmint, ?_⟩
    simp only [burnExpiredCalls, Option.elim_some]
    split at h
    · next hpos =>
      rw [if_pos hpos]
      obtain ⟨s₁, h₁, h⟩ := Except.ite_bind_eq_ok.mp h
      obtain ⟨s₂, h₂, h⟩ := Except.bind_eq_ok.mp h
      have d₁ : Delta s s₁ []
          (if x.frozen = true then [⟨pdaCtx tx accs.voucher, .thaw accs.holderToken accs.mint accs.voucher⟩]
            else [])
          [] := by
        split at h₁
        · next hf => rw [if_pos hf]; exact invoke_delta h₁
        · next hf => rw [if_neg hf]; cases h₁; exact .refl s
      exact (d₁.trans (invoke_delta h₂)).trans (closeHolder_delta h)
    · next hpos =>
      rw [if_neg hpos]
      exact closeHolder_delta h
  · next hn =>
    rw [(not_inUse.mp hn).2]
    cases h
    exact ⟨(by simp), .refl s⟩

theorem closeExpiredVoucher_refined {accs : CloseExpiredVoucher} (hw : s.WellPlaced)
    (h : closeExpiredVoucher P tx accs s = .ok s') :
    Refined P tx s (.program (.closeExpiredVoucher accs)) s' := by
  simp only [closeExpiredVoucher, Except.bind_eq_ok, load_eq_ok, loadMint_eq_ok, systemAccount_eq_ok,
    hasOne_eq_ok, closeConstraint_eq_ok, check_eq_ok, require_eq_ok, voucherSigner, withSigner_eq_ok,
    Except.pure_eq_ok, exists_const] at h
  obtain ⟨v, hv, b, hb, m, hm, hu, hvm, ⟨hpayer, -⟩, hbus, hexp, signers,
    ⟨pda, hpda, rfl⟩, s₁, hburn, m', hm', h0, s₂, hclose, s₃, hst, rfl⟩ := h
  obtain rfl := createProgramAddress_voucher hw hv hpda
  obtain ⟨hmint, d₁⟩ := burnExpired_delta hburn
  obtain ⟨data, rest, hdata, hlen, d₃⟩ := store_delta hst
  have d₂ := d₁.trans (closeVoucherMint_delta hclose)
  have hd := (d₂.trans d₃).trans (close_delta s₃ accs.voucher accs.rentPayer)
  have hne : accs.business ≠ accs.voucher := ne_of_record? hb hv (fun h => by cases h)
  rw [d₂.program] at hdata
  simp only [List.append_nil] at hd
  refine .of (.closeExpiredVoucher hv hb hm hu hvm hpayer hbus hexp hpda rfl hmint d₁.tokens hm' h0)
    (hd.changed (by simpa using hne) ?_ ?_ (by simp)) hd
  · simp only [List.forall_mem_cons]
    exact ⟨hb, hv, by simp⟩
  · simp only [List.forall_mem_cons, List.cons_append, List.nil_append, patch_cons, patch_nil, if_true,
      if_neg hne, if_neg hne.symm]
    exact ⟨Change.holds_over rfl hdata hlen, rfl, by simp⟩

theorem receivingToken_delta {accs : TransferVoucher} {m : Mint Address}
    (hm : s.tokens.mints.lookup accs.mint = some m) (h : receivingToken P tx accs s = .ok s') :
    accs.toToken = .ata accs.newOwner accs.mint ∧ ∃ opens : Bool, (opens = true ↔ ¬s.InUse accs.toToken) ∧
      Delta s s' [] (if opens = true then
          [⟨ownCtx tx, .initializeAccount accs.toToken accs.mint accs.newOwner true⟩] else [])
        (if opens = true then [.topUp .deposit accs.relayer accs.toToken
          (P.minimumBalance (tokenAccountLen m.nonTransferable))] else []) := by
  unfold receivingToken at h
  split at h
  · next hu =>
    simp only [Except.bind_eq_ok, loadToken_eq_ok, check_eq_ok, Except.pure_eq_ok, exists_const] at h
    obtain ⟨x, hx, hxm, hxo, hata, rfl⟩ := h
    exact ⟨hata, false, by simpa using hu, .refl s⟩
  · next hu =>
    obtain ⟨hata, -, m', hm', hd⟩ := createAssociatedToken_delta h
    rw [hm, Option.some.injEq] at hm'
    subst hm'
    exact ⟨hata, true, by simpa using hu, hd⟩

theorem transferVoucher_refined {accs : TransferVoucher} (hw : s.WellPlaced)
    (h : transferVoucher P tx accs s = .ok s') : Refined P tx s (.program (.transferVoucher accs)) s' := by
  simp only [transferVoucher, Except.bind_eq_ok, load_eq_ok, loadMint_eq_ok, loadToken_eq_ok, signer_eq_ok,
    systemAccount_eq_ok, hasOne_eq_ok, holderConstraints, ownerConstraint, check_eq_ok, require_eq_ok,
    voucherSigner, withSigner_eq_ok, exists_const] at h
  obtain ⟨v, hv, m, hm, x, hx, hs, hrel, hu, s₁, hrecv, hvm, hpayer, ⟨hone, hfrozen, hmint⟩, howner, hexp, s₂,
    htransfer, signers, ⟨pda, hpda, rfl⟩, h⟩ := h
  obtain rfl := createProgramAddress_voucher hw hv hpda
  obtain ⟨hata, opens, hopens, d₁⟩ := receivingToken_delta hm hrecv
  obtain ⟨s₃, d₃, hst⟩ : ∃ s₃, Delta s₂ s₃ []
      ((fromTokenCloser tx accs x).elim [] fun who => [⟨who.1, .close accs.fromToken accs.rentPayer who.2⟩])
      ((fromTokenCloser tx accs x).elim [] fun _ => [.empty .refund accs.fromToken accs.rentPayer]) ∧
      store Voucher.account s₃ accs.voucher { v with owner := accs.newOwner } = .ok s' := by
    unfold fromTokenCloser
    split at h
    · next hnone =>
      obtain ⟨s₃, h₁, h₂⟩ := Except.bind_eq_ok.mp h
      rw [if_pos hnone]
      exact ⟨s₃, invokeClose_delta h₁, h₂⟩
    · next hnone =>
      rw [if_neg hnone]
      split at h
      · next hown =>
        obtain ⟨s₃, h₁, h₂⟩ := Except.bind_eq_ok.mp h
        rw [if_pos hown]
        exact ⟨s₃, invokeClose_delta h₁, h₂⟩
      · next hown =>
        rw [if_neg hown]
        exact ⟨s₂, .refl s₂, h⟩
  obtain ⟨data, rest, hdata, hlen, d₄⟩ := store_delta hst
  have d := (d₁.trans (invoke_delta htransfer)).trans d₃
  have hd := d.trans d₄
  rw [d.program] at hdata
  simp only [List.append_nil, List.append_assoc, List.cons_append, List.nil_append] at hd
  refine .of (.transferVoucher hv hm hs hrel hu hvm hpayer hx hone hfrozen hmint howner hexp hata hopens hpda)
    (hd.changed (by simp) ?_ ?_ (by simp)) hd
  · simp only [List.forall_mem_singleton]
    exact hv
  · simp only [List.forall_mem_singleton, patch_cons, patch_nil, if_true]
    exact Change.holds_over rfl hdata hlen

/-- The card-NFT step of `mint_voucher`, for a card at its own address. -/
theorem retireCardNft_delta {accs : MintVoucher} {c : LoyaltyCard} {retired : Bool}
    (hpda : accs.card = .card c.business c.customer c.bump)
    (h : retireCardNft P tx accs c s = .ok (s', retired)) :
    (retired = true ↔ s.TokenOwned accs.cardMint) ∧ ∃ destination,
      (if c.rentPayer = .default then destination = accs.relayer else destination = c.rentPayer) ∧
      Delta s s' []
        (if retired = true then burnCardNftCalls tx accs.card accs.cardMint accs.cardToken
          (some accs.customer) destination (s.tokens.accounts.lookup accs.cardToken) else [])
        (if retired = true then burnCardNftPayments tx accs.card accs.cardMint accs.cardToken
          (some accs.customer) destination (s.tokens.accounts.lookup accs.cardToken) else []) := by
  unfold retireCardNft at h
  split at h
  · next howned =>
    obtain ⟨destination, hdest, h⟩ : ∃ destination,
        (if c.rentPayer = .default then destination = accs.relayer else destination = c.rentPayer) ∧
        (do
          let signers ← withSigner P tx (.card c.business c.customer) c.bump
          let s ← burnAndCloseCardNft tx signers accs.card accs.cardMint accs.cardToken (some accs.customer)
            destination s
          pure (s, true)) = .ok (s', retired) := by
      dsimp only at h
      split at h
      · next hd => exact ⟨accs.relayer, by rw [if_pos hd], h⟩
      · next hd =>
        obtain ⟨u, hreq, h⟩ := Except.bind_eq_ok.mp h
        exact ⟨accs.cardRentPayer, by rw [if_neg hd]; exact require_eq_ok.mp hreq, h⟩
    simp only [Except.bind_eq_ok, withSigner_eq_ok, Except.pure_eq_ok, Prod.mk.injEq] at h
    obtain ⟨signers, ⟨pda, hcreate, rfl⟩, s₁, hburn, rfl, rfl⟩ := h
    have hcard : pda = accs.card := by rw [hpda, (createProgramAddress_eq_some.mp hcreate).2]
    subst hcard
    exact ⟨by simpa using howned, destination, hdest, burnAndCloseCardNft_delta hburn⟩
  · next howned =>
    cases h
    refine ⟨by simpa using howned, if c.rentPayer = .default then accs.relayer else c.rentPayer, ?_, .refl s⟩
    split <;> rfl

/-- `mint_voucher` up to its step at the card's NFT: the state by then, and the records it will write. -/
def mintVoucherUpToNft (P : Platform) (tx : Tx) (accs : MintVoucher) (voucherId : UInt64) (uri : Text)
    (s : State) :
    Except Failure (State × Business × LoyaltyCard × Voucher) := do
  let business ← load Business.account s accs.business
  let card ← load LoyaltyCard.account s accs.card
  signer tx accs.customer
  signer tx accs.relayer
  let voucherBump ← seedsConstraint P (.voucher accs.business voucherId) accs.voucher
  let s ← create P tx Voucher.account s accs.relayer accs.voucher
  let _mintBump ← seedsConstraint P (.voucherMint accs.business voucherId) accs.mint
  let s ← createAddress tx s .deposit accs.relayer accs.mint (P.minimumBalance voucherMintLen)
  let s ← invoke tx.signers s (.initializeMint accs.mint (voucherMint accs.voucher))
  let s ← createAssociatedToken P tx s accs.relayer accs.customerToken accs.customer accs.mint
  seedsConstraintWith P (.card accs.business accs.customer) card.bump accs.card
  let _cardMintBump ← seedsConstraint P (.cardMint accs.card card.nftCycle) accs.cardMint
  check (accs.cardToken = .ata accs.customer accs.cardMint) (.anchor .constraintAddress)
  let (business, card, voucher) ← mintVoucherHandler tx.now accs voucherBump voucherId uri business card
  let signers ← withSigner P tx (.voucher accs.business voucherId) voucher.bump
  let s ← mintVoucherTokens P tx accs uri business signers s
  pure (s, business, card, voucher)

/-- And from there on. -/
def mintVoucherFromNft (P : Platform) (tx : Tx) (accs : MintVoucher) (business : Business)
    (card : LoyaltyCard)
    (voucher : Voucher) (s : State) : Except Failure State := do
  let (s, retired) ← retireCardNft P tx accs card s
  let nftCycle ← if retired then addU32 card.nftCycle 1 else pure card.nftCycle
  let s ← store Business.account s accs.business business
  let s ← store LoyaltyCard.account s accs.card { card with nftCycle := nftCycle }
  store Voucher.account s accs.voucher voucher

theorem mintVoucher_eq (P : Platform) (tx : Tx) (accs : MintVoucher) (voucherId : UInt64) (uri : Text)
    (s : State) :
    mintVoucher P tx accs voucherId uri s = mintVoucherUpToNft P tx accs voucherId uri s >>= fun r =>
      mintVoucherFromNft P tx accs r.2.1 r.2.2.1 r.2.2.2 r.1 := by
  simp only [mintVoucher, mintVoucherUpToNft, mintVoucherFromNft, bind_assoc, pure_bind]

/-- What `mint_voucher` has found before its step at the card's NFT. -/
structure CashesIn (P : Platform) (tx : Tx) (s : State) (accs : MintVoucher) (voucherId : UInt64) (uri : Text)
    (b b' : Business) (c c' : LoyaltyCard) (v : Voucher) : Prop where
  business : s.record? accs.business = some (.business b)
  card : s.record? accs.card = some (.card c)
  customer : accs.customer ∈ tx.signers
  relayer : accs.relayer ∈ tx.signers
  voucher : ∃ bump, findProgramAddress P (.voucher accs.business voucherId) = some (accs.voucher, bump) ∧
    mintVoucherHandler tx.now accs bump voucherId uri b c = .ok (b', c', v)
  voucherFree : ¬s.InUse accs.voucher
  mint : ∃ bump, findProgramAddress P (.voucherMint accs.business voucherId) = some (accs.mint, bump)
  mintFree : ¬s.InUse accs.mint
  customerToken : accs.customerToken = .ata accs.customer accs.mint
  customerTokenFree : ¬s.InUse accs.customerToken
  cardAddress : createProgramAddress P (.card accs.business accs.customer) c.bump = some accs.card
  ofBusiness : c.business = accs.business
  ofCustomer : c.customer = accs.customer
  cardMint : ∃ bump, findProgramAddress P (.cardMint accs.card c.nftCycle) = some (accs.cardMint, bump)
  cardToken : accs.cardToken = .ata accs.customer accs.cardMint

/-- The handler leaves alone what the rest of the instruction reads. -/
theorem CashesIn.kept {accs voucherId uri b b' c c' v} (h : CashesIn P tx s accs voucherId uri b b' c c' v) :
    c'.nftCycle = c.nftCycle ∧ c'.rentPayer = c.rentPayer ∧ c'.business = c.business ∧
    c'.customer = c.customer ∧
      c'.bump = c.bump := by
  obtain ⟨bump, -, hok⟩ := h.voucher
  obtain ⟨-, -, hcash, -⟩ := mintVoucherHandler_eq_ok hok
  obtain ⟨st, -, rfl⟩ := cashIn_eq_ok hcash
  exact ⟨rfl, rfl, rfl, rfl, rfl⟩

theorem mintVoucherUpToNft_eq_ok {accs : MintVoucher} {voucherId uri s₁ b' c' v} (hw : s.WellPlaced)
    (h : mintVoucherUpToNft P tx accs voucherId uri s = .ok (s₁, b', c', v)) :
    ∃ b c, CashesIn P tx s accs voucherId uri b b' c c' v ∧
      Delta s s₁ [⟨accs.voucher, some (List.replicate Voucher.space (.lit 0))⟩]
        (mintVoucherCalls tx accs (voucherName b.toBusinessV1) uri)
        [.topUp .deposit accs.relayer accs.voucher (P.minimumBalance Voucher.space),
          .topUp .deposit accs.relayer accs.mint (P.minimumBalance voucherMintLen),
          .topUp .deposit accs.relayer accs.customerToken (P.minimumBalance (tokenAccountLen false)),
          .topUp .deposit accs.relayer accs.mint (P.minimumBalance (voucherMintLen +
            metadataLen (voucherName b.toBusinessV1) voucherSymbol uri.val))] := by
  simp only [mintVoucherUpToNft, mintVoucherTokens, Except.bind_eq_ok, load_eq_ok, signer_eq_ok,
    seedsConstraint_eq_ok,
    seedsConstraintWith_eq_ok, check_eq_ok, withSigner_eq_ok, Except.pure_eq_ok, Prod.mk.injEq, exists_const]
    at h
  obtain ⟨b, hb, c, hc, hs, hrel, bump, hvoucher, s₁, hcreate, mintBump, hmint, s₂, hnew, s₃, hinit, s₄, hata,
    hseeds, cardMintBump, hcardMint, htok, ⟨b', c', v⟩, hok, signers, ⟨pda, hpda, rfl⟩, s₉,
    ⟨s₅, htop, s₆, hmeta, s₇, hto, s₈, hset, hend⟩, rfl, rfl, rfl, rfl⟩ := h
  obtain ⟨hname, hvbump⟩ : voucherName b'.toBusinessV1 = voucherName b.toBusinessV1 ∧ v.bump = bump := by
    obtain ⟨-, -, -, e, tv, ov, -, -, -, rfl, rfl⟩ := mintVoucherHandler_eq_ok hok
    exact ⟨rfl, rfl⟩
  have hown := hw.card hc
  rw [(createProgramAddress_eq_some.mp hseeds).2, Address.card.injEq] at hown
  simp only [hvbump, createProgramAddress_of_find hvoucher, Option.some.injEq] at hpda
  subst hpda
  rw [hname] at htop hmeta
  obtain ⟨hvfree, d₁⟩ := create_delta hcreate
  obtain ⟨hmfree, d₂⟩ := createAddress_delta hnew
  obtain ⟨hctok, hctfree, m, hm, d₄⟩ := createAssociatedToken_delta hata
  have hmfree : ¬s.InUse accs.mint := d₁.not_inUse (by simp) (by simp) hmfree
  have d₃ := (d₁.trans d₂).trans (invoke_delta hinit)
  have hfree : ¬s.InUse accs.customerToken := d₃.not_inUse (by simp) (by simp) hctfree
  -- the mint just made can be transferred
  have hnt : m.nonTransferable = false := by
    have hrun := d₃.tokens
    simp only [List.append_nil, List.nil_append, run_cons_eq_ok] at hrun
    obtain ⟨t, hd, hr⟩ := hrun
    cases hr
    clear d₄ hctfree d₃
    generalize s₃.tokens = t at hd hm
    cases hd
    rw [Tokens.setMint_mints, Store.lookup_insert_self, Option.some.injEq] at hm
    subst hm
    rfl
  rw [hnt] at d₄
  have d₉ := (((((d₃.trans d₄).trans (topUp_delta htop)).trans (invoke_delta hmeta)).trans
    (invoke_delta hto)).trans (invoke_delta hset)).trans (invoke_delta hend)
  exact ⟨b, c, ⟨hb, hc, hs, hrel, ⟨bump, hvoucher, hok⟩, hvfree, ⟨mintBump, hmint⟩, hmfree, hctok, hfree,
    hseeds, hown.1.symm, hown.2.1.symm, ⟨cardMintBump, hcardMint⟩, htok⟩, d₉⟩

/-- The card's NFT is not touched by what happens to the voucher's. -/
theorem CashesIn.frame {accs voucherId uri b b' c c' v s₁ ws ps} {name : String}
    (h : CashesIn P tx s accs voucherId uri b b' c c' v)
    (hd : Delta s s₁ ws (mintVoucherCalls tx accs name uri) ps) :
    (∀ a, a = accs.cardMint ∨ a = accs.cardToken → s₁.tokens.mints.lookup a = s.tokens.mints.lookup a ∧
      s₁.tokens.accounts.lookup a = s.tokens.accounts.lookup a) := by
  obtain ⟨_, hmint⟩ := h.mint
  obtain ⟨_, hcardMint⟩ := h.cardMint
  have hmm : accs.mint ≠ accs.cardMint := by
    rw [findProgramAddress_eq hmint, findProgramAddress_eq hcardMint]
    simp
  intro a ha
  obtain ⟨h₁, h₂⟩ : a ≠ accs.mint ∧ a ≠ accs.customerToken := by
    rcases ha with rfl | rfl
    · refine ⟨hmm.symm, ?_⟩
      rw [h.customerToken, findProgramAddress_eq hcardMint]
      simp
    · refine ⟨by rw [h.cardToken, findProgramAddress_eq hmint]; exact (by simp), ?_⟩
      rw [h.cardToken, h.customerToken, ne_eq, Address.ata.injEq, not_and]
      exact fun _ => hmm.symm
  exact run_frame hd.tokens (by simp [mintVoucherCalls, Op.touched, h₁, h₂])

theorem mintVoucher_refined {accs : MintVoucher} {voucherId uri} (hw : s.WellPlaced)
    (h : mintVoucher P tx accs voucherId uri s = .ok s') :
    Refined P tx s (.program (.mintVoucher accs voucherId uri)) s' := by
  rw [mintVoucher_eq, Except.bind_eq_ok] at h
  obtain ⟨⟨s₉, b', c', v⟩, hup, h⟩ := h
  obtain ⟨b, c, hin, d₉⟩ := mintVoucherUpToNft_eq_ok hw hup
  simp only [mintVoucherFromNft, Except.bind_eq_ok] at h
  obtain ⟨⟨s₁₀, retired⟩, hretire, h⟩ := h
  obtain ⟨nftCycle, hcycle, h⟩ := Except.ite_bind_eq_ok.mp h
  simp only [Except.bind_eq_ok] at h
  obtain ⟨s₁₁, hst₁, s₁₂, hst₂, hst₃⟩ := h
  obtain ⟨hcycle', hpayer', hbus', hcus', hbump'⟩ := hin.kept
  have hcard' : accs.card = .card c'.business c'.customer c'.bump := by
    rw [hbus', hcus', hbump']
    exact hw.card hin.card
  obtain ⟨hcm₁, hcm₂⟩ := hin.frame d₉ _ (.inl rfl)
  obtain ⟨-, hct⟩ := hin.frame d₉ _ (.inr rfl)
  obtain ⟨hretired, destination, hdest, d₁₀⟩ := retireCardNft_delta hcard' hretire
  have howned : s₉.TokenOwned accs.cardMint ↔ s.TokenOwned accs.cardMint := by
    rw [← not_iff_not, not_inUse, not_inUse, hcm₁, hcm₂]
  rw [howned] at hretired
  rw [hct] at d₁₀
  rw [hpayer'] at hdest
  have d := d₉.trans d₁₀
  obtain ⟨data₁, rest₁, hdata₁, hlen₁, e₁⟩ := store_delta hst₁
  obtain ⟨data₂, rest₂, hdata₂, hlen₂, e₂⟩ := store_delta hst₂
  obtain ⟨data₃, rest₃, hdata₃, hlen₃, e₃⟩ := store_delta hst₃
  have hd := ((d.trans e₁).trans e₂).trans e₃
  have hbc : accs.business ≠ accs.card := ne_of_record? hin.business hin.card (by simp)
  have hbv : accs.business ≠ accs.voucher := ne_of_not_inUse hin.business hin.voucherFree
  have hcv : accs.card ≠ accs.voucher := ne_of_not_inUse hin.card hin.voucherFree
  rw [d.program] at hdata₁
  rw [(d.trans e₁).program] at hdata₂
  rw [((d.trans e₁).trans e₂).program] at hdata₃
  simp only [List.append_nil, List.cons_append, List.nil_append, patch_cons, patch_nil, if_true, if_neg hbc,
    if_neg hbv.symm, if_neg hcv.symm, if_neg hbv, if_neg hcv, Option.some.injEq] at hdata₁ hdata₂ hdata₃
  simp only [List.append_nil, List.cons_append, List.nil_append] at hd
  obtain ⟨bump, hvoucher, hok⟩ := hin.voucher
  obtain ⟨mintBump, hmint⟩ := hin.mint
  obtain ⟨cardMintBump, hcardMint⟩ := hin.cardMint
  refine .of (.mintVoucher hin.business hin.card hin.customer hin.relayer hvoucher hin.voucherFree hmint
    hin.mintFree
    hin.customerToken hin.customerTokenFree hin.cardAddress hin.ofBusiness hin.ofCustomer hcardMint
    hin.cardToken hok
    hretired (hcycle' ▸ hcycle) hdest)
    (hd.changed (by simp [hbc, hbv, hcv]) ?_ ?_ (by simp)) hd
  · simp only [List.forall_mem_cons]
    exact ⟨hin.business, hin.card, State.record?_of_not_inUse hin.voucherFree, by simp⟩
  · simp only [List.forall_mem_cons, patch_cons, patch_nil, if_true, if_neg hbc, if_neg hbc.symm, if_neg hbv,
      if_neg hbv.symm, if_neg hcv, if_neg hcv.symm]
    exact ⟨Change.holds_over rfl hdata₁ hlen₁, Change.holds_over rfl hdata₂ hlen₂,
      Change.holds_new rfl hdata₃.symm hlen₃, by simp⟩

/-! ## Migrations -/

theorem readAt_append {α : Type} {l : Codec Byte α} {x : α} {data p q : List Byte} {n : Nat}
    (h : data = p ++ (l.enc x ++ q)) (hn : p.length = n) : readAt l data n = some x := by
  rw [readAt, h, ← hn, List.drop_left, l.dec_enc]
  rfl

theorem readAt_skip {α : Type} {l : Codec Byte α} {x : α} {data pre : List Byte} {k n : Nat}
    (h : readAt l data n = some x) (hk : pre.length = k) : readAt l (pre ++ data) (k + n) = some x := by
  have hdrop : (pre ++ data).drop (k + n) = data.drop n := by rw [← hk, ← List.drop_drop, List.drop_left]
  rw [readAt, hdrop]
  exact h

theorem address_enc (a : Address) : address.enc a = a.toBytes := by
  show (Codec.cell.rep 32).enc ⟨a.toBytes, a.length_toBytes⟩ = a.toBytes
  rw [Codec.rep_enc]
  simp [Codec.cell]

/-- Where the fields of a card are, in any layout. -/
theorem readAt_card {data r : List Byte} {c : CardV1}
    (h : data = LoyaltyCard.discriminator ++ (CardV1.layout.enc c ++ r)) :
    pubkeyAt data businessAt = some c.business ∧ pubkeyAt data customerAt = some c.customer ∧
      readAt u8 data bumpAt = some c.bump ∧ readAt u32 data nftCycleAt = some c.nftCycle ∧
      readAt u8 data stampsAt = some c.stamps ∧ readAt u32 data lifetimeStampsAt = some c.lifetimeStamps ∧
      readAt u8 data snapshotAt = some c.stampsRequiredSnapshot := by
  have ha := address_sized
  have h1 := u8_sized
  have h4 := u32_sized
  have h8 := i64_sized
  have hdisc : LoyaltyCard.discriminator.length = 8 := rfl
  have henc : CardV1.layout.enc c = address.enc c.business ++ (address.enc c.customer ++ (u8.enc c.stamps ++
        (i64.enc c.lastStampTs ++ (i64.enc c.claimsWindowStart ++ (u32.enc c.claimsThisWindow ++
          (u32.enc c.lifetimeStamps ++ (u32.enc c.nftCycle ++ (u8.enc c.stampsRequiredSnapshot ++
            u8.enc c.bump)))))))) := rfl
  rw [henc] at h
  subst h
  simp only [List.append_assoc]
  have here : ∀ {α : Type} {l : Codec Byte α} {x : α} {post : List Byte},
      readAt l (l.enc x ++ post) 0 = some x := fun {_ _ _ _} => readAt_append (p := []) rfl rfl
  exact ⟨readAt_skip here hdisc,
    readAt_skip (readAt_skip here (ha _)) hdisc,
    readAt_skip (readAt_skip (readAt_skip (readAt_skip (readAt_skip (readAt_skip (readAt_skip (readAt_skip
      (readAt_skip (readAt_skip here (h1 _)) (h4 _)) (h4 _)) (h4 _)) (h8 _)) (h8 _)) (h1 _)) (ha _)) (ha _))
      hdisc,
    readAt_skip (readAt_skip (readAt_skip (readAt_skip (readAt_skip (readAt_skip (readAt_skip (readAt_skip
      here (h4 _)) (h4 _)) (h8 _)) (h8 _)) (h1 _)) (ha _)) (ha _)) hdisc,
    readAt_skip (readAt_skip (readAt_skip here (ha _)) (ha _)) hdisc,
    readAt_skip (readAt_skip (readAt_skip (readAt_skip (readAt_skip (readAt_skip (readAt_skip
      here (h4 _)) (h8 _)) (h8 _)) (h1 _)) (ha _)) (ha _)) hdisc,
    readAt_skip (readAt_skip (readAt_skip (readAt_skip (readAt_skip (readAt_skip (readAt_skip (readAt_skip
      (readAt_skip here (h4 _)) (h4 _)) (h4 _)) (h8 _)) (h8 _)) (h1 _)) (ha _)) (ha _)) hdisc⟩

theorem checkOldCard_eq_ok {accs : MigrateCard} {data : List Byte} {u : Unit}
    (h : checkOldCard P accs data = .ok u) :
    data.take 8 = LoyaltyCard.discriminator ∧ data.length < LoyaltyCard.space ∧
    ∃ business customer bump cycle mintBump recordBump, pubkeyAt data businessAt = some business ∧
      pubkeyAt data customerAt = some customer ∧ readAt u8 data bumpAt = some bump ∧
      createProgramAddress P (.card business customer) bump = some accs.card ∧
      readAt u32 data nftCycleAt = some cycle ∧
      findProgramAddress P (.cardMint accs.card cycle) = some (accs.cardMint, mintBump) ∧
      findProgramAddress P (.cardNft accs.cardMint) = some (accs.record, recordBump) := by
  simp only [checkOldCard, Except.bind_eq_ok, require_eq_ok, demand_eq_ok, exists_const] at h
  obtain ⟨-, hdisc, hlen, business, hb, customer, hc, bump, hbump, expected, he, rfl, cycle, hcycle,
    ⟨mint, mintBump⟩, hmint, rfl, ⟨record, recordBump⟩, hrecord, rfl⟩ := h
  exact ⟨hdisc, hlen, business, customer, bump, cycle, mintBump, recordBump, hb, hc, hbump, he, hcycle, hmint,
    hrecord⟩

theorem overwrite_append {front tail bytes : List Byte} {n : Nat} (h : front.length = n) :
    overwrite (front ++ tail) n bytes = front ++ (bytes ++ tail.drop bytes.length) := by
  subst h
  rw [overwrite, List.take_left, ← List.drop_drop, List.drop_left, List.append_assoc]

/-- The grown and filled account reads as a current card with the old fields. -/
theorem fillCard_bytes {old rest : List Byte} {c : CardV1} (payer : Address) (rewards : UInt32)
    (hold : old = LoyaltyCard.discriminator ++ (CardV1.layout.enc c ++ rest))
    (hlen : old.length < LoyaltyCard.space)
    (hlegible : cardLenV2 ≤ old.length → (readAt address old cardLenV1).isSome = true) :
    ∃ rentPayer, MigratedPayer old payer rentPayer ∧
      fillCard old.length payer rewards (resize old LoyaltyCard.space) =
        (Record.card { c with rentPayer := rentPayer, rewardsEarned := rewards }).bytes := by
  have hbytes : ∀ p, (Record.card { c with rentPayer := p, rewardsEarned := rewards }).bytes =
      LoyaltyCard.discriminator ++ CardV1.layout.enc c ++ (address.enc p ++ u32.enc rewards) := fun p => by
    rw [Record.bytes, LoyaltyCard.layout_enc, List.append_assoc]
  have hfront : (LoyaltyCard.discriminator ++ CardV1.layout.enc c).length = cardLenV1 := by
    rw [List.length_append, CardV1.layout_sized c]; rfl
  rw [← List.append_assoc] at hold
  generalize LoyaltyCard.discriminator ++ CardV1.layout.enc c = front at hold hfront hbytes
  obtain ⟨zeros, hres, hzeros⟩ : ∃ zeros, resize old LoyaltyCard.space = front ++ (rest ++ zeros) ∧
      (rest ++ zeros).length = 36 := by
    refine ⟨List.replicate (LoyaltyCard.space - old.length) (.lit 0),
      by rw [resize, hold, List.append_assoc], ?_⟩
    have : old.length = cardLenV1 + rest.length := by rw [hold, List.length_append, hfront]
    simp only [List.length_append, List.length_replicate, LoyaltyCard.space, cardLenV1] at hlen this ⊢
    omega
  have hp := fun p => address_sized p
  have hr := u32_sized rewards
  rw [hres, fillCard]
  by_cases hv : old.length < cardLenV2
  · refine ⟨payer, by rw [MigratedPayer, if_pos hv], ?_⟩
    rw [if_pos hv, overwrite_append hfront, ← List.append_assoc, ← address_enc, overwrite_append (by
      rw [List.length_append, hfront, hp, cardLenV1, cardLenV2]), hbytes, List.append_assoc, hr, hp,
      List.drop_drop, List.drop_eq_nil_of_le (by rw [hzeros]), List.append_nil]
  · obtain ⟨p, hread⟩ := Option.isSome_iff_exists.mp (hlegible (Nat.le_of_not_lt hv))
    refine ⟨p, by rw [MigratedPayer, if_neg hv, hread], ?_⟩
    obtain ⟨⟨q, rest'⟩, hdec, rfl⟩ := Option.map_eq_some_iff.mp hread
    obtain rfl : address.enc q ++ rest' = rest := by
      rw [address.enc_dec hdec, hold, ← hfront, List.drop_left]
    rw [List.append_assoc, List.length_append, hp] at hzeros
    rw [if_neg hv, List.append_assoc, ← List.append_assoc, overwrite_append (by
      rw [List.length_append, hfront, hp, cardLenV1, cardLenV2]), hbytes, List.append_assoc, hr,
      List.drop_eq_nil_of_le (by omega), List.append_nil]

theorem put_delta (s : State) (b : Address) (data : List Byte) :
    Delta s { s with program := s.program.insert b data } [⟨b, some data⟩] [] [] := by
  refine ⟨fun c => ?_, rfl, rfl, rfl, trivial⟩
  rw [Store.lookup_insert, patch_cons, patch_nil]
  simp only [eq_comm]

theorem recordedPayer_eq_ok {accs : MigrateCard} {payer : Address}
    (h : recordedPayer accs s = .ok (s', payer)) :
    (∃ n, s.record? accs.record = some (.cardNft n) ∧ accs.rentPayer = n.rentPayer ∧ payer = n.rentPayer ∧
      s' = close s accs.record accs.rentPayer) ∨
    (∀ data, s.program.lookup accs.record = some data → data = []) ∧ payer = accs.relayer ∧ s' = s := by
  unfold recordedPayer at h
  split at h
  · simp only [Except.bind_eq_ok, load_eq_ok, require_eq_ok, Except.pure_eq_ok, exists_const,
      Prod.mk.injEq] at h
    obtain ⟨n, hn, hpayer, rfl, rfl⟩ := h
    exact .inl ⟨n, hn, hpayer, rfl, rfl⟩
  · next hnone =>
    cases h
    refine .inr ⟨fun data hd => ?_, rfl, rfl⟩
    simpa [hd] using hnone

/-- What migrating a card does, for an account whose bytes read as a card of some layout. -/
theorem migrateCard_refined_of {accs : MigrateCard} {old : List Byte} {c : CardV1}
    (hold : s.program.lookup accs.card = some old) (hface : Face.parse old = some (.card c))
    (hlegible : cardLenV2 ≤ old.length → (readAt address old cardLenV1).isSome = true)
    (h : migrateCard P tx accs s = .ok s') : Refined P tx s (.program (.migrateCard accs)) s' := by
  simp only [migrateCard, Except.bind_eq_ok, systemAccount_eq_ok, signer_eq_ok, demand_eq_ok,
    Except.pure_eq_ok, exists_const] at h
  obtain ⟨hu, hrel, old', hold', ⟨⟩, hcheck, s₁, htop, stamps, hstamps, lifetime, hlife, snapshot, hsnap,
    ⟨s₂, payer⟩, hpayer, rfl⟩ := h
  rw [hold, Option.some.injEq] at hold'
  subst hold'
  obtain ⟨-, hlen, business, customer, bump, cycle, mintBump, recordBump, hb, hc, hbump, hcreate, hcycle,
    hmint, hrecord⟩ := checkOldCard_eq_ok hcheck
  obtain ⟨rest, hbytes⟩ := Face.bytes_of_card hface
  obtain ⟨hb', hc', hbump', hcycle', -, -, -⟩ := readAt_card hbytes
  obtain ⟨-, -, -, -, hstamps', hlife', hsnap'⟩ :=
    readAt_card (c := c) (r := rest ++ List.replicate (LoyaltyCard.space - old.length) (.lit 0))
      (show resize old LoyaltyCard.space = _ by rw [resize, hbytes]; simp only [List.append_assoc])
  rw [hb, Option.some.injEq] at hb'
  rw [hc, Option.some.injEq] at hc'
  rw [hbump, Option.some.injEq] at hbump'
  rw [hcycle, Option.some.injEq] at hcycle'
  rw [hstamps, Option.some.injEq] at hstamps'
  rw [hlife, Option.some.injEq] at hlife'
  rw [hsnap, Option.some.injEq] at hsnap'
  subst hb' hc' hbump' hcycle' hstamps' hlife' hsnap'
  have d₁ := topUp_delta htop
  have hnone : s.record? accs.card = none := by
    rw [State.record?, hold, Option.bind_some]
    cases hp : Record.parse old with
    | none => rfl
    | some r =>
      -- A current card is longer than this account.
      exfalso
      have hf := Face.parse_of_record hp
      rw [hface, Option.some.injEq] at hf
      cases r <;> simp only [Record.face, reduceCtorEq] at hf
      have := Record.length_le_of_parse hp
      rw [Record.length_bytes fun _ hb => (by cases hb)] at this
      exact absurd hlen (Nat.not_lt.mpr this)
  have hne : accs.card ≠ accs.record := by
    rw [(createProgramAddress_eq_some.mp hcreate).2, findProgramAddress_eq hrecord]
    simp
  obtain ⟨rentPayer, hmigrated, hfilled⟩ := fillCard_bytes payer
    (oldRewardsEarned c.lifetimeStamps c.stamps c.stampsRequiredSnapshot) hbytes hlen hlegible
  have hface' : s.face? accs.card = some (.card c) := by rw [State.face?, hold, Option.bind_some, hface]
  have d₂ := d₁.trans (put_delta s₁ accs.card (resize old LoyaltyCard.space))
  have hrecord? : ∀ b, b ≠ accs.card →
      ({ s₁ with program := s₁.program.insert accs.card (resize old LoyaltyCard.space) } :
        State).program.lookup b = s.program.lookup b := fun b hb => by
    rw [d₂.program]
    simp [hb.symm]
  let c' : LoyaltyCard := { c with
    rentPayer := rentPayer
    rewardsEarned := oldRewardsEarned c.lifetimeStamps c.stamps c.stampsRequiredSnapshot }
  have hroom : (Record.card c').bytes.length = LoyaltyCard.space :=
    Record.length_bytes fun _ hb => (by cases hb)
  dsimp only
  rw [hfilled]
  rcases recordedPayer_eq_ok hpayer with ⟨n, hn, hpay, rfl, rfl⟩ | ⟨hempty, rfl, rfl⟩
  · rw [State.record?_of_lookup (hrecord? _ hne.symm)] at hn
    have d := d₂.trans (close_delta _ accs.record accs.rentPayer)
    have hd := d.trans (put_delta _ accs.card (Record.card c').bytes)
    refine .of (.migrateCard (n := some n) hu hrel hold hlen hnone hface' hcreate hmint hrecord
      (by rintro x ⟨⟩; exact ⟨hn, hpay⟩) (by simp)
      (show c'.toCardV1 = c from rfl) hmigrated rfl) (hd.changed (by simpa using hne) ?_ ?_ (by simp)) hd
    · simp only [Option.elim_some, List.forall_mem_cons]
      exact ⟨hnone, hn, by simp⟩
    · simp only [Option.elim_some, List.forall_mem_cons, List.cons_append, List.nil_append, patch_cons,
        patch_nil, if_true, if_neg hne, if_neg hne.symm]
      exact ⟨⟨[], by rw [List.append_nil], .inl (by rw [List.append_nil]; exact hroom)⟩, rfl, by simp⟩
  · have hd := d₂.trans (put_delta _ accs.card (Record.card c').bytes)
    refine .of (.migrateCard (n := none) hu hrel hold hlen hnone hface' hcreate hmint hrecord (by simp)
      (fun _ data hdata => hempty data ((hrecord? _ hne.symm).trans hdata))
      (show c'.toCardV1 = c from rfl) hmigrated rfl)
      (hd.changed (by simp) ?_ ?_ (by simp)) hd
    · simp only [Option.elim_none, List.forall_mem_singleton]
      exact hnone
    · simp only [Option.elim_none, List.forall_mem_singleton, List.cons_append, List.nil_append, patch_cons,
        patch_nil, if_true]
      exact ⟨[], by rw [List.append_nil], .inl (by rw [List.append_nil]; exact hroom)⟩

theorem migrateCard_refined {accs : MigrateCard} (hw : s.WellPlaced) (h : migrateCard P tx accs s = .ok s') :
    Refined P tx s (.program (.migrateCard accs)) s' := by
  obtain ⟨-, -, -, -, old, hold, ⟨⟩, hcheck, -⟩ := by
    simpa only [migrateCard, Except.bind_eq_ok, demand_eq_ok, exists_and_left] using h
  obtain ⟨f, hface, -⟩ := hw.faced hold
  obtain ⟨c, rfl⟩ := Face.card_of_discriminator hface (checkOldCard_eq_ok hcheck).1
  exact migrateCard_refined_of hold hface (hw.legible hold hface) h

theorem migrateBusiness_refined {accs : MigrateBusiness} (h : migrateBusiness P tx accs s = .ok s') :
    Refined P tx s (.program (.migrateBusiness accs)) s' := by
  simp only [migrateBusiness, Except.bind_eq_ok, signer_eq_ok, demand_eq_ok, require_eq_ok, Except.pure_eq_ok,
    exists_const] at h
  obtain ⟨hrel, old, hold, -, hdisc, hlen, b, hb, expected, hcreate, rfl, s₁, htop, hfits, rfl⟩ := h
  have d := topUp_delta htop
  have hd := d.trans (put_delta s₁ accs.business (overwrite (resize old Business.space) 0
    (Business.discriminator ++ Business.layout.enc (upgradeBusiness tx.now accs.relayer b))))
  have hface : s.face? accs.business = some (.business b) := by
    rw [State.face?, hold, Option.bind_some, Face.parse_business hdisc hb]
  have hroom : (resize old Business.space).length = Business.space := by
    rw [resize, List.length_append, List.length_replicate]
    omega
  refine .of (.migrateBusiness hrel hold hlen hface hcreate) (hd.changed (by simp) ?_ ?_ (by simp)) hd
  · simp only [List.forall_mem_singleton]
  · simp only [List.forall_mem_singleton, List.nil_append, patch_cons, patch_nil, if_true]
    refine ⟨(resize old Business.space).drop (Business.discriminator ++
      Business.layout.enc (upgradeBusiness tx.now accs.relayer b)).length, ?_, .inl ?_⟩
    · rw [overwrite, List.take_zero, List.nil_append, Nat.zero_add]
      rfl
    · rw [List.length_append, List.length_drop, hroom]
      rw [hroom] at hfits
      exact Nat.add_sub_of_le hfits

/-! ## Wallets -/

/-- What a wallet does is what the rules say of it. -/
theorem act_step {w : WalletAction} (hsigners : ∀ b ∈ tx.signers, b.canSign = true)
    (h : act tx w s = .ok s') :
    ∃ calls ps, Effect P tx s (.wallet w) [] calls ps ∧ (∀ b, s'.program.lookup b = s.program.lookup b) ∧
      run s.tokens calls = .ok s'.tokens ∧ s'.purse = s.purse.settle ps ∧
      (∀ b ∈ s'.foreign, b ∈ s.foreign ∨ b.canSign = true ∧ w = .handOver b) ∧ Funded s.purse ps := by
  cases w with
  | pay source dest amount =>
    rcases transferLamports_eq_ok.mp h with ⟨rfl, rfl⟩ | ⟨h0, hs, hu, hle, rfl⟩
    · exact ⟨_, _, .pay (.inr rfl), fun _ => rfl, rfl, rfl, fun _ => .inl, Nat.zero_le _, trivial⟩
    · exact ⟨_, _, .pay (.inl ⟨hs, hu⟩), fun _ => rfl, rfl, (if_neg h0).symm, fun _ => .inl, hle, trivial⟩
  | handOver b =>
    simp only [act, Except.bind_eq_ok, check_eq_ok, Except.pure_eq_ok, exists_const] at h
    obtain ⟨hs, hu, rfl⟩ := h
    refine ⟨_, _, .handOver hs hu, fun _ => rfl, rfl, rfl, fun c hc => ?_, trivial⟩
    rcases List.mem_cons.mp hc with rfl | hc
    · exact .inr ⟨hsigners c hs, rfl⟩
    · exact .inl hc
  | openMint payer mint rent m =>
    simp only [act, Except.bind_eq_ok, check_eq_ok, liftToken_eq_ok, Except.pure_eq_ok, exists_const] at h
    obtain ⟨hs, s₁, hc, t, ht, rfl⟩ := h
    obtain ⟨hu, d⟩ := createAddress_delta hc
    refine ⟨_, _, .openMint hs hu (createAddress_payer hc), d.program, ?_, d.purse,
      fun b hb => .inl (d.foreign ▸ hb), d.funded⟩
    rw [← d.tokens_eq]
    exact run_one ht
  | openToken payer account mint owner immutableOwner rent =>
    simp only [act, Except.bind_eq_ok, check_eq_ok, liftToken_eq_ok, Except.pure_eq_ok, exists_const] at h
    obtain ⟨hs, s₁, hc, t, ht, rfl⟩ := h
    obtain ⟨hu, d⟩ := createAddress_delta hc
    refine ⟨_, _, .openToken hs hu (createAddress_payer hc), d.program, ?_, d.purse,
      fun b hb => .inl (d.foreign ▸ hb), d.funded⟩
    rw [← d.tokens_eq]
    exact run_one ht
  | closeToken account dest authority cpi =>
    simp only [act, Except.bind_eq_ok, liftToken_eq_ok, Except.pure_eq_ok] at h
    obtain ⟨t, ht, rfl⟩ := h
    exact ⟨_, _, .closeToken, fun _ => rfl, run_one ht, rfl, fun _ => .inl, trivial, trivial⟩
  | token op cpi =>
    simp only [act, Except.bind_eq_ok, check_eq_ok, liftToken_eq_ok, Except.pure_eq_ok, exists_const] at h
    obtain ⟨hop, t, ht, rfl⟩ := h
    exact ⟨_, _, .token hop, fun _ => rfl, run_one ht, rfl, fun _ => .inl, trivial⟩

/-! ## Every call -/

theorem process_refined {i : Instruction} (hw : s.WellPlaced) (h : process P tx i s = .ok s') :
    Refined P tx s (.program i) s' := by
  cases i with
  | initializeCounter => exact initializeHandler_refined h
  | registerBusiness => exact registerBusiness_refined h
  | updateBusinessConfig => exact updateBusinessConfig_refined h
  | issueReceipt => exact issueReceipt_refined h
  | claimReceipt => exact claimReceipt_refined hw h
  | mintCardNft => exact mintCardNft_refined h
  | mintVoucher => exact mintVoucher_refined hw h
  | transferStamps => exact transferStamps_refined h
  | transferVoucher => exact transferVoucher_refined hw h
  | presentVoucher => exact presentVoucher_refined hw h
  | cancelPresentation => exact cancelPresentation_refined hw h
  | redeemVoucher => exact redeemVoucher_refined hw h
  | reclaimExpiredReceipt => exact reclaimExpiredReceipt_refined h
  | closeExpiredVoucher => exact closeExpiredVoucher_refined hw h
  | closeDeadCard => exact closeDeadCard_refined h
  | closeBusiness => exact closeBusiness_refined h
  | migrateCard => exact migrateCard_refined hw h
  | migrateBusiness => exact migrateBusiness_refined h
  | retireIdleCardNft => exact retireIdleCardNft_refined hw h

/-- **Refinement.** Every call that succeeds is a step of the rules. -/
theorem Next.step {c : Call} (hw : s.WellPlaced) (h : Next P s c s') :
    ∃ cs calls ps, Step P s c s' cs calls ps := by
  obtain ⟨hsigners, hp⟩ := h
  obtain ⟨tx, action⟩ := c
  cases action with
  | program i =>
    obtain ⟨cs, calls, ps, he, hc, ht, hpurse, hf, hfunded⟩ := process_refined hw hp
    exact ⟨cs, calls, ps, he, hc, ht, hpurse, fun a ha => .inl (hf ▸ ha), hsigners, hfunded⟩
  | wallet w =>
    obtain ⟨calls, ps, he, hprog, ht, hpurse, hf, hfunded⟩ := act_step hsigners hp
    exact ⟨[], calls, ps, he, .of_same hprog, ht, hpurse,
      fun a ha => (hf a ha).imp_right fun h => ⟨h.1, congrArg Action.wallet h.2⟩, hsigners, hfunded⟩

end Passdari
