/-
Who may close which token account, when nobody uses the token program but
through this program, and to open accounts and move tokens. Everything such a
call does there is listed once, and the rest is read off the list: an account
keeps its owner, its guard and its delegate, and names a voucher or a card as
its close authority only when it was given to one.
-/
import Passdari.Books.CleanUp
import Passdari.Books.Rent
import Passdari.Lib.TokenTrails

namespace Passdari

open Wire Token2022

variable {P : Platform} {tx : Tx} {s s' start : State} {hist : History} {c : Call} {cs : List Change}
  {calls : List TokenCall} {ps : List Payment} {action : Action} {a A V M X Y mint owner auth : Address}
  {x x' : Account Address} {t t' : Tokens Address}

/-- The program's instructions, and what holders do besides: they pay, open token accounts, and move
tokens. -/
def Action.ordinary : Action → Bool
  | .program _ | .wallet (.pay ..) | .wallet (.openToken ..) | .wallet (.token (.transfer ..) _) => true
  | .wallet _ => false

/-! ## Everything an ordinary call does in the token program -/

/-- The token instructions of each ordinary action. -/
inductive Makes : Action → Op Address → Prop
  | nftMint {accs uri m} : Makes (.program (.mintCardNft accs uri)) (.initializeMint accs.mint m)
  | nftMetadata {accs uri md} : Makes (.program (.mintCardNft accs uri))
    (.initializeMetadata accs.mint accs.card md)
  | nftAccount {accs uri} :
      Makes (.program (.mintCardNft accs uri))
      (.initializeAccount accs.customerToken accs.mint accs.customer true)
  | nft {accs uri} : Makes (.program (.mintCardNft accs uri))
    (.mintTo accs.mint accs.customerToken accs.card 1 0)
  | nftGrant {accs uri} : Makes (.program (.mintCardNft accs uri))
      (.setCloseAuthority accs.customerToken (some accs.card) accs.customer)
  | nftLast {accs uri} : Makes (.program (.mintCardNft accs uri))
    (.setMintAuthority accs.mint .mintTokens none accs.card)
  | retireBurn {accs n} :
      Makes (.program (.retireIdleCardNft accs)) (.burn accs.cardToken accs.cardMint accs.card n 0)
  | retireClose {accs dest who} : Makes (.program (.retireIdleCardNft accs)) (.close accs.cardToken dest who)
  | retireCloseMint {accs dest} : Makes (.program (.retireIdleCardNft accs))
    (.close accs.cardMint dest accs.card)
  | mint {accs id uri m} : Makes (.program (.mintVoucher accs id uri)) (.initializeMint accs.mint m)
  | account {accs id uri} : Makes (.program (.mintVoucher accs id uri))
      (.initializeAccount accs.customerToken accs.mint accs.customer true)
  | metadata {accs id uri md} :
      Makes (.program (.mintVoucher accs id uri)) (.initializeMetadata accs.mint accs.voucher md)
  | voucher {accs id uri} :
      Makes (.program (.mintVoucher accs id uri)) (.mintTo accs.mint accs.customerToken accs.voucher 1 0)
  | grant {accs id uri} : Makes (.program (.mintVoucher accs id uri))
      (.setCloseAuthority accs.customerToken (some accs.voucher) accs.customer)
  | last {accs id uri} :
      Makes (.program (.mintVoucher accs id uri)) (.setMintAuthority accs.mint .mintTokens none accs.voucher)
  | cashBurn {accs id uri n} :
      Makes (.program (.mintVoucher accs id uri)) (.burn accs.cardToken accs.cardMint accs.card n 0)
  | cashClose {accs id uri dest who} : Makes (.program (.mintVoucher accs id uri))
    (.close accs.cardToken dest who)
  | cashCloseMint {accs id uri dest} :
      Makes (.program (.mintVoucher accs id uri)) (.close accs.cardMint dest accs.card)
  | presentGrant {accs} : Makes (.program (.presentVoucher accs))
      (.setCloseAuthority accs.holderToken (some accs.voucher) accs.owner)
  | freeze {accs} : Makes (.program (.presentVoucher accs)) (.freeze accs.holderToken accs.mint accs.voucher)
  | cancel {accs} : Makes (.program (.cancelPresentation accs))
    (.thaw accs.holderToken accs.mint accs.voucher)
  | receiver {accs} :
      Makes (.program (.transferVoucher accs)) (.initializeAccount accs.toToken accs.mint accs.newOwner true)
  | move {accs decimals} : Makes (.program (.transferVoucher accs))
      (.transfer accs.fromToken accs.mint accs.toToken accs.owner 1 decimals)
  | closeSender {accs who} : Makes (.program (.transferVoucher accs))
    (.close accs.fromToken accs.rentPayer who)
  | redeemThaw {accs} : Makes (.program (.redeemVoucher accs)) (.thaw accs.holderToken accs.mint accs.voucher)
  | redeemBurn {accs decimals} :
      Makes (.program (.redeemVoucher accs)) (.burn accs.holderToken accs.mint accs.voucher 1 decimals)
  | redeemClose {accs} : Makes (.program (.redeemVoucher accs))
    (.close accs.holderToken accs.rentPayer accs.voucher)
  | redeemCloseMint {accs} : Makes (.program (.redeemVoucher accs))
    (.close accs.mint accs.rentPayer accs.voucher)
  | expiredThaw {accs} : Makes (.program (.closeExpiredVoucher accs))
    (.thaw accs.holderToken accs.mint accs.voucher)
  | expiredBurn {accs n decimals} :
      Makes (.program (.closeExpiredVoucher accs)) (.burn accs.holderToken accs.mint accs.voucher n decimals)
  | expiredClose {accs} :
      Makes (.program (.closeExpiredVoucher accs)) (.close accs.holderToken accs.rentPayer accs.voucher)
  | expiredCloseMint {accs} :
      Makes (.program (.closeExpiredVoucher accs)) (.close accs.mint accs.rentPayer accs.voucher)
  | openToken {payer account mint owner io rent} :
    Makes (.wallet (.openToken payer account mint owner io rent))
      (.initializeAccount account mint owner io)
  | send {src mint dest auth amount decimals cpi} :
      Makes (.wallet (.token (.transfer src mint dest auth amount decimals) cpi))
        (.transfer src mint dest auth amount decimals)

/-- **An ordinary call makes no other token instructions.** -/
theorem Effect.makes (h : Effect P tx s action cs calls ps) (ho : action.ordinary = true) :
    ∀ k ∈ calls, Makes action k.op := by
  cases h with
  | mintCardNft =>
    simp only [mintCardNftCalls, List.forall_mem_cons]
    exact ⟨.nftMint, .nftMetadata, .nftAccount, .nft, .nftGrant, .nftLast, by simp⟩
  | retireIdleCardNft =>
    exact forall_burnCardNftCalls (fun _ => .retireBurn) .retireClose (fun _ => .retireClose) .retireCloseMint
  | mintVoucher =>
    rw [List.forall_mem_append]
    constructor
    · simp only [mintVoucherCalls, List.forall_mem_cons]
      exact ⟨.mint, .account, .metadata, .voucher, .grant, .last, by simp⟩
    · split
      · exact forall_burnCardNftCalls (fun _ => .cashBurn) .cashClose (fun _ => .cashClose) .cashCloseMint
      · simp
  | presentVoucher => exact forall_presentVoucherCalls .presentGrant .freeze
  | cancelPresentation =>
    rw [List.forall_mem_singleton]
    exact .cancel
  | transferVoucher => exact forall_transferVoucherCalls (fun _ => .receiver) .move .closeSender .closeSender
  | redeemVoucher =>
    rw [List.forall_mem_append]
    exact ⟨forall_redeemCalls .redeemThaw .redeemBurn .redeemClose, forall_closeMintCalls .redeemCloseMint⟩
  | closeExpiredVoucher =>
    rw [List.forall_mem_append]
    exact ⟨forall_burnExpiredCalls .expiredThaw (fun _ => .expiredBurn) .expiredClose,
      forall_closeMintCalls .expiredCloseMint⟩
  | openToken =>
    rw [List.forall_mem_singleton]
    exact .openToken
  | @token op =>
    rw [List.forall_mem_singleton]
    cases op with
    | transfer => exact .send
    | _ => cases ho
  | openMint | closeToken => cases ho
  | _ => simp

theorem Makes.reassigns {op : Op Address} (h : Makes action op) : op.reassigns = false := by
  cases h <;> rfl

/-! ## Accounts -/

/-- **An ordinary call leaves an account its owner, its switches and its delegate**, or opens it. -/
theorem Step.rights_before (h : Step P s c s' cs calls ps) (ho : c.action.ordinary = true)
    (hx : s'.tokens.accounts.lookup X = some x') :
    (x'.cpiGuard = false ∧ x'.memoTransfer = false ∧ x'.delegate = none ∧ ∃ k ∈ calls, ∃ io,
      k.op = .initializeAccount X x'.mint x'.owner io) ∨
      ∃ x, s.tokens.accounts.lookup X = some x ∧ SameHolder x x' :=
  run_rights_before h.tokens hx fun k hk => (h.effect.makes ho k hk).reassigns

/-- The account at an associated address is its owner's, nobody else may spend it, its guard is off, and it
asks for no memo. -/
structure Plain (X : Address) (x : Account Address) : Prop where
  unguarded : x.cpiGuard = false
  memoless : x.memoTransfer = false
  owner : ∀ o, X = .ata o x.mint → x.owner = o
  delegate : x.delegate = none

theorem Step.plain (h : Step P s c s' cs calls ps) (ho : c.action.ordinary = true)
    (hi : ∀ X x, s.tokens.accounts.lookup X = some x → x.mint.isVoucherMint = true → Plain X x) :
    ∀ X x', s'.tokens.accounts.lookup X = some x' → x'.mint.isVoucherMint = true → Plain X x' := by
  intro X x' hx' hM
  rcases h.rights_before ho hx' with ⟨hg, hmemo, hd, k, hk, io, hop⟩ | ⟨x, hx, hs⟩
  · refine ⟨hg, hmemo, fun o hat => ?_, hd⟩
    rcases h.effect.opens_account k hk _ _ _ _ hop with ⟨he, -⟩ | ⟨hsig, -⟩
    · rw [hat, Address.ata.injEq] at he
      exact he.1.symm
    · rw [hat] at hsig
      cases h.signers _ hsig
  · have hp := hi X x hx (hs.mint ▸ hM)
    exact ⟨hs.cpiGuard.symm.trans hp.unguarded, hs.memoTransfer.symm.trans hp.memoless,
      fun o hat => hs.owner.symm.trans (hp.owner o (hs.mint ▸ hat)), hs.delegate hp.delegate⟩

theorem Step.same_holder (h : Step P s c s' cs calls ps) (ho : c.action.ordinary = true)
    (hx : s.tokens.accounts.lookup X = some x) (hx' : s'.tokens.accounts.lookup X = some x') :
    SameHolder x x' := by
  rcases h.rights_before ho hx' with ⟨-, -, -, k, hk, io, hop⟩ | ⟨y, hy, hs⟩
  · refine absurd (State.inUse_iff.mpr (.inr (.inl (Tokens.inUse_of_account hx)))) ?_
    exact h.effect.opens_free k hk (by rw [hop]; rfl)
  · rw [hx, Option.some.injEq] at hy
    exact hy ▸ hs

/-- **Who names a voucher or a card** named it before, or was given to it in this step. -/
theorem Step.named_before (h : Step P s c s' cs calls ps) (ho : c.action.ordinary = true)
    (hx : s'.tokens.accounts.lookup X = some x') (hc : x'.closeAuthority = some a) :
    (∃ x, s.tokens.accounts.lookup X = some x ∧ x.closeAuthority = some a) ∨
      (∃ accs uri, c.action = .program (.mintCardNft accs uri) ∧ X = accs.customerToken ∧ a = accs.card) ∨
      (∃ accs id uri, c.action = .program (.mintVoucher accs id uri) ∧ X = accs.customerToken ∧
        a = accs.voucher) ∨
      ∃ accs, c.action = .program (.presentVoucher accs) ∧ X = accs.holderToken ∧ a = accs.voucher := by
  rcases run_closer_before h.tokens hx hc with ⟨k, hk, auth, hop⟩ | ⟨x, hxb, -, hcb⟩
  · right
    have hmakes := h.effect.makes ho k hk
    rw [hop] at hmakes
    generalize c.action = action at hmakes ⊢
    cases hmakes with
    | nftGrant => exact .inl ⟨_, _, rfl, rfl, rfl⟩
    | grant => exact .inr (.inl ⟨_, _, _, rfl, rfl, rfl⟩)
    | presentGrant => exact .inr (.inr ⟨_, rfl, rfl, rfl⟩)
  · exact .inl ⟨x, hxb, hcb⟩

/-- A plain transfer of some of the mint from one account to another. -/
def Action.Sends (action : Action) (src mint dest : Address) : Prop :=
  ∃ auth amount decimals cpi, action = .wallet (.token (.transfer src mint dest auth amount decimals) cpi) ∧
    src ≠ dest ∧
    0 < amount

/-- **Who holds a voucher's token** held it before, or got it in this step: when it was minted, handed on, or
sent. -/
theorem Step.holder_before (h : Step P s c s' cs calls ps) (ho : c.action.ordinary = true)
    (hx : s'.tokens.accounts.lookup X = some x') (hM : x'.mint.isVoucherMint = true) (hpos : 0 < x'.amount) :
    (∃ x, s.tokens.accounts.lookup X = some x ∧ 0 < x.amount) ∨
      (∃ accs id uri, c.action = .program (.mintVoucher accs id uri) ∧ accs.mint = x'.mint) ∨
      (∃ accs, c.action = .program (.transferVoucher accs) ∧ X = accs.toToken ∧ accs.mint = x'.mint) ∨
      ∃ src, c.action.Sends src x'.mint X := by
  obtain ⟨k, hk, ⟨auth, amount, decimals, hop⟩ | ⟨src, auth, amount, decimals, hop, hne, hn⟩⟩
    | ⟨x, hxb, -, hn⟩ :=
    run_gained h.tokens hx hpos
  · have hmakes := h.effect.makes ho k hk
    have heff := h.effect
    rw [hop] at hmakes
    generalize c.action = action at hmakes heff ⊢
    generalize x'.mint = M at hmakes hM ⊢
    cases hmakes with
    | nft =>
      cases heff with
      | mintCardNft _ _ _ _ _ _ _ hf =>
        rw [findProgramAddress_eq hf] at hM
        cases hM
    | voucher => exact .inr (.inl ⟨_, _, _, rfl, rfl⟩)
  · have hmakes := h.effect.makes ho k hk
    rw [hop] at hmakes
    generalize c.action = action at hmakes ⊢
    generalize x'.mint = M at hmakes ⊢
    cases hmakes with
    | move => exact .inr (.inr (.inl ⟨_, rfl, rfl, rfl⟩))
    | send => exact .inr (.inr (.inr ⟨_, _, _, _, _, rfl, hne, hn⟩))
  · exact .inl ⟨x, hxb, hn⟩

/-- **Where a voucher's token went**: it was handed on or sent, or burned by the voucher. -/
theorem Step.holder_after (h : Step P s c s' cs calls ps) (ho : c.action.ordinary = true)
    (hx : s.tokens.accounts.lookup X = some x) (hM : x.mint.isVoucherMint = true) (hpos : 0 < x.amount)
    (hx' : s'.tokens.accounts.lookup X = some x') (h0 : x'.amount = 0) :
    (∃ accs, c.action = .program (.transferVoucher accs) ∧ X = accs.fromToken) ∨
      (∃ dest, c.action.Sends X x.mint dest) ∨
      (∃ accs, c.action = .program (.redeemVoucher accs) ∧ accs.mint = x.mint) ∨
      ∃ accs, c.action = .program (.closeExpiredVoucher accs) ∧ accs.mint = x.mint := by
  have hlost : ¬s'.tokens.Holds X x.mint x.owner := by
    intro hex
    obtain ⟨y, hy, -, -, hn⟩ := hex
    rw [hx', Option.some.injEq] at hy
    subst hy
    omega
  obtain ⟨k, hk, ⟨auth, htakes, -⟩ | ⟨new, hop, -⟩⟩ := run_lost h.tokens ⟨x, hx, rfl, rfl, hpos⟩ hlost
  · have hmakes := h.effect.makes ho k hk
    have heff := h.effect
    have hrun := h.tokens
    generalize c.action = action at hmakes heff ⊢
    generalize hmint : x.mint = M at htakes hM ⊢
    rcases htakes with ⟨dest, amount, decimals, hop⟩ | ⟨amount, decimals, hop⟩
    · rw [hop] at hmakes
      cases hmakes with
      | move => exact .inl ⟨_, rfl, rfl⟩
      | send =>
        refine .inr (.inl ⟨_, _, _, _, _, rfl, ?_⟩)
        cases heff
        generalize s'.tokens = t' at hrun hx'
        cases run_singleton_eq_ok.mp hrun with
        | transferSelf hx₁ =>
          rw [hx, Option.some.injEq] at hx'
          subst hx'
          omega
        | transfer hx₁ _ _ _ _ _ _ _ _ _ hsp hne =>
          refine ⟨hne, Nat.pos_of_ne_zero fun hn => ?_⟩
          rw [hx, Option.some.injEq] at hx₁
          subst hx₁ hn
          simp only [Tokens.setAccount_accounts, Store.lookup_insert, if_neg hne, if_true, Option.some.injEq]
            at hx'
          subst hx'
          exact absurd h0 (Nat.ne_of_gt hpos)
    · rw [hop] at hmakes
      cases hmakes with
      | retireBurn =>
        cases heff with
        | retireIdleCardNft _ _ _ _ hf =>
          rw [findProgramAddress_eq hf] at hM
          cases hM
      | cashBurn =>
        cases heff with
        | mintVoucher _ _ _ _ _ _ _ _ _ _ _ _ _ hf =>
          rw [findProgramAddress_eq hf] at hM
          cases hM
      | redeemBurn => exact .inr (.inr (.inl ⟨_, rfl, rfl⟩))
      | expiredBurn => exact .inr (.inr (.inr ⟨_, rfl, rfl⟩))
  · have hmakes := (h.effect.makes ho k hk).reassigns
    rw [hop] at hmakes
    cases hmakes

theorem Step.sent_to {src : Address} (h : Step P s c s' cs calls ps) (hact : c.action.Sends src mint X)
    (hx' : s'.tokens.accounts.lookup X = some x') :
    0 < x'.amount ∧ ∃ x, s.tokens.accounts.lookup X = some x ∧ x.owner = x'.owner := by
  obtain ⟨tx, action⟩ := c
  obtain ⟨auth, amount, decimals, cpi, rfl, hne, hpos⟩ := hact
  obtain ⟨heff, -, hrun, -⟩ := h
  cases heff
  generalize s'.tokens = t' at hrun hx'
  cases run_singleton_eq_ok.mp hrun with
  | transferSelf => exact absurd rfl hne
  | transfer _ hy =>
    rw [Tokens.setAccount_accounts, Store.lookup_insert_self, Option.some.injEq] at hx'
    subst hx'
    exact ⟨Nat.add_pos_right _ hpos, _, hy, rfl⟩

theorem Step.frozen_since (h : Step P s c s' cs calls ps) (ho : c.action.ordinary = true)
    (hx : s'.tokens.accounts.lookup X = some x') (hf : x'.frozen = true) :
    (∃ accs, c.action = .program (.presentVoucher accs) ∧ X = accs.holderToken) ∨
      ∃ x, s.tokens.accounts.lookup X = some x ∧ x.frozen = true ∧ x.mint = x'.mint ∧
      x.amount = x'.amount := by
  by_cases hp : ∃ accs, c.action = .program (.presentVoucher accs) ∧ X = accs.holderToken
  · exact .inl hp
  · obtain ⟨x, hxb, hfb, hmint, -, hn⟩ := run_frozen_before h.tokens hx hf fun k hk mint auth hop => hp <| by
      have hmakes := h.effect.makes ho k hk
      rw [hop] at hmakes
      generalize c.action = action at hmakes ⊢
      cases hmakes with
      | freeze => exact ⟨_, rfl, rfl⟩
    exact .inr ⟨x, hxb, hfb, hmint, hn⟩

/-! ## Accounts that are closed -/

theorem Step.closed_account {dest : Address} {k : TokenCall} (h : Step P s c s' cs calls ps)
    (hk : k ∈ calls) (hop : k.op = .close X dest auth) (hx : s.tokens.accounts.lookup X = some x) :
    s'.tokens.accounts.lookup X = none := by
  refine run_close_gone h.tokens hk hop fun d hd mint owner io hopen => ?_
  exact h.effect.opens_free d hd (by rw [hopen]; rfl)
    (State.inUse_iff.mpr (.inr (.inl (Tokens.inUse_of_account hx))))

theorem Step.sender_closed {accs} (h : Step P s ⟨tx, .program (.transferVoucher accs)⟩ s' cs calls ps)
    (hx : s.tokens.accounts.lookup accs.fromToken = some x) (hc : x.closeAuthority = some accs.voucher) :
    s'.tokens.accounts.lookup accs.fromToken = none := by
  have hcall : ∃ k ∈ calls, k.op = .close accs.fromToken accs.rentPayer accs.voucher := by
    obtain ⟨heff, -⟩ := h
    cases heff with
    | transferVoucher _ _ _ _ _ _ _ hx₁ =>
      rw [hx, Option.some.injEq] at hx₁
      subst hx₁
      refine ⟨⟨pdaCtx tx accs.voucher, _⟩, ?_, rfl⟩
      simp [transferVoucherCalls, fromTokenCloser, hc]
  obtain ⟨k, hk, hop⟩ := hcall
  exact h.closed_account hk hop hx

theorem Step.redeemed_closed {accs} (h : Step P s ⟨tx, .program (.redeemVoucher accs)⟩ s' cs calls ps)
    (hx : s.tokens.accounts.lookup accs.holderToken = some x) (hc : x.closeAuthority = some accs.voucher) :
    s'.tokens.accounts.lookup accs.holderToken = none := by
  have hcall : ∃ k ∈ calls, k.op = .close accs.holderToken accs.rentPayer accs.voucher := by
    obtain ⟨heff, -⟩ := h
    cases heff with
    | redeemVoucher _ _ _ _ _ _ _ _ _ _ _ hx₁ =>
      rw [hx, Option.some.injEq] at hx₁
      subst hx₁
      refine ⟨⟨pdaCtx tx accs.voucher, _⟩, List.mem_append_left _ ?_, rfl⟩
      simp [redeemCalls, hc]
  obtain ⟨k, hk, hop⟩ := hcall
  exact h.closed_account hk hop hx

theorem Step.expired_closed {accs} (h : Step P s ⟨tx, .program (.closeExpiredVoucher accs)⟩ s' cs calls ps)
    (hx : s.tokens.accounts.lookup accs.holderToken = some x) (hc : x.closeAuthority = some accs.voucher) :
    s'.tokens.accounts.lookup accs.holderToken = none := by
  have hcall : ∃ k ∈ calls, k.op = .close accs.holderToken accs.rentPayer accs.voucher := by
    obtain ⟨heff, -⟩ := h
    cases heff with
    | closeExpiredVoucher _ _ _ _ _ _ _ _ _ hx₁ =>
      rw [hx] at hx₁
      subst hx₁
      refine ⟨⟨pdaCtx tx accs.voucher, _⟩, List.mem_append_left _ ?_, rfl⟩
      simp [burnExpiredCalls, hc]
  obtain ⟨k, hk, hop⟩ := hcall
  exact h.closed_account hk hop hx

/-- A voucher does not end while an account that outlasts the step is its to close, if it is the one
passed. -/
theorem Step.not_ended (h : Step P s c s' cs calls ps) (hx : s.tokens.accounts.lookup X = some x)
    (hc : x.closeAuthority = some V) (hx' : s'.tokens.accounts.lookup X = some x')
    (honly : ∀ holderToken,
      (∃ accs, c.action = .program (.redeemVoucher accs) ∧ accs.voucher = V ∧
        accs.holderToken = holderToken) ∨
      (∃ accs, c.action = .program (.closeExpiredVoucher accs) ∧ accs.voucher = V ∧
        accs.holderToken = holderToken) → X = holderToken) :
    ¬c.action.ends V := by
  obtain ⟨tx, action⟩ := c
  intro hor
  rcases hor with ⟨accs, rfl, rfl⟩ | ⟨accs, rfl, rfl⟩
  · obtain rfl := honly accs.holderToken (.inl ⟨accs, rfl, rfl, rfl⟩)
    rw [h.redeemed_closed hx hc] at hx'
    cases hx'
  · obtain rfl := honly accs.holderToken (.inr ⟨accs, rfl, rfl, rfl⟩)
    rw [h.expired_closed hx hc] at hx'
    cases hx'

/-! ## Addresses that stay free -/

/-- A key that no account uses stays so, unless somebody opens a token account there. -/
theorem Step.key_free (hw : s.WellPlaced) (h : Step P s c s' cs calls ps) (ho : c.action.ordinary = true)
    (ha : a.canSign = true) (hfree : ¬s.InUse a)
    (hno : ∀ payer mint owner io rent, c.action ≠ .wallet (.openToken payer a mint owner io rent)) :
    ¬s'.InUse a := by
  obtain ⟨key, rfl⟩ := Address.exists_key ha
  rw [State.inUse_iff, not_or, not_or, not_or] at hfree ⊢
  obtain ⟨-, ht, hforeign, hd⟩ := hfree
  refine ⟨?_, ?_, fun hf' => ?_, hd⟩
  · intro hsome
    obtain ⟨data, hdata⟩ := Option.isSome_iff_exists.mp hsome
    have := (h.wellPlaced hw).isRecord hdata
    cases this
  · refine run_invariant (fun t => ¬t.InUse (Address.key key))
      (fun k hk {_ _} hi hd => hd.not_inUse hi fun hop => ?_)
      h.tokens ht
    rcases Op.opens_eq_some hop with ⟨m, hinit⟩ | ⟨mint, owner, io, hinit⟩
    · have hmakes := h.effect.makes ho k hk
      have heff := h.effect
      rw [hinit] at hmakes
      generalize c.action = action at hmakes heff
      generalize hkey : Address.key key = a at hmakes
      cases hmakes with
      | nftMint =>
        cases heff with
        | mintCardNft _ _ _ _ _ _ _ hf =>
          rw [findProgramAddress_eq hf] at hkey
          cases hkey
      | mint =>
        cases heff with
        | mintVoucher _ _ _ _ _ _ hf =>
          rw [findProgramAddress_eq hf] at hkey
          cases hkey
    · rcases h.effect.opens_account k hk _ _ _ _ hinit with ⟨hat, -⟩ | ⟨-, payer, rent, hact⟩
      · cases hat
      · exact hno _ _ _ _ _ hact
  · rcases h.foreign _ hf' with hf | ⟨-, hact⟩
    · exact hforeign hf
    · rw [hact] at ho
      cases ho

end Passdari
