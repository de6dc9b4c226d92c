/-
What the instructions' calls into the token program come to.
-/
import Passdari.Effect.Calls
import Passdari.Lib.TokenHolders

namespace Passdari

open Wire Token2022

variable {tx : Tx} {t t' : Tokens Address}

/-- A voucher's mint once its only token is minted. -/
def mintedVoucherMint (voucher : Address) (metadata : Metadata Address) : Mint Address :=
  { voucherMint voucher with mintAuthority := none, supply := 1, metadata := some metadata }

/-- The account the token is minted to. -/
def mintedVoucherToken (voucher mint customer : Address) : Account Address :=
  { Account.fresh mint customer true with amount := 1, closeAuthority := some voucher }

theorem run_mintVoucherCalls {accs : MintVoucher} {name : String} {uri : Text}
    (h : run t (mintVoucherCalls tx accs name uri) = .ok t') :
    t'.mints.lookup accs.mint = some (mintedVoucherMint accs.voucher
      { updateAuthority := accs.voucher, name := name, symbol := voucherSymbol, uri := uri.val }) ∧
    t'.accounts.lookup accs.customerToken = some
      (mintedVoucherToken accs.voucher accs.mint accs.customer) := by
  simp only [mintVoucherCalls, run_cons_eq_ok] at h
  obtain ⟨t₁, h₁, t₂, h₂, t₃, h₃, t₄, h₄, t₅, h₅, t₆, h₆, h⟩ := h
  cases h
  cases h₁ with
  | initializeMint =>
  cases h₂ with
  | initializeAccount _ hm₂ =>
  cases h₃ with
  | initializeMetadata hm₃ =>
  cases h₄ with
  | mintTo hx₄ _ _ hm₄ =>
  cases h₅ with
  | setCloseAuthority hx₅ =>
  cases h₆ with
  | setMintAuthority hm₆ =>
  simp only [Tokens.setMint_mints, Tokens.setAccount_mints, Tokens.setMint_accounts,
    Tokens.setAccount_accounts, Store.lookup_insert_self, Option.some.injEq] at hm₂ hm₃ hx₄ hm₄ hx₅ hm₆ ⊢
  subst hm₂ hm₃ hx₄ hm₄ hx₅ hm₆
  exact ⟨rfl, rfl⟩

/-- A card's mint and its holder's account, once its only token is minted. -/
def mintedCardMint (card : Address) (metadata : Metadata Address) : Mint Address :=
  { cardMint card with mintAuthority := none, supply := 1, metadata := some metadata }

def mintedCardToken (card mint customer : Address) : Account Address :=
  { Account.fresh mint customer true with amount := 1, closeAuthority := some card }

theorem run_mintCardNftCalls {accs : MintCardNft} {name : String} {uri : Text}
    (h : run t (mintCardNftCalls tx accs name uri) = .ok t') :
    t'.mints.lookup accs.mint = some (mintedCardMint accs.card
      { updateAuthority := accs.card, name := name, symbol := cardSymbol, uri := uri.val }) ∧
    t'.accounts.lookup accs.customerToken = some (mintedCardToken accs.card accs.mint accs.customer) := by
  simp only [mintCardNftCalls, run_cons_eq_ok] at h
  obtain ⟨t₁, h₁, t₂, h₂, t₃, h₃, t₄, h₄, t₅, h₅, t₆, h₆, h⟩ := h
  cases h
  cases h₁ with
  | initializeMint =>
  cases h₂ with
  | initializeMetadata hm₂ =>
  cases h₃ with
  | initializeAccount _ hm₃ =>
  cases h₄ with
  | mintTo hx₄ _ _ hm₄ =>
  cases h₅ with
  | setCloseAuthority hx₅ =>
  cases h₆ with
  | setMintAuthority hm₆ =>
  simp only [Tokens.setMint_mints, Tokens.setAccount_mints, Tokens.setMint_accounts,
    Tokens.setAccount_accounts, Store.lookup_insert_self, Option.some.injEq] at hm₂ hm₃ hx₄ hm₄ hx₅ hm₆ ⊢
  subst hm₂ hm₃ hx₄ hm₄ hx₅ hm₆
  exact ⟨rfl, rfl⟩

/-! ## Every call of a list -/

section

variable {Q : TokenCall → Prop}

theorem forall_burnCardNftCalls {card cardMint cardToken destination : Address} {customer : Option Address}
    {x : Option (Account Address)} (hburn : ∀ n, Q ⟨pdaCtx tx card, .burn cardToken cardMint card n 0⟩)
    (hclose : Q ⟨pdaCtx tx card, .close cardToken destination card⟩)
    (hown : ∀ owner, Q ⟨ownCtx tx, .close cardToken destination owner⟩)
    (hmint : Q ⟨pdaCtx tx card, .close cardMint destination card⟩) :
    ∀ c ∈ burnCardNftCalls tx card cardMint cardToken customer destination x, Q c := by
  have hwho : ∀ y : Account Address, ∀ c ∈ (cardTokenCloser tx card customer y).elim []
      fun who => [(⟨who.1, .close cardToken destination who.2⟩ : TokenCall)], Q c := by
    intro y
    unfold cardTokenCloser
    split
    · simpa using hclose
    · split
      · simpa using hown _
      · simp
  unfold burnCardNftCalls
  rw [List.forall_mem_append]
  refine ⟨?_, by simpa using hmint⟩
  cases x with
  | none => simp
  | some y =>
    rw [Option.elim_some, List.forall_mem_append]
    refine ⟨?_, hwho y⟩
    split
    · simpa using hburn _
    · simp

theorem forall_presentVoucherCalls {accs : PresentVoucher} {x : Account Address}
    (hset : Q ⟨ownCtx tx, .setCloseAuthority accs.holderToken (some accs.voucher) accs.owner⟩)
    (hfreeze : Q ⟨pdaCtx tx accs.voucher, .freeze accs.holderToken accs.mint accs.voucher⟩) :
    ∀ c ∈ presentVoucherCalls tx accs x, Q c := by
  unfold presentVoucherCalls
  rw [List.forall_mem_append]
  refine ⟨?_, by simpa using hfreeze⟩
  split
  · simpa using hset
  · simp

theorem forall_transferVoucherCalls {accs : TransferVoucher} {opens : Bool} {decimals : Nat}
    {x : Account Address}
    (hopen : opens = true → Q ⟨ownCtx tx, .initializeAccount accs.toToken accs.mint accs.newOwner true⟩)
    (hmove : Q ⟨ownCtx tx, .transfer accs.fromToken accs.mint accs.toToken accs.owner 1 decimals⟩)
    (hown : Q ⟨ownCtx tx, .close accs.fromToken accs.rentPayer accs.owner⟩)
    (hclose : Q ⟨pdaCtx tx accs.voucher, .close accs.fromToken accs.rentPayer accs.voucher⟩) :
    ∀ c ∈ transferVoucherCalls tx accs opens decimals x, Q c := by
  unfold transferVoucherCalls
  rw [List.forall_mem_append, List.forall_mem_cons]
  refine ⟨?_, hmove, ?_⟩
  · split
    · next ho => simpa using hopen ho
    · simp
  · unfold fromTokenCloser
    split
    · simpa using hown
    · split
      · simpa using hclose
      · simp

theorem forall_redeemCalls {accs : RedeemVoucher} {decimals : Nat} {x : Account Address}
    (hthaw : Q ⟨pdaCtx tx accs.voucher, .thaw accs.holderToken accs.mint accs.voucher⟩)
    (hburn : Q ⟨pdaCtx tx accs.voucher, .burn accs.holderToken accs.mint accs.voucher 1 decimals⟩)
    (hclose : Q ⟨pdaCtx tx accs.voucher, .close accs.holderToken accs.rentPayer accs.voucher⟩) :
    ∀ c ∈ redeemCalls tx accs decimals x, Q c := by
  unfold redeemCalls
  rw [List.forall_mem_cons, List.forall_mem_cons]
  refine ⟨hthaw, hburn, ?_⟩
  split
  · simpa using hclose
  · simp

theorem forall_burnExpiredCalls {accs : CloseExpiredVoucher} {decimals : Nat} {x : Option (Account Address)}
    (hthaw : Q ⟨pdaCtx tx accs.voucher, .thaw accs.holderToken accs.mint accs.voucher⟩)
    (hburn : ∀ n, Q ⟨pdaCtx tx accs.voucher, .burn accs.holderToken accs.mint accs.voucher n decimals⟩)
    (hclose : Q ⟨pdaCtx tx accs.voucher, .close accs.holderToken accs.rentPayer accs.voucher⟩) :
    ∀ c ∈ burnExpiredCalls tx accs decimals x, Q c := by
  unfold burnExpiredCalls
  cases x with
  | none => simp
  | some y =>
    rw [Option.elim_some, List.forall_mem_append]
    constructor
    · split
      · rw [List.forall_mem_append]
        refine ⟨?_, by simpa using hburn _⟩
        split
        · simpa using hthaw
        · simp
      · simp
    · split
      · simpa using hclose
      · simp

theorem forall_closeMintCalls {voucher mint rentPayer : Address} {m : Mint Address}
    (hclose : Q ⟨pdaCtx tx voucher, .close mint rentPayer voucher⟩) :
    ∀ c ∈ closeMintCalls tx voucher mint rentPayer m, Q c := by
  unfold closeMintCalls
  split
  · simpa using hclose
  · simp

end

/-- What minting a voucher leaves at the mint and at the customer's account, whatever else it burns. -/
theorem Step.minted {P : Platform} {s s' : State} {cs : List Change} {calls : List TokenCall}
    {ps : List Payment}
    {accs voucherId uri} (h : Step P s ⟨tx, .program (.mintVoucher accs voucherId uri)⟩ s' cs calls ps) :
    ∃ b, s.business? accs.business = some b ∧
      s'.tokens.mints.lookup accs.mint = some (mintedVoucherMint accs.voucher
        { updateAuthority := accs.voucher, name := voucherName b.toBusinessV1, symbol := voucherSymbol,
          uri := uri.val }) ∧
      s'.tokens.accounts.lookup accs.customerToken =
        some (mintedVoucherToken accs.voucher accs.mint accs.customer) := by
  obtain ⟨he, -, ht, -⟩ := h
  cases he with
  | mintVoucher hb _ _ _ _ _ hm _ hct _ _ _ _ hcm hctok =>
    refine ⟨_, State.business?_eq_some.mpr hb, ?_⟩
    obtain ⟨t, hmint, hburn⟩ := run_append_eq_ok.mp ht
    obtain ⟨hmint', htoken'⟩ := run_mintVoucherCalls hmint
    have hmaddr := findProgramAddress_eq hm
    have hcmaddr := findProgramAddress_eq hcm
    have hframe : ∀ a, a ≠ accs.cardMint → a ≠ accs.cardToken →
        s'.tokens.mints.lookup a = t.mints.lookup a ∧ s'.tokens.accounts.lookup a = t.accounts.lookup a := by
      intro a h1 h2
      refine run_frame hburn fun c hc ha => ?_
      split at hc
      · refine forall_burnCardNftCalls (Q := fun c => a ∉ c.op.touched) (fun _ => ?_) ?_
          (fun _ => ?_) ?_ c hc ha <;>
          simp [Op.touched, h1, h2]
      · cases hc
    rw [(hframe accs.mint (by rw [hmaddr, hcmaddr]; exact (by simp))
      (by rw [hmaddr, hctok]; exact (by simp))).1,
      (hframe accs.customerToken (by rw [hct, hcmaddr]; exact (by simp))
        (by rw [hct, hctok, hmaddr, hcmaddr]; simp)).2]
    exact ⟨hmint', htoken'⟩

/-! ## Signatures -/

def Address.isVoucher : Address → Bool
  | .voucher .. => true
  | _ => false

def Address.isVoucherMint : Address → Bool
  | .voucherMint .. => true
  | _ => false

def Address.isCardMint : Address → Bool
  | .cardMint .. => true
  | _ => false

theorem Address.exists_key {a : Address} (h : a.canSign = true) : ∃ k, a = .key k := by
  cases a with
  | key k => exact ⟨k, rfl⟩
  | _ => cases h

theorem Address.not_canSign {a : Address} (h : a.isVoucher = true) : a.canSign = false := by
  cases a <;> first | rfl | cases h

/-- The voucher an instruction is about. -/
def Action.voucher : Action → Option Address
  | .program (.mintVoucher accs _ _) => some accs.voucher
  | .program (.transferVoucher accs) => some accs.voucher
  | .program (.presentVoucher accs) => some accs.voucher
  | .program (.cancelPresentation accs) => some accs.voucher
  | .program (.redeemVoucher accs) => some accs.voucher
  | .program (.closeExpiredVoucher accs) => some accs.voucher
  | _ => none

variable {P : Platform} {s : State} {action : Action} {cs : List Change} {calls : List TokenCall}
  {ps : List Payment} {V M : Address}

/-- A voucher signs only in the instructions about it. -/
theorem Effect.voucher_signed (h : Effect P tx s action cs calls ps) (hV : V.isVoucher = true)
    (htx : V ∉ tx.signers) : ∀ c ∈ calls, V ∈ c.ctx.signers → action.voucher = some V := by
  have hown : V ∉ (ownCtx tx).signers := htx
  have hcard : ∀ {seeds : UInt8 → Address} {bump : UInt8} {a}, createProgramAddress P seeds bump = some a →
      (∀ n, (seeds n).isVoucher = false) → V ∉ (pdaCtx tx a).signers := by
    intro seeds bump a ha hseeds
    rw [(createProgramAddress_eq_some.mp ha).2]
    refine fun hmem => (List.mem_cons.mp hmem).elim (fun he => ?_) htx
    rw [he, hseeds] at hV
    cases hV
  have hpda : ∀ {a}, V ∈ (pdaCtx tx a).signers → a = V := fun hmem =>
    (List.mem_cons.mp hmem).elim Eq.symm fun h => absurd h htx
  cases h with
  | mintCardNft _ _ _ _ ha =>
    have := hcard ha fun _ => rfl
    simp [mintCardNftCalls, hown, this]
  | retireIdleCardNft _ _ _ _ _ _ _ _ ha =>
    have := hcard ha fun _ => rfl
    exact forall_burnCardNftCalls (fun _ hm => absurd hm this) (fun hm => absurd hm this)
      (fun _ hm => absurd hm hown) fun hm => absurd hm this
  | mintVoucher _ _ _ _ _ _ _ _ _ _ ha =>
    have := hcard ha fun _ => rfl
    rw [List.forall_mem_append]
    constructor
    · simp only [mintVoucherCalls, List.forall_mem_cons, Action.voucher, Option.some.injEq]
      exact ⟨fun hm => absurd hm hown, fun hm => absurd hm hown, hpda, hpda, fun hm => absurd hm hown, hpda,
        (by simp)⟩
    · split
      · exact forall_burnCardNftCalls (fun _ hm => absurd hm this) (fun hm => absurd hm this)
          (fun _ hm => absurd hm hown) fun hm => absurd hm this
      · simp
  | presentVoucher =>
    exact forall_presentVoucherCalls (fun hm => absurd hm hown) fun hm => congrArg some (hpda hm)
  | cancelPresentation =>
    simp only [List.forall_mem_singleton]
    exact fun hm => congrArg some (hpda hm)
  | transferVoucher =>
    exact forall_transferVoucherCalls (fun _ hm => absurd hm hown) (fun hm => absurd hm hown)
      (fun hm => absurd hm hown) fun hm => congrArg some (hpda hm)
  | @redeemVoucher accs =>
    have hv : V ∈ (pdaCtx tx accs.voucher).signers → some accs.voucher = some V :=
      fun hm => congrArg some (hpda hm)
    rw [List.forall_mem_append]
    exact ⟨forall_redeemCalls hv hv hv, forall_closeMintCalls hv⟩
  | @closeExpiredVoucher accs =>
    have hv : V ∈ (pdaCtx tx accs.voucher).signers → some accs.voucher = some V :=
      fun hm => congrArg some (hpda hm)
    rw [List.forall_mem_append]
    exact ⟨forall_burnExpiredCalls hv (fun _ => hv) hv, forall_closeMintCalls hv⟩
  | openMint | openToken | closeToken | token =>
    simp only [List.forall_mem_singleton]
    exact fun hm => absurd hm htx
  | _ => simp

end Passdari
