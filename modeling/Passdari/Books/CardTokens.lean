/-
The tokens behind the cards. While the mint of a card's NFT is there, so is
the card, with that NFT as its current one; the mint obeys the card alone;
and the customer's account for it is there and is the card's to close.
-/
import Passdari.Books.Payments

namespace Passdari

open Wire Token2022

variable {P : Platform} {tx : Tx} {s s' start : State} {hist : History} {c : Call} {cs : List Change}
  {calls : List TokenCall} {ps : List Payment} {action : Action} {A M : Address} {m : Mint Address}
  {t t' : Tokens Address} {customer : Address}

/-! ## The life of a card -/

/-- The calls end with the burning of the card NFT at `M`, and its rent is paid out. -/
def Burns (tx : Tx) (s : State) (A M customer : Address) (calls : List TokenCall) (ps : List Payment) :
    Prop :=
  ∃ signer dest before paid,
    calls = before ++ burnCardNftCalls tx A M (.ata customer M) signer dest
      (s.tokens.accounts.lookup (.ata customer M)) ∧
    ps = paid ++ burnCardNftPayments tx A M (.ata customer M) signer dest
      (s.tokens.accounts.lookup (.ata customer M))

theorem burns (before : List TokenCall) (paid : List Payment) {signer : Option Address}
    {dest cardToken : Address}
    (hat : cardToken = .ata customer M) : Burns tx s A M customer
      (before ++ burnCardNftCalls tx A M cardToken signer dest (s.tokens.accounts.lookup cardToken))
      (paid ++ burnCardNftPayments tx A M cardToken signer dest (s.tokens.accounts.lookup cardToken)) := by
  subst hat
  exact ⟨signer, dest, before, paid, rfl, rfl⟩

theorem Burns.closes (h : Burns tx s A M customer calls ps) : ∃ dest,
    ⟨pdaCtx tx A, .close M dest A⟩ ∈ calls := by
  obtain ⟨signer, dest, before, paid, rfl, rfl⟩ := h
  exact ⟨dest, List.mem_append_right _ (List.mem_append_right _ List.mem_cons_self)⟩

/-- What a step can do to a card, as far as its NFT goes. -/
inductive CardLife (P : Platform) (tx : Tx) (s : State) (action : Action) (calls : List TokenCall)
    (ps : List Payment) (A : Address) : Option LoyaltyCard → Option LoyaltyCard → Prop
  | opened {y} : Opens tx s action y.rentPayer A → CardLife P tx s action calls ps A none (some y)
  | kept {x y} : y.customer = x.customer → y.rentPayer = x.rentPayer → y.nftCycle = x.nftCycle →
      CardLife P tx s action calls ps A (some x) (some y)
  | nextNft {x y M bump} : y.customer = x.customer → y.rentPayer = x.rentPayer →
      y.nftCycle.toNat = x.nftCycle.toNat + 1 →
      findProgramAddress P (.cardMint A x.nftCycle) = some (M, bump) →
      Burns tx s A M x.customer calls ps → CardLife P tx s action calls ps A (some x) (some y)
  | closed {x M bump} : findProgramAddress P (.cardMint A x.nftCycle) = some (M, bump) → ¬s.TokenOwned M →
      CardLife P tx s action calls ps A (some x) none

theorem Effect.cardLife (hw : s.WellPlaced) (hs : s.Current) (h : Effect P tx s action cs calls ps) :
    ∀ k ∈ cs, k.after.bind Record.card? = k.before.bind Record.card? ∨
      CardLife P tx s action calls ps k.addr (k.before.bind Record.card?) (k.after.bind Record.card?) := by
  obtain ⟨hnoCard, hnoBusiness⟩ := h.not_migration hs
  cases h with
  | @claimReceipt accs secret b b' r bump c' c hb hr _ hs _ hf hc hfree hown _ hok =>
    obtain ⟨-, -, hstamp, -⟩ := claimReceiptHandler_spec (hw.business_ne_default hb) hown hok
    obtain ⟨-, _, _, _, _, -, -, -, -, -, rfl⟩ := stampCard_eq_ok hstamp
    simp only [List.forall_mem_cons]
    refine ⟨.inl rfl, .inl rfl, .inr ?_, by simp⟩
    cases c with
    | none => exact .opened ⟨.card, hfree rfl, hs, by rw [findProgramAddress_eq hf]; rfl⟩
    | some x => exact .kept rfl rfl rfl
  | transferStamps _ _ _ _ _ _ _ _ _ hok =>
    obtain ⟨-, _, _, _, _, -, -, -, -, rfl, rfl⟩ := transferStampsHandler_eq_ok hok
    simp only [List.forall_mem_cons]
    exact ⟨.inr (.kept rfl rfl rfl), .inr (.kept rfl rfl rfl), by simp⟩
  | closeDeadCard _ _ _ _ _ _ hf _ _ _ hfree =>
    simp only [List.forall_mem_cons]
    exact ⟨.inl rfl, .inr (.closed hf hfree), by simp⟩
  | retireIdleCardNft _ _ hcustomer _ hf hat _ _ _ hcycle =>
    rw [List.forall_mem_singleton]
    exact .inr (.nextNft rfl rfl (addU32_eq_ok.mp hcycle) hf (burns [] [] (hcustomer ▸ hat)))
  | @mintVoucher _ _ _ _ _ _ _ _ _ _ _ _ _ retired _ _ _ _ _ _ _ _ _ _ _ _ hcustomer hf hat hok _ hcycle =>
    obtain ⟨-, -, hcash, -⟩ := mintVoucherHandler_eq_ok hok
    obtain ⟨_, -, rfl⟩ := cashIn_eq_ok hcash
    simp only [List.forall_mem_cons]
    refine ⟨.inl rfl, .inr ?_, .inl rfl, by simp⟩
    cases retired with
    | false => exact .kept rfl rfl (Except.ok.inj hcycle).symm
    | true => exact .nextNft rfl rfl (addU32_eq_ok.mp hcycle) hf (burns _ _ (hcustomer ▸ hat))
  | migrateCard => exact absurd rfl (hnoCard _)
  | migrateBusiness => exact absurd rfl (hnoBusiness _)
  | initializeCounter | registerBusiness | updateBusinessConfig | closeBusiness | reclaimExpiredReceipt
  | transferVoucher =>
    rw [List.forall_mem_singleton]
    exact .inl rfl
  | issueReceipt | redeemVoucher | closeExpiredVoucher =>
    simp only [List.forall_mem_cons]
    exact ⟨.inl rfl, .inl rfl, by simp⟩
  | mintCardNft | presentVoucher | cancelPresentation | pay | handOver | openMint | openToken | closeToken
  | token => simp

/-- Every card is left alone, or lives on in one of these ways. -/
theorem Step.cardLife (hw : s.WellPlaced) (hs : s.Current) (h : Step P s c s' cs calls ps) (A : Address) :
    s'.card? A = s.card? A ∨ CardLife P c.tx s c.action calls ps A (s.card? A) (s'.card? A) :=
  h.changed.project (f := Record.card?) (R := fun a => CardLife P c.tx s c.action calls ps a)
    (h.effect.cardLife hw hs) A

/-- The call burns the NFT of the card at `A`. -/
def BurnsNftOf (s : State) (A : Address) (action : Action) : Prop :=
  (∃ accs, action = .program (.retireIdleCardNft accs) ∧ accs.card = A) ∨
    ∃ accs voucherId uri, action = .program (.mintVoucher accs voucherId uri) ∧ accs.card = A ∧
      s.TokenOwned accs.cardMint

/-- A card signs only when its NFT is minted, or burned. -/
theorem Effect.card_signs (h : Effect P tx s action cs calls ps)
    (hA : ∃ business customer bump, A = .card business customer bump)
    (htx : A ∉ tx.signers) : ∀ k ∈ calls, A ∈ k.ctx.signers →
      (∃ accs uri, action = .program (.mintCardNft accs uri) ∧ accs.card = A) ∨ BurnsNftOf s A action := by
  have hown : A ∉ (ownCtx tx).signers := htx
  have hpda : ∀ {a}, A ∈ (pdaCtx tx a).signers → A = a :=
    fun hmem => (List.mem_cons.mp hmem).elim id fun h => absurd h htx
  have hvoucher : ∀ {business' : Address} {id : UInt64} {bump' : UInt8} {a},
      createProgramAddress P (.voucher business' id) bump' = some a → A ∉ (pdaCtx tx a).signers := by
    intro business' id bump' a ha hmem
    obtain ⟨_, _, _, hcard⟩ := hA
    have := hpda hmem
    rw [(createProgramAddress_eq_some.mp ha).2, hcard] at this
    cases this
  cases h with
  | mintCardNft =>
    simp only [mintCardNftCalls, List.forall_mem_cons]
    exact ⟨fun hm => absurd hm hown, fun hm => .inl ⟨_, _, rfl, (hpda hm).symm⟩, fun hm => absurd hm hown,
      fun hm => .inl ⟨_, _, rfl, (hpda hm).symm⟩, fun hm => absurd hm hown,
      fun hm => .inl ⟨_, _, rfl, (hpda hm).symm⟩, by simp⟩
  | retireIdleCardNft =>
    refine forall_burnCardNftCalls (fun _ hm => ?_) (fun hm => ?_) (fun _ hm => absurd hm hown) fun hm =>
      ?_ <;>
      exact .inr (.inl ⟨_, rfl, (hpda hm).symm⟩)
  | @mintVoucher _ _ _ _ _ _ _ _ _ _ _ _ _ retired _ _ _ _ hv _ _ _ _ _ _ _ _ _ _ _ hretired =>
    have hno := hvoucher (createProgramAddress_of_find hv)
    rw [List.forall_mem_append]
    constructor
    · simp only [mintVoucherCalls, List.forall_mem_cons]
      exact ⟨fun hm => absurd hm hown, fun hm => absurd hm hown, fun hm => absurd hm hno,
        fun hm => absurd hm hno, fun hm => absurd hm hown, fun hm => absurd hm hno, by simp⟩
    · cases retired with
      | false => simp
      | true =>
        refine forall_burnCardNftCalls (fun _ hm => ?_) (fun hm => ?_) (fun _ hm => absurd hm hown) fun hm =>
          ?_ <;>
          exact .inr (.inr ⟨_, _, _, rfl, (hpda hm).symm, hretired.mp rfl⟩)
  | presentVoucher _ _ _ _ _ _ _ _ _ ha =>
    exact forall_presentVoucherCalls (fun hm => absurd hm hown) fun hm => absurd hm (hvoucher ha)
  | cancelPresentation _ _ _ _ _ _ _ _ ha =>
    simp only [List.forall_mem_singleton]
    exact fun hm => absurd hm (hvoucher ha)
  | transferVoucher _ _ _ _ _ _ _ _ _ _ _ _ _ _ _ ha =>
    exact forall_transferVoucherCalls (fun _ hm => absurd hm hown) (fun hm => absurd hm hown)
      (fun hm => absurd hm hown) fun hm => absurd hm (hvoucher ha)
  | redeemVoucher _ _ _ _ _ _ _ _ _ _ _ _ _ _ _ _ ha =>
    rw [List.forall_mem_append]
    exact ⟨forall_redeemCalls (fun hm => absurd hm (hvoucher ha)) (fun hm => absurd hm (hvoucher ha))
      fun hm => absurd hm (hvoucher ha), forall_closeMintCalls fun hm => absurd hm (hvoucher ha)⟩
  | closeExpiredVoucher _ _ _ _ _ _ _ _ ha =>
    rw [List.forall_mem_append]
    exact ⟨forall_burnExpiredCalls (fun hm => absurd hm (hvoucher ha)) (fun _ hm => absurd hm (hvoucher ha))
      fun hm => absurd hm (hvoucher ha), forall_closeMintCalls fun hm => absurd hm (hvoucher ha)⟩
  | openMint | openToken | closeToken | token =>
    simp only [List.forall_mem_singleton]
    exact fun hm => absurd hm htx
  | _ => simp

/-- A call that burns the NFT of the card at `A` burns its current one. -/
theorem Effect.burns (h : Effect P tx s action cs calls ps) (hb : BurnsNftOf s A action) :
    ∃ c M bump, s.card? A = some c ∧ findProgramAddress P (.cardMint A c.nftCycle) = some (M, bump) ∧
      Burns tx s A M c.customer calls ps := by
  rcases hb with ⟨accs, rfl, rfl⟩ | ⟨accs, voucherId, uri, rfl, rfl, hlive⟩
  · cases h with
    | retireIdleCardNft hc _ hcustomer _ hf hat =>
      exact ⟨_, _, _, State.card?_eq_some.mpr hc, hf, Passdari.burns [] [] (hcustomer ▸ hat)⟩
  · cases h with
    | @mintVoucher _ _ _ _ _ _ _ _ _ _ _ _ _ retired _ hc _ _ _ _ _ _ _ _ _ _ hcustomer hf hat _ hretired =>
      obtain rfl : retired = true := hretired.mpr hlive
      exact ⟨_, _, _, State.card?_eq_some.mpr hc, hf, Passdari.burns _ _ (hcustomer ▸ hat)⟩

theorem Effect.card_signed (h : Effect P tx s action cs calls ps)
    (hA : ∃ business customer bump, A = .card business customer bump)
    (htx : A ∉ tx.signers) : ∀ k ∈ calls, A ∈ k.ctx.signers →
      (∃ accs uri, action = .program (.mintCardNft accs uri) ∧ accs.card = A) ∨
      ∃ c M bump, s.card? A = some c ∧ findProgramAddress P (.cardMint A c.nftCycle) = some (M, bump) ∧
        Burns tx s A M c.customer calls ps :=
  fun k hk hs => (h.card_signs hA htx k hk hs).imp_right h.burns

/-! ## Mints and their addresses -/

/-- Mints are at keys, or at the addresses of vouchers' mints and of card NFTs. -/
def PlacedMints (t : Tokens Address) : Prop :=
  ∀ M m, t.mints.lookup M = some m → (∃ k, M = .key k) ∨ M.isVoucherMint = true ∨ M.isCardMint = true

theorem Step.placedMints (hp : PlacedMints s.tokens) (h : Step P s c s' cs calls ps) :
    PlacedMints s'.tokens := by
  intro M m' hm'
  cases hm : s.tokens.mints.lookup M with
  | some m => exact hp M m hm
  | none =>
    obtain ⟨k, hk, m₀, hop⟩ := run_opens_mint h.tokens hm hm'
    rcases h.effect.opens_mint k hk m₀ hop with ⟨hv, -⟩ | ⟨hc, -⟩ | hs
    · exact .inr (.inl hv)
    · exact .inr (.inr hc)
    · exact .inl (Address.exists_key (h.signers _ hs))

/-! ## The burning of a card NFT -/

/-- Burning a card NFT leaves no mint. -/
theorem Step.burned (hacc : PlacedAccounts s.tokens) (h : Step P s c s' cs calls ps)
    (hb : Burns c.tx s A M customer calls ps) (hM : M.isCardMint = true) :
    s'.tokens.mints.lookup M = none := by
  obtain ⟨signer, dest, before, paid, rfl, rfl⟩ := hb
  have hopens := h.effect.opens_placed h.signers
  have hrun := h.tokens
  rw [burnCardNftCalls, ← List.append_assoc] at hrun hopens
  obtain ⟨t, hr, hclose⟩ := run_append_eq_ok.mp hrun
  have hplaced := run_placed hr hacc fun k hk => hopens k (List.mem_append_left _ hk)
  refine (run_singleton_eq_ok.mp hclose).close.2 ?_
  cases hx : t.accounts.lookup M with
  | none => rfl
  | some x => obtain ⟨_, rfl⟩ | ⟨_, rfl⟩ := hplaced M x hx <;> cases hM

/-- A burning closes the account passed, where somebody who signs may close it. -/
theorem run_burnCardNftCalls_gone {signer : Option Address} {dest X : Address} {x : Account Address}
    (before : List TokenCall)
    (h : run t (before ++ burnCardNftCalls tx A M X signer dest (some x)) = .ok t')
    (hcloser : (cardTokenCloser tx A signer x).isSome = true) (hne : X ≠ M) :
    t'.accounts.lookup X = none := by
  obtain ⟨who, hwho⟩ := Option.isSome_iff_exists.mp hcloser
  rw [burnCardNftCalls, Option.elim_some, hwho, Option.elim_some, ← List.append_assoc] at h
  obtain ⟨t₁, hr, hmint⟩ := run_append_eq_ok.mp h
  rw [← List.append_assoc] at hr
  obtain ⟨t₂, -, hclose⟩ := run_append_eq_ok.mp hr
  have hgone := (run_singleton_eq_ok.mp hclose).close.1
  exact ((run_singleton_eq_ok.mp hmint).frame (by simpa [Op.touched] using hne)).2.trans hgone

/-- It leaves no account of the customer's either, where the card may close that, and empties it. -/
theorem Step.burned_account (h : Step P s c s' cs calls ps) (hb : Burns c.tx s A M customer calls ps)
    (hM : M.isCardMint = true) {x : Account Address}
    (hx : s.tokens.accounts.lookup (.ata customer M) = some x)
    (hc : x.closeAuthority = some A) :
    s'.tokens.accounts.lookup (.ata customer M) = none ∧ ∃ q ∈ ps, q.Empties (.ata customer M) := by
  obtain ⟨signer, dest, before, paid, rfl, rfl⟩ := hb
  have hcloser : cardTokenCloser c.tx A signer x = some (pdaCtx c.tx A, A) := if_pos hc
  have hrun := h.tokens
  rw [hx] at hrun
  refine ⟨run_burnCardNftCalls_gone _ hrun (by rw [hcloser]; rfl) ?_, _, List.mem_append_right _ ?_, .refund,
    dest, rfl, .inl rfl⟩
  · intro he
    rw [← he] at hM
    cases hM
  · rw [hx, burnCardNftPayments, Option.elim_some, hcloser, Option.elim_some]
    exact List.mem_append_left _ List.mem_cons_self

/-! ## Card NFTs -/

/-- The mint obeys the card at `A` alone. -/
structure IsCardMint (A : Address) (m : Mint Address) : Prop where
  mintAuthority : m.mintAuthority = none
  freezeAuthority : m.freezeAuthority = none
  closeAuthority : m.closeAuthority = some A
  permanentDelegate : m.permanentDelegate = some A

theorem IsCardMint.of_same {m' : Mint Address} (h : IsCardMint A m) (hs : SameMint m m') :
    IsCardMint A m' where
  mintAuthority := hs.mintAuthority.trans h.mintAuthority
  freezeAuthority := hs.freezeAuthority.trans h.freezeAuthority
  closeAuthority := hs.closeAuthority.trans h.closeAuthority
  permanentDelegate := hs.permanentDelegate.trans h.permanentDelegate

theorem IsCardMint.authority (h : IsCardMint A m) {k : AuthorityType} {auth : Address}
    (ha : m.authority k = some auth) : auth = A := by
  cases k with
  | mintTokens => cases h.mintAuthority.symm.trans ha
  | freezeAccount => cases h.freezeAuthority.symm.trans ha
  | closeMint => exact (Option.some.inj (h.closeAuthority.symm.trans ha)).symm
  | permanentDelegate => exact (Option.some.inj (h.permanentDelegate.symm.trans ha)).symm

/-- The mint `m` at `M` is the current NFT of the card at `A`, and obeys it alone. -/
structure CardNftOf (P : Platform) (s : State) (A M : Address) (m : Mint Address) : Prop where
  obeys : IsCardMint A m
  current : ∃ c bump, s.card? A = some c ∧ findProgramAddress P (.cardMint A c.nftCycle) = some (M, bump)

/-- Every mint at the address of a card NFT is the current NFT of its card. -/
def State.CardNfts (P : Platform) (s : State) : Prop :=
  ∀ A n bump m, s.tokens.mints.lookup (.cardMint A n bump) = some m → CardNftOf P s A (.cardMint A n bump) m

theorem isCardMint_minted (A : Address) (md : Metadata Address) : IsCardMint A (mintedCardMint A md) :=
  ⟨rfl, rfl, rfl, rfl⟩

theorem Tokens.inUse_of_mint (hm : t.mints.lookup M = some m) : t.InUse M := by
  by_contra hn
  rw [(not_inUse.mp hn).1] at hm
  cases hm

/-- A card has one current NFT. -/
theorem current_nft {x x' : LoyaltyCard} {M' : Address} {bump bump' : UInt8} (hx : s.card? A = some x)
    (hf : findProgramAddress P (.cardMint A x.nftCycle) = some (M, bump)) (hx' : s.card? A = some x')
    (hf' : findProgramAddress P (.cardMint A x'.nftCycle) = some (M', bump')) : x' = x ∧ M' = M := by
  rw [hx, Option.some.injEq] at hx'
  subst hx'
  rw [hf, Option.some.injEq, Prod.mk.injEq] at hf'
  exact ⟨rfl, hf'.1.symm⟩

theorem CardNftOf.current_eq (h : CardNftOf P s A M m) {x : LoyaltyCard} {M' : Address} {bump : UInt8}
    (hx : s.card? A = some x) (hf : findProgramAddress P (.cardMint A x.nftCycle) = some (M', bump)) :
    M' = M := by
  obtain ⟨x', bump', hx', hf'⟩ := h.current
  exact (current_nft hx hf hx' hf').2.symm

/-- While its NFT is not burned, a card signs for nothing that could end it. -/
theorem Step.card_unsigned (hw : s.WellPlaced) (h : Step P s c s' cs calls ps)
    (hm : s.tokens.mints.lookup M = some m) (hof : CardNftOf P s A M m)
    (hno : ∀ x, s.card? A = some x → ¬Burns c.tx s A M x.customer calls ps) :
    ∀ k ∈ calls, A ∉ k.ctx.signers := by
  intro k hk hs
  obtain ⟨x, _, hx, hf⟩ := hof.current
  have hadr := hw.card (State.card?_eq_some.mp hx)
  obtain ⟨accs, uri, hact, rfl⟩ | ⟨x', M', _, hx', hf', hb⟩ := h.effect.card_signed ⟨_, _, _, hadr⟩
    (fun hmem => absurd (h.signers _ hmem) (by rw [hadr]; exact (fun h => by cases h))) k hk hs
  · obtain ⟨tx, action⟩ := c
    subst hact
    obtain ⟨x', _, _, hx', -, hf', hfree, -⟩ := h.mintCardNft
    rw [hof.current_eq hx' hf'] at hfree
    exact hfree (State.inUse_iff.mpr (.inr (.inl (Tokens.inUse_of_mint hm))))
  · obtain rfl := hof.current_eq hx' hf'
    exact hno x' hx' hb

/-- A card NFT outlasts every step that does not burn it, and so does its card. -/
theorem Step.cardNft_kept (hw : s.WellPlaced) (hs : s.Current) (h : Step P s c s' cs calls ps)
    (hm : s.tokens.mints.lookup M = some m) (hof : CardNftOf P s A M m)
    (hno : ∀ x, s.card? A = some x → ¬Burns c.tx s A M x.customer calls ps) :
    ∃ m', s'.tokens.mints.lookup M = some m' ∧ CardNftOf P s' A M m' := by
  have hunsigned := h.card_unsigned hw hm hof hno
  obtain ⟨m', hm', hms⟩ := run_same_mint h.tokens hm hof.obeys.mintAuthority fun k hk _ _ auth hauth =>
    hof.obeys.authority hauth ▸ hunsigned k hk
  obtain ⟨x, bump, hx, hf⟩ := hof.current
  refine ⟨m', hm', hof.obeys.of_same hms, ?_⟩
  rcases h.cardLife hw hs A with hcard | hlife
  · exact ⟨x, bump, hcard.trans hx, hf⟩
  rw [hx] at hlife
  generalize hafter : s'.card? A = after at hlife
  cases hlife with
  | @kept _ y _ _ hcycle => exact ⟨y, bump, rfl, hcycle ▸ hf⟩
  | nextNft _ _ _ hf' hb =>
    obtain rfl := hof.current_eq hx hf'
    exact absurd hb (hno x hx)
  | closed hf' hfree =>
    obtain rfl := hof.current_eq hx hf'
    exact absurd (Tokens.inUse_of_mint hm) hfree

/-- A mint at a card NFT's address that was not there was minted by its card. -/
theorem Step.cardNft_minted (h : Step P s c s' cs calls ps) (hM : M.isCardMint = true)
    (hnone : s.tokens.mints.lookup M = none) (hm : s'.tokens.mints.lookup M = some m) :
    ∃ accs uri, c.action = .program (.mintCardNft accs uri) ∧ accs.mint = M := by
  obtain ⟨k, hk, m₀, hop⟩ := run_opens_mint h.tokens hnone hm
  rcases h.effect.opens_mint k hk m₀ hop with ⟨hvoucher, -⟩ | ⟨-, accs, uri, hact, hmint⟩ | hs
  · cases M with
    | cardMint => cases hvoucher
    | _ => cases hM
  · exact ⟨accs, uri, hact, hmint⟩
  · obtain ⟨_, rfl⟩ := Address.exists_key (h.signers _ hs)
    cases hM

/-- Minting a card NFT leaves its mint, and the customer's account for it, which is the card's to close. -/
theorem Step.cardNft_new {accs uri} (h : Step P s ⟨tx, .program (.mintCardNft accs uri)⟩ s' cs calls ps) :
    ∃ m y, s'.tokens.mints.lookup accs.mint = some m ∧ CardNftOf P s' accs.card accs.mint m ∧
      s'.tokens.accounts.lookup (.ata accs.customer accs.mint) = some y ∧ y.closeAuthority = some accs.card ∧
      ∃ x, s'.card? accs.card = some x ∧ x.customer = accs.customer := by
  obtain ⟨x, bump, name, hx, hcustomer, hf, -, hat, rfl, hsame⟩ := h.mintCardNft
  obtain ⟨hm, hy⟩ := run_mintCardNftCalls h.tokens
  have hx' : s'.card? accs.card = some x := by rw [State.card?, hsame]; exact hx
  rw [hat] at hy
  exact ⟨_, _, hm, ⟨isCardMint_minted _ _, x, bump, hx', hf⟩, hy, rfl, x, hx', hcustomer⟩

/-- **A card NFT is its card's current one**, after every step. -/
theorem Step.cardNfts (hw : s.WellPlaced) (hs : s.Current) (hacc : PlacedAccounts s.tokens)
    (hn : s.CardNfts P)
    (h : Step P s c s' cs calls ps) : s'.CardNfts P := by
  intro A n bump m' hm'
  cases hm : s.tokens.mints.lookup (.cardMint A n bump) with
  | none =>
    obtain ⟨accs, uri, hact, hmint⟩ := h.cardNft_minted rfl hm hm'
    obtain ⟨tx, action⟩ := c
    subst hact
    obtain ⟨m, _, hm, hof, -⟩ := h.cardNft_new
    rw [hmint] at hm hof
    rw [hm', Option.some.injEq] at hm
    subst hm
    obtain ⟨x, _, _, hf⟩ := hof.current
    have hA := findProgramAddress_eq hf
    simp only [Address.cardMint.injEq] at hA
    rwa [← hA.1] at hof
  | some m =>
    have hof := hn A n bump m hm
    by_cases hb : ∃ x, s.card? A = some x ∧ Burns c.tx s A (.cardMint A n bump) x.customer calls ps
    · obtain ⟨x, -, hb⟩ := hb
      rw [h.burned hacc hb rfl] at hm'
      cases hm'
    · obtain ⟨m₁, hm₁, hof₁⟩ := h.cardNft_kept hw hs hm hof fun x hx hbx => hb ⟨x, hx, hbx⟩
      rw [hm', Option.some.injEq] at hm₁
      subst hm₁
      exact hof₁

/-! ## The customer's account for it -/

/-- The customer's account for their card's NFT is there, and is the card's to close. -/
def State.Granted (P : Platform) (s : State) : Prop :=
  ∀ A x M bump m, s.card? A = some x → findProgramAddress P (.cardMint A x.nftCycle) = some (M, bump) →
    s.tokens.mints.lookup M = some m →
    ∃ y, s.tokens.accounts.lookup (.ata x.customer M) = some y ∧ y.closeAuthority = some A

/-- A customer's account for an NFT of their card is there only while the NFT is. -/
def State.HeldNfts (s : State) : Prop :=
  ∀ business customer b n bump y,
    s.tokens.accounts.lookup (.ata customer (.cardMint (.card business customer b) n bump)) = some y →
    ∃ m, s.tokens.mints.lookup (.cardMint (.card business customer b) n bump) = some m

theorem Step.granted (hw : s.WellPlaced) (hacc : PlacedAccounts s.tokens) (hn : s.CardNfts P)
    (hg : s.Granted P) (h : Step P s c s' cs calls ps) : s'.Granted P := by
  intro A x' M bump m' hx' hf hm'
  have hM := findProgramAddress_eq hf
  cases hm : s.tokens.mints.lookup M with
  | none =>
    obtain ⟨accs, uri, hact, rfl⟩ := h.cardNft_minted (by rw [hM]; rfl) hm hm'
    obtain ⟨tx, action⟩ := c
    subst hact
    obtain ⟨_, y, _, hof, hy, hyc, x, hx, hcustomer⟩ := h.cardNft_new
    obtain ⟨_, _, _, hf'⟩ := hof.current
    have hA := hM.symm.trans (findProgramAddress_eq hf')
    simp only [Address.cardMint.injEq] at hA
    rw [← hA.1] at hx hyc
    rw [hx', Option.some.injEq] at hx
    subst hx
    exact ⟨y, hcustomer ▸ hy, hyc⟩
  | some m =>
    rw [hM] at hm
    have hof := hn A _ bump m hm
    rw [← hM] at hm hof
    by_cases hb : ∃ x, s.card? A = some x ∧ Burns c.tx s A M x.customer calls ps
    · obtain ⟨x, -, hb⟩ := hb
      rw [h.burned hacc hb (by rw [hM]; rfl)] at hm'
      cases hm'
    · obtain ⟨x, bump₀, hx, hf₀⟩ := hof.current
      obtain ⟨y, hy, hyc⟩ := hg A x M bump₀ m hx hf₀ hm
      have hunsigned := h.card_unsigned hw hm hof fun x hx hbx => hb ⟨x, hx, hbx⟩
      have hadr := (hw.card (State.card?_eq_some.mp hx)).symm.trans
        ((h.wellPlaced hw).card (State.card?_eq_some.mp hx'))
      simp only [Address.card.injEq] at hadr
      rw [← hadr.2.1]
      exact run_closer_kept h.tokens hy hyc hunsigned

/-- Accounts for the NFT of a card are opened when it is minted, or by a wallet. -/
theorem Effect.opens_cardToken (h : Effect P tx s action cs calls ps)
    (hvs : ∀ V v, s.voucher? V = some v → v.mint.isVoucherMint = true)
    (hsig : ∀ a ∈ tx.signers, a.canSign = true) (hM : M.isCardMint = true) :
    ∀ k ∈ calls, ∀ mint owner io, k.op = .initializeAccount (.ata customer M) mint owner io →
      (∃ accs uri, action = .program (.mintCardNft accs uri) ∧ accs.mint = M) ∨ calls = [k] ∧ mint = M := by
  have hno : ∀ {owner mint}, mint.isVoucherMint = true → Address.ata customer M ≠ .ata owner mint := by
    intro owner mint hmint he
    simp only [Address.ata.injEq] at he
    rw [he.2] at hM
    cases mint with
    | voucherMint => cases hM
    | _ => cases hmint
  cases h with
  | mintCardNft _ _ _ _ _ _ _ _ _ _ hat =>
    simp only [mintCardNftCalls, List.forall_mem_cons]
    refine ⟨by simp, by simp, ?_, by simp, by simp, by simp, by simp⟩
    intro _ _ _ hop
    simp only [Op.initializeAccount.injEq, hat, Address.ata.injEq] at hop
    exact .inl ⟨_, _, rfl, hop.1.2⟩
  | retireIdleCardNft => exact forall_burnCardNftCalls (by simp) (by simp) (by simp) (by simp)
  | mintVoucher _ _ _ _ _ _ hf _ hat =>
    rw [List.forall_mem_append]
    constructor
    · simp only [mintVoucherCalls, List.forall_mem_cons]
      refine ⟨by simp, ?_, by simp, by simp, by simp, by simp, by simp⟩
      intro _ _ _ hop
      simp only [Op.initializeAccount.injEq, hat] at hop
      exact absurd hop.1.symm (hno (by rw [findProgramAddress_eq hf]; rfl))
    · split
      · exact forall_burnCardNftCalls (by simp) (by simp) (by simp) (by simp)
      · simp
  | presentVoucher => exact forall_presentVoucherCalls (by simp) (by simp)
  | transferVoucher hv _ _ _ _ hmint _ _ _ _ _ _ _ hat =>
    refine forall_transferVoucherCalls (fun _ => ?_) (by simp) (by simp) (by simp)
    intro _ _ _ hop
    simp only [Op.initializeAccount.injEq, hat] at hop
    exact absurd hop.1.symm (hno (hmint ▸ hvs _ _ (State.voucher?_eq_some.mpr hv)))
  | redeemVoucher =>
    rw [List.forall_mem_append]
    exact ⟨forall_redeemCalls (by simp) (by simp) (by simp), forall_closeMintCalls (by simp)⟩
  | closeExpiredVoucher =>
    rw [List.forall_mem_append]
    exact ⟨forall_burnExpiredCalls (by simp) (by simp) (by simp), forall_closeMintCalls (by simp)⟩
  | openToken hat =>
    simp only [List.forall_mem_singleton]
    intro _ _ _ heq
    cases heq
    rcases hat with hs | ⟨hat, -⟩
    · cases hsig _ hs
    · cases hat
      exact .inr ⟨trivial, rfl⟩
  | token hop =>
    simp only [List.forall_mem_singleton]
    intro _ _ _ heq
    subst heq
    cases hop
  | cancelPresentation | openMint | closeToken => simp
  | _ => simp

/-- A burning takes the customer's account with it. -/
def BurnsClean (P : Platform) (s : State) (c : Call) (s' : State) (calls : List TokenCall)
    (ps : List Payment) : Prop :=
  ∀ A x M bump, s.card? A = some x → findProgramAddress P (.cardMint A x.nftCycle) = some (M, bump) →
    Burns c.tx s A M x.customer calls ps → s'.tokens.accounts.lookup (.ata x.customer M) = none

theorem Step.heldNfts (hw : s.WellPlaced) (hs : s.Current)
    (hvs : ∀ V v, s.voucher? V = some v → v.mint.isVoucherMint = true) (hn : s.CardNfts P) (hh : s.HeldNfts)
    (h : Step P s c s' cs calls ps) (hclean : BurnsClean P s c s' calls ps) : s'.HeldNfts := by
  intro business customer b n bump y' hy'
  cases hy : s.tokens.accounts.lookup (.ata customer (.cardMint (.card business customer b) n bump)) with
  | some y =>
    obtain ⟨m, hm⟩ := hh _ _ _ _ _ y hy
    have hof := hn _ _ _ m hm
    obtain ⟨m', hm', -⟩ := h.cardNft_kept hw hs hm hof fun x hx hb => by
      have hadr := hw.card (State.card?_eq_some.mp hx)
      simp only [Address.card.injEq] at hadr
      obtain ⟨x₀, _, hx₀, hf⟩ := hof.current
      rw [hx, Option.some.injEq] at hx₀
      subst hx₀
      have hgone := hclean _ x _ _ hx hf hb
      rw [← hadr.2.1, hy'] at hgone
      cases hgone
    exact ⟨m', hm'⟩
  | none =>
    obtain ⟨k, hk, mint, owner, io, hop⟩ := run_opens_account h.tokens hy hy'
    obtain ⟨accs, uri, hact, hmint⟩ | ⟨hcalls, hmint⟩ :=
      h.effect.opens_cardToken hvs h.signers rfl k hk mint owner io hop
    · obtain ⟨tx, action⟩ := c
      subst hact
      obtain ⟨m, _, hm, -⟩ := h.cardNft_new
      exact ⟨m, hmint ▸ hm⟩
    · have hrun := h.tokens
      rw [hcalls, run_singleton_eq_ok, hop] at hrun
      obtain ⟨hframe, -⟩ := hrun.frame (a := .cardMint (.card business customer b) n bump)
        (by simp [Op.touched])
      subst hmint
      generalize s'.tokens = t' at hrun hframe
      cases hrun with
      | initializeAccount _ hm => exact ⟨_, hframe.trans hm⟩

/-! ## Runs -/

theorem Run.placedAccounts (h : Run P start hist s) (hs : start.Empty) : PlacedAccounts s.tokens :=
  (h.voucherTokens hs).accounts

theorem Run.placedMints (h : Run P start hist s) (hs : start.Empty) : PlacedMints s.tokens :=
  h.induct_empty (I := fun _ s => PlacedMints s.tokens) hs (fun _ _ hm => .inl (hs.mints hm))
    fun _ _ _ hi hst => hst.placedMints hi

theorem State.Empty.cardNfts (hs : s.Empty) : s.CardNfts P := by
  intro A n bump m hm
  obtain ⟨_, hk⟩ := hs.mints hm
  cases hk

theorem Run.cardNfts (h : Run P start hist s) (hs : start.Empty) : s.CardNfts P := by
  exact h.induct_empty (I := fun _ s => s.CardNfts P) hs hs.cardNfts fun hr hw hcur hi hst =>
    hst.cardNfts hw hcur (hr.placedAccounts hs) hi

/-- **One NFT for a card, at its current cycle.** Where a card's NFT of some cycle is, the card is, in that
cycle, and no other NFT of the card is anywhere. -/
theorem one_card_nft (h : Run P start hist s) (hs : start.Empty) :
    (∀ A n M bump m, findProgramAddress P (.cardMint A n) = some (M, bump) →
      s.tokens.mints.lookup M = some m →
      ∃ x, s.card? A = some x ∧ x.nftCycle = n) ∧
    ∀ A n bump n' bump' m m', s.tokens.mints.lookup (.cardMint A n bump) = some m →
      s.tokens.mints.lookup (.cardMint A n' bump') = some m' → n = n' ∧ bump = bump' := by
  have hn := h.cardNfts hs
  constructor
  · intro A n M bump m hf hm
    rw [findProgramAddress_eq hf] at hm
    obtain ⟨x, _, hx, hf'⟩ := (hn A n bump m hm).current
    have hM := findProgramAddress_eq hf'
    simp only [Address.cardMint.injEq] at hM
    exact ⟨x, hx, hM.2.1.symm⟩
  · intro A n bump n' bump' m m' hm hm'
    obtain ⟨x, _, hx, hf⟩ := (hn A n bump m hm).current
    have he := (hn A n' bump' m' hm').current_eq hx hf
    simp only [Address.cardMint.injEq, true_and] at he
    exact he

/-- A customer has claimed a stamp and minted the NFT of the new card. -/
theorem one_card_nft_minted : ∃ hist s m x, Run Sample.platform Sample.start hist s ∧
    s.tokens.mints.lookup (.cardMint (Sample.card 9) 0 255) = some m ∧ s.card? (Sample.card 9) = some x ∧
    x.nftCycle = 0 := by
  obtain ⟨hist, s, hrun, -, hp⟩ := Leads.run (P := Sample.platform) (s := Sample.start)
    (l := [Sample.register 1000 1 0, Sample.issue 1010 7, Sample.claim 1020 9 7,
      Sample.mintNft 1025 9 (Sample.key 2)])
    (p := fun s => (s.tokens.mints.lookup (.cardMint (Sample.card 9) 0 255)).isSome) (by decide +kernel)
  obtain ⟨m, hm⟩ := Option.isSome_iff_exists.mp hp
  obtain ⟨x, hx, hcycle⟩ := (one_card_nft hrun Sample.start_empty).1 (Sample.card 9) 0 _ 255 m rfl hm
  exact ⟨hist, s, m, x, hrun, hm, hx, hcycle⟩

theorem Run.granted (h : Run P start hist s) (hs : start.Empty) : s.Granted P := by
  refine h.induct_empty (I := fun _ s => s.Granted P) hs ?_ fun hr hw _ hi hst =>
    hst.granted hw (hr.placedAccounts hs) (hr.cardNfts hs) hi
  intro A x M bump m _ hf hm
  obtain ⟨_, rfl⟩ := hs.mints hm
  have := findProgramAddress_eq hf
  cases this

/-- A step that burns the NFT does not open the customer's account for it. -/
theorem Step.burn_opens_nothing (hvs : ∀ V v, s.voucher? V = some v → v.mint.isVoucherMint = true)
    (h : Step P s c s' cs calls ps) (hM : M.isCardMint = true) (hb : Burns c.tx s A M customer calls ps)
    (hy : s.tokens.accounts.lookup (.ata customer M) = none) :
    s'.tokens.accounts.lookup (.ata customer M) = none := by
  by_contra hne
  obtain ⟨y', hy'⟩ := Option.ne_none_iff_exists'.mp hne
  obtain ⟨k, hk, mint, owner, io, hop⟩ := run_opens_account h.tokens hy hy'
  obtain ⟨dest, hclose⟩ := hb.closes
  obtain ⟨accs, uri, hact, -⟩ | ⟨hcalls, -⟩ :=
    h.effect.opens_cardToken hvs h.signers hM k hk mint owner io hop
  · obtain ⟨tx, action⟩ := c
    subst hact
    obtain ⟨_, _, _, -, -, -, -, -, rfl, -⟩ := h.mintCardNft
    simp [mintCardNftCalls] at hclose
  · rw [hcalls, List.mem_singleton] at hclose
    rw [← hclose] at hop
    cases hop

/-- From an empty start the card may always close the account, so that a burning takes it along. -/
theorem Step.burnsClean (hw : s.WellPlaced) (ht : s.VoucherTokens P) (hh : s.HeldNfts) (hg : s.Granted P)
    (h : Step P s c s' cs calls ps) : BurnsClean P s c s' calls ps := by
  intro A x M bump hx hf hb
  have hM := findProgramAddress_eq hf
  have hadr := hw.card (State.card?_eq_some.mp hx)
  cases hy : s.tokens.accounts.lookup (.ata x.customer M) with
  | some y =>
    obtain ⟨m, hm⟩ := hh x.business x.customer x.bump x.nftCycle bump y (by rw [← hadr, ← hM]; exact hy)
    rw [← hadr, ← hM] at hm
    obtain ⟨y₀, hy₀, hyc⟩ := hg A x M bump m hx hf hm
    exact (h.burned_account hb (by rw [hM]; rfl) hy₀ hyc).1
  | none => exact h.burn_opens_nothing (fun _ _ => ht.isVoucherMint) (by rw [hM]; rfl) hb hy

theorem State.Empty.heldNfts (hs : s.Empty) : s.HeldNfts := by
  intro business customer b n bump y hy
  obtain ⟨⟨_, hk⟩, hat⟩ := hs.accounts hy
  rcases hat with ⟨_, hkey⟩ | ⟨_, hata⟩
  · cases hkey
  · rw [hk] at hata
    cases hata

theorem Run.heldNfts (h : Run P start hist s) (hs : start.Empty) : s.HeldNfts :=
  h.induct_empty (I := fun _ s => s.HeldNfts) hs hs.heldNfts fun hr hw hcur hi hst =>
    hst.heldNfts hw hcur (fun _ _ => (hr.voucherTokens hs).isVoucherMint) (hr.cardNfts hs) hi
      (hst.burnsClean hw (hr.voucherTokens hs) hi (hr.granted hs))

end Passdari
