/-
Whether a card can get an NFT. The mint of a card's NFT, and the customer's
account for it, are at addresses the card comes back to once it was closed
and opened again, so what matters is that nothing stays behind at either.
Runs start here from any sound state, not only from an empty one.
-/
import Passdari.Books.CleanUp
import Passdari.Books.CardTokens
import Passdari.Books.Counters

namespace Passdari

open Wire Token2022

variable {P : Platform} {tx : Tx} {s s' start : State} {hist : History} {c : Call} {cs : List Change}
  {calls : List TokenCall} {ps : List Payment} {action : Action} {A M X : Address} {m : Mint Address}
  {t t' : Tokens Address} {customer relayer : Address} {b : Business} {x : LoyaltyCard}

/-! ## When an NFT is minted -/

/-- Lamports of a wallet that signs and has them can be moved. -/
theorem transferLamports_ok (tx : Tx) (kind : MoveKind) {payer a : Address} {n : Nat}
    (hsign : payer ∈ tx.signers)
    (hpayer : ¬s.InUse payer) (hne : a ≠ payer) (hle : n ≤ s.lamports payer) :
    ∃ s₁, transferLamports tx s kind payer a n = .ok s₁ ∧ s₁.program = s.program ∧ s₁.tokens = s.tokens ∧
      s₁.foreign = s.foreign ∧ s.lamports payer ≤ s₁.lamports payer + n := by
  by_cases h0 : n = 0
  · exact ⟨s, transferLamports_eq_ok.mpr (.inl ⟨h0, rfl⟩), rfl, rfl, rfl, Nat.le_add_right _ _⟩
  · refine ⟨_, transferLamports_eq_ok.mpr (.inr ⟨h0, hsign, hpayer, hle, rfl⟩), rfl, rfl, rfl, ?_⟩
    simp only [State.move, Function.update_of_ne (Ne.symm hne), Function.update_self]
    omega

theorem createAddress_ok (tx : Tx) (kind : MoveKind) {payer a : Address} {rent : Nat} (hfree : ¬s.InUse a)
    (hsign : payer ∈ tx.signers)
    (hpayer : ¬s.InUse payer) (hne : a ≠ payer) (hle : rent ≤ s.lamports payer) :
    ∃ s₁, createAddress tx s kind payer a rent = .ok s₁ ∧ s₁.program = s.program ∧ s₁.tokens = s.tokens ∧
      s₁.foreign = s.foreign ∧ s.lamports payer ≤ s₁.lamports payer + rent := by
  have hok : createAddress tx s kind payer a rent = transferLamports tx s kind payer a
    (rent - s.lamports a) := by
    rw [createAddress, check, if_pos hfree]
    rfl
  obtain ⟨s₁, h₁, hp, ht, hf, hl⟩ := transferLamports_ok tx kind hsign hpayer hne
    (Nat.le_trans (Nat.sub_le rent (s.lamports a)) hle)
  exact ⟨s₁, hok.trans h₁, hp, ht, hf, by omega⟩

/-- An address stays free while tokens come up elsewhere. -/
theorem State.free_of {s₁ : State} {a : Address} (ha : ¬s.InUse a) (hprogram : s₁.program = s.program)
    (hforeign : s₁.foreign = s.foreign) (htokens : ¬s₁.tokens.InUse a) : ¬s₁.InUse a := by
  rw [State.InUse, hprogram, hforeign]
  intro hor
  rcases hor with hp | ht | hr
  · exact ha (.inl hp)
  · exact htokens ht
  · exact ha (.inr (.inr hr))

/-- The mint of a card NFT opened, with its metadata. -/
theorem openCardMint_ok (tx : Tx) (A : Address) (md : Metadata Address) {rent : Nat} (hM : ¬s.InUse M)
    (hrelayer : relayer ∈ tx.signers)
    (hsys : ¬s.InUse relayer) (hne : M ≠ relayer) (hle : rent ≤ s.lamports relayer) :
    ∃ s₁ s₂ s₃, createAddress tx s .deposit relayer M rent = .ok s₁ ∧
      invoke tx.signers s₁ (.initializeMint M (cardMint A)) = .ok s₂ ∧
      invoke (A :: tx.signers) s₂ (.initializeMetadata M A md) = .ok s₃ ∧ s₃.program = s.program ∧
      s₃.foreign = s.foreign ∧ s₃.tokens.mints.lookup M = some { cardMint A with metadata := some md } ∧
      (∀ a, a ≠ M → ¬s.tokens.InUse a → ¬s₃.tokens.InUse a) ∧
        s.lamports relayer ≤ s₃.lamports relayer + rent := by
  obtain ⟨s₁, h₁, hp, ht, hf, hl⟩ := createAddress_ok tx .deposit hM hrelayer hsys hne hle
  have hopen : Did ⟨tx.signers, true⟩ s₁.tokens (.initializeMint M (cardMint A)) _ :=
    .initializeMint (ht ▸ fun h => hM (.inr (.inl h)))
  have hdescribe : Did ⟨A :: tx.signers, true⟩ (s₁.tokens.setMint M { cardMint A with supply := 0 })
      (.initializeMetadata M A md) _ :=
    .initializeMetadata (Store.lookup_insert_self _ _ _) rfl List.mem_cons_self rfl
  refine ⟨s₁, _, _, h₁, invoke_ok hopen, invoke_ok hdescribe, hp, hf, Store.lookup_insert_self _ _ _, ?_, hl⟩
  intro a hne ha
  obtain ⟨hm, hx⟩ := not_inUse.mp ha
  refine not_inUse.mpr ⟨?_, ht ▸ hx⟩
  simp only [Tokens.setMint_mints, Store.lookup_insert, if_neg hne, ht, hm]

/-- The associated account for a mint opened. -/
theorem openAssociated_ok (P : Platform) (tx : Tx) (hm : s.tokens.mints.lookup M = some m)
    (hX : ¬s.InUse (.ata customer M)) (hrelayer : relayer ∈ tx.signers) (hsys : ¬s.InUse relayer)
    (hne : Address.ata customer M ≠ relayer)
    (hle : P.minimumBalance (tokenAccountLen m.nonTransferable) ≤ s.lamports relayer) :
    ∃ s₁, createAssociatedToken P tx s relayer (.ata customer M) customer M = .ok s₁ ∧
      s₁.tokens = s.tokens.setAccount (.ata customer M) (.fresh M customer true) ∧ s₁.program = s.program ∧
      s₁.foreign = s.foreign ∧
      s.lamports relayer ≤ s₁.lamports relayer + P.minimumBalance (tokenAccountLen m.nonTransferable) := by
  obtain ⟨s₁, h₁, hp, ht, hf, hl⟩ := createAddress_ok tx .deposit hX hrelayer hsys hne hle
  have hopen : Did ⟨tx.signers, true⟩ s₁.tokens (.initializeAccount (.ata customer M) M customer true) _ :=
    .initializeAccount (ht ▸ fun h => hX (.inr (.inl h))) (ht ▸ hm)
  refine ⟨{ s₁ with tokens := s₁.tokens.setAccount (.ata customer M) (.fresh M customer true) }, ?_,
    by rw [ht], hp, hf, hl⟩
  rw [createAssociatedToken]
  simp only [Except.bind_eq_ok, check_eq_ok, exists_const, loadMint_eq_ok]
  exact ⟨trivial, m, hm, s₁, h₁, invoke_ok hopen⟩

/-- The one for a non-transferable mint. -/
theorem createAssociatedToken_ok (P : Platform) (tx : Tx) (hm : s.tokens.mints.lookup M = some m)
    (hnon : m.nonTransferable = true)
    (hX : ¬s.InUse (.ata customer M)) (hrelayer : relayer ∈ tx.signers) (hsys : ¬s.InUse relayer)
    (hne : Address.ata customer M ≠ relayer)
    (hle : P.minimumBalance (tokenAccountLen true) ≤ s.lamports relayer) :
    ∃ s₁, createAssociatedToken P tx s relayer (.ata customer M) customer M = .ok s₁ ∧
      s₁.tokens = s.tokens.setAccount (.ata customer M) (.fresh M customer true) := by
  obtain ⟨s₁, h₁, ht, -⟩ := openAssociated_ok P tx hm hX hrelayer hsys hne (by rwa [hnon])
  exact ⟨s₁, h₁, ht⟩

/-- The token minted, its account made the card's to close, and minting ended. -/
theorem mintCardToken_ok (tx : Tx) {md : Option (Metadata Address)}
    (hm : s.tokens.mints.lookup M = some { cardMint A with metadata := md })
    (hx : s.tokens.accounts.lookup X = some (.fresh M customer true)) (hcustomer : customer ∈ tx.signers) :
    ∃ s₁ s₂ s₃, invoke (A :: tx.signers) s (.mintTo M X A 1 0) = .ok s₁ ∧
      invoke tx.signers s₁ (.setCloseAuthority X (some A) customer) = .ok s₂ ∧
      invoke (A :: tx.signers) s₂ (.setMintAuthority M .mintTokens none A) = .ok s₃ := by
  have hmint : Did ⟨A :: tx.signers, true⟩ s.tokens (.mintTo M X A 1 0) _ :=
    .mintTo hx rfl rfl hm (fun _ => rfl) rfl rfl List.mem_cons_self (show 0 + 1 < 2 ^ 64 by decide)
  refine ⟨_, _, _, invoke_ok hmint, invoke_ok
    (.setCloseAuthority (Store.lookup_insert_self _ _ _) rfl rfl hcustomer ?_),
    invoke_ok (.setMintAuthority (Store.lookup_insert_self _ _ _) rfl List.mem_cons_self)⟩
  intro hex
  obtain ⟨hguard, -⟩ := hex
  cases hguard

/-- The lamports a card NFT takes. -/
def nftCost (P : Platform) (name uri : String) : Nat :=
  P.minimumBalance (cardMintLen + metadataLen name cardSymbol uri) + P.minimumBalance (tokenAccountLen true)

/-- **What `mint_card_nft` needs is all it needs**: the card's own accounts, free addresses and a relayer who
can pay. -/
theorem mintCardNft_ok (accs : MintCardNft) {uri : Text} {bump : UInt8}
    (hb : s.business? accs.business = some b)
    (hx : s.card? accs.card = some x) (hcustomer : accs.customer ∈ tx.signers)
    (hrelayer : accs.relayer ∈ tx.signers)
    (hpda : createProgramAddress P (.card accs.business accs.customer) x.bump = some accs.card)
    (hxb : x.business = accs.business) (hxc : x.customer = accs.customer)
    (hf : findProgramAddress P (.cardMint accs.card x.nftCycle) = some (accs.mint, bump))
    (huri : uri.len ≤ maxVoucherUriLen) (hM : ¬s.InUse accs.mint)
    (hat : accs.customerToken = .ata accs.customer accs.mint)
    (hX : ¬s.InUse accs.customerToken) (hsys : ¬s.InUse accs.relayer) (hkey : accs.relayer.canSign = true)
    (hcost : nftCost P b.name.val uri.val ≤ s.lamports accs.relayer) :
    ∃ s', mintCardNft P tx accs uri s = .ok s' := by
  have hMadr := findProgramAddress_eq hf
  have hMr : accs.mint ≠ accs.relayer := fun he => by rw [← he, hMadr] at hkey; cases hkey
  have hXr : Address.ata accs.customer accs.mint ≠ accs.relayer := fun he => by rw [← he] at hkey; cases hkey
  have hXM : Address.ata accs.customer accs.mint ≠ accs.mint := fun he => by rw [hMadr] at he; cases he
  rw [hat] at hX
  rw [nftCost] at hcost
  obtain ⟨s₁, s₂, s₃, h₁, h₂, h₃, hp, hforeign, hm, htok, hl⟩ := openCardMint_ok tx accs.card
    { updateAuthority := accs.card, name := b.name.val, symbol := cardSymbol, uri := uri.val } hM hrelayer
      hsys hMr (Nat.le_trans (Nat.le_add_right _ _) hcost)
  have hfree : ∀ a, a ≠ accs.mint → ¬s.InUse a → ¬s₃.InUse a := fun a hne ha =>
    State.free_of ha hp hforeign (htok a hne fun h => ha (.inr (.inl h)))
  obtain ⟨s₄, h₄, ht₄⟩ := createAssociatedToken_ok P tx hm rfl (hfree _ hXM hX) hrelayer
    (hfree _ hMr.symm hsys) hXr (by omega)
  obtain ⟨s₅, s₆, s₇, h₅, h₆, h₇⟩ := mintCardToken_ok tx (s := s₄) (X := .ata accs.customer accs.mint)
    (by rw [ht₄]; exact hm) (by rw [ht₄]; exact Store.lookup_insert_self _ _ _) hcustomer
  refine ⟨s₇, ?_⟩
  simp only [mintCardNft, mintCardNftHandler, Except.bind_eq_ok, load_eq_ok, signer_eq_ok,
    seedsConstraintWith_eq_ok, hasOne_eq_ok, seedsConstraint_eq_ok,
    require_eq_ok, withSigner_eq_ok, exists_const]
  exact ⟨b, State.business?_eq_some.mp hb, x, State.card?_eq_some.mp hx, hcustomer, hrelayer, hpda, hxb, hxc,
    bump, hf, huri, _, ⟨_, by rw [hxb, hxc]; exact hpda, rfl⟩, s₁, h₁, s₂, h₂, s₃, h₃, s₄,
    by rw [hat]; exact h₄, s₅, by rw [hat]; exact h₅,
    s₆, by rw [hat]; exact h₆, h₇⟩

/-! ## Sound states -/

/-- A state the program can be found in. Its accounts are its own and of the present layout, a shop counts
every card of its own, and of the NFTs a card ever had, at most that of its current cycle is about: the mint,
which obeys the card alone, and with it the customer's account, of which nothing is said beyond that. -/
structure State.Sound (P : Platform) (s : State) : Prop where
  placed : s.WellPlaced
  current : s.Current
  offCurve : s.OffCurve P
  counted : ∀ a, s.liveCards a ≤ s.figure (fun b => b.openCards.toNat) a
  foreign : ∀ a ∈ s.foreign, ∃ k, a = .key k
  accounts : PlacedAccounts s.tokens
  mints : PlacedMints s.tokens
  vouchers : ∀ V v, s.voucher? V = some v → v.mint.isVoucherMint = true
  nfts : s.CardNfts P
  held : s.HeldNfts

theorem State.Empty.sound (h : s.Empty) : s.Sound P where
  placed := h.wellPlaced
  current := h.current
  offCurve a r hr := by rw [State.record?, h.program] at hr; cases hr
  counted a := by rw [State.liveCards, h.total]; exact Nat.zero_le _
  foreign := h.foreign
  accounts _ _ hx := (h.accounts hx).2
  mints _ _ hm := .inl (h.mints hm)
  vouchers V v hv := by rw [State.voucher?, State.record?, h.program] at hv; cases hv
  nfts := h.cardNfts
  held := h.heldNfts

/-! ## Burnings that leave nothing behind -/

/-- The card, or the customer where they sign (`signed`), may close the account at `cardToken`, if there is
one. -/
def State.Closable (s : State) (card cardToken : Address) (signed : Bool) : Prop :=
  ∀ y, s.tokens.accounts.lookup cardToken = some y →
    y.closeAuthority = some card ∨ signed = true ∧ y.closeAuthority = none

/-- Should the call burn a card's NFT, it can close the customer's account for it. -/
def Call.TakesAccount (s : State) (c : Call) : Prop :=
  match c.action with
  | .program (.retireIdleCardNft accs) => s.Closable accs.card accs.cardToken false
  | .program (.mintVoucher accs _ _) => s.TokenOwned accs.cardMint → s.Closable accs.card accs.cardToken true
  | _ => True

theorem cardTokenCloser_isSome {signer : Option Address} {y : Account Address}
    (h : y.closeAuthority = some A ∨ signer.isSome = true ∧ y.closeAuthority = none) :
    (cardTokenCloser tx A signer y).isSome = true := by
  rcases h with hA | ⟨hsigner, hnone⟩
  · have hcard : cardTokenCloser tx A signer y = some (pdaCtx tx A, A) := if_pos hA
    rw [hcard]
    rfl
  · obtain ⟨customer, rfl⟩ := Option.isSome_iff_exists.mp hsigner
    simp [cardTokenCloser, hnone]

theorem Step.takes_account (hs : s.Sound P) (h : Step P s c s' cs calls ps) (hc : c.TakesAccount s) :
    BurnsClean P s c s' calls ps := by
  intro A x M bump hx hf hb
  have hM : M.isCardMint = true := by rw [findProgramAddress_eq hf]; rfl
  cases hy : s.tokens.accounts.lookup (.ata x.customer M) with
  | none => exact h.burn_opens_nothing hs.vouchers hM hb hy
  | some y =>
    have hne : Address.ata x.customer M ≠ M := fun he => by rw [← he] at hM; cases hM
    have hadr := hs.placed.card (State.card?_eq_some.mp hx)
    obtain ⟨dest, hclose⟩ := hb.closes
    obtain ⟨accs, uri, hact, -⟩ | ⟨accs, hact, rfl⟩ | ⟨accs, voucherId, uri, hact, rfl, hlive⟩ :=
      h.effect.card_signs ⟨_, _, _, hadr⟩
        (fun hmem => absurd (h.signers _ hmem) (by rw [hadr]; exact (fun h => by cases h))) _ hclose
        List.mem_cons_self
    · obtain ⟨tx, action⟩ := c
      subst hact
      obtain ⟨_, _, _, -, -, -, -, -, rfl, -⟩ := h.mintCardNft
      simp [mintCardNftCalls] at hclose
    · obtain ⟨tx, action⟩ := c
      subst hact
      have hrun := h.tokens
      obtain ⟨he, -⟩ := h
      cases he with
      | retireIdleCardNft hrec _ hcustomer _ hf' hat =>
        obtain ⟨rfl, rfl⟩ := current_nft hx hf (State.card?_eq_some.mpr hrec) hf'
        rw [← hcustomer] at hat
        rw [hat, hy] at hrun
        exact run_burnCardNftCalls_gone [] hrun
          (cardTokenCloser_isSome (.inl ((hc y (hat ▸ hy)).resolve_right (by simp)))) hne
    · obtain ⟨tx, action⟩ := c
      subst hact
      have hrun := h.tokens
      obtain ⟨he, -⟩ := h
      cases he with
      | @mintVoucher _ _ _ _ _ _ _ _ _ _ _ _ _ retired _ hrec _ _ _ _ _ _ _ _ _ _ hcustomer hf' hat _
        hretired =>
        obtain rfl : retired = true := hretired.mpr hlive
        obtain ⟨rfl, rfl⟩ := current_nft hx hf (State.card?_eq_some.mpr hrec) hf'
        rw [← hcustomer] at hat
        rw [if_pos rfl, hat, hy] at hrun
        exact run_burnCardNftCalls_gone _ hrun (cardTokenCloser_isSome (hc hlive y (hat ▸ hy))) hne

theorem Step.counted (hw : s.WellPlaced) (hcur : s.Current)
    (hi : ∀ a, s.liveCards a ≤ s.figure (fun b => b.openCards.toNat) a) (h : Step P s c s' cs calls ps)
    (a : Address) :
    s'.liveCards a ≤ s'.figure (fun b => b.openCards.toNat) a := by
  have hmoved := h.effect.openCards_balanced hw hcur hi a
  have hcards := h.changed.total (cardOf a)
  have hcounts := h.changed.total (figureOf (fun b => b.openCards.toNat) a)
  have := hi a
  simp only [← total_figureOf, State.liveCards] at this ⊢
  omega

theorem Step.voucher_mints (hi : ∀ V v, s.voucher? V = some v → v.mint.isVoucherMint = true)
    (h : Step P s c s' cs calls ps) :
    ∀ V v, s'.voucher? V = some v → v.mint.isVoucherMint = true := by
  intro V v' hv'
  rcases h.voucher_goes_on hv' with ⟨v, hv, hmint, -⟩ | ⟨_, _, _, _, _, _, _, hf⟩
  · exact hmint ▸ hi V v hv
  · rw [findProgramAddress_eq hf]
    rfl

/-- **A sound state stays sound** while no burning leaves an account behind. -/
theorem Step.sound (hs : s.Sound P) (h : Step P s c s' cs calls ps) (hc : c.TakesAccount s) : s'.Sound P where
  placed := h.wellPlaced hs.placed
  current := h.current hs.current
  offCurve := h.offCurve hs.current hs.offCurve
  counted := h.counted hs.placed hs.current hs.counted
  foreign a ha := (h.foreign a ha).elim (hs.foreign a) fun h => Address.exists_key h.1
  accounts := h.placed_accounts hs.accounts
  mints := h.placedMints hs.mints
  vouchers := h.voucher_mints hs.vouchers
  nfts := h.cardNfts hs.placed hs.current hs.accounts hs.nfts
  held := h.heldNfts hs.placed hs.current hs.vouchers hs.nfts hs.held (h.takes_account hs hc)

theorem Run.sound (h : Run P start hist s) (hs : start.Sound P)
    (hclean : ∀ st ∈ hist, st.label.TakesAccount st.pre) :
    s.Sound P := by
  have := Run.induct (I := fun hist s => (∀ st ∈ hist, st.label.TakesAccount st.pre) → s.Sound P) h hs.placed
    (fun _ => hs) ?_
  · exact this.2 hclean
  · intro hist s c s' cs calls ps _ _ ih hst hall
    exact hst.sound (ih fun st hmem => hall st (List.mem_cons_of_mem _ hmem)) (hall _ List.mem_cons_self)

/-! ## Free addresses -/

/-- A derived address is free when neither the program nor the token program has anything there. -/
theorem State.Sound.free (hs : s.Sound P) {a : Address} (hkey : ∀ k, a ≠ .key k)
    (hprogram : s.program.lookup a = none)
    (hmint : s.tokens.mints.lookup a = none) (haccount : s.tokens.accounts.lookup a = none) : ¬s.InUse a := by
  rw [State.inUse_iff, hprogram]
  intro hor
  rcases hor with hp | ht | hforeign | hdefault
  · cases hp
  · exact not_inUse.mpr ⟨hmint, haccount⟩ ht
  · obtain ⟨k, hk⟩ := hs.foreign a hforeign
    exact hkey k hk
  · exact hkey _ hdefault

theorem State.WellPlaced.none_at_token (hw : s.WellPlaced) {a : Address} (ha : ∀ f, ¬Face.At a f) :
    s.program.lookup a = none := by
  cases hd : s.program.lookup a with
  | none => rfl
  | some data =>
    obtain ⟨f, -, hat⟩ := hw.faced hd
    exact absurd hat (ha f)

/-- While the mint of an NFT is not there, its address is free, and so is that of its customer's account. -/
theorem State.Sound.nft_free (hs : s.Sound P) {business : Address} {cardBump mintBump : UInt8} {n : UInt32}
    (hm : s.tokens.mints.lookup (.cardMint (.card business customer cardBump) n mintBump) = none) :
    ¬s.InUse (.cardMint (.card business customer cardBump) n mintBump) ∧
      ¬s.InUse (.ata customer (.cardMint (.card business customer cardBump) n mintBump)) := by
  constructor
  · refine hs.free (fun _ => (by simp)) (hs.placed.none_at_token fun f => ?_) hm ?_
    · cases f <;> simp [Face.At]
    · cases hx : s.tokens.accounts.lookup (.cardMint (.card business customer cardBump) n mintBump) with
      | none => rfl
      | some y => obtain ⟨_, hk⟩ | ⟨_, hk⟩ := hs.accounts _ y hx <;> cases hk
  · refine hs.free (fun _ => (by simp)) (hs.placed.none_at_token fun f => ?_) ?_ ?_
    · cases f <;> simp [Face.At]
    · cases hx : s.tokens.mints.lookup
        (.ata customer (.cardMint (.card business customer cardBump) n mintBump)) with
      | none => rfl
      | some m => obtain ⟨_, hk⟩ | hk | hk := hs.mints _ m hx <;> cases hk
    · cases hy : s.tokens.accounts.lookup
        (.ata customer (.cardMint (.card business customer cardBump) n mintBump)) with
      | none => rfl
      | some y =>
        obtain ⟨m, hm'⟩ := hs.held _ _ _ _ _ y hy
        rw [hm] at hm'
        cases hm'

/-- The NFT of a cycle that is not a live card's current one is not there. -/
theorem State.Sound.no_mint (hs : s.Sound P) {n : UInt32} {bump : UInt8}
    (hf : findProgramAddress P (.cardMint A n) = some (M, bump))
    (hm : ∀ x, s.card? A = some x → x.nftCycle = n → s.tokens.mints.lookup M = none) :
    s.tokens.mints.lookup M = none := by
  by_contra hne
  obtain ⟨m, hlive⟩ := Option.ne_none_iff_exists'.mp hne
  have hM := findProgramAddress_eq hf
  rw [hM] at hlive
  obtain ⟨x, _, hx, hf'⟩ := (hs.nfts A n bump m hlive).current
  have hcycle := findProgramAddress_eq hf'
  simp only [Address.cardMint.injEq, true_and] at hcycle
  exact hne (hm x hx hcycle.1.symm)

/-! ## A card without an NFT -/

/-- The card's shop is live. -/
theorem State.Sound.exists_business (hs : s.Sound P) (hx : s.card? A = some x) :
    ∃ b, s.business? x.business = some b := by
  have hpos := Nat.le_trans (one_le_liveCards (State.card?_eq_some.mp hx)) (hs.counted x.business)
  cases hb : s.business? x.business with
  | some b => exact ⟨b, rfl⟩
  | none =>
    rw [State.figure_of_none hb] at hpos
    exact absurd hpos (by decide)

/-- The minting of the NFT at `M` for the card at `A`, with what the card records. -/
abbrev LoyaltyCard.minting (x : LoyaltyCard) (A M relayer : Address) : MintCardNft :=
  ⟨x.business, A, M, .ata x.customer M, x.customer, relayer⟩

/-- Everything the outside has to bring for the card's NFT: the signatures, a text that fits, and a relayer
with the lamports. -/
structure Brings (P : Platform) (s : State) (tx : Tx) (x : LoyaltyCard) (b : Business) (relayer : Address)
    (uri : Text) : Prop where
  signers : ∀ a ∈ tx.signers, a.canSign = true
  customerSigns : x.customer ∈ tx.signers
  relayerSigns : relayer ∈ tx.signers
  system : ¬s.InUse relayer
  solvent : nftCost P b.name.val uri.val ≤ s.lamports relayer
  uri : uri.len ≤ maxVoucherUriLen

/-- **A card without an NFT can always get one**, in every state a run reaches from a sound state while no
burning leaves the customer's account behind; and whatever cycle a card comes to, from its first one on, the
addresses of that NFT and of the account for it are free. -/
theorem nft_always_available (h : Run P start hist s) (hs : start.Sound P)
    (hclean : ∀ st ∈ hist, st.label.TakesAccount st.pre) :
    (∀ A x M bump, s.card? A = some x → findProgramAddress P (.cardMint A x.nftCycle) = some (M, bump) →
      s.tokens.mints.lookup M = none →
      ∃ b, s.business? x.business = some b ∧ ∀ tx relayer uri, Brings P s tx x b relayer uri →
        ∃ s', Next P s ⟨tx, .program (.mintCardNft (x.minting A M relayer) uri)⟩ s') ∧
    ∀ business customer bump n M mintBump,
      findProgramAddress P (.cardMint (.card business customer bump) n) = some (M, mintBump) →
      (∀ x, s.card? (.card business customer bump) = some x → x.nftCycle = n →
        s.tokens.mints.lookup M = none) →
      ¬s.InUse M ∧ ¬s.InUse (.ata customer M) := by
  have hsound := h.sound hs hclean
  have hfree : ∀ {business customer bump n M mintBump},
      findProgramAddress P (.cardMint (.card business customer bump) n) = some (M, mintBump) →
      s.tokens.mints.lookup M = none → ¬s.InUse M ∧ ¬s.InUse (.ata customer M) := by
    intro business customer bump n M mintBump hf hm
    rw [findProgramAddress_eq hf] at hm ⊢
    exact hsound.nft_free hm
  constructor
  · intro A x M bump hx hf hm
    obtain ⟨b, hb⟩ := hsound.exists_business hx
    refine ⟨b, hb, fun tx relayer uri hbring => ?_⟩
    have hadr := hsound.placed.card (State.card?_eq_some.mp hx)
    obtain ⟨hM, hX⟩ := hfree (hadr ▸ hf) hm
    have hpda : createProgramAddress P (.card x.business x.customer) x.bump = some A :=
      createProgramAddress_eq_some.mpr ⟨hsound.offCurve A _ (State.card?_eq_some.mp hx), hadr⟩
    obtain ⟨s', hok⟩ := mintCardNft_ok (x.minting A M relayer) hb hx hbring.customerSigns hbring.relayerSigns
      hpda rfl
      rfl hf hbring.uri hM rfl hX hbring.system (hbring.signers _ hbring.relayerSigns) hbring.solvent
    exact ⟨s', hbring.signers, hok⟩
  · intro business customer bump n M mintBump hf hm
    exact hfree hf (hsound.no_mint hf hm)

/-! ## Runs from an empty start -/

/-- From an empty start, the customer's account for the current NFT is the card's to close. -/
theorem Run.grants (h : Run P start hist s) (hs : start.Empty) {bump : UInt8} {y : Account Address}
    (hx : s.card? A = some x)
    (hf : findProgramAddress P (.cardMint A x.nftCycle) = some (M, bump))
    (hy : s.tokens.accounts.lookup (.ata x.customer M) = some y) : y.closeAuthority = some A := by
  have hadr := (h.wellPlaced hs.wellPlaced).card (State.card?_eq_some.mp hx)
  have hM := findProgramAddress_eq hf
  obtain ⟨m, hm⟩ := h.heldNfts hs x.business x.customer x.bump x.nftCycle bump y
    (by rw [← hadr, ← hM]; exact hy)
  rw [← hadr, ← hM] at hm
  obtain ⟨y', hy', hcloser⟩ := h.granted hs A x M bump m hx hf hm
  rw [hy, Option.some.injEq] at hy'
  exact hy' ▸ hcloser

theorem Run.takesAccount (h : Run P start hist s) (hs : start.Empty) :
    ∀ st ∈ hist, st.label.TakesAccount st.pre := by
  refine Runs.Run.forall_steps h fun {earlier st} hr hn => ?_
  have hr : Run P start earlier st.pre := hr
  obtain ⟨cs, calls, ps, hst⟩ := hn.step (hr.wellPlaced hs.wellPlaced)
  obtain ⟨pre, ⟨tx, action⟩, post⟩ := st
  obtain ⟨he, -⟩ := hst
  cases he with
  | retireIdleCardNft hrec _ hcustomer _ hf hat =>
    exact fun y hy => .inl
      (hr.grants hs (State.card?_eq_some.mpr hrec) hf (by rw [hcustomer, ← hat]; exact hy))
  | mintVoucher _ hrec _ _ _ _ _ _ _ _ _ _ hcustomer hf hat =>
    exact fun _ y hy => .inl
      (hr.grants hs (State.card?_eq_some.mpr hrec) hf (by rw [hcustomer, ← hat]; exact hy))
  | _ => trivial

theorem Run.sound_of_empty (h : Run P start hist s) (hs : start.Empty) : s.Sound P :=
    h.sound hs.sound (h.takesAccount hs)

namespace Sample

/-- The NFT of the customer `key c` of some cycle, and their account for it. -/
def nft (c : UInt8) (cycle : UInt32) : Address := .cardMint (card c) cycle 255
def nftToken (c : UInt8) (cycle : UInt32) : Address := .ata (key c) (nft c cycle)

/-- Anybody retires it. -/
def retireNft (now : Int64) (c : UInt8) (cycle : UInt32) : Call :=
  call now [] (.retireIdleCardNft ⟨card c, key c, nft c cycle, nftToken c cycle, key 2⟩)

/-- What it takes to mint it is there. -/
def ready (s : State) (c : UInt8) (cycle : UInt32) : Bool :=
  (s.card? (card c)).any (fun x => x.nftCycle = cycle ∧ x.business = shop ∧ x.customer = key c) &&
    (s.business? shop).all (fun b => nftCost platform b.name.val "u" ≤ s.lamports (key 2)) &&
    decide (s.tokens.mints.lookup (nft c cycle) = none ∧ ¬s.InUse (key 2))

theorem ready.brings {s : State} {c : UInt8} {cycle : UInt32} (now : Int64) (h : ready s c cycle = true)
    (hc : (key c).canSign = true) : ∃ x, s.card? (card c) = some x ∧ x.nftCycle = cycle ∧
      x.business = shop ∧ x.customer = key c ∧ s.tokens.mints.lookup (nft c cycle) = none ∧
      ∀ b, s.business? shop = some b → Brings platform s ⟨now, [key c, key 2]⟩ x b (key 2)
      ⟨"u", by decide⟩ := by
  simp only [ready, Bool.and_eq_true, Option.any_eq_true, decide_eq_true_eq] at h
  obtain ⟨⟨⟨x, hx, hcycle, hbus, hcus⟩, hsolvent⟩, hm, hsys⟩ := h
  refine ⟨x, hx, hcycle, hbus, hcus, hm, fun b hb => ?_⟩
  rw [hb, Option.all_some, decide_eq_true_eq] at hsolvent
  refine ⟨?_, by rw [hcus]; exact List.mem_cons_self, by simp, hsys, hsolvent, by decide⟩
  simp only [List.forall_mem_cons, hc, true_and, List.not_mem_nil, false_imp_iff, implies_true, and_true]
  decide

end Sample

/-- The card's first NFT was retired after ninety days, and its second one can be minted. -/
theorem nft_always_available_second : ∃ hist s x s', Run Sample.platform Sample.start hist s ∧
    hist.length = 5 ∧
    s.card? (Sample.card 9) = some x ∧ x.nftCycle = 1 ∧
    Next Sample.platform s ⟨⟨7777030, [Sample.key 9, Sample.key 2]⟩,
      .program (.mintCardNft (x.minting (Sample.card 9) (Sample.nft 9 1) (Sample.key 2)) ⟨"u", by decide⟩)⟩
      s' := by
  obtain ⟨hist, s, hrun, hcalls, hp⟩ := Leads.run (P := Sample.platform) (s := Sample.start)
    (l := [Sample.register 1000 1 0, Sample.issue 1010 7, Sample.claim 1020 9 7,
      Sample.mintNft 1025 9 (Sample.key 2), Sample.retireNft 7777020 9 0])
    (p := fun s => Sample.ready s 9 1) (by decide +kernel)
  obtain ⟨x, hx, hcycle, hbus, -, hm, hbrings⟩ := Sample.ready.brings 7777030 hp (by decide)
  obtain ⟨b, hb, hmints⟩ := (nft_always_available hrun Sample.start_empty.sound
    (hrun.takesAccount Sample.start_empty)).1 (Sample.card 9) x (Sample.nft 9 1) 255 hx (hcycle ▸ rfl) hm
  obtain ⟨s', hnext⟩ := hmints _ _ _ (hbrings b (hbus ▸ hb))
  exact ⟨hist, s, x, s', hrun, by simpa using congrArg List.length hcalls, hx, hcycle, hnext⟩

/-! ## An account left behind -/

/-- As before the program asked for it, the account names nobody who may close it. -/
def State.ungrant (s : State) (X : Address) (y : Account Address) : State :=
  { s with tokens := s.tokens.setAccount X { y with closeAuthority := none } }

/-- The customers' accounts for the current NFTs name the card, or nobody. -/
def State.CardOrNobody (P : Platform) (s : State) : Prop :=
  ∀ A x M bump y, s.card? A = some x → findProgramAddress P (.cardMint A x.nftCycle) = some (M, bump) →
    s.tokens.accounts.lookup (.ata x.customer M) = some y → y.closeAuthority = some A ∨
      y.closeAuthority = none

theorem State.ungrant_account {y y' : Account Address} {a : Address}
    (hy : s.tokens.accounts.lookup X = some y)
    (h : (s.ungrant X y).tokens.accounts.lookup a = some y') : ∃ z, s.tokens.accounts.lookup a = some z ∧
    z.mint = y'.mint ∧
      (y'.closeAuthority = z.closeAuthority ∨ y'.closeAuthority = none) := by
  simp only [State.ungrant, Tokens.setAccount_accounts, Store.lookup_insert] at h
  split at h
  · next he =>
    cases h
    exact ⟨y, he ▸ hy, rfl, .inr rfl⟩
  · exact ⟨y', h, rfl, .inl rfl⟩

/-- Soundness does not ask whom the accounts name. -/
theorem State.Sound.ungrant (hs : s.Sound P) {y : Account Address}
    (hy : s.tokens.accounts.lookup X = some y) :
    (s.ungrant X y).Sound P where
  placed := ⟨hs.placed.faced, hs.placed.legible⟩
  current := hs.current
  offCurve := hs.offCurve
  counted := hs.counted
  foreign := hs.foreign
  accounts a y' hy' := by
    obtain ⟨z, hz, hmint, -⟩ := s.ungrant_account hy hy'
    exact hmint ▸ hs.accounts a z hz
  mints := hs.mints
  vouchers := hs.vouchers
  nfts A n bump m hm := ⟨(hs.nfts A n bump m hm).obeys, (hs.nfts A n bump m hm).current⟩
  held business customer cardBump n bump y' hy' := by
    obtain ⟨z, hz, -⟩ := s.ungrant_account hy hy'
    exact hs.held _ _ _ _ _ z hz

namespace Sample

/-- The NFT minted again. -/
def remint (now : Int64) (c : UInt8) (cycle : UInt32) (x : LoyaltyCard) : Call :=
  call now [key c, key 2] (.mintCardNft (x.minting (card c) (nft c cycle) (key 2)) uri)

/-- Retired without the customer after ninety days, cashed in, closed after a year, and opened again. -/
def abandoned : List Call :=
  [retireNft 7777020 9 0,
    call 7777030 [key 9, key 2] (.mintVoucher
      { business := shop, card := card 9, voucher := voucher 0, mint := voucherMint 0,
        customerToken := voucherToken 9 0, cardMint := nft 9 1, cardToken := nftToken 9 1, cardRentPayer :=
        key 2, customer := key 9, relayer := key 2 } 0 uri),
    call 31537020 [] (.closeDeadCard ⟨card 9, shop, nft 9 1, key 2⟩), issue 31537030 8, claim 31537040 9 8]

end Sample

/-- **An older NFT blocks its address.** The account of an NFT that names nobody stays behind when the NFT is
retired without its customer; the card is used up, closed and opened again, and its first NFT cannot be
minted. -/
theorem nft_never_again : ∃ start hist s x b, start.Sound Sample.platform ∧
    start.CardOrNobody Sample.platform ∧
    Run Sample.platform start hist s ∧ s.card? (Sample.card 9) = some x ∧ x.nftCycle = 0 ∧
    s.tokens.mints.lookup (Sample.nft 9 0) = none ∧ s.business? x.business = some b ∧
    Brings Sample.platform s ⟨31537050, [Sample.key 9, Sample.key 2]⟩ x b (Sample.key 2) ⟨"u", by decide⟩ ∧
    ∀ s', ¬Next Sample.platform s (Sample.remint 31537050 9 0 x) s' := by
  obtain ⟨before, s₀, hrun₀, -, hp⟩ := Leads.run (P := Sample.platform) (s := Sample.start)
    (l := [Sample.register 1000 1 0, Sample.issue 1010 7, Sample.claim 1020 9 7,
      Sample.mintNft 1025 9 (Sample.key 2)])
    (p := fun s₀ => (s₀.tokens.accounts.lookup (Sample.nftToken 9 0)).any fun y =>
      Leads Sample.platform (s₀.ungrant (Sample.nftToken 9 0) y) Sample.abandoned fun s =>
        Sample.ready s 9 0 && (s.business? Sample.shop).isSome && (s.card? (Sample.card 9)).all fun x =>
          (perform Sample.platform (Sample.remint 31537050 9 0 x) s).toOption.isNone) (by decide +kernel)
  obtain ⟨y, hy, hlater⟩ := Option.any_eq_true _ _ |>.mp hp
  obtain ⟨hist, s, hrun, -, hend⟩ := Leads.run hlater
  simp only [Bool.and_eq_true] at hend
  obtain ⟨⟨hready, hshop⟩, hrefused⟩ := hend
  obtain ⟨x, hx, hcycle, hbus, -, hm, hbrings⟩ := Sample.ready.brings 31537050 hready (by decide)
  obtain ⟨b, hb⟩ := Option.isSome_iff_exists.mp hshop
  refine ⟨_, hist, s, x, b, (hrun₀.sound_of_empty Sample.start_empty).ungrant hy, ?_, hrun, hx, hcycle, hm,
    hbus ▸ hb, hbrings b hb, ?_⟩
  · intro A x M bump y' hx hf hy'
    obtain ⟨z, hz, -, hsame | hnone⟩ := s₀.ungrant_account hy hy'
    · exact .inl (hsame.trans (hrun₀.grants Sample.start_empty hx hf hz))
    · exact .inr hnone
  · intro s' hand
    obtain ⟨-, hok⟩ := hand
    rw [hx, Option.all_some, hok] at hrefused
    cases hrefused

end Passdari
