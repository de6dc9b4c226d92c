/-
A card's NFT cannot be moved: whatever is done to it, what there is of it is
in the customer's associated account, which stays theirs, whoever may close
it. So it is for the NFTs of any state whose NFTs are bound like that, older
ones included, whose accounts name nobody or somebody else.
-/
import Passdari.Books.FreshNfts
import Passdari.Lib.BoundTokens

namespace Passdari

open Wire Token2022

variable {P : Platform} {tx : Tx} {s s' start : State} {hist : History} {c : Call} {cs : List Change}
  {calls : List TokenCall} {ps : List Payment} {action : Action} {A M X : Address} {m : Mint Address}
  {customer dest : Address} {z : LoyaltyCard} {bump : UInt8}

/-! ## NFTs bound to their customers -/

/-- What there is of the NFTs of a customer's card is in their associated account, which is theirs. -/
def State.NftsBound (s : State) : Prop :=
  ∀ business customer cardBump n bump, s.tokens.Bound (.cardMint (.card business customer cardBump) n bump)
    (.ata customer (.cardMint (.card business customer cardBump) n bump)) customer

/-- A state the program can be found in, as far as the cards' NFTs go: each is its card's current one and
obeys the card, it is bound to the customer, and a card's rent is for somebody who can sign, unless the card
says of nobody that they paid it. -/
structure State.NftSound (P : Platform) (s : State) : Prop where
  placed : s.WellPlaced
  current : s.Current
  offCurve : s.OffCurve P
  accounts : PlacedAccounts s.tokens
  mints : PlacedMints s.tokens
  nfts : s.CardNfts P
  bound : s.NftsBound
  payers : ∀ A z, s.card? A = some z → z.rentPayer = .default ∨ z.rentPayer.canSign = true

/-- What opens nothing and mints none of the mint leaves it bound. -/
theorem binds_of_opensNothing {op : Op Address} {home : Address} (hop : opensNothing op = true)
    (hno : ∀ dest auth amount decimals, op ≠ .mintTo M dest auth amount decimals) :
    op.Binds M home customer := by
  cases op with
  | mintTo a dest auth amount decimals => exact fun he => absurd (by rw [he]) (hno dest auth amount decimals)
  | initializeMint | initializeAccount => cases hop
  | _ => trivial

theorem mintVoucherCalls_bind {accs : MintVoucher} {name : String} {uri : Text} (hmint : accs.mint ≠ M)
    (hat : accs.customerToken = .ata accs.customer accs.mint) :
    ∀ k ∈ mintVoucherCalls tx accs name uri, k.op.Binds M (.ata customer M) customer := by
  simp only [mintVoucherCalls, List.forall_mem_cons]
  refine ⟨fun he => absurd he hmint, ?_, trivial, fun he => absurd he hmint, trivial, trivial, (by simp)⟩
  intro he
  rw [hat, Address.ata.injEq] at he
  exact he.symm.imp id id

/-- Card NFTs and the accounts for them are made as bound tokens only. -/
theorem Effect.binds {business cardBump n bump} (h : Effect P tx s action cs calls ps)
    (hsig : ∀ a ∈ tx.signers, a.canSign = true)
    (hM : M = .cardMint (.card business customer cardBump) n bump) (hno : ∀ dest auth amount decimals cpi,
      action ≠ .wallet (.token (.mintTo M dest auth amount decimals) cpi)) :
    ∀ k ∈ calls, k.op.Binds M (.ata customer M) customer := by
  have hvoucher : ∀ {a id mint bump'}, findProgramAddress P (.voucherMint a id) = some (mint, bump') →
    mint ≠ M := by
    intro a id mint bump' hf heq
    subst heq
    rw [findProgramAddress_eq hf] at hM
    cases hM
  have hhome : ∀ {a owner mint}, a = Address.ata owner mint → a = .ata customer M → mint = M ∧
    owner = customer := by
    intro a owner mint heq
    subst heq
    intro he
    cases he
    exact ⟨rfl, rfl⟩
  have hsign : ∀ {a}, a ∈ tx.signers → a ≠ M ∧ a ≠ .ata customer M := by
    intro a ha
    constructor
    · intro heq
      subst heq
      have := hsig _ ha
      rw [hM] at this
      cases this
    · intro heq
      subst heq
      cases hsig _ ha
  cases h with
  | mintCardNft _ _ _ _ hcard _ _ hf _ _ hat =>
    simp only [mintCardNftCalls, List.forall_mem_cons]
    refine ⟨fun _ => ⟨rfl, rfl, rfl⟩, trivial, hhome hat, ?_, trivial, trivial, (by simp)⟩
    intro heq
    subst heq
    -- the card that signs is the one its address names
    have hA := (findProgramAddress_eq hf).symm.trans hM
    rw [(createProgramAddress_eq_some.mp hcard).2] at hA
    cases hA
    exact hat
  | retireIdleCardNft => exact forall_burnCardNftCalls (fun _ => trivial) trivial (fun _ => trivial) trivial
  | mintVoucher _ _ _ _ _ _ hf _ hat =>
    rw [List.forall_mem_append]
    constructor
    · exact mintVoucherCalls_bind (hvoucher hf) hat
    · split
      · exact forall_burnCardNftCalls (fun _ => trivial) trivial (fun _ => trivial) trivial
      · simp
  | presentVoucher => exact forall_presentVoucherCalls trivial trivial
  | transferVoucher _ _ _ _ _ _ _ _ _ _ _ _ _ hat =>
    exact forall_transferVoucherCalls (fun _ => hhome hat) trivial trivial trivial
  | redeemVoucher =>
    rw [List.forall_mem_append]
    exact ⟨forall_redeemCalls trivial trivial trivial, forall_closeMintCalls trivial⟩
  | closeExpiredVoucher =>
    rw [List.forall_mem_append]
    exact ⟨forall_burnExpiredCalls trivial (fun _ => trivial) trivial, forall_closeMintCalls trivial⟩
  | openMint hs =>
    rw [List.forall_mem_singleton]
    exact fun he => absurd he (hsign hs).1
  | openToken hat =>
    rw [List.forall_mem_singleton]
    rcases hat with hs | ⟨hat, -⟩
    · exact fun he => absurd he (hsign hs).2
    · exact hhome hat
  | @token op cpi hop =>
    rw [List.forall_mem_singleton]
    exact binds_of_opensNothing hop fun dest auth amount decimals he =>
      hno dest auth amount decimals cpi (congrArg (Action.wallet ∘ (WalletAction.token · cpi)) he)
  | cancelPresentation | closeToken => simp [Op.Binds]
  | _ => exact fun k hk => absurd hk List.not_mem_nil

/-- A wallet mints no card NFT. -/
theorem Step.no_plain_mint (hn : s.CardNfts P) (h : Step P s c s' cs calls ps) (hM : M.isCardMint = true)
    (dest auth : Address) (amount decimals : Nat) (cpi : Bool) :
    c.action ≠ .wallet (.token (.mintTo M dest auth amount decimals) cpi) := by
  obtain ⟨tx, action⟩ := c
  intro heq
  subst heq
  obtain ⟨he, -, hrun, -⟩ := h
  cases he with
  | token =>
    have hd := run_singleton_eq_ok.mp hrun
    generalize s'.tokens = t' at hd
    cases hd with
    | mintTo _ _ _ hm _ _ hauth =>
      cases M with
      | cardMint A n bump =>
        rw [(hn A n bump _ hm).obeys.mintAuthority] at hauth
        cases hauth
      | _ => cases hM

theorem Step.nftsBound (hn : s.CardNfts P) (hb : s.NftsBound) (h : Step P s c s' cs calls ps) :
    s'.NftsBound :=
  fun _ _ _ _ _ => run_bound h.tokens (hb _ _ _ _ _) (h.effect.binds h.signers rfl (h.no_plain_mint hn rfl))

/-- What holds of everybody who can sign goes on holding of whoever paid for a card. -/
theorem Step.card_payers (Q : Address → Prop) (hQ : ∀ a, a.canSign = true → Q a) (hw : s.WellPlaced)
    (hs : s.Current) (hp : ∀ A z, s.card? A = some z → Q z.rentPayer) (h : Step P s c s' cs calls ps) :
    ∀ A z, s'.card? A = some z → Q z.rentPayer := by
  intro A z' hz'
  rcases h.cardLife hw hs A with hsame | hlife
  · exact hp A z' (hsame.symm.trans hz')
  rw [hz'] at hlife
  generalize hz : s.card? A = before at hlife
  cases hlife with
  | opened ho => exact hQ _ (h.signers _ ho.signed)
  | kept _ hpayer | nextNft _ hpayer => exact hpayer ▸ hp A _ hz

/-- **Sound NFTs stay sound**, whatever anybody does. -/
theorem Step.nftSound (hs : s.NftSound P) (h : Step P s c s' cs calls ps) : s'.NftSound P where
  placed := h.wellPlaced hs.placed
  current := h.current hs.current
  offCurve := h.offCurve hs.current hs.offCurve
  accounts := h.placed_accounts hs.accounts
  mints := h.placedMints hs.mints
  nfts := h.cardNfts hs.placed hs.current hs.accounts hs.nfts
  bound := h.nftsBound hs.nfts hs.bound
  payers :=
    h.card_payers (fun w => w = .default ∨ w.canSign = true) (fun _ ha => .inr ha) hs.placed hs.current
      hs.payers

theorem Run.nftSound (h : Run P start hist s) (hs : start.NftSound P) : s.NftSound P :=
  (Run.induct (I := fun _ s => s.NftSound P) h hs.placed hs fun _ _ hi hst => hst.nftSound hi).2

theorem Run.card_payer_signs (h : Run P start hist s) (hs : start.Empty) :
    ∀ A z, s.card? A = some z → z.rentPayer.canSign = true := by
  refine h.induct_empty (I := fun _ s => ∀ A z, s.card? A = some z → z.rentPayer.canSign = true) hs ?_
    fun _ hw hcur hi hst => hst.card_payers (fun w => w.canSign = true) (fun _ ha => ha) hw hcur hi
  intro A z hz
  rw [State.card?, State.record?, hs.program] at hz
  cases hz

theorem State.Empty.nftsBound (h : s.Empty) : s.NftsBound := by
  intro business customer cardBump n bump
  have hmint : s.tokens.mints.lookup (.cardMint (.card business customer cardBump) n bump) = none := by
    cases hm : s.tokens.mints.lookup (.cardMint (.card business customer cardBump) n bump) with
    | none => rfl
    | some m =>
      obtain ⟨_, hk⟩ := h.mints hm
      cases hk
  have hnone : ∀ a x, s.tokens.accounts.lookup a = some x →
    x.mint ≠ .cardMint (.card business customer cardBump) n bump := by
    intro a x hx hm
    obtain ⟨⟨_, hk⟩, -⟩ := h.accounts hx
    rw [hk] at hm
    cases hm
  refine ⟨fun m hm => ?_, ?_, fun a x hx hm => absurd hm (hnone a x hx),
    fun a x hx hm => absurd hm (hnone a x hx), ?_, ?_⟩
  · rw [hmint] at hm
    cases hm
  · rw [Tokens.Conserved, Tokens.supply, hmint, Option.elim_none, Tokens.held_eq_zero_iff]
    intro a hex
    obtain ⟨x, hx, hm, -⟩ := hex
    exact hnone a x hx hm
  · intro a hex
    obtain ⟨x, hx, hm, -⟩ := hex
    exact absurd hm (hnone a x hx)
  · intro x hx
    obtain ⟨⟨_, hk⟩, ⟨_, ha⟩ | ⟨_, ha⟩⟩ := h.accounts hx
    · cases ha
    · rw [hk] at ha
      cases ha

theorem State.Empty.nftSound (h : s.Empty) : s.NftSound P where
  placed := h.wellPlaced
  current := h.current
  offCurve := h.sound.offCurve
  accounts := h.sound.accounts (P := P)
  mints _ _ hm := .inl (h.mints hm)
  nfts := h.cardNfts
  bound := h.nftsBound
  payers A z hz := by
    rw [State.card?, State.record?, h.program] at hz
    cases hz

end Passdari
