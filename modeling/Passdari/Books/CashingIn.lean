/-
Whether a full card can be cashed in. The addresses of the next voucher are
free in every state the program reaches, so what is left to go wrong is on
the outside: signatures, lamports, a text too long, an account of the
customer's at the next voucher's mint from an earlier life of the shop, and
an NFT of the card that will not go.
-/
import Passdari.Books.OneToken
import Passdari.Books.Retirement

namespace Passdari

open Wire Token2022

variable {P : Platform} {tx : Tx} {s s' start : State} {hist : History} {A V M N X : Address}
  {m : Mint Address} {customer relayer : Address} {b : Business} {z : LoyaltyCard} {uri : Text}

/-! ## The steps before the card's NFT -/

/-- The lamports a voucher takes: its record, its mint, the customer's account, and the mint's metadata. -/
def voucherCost (P : Platform) (b : Business) (uri : Text) : Nat :=
  P.minimumBalance Voucher.space + P.minimumBalance voucherMintLen + P.minimumBalance
    (tokenAccountLen false) +
    P.minimumBalance (voucherMintLen + metadataLen (voucherName b.toBusinessV1) voucherSymbol uri.val)

/-- A record opened at a free address, with what the payer adds to the lamports there; the other free
addresses stay free. -/
theorem create_ok {α : Type} (P : Platform) (tx : Tx) (T : AccountType α) {payer a : Address}
    (hfree : ¬s.InUse a) (hsign : payer ∈ tx.signers) (hpayer : ¬s.InUse payer) (hne : a ≠ payer)
    (hle : P.minimumBalance T.space ≤ s.lamports a + s.lamports payer) :
    ∃ s₁, create P tx T s payer a = .ok s₁ ∧ s₁.tokens = s.tokens ∧ (∀ e, e ≠ a → ¬s.InUse e → ¬s₁.InUse e) ∧
      s.lamports payer ≤ s₁.lamports payer + P.minimumBalance T.space := by
  obtain ⟨s₁, h₁, hp, ht, hf, hl⟩ := transferLamports_ok tx .deposit hsign hpayer hne
    (Nat.sub_le_iff_le_add'.mpr hle)
  refine ⟨{ s₁ with program := s₁.program.insert a (List.replicate T.space (.lit 0)) }, ?_, ht, ?_, ?_⟩
  · rw [create, createAddress, check_pos hfree, Except.ok_bind, h₁]
    rfl
  · intro e he hno
    rw [State.inUse_iff, Store.lookup_insert, if_neg he, hp, ht, hf, ← State.inUse_iff]
    exact hno
  · exact Nat.le_trans hl (Nat.add_le_add_left (Nat.sub_le _ _) _)

theorem openVoucherMint_ok (P : Platform) (tx : Tx) (V : Address) (hM : ¬s.InUse M)
    (hX : ¬s.InUse (.ata customer M))
    (hXM : Address.ata customer M ≠ M) (hrelayer : relayer ∈ tx.signers) (hsys : ¬s.InUse relayer)
    (hMr : M ≠ relayer) (hXr : Address.ata customer M ≠ relayer)
    (hle : P.minimumBalance voucherMintLen + P.minimumBalance (tokenAccountLen false) ≤ s.lamports relayer) :
    ∃ s₁ s₂ s₃, createAddress tx s .deposit relayer M (P.minimumBalance voucherMintLen) = .ok s₁ ∧
      invoke tx.signers s₁ (.initializeMint M (voucherMint V)) = .ok s₂ ∧
      createAssociatedToken P tx s₂ relayer (.ata customer M) customer M = .ok s₃ ∧ s₃.program = s.program ∧
      s₃.foreign = s.foreign ∧
      s₃.tokens = (s.tokens.setMint M (voucherMint V)).setAccount (.ata customer M) (.fresh M customer true) ∧
      s.lamports relayer ≤ s₃.lamports relayer +
        (P.minimumBalance voucherMintLen + P.minimumBalance (tokenAccountLen false)) := by
  obtain ⟨s₁, h₁, hp₁, ht₁, hf₁, hl₁⟩ := createAddress_ok tx .deposit hM hrelayer hsys hMr
    (Nat.le_trans (Nat.le_add_right _ _) hle)
  have hopen : Did ⟨tx.signers, true⟩ s₁.tokens (.initializeMint M (voucherMint V)) _ :=
    .initializeMint (ht₁ ▸ fun h => hM (.inr (.inl h)))
  have hfree : ∀ a, a ≠ M → ¬s.InUse a →
    ¬({ s₁ with tokens := s₁.tokens.setMint M (voucherMint V) } : State).InUse a := by
    intro a hne ha
    refine State.free_of ha hp₁ hf₁ ?_
    obtain ⟨hm, hx⟩ := not_inUse.mp fun h => ha (.inr (.inl h))
    refine not_inUse.mpr ⟨?_, by rw [ht₁]; exact hx⟩
    simp only [Tokens.setMint_mints, Store.lookup_insert, if_neg hne, ht₁, hm]
  obtain ⟨s₃, h₃, ht₃, hp₃, hf₃, hl₃⟩ := openAssociated_ok P tx
    (s := { s₁ with tokens := s₁.tokens.setMint M (voucherMint V) }) (M := M) (Store.lookup_insert_self _ _ _)
    (hfree _ hXM hX) hrelayer (hfree _ hMr.symm hsys) hXr
      (by show P.minimumBalance (tokenAccountLen false) ≤ s₁.lamports relayer; omega)
  refine ⟨s₁, _, s₃, h₁, invoke_ok hopen, h₃, hp₃.trans hp₁, hf₃.trans hf₁, by rw [ht₃, ht₁], ?_⟩
  have hl₃ : s₁.lamports relayer ≤ s₃.lamports relayer + P.minimumBalance (tokenAccountLen false) := hl₃
  omega

theorem giveVoucher_ok (tx : Tx) (md : Metadata Address) (hm : s.tokens.mints.lookup M = some (voucherMint V))
    (hx : s.tokens.accounts.lookup X = some (.fresh M customer true)) (hcustomer : customer ∈ tx.signers) :
    ∃ s₁ s₂ s₃ s₄, invoke (V :: tx.signers) s (.initializeMetadata M V md) = .ok s₁ ∧
      invoke (V :: tx.signers) s₁ (.mintTo M X V 1 0) = .ok s₂ ∧
      invoke tx.signers s₂ (.setCloseAuthority X (some V) customer) = .ok s₃ ∧
      invoke (V :: tx.signers) s₃ (.setMintAuthority M .mintTokens none V) = .ok s₄ := by
  obtain ⟨s₁, h₁, hm₁, hx₁⟩ : ∃ s₁, invoke (V :: tx.signers) s (.initializeMetadata M V md) = .ok s₁ ∧
      s₁.tokens.mints.lookup M = some { voucherMint V with metadata := some md } ∧
      s₁.tokens.accounts.lookup X = some (.fresh M customer true) :=
    ⟨_, invoke_ok (.initializeMetadata hm rfl List.mem_cons_self rfl), Store.lookup_insert_self _ _ _, hx⟩
  have hmint : Did ⟨V :: tx.signers, true⟩ s₁.tokens (.mintTo M X V 1 0) _ :=
    .mintTo hx₁ rfl rfl hm₁ (fun _ => rfl) rfl rfl List.mem_cons_self (show 0 + 1 < 2 ^ 64 by decide)
  refine ⟨s₁, _, _, _, h₁, invoke_ok hmint,
    invoke_ok (.setCloseAuthority (Store.lookup_insert_self _ _ _) rfl rfl hcustomer ?_),
    invoke_ok (.setMintAuthority (Store.lookup_insert_self _ _ _) rfl List.mem_cons_self)⟩
  intro hex
  obtain ⟨hguard, -⟩ := hex
  cases hguard

theorem mintVoucherTokens_ok (P : Platform) (tx : Tx) (accs : MintVoucher) (uri : Text) (b : Business)
    (hm : s.tokens.mints.lookup accs.mint = some (voucherMint accs.voucher))
    (hx : s.tokens.accounts.lookup accs.customerToken = some (.fresh accs.mint accs.customer true))
    (hcustomer : accs.customer ∈ tx.signers) (hrelayer : accs.relayer ∈ tx.signers)
    (hsys : ¬s.InUse accs.relayer) (hMr : accs.mint ≠ accs.relayer)
    (hle : P.minimumBalance (voucherMintLen +
      metadataLen (voucherName b.toBusinessV1) voucherSymbol uri.val) ≤ s.lamports accs.relayer) :
    ∃ s', mintVoucherTokens P tx accs uri b (accs.voucher :: tx.signers) s = .ok s' := by
  obtain ⟨s₁, h₁, -, ht, -, -⟩ := transferLamports_ok tx .deposit hrelayer hsys hMr
    (Nat.le_trans (Nat.sub_le _ (s.lamports accs.mint)) hle)
  obtain ⟨s₂, s₃, s₄, s₅, h₂, h₃, h₄, h₅⟩ :=
    giveVoucher_ok tx (s := s₁) _ (by rw [ht, hm]) (by rw [ht, hx]) hcustomer
  refine ⟨s₅, ?_⟩
  simp only [mintVoucherTokens, Except.bind_eq_ok]
  exact ⟨s₁, h₁, s₂, h₂, s₃, h₃, s₄, h₄, h₅⟩

/-! ## Everything before the NFT -/

theorem addU32_one {n : UInt32} (h : n.toNat + 1 < 2 ^ 32) : addU32 n 1 = .ok (n + 1) := by
  rw [addU32, check_pos (by simpa using h)]
  rfl

theorem addU64_one {n : UInt64} (h : n.toNat + 1 < 2 ^ 64) : addU64 n 1 = .ok (n + 1) := by
  rw [addU64, check_pos (by simpa using h)]
  rfl

/-- The handler's checks, with what it needs of the counters. -/
structure CanCash (now : Int64) (uri : Text) (b : Business) (z : LoyaltyCard) : Prop where
  uri : uri.len ≤ maxVoucherUriLen
  stamps : z.stampsRequiredSnapshot ≤ z.stamps
  clock : now.toInt + voucherValidSeconds.toInt < 2 ^ 63
  numbers : b.totalVouchersIssued.toNat + 1 < 2 ^ 64
  counted : b.openVouchers.toNat + 1 < 2 ^ 32

theorem mintVoucherHandler_ok_iff {now : Int64} {accs : MintVoucher} {bump : UInt8} :
    (∃ r, mintVoucherHandler now accs bump b.totalVouchersIssued uri b z = .ok r) ↔ CanCash now uri b z := by
  have hvalid : voucherValidSeconds.toInt = 7776000 := by decide
  constructor
  · intro hex
    obtain ⟨⟨b', z', v⟩, hok⟩ := hex
    obtain ⟨huri, -, hcash, e, tv, ov, he, htv, hov, -⟩ := mintVoucherHandler_eq_ok hok
    obtain ⟨n, hn, -⟩ := cashIn_eq_ok hcash
    have h1 := e.toInt_lt
    have h2 := tv.toNat_lt
    have h3 := ov.toNat_lt
    exact ⟨huri, UInt8.le_iff_toNat_le.mpr (by omega), by omega, by omega, by omega⟩
  · intro h
    obtain ⟨z', hz'⟩ := cashIn_ok (b := b) h.stamps
    have hclock : addI64 now voucherValidSeconds = .ok (now + voucherValidSeconds) := by
      have := now.le_toInt
      have := h.clock
      rw [addI64, check_pos ⟨by omega, by omega⟩]
      rfl
    simp only [mintVoucherHandler, Except.bind_eq_ok, require_eq_ok, exists_const]
    exact ⟨_, h.uri, trivial, z', hz', _, hclock, _, addU64_one h.numbers, _, addU32_one h.counted, rfl⟩

/-- The cashing in of the card at `A` for the voucher at `V` with the mint `M`, with what the card records;
`N` is the card's NFT. -/
abbrev LoyaltyCard.cashing (z : LoyaltyCard) (A V M N relayer : Address) : MintVoucher :=
  ⟨z.business, A, V, M, .ata z.customer M, N, .ata z.customer N, z.rentPayer, z.customer, relayer⟩

/-- What the outside brings for a voucher: the signatures, and a relayer with the lamports. -/
structure BringsFor (P : Platform) (s : State) (tx : Tx) (z : LoyaltyCard) (b : Business) (relayer : Address)
    (uri : Text) : Prop where
  signers : ∀ a ∈ tx.signers, a.canSign = true
  customerSigns : z.customer ∈ tx.signers
  relayerSigns : relayer ∈ tx.signers
  system : ¬s.InUse relayer
  solvent : voucherCost P b uri ≤ s.lamports relayer

/-- Where the next voucher of the shop of the card at `A`, its mint and the card's NFT are. -/
structure NextVoucher (P : Platform) (A V M N : Address) (z : LoyaltyCard) (b : Business) : Prop where
  voucher : ∃ bump, findProgramAddress P (.voucher z.business b.totalVouchersIssued) = some (V, bump)
  mint : ∃ bump, findProgramAddress P (.voucherMint z.business b.totalVouchersIssued) = some (M, bump)
  nft : ∃ bump, findProgramAddress P (.cardMint A z.nftCycle) = some (N, bump)

/-- **What `mint_voucher` needs before the card's NFT is all it needs**: the addresses of the new voucher
free, and the handler's checks. -/
theorem mintVoucherUpToNft_ok (hb : s.business? z.business = some b) (hz : s.card? A = some z)
    (hat : NextVoucher P A V M N z b) (hbring : BringsFor P s tx z b relayer uri)
    (hpda : createProgramAddress P (.card z.business z.customer) z.bump = some A) (hV : ¬s.InUse V)
    (hM : ¬s.InUse M) (hX : ¬s.InUse (.ata z.customer M)) (hcan : CanCash tx.now uri b z) :
    ∃ r, mintVoucherUpToNft P tx (z.cashing A V M N relayer) b.totalVouchersIssued uri s = .ok r := by
  obtain ⟨⟨bumpV, hfV⟩, ⟨bumpM, hfM⟩, ⟨bumpN, hfN⟩⟩ := hat
  have hkey := hbring.signers _ hbring.relayerSigns
  have hVadr := findProgramAddress_eq hfV
  have hMadr := findProgramAddress_eq hfM
  have hVr : V ≠ relayer := fun he => by rw [← he, hVadr] at hkey; cases hkey
  have hMr : M ≠ relayer := fun he => by rw [← he, hMadr] at hkey; cases hkey
  have hXr : Address.ata z.customer M ≠ relayer := fun he => by rw [← he] at hkey; cases hkey
  have hXM : Address.ata z.customer M ≠ M := fun he => by rw [hMadr] at he; cases he
  have hMV : M ≠ V := fun he => by rw [hMadr, hVadr] at he; cases he
  have hXV : Address.ata z.customer M ≠ V := fun he => by rw [hVadr] at he; cases he
  have hcost := hbring.solvent
  rw [voucherCost] at hcost
  obtain ⟨s₁, h₁, ht₁, hfree, hl₁⟩ := create_ok P tx Voucher.account hV hbring.relayerSigns hbring.system hVr
    (show P.minimumBalance Voucher.space ≤ s.lamports V + s.lamports relayer by omega)
  have hl₁ : s.lamports relayer ≤ s₁.lamports relayer + P.minimumBalance Voucher.space := hl₁
  obtain ⟨s₂, s₃, s₄, h₂, h₃, h₄, hp₄, hf₄, ht₄, hl₄⟩ := openVoucherMint_ok P tx V (hfree _ hMV hM)
    (hfree _ hXV hX) hXM hbring.relayerSigns (hfree _ hVr.symm hbring.system) hMr hXr (by omega)
  have hex : ∃ r, mintVoucherHandler tx.now (z.cashing A V M N relayer) bumpV b.totalVouchersIssued uri b z =
      .ok r :=
    mintVoucherHandler_ok_iff.mpr hcan
  obtain ⟨⟨b', z', v⟩, hok⟩ := hex
  obtain ⟨-, -, -, _, _, _, -, -, -, hb', hv⟩ := mintVoucherHandler_eq_ok hok
  have hname : voucherName b'.toBusinessV1 = voucherName b.toBusinessV1 := by rw [hb']; rfl
  have hsys₄ : ¬s₄.InUse relayer := by
    refine State.free_of (hfree _ hVr.symm hbring.system) hp₄ hf₄ ?_
    obtain ⟨hm, hx⟩ := not_inUse.mp fun h => hfree _ hVr.symm hbring.system (.inr (.inl h))
    rw [ht₄]
    refine not_inUse.mpr ⟨?_, ?_⟩
    · simp only [Tokens.setAccount_mints, Tokens.setMint_mints, Store.lookup_insert, if_neg hMr.symm, hm]
    · simp only [Tokens.setAccount_accounts, Tokens.setMint_accounts, Store.lookup_insert, if_neg hXr.symm,
        hx]
  obtain ⟨s₅, h₅⟩ := mintVoucherTokens_ok P tx (s := s₄) (z.cashing A V M N relayer) uri b'
    (by rw [ht₄]; exact Store.lookup_insert_self _ _ _) (by rw [ht₄]; exact Store.lookup_insert_self _ _ _)
    hbring.customerSigns hbring.relayerSigns hsys₄ hMr (by rw [hname]; show _ ≤ s₄.lamports relayer; omega)
  refine ⟨(s₅, b', z', v), ?_⟩
  simp only [mintVoucherUpToNft, Except.bind_eq_ok, load_eq_ok, signer_eq_ok, seedsConstraint_eq_ok,
    seedsConstraintWith_eq_ok, check_eq_ok, withSigner_eq_ok, exists_const]
  exact ⟨b, State.business?_eq_some.mp hb, z, State.card?_eq_some.mp hz, hbring.customerSigns,
    hbring.relayerSigns,
    bumpV, hfV, s₁, h₁, bumpM, hfM, s₂, h₂, s₃, h₃, s₄, h₄, hpda, bumpN, hfN, trivial, (b', z', v), hok, _,
    ⟨V, by rw [hv]; exact createProgramAddress_of_find hfV, rfl⟩, s₅, h₅, rfl⟩

/-! ## Reachable states -/

theorem Run.next_voucher_free (h : Run P start hist s) (hs : start.Empty)
    (hb : s.business? z.business = some b)
    (hat : NextVoucher P A V M N z b) : ¬s.InUse V ∧ ¬s.InUse M := by
  obtain ⟨⟨bumpV, hfV⟩, ⟨bumpM, hfM⟩, -⟩ := hat
  have hsound := h.sound_of_empty hs
  have hVadr := findProgramAddress_eq hfV
  have hMadr := findProgramAddress_eq hfM
  have hone := h.oneToken hs hfM hfV
  -- a voucher there would have a number the shop has not given yet
  have hnone : s.voucher? V = none := by
    by_contra hne
    obtain ⟨v, hv⟩ := Option.ne_none_iff_exists'.mp hne
    obtain ⟨⟨bump, hf⟩, b', hb', hlt⟩ := h.numbered hs V v hv
    have hadr := findProgramAddress_eq hf
    rw [hVadr, Address.voucher.injEq] at hadr
    obtain ⟨hbus, hid, -⟩ := hadr
    rw [← hbus, hb, Option.some.injEq] at hb'
    rw [← hid, ← hb'] at hlt
    exact Nat.lt_irrefl _ hlt
  have hmint : s.tokens.mints.lookup M = none := by
    by_contra hne
    obtain ⟨v, hv⟩ := hone.live_iff.mp (Option.ne_none_iff_exists'.mp hne)
    rw [hnone] at hv
    cases hv
  have hvoucher : s.program.lookup V = none := by
    refine hsound.current.lookup_none ?_
    cases hr : s.record? V with
    | none => rfl
    | some r =>
      have hadr := hsound.placed.placed (State.face?_of_record? hr)
      rw [hVadr] at hadr
      cases r with
      | voucher v =>
        rw [State.voucher?_eq_some.mpr hr] at hnone
        cases hnone
      | _ => simp [Record.face, Face.At] at hadr
  constructor
  · refine hsound.free (fun k => by rw [hVadr]; simp) hvoucher ?_ ?_
    · cases hm : s.tokens.mints.lookup V with
      | none => rfl
      | some m =>
        rw [hVadr] at hm
        obtain ⟨_, hk⟩ | hk | hk := hsound.mints _ m hm <;> cases hk
    · cases hx : s.tokens.accounts.lookup V with
      | none => rfl
      | some y =>
        rw [hVadr] at hx
        obtain ⟨_, hk⟩ | ⟨_, hk⟩ := hsound.accounts _ y hx <;> cases hk
  · refine hsound.free (fun k => by rw [hMadr]; simp) (hsound.placed.none_at_token fun f => ?_) hmint ?_
    · rw [hMadr]
      cases f <;> simp [Face.At]
    · cases hx : s.tokens.accounts.lookup M with
      | none => rfl
      | some y =>
        rw [hMadr] at hx
        obtain ⟨_, hk⟩ | ⟨_, hk⟩ := hsound.accounts _ y hx <;> cases hk

/-- The customer's account at the next voucher's mint is the one address that may be taken. -/
theorem Run.token_free_iff (h : Run P start hist s) (hs : start.Empty) :
    ¬s.InUse (.ata customer M) ↔ s.tokens.accounts.lookup (.ata customer M) = none := by
  have hsound := h.sound_of_empty hs
  refine ⟨fun hno => (State.tokens_of_not_inUse hno).2, fun hnone => ?_⟩
  refine hsound.free (fun _ => (by simp)) (hsound.placed.none_at_token fun f => ?_) ?_ hnone
  · cases f <;> simp [Face.At]
  · cases hm : s.tokens.mints.lookup (.ata customer M) with
    | none => rfl
    | some m => obtain ⟨_, hk⟩ | hk | hk := hsound.mints _ m hm <;> cases hk

/-- The NFT at `N` of the card at `A`, if there is one, can be retired: the card's count of cycles has room
for one more, and the account for it does not refuse. -/
def Retirable (s : State) (A N : Address) (z : LoyaltyCard) : Prop :=
  s.tokens.mints.lookup N ≠ none →
    z.nftCycle.toNat + 1 < 2 ^ 32 ∧ ¬s.Refuses A (.ata z.customer N) true z.rentPayer

theorem Run.cash_in_due_iff (h : Run P start hist s) (hs : start.Empty) (hz : s.card? A = some z)
    (hb : s.business? z.business = some b) (hat : NextVoucher P A V M N z b)
    (hbring : BringsFor P s tx z b relayer uri) :
    CashInDue P s tx (z.cashing A V M N relayer) b.totalVouchersIssued uri A ↔
      CanCash tx.now uri b z ∧ s.tokens.accounts.lookup (.ata z.customer M) = none := by
  have hsound := h.sound_of_empty hs
  have hadr := hsound.placed.card (State.card?_eq_some.mp hz)
  have hpda : createProgramAddress P (.card z.business z.customer) z.bump = some A :=
    createProgramAddress_eq_some.mpr ⟨hsound.offCurve A _ (State.card?_eq_some.mp hz), hadr⟩
  rw [← h.token_free_iff hs]
  constructor
  · intro hdue
    obtain ⟨⟨s₁, b', z', v⟩, hup⟩ := hdue.reached
    obtain ⟨b₀, z₀, hin, -⟩ := mintVoucherUpToNft_eq_ok hsound.placed hup
    obtain rfl : b = b₀ := Option.some.inj (hb.symm.trans (State.business?_eq_some.mpr hin.business))
    obtain rfl : z = z₀ := Option.some.inj (hz.symm.trans (State.card?_eq_some.mpr hin.card))
    obtain ⟨bump, -, hok⟩ := hin.voucher
    exact ⟨mintVoucherHandler_ok_iff.mp ⟨_, hok⟩, hin.customerTokenFree⟩
  · intro hex
    obtain ⟨hcan, hX⟩ := hex
    obtain ⟨hV, hM⟩ := h.next_voucher_free hs hb hat
    exact ⟨hbring.signers, rfl, mintVoucherUpToNft_ok hb hz hat hbring hpda hV hM hX hcan⟩

theorem Run.cashes_in_iff (h : Run P start hist s) (hs : start.Empty) (hz : s.card? A = some z)
    (hat : NextVoucher P A V M N z b) {accs : MintVoucher} {voucherId : UInt64}
    (hdue : CashInDue P s tx accs voucherId uri A) (hpayer : accs.cardRentPayer = z.rentPayer) :
    (∃ s', mintVoucher P tx accs voucherId uri s = .ok s') ↔ Retirable s A N z := by
  have hsound := h.nftSound hs.nftSound
  obtain ⟨bumpN, hfN⟩ := hat.nft
  have hblank : z.rentPayer ≠ .default := by
    intro he
    have := h.card_payer_signs hs A z hz
    rw [he] at this
    revert this
    decide
  have hrefundee : accs.refundee z = z.rentPayer := if_neg hblank
  cases hm : s.tokens.mints.lookup N with
  | some m =>
    rw [hsound.cashes_in_iff hz hfN hm hdue (.inr hpayer), hrefundee, Retirable, hm]
    simp
  | none =>
    have hno : ¬s.TokenOwned N := by
      refine not_inUse.mpr ⟨hm, ?_⟩
      cases hx : s.tokens.accounts.lookup N with
      | none => rfl
      | some x =>
        rw [findProgramAddress_eq hfN] at hx
        obtain ⟨_, hk⟩ | ⟨_, hk⟩ := hsound.accounts _ x hx <;> cases hk
    refine ⟨fun _ hne => absurd hm hne, fun _ => ?_⟩
    exact (hsound.cashes_in_without hz hfN hno hdue).2

/-- **When a full card can be cashed in.** In every state a run reaches, and for every live card: its shop is
live, and `mint_voucher` for the shop's next voucher, signed by the card's customer and by a relayer with the
lamports, goes through exactly when the handler's checks hold, the customer has no account left at that
voucher's mint from before, and the card's NFT, if it has one, can be retired. -/
theorem full_card_cashes_iff (h : Run P start hist s) (hs : start.Empty) (hz : s.card? A = some z) :
    ∃ b, s.business? z.business = some b ∧ ∀ V M N tx relayer uri, NextVoucher P A V M N z b →
      BringsFor P s tx z b relayer uri →
      ((∃ s', Next P s
          ⟨tx, .program (.mintVoucher (z.cashing A V M N relayer) b.totalVouchersIssued uri)⟩ s') ↔
        CanCash tx.now uri b z ∧ s.tokens.accounts.lookup (.ata z.customer M) = none ∧
          Retirable s A N z) := by
  obtain ⟨b, hb, -⟩ := h.business_of_card hs hz
  refine ⟨b, hb, fun V M N tx relayer uri hat hbring => ?_⟩
  rw [← and_assoc, ← h.cash_in_due_iff hs hz hb hat hbring]
  constructor
  · intro hex
    obtain ⟨s', -, hok⟩ := hex
    have hok : mintVoucher P tx (z.cashing A V M N relayer) b.totalVouchersIssued uri s = .ok s' := hok
    have hdue : CashInDue P s tx (z.cashing A V M N relayer) b.totalVouchersIssued uri A := by
      rw [mintVoucher_eq, Except.bind_eq_ok] at hok
      obtain ⟨r, hup, -⟩ := hok
      exact ⟨hbring.signers, rfl, r, hup⟩
    exact ⟨hdue, (h.cashes_in_iff hs hz hat hdue rfl).mp ⟨s', hok⟩⟩
  · intro hex
    obtain ⟨hdue, hretire⟩ := hex
    obtain ⟨s', hok⟩ := (h.cashes_in_iff hs hz hat hdue rfl).mpr hretire
    exact ⟨s', hbring.signers, hok⟩

namespace Sample

/-- The card of `key 9` is full, it has an NFT whose account is not guarded, and `key 2` can pay for a
voucher. -/
def cashable (s : State) : Bool :=
  (s.card? (card 9)).any (fun z => z.business = shop ∧ z.customer = key 9 ∧ z.nftCycle = 0 ∧
      z.stampsRequiredSnapshot ≤ z.stamps) &&
    (s.business? shop).any (fun b => b.totalVouchersIssued = 0 ∧ b.openVouchers = 0 ∧
      voucherCost platform b Sample.uri ≤ s.lamports (key 2)) &&
    (s.tokens.accounts.lookup (nftToken 9 0)).all (fun x => !x.cpiGuard) &&
    decide (s.tokens.accounts.lookup (voucherToken 9 0) = none ∧ ¬s.InUse (key 2))

end Sample

/-- A full card with an NFT is cashed in. -/
theorem full_card_cashes_iff_with_nft : ∃ hist s z s', Run Sample.platform Sample.start hist s ∧
    hist.length = 4 ∧
    s.card? (Sample.card 9) = some z ∧
    Next Sample.platform s ⟨⟨1030, [Sample.key 9, Sample.key 2]⟩, .program (.mintVoucher
      (z.cashing (Sample.card 9) (Sample.voucher 0) (Sample.voucherMint 0) (Sample.nft 9 0) (Sample.key 2)) 0
      Sample.uri)⟩ s' := by
  have hleads : Leads Sample.platform Sample.start Sample.minted Sample.cashable = true := by decide +kernel
  obtain ⟨hist, s, hrun, hcalls, hp⟩ := Leads.run hleads
  simp only [Sample.cashable, Bool.and_eq_true, Option.any_eq_true, Option.all_eq_true, Bool.not_eq_true',
    decide_eq_true_eq] at hp
  obtain ⟨⟨⟨⟨z, hz, hbus, hcus, hcycle, hfull⟩, b, hb, hnumber, hopen, hsolvent⟩, hguard⟩, hX, hsys⟩ := hp
  obtain ⟨b', hb', hiff⟩ := full_card_cashes_iff hrun Sample.start_empty hz
  rw [hbus, hb, Option.some.injEq] at hb'
  subst hb'
  have hat : NextVoucher Sample.platform (Sample.card 9) (Sample.voucher 0) (Sample.voucherMint 0)
      (Sample.nft 9 0) z b := by
    refine ⟨⟨255, ?_⟩, ⟨255, ?_⟩, 255, ?_⟩
    · rw [hbus, hnumber]
      rfl
    · rw [hbus, hnumber]
      rfl
    · rw [hcycle]
      rfl
  have hbring : BringsFor Sample.platform s ⟨1030, [Sample.key 9, Sample.key 2]⟩ z b (Sample.key 2)
      Sample.uri :=
    ⟨by decide, by rw [hcus]; exact List.mem_cons_self, by simp, hsys, hsolvent⟩
  have hcan : CanCash 1030 Sample.uri b z :=
    ⟨by decide, hfull, by decide, by rw [hnumber]; decide, by rw [hopen]; decide⟩
  have hretire : Retirable s (Sample.card 9) (Sample.nft 9 0) z := by
    refine fun _ => ⟨by rw [hcycle]; decide, fun hex => ?_⟩
    obtain ⟨x, hx, hg, -⟩ := hex
    rw [hcus] at hx
    rw [hguard x hx] at hg
    cases hg
  obtain ⟨s', hnext⟩ := (hiff _ _ _ _ _ _ hat hbring).mpr ⟨hcan, by rw [hcus]; exact hX, hretire⟩
  rw [hnumber] at hnext
  exact ⟨hist, s, z, s', hrun, by simpa [Sample.minted] using congrArg List.length hcalls, hz, hnext⟩

end Passdari
