/-
The rent that is there. From an empty start every account of the program holds
the rent for its size, and so does the mint of every voucher and of every NFT,
whatever name, symbol and link are written in it: an account is funded when it
is opened, and its lamports leave it only when it is closed. What is paid for a
mint counts eight bytes more than are written there, so a larger account must
not need less rent.
-/
import Passdari.Books.Balances
import Passdari.Lib.HeldTokens

namespace Passdari

open Wire Token2022

variable {P : Platform} {tx : Tx} {s s' start : State} {hist : History} {c : Call} {cs : List Change}
  {calls : List TokenCall} {ps : List Payment} {action : Action} {a M : Address} {p : Purse} {q : Payment}
  {m : Mint Address}

/-! ## What is paid stays -/

theorem Purse.le_settle (hno : ∀ q ∈ ps, ∀ p, ¬q.Takes p a) : p.lamports a ≤ (p.settle ps).lamports a := by
  by_contra hlt
  obtain ⟨before, q, after, rfl, htakes⟩ := Purse.exists_taking (Nat.lt_of_not_le hlt)
  exact hno q (List.mem_append_right _ List.mem_cons_self) _ htakes

/-- An account brought up to its rent has it, when nothing is taken from it. -/
theorem Purse.rent_paid {kind : MoveKind} {payer : Address} {rent : Nat}
    (h : Payment.topUp kind payer a rent ∈ ps) (hno : ∀ q ∈ ps, ∀ p, ¬q.Takes p a) :
    rent ≤ (p.settle ps).lamports a := by
  obtain ⟨before, after, rfl⟩ := List.append_of_mem h
  have hafter : ∀ {p : Purse}, p.lamports a ≤ (p.settle after).lamports a :=
    Purse.le_settle fun q hq => hno q (List.mem_append_right _ (List.mem_cons_of_mem _ hq))
  have htop := hno _ h (p.settle before)
  rw [settle_append]
  refine Nat.le_trans ?_ (hafter (p := (p.settle before).pay (.topUp kind payer a rent)))
  generalize p.settle before = p at htop ⊢
  simp only [Purse.pay]
  split
  · omega
  · next h0 =>
    have hne : a ≠ payer := fun he => htop ⟨he.symm, h0⟩
    simp only [Purse.move, Function.update_self, Function.update_apply, if_neg hne]
    omega

/-- Nothing is taken from a derived address where no account is closed. -/
theorem Step.untaken {i : Instruction} (ho : s.OneOwner) (h : Step P s c s' cs calls ps)
    (hi : c.action = .program i) (ha : a.canSign = false) (hthere : s'.Held a) :
    ∀ q ∈ ps, ∀ p, ¬q.Takes p a := by
  have heff := h.effect
  rw [hi] at heff
  obtain ⟨tops, closing, w, rfl, -⟩ := heff.billed ho
  intro q hq p htakes
  rcases List.mem_append.mp hq with htop | hclose
  · obtain ⟨t, ht, rfl⟩ := List.mem_map.mp htop
    obtain ⟨rfl, -⟩ := htakes
    have hs : t.payer ∈ c.tx.signers := (h.effect.rent ht).elim Opens.signed And.right
    cases ha.symm.trans (h.signers _ hs)
  · obtain ⟨b, -, rfl⟩ := List.mem_map.mp hclose
    obtain rfl : b = a := htakes
    exact (h.refunded ho hi hq).2.1 hthere

/-- What is on an account that is not closed stays on it. -/
theorem Step.kept_on (ho : s.OneOwner) (h : Step P s c s' cs calls ps) (ha : a.canSign = false)
    (hthere : s'.Held a) : s.lamports a ≤ s'.lamports a := by
  by_contra hlt
  rcases h.lamports_left ho (Nat.lt_of_not_le hlt) with ⟨-, hs⟩ | ⟨-, hgone⟩
  · cases ha.symm.trans (h.signers _ hs)
  · exact hgone hthere

/-! ## What is paid -/

/-- A record that is new has its rent paid. -/
theorem Effect.room_paid (h : Effect P tx s action cs calls ps) : ∀ y ∈ cs, y.before = none →
    ∀ r, y.after = some r → ∃ payer, Payment.topUp .deposit payer y.addr (P.minimumBalance r.space) ∈ ps := by
  cases h with
  | initializeCounter | registerBusiness | migrateBusiness =>
    rw [List.forall_mem_singleton]
    intro _ r hr
    cases hr
    exact ⟨_, List.mem_cons_self⟩
  | issueReceipt =>
    simp only [List.forall_mem_cons]
    refine ⟨by simp, fun _ r hr => ?_, by simp⟩
    cases hr
    exact ⟨_, List.mem_cons_self⟩
  | @claimReceipt _ _ _ _ _ _ _ c =>
    simp only [List.forall_mem_cons]
    refine ⟨by simp, by simp, fun hnone r hr => ?_, by simp⟩
    cases hr
    cases c with
    | some => cases hnone
    | none => exact ⟨_, List.mem_append_left _ List.mem_cons_self⟩
  | mintVoucher =>
    simp only [List.forall_mem_cons]
    refine ⟨by simp, by simp, fun _ r hr => ?_, by simp⟩
    cases hr
    exact ⟨_, List.mem_append_left _ List.mem_cons_self⟩
  | @migrateCard _ _ _ _ _ _ _ n =>
    rw [List.forall_mem_cons]
    constructor
    · intro _ r hr
      cases hr
      exact ⟨_, List.mem_cons_self⟩
    · cases n <;> simp
  | _ => simp

/-- A record that is not new takes the room it took. -/
theorem Effect.same_room (hs : s.Current) (h : Effect P tx s action cs calls ps) : ∀ y ∈ cs, ∀ q r,
    y.before = some q → y.after = some r → r.space = q.space := by
  obtain ⟨hnoCard, hnoBusiness⟩ := h.not_migration hs
  cases h with
  | @claimReceipt _ _ _ _ _ _ _ c =>
    simp only [List.forall_mem_cons]
    refine ⟨fun q r hq hr => ?_, by simp, fun q r hq hr => ?_, by simp⟩
    · cases hq
      cases hr
      rfl
    · cases c with
      | none => cases hq
      | some =>
        cases hq
        cases hr
        rfl
  | migrateCard => exact absurd rfl (hnoCard _)
  | migrateBusiness => exact absurd rfl (hnoBusiness _)
  | _ => simp [Record.space]

/-! ## The whole -/

/-- What the description takes in the mint: a header of four bytes, two of them its type, then its fields. -/
def metadataRoom (md : Metadata Address) : Nat :=
  4 + 32 + 32 + (4 + md.name.utf8ByteSize) + (4 + md.symbol.utf8ByteSize) + (4 + md.uri.utf8ByteSize) + 4

theorem metadataRoom_le (md : Metadata Address) : metadataRoom md ≤ metadataLen md.name md.symbol md.uri := by
  unfold metadataRoom metadataLen
  omega

/-- What a mint of this size is, its description included, and the rent for it is there. -/
def MintPaid (P : Platform) (s : State) (M : Address) (len : Nat) (m : Mint Address) : Prop :=
  ∃ md, m.Finished md ∧ P.minimumBalance (len + metadataRoom md) ≤ s.lamports M

/-- What the program pays for a mint is enough. -/
theorem MintPaid.of_paid {len : Nat} {md : Metadata Address} (hmono : Monotone P.minimumBalance)
    (hf : m.Finished md)
    (hpaid : P.minimumBalance (len + metadataLen md.name md.symbol md.uri) ≤ s.lamports M) :
    MintPaid P s M len m :=
  ⟨md, hf, (hmono (Nat.add_le_add_left (metadataRoom_le md) len)).trans hpaid⟩

/-- Every account of the program, and the mint of every voucher and of every NFT, has its rent. -/
structure State.RentExempt (P : Platform) (s : State) : Prop where
  accounts : ∀ a data, s.program.lookup a = some data → P.minimumBalance data.length ≤ s.lamports a
  vouchers : ∀ M m, M.isVoucherMint = true → s.tokens.mints.lookup M = some m →
    MintPaid P s M voucherMintLen m
  nfts : ∀ M m, M.isCardMint = true → s.tokens.mints.lookup M = some m → MintPaid P s M cardMintLen m

theorem Step.accounts_paid (hw : s.WellPlaced) (hcur : s.Current) (ho : s.OneOwner)
    (hi : s.RentExempt P) (h : Step P s c s' cs calls ps) {data : List Byte}
    (hd : s'.program.lookup a = some data) : P.minimumBalance data.length ≤ s'.lamports a := by
  have hrecord := (h.wellPlaced hw).isRecord hd
  have ha : a.canSign = false := by
    cases a with
    | key => cases hrecord
    | _ => rfl
  have hthere : s'.Held a := .inl (by rw [hd]; rfl)
  -- what was there keeps its size and its lamports
  have hkept : ∀ {old}, s.program.lookup a = some old → data.length = old.length →
      P.minimumBalance data.length ≤ s'.lamports a := by
    intro old hold hlen
    rw [hlen]
    exact Nat.le_trans (hi.accounts a old hold) (h.kept_on ho ha hthere)
  rcases h.changed.lookup a with ⟨-, hsame⟩ | ⟨y, hy, rfl, ⟨-, hgone⟩ | ⟨r, rest, hr, hdata, -⟩⟩
  · exact hkept (hsame.symm.trans hd) rfl
  · cases hgone.symm.trans hd
  rw [hd, Option.some.injEq] at hdata
  have hroom : data.length = r.space := by
    obtain ⟨r', hr', hlen⟩ := h.current hcur _ _ hd
    rw [hdata, Record.parse_bytes_append, Option.some.injEq] at hr'
    rw [hlen, hr']
  cases hbefore : y.before with
  | some q =>
    obtain ⟨old, hold, hparse⟩ := Option.bind_eq_some_iff.mp ((h.changed.before y hy).trans hbefore)
    obtain ⟨q', hq', hlen⟩ := hcur _ _ hold
    rw [hparse, Option.some.injEq] at hq'
    subst hq'
    exact hkept hold (hroom.trans ((h.effect.same_room hcur y hy _ _ hbefore hr).trans hlen.symm))
  | none =>
    obtain ⟨payer, hpaid⟩ := h.effect.room_paid y hy hbefore r hr
    have hprogram : ∃ i, c.action = .program i := by
      obtain ⟨tx, action⟩ := c
      cases action with
      | program i => exact ⟨i, rfl⟩
      | wallet =>
        obtain ⟨he, -⟩ := h
        cases he <;> cases hy
    obtain ⟨i, hact⟩ := hprogram
    rw [hroom, show s'.lamports = _ from congrArg Purse.lamports h.purse]
    exact Purse.rent_paid hpaid (h.untaken ho hact ha hthere)

/-- A mint that was there before is as well paid as it was. -/
theorem Step.mint_still_paid {len : Nat} {m' : Mint Address} (ho : s.OneOwner) (h : Step P s c s' cs calls ps)
    (hM : M.canSign = false) (hm : s.tokens.mints.lookup M = some m) (hi : MintPaid P s M len m)
    (hm' : s'.tokens.mints.lookup M = some m') : MintPaid P s' M len m' := by
  obtain ⟨md, hf, hle⟩ := hi
  have hused : s.InUse M := State.inUse_iff.mpr (.inr (.inl (Tokens.inUse_of_mint hm)))
  refine ⟨md, run_finished h.tokens (fun k hk hop => h.effect.opens_free k hk hop hused) hm hf hm', ?_⟩
  exact Nat.le_trans hle (h.kept_on ho hM (.inr (Tokens.inUse_of_mint hm')))

theorem Step.rentExempt (hmono : Monotone P.minimumBalance) (hw : s.WellPlaced) (hcur : s.Current)
    (ho : s.OneOwner) (hi : s.RentExempt P) (h : Step P s c s' cs calls ps) : s'.RentExempt P where
  accounts _ _ hd := h.accounts_paid hw hcur ho hi hd
  vouchers := by
    intro M m' hM hm'
    have hderived : M.canSign = false := by
      cases M with
      | voucherMint => rfl
      | _ => cases hM
    cases hm : s.tokens.mints.lookup M with
    | some m => exact h.mint_still_paid ho hderived hm (hi.vouchers M m hM hm) hm'
    | none =>
      obtain ⟨k, hk, m₀, hop⟩ := run_opens_mint h.tokens hm hm'
      rcases h.effect.opens_mint k hk m₀ hop with ⟨-, accs, id, uri, hact, hmint⟩ | ⟨hcard, -⟩ | hs
      · obtain ⟨tx, action⟩ := c
        subst hact hmint
        obtain ⟨b, hb, hminted, -⟩ := h.minted
        rw [hm', Option.some.injEq] at hminted
        subst hminted
        refine MintPaid.of_paid hmono ⟨rfl, rfl⟩ ?_
        have huntaken := h.untaken ho rfl hderived (.inr (Tokens.inUse_of_mint hm'))
        rw [show s'.lamports = _ from congrArg Purse.lamports h.purse]
        obtain ⟨he, -⟩ := h
        cases he with
        | mintVoucher hb' =>
          obtain rfl := Option.some.inj (hb.symm.trans (State.business?_eq_some.mpr hb'))
          exact Purse.rent_paid (List.mem_append_left _ (List.mem_cons_of_mem _ (List.mem_cons_of_mem _
            (List.mem_cons_of_mem _ List.mem_cons_self)))) huntaken
      · cases M with
        | voucherMint => cases hcard
        | _ => cases hM
      · cases hderived.symm.trans (h.signers _ hs)
  nfts := by
    intro M m' hM hm'
    have hderived : M.canSign = false := by
      cases M with
      | cardMint => rfl
      | _ => cases hM
    cases hm : s.tokens.mints.lookup M with
    | some m => exact h.mint_still_paid ho hderived hm (hi.nfts M m hM hm) hm'
    | none =>
      obtain ⟨accs, uri, hact, rfl⟩ := h.cardNft_minted hM hm hm'
      obtain ⟨tx, action⟩ := c
      subst hact
      have huntaken := h.untaken ho rfl hderived (.inr (Tokens.inUse_of_mint hm'))
      have hpurse : s'.lamports = _ := congrArg Purse.lamports h.purse
      obtain ⟨he, -, hr, -⟩ := h
      cases he with
      | mintCardNft =>
        rw [(run_mintCardNftCalls hr).1, Option.some.injEq] at hm'
        subst hm'
        exact MintPaid.of_paid hmono ⟨rfl, rfl⟩ (hpurse ▸ Purse.rent_paid List.mem_cons_self huntaken)

theorem State.Empty.rentExempt (hs : s.Empty) : s.RentExempt P where
  accounts a data hd := by
    rw [hs.program] at hd
    cases hd
  vouchers M m hM hm := by
    obtain ⟨_, rfl⟩ := hs.mints hm
    cases hM
  nfts M m hM hm := by
    obtain ⟨_, rfl⟩ := hs.mints hm
    cases hM

/-- **Everything is rent exempt.** In every state a run from an empty start reaches, every account of the
program holds the rent for its size, and the mint of every voucher and NFT the rent for all that is written in
it. -/
theorem rent_exempt (hmono : Monotone P.minimumBalance) (h : Run P start hist s) (hs : start.Empty)
    (ho : start.OneOwner) : s.RentExempt P :=
  Run.induct_empty (I := fun _ s => s.RentExempt P) h hs hs.rentExempt fun hr hw hcur hi hst =>
    hst.rentExempt hmono hw hcur (Run.oneOwner hr hs.wellPlaced ho) hi

/-- The mint of an NFT that was just minted, with its rent. -/
theorem rent_exempt_nft : ∃ hist s m md, Run Sample.platform Sample.start hist s ∧
    s.tokens.mints.lookup (.cardMint (Sample.card 9) 0 255) = some m ∧ m.metadata = some md ∧
    md.name = "Cafe" ∧ cardMintLen + metadataRoom md ≤ s.lamports (.cardMint (Sample.card 9) 0 255) := by
  obtain ⟨hist, s, hrun, -, hp⟩ := Leads.run (P := Sample.platform) (s := Sample.start)
    (l := [Sample.register 1000 1 0, Sample.issue 1010 7, Sample.claim 1020 9 7,
      Sample.mintNft 1025 9 (Sample.key 2)])
    (p := fun s => (s.tokens.mints.lookup (.cardMint (Sample.card 9) 0 255)).any fun m : Mint Address =>
      m.metadata.any fun md : Metadata Address => md.name = "Cafe") (by decide +kernel)
  simp only [Option.any_eq_true, decide_eq_true_eq] at hp
  obtain ⟨m, hm, md, hmd, hname⟩ := hp
  have hexempt := rent_exempt monotone_id hrun Sample.start_empty Sample.start_oneOwner
  obtain ⟨md', hf, hle⟩ := hexempt.nfts _ m rfl hm
  obtain rfl := Option.some.inj (hmd.symm.trans hf.metadata)
  exact ⟨hist, s, m, md, hrun, hm, hmd, hname, hle⟩

end Passdari
