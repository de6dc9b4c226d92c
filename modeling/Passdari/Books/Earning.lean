/-
From nothing to a reward. A shop that is there can bring any customer to a
redeemed voucher: it issues receipts and the customer claims them, a day
apart so that no limit is in the way, until the card is full; then the card
is cashed in, and the voucher presented and redeemed. So no state the
program can come to is one in which a shop is of no use any more.
-/
import Passdari.Books.Claiming
import Passdari.Books.Delivery

namespace Passdari

open Wire Token2022

variable {P : Platform} {tx : Tx} {s s' start : State} {hist later : History} {c : Call} {cs : List Change}
  {calls : List TokenCall} {ps : List Payment} {a A R customer relayer : Address}
  {secret secretHash : Bytes32} {b b' b'' : Business} {r : Receipt} {x y z : LoyaltyCard} {now : Int64}
  {t : Int}

/-! ## What stays over the rounds -/

/-- The clock of a history goes forward, and has not gone past `t`. -/
structure Clocked (hist : History) (t : Int) : Prop where
  forward : ClockForward hist
  start : 0 ≤ t
  past : ∀ st ∈ hist, st.label.tx.now.toInt ≤ t

theorem Clocked.mono (h : Clocked hist t) {u : Int} (hle : t ≤ u) : Clocked hist u :=
  ⟨h.forward, Int.le_trans h.start hle, fun st hst => Int.le_trans (h.past st hst) hle⟩

theorem Clocked.step (s s' : State) (c : Call) (h : Clocked hist t) (hle : t ≤ c.tx.now.toInt) :
    Clocked (⟨s, c, s'⟩ :: hist) c.tx.now.toInt := by
  have h' := h.mono hle
  refine ⟨⟨?_, List.pairwise_cons.mpr ⟨h'.past, h.forward.2⟩⟩, h'.start, ?_⟩
  · intro st hst
    rcases List.mem_cons.mp hst with rfl | hst
    · exact h'.start
    · exact h.forward.1 st hst
  · intro st hst
    rcases List.mem_cons.mp hst with rfl | hst
    · exact Int.le_refl _
    · exact h'.past st hst

theorem Clocked.bounded (hc : Clocked hist t) (h : Run P start hist s) (hs : start.Empty) :
    s.Bounded (instructions hist) t := h.bounded hs hc.forward hc.start hc.past

/-- What of a shop the issuing and claiming of receipts leaves alone. -/
structure Steady (b b' : Business) : Prop where
  authority : b'.authority = b.authority
  name : b'.name = b.name
  rewardLabel : b'.rewardLabel = b.rewardLabel
  stampsRequired : b'.stampsRequired = b.stampsRequired
  totalVouchersIssued : b'.totalVouchersIssued = b.totalVouchersIssued
  totalRedemptions : b'.totalRedemptions = b.totalRedemptions

theorem Steady.refl (b : Business) : Steady b b := ⟨rfl, rfl, rfl, rfl, rfl, rfl⟩

theorem Steady.trans (h : Steady b b') (h' : Steady b' b'') : Steady b b'' :=
  ⟨h'.authority.trans h.authority, h'.name.trans h.name, h'.rewardLabel.trans h.rewardLabel,
    h'.stampsRequired.trans h.stampsRequired, h'.totalVouchersIssued.trans h.totalVouchersIssued,
    h'.totalRedemptions.trans h.totalRedemptions⟩

/-- A shop's authority is somebody who can sign. -/
theorem Run.authority_signs (h : Run P start hist s) (hs : start.Empty) (hb : s.business? a = some b) :
    b.authority.canSign = true := by
  refine h.induct_empty (I := fun _ s => ∀ a b, s.business? a = some b → b.authority.canSign = true) hs ?_ ?_
    a b hb
  · intro a b hb
    rw [State.business?, State.record?, hs.program] at hb
    cases hb
  · intro hist s c s' cs calls ps _ hw hcur hi hst a b' hb'
    have hm := hst.effect.not_migration hcur
    obtain ⟨tx, action⟩ := c
    rcases hst.shop hw a with hsame | hch
    · exact hi a b' (hsame.symm.trans hb')
    rw [hb'] at hch
    generalize hb : s.business? a = before at hch
    cases hch with
    | registered _ hauth _ hok =>
      obtain ⟨-, -, -, rfl⟩ := registerBusinessHandler_eq_ok.mp hok
      exact hst.signers _ hauth
    | edited _ _ _ hok =>
      obtain ⟨-, -, -, rfl⟩ := updateBusinessConfigHandler_eq_ok.mp hok
      exact (hi a _ hb :)
    | receiptIssued | stampClaimed | cardClosed | voucherMinted | voucherRedeemed | voucherExpired =>
      exact (hi a _ hb :)
    | migrated => exact absurd rfl (hm.2 _)

/-! ## One receipt -/

/-- A receipt of the shop at `a` has just been issued at `R`, paid for by `relayer`. -/
structure IssuedAt (P : Platform) (s s' : State) (a R relayer : Address) (now : Int64) (b b' : Business)
    (r : Receipt) :
    Prop where
  shop : s'.business? a = some b'
  steady : Steady b b'
  receipt : s'.receipt? R = some r
  business : r.business = a
  rentPayer : r.rentPayer = relayer
  inTime : now ≤ r.expiresAt
  tokens : s'.tokens = s.tokens
  cards : ∀ A, s'.card? A = s.card? A
  spent : s.lamports relayer ≤ s'.lamports relayer + P.minimumBalance Receipt.space
  kept : s.lamports relayer ≤ s'.lamports relayer + s'.lamports R
  elsewhere : ∀ e, e ≠ relayer → e ≠ R → s'.lamports e = s.lamports e
  system : ¬s'.InUse relayer

theorem Run.issues (h : Run P start hist s) (hs : start.Empty) (hc : Clocked hist t)
    (hb : s.business? a = some b)
    (hday : t + 86400 ≤ now.toInt) (hmax : now.toInt ≤ 2 ^ 62) {bump : UInt8}
    (hR : findProgramAddress P (.receipt a secretHash) = some (R, bump)) (hfree : ¬s.InUse R)
    (hsys : ¬s.InUse relayer) (hkey : relayer.canSign = true)
    (hfunds : P.minimumBalance Receipt.space ≤ s.lamports relayer) :
    ∃ s' b' r, Next P s
        ⟨⟨now, [b.authority, relayer]⟩,
          .program (.issueReceipt ⟨a, R, b.authority, relayer⟩ secretHash 1)⟩ s' ∧
      IssuedAt P s s' a R relayer now b b' r := by
  have hw := h.wellPlaced hs.wellPlaced
  have hbrec := State.business?_eq_some.mp hb
  have hauth := h.authority_signs hs hb
  have hwin : b.Within (instructions hist) t := (hc.bounded h hs).within _ _ hbrec
  have hstart := hwin.receiptsWindowStart
  have ht := hc.start
  have hwindow : b.window.start = b.receiptsWindowStart.toInt := rfl
  have hex : ∃ b' r, issueReceiptHandler now ⟨a, R, b.authority, relayer⟩ bump 1 b = .ok (b', r) :=
    issueReceiptHandler_ok ⟨a, R, b.authority, relayer⟩ bump
      (by decide : (1 : UInt8) ≠ 0) ⟨by omega, hmax⟩ ⟨hstart.1, by have := hstart.2; omega⟩
      (by rw [Window.due_of_over (by have := hstart.2; omega)];
          exact (by decide : 0 < maxReceiptsPerHour.toNat))
  obtain ⟨b', r, hok⟩ := hex
  have hRr : R ≠ relayer := fun he => by
    rw [← he, findProgramAddress_eq hR] at hkey
    cases hkey
  let tx : Tx := ⟨now, [b.authority, relayer]⟩
  have hex : ∃ s', issueReceipt P tx ⟨a, R, b.authority, relayer⟩ secretHash 1 s = .ok s' :=
    issueReceipt_ok hbrec (h.business_seeds hs hb) rfl List.mem_cons_self
      (List.mem_cons_of_mem _ List.mem_cons_self) hR hfree hsys hRr hfunds hok
  obtain ⟨s', hs'⟩ := hex
  have hsig : ∀ k ∈ tx.signers, k.canSign = true := by
    simp only [tx, List.forall_mem_cons, hauth, hkey, List.not_mem_nil, false_imp_iff, implies_true, and_self]
  have hnext : Next P s ⟨tx, .program (.issueReceipt ⟨a, R, b.authority, relayer⟩ secretHash 1)⟩ s' :=
    ⟨hsig, hs'⟩
  obtain ⟨cs, calls, ps, hst⟩ := hnext.step hw
  have hcards : ∀ A, s'.card? A = s.card? A := by
    intro A
    rcases hst.card hw A with hsame | hch
    · exact hsame
    · cases hch
  have hsystem := hst.key_free hw rfl hkey hsys (by simp)
  have hch := hst.changed
  have htok := hst.tokens
  have hpurse := hst.purse
  have heffect := hst.effect
  clear hok
  cases heffect with
  | @issueReceipt _ _ _ b₀ b' r bump' hb₀ _ _ _ _ _ _ hok =>
    obtain rfl : b = b₀ := Option.some.inj (hb.symm.trans (State.business?_eq_some.mpr hb₀))
    obtain ⟨-, _, _, e, -, -, -, he, rfl, rfl⟩ := issueReceiptHandler_eq_ok hok
    have hl : ∀ e, s'.lamports e = (s.purse.settle
        [.topUp .deposit relayer R (P.minimumBalance Receipt.space)]).lamports e := fun e =>
      congrArg (fun p => p.lamports e) hpurse
    have hsettle : ∀ e, s'.lamports e = if P.minimumBalance Receipt.space - s.lamports R = 0 then s.lamports e
      else
        (s.purse.move .deposit relayer R (P.minimumBalance Receipt.space - s.lamports R)).lamports e := by
      intro e
      rw [hl e]
      simp only [State.purse, Purse.settle, List.foldl_cons, List.foldl_nil, Purse.pay]
      split <;> rfl
    refine ⟨s', _, _, hnext, State.business?_eq_some.mpr (hch.record? List.mem_cons_self),
      ⟨rfl, rfl, rfl, rfl, rfl, rfl⟩,
      State.receipt?_eq_some.mpr (hch.record? (List.mem_cons_of_mem _ List.mem_cons_self)), rfl, rfl, ?_,
      (Except.ok.inj htok).symm, hcards, ?_, ?_, ?_, hsystem⟩
    · rw [Int64.le_iff_toInt_le]
      exact he ▸ Int.le_add_of_nonneg_right (Int.natCast_nonneg _)
    all_goals
      simp only [hsettle, Purse.move, State.purse]
    · split
      · omega
      · rw [Function.update_of_ne hRr.symm, Function.update_self]
        omega
    · split
      · omega
      · rw [Function.update_of_ne hRr.symm, Function.update_self, Function.update_self,
          Function.update_of_ne hRr]
        omega
    · intro e her heR
      split
      · rfl
      · rw [Function.update_of_ne heR, Function.update_of_ne her]

/-! ## One stamp -/

/-- A new card of the shop `b` at `a`, before its first stamp. -/
def newCard (a customer relayer : Address) (bump : UInt8) (b : Business) : LoyaltyCard :=
  { LoyaltyCard.account.zeroed with
    business := a
    customer := customer
    bump := bump
    stampsRequiredSnapshot := b.stampsRequired
    rentPayer := relayer
    rewardsEarned := 0 }

/-- What of a card a stamp leaves alone. -/
structure SameCard (z x : LoyaltyCard) : Prop where
  business : x.business = z.business
  customer : x.customer = z.customer
  nftCycle : x.nftCycle = z.nftCycle
  stampsRequiredSnapshot : x.stampsRequiredSnapshot = z.stampsRequiredSnapshot
  rentPayer : x.rentPayer = z.rentPayer

theorem SameCard.trans (h : SameCard z x) (h' : SameCard x y) : SameCard z y :=
  ⟨h'.business.trans h.business, h'.customer.trans h.customer, h'.nftCycle.trans h.nftCycle,
    h'.stampsRequiredSnapshot.trans h.stampsRequiredSnapshot, h'.rentPayer.trans h.rentPayer⟩

/-- After a round the card at `A`, which was `z` or is new, has one stamp more; nothing is left of the
receipt. -/
structure Stamped (P : Platform) (s s' : State) (a A R relayer : Address) (b b' : Business)
    (z x : LoyaltyCard) : Prop
    where
  shop : s'.business? a = some b'
  steady : Steady b b'
  card : s'.card? A = some x
  same : SameCard z x
  stamps : x.stamps.toNat = z.stamps.toNat + 1
  tokens : s'.tokens = s.tokens
  gone : ¬s'.InUse R
  system : ¬s'.InUse relayer
  funds : s.lamports relayer ≤ s'.lamports relayer +
    if s.card? A = none then P.minimumBalance LoyaltyCard.space else 0

/-- A day after the last step a card may have a stamp, as far as times and counts go. -/
theorem State.Bounded.stampable {n m : Nat} {u : Int} (hs : s.Bounded n t) (hday : t + 86400 ≤ now.toInt)
    (hb : b.Within m u) (hn : n + 1 < 2 ^ 32) (hm : m + 1 < 2 ^ 32)
    (hroom : ∀ z, s.card? A = some z → z.stamps.toNat + 1 < 2 ^ 8) : Stampable now b (s.card? A) := by
  have hcards := hb.totalCards
  have hopen := hb.openCards
  have hissued := hb.totalStampsIssued
  refine ⟨by omega, fun x hx => ?_, fun _ => ⟨by omega, by omega⟩⟩
  have hcard : x.Within n t := hs.within _ _ (State.card?_eq_some.mp hx)
  have hlife := hs.lifetime_le hx
  have hlast := hcard.lastStampTs.2
  have hwindow := hcard.claimsWindowStart.2
  have hlater : x.Within n now.toInt := Record.Within.mono (r := .card x) hcard (Nat.le_refl _) (by omega)
  refine ⟨⟨.inr ?_, .inl ?_⟩, hlater.stampFits (hroom x hx) (by omega)⟩
  · have hcool : stampCooldownSeconds.toInt = 60 := rfl
    omega
  · omega

/-- A claim gives the lamports of the receipt back, and takes at most the rent `n` of a new card. -/
theorem Purse.claimed (p : Purse) (hRr : R ≠ relayer) (hAr : A ≠ relayer) (hAR : A ≠ R) (n : Nat)
    (o : Option LoyaltyCard) :
    p.lamports relayer + p.lamports R ≤
      (p.settle ((if o = none then [.topUp .deposit relayer A n] else []) ++
          [.empty .refund R relayer])).lamports relayer +
        if o = none then n else 0 := by
  split
  · simp only [List.singleton_append, Purse.settle, List.foldl_cons, List.foldl_nil, Purse.pay]
    split
    · simp only [Purse.move, Function.update_self, Function.update_of_ne hRr.symm]
      omega
    · simp only [Purse.move, Function.update_self, Function.update_of_ne hRr.symm,
        Function.update_of_ne hAr.symm, Function.update_of_ne hAR.symm, Function.update_of_ne hRr]
      omega
  · simp only [List.nil_append, Purse.settle, List.foldl_cons, List.foldl_nil, Purse.pay, Purse.move,
      Function.update_self, Function.update_of_ne hRr.symm]
    omega

theorem Run.stamps (h : Run P start hist s) (hs : start.Empty) (hc : Clocked hist t)
    (hb : s.business? a = some b) (now : Int64)
    (hday : t + 86400 ≤ now.toInt) (hmax : now.toInt ≤ 2 ^ 62) (hcount : instructions hist + 2 < 2 ^ 32)
    {bump receiptBump : UInt8} (hA : findProgramAddress P (.card a customer) = some (A, bump))
    (hR : findProgramAddress P (.receipt a (P.keccak secret)) = some (R, receiptBump)) (hfree : ¬s.InUse R)
    (hsys : ¬s.InUse relayer) (hkey : relayer.canSign = true) (hcustomer : customer.canSign = true)
    (hroom : ∀ z, s.card? A = some z → z.stamps.toNat + 1 < 2 ^ 8)
    (hfunds : P.minimumBalance Receipt.space +
        (if s.card? A = none then P.minimumBalance LoyaltyCard.space else 0) ≤
      s.lamports relayer) :
    ∃ s₁ s₂ b' x, ∃ r : Receipt, Next P s ⟨⟨now, [b.authority, relayer]⟩,
        .program (.issueReceipt ⟨a, R, b.authority, relayer⟩ (P.keccak secret) 1)⟩ s₁ ∧
      Next P s₁ ⟨⟨now, [customer, relayer]⟩,
        .program (.claimReceipt (r.claiming R A customer relayer) secret)⟩ s₂ ∧
      Stamped P s s₂ a A R relayer b b' ((s.card? A).getD (newCard a customer relayer bump b)) x := by
  obtain ⟨s₁, b₁, r, hissue, hi⟩ := h.issues hs hc hb hday hmax hR hfree hsys hkey
    (Nat.le_trans (Nat.le_add_right _ _) hfunds)
  have hw := h.wellPlaced hs.wellPlaced
  have hrun := h.step hissue
  have hw₁ := Run.wellPlaced hrun hs.wellPlaced
  have hsound := Run.sound_of_empty hrun hs
  have hbounded : s.Bounded (instructions hist) t := hc.bounded h hs
  have hAr : A ≠ relayer := fun he => by
    rw [← he, findProgramAddress_eq hA] at hkey
    cases hkey
  have hAR : A ≠ R := fun he => by
    have hadr := findProgramAddress_eq hA
    rw [he, findProgramAddress_eq hR] at hadr
    cases hadr
  have hRr : R ≠ relayer := fun he => by
    rw [← he, findProgramAddress_eq hR] at hkey
    cases hkey
  have hn : instructions (⟨s, ⟨⟨now, [b.authority, relayer]⟩,
      .program (.issueReceipt ⟨a, R, b.authority, relayer⟩ (P.keccak secret) 1)⟩, s₁⟩ :: hist) = instructions
      hist + 1 := by
    rw [instructions_cons]
    rfl
  have hclock := hc.step s s₁ ⟨⟨now, [b.authority, relayer]⟩,
    .program (.issueReceipt ⟨a, R, b.authority, relayer⟩ (P.keccak secret) 1)⟩ (show t ≤ now.toInt by omega)
  have hbounded₁ := hclock.bounded hrun hs
  rw [hn] at hbounded₁
  have hstampable : Stampable now b₁ (s₁.card? A) := by
    rw [hi.cards]
    exact hbounded.stampable hday (hbounded₁.within _ _ (State.business?_eq_some.mp hi.shop)) (by omega)
      (by omega) hroom
  have hsig : ∀ k ∈ [customer, relayer], k.canSign = true := by
    simp only [List.forall_mem_cons, hcustomer, hkey, List.not_mem_nil, false_imp_iff, implies_true, and_self]
  have hcan : Claimable P s₁ now r A relayer b₁ := by
    refine ⟨by rw [hi.business]; exact hi.shop, hi.inTime, by rw [hi.rentPayer]; exact hi.system, hstampable,
      fun hnone => ?_⟩
    rw [hi.cards] at hnone
    rw [if_pos hnone] at hfunds
    have := hi.spent
    omega
  have hex : ∃ s', Next P s₁ ⟨⟨now, [customer, relayer]⟩,
      .program (.claimReceipt (r.claiming R A customer relayer) secret)⟩ s' :=
    (hsound.claims_iff hi.receipt (by rw [hi.business]; exact hR) (by rw [hi.business]; exact hA) hsig
      List.mem_cons_self (List.mem_cons_of_mem _ List.mem_cons_self) hi.system).mpr ⟨b₁, hcan⟩
  obtain ⟨s₂, hclaim⟩ := hex
  have hsound₂ := Run.sound_of_empty (hrun.step hclaim) hs
  obtain ⟨cs, calls, ps, hst⟩ := hclaim.step hw₁
  have hsystem := hst.key_free hw₁ rfl hkey hi.system (by simp)
  have hch := hst.changed
  have htok := hst.tokens
  have hpurse := hst.purse
  have heffect := hst.effect
  obtain rfl := hi.business
  cases heffect with
  | @claimReceipt _ _ b₀ b' r' bump' c' o hb₀ _ _ _ _ hA' hcard _ hown _ hok =>
    obtain rfl : b₁ = b₀ := Option.some.inj (hi.shop.symm.trans (State.business?_eq_some.mpr hb₀))
    obtain ⟨-, rfl⟩ := Prod.mk.inj (Option.some.inj (hA.symm.trans hA'))
    have ho : s.card? A = o := by
      rw [← hi.cards, State.card?, hcard]
      cases o <;> rfl
    obtain ⟨-, -, hstamp, tc, oc, total, -, -, rfl⟩ :=
      claimReceiptHandler_spec (hw₁.business_ne_default hb₀) hown hok
    have hbase : claimedCard (r.claiming R A customer relayer) bump b₁ o =
        (s.card? A).getD (newCard r.business customer relayer bump b) := by
      rw [ho, claimedCard, newCard, hi.steady.stampsRequired]
    rw [hbase] at hstamp
    obtain ⟨-, _, _, _, _, -, -, -, hst', -, rfl⟩ := stampCard_eq_ok hstamp
    have htokens : s₂.tokens = s.tokens := (Except.ok.inj htok).symm.trans hi.tokens
    refine ⟨s₁, s₂, _, _, r, hissue, hclaim, State.business?_eq_some.mpr (hch.record? List.mem_cons_self),
      hi.steady.trans ⟨rfl, rfl, rfl, rfl, rfl, rfl⟩,
      State.card?_eq_some.mpr
      (hch.record? (List.mem_cons_of_mem _ (List.mem_cons_of_mem _ List.mem_cons_self))),
      ⟨rfl, rfl, rfl, rfl, rfl⟩, hst', htokens, ?_, hsystem, ?_⟩
    · obtain ⟨hmint, haccount⟩ := State.tokens_of_not_inUse hfree
      refine hsound₂.free (fun _ => by rw [findProgramAddress_eq hR]; simp) ?_ (by rw [htokens, hmint])
        (by rw [htokens, haccount])
      exact hch.closed _ (List.mem_cons_of_mem _ List.mem_cons_self) rfl
    · have hl : s₂.lamports relayer = (s₁.purse.settle ((if o = none then [.topUp .deposit relayer A
            (P.minimumBalance LoyaltyCard.space)] else []) ++ [.empty .refund R r.rentPayer])).lamports
            relayer :=
        congrArg (fun p => p.lamports relayer) hpurse
      rw [ho, hl, hi.rentPayer]
      exact Nat.le_trans hi.kept (s₁.purse.claimed hRr hAr hAR _ o)

/-! ## A full card -/

/-- Everybody who signs the call is the shop's authority, the customer or the relayer. -/
def SignedBy (b : Business) (customer relayer : Address) (c : Call) : Prop :=
  ∀ q ∈ c.tx.signers, q = b.authority ∨ q = customer ∨ q = relayer

/-- After `k` rounds from `s₀`, where the card at `A` was `z` or was none yet, and `z` is the new one. -/
structure Filling (P : Platform) (s₀ : State) (hist : History) (t : Int) (a A R customer relayer : Address)
    (b : Business)
    (z : LoyaltyCard) (cost : Nat) (bump : UInt8) (k : Nat) (later : History) (s : State) : Prop where
  clocked : Clocked (later ++ hist) (t + 86400 * k)
  few : instructions (later ++ hist) = instructions hist + 2 * k
  length : later.length = 2 * k
  signed : ∀ st ∈ later, SignedBy b customer relayer st.label
  shop : ∃ b', s.business? a = some b' ∧ Steady b b'
  same : SameCard z ((s.card? A).getD (newCard a customer relayer bump b))
  stamps : ((s.card? A).getD (newCard a customer relayer bump b)).stamps.toNat = z.stamps.toNat + k
  begun : s.card? A = none → k = 0
  tokens : s.tokens = s₀.tokens
  gone : ¬s.InUse R
  system : ¬s.InUse relayer
  funds : P.minimumBalance Receipt.space + (if s.card? A = none then P.minimumBalance LoyaltyCard.space else
    0) + cost ≤
    s.lamports relayer

theorem Filling.round {s₀ : State} {cost : Nat} {bump receiptBump : UInt8} {k : Nat}
    (hf : Filling P s₀ hist t a A R customer relayer b z cost bump k later s)
    (h : Run P start (later ++ hist) s)
    (hs : start.Empty) (htime : t + 86400 * (k + 1) ≤ 2 ^ 62)
    (hcount : instructions hist + 2 * k + 2 < 2 ^ 32)
    (hA : findProgramAddress P (.card a customer) = some (A, bump))
    (hR : findProgramAddress P (.receipt a (P.keccak secret)) = some (R, receiptBump))
    (hkey : relayer.canSign = true) (hcustomer : customer.canSign = true)
    (hroom : z.stamps.toNat + k + 1 < 2 ^ 8) :
    ∃ round s', Run P s round s' ∧
      Filling P s₀ hist t a A R customer relayer b z cost bump (k + 1) (round ++ later) s' := by
  obtain ⟨b', hb', hsteady⟩ := hf.shop
  have hnow : (Int64.ofInt (t + 86400 * (k + 1))).toInt = t + 86400 * (k + 1) := by
    have := hf.clocked.start
    exact Int64.toInt_ofInt_of_le (by omega) (by omega)
  have hnew : newCard a customer relayer bump b' = newCard a customer relayer bump b := by
    rw [newCard, newCard, hsteady.stampsRequired]
  obtain ⟨s₁, s₂, b₂, x, r, hissue, hclaim, hx⟩ := h.stamps hs hf.clocked hb'
    (Int64.ofInt (t + 86400 * (k + 1))) (by rw [hnow]; omega) (by rw [hnow]; exact htime)
    (by rw [hf.few]; exact hcount) hA hR hf.gone hf.system hkey hcustomer
    (fun y hy => by have := hf.stamps; rw [hy, Option.getD_some] at this; omega)
    (Nat.le_trans (Nat.le_add_right _ _) hf.funds)
  rw [hnew] at hx
  have hclock :=
    (hf.clocked.step s s₁
      ⟨⟨Int64.ofInt (t + 86400 * (k + 1)), [b'.authority, relayer]⟩,
        .program (.issueReceipt ⟨a, R, b'.authority, relayer⟩ (P.keccak secret) 1)⟩
      (by show _ ≤ (Int64.ofInt _).toInt; rw [hnow]; omega)).step s₁ s₂
    ⟨⟨Int64.ofInt (t + 86400 * (k + 1)), [customer, relayer]⟩,
      .program (.claimReceipt (r.claiming R A customer relayer) secret)⟩ (Int.le_refl _)
  refine ⟨_, s₂, (Runs.Run.nil.step hissue).step hclaim, ?_, ?_, ?_, ?_,
    ⟨b₂, hx.shop, hsteady.trans hx.steady⟩, ?_, ?_,
    fun hnone => ?_, hx.tokens.trans hf.tokens, hx.gone, hx.system, ?_⟩
  · have hcast : t + 86400 * ((k + 1 : Nat) : Int) =
      (Int64.ofInt (t + 86400 * (k + 1))).toInt := by rw [hnow]; simp
    rw [hcast]
    exact hclock
  · have := hf.few
    simp only [List.cons_append, List.nil_append, instructions_cons]
    simp only [Action.isProgram, if_true]
    omega
  · have := hf.length
    simp only [List.cons_append, List.nil_append, List.length_cons]
    omega
  · intro st hst
    simp only [List.cons_append, List.nil_append, List.mem_cons] at hst
    rcases hst with rfl | rfl | hst
    · intro q hq
      simpa using Or.inr (by simpa using hq : q = customer ∨ q = relayer)
    · intro q hq
      rcases List.mem_cons.mp hq with rfl | hq
      · exact .inl hsteady.authority
      · exact .inr (.inr (List.mem_singleton.mp hq))
    · exact hf.signed st hst
  · rw [hx.card, Option.getD_some]
    exact hf.same.trans hx.same
  · rw [hx.card, Option.getD_some, hx.stamps, hf.stamps]
    omega
  · rw [hx.card] at hnone
    cases hnone
  · have hfunds := hf.funds
    have := hx.funds
    rw [hx.card, if_neg (by simp)]
    omega

/-- The rounds a card still needs fill it. -/
theorem Run.fills (h : Run P start hist s) (hs : start.Empty) (hc : Clocked hist t)
    (hb : s.business? a = some b)
    {bump receiptBump : UInt8} (hA : findProgramAddress P (.card a customer) = some (A, bump))
    (hR : findProgramAddress P (.receipt a (P.keccak secret)) = some (R, receiptBump)) (hfree : ¬s.InUse R)
    (hsys : ¬s.InUse relayer) (hkey : relayer.canSign = true) (hcustomer : customer.canSign = true)
    (htime : t + 86400 * 100 ≤ 2 ^ 62) (hcount : instructions hist + 202 < 2 ^ 32) (cost : Nat)
    (hfunds : P.minimumBalance Receipt.space +
        (if s.card? A = none then P.minimumBalance LoyaltyCard.space else 0) + cost ≤
      s.lamports relayer) :
    ∃ k later s' x, k ≤ 100 ∧ Run P s later s' ∧
      Filling P s hist t a A R customer relayer b ((s.card? A).getD (newCard a customer relayer bump b)) cost
      bump k
        later s' ∧
      s'.card? A = some x ∧ x.stampsRequiredSnapshot ≤ x.stamps := by
  obtain ⟨hshops, hcards⟩ := h.valid hs
  have hmax : maxStampsRequired.toNat = 100 := rfl
  have hprice : 1 ≤ b.stampsRequired.toNat ∧ b.stampsRequired.toNat ≤ 100 :=
    ⟨UInt8.le_iff_toNat_le.mp (hshops a b hb).settings.stamps_low,
      UInt8.le_iff_toNat_le.mp (hshops a b hb).settings.stamps_high⟩
  generalize hz : (s.card? A).getD (newCard a customer relayer bump b) = z
  have hlimit : z.stampsRequiredSnapshot.toNat ≤ 100 := by
    cases hcard : s.card? A with
    | none =>
      rw [hcard] at hz
      exact hz ▸ hprice.2
    | some y =>
      rw [hcard] at hz
      exact hz ▸ UInt8.le_iff_toNat_le.mp (hcards A y hcard).2
  have hstart : Filling P s hist t a A R customer relayer b z cost bump 0 [] s := by
    refine ⟨by simpa using hc, rfl, rfl,
      by simp, ⟨b, hb, .refl b⟩, ?_, by rw [hz]; rfl, fun _ => rfl, rfl, hfree, hsys, hfunds⟩
    rw [hz]
    exact ⟨rfl, rfl, rfl, rfl, rfl⟩
  obtain ⟨later, s', hrun, hf⟩ := Runs.Run.rounds
    (I := fun k later s' => Filling P s hist t a A R customer relayer b z cost bump k later s')
    (n := z.stampsRequiredSnapshot.toNat - z.stamps.toNat) hstart fun {k later s'} hk hrun hf =>
      hf.round (Runs.Run.append h hrun) hs (by omega) (by omega) hA hR hkey hcustomer (by omega)
  -- a new card is not full, so that there is a card now
  obtain ⟨x, hx⟩ : ∃ x, s'.card? A = some x := by
    cases hcard : s'.card? A with
    | some x => exact ⟨x, rfl⟩
    | none =>
      have h0 := hf.begun hcard
      have hsame := hf.same
      have hstamps := hf.stamps
      rw [hcard, Option.getD_none] at hsame hstamps
      have hnew : b.stampsRequired = z.stampsRequiredSnapshot := hsame.stampsRequiredSnapshot
      have hblank : 0 = z.stamps.toNat + _ := hstamps
      rw [hnew] at hprice
      omega
  refine ⟨_, later, s', x, by omega, hrun, hf, hx, ?_⟩
  have hsame := hf.same
  have hstamps := hf.stamps
  rw [hx, Option.getD_some] at hsame hstamps
  rw [UInt8.le_iff_toNat_le, hsame.stampsRequiredSnapshot, hstamps]
  omega

/-! ## From the full card to the counter -/

/-- A shop whose counter of redemptions has room redeems the voucher as soon as it is cashed in for. -/
theorem Run.redeems (accs : MintVoucher) {voucherId : UInt64} {uri : Text} (h : Run P start hist s)
    (hs : start.Empty)
    (hb : s.business? accs.business = some b) (hcount : b.totalRedemptions.toNat + 1 < 2 ^ 32)
    (hsys : ¬s.InUse accs.relayer) (hkey : accs.relayer.canSign = true)
    (hcash : Next P s ⟨⟨now, [accs.customer, accs.relayer]⟩, .program (.mintVoucher accs voucherId uri)⟩ s') :
    ∃ s₃ s₄ b', Next P s' ⟨⟨now, [accs.customer]⟩,
        .program (.presentVoucher ⟨accs.voucher, accs.mint, accs.customerToken, accs.customer⟩)⟩ s₃ ∧
      Next P s₃ ⟨⟨now, [b.authority, accs.relayer]⟩,
        .program (.redeemVoucher ⟨accs.business, accs.voucher, accs.mint, accs.customerToken, b.authority,
          accs.relayer, accs.relayer⟩)⟩ s₄ ∧
      s₄.business? accs.business = some b' ∧ b'.totalRedemptions.toNat = b.totalRedemptions.toNat + 1 := by
  have hw := h.wellPlaced hs.wellPlaced
  obtain ⟨v, m, hv, howner, hbus, hmint, hpayer, hexp, hcus, hi⟩ := h.secured_minted hs hcash
  have hvalid : voucherValidSeconds.toInt = 7776000 := by decide
  have htime : now ≤ v.expiresAt := by
    rw [Int64.le_iff_toInt_le, hexp, hvalid]
    show now.toInt ≤ now.toInt + 7776000
    omega
  have hrun := h.step hcash
  obtain ⟨s₃, hpresent, hi₃⟩ := Run.secured_presented ⟨now, [accs.customer]⟩ hrun hs hi rfl
    (List.forall_mem_singleton.mpr hcus) (List.mem_singleton.mpr rfl) htime
  have hrun₃ := hrun.step hpresent
  obtain ⟨b₃, hb₃, hredeem⟩ := Run.secured_redeemable hrun₃ hs hi₃ rfl rfl
  obtain ⟨_, _, _, hst⟩ := hcash.step hw
  have hw' := hst.wellPlaced hw
  obtain ⟨_, _, _, hst₃⟩ := hpresent.step hw'
  have hw₃ := hst₃.wellPlaced hw'
  have hsys₃ := hst₃.key_free hw' rfl hkey (hst.key_free hw rfl hkey hsys (by simp)) (by simp)
  -- cashing in adds to the vouchers of the shop, and presenting leaves it alone
  obtain ⟨hauth, hred⟩ : b₃.authority = b.authority ∧ b₃.totalRedemptions = b.totalRedemptions := by
    obtain ⟨b₀, _, b', _, _, _, hb₀, -, -, -, -, -, -, hok, hb', -, -⟩ := hst.mintVoucher
    rw [hb, Option.some.injEq] at hb₀
    subst hb₀
    obtain ⟨-, -, -, _, _, _, -, -, -, rfl, -⟩ := mintVoucherHandler_eq_ok hok
    rcases hst₃.shop hw' v.business with hsame | hch
    · rw [hb₃, hbus, hb', Option.some.injEq] at hsame
      exact hsame ▸ ⟨rfl, rfl⟩
    · cases hch
  obtain ⟨s₄, hnext⟩ := hredeem ⟨now, [b₃.authority, accs.relayer]⟩ accs.relayer (by
    simp only [List.forall_mem_cons, Run.authority_signs hrun₃ hs hb₃, hkey, List.not_mem_nil, false_imp_iff,
      implies_true, and_self]) List.mem_cons_self (List.mem_cons_of_mem _ List.mem_cons_self) htime
    (by rw [hpayer]; exact hsys₃) (by rw [hred]; exact hcount)
  obtain ⟨_, _, _, hst₄⟩ := hnext.step hw₃
  have hch₄ := hst₄.changed
  have heffect := hst₄.effect
  cases heffect with
  | @redeemVoucher _ b₀ _ _ _ _ _ total hb₀ _ _ _ _ _ _ _ _ _ _ _ _ _ _ _ _ _ _ htotal =>
    obtain rfl : b₃ = b₀ := Option.some.inj (hb₃.symm.trans (State.business?_eq_some.mpr hb₀))
    have hb₄ : s₄.business? v.business = _ := State.business?_eq_some.mpr (hch₄.record? List.mem_cons_self)
    rw [hbus] at hb₄
    rw [Voucher.redemption, hbus, hmint, hpayer, hauth] at hnext
    rw [hmint] at hpresent
    refine ⟨s₃, s₄, _, hpresent, hnext, hb₄, ?_⟩
    rw [← hred]
    exact addU32_eq_ok.mp htotal

/-- What the outside brings for a customer's next reward at the shop `b` at `a`: the addresses, a relayer with
the lamports, and nothing of an earlier life of the shop or of the card's NFT in the way. -/
structure Served (P : Platform) (s : State) (a A R V M N customer relayer : Address) (secret : Bytes32)
    (uri : Text)
    (b : Business) : Prop where
  card : ∃ bump, findProgramAddress P (.card a customer) = some (A, bump)
  receipt : ∃ bump, findProgramAddress P (.receipt a (P.keccak secret)) = some (R, bump)
  voucher : ∃ bump, findProgramAddress P (.voucher a b.totalVouchersIssued) = some (V, bump)
  mint : ∃ bump, findProgramAddress P (.voucherMint a b.totalVouchersIssued) = some (M, bump)
  nft : ∃ bump, findProgramAddress P (.cardMint A ((s.card? A).elim 0 fun z => z.nftCycle)) = some (N, bump)
  receiptFree : ¬s.InUse R
  tokenFree : s.tokens.accounts.lookup (.ata customer M) = none
  retirable : ∀ z, s.card? A = some z → Retirable s A N z
  customerKey : customer.canSign = true
  relayerKey : relayer.canSign = true
  system : ¬s.InUse relayer
  fits : uri.len ≤ maxVoucherUriLen
  funds : P.minimumBalance Receipt.space + P.minimumBalance LoyaltyCard.space + voucherCost P b uri ≤
    s.lamports relayer

/-- The voucher a shop mints next costs the same while the shop is steady. -/
theorem Steady.voucherCost (h : Steady b b') (uri : Text) : voucherCost P b' uri = voucherCost P b uri := by
  have hname : voucherName b'.toBusinessV1 = voucherName b.toBusinessV1 := by
    rw [voucherName, voucherName, h.name, h.rewardLabel]
  rw [Passdari.voucherCost, Passdari.voucherCost, hname]

/-- Where nothing of a card's NFT was in the way, nothing is after the rounds. -/
theorem Served.still_retirable {s₀ : State} {V M N : Address} {uri : Text} {bump : UInt8}
    (h₀ : Run P start hist s₀)
    (hs : start.Empty) (hserved : Served P s₀ a A R V M N customer relayer secret uri b)
    (hsame : SameCard ((s₀.card? A).getD (newCard a customer relayer bump b)) x)
    (htokens : s.tokens = s₀.tokens) :
    Retirable s A N x := by
  intro hlive
  rw [htokens] at hlive
  cases hcard : s₀.card? A with
  | none =>
    -- an NFT would be a live card's
    obtain ⟨bumpN, hN⟩ := hserved.nft
    obtain ⟨m, hm⟩ := Option.ne_none_iff_exists'.mp hlive
    rw [findProgramAddress_eq hN] at hm
    obtain ⟨-, z, _, hz, -⟩ := (h₀.sound_of_empty hs).nfts _ _ _ m hm
    rw [hcard] at hz
    cases hz
  | some z =>
    rw [hcard, Option.getD_some] at hsame
    obtain ⟨hroom, hfree⟩ := hserved.retirable z hcard hlive
    rw [hsame.nftCycle, State.Refuses, htokens, hsame.customer, hsame.rentPayer]
    exact ⟨hroom, hfree⟩

/-- With the card full, it can be cashed in. -/
theorem Filling.cashes {s₀ : State} {V M N : Address} {uri : Text} {bump : UInt8} {k : Nat}
    (h₀ : Run P start hist s₀)
    (hs : start.Empty) (hserved : Served P s₀ a A R V M N customer relayer secret uri b)
    (hA : findProgramAddress P (.card a customer) = some (A, bump))
    (hf : Filling P s₀ hist t a A R customer relayer b ((s₀.card? A).getD (newCard a customer relayer bump b))
      (voucherCost P b uri) bump k later s) (h : Run P start (later ++ hist) s) (hx : s.card? A = some x)
    (hfull : x.stampsRequiredSnapshot ≤ x.stamps) (now : Int64) (hmax : now.toInt ≤ 2 ^ 62)
    (hcount : instructions (later ++ hist) + 1 < 2 ^ 32) :
    ∃ s', Next P s ⟨⟨now, [customer, relayer]⟩,
      .program (.mintVoucher ⟨a, A, V, M, .ata customer M, N, .ata customer N, x.rentPayer, customer, relayer⟩
        b.totalVouchersIssued uri)⟩ s' := by
  obtain ⟨b', hb', hsteady⟩ := hf.shop
  have hsame := hf.same
  rw [hx, Option.getD_some] at hsame
  obtain ⟨hbus, hcus⟩ : x.business = a ∧ x.customer = customer := by
    have hat := (h.wellPlaced hs.wellPlaced).card (State.card?_eq_some.mp hx)
    rw [findProgramAddress_eq hA, Address.card.injEq] at hat
    exact ⟨hat.1.symm, hat.2.1.symm⟩
  have hat : NextVoucher P A V M N x b' := by
    refine ⟨?_, ?_, ?_⟩
    · rw [hbus, hsteady.totalVouchersIssued]
      exact hserved.voucher
    · rw [hbus, hsteady.totalVouchersIssued]
      exact hserved.mint
    · have hcycle : x.nftCycle = (s₀.card? A).elim 0 fun z => z.nftCycle := by
        rw [hsame.nftCycle]
        cases s₀.card? A <;> rfl
      rw [hcycle]
      exact hserved.nft
  let tx : Tx := ⟨now, [customer, relayer]⟩
  have hfunds := hf.funds
  have hbring : BringsFor P s tx x b' relayer uri := by
    refine ⟨?_,
      by rw [hcus]; exact List.mem_cons_self, List.mem_cons_of_mem _ List.mem_cons_self, hf.system, ?_⟩
    · simp only [tx, List.forall_mem_cons, hserved.customerKey, hserved.relayerKey, List.not_mem_nil,
        false_imp_iff, implies_true, and_self]
    · rw [hsteady.voucherCost]
      exact Nat.le_trans (Nat.le_add_left _ _) hfunds
  have hshop : b'.Within (instructions (later ++ hist)) (t + 86400 * k) :=
    (hf.clocked.bounded h hs).within _ _ (State.business?_eq_some.mp hb')
  have hissued := hshop.totalVouchersIssued
  have hopen := hshop.openVouchers
  have hvalid : voucherValidSeconds.toInt = 7776000 := by decide
  have hcan : CanCash tx.now uri b' x :=
    ⟨hserved.fits, hfull, by show now.toInt + _ < _; omega, by omega, by omega⟩
  have hdue := (h.cash_in_due_iff hs hx (hbus ▸ hb') hat hbring).mpr
    ⟨hcan, by rw [hf.tokens, hcus]; exact hserved.tokenFree⟩
  obtain ⟨s', hok⟩ := (h.cashes_in_iff hs hx hat hdue rfl).mpr (hserved.still_retirable h₀ hs hsame hf.tokens)
  rw [LoyaltyCard.cashing, hbus, hcus, hsteady.totalVouchersIssued] at hok
  exact ⟨s', hbring.signers, hok⟩

/-- **From every state a run reaches, any customer can come to a redeemed reward at any live shop.** With a
relayer who has the lamports and unless something of an earlier life is in the way, at most a hundred rounds
of a receipt issued and claimed fill the customer's card, whatever is on it or none there yet; then the card
is cashed in, and the voucher presented and redeemed. Nobody but the shop's authority, the customer and the
relayer signs anything. -/
theorem reward_reachable {V M N : Address} {uri : Text} (h : Run P start hist s) (hs : start.Empty)
    (hclock : ClockForward hist) (ht : 0 ≤ t) (hpast : ∀ st ∈ hist, st.label.tx.now.toInt ≤ t)
    (htime : t + 86400 * 100 ≤ 2 ^ 62) (hcount : instructions hist + 202 < 2 ^ 32)
    (hb : s.business? a = some b)
    (hserved : Served P s a A R V M N customer relayer secret uri b) :
    ∃ rounds s₁ x now s₂ s₃ s₄ b', Run P s rounds s₁ ∧ rounds.length ≤ 200 ∧
      (∀ st ∈ rounds, SignedBy b customer relayer st.label) ∧ Clocked (rounds ++ hist) now.toInt ∧
      s₁.card? A = some x ∧
      Next P s₁ ⟨⟨now, [customer, relayer]⟩,
        .program (.mintVoucher
          ⟨a, A, V, M, .ata customer M, N, .ata customer N, x.rentPayer, customer, relayer⟩
          b.totalVouchersIssued uri)⟩ s₂ ∧
      Next P s₂ ⟨⟨now, [customer]⟩, .program (.presentVoucher ⟨V, M, .ata customer M, customer⟩)⟩ s₃ ∧
      Next P s₃ ⟨⟨now, [b.authority, relayer]⟩,
        .program (.redeemVoucher ⟨a, V, M, .ata customer M, b.authority, relayer, relayer⟩)⟩ s₄ ∧
      s₄.business? a = some b' ∧ b'.totalRedemptions.toNat = b.totalRedemptions.toNat + 1 := by
  obtain ⟨bump, hA⟩ := hserved.card
  obtain ⟨receiptBump, hR⟩ := hserved.receipt
  have hfunds := hserved.funds
  have hc : Clocked hist t := ⟨hclock, ht, hpast⟩
  obtain ⟨k, rounds, s₁, x, hk, hrun, hf, hx, hfull⟩ :=
    h.fills hs hc hb hA hR hserved.receiptFree hserved.system
    hserved.relayerKey hserved.customerKey htime hcount (voucherCost P b uri) (by split <;> omega)
  have hnow : (Int64.ofInt (t + 86400 * k)).toInt = t + 86400 * k :=
    Int64.toInt_ofInt_of_le (by omega) (by omega)
  have hall := Runs.Run.append h hrun
  have hfew := hf.few
  obtain ⟨s₂, hcash⟩ := hf.cashes h hs hserved hA hall hx hfull (Int64.ofInt (t + 86400 * k))
    (by omega) (by omega)
  obtain ⟨b₁, hb₁, hsteady⟩ := hf.shop
  have hshop : b₁.Within (instructions (rounds ++ hist)) (t + 86400 * k) :=
    (hf.clocked.bounded hall hs).within _ _ (State.business?_eq_some.mp hb₁)
  have hredeemed := hshop.totalRedemptions
  have hroom : b₁.totalRedemptions.toNat + 1 < 2 ^ 32 := by omega
  obtain ⟨s₃, s₄, b', hpresent, hredeem, hb', htotal⟩ := Run.redeems ⟨a, A, V, M,
    .ata customer M, N, .ata customer N, x.rentPayer, customer, relayer⟩ hall hs hb₁ hroom hf.system
    hserved.relayerKey hcash
  rw [hsteady.authority] at hredeem
  rw [hsteady.totalRedemptions] at htotal
  refine ⟨rounds, s₁, x, _, s₂, s₃, s₄, b', hrun, ?_, hf.signed, ?_, hx, hcash, hpresent, hredeem, hb',
    htotal⟩
  · have := hf.length
    omega
  · rw [hnow]
    exact hf.clocked

/-- A customer without a card comes to a reward for three stamps. -/
theorem reward_reachable_new : ∃ hist s rounds s₁ s₄ b b', Run Sample.platform Sample.start hist s ∧
    s.card? (Sample.card 9) = none ∧ s.business? Sample.shop = some b ∧ b.stampsRequired = 3 ∧
    Run Sample.platform s rounds s₁ ∧ (∃ now s₂ s₃, Next Sample.platform s₂ (Sample.present now 9 0) s₃ ∧
      Next Sample.platform s₃ (Sample.redeem now 9 0) s₄) ∧
    s₄.business? Sample.shop = some b' ∧ b'.totalRedemptions.toNat = b.totalRedemptions.toNat + 1 := by
  obtain ⟨hist, s, hrun, hcalls, hp⟩ := Leads.run (P := Sample.platform) (s := Sample.start)
    (l := [Sample.register 1000 3 0])
    (p := fun s => (s.card? (Sample.card 9)).isNone &&
      (s.business? Sample.shop).any (fun b : Business => b.stampsRequired = 3 ∧ b.authority = Sample.key 1 ∧
        b.totalVouchersIssued = 0 ∧ Receipt.space + LoyaltyCard.space + voucherCost Sample.platform b
        Sample.uri ≤
          s.lamports (Sample.key 2)) &&
      decide (¬s.InUse (.receipt Sample.shop (Sample.hash 7) 255) ∧ ¬s.InUse (Sample.key 2) ∧
        s.tokens.accounts.lookup (Sample.voucherToken 9 0) = none))
    (by decide +kernel)
  simp only [Bool.and_eq_true, Option.any_eq_true, decide_eq_true_eq, Option.isNone_iff_eq_none] at hp
  obtain ⟨⟨hnone, b, hb, hthree, hauth, hnumber, hfunds⟩, hfree, hsys, htoken⟩ := hp
  have hserved : Served Sample.platform s Sample.shop (Sample.card 9)
    (.receipt Sample.shop (Sample.hash 7) 255)
      (Sample.voucher 0) (Sample.voucherMint 0) (Sample.nft 9 0) (Sample.key 9) (Sample.key 2)
        (Sample.hash 7) Sample.uri
      b := by
    refine ⟨⟨255, rfl⟩, ⟨255, rfl⟩, ⟨255, ?_⟩, ⟨255, ?_⟩, ⟨255, ?_⟩, hfree, htoken, fun z hz => ?_,
      by decide, by decide, hsys, by decide, hfunds⟩
    · rw [hnumber]
      rfl
    · rw [hnumber]
      rfl
    · rw [hnone]
      rfl
    · rw [hnone] at hz
      cases hz
  obtain ⟨rounds, s₁, x, now, s₂, s₃, s₄, b', hrounds, -, -, -, -, -, hpresent, hredeem, hb', htotal⟩ :=
    reward_reachable (t := 1000) hrun Sample.start_empty
      (ClockForward.of_calls hcalls (by decide) (by decide)) (by decide)
      (fun st hst => by
        have hmem := List.mem_map_of_mem (f := fun st : Taken => st.label) hst
        rw [hcalls] at hmem
        rw [List.mem_singleton.mp hmem]
        decide)
      (by decide)
      (by
        have hlen : hist.length = 1 := by simpa using congrArg List.length hcalls
        have hle : instructions hist ≤ hist.length := List.countP_le_length
        omega)
      hb hserved
  rw [hauth] at hredeem
  exact ⟨hist, s, rounds, s₁, s₄, b, b', hrun, hnone, hb, hthree, hrounds,
    ⟨now, s₂, s₃, hpresent, hredeem⟩, hb', htotal⟩

end Passdari
