/-
The program runs the stamp-card scheme. Read without accounts, addresses,
tokens and lamports, its state is that of the scheme on paper, and every
instruction is a move the scheme allows, or changes nothing there. What shops
and customers have of each other can be told from the moves alone.
-/
import Passdari.Scheme
import Passdari.Books.Issued

namespace Passdari

open Wire

/-! ## The state on paper -/

def Business.onPaper (b : Business) : Scheme.Terms where
  goal := b.stampsRequired.toNat
  slipFor := b.receiptTtlSeconds.toNat
  standUntil := b.termsLockedUntil.toInt

def LoyaltyCard.onPaper (x : LoyaltyCard) : Scheme.Card where
  stamps := x.stamps.toNat
  goal := x.stampsRequiredSnapshot.toNat

namespace State

def termsAt (s : State) (a : Address) : Option Scheme.Terms := (s.business? a).map Business.onPaper

def slipAt (s : State) (a : Address) : Option Int := (s.receipt? a).map fun r => r.expiresAt.toInt

def cardAt (s : State) (a : Address) : Option Scheme.Card := (s.card? a).map LoyaltyCard.onPaper

def ticketAt (s : State) (a : Address) : Option Int := (s.voucher? a).map fun v => v.expiresAt.toInt

end State

/-- What is read at the address the seeds lead to. -/
def found {X : Type} (P : Platform) (seeds : UInt8 → Address) (read : Address → Option X) : Option X :=
  (findProgramAddress P seeds).bind fun p => read p.1

/-- The state as a scheme: a card by its shop and customer, a slip by the hash of its secret, a ticket by its
number. -/
def State.scheme (P : Platform) (s : State) : Scheme Address Address Bytes32 UInt64 where
  terms := s.termsAt
  slips b h := found P (.receipt b h) s.slipAt
  cards b c := found P (.card b c) s.cardAt
  tickets b n := found P (.voucher b n) s.ticketAt

/-- What a call is on paper, if anything. Whose an account is that goes is read off its address. -/
def Call.move (P : Platform) (c : Call) : Option (Scheme.Move Address Address Bytes32 UInt64) :=
  match c.action with
  | .program (.registerBusiness accs args) => some (.opens accs.business
      ⟨args.stampsRequired.toNat, args.receiptTtlSeconds.toNat, args.termsLockedUntil.toInt⟩)
  | .program (.updateBusinessConfig accs args) => some (.revise accs.business
      ⟨args.stampsRequired.toNat, args.receiptTtlSeconds.toNat, args.termsLockedUntil.toInt⟩)
  | .program (.closeBusiness accs) => some (.leave accs.business)
  | .program (.issueReceipt accs secretHash _) => some (.handOut accs.business secretHash)
  | .program (.claimReceipt accs secret) => some (.stamp accs.business (P.keccak secret) accs.customer)
  | .program (.reclaimExpiredReceipt accs) =>
    match accs.receipt with
    | .receipt b h _ => some (.discard b h)
    | _ => none
  | .program (.transferStamps accs amount) =>
    match accs.toCard with
    | .card _ d _ => some (.pass accs.business accs.customer d amount.toNat)
    | _ => none
  | .program (.mintVoucher accs voucherId _) => some (.cashIn accs.business accs.customer voucherId)
  | .program (.redeemVoucher accs) =>
    match accs.voucher with
    | .voucher b n _ => some (.redeem b n)
    | _ => none
  | .program (.closeExpiredVoucher accs) =>
    match accs.voucher with
    | .voucher b n _ => some (.lapse b n)
    | _ => none
  | .program (.closeDeadCard accs) =>
    match accs.card with
    | .card b c _ => some (.forget b c)
    | _ => none
  | _ => none

/-- The moves of a run, each with its time, newest first. -/
def movesOf (P : Platform) (hist : History) : List (Int × Scheme.Move Address Address Bytes32 UInt64) :=
  (hist.map fun st => st.label).filterMap fun c => (c.move P).map fun m => (c.tx.now.toInt, m)

/-- How long a ticket is good for. -/
def ticketFor : Int := voucherValidSeconds.toInt

variable {P : Platform} {s s' start : State} {hist : History} {c : Call} {cs : List Change}
  {calls : List TokenCall} {ps : List Payment} {A b : Address} {tx : Tx}

/-! ## What is found -/

section

variable {X : Type} {seeds : UInt8 → Address} {read read' : Address → Option X} {bump : UInt8}

theorem found_eq (hf : findProgramAddress P seeds = some (A, bump)) : found P seeds read = read A := by
  rw [found, hf, Option.bind_some]

/-- A change at one address of a family is a change for its key. -/
theorem found_put {K : Type} [DecidableEq K] {family : Address → K → UInt8 → Address} {k : K} {v : Option X}
    (hinj : ∀ {b k n b' k' n'}, family b k n = family b' k' n' → b = b' ∧ k = k')
    (hf : findProgramAddress P (family b k) = some (A, bump))
    (hother : ∀ a, a ≠ A → read' a = read a) (hA : read' A = v) :
    (fun b k => found P (family b k) read') = Scheme.put (fun b k => found P (family b k) read) b k v := by
  funext b' k'
  by_cases hk : b' = b ∧ k' = k
  · obtain ⟨rfl, rfl⟩ := hk
    rw [Scheme.put_self, found_eq hf, hA]
  · rw [Scheme.put_of_ne hk]
    cases hf' : findProgramAddress P (family b' k') with
    | none => rw [found, found, hf']; rfl
    | some p =>
      obtain ⟨A', n⟩ := p
      rw [found_eq hf', found_eq hf']
      refine hother A' fun he => hk ?_
      have hsame : family b' k' n = family b k bump :=
        (findProgramAddress_eq hf').symm.trans (he.trans (findProgramAddress_eq hf))
      exact hinj hsame

end

/-! ## Where a call changes something on paper -/

def Action.termsSet : Action → List Address
  | .program (.registerBusiness accs _) | .program (.updateBusinessConfig accs _)
  | .program (.closeBusiness accs) | .program (.migrateBusiness accs) => [accs.business]
  | _ => []

def Action.slipsSet : Action → List Address
  | .program (.issueReceipt accs _ _) => [accs.receipt]
  | .program (.claimReceipt accs _) => [accs.receipt]
  | .program (.reclaimExpiredReceipt accs) => [accs.receipt]
  | _ => []

def Action.cardsSet : Action → List Address
  | .program (.claimReceipt accs _) => [accs.card]
  | .program (.transferStamps accs _) => [accs.fromCard, accs.toCard]
  | .program (.mintVoucher accs _ _) => [accs.card]
  | .program (.closeDeadCard accs) => [accs.card]
  | .program (.migrateCard accs) => [accs.card]
  | _ => []

def Action.ticketsSet : Action → List Address
  | .program (.mintVoucher accs _ _) => [accs.voucher]
  | .program (.redeemVoucher accs) => [accs.voucher]
  | .program (.closeExpiredVoucher accs) => [accs.voucher]
  | _ => []

theorem Step.terms_elsewhere (hw : s.WellPlaced) (h : Step P s c s' cs calls ps) {a : Address}
    (ha : a ∉ c.action.termsSet) : s'.termsAt a = s.termsAt a := by
  obtain ⟨tx, action⟩ := c
  rcases h.shop hw a with hsame | hch
  · rw [State.termsAt, hsame, State.termsAt]
  rw [State.termsAt, State.termsAt]
  generalize s.business? a = before at hch ⊢
  generalize s'.business? a = after at hch ⊢
  cases hch with
  | registered he | edited he | closed he | migrated he =>
    exact absurd (List.mem_singleton.mpr he.symm) ha
  | receiptIssued | stampClaimed | cardClosed | voucherMinted | voucherRedeemed | voucherExpired => rfl

theorem Step.slip_elsewhere (hw : s.WellPlaced) (h : Step P s c s' cs calls ps) {a : Address}
    (ha : a ∉ c.action.slipsSet) : s'.slipAt a = s.slipAt a := by
  obtain ⟨tx, action⟩ := c
  rcases h.receipt hw a with hsame | hch
  · rw [State.slipAt, hsame, State.slipAt]
  rw [State.slipAt, State.slipAt]
  generalize s.receipt? a = before at hch ⊢
  generalize s'.receipt? a = after at hch ⊢
  cases hch with
  | issued he | claimed he | reclaimed he => exact absurd (List.mem_singleton.mpr he.symm) ha

theorem Step.card_elsewhere (hw : s.WellPlaced) (h : Step P s c s' cs calls ps) {a : Address}
    (ha : a ∉ c.action.cardsSet) : s'.cardAt a = s.cardAt a := by
  obtain ⟨tx, action⟩ := c
  rcases h.card hw a with hsame | hch
  · rw [State.cardAt, hsame, State.cardAt]
  rw [State.cardAt, State.cardAt]
  generalize s.card? a = before at hch ⊢
  generalize s'.card? a = after at hch ⊢
  cases hch with
  | stamped he | cashedIn he | closed he | migrated he => exact absurd (List.mem_singleton.mpr he.symm) ha
  | sent he => exact absurd (he ▸ List.mem_cons_self) ha
  | received he => exact absurd (he ▸ List.mem_cons_of_mem _ List.mem_cons_self) ha
  | nftRetired => rfl

theorem Step.ticket_elsewhere (h : Step P s c s' cs calls ps) {a : Address}
    (ha : a ∉ c.action.ticketsSet) : s'.ticketAt a = s.ticketAt a := by
  obtain ⟨tx, action⟩ := c
  rcases h.voucher a with hsame | hch
  · rw [State.ticketAt, hsame, State.ticketAt]
  rw [State.ticketAt, State.ticketAt]
  generalize s.voucher? a = before at hch ⊢
  generalize s'.voucher? a = after at hch ⊢
  cases hch with
  | minted he | redeemed he | expired he => exact absurd (List.mem_singleton.mpr he.symm) ha
  | handed => rfl

/-! ## Accounts at the addresses their seeds lead to -/

/-- A card is at the address a claim finds for it. -/
theorem Run.card_found (h : Run P start hist s) (hs : start.Empty) :
    ∀ {A x}, s.card? A = some x →
      ∃ bump, findProgramAddress P (.card x.business x.customer) = some (A, bump) := by
  refine h.induct_empty (I := fun _ s => ∀ {A x}, s.card? A = some x →
    ∃ bump, findProgramAddress P (.card x.business x.customer) = some (A, bump)) hs ?_ ?_
  · intro A x hx
    rw [State.card?, State.record?, hs.program] at hx
    cases hx
  · intro hist s c s' cs calls ps _ hw hcur hi hst A x hx
    have hm := hst.effect.not_migration hcur
    rcases hst.card hw A with hsame | hch
    · exact hi (hsame.symm.trans hx)
    obtain ⟨tx, action⟩ := c
    rw [hx] at hch
    generalize hbefore : s.card? A = before at hch
    have hi : ∀ {x₀}, before = some x₀ →
        ∃ bump, findProgramAddress P (.card x₀.business x₀.customer) = some (A, bump) :=
      fun hx₀ => hi (hbefore.trans hx₀)
    cases hch with
    | stamped _ _ _ _ _ hf hown hok =>
      obtain ⟨-, _, _, _, _, -, -, -, -, -, rfl⟩ := stampCard_eq_ok hok
      cases before with
      | none => exact ⟨_, hf⟩
      | some x₀ =>
        rw [claimedCard, Option.getD_some]
        exact (hi rfl :)
    | sent _ _ _ _ hok =>
      obtain ⟨-, _, _, _, _, -, -, -, -, rfl, -⟩ := transferStampsHandler_eq_ok hok
      exact (hi rfl :)
    | received _ _ _ hok =>
      obtain ⟨-, _, _, _, _, -, -, -, -, -, rfl⟩ := transferStampsHandler_eq_ok hok
      exact (hi rfl :)
    | cashedIn _ _ _ _ _ hok =>
      obtain ⟨_, -, rfl⟩ := cashIn_eq_ok hok
      exact (hi rfl :)
    | nftRetired => exact (hi rfl :)
    | migrated => exact absurd rfl (hm.1 _)

/-- A receipt is at the address its hash leads to. -/
theorem Run.receipt_found (h : Run P start hist s) (hs : start.Empty) :
    ∀ {A r}, s.receipt? A = some r →
      ∃ secretHash bump, findProgramAddress P (.receipt r.business secretHash) = some (A, bump) := by
  refine h.induct_empty (I := fun _ s => ∀ {A r}, s.receipt? A = some r →
    ∃ secretHash bump, findProgramAddress P (.receipt r.business secretHash) = some (A, bump)) hs ?_ ?_
  · intro A r hr
    rw [State.receipt?, State.record?, hs.program] at hr
    cases hr
  · intro hist s c s' cs calls ps _ hw hcur hi hst A r hr
    rcases hst.receipt hw A with hsame | hch
    · exact hi (hsame.symm.trans hr)
    obtain ⟨tx, action⟩ := c
    rw [hr] at hch
    generalize s.receipt? A = before at hch
    cases hch with
    | issued _ _ _ _ hf hok =>
      obtain ⟨-, _, _, _, -, -, -, -, -, rfl⟩ := issueReceiptHandler_eq_ok hok
      exact ⟨_, _, hf⟩

/-! ## One step -/

section

variable (hw : s.WellPlaced) (h : Step P s c s' cs calls ps)

include hw h

theorem Step.terms_update {v : Option Scheme.Terms} (hset : c.action.termsSet = [b]) (hv : s'.termsAt b = v) :
    (s'.scheme P).terms = Function.update (s.scheme P).terms b v := by
  funext a
  by_cases ha : a = b
  · subst ha
    rw [Function.update_self]
    exact hv
  · rw [Function.update_of_ne ha]
    exact h.terms_elsewhere hw (by rwa [hset, List.mem_singleton])

theorem Step.terms_same (hset : c.action.termsSet = []) : (s'.scheme P).terms = (s.scheme P).terms :=
  funext fun _ => h.terms_elsewhere hw (by rw [hset]; exact List.not_mem_nil)

theorem Step.slips_put {k : Bytes32} {bump : UInt8} {v : Option Int} (hset : c.action.slipsSet = [A])
    (hf : findProgramAddress P (.receipt b k) = some (A, bump)) (hv : s'.slipAt A = v) :
    (s'.scheme P).slips = Scheme.put (s.scheme P).slips b k v :=
  found_put (fun he => by cases he; exact ⟨rfl, rfl⟩) hf
    (fun a ha => h.slip_elsewhere hw (by rwa [hset, List.mem_singleton])) hv

theorem Step.slips_same (hset : c.action.slipsSet = []) : (s'.scheme P).slips = (s.scheme P).slips := by
  have hsame : s'.slipAt = s.slipAt :=
    funext fun _ => h.slip_elsewhere hw (by rw [hset]; exact List.not_mem_nil)
  simp only [State.scheme, hsame]

theorem Step.cards_put {k : Address} {bump : UInt8} {v : Option Scheme.Card}
    (hset : c.action.cardsSet = [A]) (hf : findProgramAddress P (.card b k) = some (A, bump))
    (hv : s'.cardAt A = v) : (s'.scheme P).cards = Scheme.put (s.scheme P).cards b k v :=
  found_put (fun he => by cases he; exact ⟨rfl, rfl⟩) hf
    (fun a ha => h.card_elsewhere hw (by rwa [hset, List.mem_singleton])) hv

theorem Step.cards_same (hset : c.action.cardsSet = []) : (s'.scheme P).cards = (s.scheme P).cards := by
  have hsame : s'.cardAt = s.cardAt :=
    funext fun _ => h.card_elsewhere hw (by rw [hset]; exact List.not_mem_nil)
  simp only [State.scheme, hsame]

omit hw in
theorem Step.tickets_put {k : UInt64} {bump : UInt8} {v : Option Int} (hset : c.action.ticketsSet = [A])
    (hf : findProgramAddress P (.voucher b k) = some (A, bump)) (hv : s'.ticketAt A = v) :
    (s'.scheme P).tickets = Scheme.put (s.scheme P).tickets b k v :=
  found_put (fun he => by cases he; exact ⟨rfl, rfl⟩) hf
    (fun a ha => h.ticket_elsewhere (by rwa [hset, List.mem_singleton])) hv

omit hw in
theorem Step.tickets_same (hset : c.action.ticketsSet = []) :
    (s'.scheme P).tickets = (s.scheme P).tickets := by
  have hsame : s'.ticketAt = s.ticketAt :=
    funext fun _ => h.ticket_elsewhere (by rw [hset]; exact List.not_mem_nil)
  simp only [State.scheme, hsame]

end

/-- The move is allowed on paper and comes to what the step comes to. -/
def Plays (P : Platform) (s s' : State) (now : Int64) (m : Scheme.Move Address Address Bytes32 UInt64) :
    Prop :=
  (s.scheme P).Allows now.toInt m ∧ s'.scheme P = (s.scheme P).after ticketFor now.toInt m

theorem State.slip_of {r : Receipt} {k : Bytes32} {bump : UInt8} (hr : s.receipt? A = some r)
    (hf : findProgramAddress P (.receipt b k) = some (A, bump)) :
    (s.scheme P).slips b k = some r.expiresAt.toInt := by
  show found P _ s.slipAt = _
  rw [found_eq hf, State.slipAt, hr, Option.map_some]

theorem State.card_of {x : LoyaltyCard} {k : Address} {bump : UInt8} (hx : s.card? A = some x)
    (hf : findProgramAddress P (.card b k) = some (A, bump)) : (s.scheme P).cards b k = some x.onPaper := by
  show found P _ s.cardAt = _
  rw [found_eq hf, State.cardAt, hx, Option.map_some]

theorem State.ticket_of {v : Voucher} {k : UInt64} {bump : UInt8} (hv : s.voucher? A = some v)
    (hf : findProgramAddress P (.voucher b k) = some (A, bump)) :
    (s.scheme P).tickets b k = some v.expiresAt.toInt := by
  show found P _ s.ticketAt = _
  rw [found_eq hf, State.ticketAt, hv, Option.map_some]

theorem State.terms_of {x : Business} (hx : s.business? b = some x) :
    (s.scheme P).terms b = some x.onPaper := by
  show s.termsAt b = _
  rw [State.termsAt, hx, Option.map_some]

theorem State.terms_isSome {x : Business} (hx : s.business? b = some x) : ((s.scheme P).terms b).isSome := by
  rw [State.terms_of hx]
  rfl

theorem SettingsOk.stamps_pos {name category rewardLabel : Text} {stampsRequired : UInt8}
    {receiptTtlSeconds : UInt32} (h : SettingsOk name category rewardLabel stampsRequired receiptTtlSeconds) :
    0 < stampsRequired.toNat :=
  UInt8.le_iff_toNat_le.mp h.stamps_low

theorem Step.plays_opens (hw : s.WellPlaced) {accs args}
    (h : Step P s ⟨tx, .program (.registerBusiness accs args)⟩ s' cs calls ps) :
    Plays P s s' tx.now (.opens accs.business
      ⟨args.stampsRequired.toNat, args.receiptTtlSeconds.toNat, args.termsLockedUntil.toInt⟩) := by
  obtain ⟨hnone, x, bump, hx, hok⟩ := h.registerBusiness
  obtain ⟨hset, -, -, rfl⟩ := registerBusinessHandler_eq_ok.mp hok
  have hterms : s.termsAt accs.business = none := by rw [State.termsAt, hnone, Option.map_none]
  refine ⟨⟨hterms, hset.stamps_pos⟩, Scheme.ext (h.terms_update hw rfl ?_) (h.slips_same hw rfl)
    (h.cards_same hw rfl) (h.tickets_same rfl)⟩
  rw [State.termsAt, hx]
  rfl

theorem Step.plays_revise (hw : s.WellPlaced) {accs args}
    (h : Step P s ⟨tx, .program (.updateBusinessConfig accs args)⟩ s' cs calls ps) :
    Plays P s s' tx.now (.revise accs.business
      ⟨args.stampsRequired.toNat, args.receiptTtlSeconds.toNat, args.termsLockedUntil.toInt⟩) := by
  obtain ⟨x, x', hx, hx', hok⟩ := h.updateBusinessConfig
  obtain ⟨hset, hlock, -, rfl⟩ := updateBusinessConfigHandler_eq_ok.mp hok
  refine ⟨⟨⟨_, State.terms_of hx, Int64.le_iff_toInt_le.mp hlock⟩, hset.stamps_pos⟩,
    Scheme.ext (h.terms_update hw rfl ?_) (h.slips_same hw rfl) (h.cards_same hw rfl) (h.tickets_same rfl)⟩
  rw [State.termsAt, hx']
  rfl

/-- A shop closes when its counters say that nothing is left, and then nothing is. -/
theorem Step.plays_leave (hrun : Run P start hist s) (hs : start.Empty) {accs}
    (h : Step P s ⟨tx, .program (.closeBusiness accs)⟩ s' cs calls ps) :
    Plays P s s' tx.now (.leave accs.business) := by
  have hw := hrun.wellPlaced hs.wellPlaced
  obtain ⟨x, hx, hok, hgone, -⟩ := h.closeBusiness
  obtain ⟨hlock, hcards, hvouchers⟩ := closeBusinessHandler_eq_ok.mp hok
  refine ⟨⟨⟨_, State.terms_of hx, Int64.le_iff_toInt_le.mp hlock⟩, fun k => ?_, fun k => ?_⟩,
    Scheme.ext (h.terms_update hw rfl ?_) (h.slips_same hw rfl) (h.cards_same hw rfl) (h.tickets_same rfl)⟩
  -- a card of the shop would be counted, and the count is zero
  · by_contra hne
    obtain ⟨y, hy⟩ := Option.ne_none_iff_exists'.mp hne
    obtain ⟨p, hf, hcard⟩ := Option.bind_eq_some_iff.mp hy
    obtain ⟨z, hz, -⟩ := Option.map_eq_some_iff.mp hcard
    have hat := hw.card (State.card?_eq_some.mp hz)
    rw [findProgramAddress_eq (show _ = some (p.1, p.2) from hf), Address.card.injEq] at hat
    obtain ⟨x', hx', hpos⟩ := hrun.business_of_card hs hz
    rw [← hat.1, hx, Option.some.injEq] at hx'
    rw [← hx', hcards] at hpos
    exact absurd hpos (Nat.lt_irrefl 0)
  · by_contra hne
    obtain ⟨y, hy⟩ := Option.ne_none_iff_exists'.mp hne
    obtain ⟨p, hf, hticket⟩ := Option.bind_eq_some_iff.mp hy
    obtain ⟨z, hz, -⟩ := Option.map_eq_some_iff.mp hticket
    have hat := hw.voucher (State.voucher?_eq_some.mp hz)
    rw [findProgramAddress_eq (show _ = some (p.1, p.2) from hf), Address.voucher.injEq] at hat
    obtain ⟨x', hx', hpos⟩ := hrun.business_of_voucher hs hz
    rw [← hat.1, hx, Option.some.injEq] at hx'
    rw [← hx', hvouchers] at hpos
    exact absurd hpos (Nat.lt_irrefl 0)
  · rw [State.termsAt, hgone, Option.map_none]

theorem Step.plays_handOut (hw : s.WellPlaced) {accs secretHash band}
    (h : Step P s ⟨tx, .program (.issueReceipt accs secretHash band)⟩ s' cs calls ps) :
    Plays P s s' tx.now (.handOut accs.business secretHash) := by
  obtain ⟨x, x', r, bump, hx, -, -, hf, hok, hnone, hr⟩ := h.issueReceipt
  obtain ⟨-, _, _, e, -, -, -, he, -, rfl⟩ := issueReceiptHandler_eq_ok hok
  have hslip : (s.scheme P).slips accs.business secretHash = none := by
    show found P _ s.slipAt = _
    rw [found_eq hf, State.slipAt, hnone, Option.map_none]
  refine ⟨⟨State.terms_isSome hx, hslip⟩, Scheme.ext (h.terms_same hw rfl) (h.slips_put hw rfl hf ?_)
    (h.cards_same hw rfl) (h.tickets_same rfl)⟩
  rw [State.slipAt, hr, Option.map_some, State.terms_of hx, Option.map_some, he]
  rfl

/-- A claim stamps the customer's card, or a new one under the shop's terms. -/
theorem Step.plays_stamp (hw : s.WellPlaced) {accs secret}
    (h : Step P s ⟨tx, .program (.claimReceipt accs secret)⟩ s' cs calls ps) :
    Plays P s s' tx.now (.stamp accs.business (P.keccak secret) accs.customer) := by
  obtain ⟨x, r, z, bump, hx, hr, -, hf, ⟨receiptBump, hfr⟩, htime, hown, hok, hz, hgone⟩ := h.claimReceipt hw
  obtain ⟨-, _, _, n, _, -, -, -, hn, -, rfl⟩ := stampCard_eq_ok hok
  refine ⟨⟨State.terms_isSome hx, _, State.slip_of hr hfr, Int64.le_iff_toInt_le.mp htime⟩,
    Scheme.ext (h.terms_same hw rfl) (h.slips_put hw rfl hfr ?_) (h.cards_put hw rfl hf ?_)
      (h.tickets_same rfl)⟩
  · rw [State.slipAt, hgone, Option.map_none]
  · rw [State.cardAt, hz, Option.map_some, Scheme.cardOrNew]
    show _ = some (Scheme.Card.mk (((found P _ s.cardAt).getD _).stamps + 1)
      ((found P _ s.cardAt).getD _).goal)
    rw [found_eq hf, State.terms_of hx, State.cardAt]
    cases hcard : s.card? accs.card with
    | none =>
      rw [hcard] at hn
      simp only [LoyaltyCard.onPaper, hn]
      rfl
    | some y =>
      rw [hcard] at hn
      simp only [LoyaltyCard.onPaper, hn]
      rfl

theorem Step.plays_discard (hrun : Run P start hist s) (hs : start.Empty) {accs}
    (h : Step P s ⟨tx, .program (.reclaimExpiredReceipt accs)⟩ s' cs calls ps) :
    ∃ b k bump, accs.receipt = .receipt b k bump ∧ Plays P s s' tx.now (.discard b k) := by
  have hw := hrun.wellPlaced hs.wellPlaced
  have heffect := h.effect
  cases heffect with
  | reclaimExpiredReceipt hr _ _ hlate =>
    obtain ⟨k, bump, hf⟩ := hrun.receipt_found hs (State.receipt?_eq_some.mpr hr)
    refine ⟨_, k, bump, findProgramAddress_eq hf, ⟨_, State.slip_of (State.receipt?_eq_some.mpr hr) hf,
      Int64.le_iff_toInt_le.mp hlate⟩, Scheme.ext (h.terms_same hw rfl) (h.slips_put hw rfl hf ?_)
      (h.cards_same hw rfl) (h.tickets_same rfl)⟩
    rw [State.slipAt, State.receipt?, h.changed.record? List.mem_cons_self]
    rfl

/-- Two cards of one shop at different addresses are two customers' cards. -/
theorem Step.plays_pass (hrun : Run P start hist s) (hs : start.Empty) {accs amount}
    (h : Step P s ⟨tx, .program (.transferStamps accs amount)⟩ s' cs calls ps) :
    ∃ d bump, accs.toCard = .card accs.business d bump ∧
      Plays P s s' tx.now (.pass accs.business accs.customer d amount.toNat) := by
  have hw := hrun.wellPlaced hs.wellPlaced
  have heffect := h.effect
  have hch := h.changed
  cases heffect with
  | @transferStamps _ _ x c d c' d' _ hc hd _ _ hne hcb hcc hdb hok =>
    have hc := State.card?_eq_some.mpr hc
    have hd := State.card?_eq_some.mpr hd
    obtain ⟨n, hfc⟩ := hrun.card_found hs hc
    obtain ⟨n', hfd⟩ := hrun.card_found hs hd
    rw [hcb, hcc] at hfc
    rw [hdb] at hfd
    have hcustomers : accs.customer ≠ d.customer := by
      intro he
      rw [← he, hfc, Option.some.injEq, Prod.mk.injEq] at hfd
      exact hne hfd.1
    obtain ⟨hpos, cs, cl, ds, dl, hcs, -, hds, -, rfl, rfl⟩ := transferStampsHandler_eq_ok hok
    have hfrom := hch.record? List.mem_cons_self
    have hto := hch.record? (List.mem_cons_of_mem _ List.mem_cons_self)
    refine ⟨d.customer, n', findProgramAddress_eq hfd, ⟨hpos, hcustomers, ⟨_, State.card_of hc hfc, ?_⟩, ?_⟩,
      Scheme.ext (h.terms_same hw rfl) (h.slips_same hw rfl) ?_ (h.tickets_same rfl)⟩
    · show amount.toNat ≤ c.stamps.toNat
      omega
    · rw [State.card_of hd hfd]
      rfl
    -- first the card that gives, then the one that receives
    obtain ⟨mid, hmid, hrest⟩ : ∃ mid : Address → Option Scheme.Card,
        mid accs.fromCard = s'.cardAt accs.fromCard ∧ ∀ a, a ≠ accs.fromCard → mid a = s.cardAt a :=
      ⟨Function.update s.cardAt accs.fromCard (s'.cardAt accs.fromCard), Function.update_self _ _ _,
        fun a ha => Function.update_of_ne ha _ _⟩
    have hgive : (fun b k => found P (.card b k) mid) =
        Scheme.put (s.scheme P).cards accs.business accs.customer (s'.cardAt accs.fromCard) :=
      found_put (fun he => by cases he; exact ⟨rfl, rfl⟩) hfc hrest hmid
    have hreceive : (s'.scheme P).cards =
        Scheme.put (fun b k => found P (.card b k) mid) accs.business d.customer (s'.cardAt accs.toCard) := by
      refine found_put (fun he => by cases he; exact ⟨rfl, rfl⟩) hfd (fun a ha => ?_) rfl
      by_cases hfrom : a = accs.fromCard
      · rw [hfrom, hmid]
      · rw [hrest a hfrom]
        exact h.card_elsewhere hw (by simp [Action.cardsSet, hfrom, ha])
    rw [hreceive, hgive]
    simp only [Scheme.after, Scheme.cardOrNew, State.card_of hc hfc, State.card_of hd hfd, Option.getD_some,
      State.cardAt, State.card?, hfrom, hto, Option.bind_some, Record.card?, Option.map_some,
      LoyaltyCard.onPaper, hds, ← hcs, Nat.add_sub_cancel]

theorem Step.plays_cashIn (hrun : Run P start hist s) (hs : start.Empty) {accs voucherId uri}
    (h : Step P s ⟨tx, .program (.mintVoucher accs voucherId uri)⟩ s' cs calls ps) :
    Plays P s s' tx.now (.cashIn accs.business accs.customer voucherId) := by
  have hw := hrun.wellPlaced hs.wellPlaced
  obtain ⟨x, c, x', c', v, bump, hx, hc, hfree, -, hcb, hcc, hf, hok, -, ⟨nftCycle, hc'⟩, hv⟩ := h.mintVoucher
  obtain ⟨-, -, hcash, e, _, _, he, -, -, -, rfl⟩ := mintVoucherHandler_eq_ok hok
  obtain ⟨n, hn, rfl⟩ := cashIn_eq_ok hcash
  obtain ⟨cardBump, hfc⟩ := hrun.card_found hs hc
  rw [hcb, hcc] at hfc
  have hticket : (s.scheme P).tickets accs.business voucherId = none := by
    show found P _ s.ticketAt = _
    rw [found_eq hf, State.ticketAt, hfree, Option.map_none]
  refine ⟨⟨State.terms_isSome hx, hticket, _, State.card_of hc hfc, ?_⟩,
    Scheme.ext (h.terms_same hw rfl) (h.slips_same hw rfl) (h.cards_put hw rfl hfc ?_)
      (h.tickets_put rfl hf ?_)⟩
  · show c.stampsRequiredSnapshot.toNat ≤ c.stamps.toNat
    omega
  · rw [State.cardAt, hc', Option.map_some, Scheme.cardOrNew, State.card_of hc hfc, State.terms_of hx]
    simp only [LoyaltyCard.onPaper, ← hn, Option.getD_some, Nat.add_sub_cancel]
    rfl
  · rw [State.ticketAt, hv, Option.map_some, he]
    rfl

theorem Step.plays_redeem (hrun : Run P start hist s) (hs : start.Empty) {accs}
    (h : Step P s ⟨tx, .program (.redeemVoucher accs)⟩ s' cs calls ps) :
    ∃ b n bump, accs.voucher = .voucher b n bump ∧ Plays P s s' tx.now (.redeem b n) := by
  have hw := hrun.wellPlaced hs.wellPlaced
  obtain ⟨x, v, _, hx, hv, hbus, -, -, htime, hgone, -⟩ := h.redeemVoucher
  obtain ⟨⟨bump, hf⟩, -⟩ := hrun.numbered hs _ _ hv
  refine ⟨_, _, bump, findProgramAddress_eq hf, ⟨State.terms_isSome (hbus ▸ hx), _, State.ticket_of hv hf,
    Int64.le_iff_toInt_le.mp htime⟩, Scheme.ext (h.terms_same hw rfl) (h.slips_same hw rfl)
    (h.cards_same hw rfl) (h.tickets_put rfl hf ?_)⟩
  rw [State.ticketAt, hgone, Option.map_none]

theorem Step.plays_lapse (hrun : Run P start hist s) (hs : start.Empty) {accs}
    (h : Step P s ⟨tx, .program (.closeExpiredVoucher accs)⟩ s' cs calls ps) :
    ∃ b n bump, accs.voucher = .voucher b n bump ∧ Plays P s s' tx.now (.lapse b n) := by
  have hw := hrun.wellPlaced hs.wellPlaced
  obtain ⟨x, v, hx, hv, hbus, hlate, hgone, -⟩ := h.closeExpiredVoucher
  obtain ⟨⟨bump, hf⟩, -⟩ := hrun.numbered hs _ _ hv
  refine ⟨_, _, bump, findProgramAddress_eq hf, ⟨State.terms_isSome (hbus ▸ hx), _, State.ticket_of hv hf,
    Int64.lt_iff_toInt_lt.mp hlate⟩, Scheme.ext (h.terms_same hw rfl) (h.slips_same hw rfl)
    (h.cards_same hw rfl) (h.tickets_put rfl hf ?_)⟩
  rw [State.ticketAt, hgone, Option.map_none]

theorem Step.plays_forget (hrun : Run P start hist s) (hs : start.Empty) {accs}
    (h : Step P s ⟨tx, .program (.closeDeadCard accs)⟩ s' cs calls ps) :
    ∃ b k bump, accs.card = .card b k bump ∧ Plays P s s' tx.now (.forget b k) := by
  have hw := hrun.wellPlaced hs.wellPlaced
  have hgone := h.changed
  have heffect := h.effect
  cases heffect with
  | closeDeadCard hc hx _ _ _ hbus _ h0 =>
    have hc := State.card?_eq_some.mpr hc
    obtain ⟨bump, hf⟩ := hrun.card_found hs hc
    refine ⟨_, _, bump, findProgramAddress_eq hf,
      ⟨State.terms_isSome (State.business?_eq_some.mpr (hbus ▸ hx)), _, State.card_of hc hf, ?_⟩,
      Scheme.ext (h.terms_same hw rfl) (h.slips_same hw rfl) (h.cards_put hw rfl hf ?_) (h.tickets_same rfl)⟩
    · rw [LoyaltyCard.onPaper, h0]
      rfl
    · rw [State.cardAt, State.card?, hgone.record? (List.mem_cons_of_mem _ List.mem_cons_self)]
      rfl

theorem Step.scheme_same (hw : s.WellPlaced) (h : Step P s c s' cs calls ps) (h1 : c.action.termsSet = [])
    (h2 : c.action.slipsSet = []) (h3 : c.action.cardsSet = []) (h4 : c.action.ticketsSet = []) :
    s'.scheme P = s.scheme P :=
  Scheme.ext (h.terms_same hw h1) (h.slips_same hw h2) (h.cards_same hw h3) (h.tickets_same h4)

/-- **One step is one move the scheme allows, or none.** -/
theorem Step.plays (hrun : Run P start hist s) (hs : start.Empty) (h : Step P s c s' cs calls ps) :
    (∃ m, c.move P = some m ∧ Plays P s s' c.tx.now m) ∨ c.move P = none ∧ s'.scheme P = s.scheme P := by
  have hw := hrun.wellPlaced hs.wellPlaced
  have hm := h.effect.not_migration (hrun.current hs)
  obtain ⟨tx, action⟩ := c
  cases action with
  | wallet w => exact .inr ⟨rfl, h.scheme_same hw rfl rfl rfl rfl⟩
  | program i =>
    cases i with
    | registerBusiness => exact .inl ⟨_, rfl, h.plays_opens hw⟩
    | updateBusinessConfig => exact .inl ⟨_, rfl, h.plays_revise hw⟩
    | closeBusiness => exact .inl ⟨_, rfl, h.plays_leave hrun hs⟩
    | issueReceipt => exact .inl ⟨_, rfl, h.plays_handOut hw⟩
    | claimReceipt => exact .inl ⟨_, rfl, h.plays_stamp hw⟩
    | mintVoucher => exact .inl ⟨_, rfl, h.plays_cashIn hrun hs⟩
    | transferStamps =>
      obtain ⟨d, bump, hto, hplays⟩ := h.plays_pass hrun hs
      exact .inl ⟨_, by simp only [Call.move, hto], hplays⟩
    | reclaimExpiredReceipt =>
      obtain ⟨b, k, bump, hat, hplays⟩ := h.plays_discard hrun hs
      exact .inl ⟨_, by simp only [Call.move, hat], hplays⟩
    | redeemVoucher =>
      obtain ⟨b, n, bump, hat, hplays⟩ := h.plays_redeem hrun hs
      exact .inl ⟨_, by simp only [Call.move, hat], hplays⟩
    | closeExpiredVoucher =>
      obtain ⟨b, n, bump, hat, hplays⟩ := h.plays_lapse hrun hs
      exact .inl ⟨_, by simp only [Call.move, hat], hplays⟩
    | closeDeadCard =>
      obtain ⟨b, k, bump, hat, hplays⟩ := h.plays_forget hrun hs
      exact .inl ⟨_, by simp only [Call.move, hat], hplays⟩
    | migrateCard => exact absurd rfl (hm.1 _)
    | migrateBusiness => exact absurd rfl (hm.2 _)
    | initializeCounter | mintCardNft | transferVoucher | presentVoucher | cancelPresentation
    | retireIdleCardNft => exact .inr ⟨rfl, h.scheme_same hw rfl rfl rfl rfl⟩

/-! ## Runs -/

theorem State.Empty.scheme (hs : s.Empty) : s.scheme P = Scheme.empty := by
  have hnone : ∀ a, s.record? a = none := fun a => by rw [State.record?, hs.program]; rfl
  have hread : s.termsAt = (fun _ => none) ∧ s.slipAt = (fun _ => none) ∧ s.cardAt = (fun _ => none) ∧
      s.ticketAt = (fun _ => none) := by
    refine ⟨funext fun a => ?_, funext fun a => ?_, funext fun a => ?_, funext fun a => ?_⟩
    · rw [State.termsAt, State.business?, hnone]; rfl
    · rw [State.slipAt, State.receipt?, hnone]; rfl
    · rw [State.cardAt, State.card?, hnone]; rfl
    · rw [State.ticketAt, State.voucher?, hnone]; rfl
  obtain ⟨h1, h2, h3, h4⟩ := hread
  simp only [State.scheme, Scheme.empty, h1, h2, h3, h4, found, Option.bind_fun_none]

theorem Run.on_paper (h : Run P start hist s) (hs : start.Empty) :
    s.scheme P = Scheme.of ticketFor (movesOf P hist) ∧ Scheme.Sound ticketFor (movesOf P hist) := by
  refine h.induct_empty (I := fun hist s => s.scheme P = Scheme.of ticketFor (movesOf P hist) ∧
    Scheme.Sound ticketFor (movesOf P hist)) hs ⟨hs.scheme, trivial⟩ ?_
  intro hist s c s' cs calls ps hrun hw hcur hi hst
  obtain ⟨hpaper, hsound⟩ := hi
  rcases hst.plays hrun hs with ⟨m, hm, hallows, hafter⟩ | ⟨hm, hsame⟩
  · have hmoves : movesOf P (⟨s, c, s'⟩ :: hist) = (c.tx.now.toInt, m) :: movesOf P hist := by
      rw [movesOf, List.map_cons, List.filterMap_cons_some (by rw [hm]; rfl)]
      rfl
    rw [hmoves, Scheme.of, Scheme.Sound, ← hpaper]
    exact ⟨hafter, hallows, hsound⟩
  · have hmoves : movesOf P (⟨s, c, s'⟩ :: hist) = movesOf P hist := by
      rw [movesOf, List.map_cons, List.filterMap_cons_none (by rw [hm]; rfl)]
      rfl
    rw [hmoves, hsame]
    exact ⟨hpaper, hsound⟩

/-- **The program runs the stamp-card scheme.** From an empty start every state reached is, on paper, what the
moves of the run lead to, one by one from nothing, and each of them was allowed by the scheme when it was
made; so what a customer has at a shop is all they were ever given there less all they spent, over every card
they had it on. -/
theorem program_refines_scheme (h : Run P start hist s) (hs : start.Empty) :
    s.scheme P = Scheme.of ticketFor (movesOf P hist) ∧ Scheme.Sound ticketFor (movesOf P hist) ∧
      ∀ shop customer, (s.scheme P).held shop customer +
        Scheme.totalSpent shop customer ticketFor (movesOf P hist) =
          Scheme.totalGained shop customer (movesOf P hist) := by
  obtain ⟨hpaper, hsound⟩ := h.on_paper hs
  exact ⟨hpaper, hsound, fun shop customer => by rw [hpaper]; exact hsound.account shop customer⟩

/-- A slip, a stamp and a ticket for it: all the customer was given is spent. -/
theorem program_refines_scheme_cashed_in : ∃ hist s, Run Sample.platform Sample.start hist s ∧
    (movesOf Sample.platform hist).map (fun m => m.2) =
      [.cashIn Sample.shop (Sample.key 9) 0, .stamp Sample.shop (Sample.hash 7) (Sample.key 9),
        .handOut Sample.shop (Sample.hash 7), .opens Sample.shop ⟨1, 600, 0⟩] ∧
    Scheme.totalSpent Sample.shop (Sample.key 9) ticketFor (movesOf Sample.platform hist) = 1 ∧
    s.scheme Sample.platform = Scheme.of ticketFor (movesOf Sample.platform hist) ∧
    Scheme.Sound ticketFor (movesOf Sample.platform hist) ∧
      ∀ shop customer, (s.scheme Sample.platform).held shop customer +
        Scheme.totalSpent shop customer ticketFor (movesOf Sample.platform hist) =
          Scheme.totalGained shop customer (movesOf Sample.platform hist) := by
  obtain ⟨hist, s, hrun, hcalls, -⟩ := Leads.run (P := Sample.platform) (s := Sample.start)
    (l := [Sample.register 1000 1 0, Sample.issue 1010 7, Sample.claim 1020 9 7, Sample.cashIn 1030 9 0])
    (p := fun _ => true) (by decide +kernel)
  refine ⟨hist, s, hrun, ?_, ?_, program_refines_scheme hrun Sample.start_empty⟩
  · rw [movesOf, hcalls]
    decide +kernel
  · rw [movesOf, hcalls]
    decide +kernel

end Passdari
