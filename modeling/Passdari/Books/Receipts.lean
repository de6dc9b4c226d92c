/-
Where stamps come from: each one from a receipt its shop issued, which is
claimed once. The stamps counted here are those on all cards, of every
layout, so that migrating a card makes none.
-/
import Passdari.Books.Cards

namespace Passdari

open Wire Token2022

variable {P : Platform} {tx : Tx} {s s' start : State} {hist : History} {c : Call} {cs : List Change}
  {calls : List TokenCall} {ps : List Payment} {action : Action} {a b : Address}

/-! ## All stamps -/

/-- The stamps a face shows. -/
def Face.stamps : Face → Nat
  | .card x => x.stamps.toNat
  | _ => 0

/-- All stamps on all cards there are. -/
def State.allStamps (s : State) : Nat :=
  Store.total (fun _ data => (Face.parse data).elim 0 Face.stamps) s.program

/-- The stamps on the card at an address, if there is one. -/
def State.stampsAt (s : State) (a : Address) : Nat := (s.face? a).elim 0 Face.stamps

theorem weight_stamps (s : State) (a : Address) :
    Store.weight (fun _ data => (Face.parse data).elim 0 Face.stamps) s.program a = s.stampsAt a := by
  rw [Store.weight, State.stampsAt, State.face?]
  cases s.program.lookup a <;> rfl

theorem State.stampsAt_of_record {r : Record} (h : s.record? a = some r) : s.stampsAt a = r.face.stamps := by
  rw [State.stampsAt, State.face?_of_record? h]
  rfl

theorem State.stampsAt_of_not_inUse (h : ¬s.InUse a) : s.stampsAt a = 0 := by
  rw [State.stampsAt, State.face?, State.lookup_of_not_inUse h]
  rfl

/-- The stamps on the changed accounts go, those on what is written instead come. -/
theorem Changed.allStamps (h : Changed cs s s') :
    s'.allStamps + (cs.map fun x => s.stampsAt x.addr).sum =
      s.allStamps + (cs.map fun x => (x.after.map fun r => r.face.stamps).getD 0).sum := by
  have hp := Store.total_patch (fun _ data => (Face.parse data).elim 0 Face.stamps) h.nodup h.frame
  have hafter : ∀ x ∈ cs, s'.stampsAt x.addr = (x.after.map fun r => r.face.stamps).getD 0 := by
    intro x hx
    cases hr : x.after with
    | none => rw [State.stampsAt, State.face?, h.closed x hx hr]; rfl
    | some r => rw [State.stampsAt_of_record ((h.record? hx).trans hr)]; rfl
  simp only [List.map_map, Function.comp_def, weight_stamps] at hp
  rw [List.map_congr_left hafter] at hp
  exact hp

/-- **Only claims make stamps.** Every other step leaves no more of them than there were. -/
theorem Step.allStamps_le (h : Step P s c s' cs calls ps)
    (hno : ∀ accs secret, c.action ≠ .program (.claimReceipt accs secret)) : s'.allStamps ≤ s.allStamps := by
  have htotal := h.changed.allStamps
  obtain ⟨tx, action⟩ := c
  obtain ⟨he, -⟩ := h
  suffices (cs.map fun x => (x.after.map fun r => r.face.stamps).getD 0).sum ≤
      (cs.map fun x => s.stampsAt x.addr).sum by omega
  cases he with
  | claimReceipt => exact absurd rfl (hno _ _)
  | @migrateCard _ _ _ _ _ _ _ n _ _ _ _ _ hf _ _ _ _ _ hcard =>
    have : s.stampsAt _ = _ := congrArg (fun f => Option.elim f 0 Face.stamps) hf
    subst hcard
    cases n <;> simp [this, Record.face, Face.stamps]
  | transferStamps _ hc hd _ _ _ _ _ _ hok =>
    obtain ⟨-, _, _, _, _, hcs, -, hds, -, rfl, rfl⟩ := transferStampsHandler_eq_ok hok
    simp [State.stampsAt_of_record hc, State.stampsAt_of_record hd, Record.face, Face.stamps]
    omega
  | mintVoucher _ hc _ _ _ _ _ _ _ _ _ _ _ _ _ hok =>
    obtain ⟨-, -, hcash, _, _, _, -, -, -, rfl, rfl⟩ := mintVoucherHandler_eq_ok hok
    obtain ⟨_, hst, rfl⟩ := cashIn_eq_ok hcash
    simp [State.stampsAt_of_record hc, Record.face, Face.stamps]
    omega
  | retireIdleCardNft hc => simp [State.stampsAt_of_record hc, Record.face, Face.stamps]
  | _ => simp [Record.face, Face.stamps]

/-- The step claims a receipt at the shop `b`. -/
def Action.claimsAt (b : Address) (action : Action) : Prop :=
  ∃ accs secret, action = .program (.claimReceipt accs secret) ∧ accs.business = b

/-- One stamp goes to the card of the signing customer at the shop, and none anywhere else. -/
def OneStamp (b : Address) (st : Taken) : Prop :=
  ∃ accs secret x, st.label.action = .program (.claimReceipt accs secret) ∧
    accs.customer ∈ st.label.tx.signers ∧
    st.post.cardFace? accs.card = some x ∧ x.business = b ∧ x.customer = accs.customer ∧
    x.stamps.toNat = st.pre.stampsAt accs.card + 1 ∧
    ∀ a, a ≠ accs.card → st.post.cardFace? a = st.pre.cardFace? a

/-- **A claim adds one stamp.** -/
theorem Step.one_stamp (hw : s.WellPlaced) (h : Step P s c s' cs calls ps) (hc : c.action.claimsAt b) :
    OneStamp b ⟨s, c, s'⟩ := by
  obtain ⟨tx, action⟩ := c
  obtain ⟨accs, secret, rfl, rfl⟩ := hc
  obtain ⟨he, hch, -⟩ := h
  cases he with
  | @claimReceipt _ _ b₀ b' r bump c' c hb hr hs _ _ _ hcard hfree hown _ hok =>
    obtain ⟨-, -, hstamp, _, _, _, -, -, rfl⟩ := claimReceiptHandler_spec (hw.business_ne_default hb) hown hok
    obtain ⟨-, _, _, _, _, -, -, -, hst, -, rfl⟩ := stampCard_eq_ok hstamp
    have hafter := hch.record? (List.mem_cons_of_mem _ (List.mem_cons_of_mem _ List.mem_cons_self))
    have hbefore : (claimedCard accs bump b₀ c).stamps.toNat = s.stampsAt accs.card ∧
        (claimedCard accs bump b₀ c).business = accs.business ∧
        (claimedCard accs bump b₀ c).customer = accs.customer := by
      cases c with
      | none => exact ⟨(State.stampsAt_of_not_inUse (hfree rfl)).symm, rfl, rfl⟩
      | some x => exact ⟨(State.stampsAt_of_record hcard).symm, hown x rfl⟩
    refine ⟨accs, secret, _, rfl, hs, State.cardFace?_eq_some.mpr (State.face?_of_record? hafter),
      hbefore.2.1, hbefore.2.2, by rw [← hbefore.1]; exact hst, fun a ha => ?_⟩
    -- the shop and the receipt are no cards, before or after
    by_cases hshop : a = accs.business
    · subst hshop
      rw [State.cardFace?, State.cardFace?, State.face?_of_record? hb,
        State.face?_of_record? (hch.record? List.mem_cons_self)]
      rfl
    by_cases hreceipt : a = accs.receipt
    · subst hreceipt
      have hgone := hch.closed _ (List.mem_cons_of_mem _ List.mem_cons_self) rfl
      rw [State.cardFace?, State.cardFace?, State.face?_of_record? hr, State.face?, hgone]
      rfl
    · rw [State.cardFace?, State.cardFace?, State.face?_of_lookup
        (hch.frame a (by simp [hshop, hreceipt, ha]))]

/-! ## One receipt, one claim -/

/-- The step takes the receipt at `a` away: it claims it or reclaims it. -/
def Action.takes (a : Address) (action : Action) : Prop :=
  (∃ accs secret, action = .program (.claimReceipt accs secret) ∧ accs.receipt = a) ∨
    ∃ accs, action = .program (.reclaimExpiredReceipt accs) ∧ accs.receipt = a

theorem Step.taken (hw : s.WellPlaced) (h : Step P s c s' cs calls ps) (ht : c.action.takes a) :
    s'.receipt? a = none := by
  obtain ⟨tx, action⟩ := c
  rcases ht with ⟨accs, secret, rfl, rfl⟩ | ⟨accs, rfl, rfl⟩
  · obtain ⟨_, _, _, _, -, -, -, -, -, -, -, -, -, hgone⟩ := h.claimReceipt hw
    exact hgone
  · obtain ⟨he, hc, -⟩ := h
    cases he with
    | reclaimExpiredReceipt => rw [State.receipt?, hc.record? List.mem_cons_self]; rfl

/-- In the history `hist`, newest first, the step at `i` claims at the shop `b` what the earlier step at `j`
issued: the authority of `b` signed the issue, the claim reveals a secret with the issued hash, in time, and
no step between them took the receipt. -/
structure ClaimsIssued (P : Platform) (hist : History) (b : Address) (i j : Nat) (claim issue : Taken)
    (accs : ClaimReceipt) (secret : Bytes32) (issuer : IssueReceipt) (r : Receipt) : Prop where
  claimed : hist[i]? = some claim
  issued : hist[j]? = some issue
  earlier : i < j
  claiming : claim.label.action = .program (.claimReceipt accs secret)
  issuing : ∃ band, issue.label.action = .program (.issueReceipt issuer (P.keccak secret) band)
  shop : accs.business = b ∧ issuer.business = b
  authority : issuer.authority ∈ issue.label.tx.signers ∧
    ∃ x, issue.pre.business? b = some x ∧ x.authority = issuer.authority
  receipt : accs.receipt = issuer.receipt ∧ issue.post.receipt? issuer.receipt = some r
  inTime : claim.label.tx.now ≤ r.expiresAt
  untaken : ∀ k st, i < k → k < j → hist[k]? = some st → ¬st.label.action.takes issuer.receipt

/-- Some issue of the history is claimed by the step at `i`. -/
def ClaimOf (P : Platform) (hist : History) (b : Address) (i j : Nat) : Prop :=
  ∃ claim issue accs secret issuer r, ClaimsIssued P hist b i j claim issue accs secret issuer r

/-- Every claim is of a receipt that was issued, and not taken in between. -/
theorem Run.exists_issue (h : Run P start hist s) (hw : start.WellPlaced) (h0 : ∀ a, start.receipt? a = none)
    {i : Nat} {st : Taken} (hi : hist[i]? = some st) (hc : st.label.action.claimsAt b) :
    ∃ j, ClaimOf P hist b i j := by
  obtain ⟨hlt, hget⟩ := List.getElem?_eq_some_iff.mp hi
  have hsplit : hist = hist.take i ++ st :: hist.drop (i + 1) := by
    rw [← hget, ← List.drop_eq_getElem_cons hlt, List.take_append_drop]
  rw [hsplit] at h
  obtain ⟨he, hn, -⟩ := Runs.Run.split h
  have hws := Run.wellPlaced he hw
  obtain ⟨_, _, _, hst⟩ := hn.step hws
  obtain ⟨pre, ⟨tx, action⟩, post⟩ := st
  obtain ⟨accs, secret, rfl, rfl⟩ := hc
  obtain ⟨_, r, _, _, -, hr, -, -, ⟨_, hsecret⟩, hexp, -⟩ := hst.claimReceipt hws
  -- the step that made this very receipt, and since when it has been there
  obtain ⟨mid, is, older, hdrop, hpre, hpost, hmid⟩ := Runs.Run.exists_last_step_becoming
    (P := fun s => s.receipt? accs.receipt = some r) he (by rw [h0]; exact (by simp)) hr
  rw [hdrop] at he
  have hwm := Run.wellPlaced (Runs.Run.split he).1 hw
  obtain ⟨_, _, _, his⟩ := (Runs.Run.split he).2.1.step hwm
  rcases his.receipt hwm accs.receipt with hsame | hch
  · exact absurd (hsame.symm.trans hpost) hpre
  rw [hpost] at hch
  obtain ⟨ipre, ⟨itx, iaction⟩, ipost⟩ := is
  generalize ipre.receipt? accs.receipt = before at hch
  cases hch with
  | @issued issuer secretHash band b₀ b' _ _ hadr hshop hauth hsig hf hok =>
    have hseeds := (findProgramAddress_eq hf).symm.trans (findProgramAddress_eq hsecret)
    rw [Address.receipt.injEq] at hseeds
    obtain ⟨hbus, rfl, -⟩ := hseeds
    have hlen : (hist.take i).length = i := List.length_take_of_le (Nat.le_of_lt hlt)
    have hj : hist[i + 1 + mid.length]? = some
      ⟨ipre, ⟨itx, .program (.issueReceipt issuer (P.keccak secret) band)⟩,
        ipost⟩ := by
      rw [← List.getElem?_drop, hdrop, List.getElem?_append_right (Nat.le_refl _), Nat.sub_self]
      rfl
    refine ⟨i + 1 + mid.length, _, _, accs, secret, issuer, r, hi, hj,
      by omega, rfl, ⟨band, rfl⟩, ⟨rfl, hbus⟩,
      ⟨hsig, b₀, hbus ▸ hshop, hauth⟩, ⟨hadr.symm, hadr ▸ hpost⟩, hexp, ?_⟩
    intro k st hik hkj hk htakes
    have hmem : st ∈ mid := by
      obtain ⟨m, rfl⟩ := Nat.exists_eq_add_of_lt hik
      rw [show i + m + 1 = i + 1 + m by omega, ← List.getElem?_drop, hdrop,
        List.getElem?_append_left (by omega)] at hk
      exact List.mem_of_getElem? hk
    have hafter := (hmid st hmem).2
    obtain ⟨_, _, -, hbefore, hnext, -⟩ := Runs.Run.of_mem (Runs.Run.split he).2.2 hmem
    have hwb := Run.wellPlaced hbefore (his.wellPlaced hwm)
    obtain ⟨_, _, _, hstep⟩ := hnext.step hwb
    rw [← hadr, hstep.taken hwb htakes] at hafter
    cases hafter

/-- Two claims of one issue are one claim. -/
theorem ClaimOf.injective {i i' j : Nat} (h : ClaimOf P hist b i j) (h' : ClaimOf P hist b i' j) :
    i = i' := by
  -- of two claims of one receipt the older one would have taken it before the newer one
  have key : ∀ {i i' : Nat}, ClaimOf P hist b i j → ClaimOf P hist b i' j → ¬i < i' := by
    intro i i' hex
    obtain ⟨_, issue, accs, secret, issuer, _, hc⟩ := hex
    intro hex'
    obtain ⟨claim', issue', accs', secret', issuer', _, hc'⟩ := hex'
    intro hlt
    refine hc.untaken i' claim' hlt hc'.earlier hc'.claimed ?_
    have hissue := hc.issued.symm.trans hc'.issued
    rw [Option.some.injEq] at hissue
    subst hissue
    obtain ⟨_, h1⟩ := hc.issuing
    obtain ⟨_, h2⟩ := hc'.issuing
    rw [h1, Action.program.injEq, Instruction.issueReceipt.injEq] at h2
    obtain ⟨rfl, -⟩ := h2
    exact .inl ⟨accs', secret', hc'.claiming, hc'.receipt.1⟩
  have h1 := key h h'
  have h2 := key h' h
  omega

/-- **Stamps are unforgeable and receipts single-use.** -/
theorem stamps_from_receipts (h : Run P start hist s) (hw : start.WellPlaced)
    (h0 : ∀ a, start.receipt? a = none)
    (b : Address) :
    (∃ issueOf : Nat → Nat,
      (∀ i st, hist[i]? = some st → st.label.action.claimsAt b → ClaimOf P hist b i (issueOf i)) ∧
      Set.InjOn issueOf {i | ∃ st, hist[i]? = some st ∧ st.label.action.claimsAt b}) ∧
    (∀ st ∈ hist, st.label.action.claimsAt b → OneStamp b st) ∧
    ∀ st ∈ hist, (∀ accs secret, st.label.action ≠ .program (.claimReceipt accs secret)) →
      st.post.allStamps ≤ st.pre.allStamps := by
  have hsteps : ∀ st ∈ hist, st.pre.WellPlaced ∧ ∃ cs calls ps,
    Step P st.pre st.label st.post cs calls ps := by
    refine h.forall_steps fun hbefore hn => ?_
    exact ⟨Run.wellPlaced hbefore hw, hn.step (Run.wellPlaced hbefore hw)⟩
  refine ⟨?_, fun st hst hc => ?_, fun st hst hno => ?_⟩
  · have hex : ∀ i, ∃ j, ∀ st, hist[i]? = some st → st.label.action.claimsAt b → ClaimOf P hist b i j := by
      intro i
      by_cases hc : ∃ st, hist[i]? = some st ∧ st.label.action.claimsAt b
      · obtain ⟨st, hi, hst⟩ := hc
        obtain ⟨j, hj⟩ := h.exists_issue hw h0 hi hst
        exact ⟨j, fun _ _ _ => hj⟩
      · exact ⟨0, fun st hi hst => absurd ⟨st, hi, hst⟩ hc⟩
    choose issueOf hissue using hex
    refine ⟨issueOf, hissue, ?_⟩
    intro i hex'
    obtain ⟨st, hi, hst⟩ := hex'
    intro i' hex''
    obtain ⟨st', hi', hst'⟩ := hex''
    intro heq
    exact (hissue i st hi hst).injective (heq ▸ hissue i' st' hi' hst')
  · obtain ⟨hws, _, _, _, hstep⟩ := hsteps st hst
    exact hstep.one_stamp hws hc
  · obtain ⟨-, _, _, _, hstep⟩ := hsteps st hst
    exact hstep.allStamps_le hno

theorem stamps_from_receipts_one : ∃ hist s, Run Sample.platform Sample.start hist s ∧ hist.length = 3 ∧
    ∃ i j, ClaimOf Sample.platform hist Sample.shop i j := by
  obtain ⟨hist, s, hrun, hcalls, -⟩ := Leads.run (P := Sample.platform) (s := Sample.start)
    (l := [Sample.register 1000 1 0, Sample.issue 1010 7, Sample.claim 1020 9 7]) (p := fun _ => true)
    (by decide +kernel)
  obtain ⟨st, rest, rfl, hlabel, -⟩ := List.map_eq_cons_iff.mp hcalls
  have hlen := congrArg List.length hcalls
  rw [List.length_map] at hlen
  obtain ⟨⟨issueOf, hissue, -⟩, -⟩ := stamps_from_receipts hrun Sample.start_empty.wellPlaced
    (fun a => by rw [State.receipt?, State.record?, Sample.start_empty.program]; rfl) Sample.shop
  exact ⟨_, s, hrun, hlen, 0, issueOf 0, hissue 0 st rfl (by rw [hlabel]; exact ⟨_, _, rfl, rfl⟩)⟩

end Passdari
