/-
The owner in a voucher's record. It is a hint: a wallet can move the token
without this program. But the program writes it whenever it hands the voucher
over, so as long as no wallet has moved the token by itself since then, the
one on record is the one who holds it.
-/
import Passdari.Books.Delivery
import Passdari.Books.Redemption

namespace Passdari

open Token2022

/-- To whom a call hands the voucher at `V`, if it does. -/
def Call.handsTo (V : Address) (c : Call) : Option Address :=
  match c.action with
  | .program (.mintVoucher accs _ _) => if accs.voucher = V then some accs.customer else none
  | .program (.transferVoucher accs) => if accs.voucher = V then some accs.newOwner else none
  | _ => none

/-- To whom the program handed the voucher last. -/
def lastHanded (V : Address) (hist : History) : Option Address := hist.findSome? fun st => st.label.handsTo V

/-- A wallet calls the token program by itself, and someone who had a unit of the mint in an account has it
there no more. -/
def Taken.MovesToken (M : Address) (st : Taken) : Prop :=
  (∃ op cpi, st.label.action = .wallet (.token op cpi)) ∧
    ∃ X owner, st.pre.tokens.Holds X M owner ∧ ¬st.post.tokens.Holds X M owner

/-- A wallet has moved the token by itself since the program handed the voucher over. -/
def MovedSince (V M : Address) : History → Prop
  | [] => False
  | st :: hist => st.label.handsTo V = none ∧ (Taken.MovesToken M st ∨ MovedSince V M hist)

variable {P : Platform} {s s' start : State} {hist : History} {V X : Address} {v : Voucher} {tx : Tx}
  {c : Call} {cs : List Change} {calls : List TokenCall} {ps : List Payment}

/-! ## Handing over -/

/-- A receiving account that `transfer_voucher` finds in use is the new owner's, for the mint. -/
theorem transferVoucher_receives {accs : TransferVoucher} (h : transferVoucher P tx accs s = .ok s')
    (hused : s.InUse accs.toToken) : ∃ y, s.tokens.accounts.lookup accs.toToken = some y ∧
      y.mint = accs.mint ∧ y.owner = accs.newOwner := by
  simp only [transferVoucher, Except.bind_eq_ok] at h
  obtain ⟨_, -, _, -, _, -, _, -, _, -, _, -, s₁, hrecv, -⟩ := h
  rw [receivingToken, if_pos hused] at hrecv
  simp only [Except.bind_eq_ok, loadToken_eq_ok, check_eq_ok, exists_const] at hrecv
  obtain ⟨y, hy, hm, ho, -⟩ := hrecv
  exact ⟨y, hy, hm, ho⟩

theorem Next.handed {accs : TransferVoucher} (hw : s.WellPlaced)
    (h : Next P s ⟨tx, .program (.transferVoucher accs)⟩ s') :
    accs.toToken = .ata accs.newOwner accs.mint ∧ s'.tokens.Holds accs.toToken accs.mint accs.newOwner := by
  obtain ⟨cs, calls, ps, heff, -, hrun, -⟩ := h.step hw
  cases heff with
  | @transferVoucher _ _ m x opens _ _ _ _ _ _ _ hx hone _ hxm _ _ hat hopens =>
    obtain ⟨t₁, hopening, hrest⟩ := run_append_eq_ok.mp hrun
    obtain ⟨t₂, hmove, hclose⟩ := run_cons_eq_ok.mp hrest
    -- whether it was opened now or before, and also when it is the account the token comes from
    obtain ⟨y, hy, hym, hyo, hself⟩ : ∃ y, t₁.accounts.lookup accs.toToken = some y ∧ y.mint = accs.mint ∧
        y.owner = accs.newOwner ∧ (accs.fromToken = accs.toToken → 0 < y.amount) := by
      cases opens with
      | true =>
        rw [if_pos rfl] at hopening
        have hfree := hopens.mp rfl
        have hopened := run_singleton_eq_ok.mp hopening
        cases hopened with
        | initializeAccount =>
          refine ⟨_, Store.lookup_insert_self _ _ _, rfl, rfl, fun he => ?_⟩
          exact absurd (State.inUse_iff.mpr (.inr (.inl (Tokens.inUse_of_account (he ▸ hx))))) hfree
      | false =>
        have hused : s.InUse accs.toToken := by
          by_contra hno
          cases hopens.mpr hno
        obtain ⟨y, hy, hm, ho⟩ := transferVoucher_receives h.2 hused
        cases hopening
        refine ⟨y, hy, hm, ho, fun he => ?_⟩
        rw [← he, hx, Option.some.injEq] at hy
        subst hy
        omega
    have hheld := hyo ▸ hmove.delivered hy hym Nat.one_pos hself
    refine ⟨hat, ?_⟩
    -- closing the giver's account takes from no other
    by_contra hlost
    obtain ⟨k, hk, htakes⟩ := run_lost hclose hheld hlost
    cases hwho : fromTokenCloser tx accs x with
    | none =>
      rw [hwho] at hk
      cases hk
    | some who =>
      rw [hwho, Option.elim_some, List.mem_singleton] at hk
      subst hk
      simp [Op.TakesFrom] at htakes

/-! ## In between -/

/-- A voucher that is not handed over, and whose token no wallet moves, stays with who holds it. -/
theorem Step.holder_kept (ht : s.VoucherTokens P) (hn : s.Numbered P)
    (h : Step P s c s' cs calls ps) (hv : s.voucher? V = some v) (hv' : s'.voucher? V = some v)
    (hhands : c.handsTo V = none) (hstays : ¬Taken.MovesToken v.mint ⟨s, c, s'⟩) {owner : Address}
    (hheld : s.tokens.Holds X v.mint owner) : s'.tokens.Holds X v.mint owner := by
  by_contra hlost
  obtain ⟨tx, action⟩ := c
  obtain ⟨accs, rfl, -, hV⟩ | ⟨accs, rfl, -, rfl⟩ | ⟨accs, rfl, rfl⟩ | hwallet :=
    h.token_taken ht hn hv hheld hlost
  · simp only [Call.handsTo, if_pos hV, reduceCtorEq] at hhands
  · obtain ⟨b, v₁, _, -, -, -, -, -, -, hgone, -⟩ := h.redeemVoucher
    rw [hv'] at hgone
    cases hgone
  · obtain ⟨b, v₁, -, -, -, -, hgone, -⟩ := h.closeExpiredVoucher
    rw [hv'] at hgone
    cases hgone
  · exact hstays ⟨hwallet, X, owner, hheld, hlost⟩

/-! ## Runs -/

theorem lastHanded_cons_some {a : Address} (h : c.handsTo V = some a) :
    lastHanded V (⟨s, c, s'⟩ :: hist) = some a := by
  rw [lastHanded, List.findSome?_cons, h]

theorem lastHanded_cons_none (h : c.handsTo V = none) :
    lastHanded V (⟨s, c, s'⟩ :: hist) = lastHanded V hist := by
  rw [lastHanded, List.findSome?_cons, h]
  rfl

/-- Handing a voucher over puts the one who gets it on record, and its token in their account. -/
theorem Next.hands (hrun : Run P start hist s) (hs : start.Empty) (h : Next P s c s')
    (hv : s'.voucher? V = some v) {a : Address} (hhands : c.handsTo V = some a) :
    v.owner = a ∧ s'.tokens.Holds (.ata v.owner v.mint) v.mint v.owner := by
  have hw := hrun.wellPlaced hs.wellPlaced
  obtain ⟨tx, action⟩ := c
  unfold Call.handsTo at hhands
  split at hhands
  · next accs voucherId uri hact =>
    obtain ⟨hV, ha⟩ := Option.ite_none_right_eq_some.mp hhands
    obtain rfl : action = _ := hact
    subst hV
    obtain ⟨v', m, hv', howner, -, hmint, -, -, -, hi⟩ := hrun.secured_minted hs h
    rw [hv, Option.some.injEq] at hv'
    subst hv'
    obtain ⟨cs, calls, ps, hst⟩ := h.step hw
    have heffect := hst.effect
    cases heffect with
    | mintVoucher _ _ _ _ _ _ _ _ hat =>
      rw [howner, hmint, ← hat]
      exact ⟨Option.some.inj ha, _, hi.held.account, rfl, rfl, hi.held.pos⟩
  · next accs hact =>
    obtain ⟨hV, ha⟩ := Option.ite_none_right_eq_some.mp hhands
    obtain rfl : action = _ := hact
    subst hV
    obtain ⟨hat, hheld⟩ := Next.handed hw h
    obtain ⟨cs, calls, ps, hst⟩ := h.step hw
    have heffect := hst.effect
    have hch := hst.changed
    cases heffect with
    | transferVoucher _ _ _ _ _ hvm =>
      have hafter := State.voucher?_eq_some.mpr (hch.record? List.mem_cons_self)
      rw [hv, Option.some.injEq] at hafter
      subst hafter
      rw [hat] at hheld
      refine ⟨Option.some.inj ha, ?_⟩
      rw [hvm]
      exact hheld
  · cases hhands

theorem Step.voucher_unhanded (h : Step P s c s' cs calls ps) (hv : s'.voucher? V = some v)
    (hhands : c.handsTo V = none) : s.voucher? V = some v := by
  rcases h.voucher V with hsame | hch
  · exact hsame.symm.trans hv
  obtain ⟨tx, action⟩ := c
  rw [hv] at hch
  generalize s.voucher? V = before at hch
  cases hch with
  | minted hV | handed hV =>
    simp only [Call.handsTo, if_pos hV, reduceCtorEq] at hhands

theorem Run.hinted (h : Run P start hist s) (hs : start.Empty) : ∀ {V v}, s.voucher? V = some v →
    lastHanded V hist = some v.owner ∧
      (¬MovedSince V v.mint hist → s.tokens.Holds (.ata v.owner v.mint) v.mint v.owner) := by
  induction h with
  | nil =>
    intro V v hv
    rw [State.voucher?, State.record?, hs.program] at hv
    cases hv
  | @step hist s c s' hrun hnext ih =>
    intro V v hv
    have hw := Run.wellPlaced hrun hs.wellPlaced
    cases hhands : c.handsTo V with
    | some a =>
      obtain ⟨howner, hheld⟩ := Next.hands hrun hs hnext hv hhands
      exact ⟨by rw [lastHanded_cons_some hhands, howner], fun _ => hheld⟩
    | none =>
      obtain ⟨cs, calls, ps, hst⟩ := hnext.step hw
      have hv₀ := hst.voucher_unhanded hv hhands
      obtain ⟨hlast, hheld⟩ := ih hv₀
      refine ⟨(lastHanded_cons_none hhands).trans hlast, fun hstays => ?_⟩
      refine hst.holder_kept (Run.voucherTokens hrun hs) (Run.numbered hrun hs) hv₀ hv hhands
        (fun hmoves => hstays ⟨hhands, .inl hmoves⟩) (hheld fun hmoved => hstays ⟨hhands, .inr hmoved⟩)

/-- **The owner on record is right until a wallet moves the token by itself.** In every reachable state the
owner in the record of a live voucher is the one the program handed it to last, and as long as no wallet has
taken the token from them by itself since, they hold it, in their associated account. -/
theorem owner_hint_exact (h : Run P start hist s) (hs : start.Empty) (hv : s.voucher? V = some v) :
    lastHanded V hist = some v.owner ∧
      (¬MovedSince V v.mint hist → s.tokens.Holds (.ata v.owner v.mint) v.mint v.owner) :=
  h.hinted hs hv

/-- A voucher given to the customer `key 8`. -/
theorem owner_hint_exact_given : ∃ hist s v, Run Sample.platform Sample.start hist s ∧
    s.voucher? (Sample.voucher 0) = some v ∧ v.owner = Sample.key 8 ∧
    s.tokens.Holds (.ata (Sample.key 8) v.mint) v.mint (Sample.key 8) := by
  obtain ⟨hist, s, hrun, hcalls, hp⟩ := Leads.run (P := Sample.platform) (s := Sample.start)
    (l := [Sample.register 1000 1 0, Sample.issue 1010 7, Sample.claim 1020 9 7, Sample.cashIn 1030 9 0,
      Sample.call 1040 [Sample.key 9, Sample.key 2] (.transferVoucher ⟨Sample.voucher 0, Sample.voucherMint 0,
        Sample.voucherToken 9 0, Sample.voucherToken 8 0, Sample.key 8, Sample.key 9, Sample.key 2,
        Sample.key 2⟩)])
    (p := fun s => (s.voucher? (Sample.voucher 0)).any fun v => v.owner = Sample.key 8) (by decide +kernel)
  obtain ⟨v, hv, howner⟩ := (Option.any_eq_true ..).mp hp
  have howner : v.owner = Sample.key 8 := of_decide_eq_true howner
  obtain ⟨-, hheld⟩ := owner_hint_exact hrun Sample.start_empty hv
  have hnot : ¬MovedSince (Sample.voucher 0) v.mint hist := by
    cases hist with
    | nil => cases hcalls
    | cons st rest =>
      intro hmoved
      have hlabel : st.label = _ := List.head_eq_of_cons_eq hcalls
      obtain ⟨hhands, -⟩ := hmoved
      rw [hlabel] at hhands
      revert hhands
      decide
  refine ⟨hist, s, v, hrun, hv, howner, ?_⟩
  rw [← howner]
  exact hheld hnot

end Passdari
