/-
Where lamports stay. They leave an address only in a call that it signs and
that charges it, or when the account at it is closed: a customer whom others
relay for never pays, and whatever was paid for an account is on it for as
long as it is there. Nothing of this is said of open token accounts, whose
owners can have the token program pay out what is on them above their rent.
-/
import Passdari.Books.CloseRights
import Passdari.Books.Refunds

namespace Passdari

open Wire Token2022

variable {P : Platform} {tx : Tx} {s s' start : State} {hist later : History} {c : Call} {cs : List Change}
  {calls : List TokenCall} {ps : List Payment} {action : Action} {a w : Address} {p : Purse} {q : Payment}

/-! ## What a payment takes -/

/-- The payment takes lamports from `a`. -/
def Payment.Takes (q : Payment) (p : Purse) (a : Address) : Prop :=
  match q with
  | .send source _ amount => source = a ∧ amount ≠ 0
  | .topUp _ payer b rent => payer = a ∧ rent - p.lamports b ≠ 0
  | .empty _ b _ => b = a

theorem Purse.le_move {kind : MoveKind} {source dest : Address} {n : Nat} (h : source ≠ a) :
    p.lamports a ≤ (p.move kind source dest n).lamports a := by
  simp only [Purse.move, Function.update_apply, if_neg (Ne.symm h)]
  split
  · next hd =>
    subst hd
    rw [if_neg (Ne.symm h)]
    exact Nat.le_add_right _ _
  · exact Nat.le_refl _

theorem Purse.le_pay (h : ¬q.Takes p a) : p.lamports a ≤ (p.pay q).lamports a := by
  cases q with
  | send source dest amount =>
    simp only [Purse.pay]
    split
    · exact Nat.le_refl _
    · next h0 => exact Purse.le_move fun he => h ⟨he, h0⟩
  | topUp kind payer b rent =>
    simp only [Purse.pay]
    split
    · exact Nat.le_refl _
    · next h0 => exact Purse.le_move fun he => h ⟨he, h0⟩
  | empty kind b dest => exact Purse.le_move h

/-- Where there is less after some payments, one of them took it. -/
theorem Purse.exists_taking : ∀ {ps : List Payment} {p : Purse}, (p.settle ps).lamports a < p.lamports a →
    ∃ before q after, ps = before ++ q :: after ∧ q.Takes (p.settle before) a
  | [], _, h => absurd h (Nat.lt_irrefl _)
  | q :: ps, p, h => by
    by_cases hq : q.Takes p a
    · exact ⟨[], q, ps, rfl, hq⟩
    · have hlt : ((p.pay q).settle ps).lamports a < (p.pay q).lamports a :=
        Nat.lt_of_lt_of_le h (Purse.le_pay hq)
      obtain ⟨before, q', after, rfl, htakes⟩ := Purse.exists_taking hlt
      exact ⟨q :: before, q', after, rfl, htakes⟩

theorem Purse.taking_one (h : (p.settle [q]).lamports a < p.lamports a) : q.Takes p a := by
  by_contra hno
  exact Nat.not_lt.mpr (Purse.le_pay hno) h

/-! ## Whom a call charges -/

/-- Whom the call charges: the relayer of an instruction that opens an account or brings one up to date, and
a wallet that moves lamports or opens an account itself. -/
inductive Charges : Action → Address → Prop
  | opens {action payer b} : PaidFor action payer b → Charges action payer
  | grows {action payer b} : Grows action payer b → Charges action payer
  | pay {source dest amount} : Charges (.wallet (.pay source dest amount)) source
  | openMint {payer mint rent m} : Charges (.wallet (.openMint payer mint rent m)) payer
  | openToken {payer account mint owner io rent} :
      Charges (.wallet (.openToken payer account mint owner io rent)) payer

/-- **Lamports leave an address** in a call that it signs and that charges it, or with the account there. -/
theorem Step.lamports_left (ho : s.OneOwner) (h : Step P s c s' cs calls ps)
    (hlt : s'.lamports a < s.lamports a) :
    (Charges c.action a ∧ a ∈ c.tx.signers) ∨ s.Held a ∧ ¬s'.Held a := by
  have hpurse : s'.lamports = (s.purse.settle ps).lamports := congrArg Purse.lamports h.purse
  rw [hpurse] at hlt
  obtain ⟨before, q, after, hps, htakes⟩ := Purse.exists_taking hlt
  obtain ⟨tx, action⟩ := c
  cases action with
  | program i =>
    obtain ⟨tops, closing, w, rfl, -⟩ := h.effect.billed ho
    have hq : q ∈ bill tops closing w := by
      rw [hps]
      exact List.mem_append_right _ List.mem_cons_self
    rcases List.mem_append.mp hq with htop | hclose
    · obtain ⟨t, ht, rfl⟩ := List.mem_map.mp htop
      obtain ⟨rfl, -⟩ := htakes
      rcases h.effect.rent ht with hopen | ⟨hgrow, hs⟩
      · exact .inl ⟨.opens hopen.paidFor, hopen.signed⟩
      · exact .inl ⟨.grows hgrow, hs⟩
    · obtain ⟨b, hb, rfl⟩ := List.mem_map.mp hclose
      obtain rfl : b = a := htakes
      obtain ⟨hthere, hgone, -⟩ := h.refunded ho rfl hq
      exact .inr ⟨hthere, hgone⟩
  | wallet =>
    have he := h.effect
    cases he with
    | pay hs =>
      obtain ⟨rfl, h0⟩ := Purse.taking_one hlt
      exact .inl ⟨.pay, (hs.resolve_right h0).1⟩
    | openMint _ _ hs =>
      obtain ⟨rfl, h0⟩ := Purse.taking_one hlt
      exact .inl ⟨.openMint, hs.resolve_right h0⟩
    | openToken _ _ hs =>
      obtain ⟨rfl, h0⟩ := Purse.taking_one hlt
      exact .inl ⟨.openToken, hs.resolve_right h0⟩
    | @closeToken account dest authority cpi =>
      obtain rfl : account = a := Purse.taking_one hlt
      obtain ⟨hthere, hgone, -⟩ := (run_singleton_eq_ok.mp h.tokens).close_gone ho.oneKind
      refine .inr ⟨.inr hthere, fun hor => ?_⟩
      rcases hor with hp | ht
      · rw [h.changed.frame account (by simp), ho.program account hthere] at hp
        cases hp
      · exact hgone ht
    | handOver | token => exact absurd hlt (Nat.lt_irrefl _)

/-- The program opens no mint or token account at an address that can sign. -/
theorem Effect.opens_derived {i : Instruction} (h : Effect P tx s (.program i) cs calls ps) {k : TokenCall}
    (hk : k ∈ calls) (hop : k.op.opens = some a) : a.canSign = false := by
  have hmakes := h.makes rfl k hk
  generalize k.op = op at hmakes hop
  cases hmakes with
  | nftMint =>
    cases hop
    cases h with
    | mintCardNft _ _ _ _ _ _ _ hf =>
      rw [findProgramAddress_eq hf]
      rfl
  | mint =>
    cases hop
    cases h with
    | mintVoucher _ _ _ _ _ _ hf =>
      rw [findProgramAddress_eq hf]
      rfl
  | nftAccount =>
    cases hop
    cases h with
    | mintCardNft _ _ _ _ _ _ _ _ _ _ hat =>
      rw [hat]
      rfl
  | account =>
    cases hop
    cases h with
    | mintVoucher _ _ _ _ _ _ _ _ hat =>
      rw [hat]
      rfl
  | receiver =>
    cases hop
    cases h with
    | transferVoucher _ _ _ _ _ _ _ _ _ _ _ _ _ hat =>
      rw [hat]
      rfl
  | _ => cases hop

/-- No account comes to a key that signs for instructions of the program only. -/
theorem Step.unheld (hw : s.WellPlaced) (h : Step P s c s' cs calls ps) (ha : a.canSign = true)
    (hfree : ¬s.Held a) (hsigns : a ∈ c.tx.signers → ∃ i, c.action = .program i) : ¬s'.Held a := by
  obtain ⟨key, rfl⟩ := Address.exists_key ha
  intro hor
  rcases hor with hp | ht
  · obtain ⟨data, hdata⟩ := Option.isSome_iff_exists.mp hp
    have := (h.wellPlaced hw).isRecord hdata
    cases this
  · refine run_invariant (fun t => ¬t.InUse (Address.key key))
      (fun k hk {_ _} hi hd => hd.not_inUse hi fun hop => ?_) h.tokens (fun ht => hfree (.inr ht)) ht
    obtain ⟨tx, action⟩ := c
    cases action with
    | program i => cases ha.symm.trans (h.effect.opens_derived hk hop)
    | wallet op =>
      have hunsigned : Address.key key ∉ tx.signers := fun hs => by
        obtain ⟨i, hact⟩ := hsigns hs
        cases hact
      rcases Op.opens_eq_some hop with ⟨m, hinit⟩ | ⟨mint, owner, io, hinit⟩
      · rcases h.effect.opens_mint k hk _ hinit with ⟨hM, -⟩ | ⟨hM, -⟩ | hs
        · cases hM
        · cases hM
        · exact hunsigned hs
      · rcases h.effect.opens_account k hk _ _ _ _ hinit with ⟨hat, -⟩ | ⟨hs, -⟩
        · cases hat
        · exact hunsigned hs

/-! ## Over a whole run -/

theorem Run.lamports_left (h : Run P start hist s) (hw : start.WellPlaced) (ho : start.OneOwner)
    (hlater : Run P s later s') (hlt : s'.lamports a < s.lamports a) :
    ∃ st ∈ later, (Charges st.label.action a ∧ a ∈ st.label.tx.signers) ∨ st.pre.Held a ∧
    ¬st.post.Held a := by
  induction hlater with
  | nil => exact absurd hlt (Nat.lt_irrefl _)
  | @step later mid l s' hmid hnext ih =>
    have hall := Runs.Run.append h hmid
    obtain ⟨_, _, _, hst⟩ := hnext.step (Run.wellPlaced hall hw)
    by_cases hle : s'.lamports a < mid.lamports a
    · exact ⟨_, List.mem_cons_self, hst.lamports_left (Run.oneOwner hall hw ho) hle⟩
    · obtain ⟨st, hst, hleft⟩ := ih (Nat.lt_of_le_of_lt (Nat.le_of_not_lt hle) hlt)
      exact ⟨st, List.mem_cons_of_mem _ hst, hleft⟩

/-- A key with no account at it, which signs for nothing but instructions that charge somebody else. -/
structure Guest (c : Call) (w : Address) : Prop where
  program : w ∈ c.tx.signers → ∃ i, c.action = .program i
  free : w ∈ c.tx.signers → ¬Charges c.action w

theorem Run.guest_keeps (h : Run P start hist s) (hw : start.WellPlaced) (ho : start.OneOwner)
    (hlater : Run P s later s') (ha : w.canSign = true) (hfree : ¬s.Held w)
    (hguest : ∀ st ∈ later, Guest st.label w) : ¬s'.Held w ∧ s.lamports w ≤ s'.lamports w := by
  induction hlater with
  | nil => exact ⟨hfree, Nat.le_refl _⟩
  | @step later mid l s' hmid hnext ih =>
    obtain ⟨hfree₁, hle⟩ := ih fun st hst => hguest st (List.mem_cons_of_mem _ hst)
    have hall := Runs.Run.append h hmid
    have hg := hguest _ List.mem_cons_self
    obtain ⟨_, _, _, hst⟩ := hnext.step (Run.wellPlaced hall hw)
    refine ⟨hst.unheld (Run.wellPlaced hall hw) ha hfree₁ hg.program, Nat.le_trans hle ?_⟩
    by_contra hlt
    rcases hst.lamports_left (Run.oneOwner hall hw ho) (Nat.lt_of_not_le hlt) with ⟨hcharged, hs⟩ | ⟨hheld, -⟩
    · exact hg.free hs hcharged
    · exact hfree₁ hheld

/-- `WithdrawExcessLamports`, which no call here is, could take lamports from `a`: it is an open token
account, or a mint that can sign itself or whose authority can. -/
def State.Withdrawable (s : State) (a : Address) : Prop :=
  (∃ x, s.tokens.accounts.lookup a = some x) ∨
    ∃ m, s.tokens.mints.lookup a = some m ∧
      (a.canSign = true ∨ ∃ auth, m.mintAuthority = some auth ∧ auth.canSign = true)

/-- **Lamports leave an address**, but that of an open token account or of somebody's own mint, in a call that
it signs and that charges it, or when the account at it is closed. So whoever only signs what others relay
never pays, and what is on an account of the program, or on the mint of a voucher or an NFT, stays on it until
it is closed. -/
theorem lamports_leave (h : Run P start hist s) (hw : start.WellPlaced) (ho : start.OneOwner)
    (hlater : Run P s later s') :
    (∀ a, (∀ st ∈ later, ¬st.pre.Withdrawable a) → s'.lamports a < s.lamports a →
      ∃ st ∈ later, (Charges st.label.action a ∧ a ∈ st.label.tx.signers) ∨ st.pre.Held a ∧ ¬st.post.Held a) ∧
    (∀ w, w.canSign = true → ¬s.Held w → (∀ st ∈ later, Guest st.label w) → s.lamports w ≤ s'.lamports w) ∧
    ∀ a, a.canSign = false → (∀ st ∈ later, ¬st.pre.Withdrawable a) →
      (∀ st ∈ later, st.pre.Held a → st.post.Held a) → s.lamports a ≤ s'.lamports a := by
  refine ⟨fun a _ hlt => h.lamports_left hw ho hlater hlt,
    fun w ha hfree hguest => (h.guest_keeps hw ho hlater ha hfree hguest).2, fun a ha _ hkept => ?_⟩
  by_contra hlt
  obtain ⟨st, hst, ⟨-, hs⟩ | ⟨hheld, hgone⟩⟩ := h.lamports_left hw ho hlater (Nat.lt_of_not_le hlt)
  · have hsign := (hlater.forall_steps (P := fun st => ∀ a ∈ st.label.tx.signers, a.canSign = true)
      (fun _ hn => hn.1) st hst) a hs
    cases ha.symm.trans hsign
  · exact hgone (hkept st hst hheld)

/-- A customer earns a reward and cashes it in, without paying anything. -/
theorem lamports_leave_earned : ∃ hist s, Run Sample.platform Sample.start hist s ∧
    (s.voucher? (Sample.voucher 0)).isSome = true ∧
    Sample.start.lamports (Sample.key 9) ≤ s.lamports (Sample.key 9) := by
  obtain ⟨hist, s, hrun, hcalls, hp⟩ := Leads.run (P := Sample.platform) (s := Sample.start)
    (l := [Sample.register 1000 1 0, Sample.issue 1010 7, Sample.claim 1020 9 7, Sample.cashIn 1030 9 0])
    (p := fun s => (s.voucher? (Sample.voucher 0)).isSome) (by decide +kernel)
  have hguest : ∀ st ∈ hist, Guest st.label (Sample.key 9) := by
    intro st hst
    have hmem := List.mem_map_of_mem (f := fun st : Taken => st.label) hst
    rw [hcalls] at hmem
    generalize st.label = c at hmem
    simp only [List.reverse_cons, List.reverse_nil, List.nil_append, List.cons_append, List.mem_cons,
      List.not_mem_nil, or_false] at hmem
    rcases hmem with rfl | rfl | rfl | rfl
    all_goals
      refine ⟨fun _ => ⟨_, rfl⟩, fun _ hc => ?_⟩
      generalize hw : Sample.key 9 = w at hc
      cases hc with
      | opens hp => cases hp <;> exact absurd hw (by decide)
      | grows hg => cases hg
  have hfree : ¬Sample.start.Held (Sample.key 9) := by
    intro hor
    rcases hor with hp | ht
    · rw [Sample.start_empty.program] at hp
      cases hp
    · exact absurd ht (by decide)
  exact ⟨hist, s, hrun, hp, (lamports_leave .nil Sample.start_empty.wellPlaced Sample.start_oneOwner hrun).2.1
    _ rfl hfree hguest⟩

end Passdari
