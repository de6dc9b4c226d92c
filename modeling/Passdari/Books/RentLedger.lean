/-
The rent ledger, read off the history of lamports: what relayers have
deposited on an account since it was last emptied, and whether each refund
goes to whoever made the deposits, in full.
-/
import Passdari.Effect.TokenCalls

namespace Passdari

open Wire Token2022

/-- What relayers deposited on `a` since it was last emptied, newest first. -/
def depositsOn (a : Address) : List Move → List Move
  | [] => []
  | mv :: earlier =>
    if mv.source = a ∧ (mv.kind = .refund ∨ mv.kind = .withdraw) then []
    else if mv.dest = a ∧ mv.kind = .deposit then mv :: depositsOn a earlier
    else depositsOn a earlier

/-- All rent on `a` was deposited by `w`. -/
def PaidBy (journal : List Move) (a w : Address) : Prop := ∀ mv ∈ depositsOn a journal, mv.source = w

def depositSum (journal : List Move) (a : Address) : Nat := ((depositsOn a journal).map Move.amount).sum

/-- Whatever the program refunded went to the wallet that had deposited it, all of it. -/
def RentReturned : List Move → Prop
  | [] => True
  | mv :: earlier => RentReturned earlier ∧
    (mv.kind = .refund → PaidBy earlier mv.source mv.dest ∧ depositSum earlier mv.source ≤ mv.amount)

instance (journal : List Move) (a w : Address) : Decidable (PaidBy journal a w) :=
  inferInstanceAs (Decidable (∀ mv ∈ depositsOn a journal, mv.source = w))

instance RentReturned.decidable : (journal : List Move) → Decidable (RentReturned journal)
  | [] => .isTrue trivial
  | mv :: earlier =>
    have := RentReturned.decidable earlier
    inferInstanceAs (Decidable (RentReturned earlier ∧
      (mv.kind = .refund → PaidBy earlier mv.source mv.dest ∧ depositSum earlier mv.source ≤ mv.amount)))

/-- Deposits are made on derived addresses only, and are still there. -/
structure Covered (p : Purse) : Prop where
  keys : ∀ a, a.canSign = true → depositsOn a p.journal = []
  derived : ∀ a, a.canSign = false → depositSum p.journal a ≤ p.lamports a

/-- A deposit of `payer` on `a`. -/
def Payment.Deposits (q : Payment) (payer a : Address) : Prop := ∃ rent, q = .topUp .deposit payer a rent

/-- The account at `a` is emptied. -/
def Payment.Empties (q : Payment) (a : Address) : Prop :=
  ∃ kind dest, q = .empty kind a dest ∧ (kind = .refund ∨ kind = .withdraw)

/-- Lamports are taken from keys that signed, deposits made on derived addresses, or an account is emptied. -/
def Payment.Sound (q : Payment) (p : Purse) : Prop :=
  match q with
  | .send source _ amount => source.canSign = true ∨ amount = 0
  | .topUp kind payer a rent =>
    (kind = .deposit ∧ a.canSign = false ∨ kind = .plain) ∧ (payer.canSign = true ∨ rent - p.lamports a = 0)
  | .empty kind _ _ => kind = .refund ∨ kind = .withdraw

variable {p : Purse} {q : Payment} {ps : List Payment} {a w : Address} {journal : List Move}

/-! ## One payment -/

theorem depositsOn_send (source dest : Address) (amount : Nat) :
    depositsOn a (p.pay (.send source dest amount)).journal = depositsOn a p.journal := by
  simp only [Purse.pay]
  split
  · rfl
  · simp [Purse.move, depositsOn]

theorem depositsOn_topUp {kind : MoveKind} (hkind : kind = .deposit ∨ kind = .plain) (payer b : Address)
    (rent : Nat) :
    depositsOn a (p.pay (.topUp kind payer b rent)).journal =
      if rent - p.lamports b ≠ 0 ∧ b = a ∧ kind = .deposit then
        ⟨kind, payer, b, rent - p.lamports b⟩ :: depositsOn a p.journal
      else depositsOn a p.journal := by
  have hne : kind ≠ .refund ∧ kind ≠ .withdraw := by rcases hkind with rfl | rfl <;> simp
  simp only [Purse.pay]
  split
  · next h0 => simp [h0]
  · next h0 => simp [Purse.move, depositsOn, hne, h0]

theorem depositsOn_empty {kind : MoveKind} (hkind : kind = .refund ∨ kind = .withdraw) (b dest : Address) :
    depositsOn a (p.pay (.empty kind b dest)).journal = if b = a then [] else depositsOn a p.journal := by
  simp only [Purse.pay, Purse.move, depositsOn]
  by_cases hb : b = a
  · simp [hb, hkind]
  · have hnot : ¬kind = .deposit := by rcases hkind with rfl | rfl <;> simp
    simp [hb, hnot]

/-- A payment leaves the deposits on an account, or clears them, or adds one. -/
theorem depositsOn_pay (hq : q.Sound p) :
    (depositsOn a (p.pay q).journal = depositsOn a p.journal ∧ ¬q.Empties a) ∨
      (depositsOn a (p.pay q).journal = [] ∧ q.Empties a) ∨
      ∃ payer amount, depositsOn a (p.pay q).journal = ⟨.deposit, payer, a, amount⟩ :: depositsOn
      a p.journal ∧
        q.Deposits payer a ∧ ¬q.Empties a := by
  cases q with
  | send source dest amount =>
    exact .inl ⟨depositsOn_send source dest amount, by rintro ⟨_, _, h, -⟩; cases h⟩
  | topUp kind payer b rent =>
    rw [depositsOn_topUp (hq.1.imp_left And.left)]
    split
    · next h =>
      obtain ⟨-, rfl, rfl⟩ := h
      exact .inr (.inr ⟨payer, _, rfl, ⟨rent, rfl⟩, by rintro ⟨_, _, h, -⟩; cases h⟩)
    · exact .inl ⟨rfl, by rintro ⟨_, _, h, -⟩; cases h⟩
  | empty kind b dest =>
    rw [depositsOn_empty hq]
    split
    · next h => exact .inr (.inl ⟨rfl, kind, dest, h ▸ rfl, hq⟩)
    · next h => exact .inl ⟨rfl, by rintro ⟨_, _, he, -⟩; cases he; exact h rfl⟩

theorem PaidBy.pay (h : PaidBy p.journal a w) (hq : q.Sound p)
    (hw : ∀ payer, q.Deposits payer a → payer = w) :
    PaidBy (p.pay q).journal a w := by
  unfold PaidBy at h ⊢
  rcases depositsOn_pay (a := a) hq with ⟨he, -⟩ | ⟨he, -⟩ | ⟨payer, amount, he, hd, -⟩
  · rw [he]
    exact h
  · rw [he]
    simp
  · rw [he, List.forall_mem_cons]
    exact ⟨hw payer hd, h⟩

theorem Payment.Sound.derived {payer : Address} (hq : q.Sound p) (hd : q.Deposits payer a) :
    a.canSign = false := by
  obtain ⟨rent, rfl⟩ := hd
  obtain ⟨⟨-, ha⟩ | hk, -⟩ := hq
  · exact ha
  · cases hk

theorem Covered.depositSum_le (h : Covered p) (a : Address) : depositSum p.journal a ≤ p.lamports a := by
  cases ha : a.canSign with
  | true =>
    rw [depositSum, h.keys a ha]
    exact Nat.zero_le _
  | false => exact h.derived a ha

/-- A payment takes nothing from a derived address, unless it empties it. -/
theorem depositSum_pay_le (hq : q.Sound p) (ha : a.canSign = false)
    (hbefore : depositSum p.journal a ≤ p.lamports a) :
    depositSum (p.pay q).journal a ≤ (p.pay q).lamports a := by
  unfold depositSum at hbefore ⊢
  cases q with
  | send source dest amount =>
    rw [depositsOn_send]
    simp only [Purse.pay]
    split
    · exact hbefore
    · next h0 =>
      have hne : a ≠ source := by
        intro heq
        subst heq
        exact Or.elim hq (fun hs => absurd (ha.symm.trans hs) (by simp)) h0
      simp only [Purse.move, Function.update_apply, if_neg hne]
      split
      · next hd => subst hd; rw [if_neg hne]; omega
      · exact hbefore
  | topUp kind payer b rent =>
    rw [depositsOn_topUp (hq.1.imp_left And.left)]
    simp only [Purse.pay]
    split
    · next hd =>
      obtain ⟨h0, rfl, rfl⟩ := hd
      have hne : b ≠ payer := by
        intro heq
        subst heq
        exact hq.2.elim (fun hs => absurd (ha.symm.trans hs) (by simp)) h0
      simp only [if_neg h0, Purse.move, Function.update_self, Function.update_apply, if_neg hne,
        List.map_cons, List.sum_cons]
      omega
    · split
      · exact hbefore
      · next h0 =>
        have hne : a ≠ payer := by
          intro heq
          subst heq
          exact hq.2.elim (fun hs => absurd (ha.symm.trans hs) (by simp)) h0
        simp only [Purse.move, Function.update_apply, if_neg hne]
        split
        · next hd => subst hd; rw [if_neg hne]; omega
        · exact hbefore
  | empty kind b dest =>
    rw [depositsOn_empty hq]
    split
    · exact Nat.zero_le _
    · next hb =>
      simp only [Purse.pay, Purse.move, Function.update_apply, if_neg (Ne.symm hb)]
      split
      · next hd => subst hd; rw [if_neg (Ne.symm hb)]; omega
      · exact hbefore

theorem Covered.pay (h : Covered p) (hq : q.Sound p) : Covered (p.pay q) where
  keys a ha := by
    rcases depositsOn_pay (a := a) hq with ⟨he, -⟩ | ⟨he, -⟩ | ⟨payer, _, -, hd, -⟩
    · rw [he]
      exact h.keys a ha
    · exact he
    · cases ha.symm.trans (hq.derived hd)
  derived a ha := depositSum_pay_le hq ha (h.derived a ha)

/-! ## Payments one after the other -/

/-- Each payment is sound when its turn comes. -/
def Sound (p : Purse) : List Payment → Prop
  | [] => True
  | q :: ps => q.Sound p ∧ Sound (p.pay q) ps

theorem Sound.of_forall : ∀ {ps : List Payment} {p : Purse}, (∀ q ∈ ps, ∀ p, q.Sound p) → Sound p ps
  | [], _, _ => trivial
  | q :: _, p, h => ⟨h q List.mem_cons_self p, Sound.of_forall fun q hq => h q (List.mem_cons_of_mem _ hq)⟩

theorem PaidBy.settle : ∀ {ps : List Payment} {p : Purse}, PaidBy p.journal a w → Sound p ps →
    (∀ q ∈ ps, ∀ payer, q.Deposits payer a → payer = w) → PaidBy (p.settle ps).journal a w
  | [], _, h, _, _ => h
  | q :: _, _, h, hs, hw => (h.pay hs.1 (hw q List.mem_cons_self)).settle hs.2
      fun q hq => hw q (List.mem_cons_of_mem _ hq)

/-- Deposits there are after payments were there before, and nothing emptied the account since, or were made
now. -/
theorem depositsOn_before : ∀ {ps : List Payment} {p : Purse}, Sound p ps →
    depositsOn a (p.settle ps).journal ≠ [] →
    (depositsOn a p.journal ≠ [] ∧ ∀ q ∈ ps, ¬q.Empties a) ∨ ∃ q ∈ ps, ∃ payer, q.Deposits payer a
  | [], _, _, h => .inl ⟨h, (by simp)⟩
  | q :: ps, p, hs, h => by
    rcases depositsOn_before hs.2 h with ⟨hp, hno⟩ | ⟨q', hq', payer, hd⟩
    · rcases depositsOn_pay (a := a) hs.1 with ⟨he, hne⟩ | ⟨he, -⟩ | ⟨payer, _, he, hd, -⟩
      · exact .inl ⟨he ▸ hp, List.forall_mem_cons.mpr ⟨hne, hno⟩⟩
      · exact absurd he hp
      · exact .inr ⟨q, List.mem_cons_self, payer, hd⟩
    · exact .inr ⟨q', List.mem_cons_of_mem _ hq', payer, hd⟩

/-- Refunds to whoever paid keep the ledger. -/
theorem RentReturned.settle : ∀ {ps : List Payment} {p : Purse}, RentReturned p.journal → Covered p →
    Sound p ps →
    (∀ b dest, Payment.empty .refund b dest ∈ ps → PaidBy p.journal b dest ∧
      ∀ q ∈ ps, ∀ payer, q.Deposits payer b → payer = dest) →
    RentReturned (p.settle ps).journal ∧ Covered (p.settle ps)
  | [], _, h, hc, _, _ => ⟨h, hc⟩
  | q :: ps, p, h, hc, hs, hps => by
    have hq : RentReturned (p.pay q).journal := by
      cases q with
      | send source dest amount =>
        simp only [Purse.pay]
        split
        · exact h
        · exact ⟨h, (by simp)⟩
      | topUp kind payer b rent =>
        simp only [Purse.pay]
        split
        · exact h
        · refine ⟨h, fun hk => ?_⟩
          have hk : kind = .refund := hk
          rcases hs.1.1 with ⟨rfl, -⟩ | rfl <;> cases hk
      | empty kind b dest =>
        refine ⟨h, fun hk => ?_⟩
        have hk : kind = .refund := hk
        subst hk
        exact ⟨(hps b dest List.mem_cons_self).1, hc.depositSum_le b⟩
    refine hq.settle (hc.pay hs.1) hs.2 fun b dest hmem => ?_
    obtain ⟨hpaid, hw⟩ := hps b dest (List.mem_cons_of_mem _ hmem)
    exact ⟨hpaid.pay hs.1 (hw q List.mem_cons_self), fun q hq => hw q (List.mem_cons_of_mem _ hq)⟩

end Passdari
