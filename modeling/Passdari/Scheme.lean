/-
The stamp-card scheme itself, as a shop would run it on paper. Shops ask for
so many stamps, hand out slips that are good for one stamp, and give a ticket
for a full card; a ticket is redeemed once or lapses. There are no accounts,
addresses, signatures or payments here, nor who holds a ticket, nor how often
a shop may hand out slips.
-/
import Mathlib.Logic.Function.Basic

namespace Passdari

namespace Scheme

/-- What a shop asks and promises: the stamps a reward takes, how long a slip is good for, and until when the
terms stand. -/
structure Terms where
  goal : Nat
  slipFor : Nat
  standUntil : Int
  deriving DecidableEq

/-- A card carries the goal it was begun under. -/
structure Card where
  stamps : Nat
  goal : Nat

end Scheme

/-- Shops `S`, customers `C`, slips `R` and tickets `V`. Slips and tickets are kept with their last time. -/
@[ext] structure Scheme (S C R V : Type) where
  terms : S → Option Scheme.Terms
  slips : S → R → Option Int
  cards : S → C → Option Scheme.Card
  tickets : S → V → Option Int

namespace Scheme

/-- What can happen. -/
inductive Move (S C R V : Type)
  | opens (shop : S) (terms : Terms)
  | revise (shop : S) (terms : Terms)
  | leave (shop : S)
  | handOut (shop : S) (slip : R)
  | stamp (shop : S) (slip : R) (customer : C)
  | discard (shop : S) (slip : R)
  | pass (shop : S) (giver receiver : C) (stamps : Nat)
  | cashIn (shop : S) (customer : C) (ticket : V)
  | redeem (shop : S) (ticket : V)
  | lapse (shop : S) (ticket : V)
  | forget (shop : S) (customer : C)
  deriving DecidableEq

section

variable {S C R V : Type} [DecidableEq S] [DecidableEq C] [DecidableEq R] [DecidableEq V]

/-- `f`, with `x` for the pair. -/
def put {A B X : Type} [DecidableEq A] [DecidableEq B] (f : A → B → X) (a : A) (b : B) (x : X) : A → B → X :=
  fun a' b' => if a' = a ∧ b' = b then x else f a' b'

@[simp] theorem put_self {A B X : Type} [DecidableEq A] [DecidableEq B] (f : A → B → X) (a : A) (b : B)
    (x : X) : put f a b x a b = x := if_pos ⟨rfl, rfl⟩

theorem put_of_ne {A B X : Type} [DecidableEq A] [DecidableEq B] {f : A → B → X} {a a' : A} {b b' : B}
    {x : X} (h : ¬(a' = a ∧ b' = b)) : put f a b x a' b' = f a' b' := if_neg h

def empty : Scheme S C R V := ⟨fun _ => none, fun _ _ => none, fun _ _ => none, fun _ _ => none⟩

variable (ticketFor : Int) (σ : Scheme S C R V) (now : Int)

/-- The customer's card at the shop, or a new one under the terms of the day. -/
def cardOrNew (shop : S) (customer : C) : Card :=
  (σ.cards shop customer).getD ⟨0, (σ.terms shop).elim 0 fun t => t.goal⟩

/-- The rules: when a move may be made. -/
def Allows : Move S C R V → Prop
  | .opens b t => σ.terms b = none ∧ 0 < t.goal
  -- terms stand until their time is over
  | .revise b t => (∃ old, σ.terms b = some old ∧ old.standUntil ≤ now) ∧ 0 < t.goal
  -- nobody leaves behind a card or a ticket
  | .leave b => (∃ t, σ.terms b = some t ∧ t.standUntil ≤ now) ∧ (∀ c, σ.cards b c = none) ∧
      ∀ v, σ.tickets b v = none
  | .handOut b r => (σ.terms b).isSome ∧ σ.slips b r = none
  | .stamp b r _ => (σ.terms b).isSome ∧ ∃ last, σ.slips b r = some last ∧ now ≤ last
  | .discard b r => ∃ last, σ.slips b r = some last ∧ last ≤ now
  | .pass b c d n => 0 < n ∧ c ≠ d ∧ (∃ x, σ.cards b c = some x ∧ n ≤ x.stamps) ∧ (σ.cards b d).isSome
  | .cashIn b c v => (σ.terms b).isSome ∧ σ.tickets b v = none ∧
      ∃ x, σ.cards b c = some x ∧ x.goal ≤ x.stamps
  | .redeem b v => (σ.terms b).isSome ∧ ∃ last, σ.tickets b v = some last ∧ now ≤ last
  | .lapse b v => (σ.terms b).isSome ∧ ∃ last, σ.tickets b v = some last ∧ last < now
  | .forget b c => (σ.terms b).isSome ∧ ∃ x, σ.cards b c = some x ∧ x.stamps = 0

/-- What a move changes. -/
def after : Move S C R V → Scheme S C R V
  | .opens b t | .revise b t => { σ with terms := Function.update σ.terms b (some t) }
  | .leave b => { σ with terms := Function.update σ.terms b none }
  | .handOut b r => { σ with slips := put σ.slips b r ((σ.terms b).map fun t => now + t.slipFor) }
  | .stamp b r c =>
    let x := σ.cardOrNew b c
    { σ with slips := put σ.slips b r none, cards := put σ.cards b c (some ⟨x.stamps + 1, x.goal⟩) }
  | .discard b r => { σ with slips := put σ.slips b r none }
  | .pass b c d n =>
    let x := σ.cardOrNew b c
    let y := σ.cardOrNew b d
    { σ with
      cards := put (put σ.cards b c (some ⟨x.stamps - n, x.goal⟩)) b d (some ⟨y.stamps + n, y.goal⟩) }
  -- what is left on the card counts towards the next reward, under the terms of the day
  | .cashIn b c v =>
    let x := σ.cardOrNew b c
    { σ with
      cards := put σ.cards b c (some ⟨x.stamps - x.goal, (σ.terms b).elim 0 fun t => t.goal⟩)
      tickets := put σ.tickets b v (some (now + ticketFor)) }
  | .redeem b v | .lapse b v => { σ with tickets := put σ.tickets b v none }
  | .forget b c => { σ with cards := put σ.cards b c none }

end

/-! ## Moves one after the other -/

section

variable {S C R V : Type} [DecidableEq S] [DecidableEq C] [DecidableEq R] [DecidableEq V]

/-- The scheme after the moves, each with its time, newest first. -/
def of (ticketFor : Int) : List (Int × Move S C R V) → Scheme S C R V
  | [] => empty
  | m :: moves => (of ticketFor moves).after ticketFor m.1 m.2

/-- Each move is allowed where it is made. -/
def Sound (ticketFor : Int) : List (Int × Move S C R V) → Prop
  | [] => True
  | m :: moves => (of ticketFor moves).Allows m.1 m.2 ∧ Sound ticketFor moves

/-! ## A customer's account -/

variable (b : S) (c : C)

/-- The stamps the customer has at the shop. -/
def held (σ : Scheme S C R V) : Nat := (σ.cards b c).elim 0 fun x => x.stamps

/-- What a move adds to the customer's stamps at the shop. -/
def gained : Move S C R V → Nat
  | .stamp shop _ customer => if shop = b ∧ customer = c then 1 else 0
  | .pass shop _ receiver n => if shop = b ∧ receiver = c then n else 0
  | _ => 0

/-- What it takes of them: what is passed on, or the goal of a reward. -/
def spent (σ : Scheme S C R V) : Move S C R V → Nat
  | .pass shop giver _ n => if shop = b ∧ giver = c then n else 0
  | .cashIn shop customer _ => if shop = b ∧ customer = c then (σ.cardOrNew b c).goal else 0
  | _ => 0

/-- All that was gained. -/
def totalGained : List (Int × Move S C R V) → Nat
  | [] => 0
  | m :: moves => gained b c m.2 + totalGained moves

/-- All that was spent. -/
def totalSpent (ticketFor : Int) : List (Int × Move S C R V) → Nat
  | [] => 0
  | m :: moves => spent b c (of ticketFor moves) m.2 + totalSpent ticketFor moves

/-- What the customer holds is what there was, with what the move adds and takes. -/
theorem Allows.held (ticketFor : Int) {σ : Scheme S C R V} {now : Int} {m : Move S C R V}
    (h : σ.Allows now m) :
    (σ.after ticketFor now m).held b c + spent b c σ m = σ.held b c + gained b c m := by
  cases m with
  | opens | revise | leave | handOut | discard | redeem | lapse => rfl
  | stamp shop r customer =>
    by_cases hk : b = shop ∧ c = customer
    · obtain ⟨rfl, rfl⟩ := hk
      simp only [Scheme.held, after, put_self, Option.elim_some, spent, gained, and_self, if_true, cardOrNew]
      cases σ.cards b c <;> simp
    · have hk' : ¬(shop = b ∧ customer = c) := fun h => hk ⟨h.1.symm, h.2.symm⟩
      simp only [Scheme.held, after, put_of_ne hk, spent, gained, if_neg hk']
  | pass shop giver receiver n =>
    obtain ⟨-, hne, ⟨x, hx, hle⟩, hsome⟩ := h
    obtain ⟨y, hy⟩ := Option.isSome_iff_exists.mp hsome
    by_cases hr : b = shop ∧ c = receiver
    · obtain ⟨rfl, rfl⟩ := hr
      simp only [Scheme.held, after, put_self, Option.elim_some, spent, gained, true_and, if_neg hne, if_true,
        cardOrNew, hy, Option.getD_some, Nat.add_zero]
    have hr' : ¬(shop = b ∧ receiver = c) := fun h => hr ⟨h.1.symm, h.2.symm⟩
    by_cases hg : b = shop ∧ c = giver
    · obtain ⟨rfl, rfl⟩ := hg
      simp only [Scheme.held, after, put_of_ne hr, put_self, Option.elim_some, spent, gained, true_and,
        if_neg (Ne.symm hne), if_true, cardOrNew, hx, Option.getD_some, Nat.add_zero]
      omega
    · have hg' : ¬(shop = b ∧ giver = c) := fun h => hg ⟨h.1.symm, h.2.symm⟩
      simp only [Scheme.held, after, put_of_ne hr, put_of_ne hg, spent, gained, if_neg hg', if_neg hr']
  | cashIn shop customer v =>
    obtain ⟨-, -, x, hx, hle⟩ := h
    by_cases hk : b = shop ∧ c = customer
    · obtain ⟨rfl, rfl⟩ := hk
      simp only [Scheme.held, after, put_self, Option.elim_some, spent, gained, and_self, if_true, cardOrNew,
        hx, Option.getD_some, Nat.add_zero]
      omega
    · have hk' : ¬(shop = b ∧ customer = c) := fun h => hk ⟨h.1.symm, h.2.symm⟩
      simp only [Scheme.held, after, put_of_ne hk, spent, gained, if_neg hk']
  | forget shop customer =>
    obtain ⟨-, x, hx, h0⟩ := h
    by_cases hk : b = shop ∧ c = customer
    · obtain ⟨rfl, rfl⟩ := hk
      simp only [Scheme.held, after, put_self, Option.elim_none, spent, gained, hx, Option.elim_some, h0]
    · simp only [Scheme.held, after, put_of_ne hk, spent, gained]

/-- What a customer has at a shop is all they were given less all they spent, whatever cards they had it on.
-/
theorem Sound.account {ticketFor : Int} : ∀ {moves : List (Int × Move S C R V)}, Sound ticketFor moves →
    (of ticketFor moves).held b c + totalSpent b c ticketFor moves = totalGained b c moves
  | [], _ => rfl
  | m :: moves, h => by
    obtain ⟨hallows, hsound⟩ := h
    have hstep := hallows.held b c ticketFor
    have hrest := hsound.account
    rw [of, totalSpent, totalGained]
    omega

end

end Scheme

end Passdari
