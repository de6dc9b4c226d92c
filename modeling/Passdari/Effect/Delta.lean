/-
What the primitives of the ledger change. A `Delta` lists, in order, the
program accounts written, the calls made into the token program and the
payments made between two states; the deltas of consecutive primitives
append. Each primitive has one lemma here that takes it apart, and later
proofs use these and never unfold a primitive.
-/
import Passdari.Instructions.Migrations
import Passdari.Instructions.Vouchers
import Passdari.Lib.TokenFacts

namespace Passdari

open Wire Token2022

abbrev TokenCall := Token2022.Call Address

/-! ## Writes -/

/-- What a program account holds from here on: these bytes, or nothing. -/
structure Write where
  addr : Address
  data : Option (List Byte)

/-- What is at `a` after the writes, when it was `d` before them. -/
def patch (ws : List Write) (a : Address) (d : Option (List Byte)) : Option (List Byte) :=
  ws.foldl (fun d w => if w.addr = a then w.data else d) d

@[simp] theorem patch_nil (a : Address) (d : Option (List Byte)) : patch [] a d = d := rfl

@[simp] theorem patch_cons (w : Write) (ws : List Write) (a : Address) (d : Option (List Byte)) :
    patch (w :: ws) a d = patch ws a (if w.addr = a then w.data else d) := rfl

theorem patch_append (ws vs : List Write) (a : Address) (d : Option (List Byte)) :
    patch (ws ++ vs) a d = patch vs a (patch ws a d) := List.foldl_append

theorem patch_of_notMem {ws : List Write} {a : Address} {d : Option (List Byte)} (h : a ∉ ws.map Write.addr) :
    patch ws a d = d := by
  induction ws generalizing d with
  | nil => rfl
  | cons w ws ih =>
    simp only [List.map_cons, List.mem_cons, not_or] at h
    rw [patch_cons, if_neg (Ne.symm h.1), ih h.2]

theorem patch_isSome {ws : List Write} {a : Address} {d : Option (List Byte)}
    (hws : ∀ w ∈ ws, w.data.isSome = true) (hd : d.isSome = true) : (patch ws a d).isSome = true := by
  induction ws generalizing d with
  | nil => exact hd
  | cons w ws ih =>
    refine ih (d := if w.addr = a then w.data else d) (fun v hv => hws v (List.mem_cons_of_mem w hv)) ?_
    split
    · exact hws w (by simp)
    · exact hd

/-! ## Payments -/

/-- Everybody's lamports, and the history of their movements. -/
structure Purse where
  lamports : Address → Nat
  journal : List Move

def State.purse (s : State) : Purse := ⟨s.lamports, s.journal⟩

def Purse.move (p : Purse) (kind : MoveKind) (source dest : Address) (amount : Nat) : Purse :=
  let taken := Function.update p.lamports source (p.lamports source - amount)
  ⟨Function.update taken dest (taken dest + amount), ⟨kind, source, dest, amount⟩ :: p.journal⟩

inductive Payment
  | send (source dest : Address) (amount : Nat)
  /-- `payer` brings the account up to `rent`, where it has less. -/
  | topUp (kind : MoveKind) (payer a : Address) (rent : Nat)
  /-- Everything on the account goes to `dest`. -/
  | empty (kind : MoveKind) (a dest : Address)

def Purse.pay (p : Purse) : Payment → Purse
  | .send source dest amount => if amount = 0 then p else p.move .plain source dest amount
  | .topUp kind payer a rent =>
    if rent - p.lamports a = 0 then p else p.move kind payer a (rent - p.lamports a)
  | .empty kind a dest => p.move kind a dest (p.lamports a)

def Purse.settle (p : Purse) (ps : List Payment) : Purse := ps.foldl Purse.pay p

/-- What the payment takes is there. -/
def Payment.Funded (q : Payment) (p : Purse) : Prop :=
  match q with
  | .send source _ amount => amount ≤ p.lamports source
  | .topUp _ payer a rent => rent - p.lamports a ≤ p.lamports payer
  | .empty .. => True

/-- Each payment is funded when its turn comes. -/
def Funded (p : Purse) : List Payment → Prop
  | [] => True
  | q :: ps => q.Funded p ∧ Funded (p.pay q) ps

theorem Funded.append : ∀ {ps₁ ps₂ : List Payment} {p : Purse}, Funded p ps₁ → Funded (p.settle ps₁) ps₂ →
    Funded p (ps₁ ++ ps₂)
  | [], _, _, _, h₂ => h₂
  | _ :: _, _, _, h₁, h₂ => ⟨h₁.1, Funded.append h₁.2 h₂⟩

/-! ## Deltas -/

/-- What changed from `s` to `s'`. -/
structure Delta (s s' : State) (ws : List Write) (cs : List TokenCall) (ps : List Payment) : Prop where
  program : ∀ a, s'.program.lookup a = patch ws a (s.program.lookup a)
  tokens : run s.tokens cs = .ok s'.tokens
  purse : s'.purse = s.purse.settle ps
  foreign : s'.foreign = s.foreign
  funded : Funded s.purse ps

namespace Delta

variable {s s₁ s₂ s' : State} {ws ws₁ ws₂ : List Write} {cs cs₁ cs₂ : List TokenCall}
  {ps ps₁ ps₂ : List Payment}

theorem refl (s : State) : Delta s s [] [] [] := ⟨fun _ => rfl, rfl, rfl, rfl, trivial⟩

theorem trans (h₁ : Delta s s₁ ws₁ cs₁ ps₁) (h₂ : Delta s₁ s₂ ws₂ cs₂ ps₂) :
    Delta s s₂ (ws₁ ++ ws₂) (cs₁ ++ cs₂) (ps₁ ++ ps₂) where
  program a := by rw [patch_append, h₂.program, h₁.program]
  tokens := run_append_eq_ok.mpr ⟨_, h₁.tokens, h₂.tokens⟩
  purse := by rw [h₂.purse, h₁.purse]; exact List.foldl_append.symm
  foreign := h₂.foreign.trans h₁.foreign
  funded := h₁.funded.append (h₁.purse ▸ h₂.funded)

theorem program_eq (h : Delta s s' [] cs ps) (a : Address) : s'.program.lookup a = s.program.lookup a :=
  h.program a

theorem tokens_eq (h : Delta s s' ws [] ps) : s'.tokens = s.tokens := by
  have := h.tokens
  simp only [run, Except.ok.injEq] at this
  exact this.symm

end Delta

theorem State.inUse_iff {s : State} {a : Address} : s.InUse a ↔ (s.program.lookup a).isSome = true ∨
    s.tokens.InUse a ∨ a ∈ s.foreign ∨ a = Address.default := by
  rw [State.InUse, AList.lookup_isSome]

theorem State.lookup_of_not_inUse {s : State} {a : Address} (h : ¬s.InUse a) : s.program.lookup a = none := by
  rw [State.inUse_iff, not_or] at h
  simpa using h.1

theorem State.record?_of_not_inUse {s : State} {a : Address} (h : ¬s.InUse a) : s.record? a = none := by
  rw [State.record?, State.lookup_of_not_inUse h]; rfl

theorem State.tokens_of_not_inUse {s : State} {a : Address} (h : ¬s.InUse a) :
    s.tokens.mints.lookup a = none ∧ s.tokens.accounts.lookup a = none := by
  rw [State.inUse_iff, not_or, not_or] at h
  exact not_inUse.mp h.2.1

theorem State.inUse_of_record? {s : State} {a : Address} {r : Record} (h : s.record? a = some r) :
    s.InUse a := by
  by_contra hn
  rw [State.record?_of_not_inUse hn] at h
  cases h

/-- While nothing is closed, an address free at the end was free at the start. -/
theorem Delta.not_inUse {s s' : State} {ws cs ps} {a : Address} (h : Delta s s' ws cs ps)
    (hws : ∀ w ∈ ws, w.data.isSome = true) (hcs : ∀ c ∈ cs, ∀ dest auth, c.op ≠ .close a dest auth)
    (ha : ¬s'.InUse a) : ¬s.InUse a := by
  rw [State.inUse_iff, h.foreign, h.program] at ha
  rw [State.inUse_iff]
  intro hor
  rcases hor with hp | ht | hr
  · exact ha (.inl (patch_isSome hws hp))
  · exact ha (.inr (.inl (run_inUse h.tokens ht hcs)))
  · exact ha (.inr (.inr hr))

/-! ## Checks -/

variable {P : Platform} {tx : Tx} {s s' : State} {a : Address}

theorem signer_eq_ok {u : Unit} : signer tx a = .ok u ↔ a ∈ tx.signers := check_eq_ok

theorem systemAccount_eq_ok {u : Unit} : systemAccount s a = .ok u ↔ ¬s.InUse a := check_eq_ok

theorem hasOne_eq_ok {b : Address} {u : Unit} : hasOne a b = .ok u ↔ a = b := check_eq_ok

theorem seedsConstraint_eq_ok {seeds : UInt8 → Address} {bump : UInt8} :
    seedsConstraint P seeds a = .ok bump ↔ findProgramAddress P seeds = some (a, bump) := by
  simp only [seedsConstraint, Except.bind_eq_ok, demand_eq_ok, check_eq_ok, Except.pure_eq_ok, exists_const]
  constructor
  · intro hex
    obtain ⟨⟨b, bump'⟩, hf, rfl, rfl⟩ := hex
    exact hf
  · intro hf; exact ⟨_, hf, rfl, rfl⟩

theorem seedsConstraintWith_eq_ok {seeds : UInt8 → Address} {bump : UInt8} {u : Unit} :
    seedsConstraintWith P seeds bump a = .ok u ↔ createProgramAddress P seeds bump = some a := check_eq_ok

theorem withSigner_eq_ok {seeds : UInt8 → Address} {bump : UInt8} {l : List Address} :
    withSigner P tx seeds bump = .ok l ↔ ∃ pda, createProgramAddress P seeds bump = some pda ∧
    l = pda :: tx.signers := by
  simp only [withSigner, Except.bind_eq_ok, demand_eq_ok, Except.pure_eq_ok, @eq_comm _ l]

theorem closeConstraint_eq_ok {recorded payer : Address} {u : Unit} :
    closeConstraint a recorded payer = .ok u ↔ recorded = payer ∧ a ≠ payer := by
  simp only [closeConstraint, Except.bind_eq_ok, hasOne_eq_ok, check_eq_ok, exists_const]

theorem loadMint_eq_ok {m : Mint Address} : loadMint s a = .ok m ↔ s.tokens.mints.lookup a = some m :=
    demand_eq_ok

theorem loadToken_eq_ok {x : Account Address} : loadToken s a = .ok x ↔ s.tokens.accounts.lookup a = some x :=
  demand_eq_ok

/-! ## Records -/

section Records

variable {α : Type} {T : AccountType α} {x : α}

theorem load_eq_ok : load T s a = .ok x ↔ s.record? a = some (T.record x) := by
  simp only [load, Except.bind_eq_ok, demand_eq_ok, check_eq_ok, Except.pure_eq_ok, exists_const,
    State.record?, Option.bind_eq_some_iff, T.parse_iff]
  constructor
  · intro hex
    obtain ⟨data, hd, hdisc, ⟨y, rest⟩, hdec, rfl⟩ := hex
    exact ⟨data, hd, hdisc, rest, hdec⟩
  · intro hex
    obtain ⟨data, hd, hdisc, rest, hdec⟩ := hex
    exact ⟨data, hd, hdisc, ⟨x, rest⟩, hdec, rfl⟩

theorem store_eq_ok : store T s a x = .ok s' ↔ ∃ data, s.program.lookup a = some data ∧
    (T.record x).bytes.length ≤ data.length ∧
    s' = { s with program :=
      s.program.insert a ((T.record x).bytes ++ data.drop (T.record x).bytes.length) } := by
  simp only [store, Except.bind_eq_ok, demand_eq_ok, check_eq_ok, Except.pure_eq_ok, exists_const,
    T.bytes_record, @eq_comm _ s']

/-- A write-back: the record goes to the front of the data, and the length stays what it was. -/
theorem store_delta (h : store T s a x = .ok s') : ∃ data rest, s.program.lookup a = some data ∧
    ((T.record x).bytes ++ rest).length = data.length ∧
    Delta s s' [⟨a, some ((T.record x).bytes ++ rest)⟩] [] [] := by
  obtain ⟨data, hd, hle, rfl⟩ := store_eq_ok.mp h
  refine ⟨data, data.drop (T.record x).bytes.length, hd, by simp; omega, fun b => ?_, rfl, rfl, rfl, trivial⟩
  rw [Store.lookup_insert, patch_cons, patch_nil]
  simp only [eq_comm]

theorem transferLamports_eq_ok {kind : MoveKind} {source dest : Address} {n : Nat} :
    transferLamports tx s kind source dest n = .ok s' ↔
      n = 0 ∧ s' = s ∨ n ≠ 0 ∧ source ∈ tx.signers ∧ ¬s.InUse source ∧ n ≤ s.lamports source ∧
        s' = s.move kind source dest n := by
  unfold transferLamports
  split
  · next h => simp [h, Except.pure_eq_ok, @eq_comm _ s']
  · next h =>
    simp only [Except.bind_eq_ok, check_eq_ok, Except.pure_eq_ok, exists_const, h, false_and, false_or,
      not_false_eq_true, true_and, ne_eq, @eq_comm _ s']

/-- What an account is short of its rent, paid in. -/
theorem topUp_delta {kind : MoveKind} {payer : Address} {rent : Nat}
    (h : transferLamports tx s kind payer a (rent - s.lamports a) = .ok s') :
    Delta s s' [] [] [.topUp kind payer a rent] := by
  rcases transferLamports_eq_ok.mp h with ⟨h0, rfl⟩ | ⟨h0, -, -, hle, rfl⟩
  · exact ⟨fun _ => rfl, rfl, (if_pos h0).symm, rfl,
      by simp only [Payment.Funded, State.purse, h0, Nat.zero_le], trivial⟩
  · exact ⟨fun _ => rfl, rfl, (if_neg h0).symm, rfl, hle, trivial⟩

theorem createAddress_delta {kind : MoveKind} {payer : Address} {rent : Nat}
    (h : createAddress tx s kind payer a rent = .ok s') :
    ¬s.InUse a ∧ Delta s s' [] [] [.topUp kind payer a rent] := by
  simp only [createAddress, Except.bind_eq_ok, check_eq_ok, exists_const] at h
  exact ⟨h.1, topUp_delta h.2⟩

theorem createAddress_payer {kind : MoveKind} {payer : Address} {rent : Nat}
    (h : createAddress tx s kind payer a rent = .ok s') : payer ∈ tx.signers ∨ rent - s.lamports a = 0 := by
  simp only [createAddress, Except.bind_eq_ok, check_eq_ok, exists_const] at h
  rcases transferLamports_eq_ok.mp h.2 with ⟨h0, -⟩ | ⟨-, hs, -⟩
  · exact .inr h0
  · exact .inl hs

theorem create_delta {payer : Address} (h : create P tx T s payer a = .ok s') :
    ¬s.InUse a ∧ Delta s s' [⟨a, some (List.replicate T.space (.lit 0))⟩] []
      [.topUp .deposit payer a (P.minimumBalance T.space)] := by
  simp only [create, Except.bind_eq_ok, Except.pure_eq_ok] at h
  obtain ⟨s₁, hc, rfl⟩ := h
  obtain ⟨hu, hd⟩ := createAddress_delta hc
  refine ⟨hu, fun b => ?_, hd.tokens, hd.purse, hd.foreign, hd.funded⟩
  rw [Store.lookup_insert, hd.program, patch_cons, patch_nil, patch_nil]
  simp only [eq_comm]

theorem close_delta (s : State) (a dest : Address) :
    Delta s (close s a dest) [⟨a, none⟩] [] [.empty .refund a dest] := by
  refine ⟨fun b => ?_, rfl, rfl, rfl, trivial, trivial⟩
  show (s.program.erase a).lookup b = _
  rw [Store.lookup_erase, patch_cons, patch_nil]
  simp only [eq_comm]

end Records

/-! ## Calls into the token program -/

theorem liftToken_eq_ok {r : Except Token2022.Error (Tokens Address)} {t : Tokens Address} :
    liftToken r = .ok t ↔ r = .ok t := by
  cases r with
  | ok t' => simp [liftToken]
  | error e => simp [liftToken]

theorem run_one {t t' : Tokens Address} {ctx : Ctx Address} {op : Op Address} (h : exec ctx t op = .ok t') :
    run t [⟨ctx, op⟩] = .ok t' := run_cons_eq_ok.mpr ⟨t', exec_eq_ok.mp h, rfl⟩

theorem invoke_delta {signers : List Address} {op : Op Address} (h : invoke signers s op = .ok s') :
    Delta s s' [] [⟨⟨signers, true⟩, op⟩] [] := by
  simp only [invoke, Except.bind_eq_ok, liftToken_eq_ok, Except.pure_eq_ok] at h
  obtain ⟨t, ht, rfl⟩ := h
  exact ⟨fun _ => rfl, run_one ht, rfl, rfl, trivial⟩

theorem invokeClose_delta {signers : List Address} {dest authority : Address}
    (h : invokeClose signers s a dest authority = .ok s') :
    Delta s s' [] [⟨⟨signers, true⟩, .close a dest authority⟩] [.empty .refund a dest] := by
  simp only [invokeClose, Except.bind_eq_ok, liftToken_eq_ok, Except.pure_eq_ok] at h
  obtain ⟨t, ht, rfl⟩ := h
  exact ⟨fun _ => rfl, run_one ht, rfl, rfl, trivial, trivial⟩

/-- An associated token account opened: at its own address, which was free, and paid by `payer`. -/
theorem createAssociatedToken_delta {payer owner mint : Address}
    (h : createAssociatedToken P tx s payer a owner mint = .ok s') :
    a = .ata owner mint ∧ ¬s.InUse a ∧ ∃ m, s.tokens.mints.lookup mint = some m ∧
      Delta s s' [] [⟨⟨tx.signers, true⟩, .initializeAccount a mint owner true⟩]
        [.topUp .deposit payer a (P.minimumBalance (tokenAccountLen m.nonTransferable))] := by
  simp only [createAssociatedToken, Except.bind_eq_ok, check_eq_ok, exists_const, loadMint_eq_ok] at h
  obtain ⟨ha, m, hm, s₁, hc, hi⟩ := h
  obtain ⟨hu, hd⟩ := createAddress_delta hc
  exact ⟨ha, hu, m, hm, hd.trans (invoke_delta hi)⟩

end Passdari
