/-
What the steps of an instruction depend on. Everything there is at an
address is its cell; the ledger's primitives read and write the cells of the
addresses they are given and no others, and take lamports only from an
address no program owns.
-/
import Passdari.Effect.Delta
import Passdari.Lib.TokenLocality

namespace Passdari

open Token2022

/-- Everything at an address: data of this program, a mint, a token account, whether another program owns
it, and lamports. -/
@[ext] structure Cell where
  data : Option (List Byte)
  mint : Option (Mint Address)
  token : Option (Account Address)
  foreign : Bool
  lamports : Nat

/-- Some program owns the cell. -/
def Cell.Held (c : Cell) : Prop :=
  c.data.isSome = true ∨ c.mint.isSome = true ∨ c.token.isSome = true ∨ c.foreign = true

def State.cell (s : State) (a : Address) : Cell :=
  ⟨s.program.lookup a, s.tokens.mints.lookup a, s.tokens.accounts.lookup a, decide (a ∈ s.foreign),
    s.lamports a⟩

/-- The chain, address by address. -/
def State.view : View State Address Cell := ⟨State.cell, Cell.Held⟩

variable {P : Platform} {tx : Tx} {s t s' : State} {a b : Address} {F W S : Set Address}

theorem State.inUse_iff_held : s.InUse a ↔ (s.cell a).Held ∨ a = Address.default := by
  rw [State.InUse, Tokens.InUse, Cell.Held]
  simp only [State.cell, AList.lookup_isSome, decide_eq_true_eq, or_assoc]

theorem State.inUse_of_held (h : State.view.held (State.view.look s a)) : s.InUse a :=
  State.inUse_iff_held.mpr (.inl h)

theorem State.inUse_congr (h : s.cell a = t.cell a) : s.InUse a ↔ t.InUse a := by
  rw [State.inUse_iff_held, State.inUse_iff_held, h]

section Alike

variable (h : State.view.Alike S s t) (ha : a ∈ S)

include h ha

theorem alike_program : s.program.lookup a = t.program.lookup a := congrArg Cell.data (h a ha)

theorem alike_mint : s.tokens.mints.lookup a = t.tokens.mints.lookup a := congrArg Cell.mint (h a ha)

theorem alike_token : s.tokens.accounts.lookup a = t.tokens.accounts.lookup a := congrArg Cell.token (h a ha)

theorem alike_lamports : s.lamports a = t.lamports a := congrArg Cell.lamports (h a ha)

theorem alike_record? : s.record? a = t.record? a := by
  rw [State.record?, alike_program h ha, State.record?]

theorem alike_inUse : s.InUse a ↔ t.InUse a := State.inUse_congr (h a ha)

theorem alike_tokenOwned : s.TokenOwned a ↔ t.TokenOwned a := by
  rw [State.TokenOwned, State.TokenOwned, Tokens.InUse, Tokens.InUse, ← AList.lookup_isSome,
    ← AList.lookup_isSome, alike_mint h ha, alike_token h ha, AList.lookup_isSome, AList.lookup_isSome]

end Alike

theorem tokens_alike (h : State.view.Alike S s t) : Tokens.view.Alike S s.tokens t.tokens :=
  fun _ ha => Prod.ext (alike_mint h ha) (alike_token h ha)

/-! ## Reads -/

theorem load_reads {α : Type} {T : AccountType α} (ha : a ∈ S) :
    Reads State.view S (fun s => load T s a) := by
  intro s t x h hs
  rw [load_eq_ok, ← alike_record? h ha, ← load_eq_ok]
  exact hs

theorem loadMint_reads (ha : a ∈ S) : Reads State.view S (fun s => loadMint s a) := by
  intro s t m h hs
  rw [loadMint_eq_ok, ← alike_mint h ha, ← loadMint_eq_ok]
  exact hs

theorem loadToken_reads (ha : a ∈ S) : Reads State.view S (fun s => loadToken s a) := by
  intro s t x h hs
  rw [loadToken_eq_ok, ← alike_token h ha, ← loadToken_eq_ok]
  exact hs

theorem systemAccount_reads (ha : a ∈ S) : Reads State.view S (fun s => systemAccount s a) := by
  intro s t u h hs
  rw [systemAccount_eq_ok, ← alike_inUse h ha, ← systemAccount_eq_ok (u := u)]
  exact hs

/-! ## Writes -/

/-- A write to program data at `a`. -/
theorem put_kept {p : Store Address (List Byte)} (ha : a ∈ F)
    (hp : ∀ b, b ≠ a → p.lookup b = s.program.lookup b) :
    State.view.Kept F W s { s with program := p } := by
  intro b hb _
  have hne : b ≠ a := fun he => hb (he ▸ ha)
  exact Cell.ext (hp b hne) rfl rfl rfl rfl

theorem put_alike {p q : Store Address (List Byte)} (h : State.view.Alike S s t)
    (hp : ∀ b ∈ S, p.lookup b = q.lookup b) :
    State.view.Alike S { s with program := p } { t with program := q } := by
  intro b hb
  obtain ⟨-, hm, hx, hf, hl⟩ := Cell.mk.inj (h b hb)
  exact Cell.ext (hp b hb) hm hx hf hl

theorem store_local {α : Type} {T : AccountType α} {x : α} (ha : a ∈ F) :
    Local State.view F W (fun s => store T s a x) where
  kept h := by
    obtain ⟨data, -, -, rfl⟩ := store_eq_ok.mp h
    exact put_kept ha fun b hb => by rw [Store.lookup_insert, if_neg hb]
  tracks hst h := by
    obtain ⟨data, hd, hle, rfl⟩ := store_eq_ok.mp h
    refine ⟨_, store_eq_ok.mpr ⟨data, (alike_program hst (.inl ha)).symm.trans hd, hle, rfl⟩, ?_⟩
    refine put_alike hst fun b hb => ?_
    rw [Store.lookup_insert, Store.lookup_insert, alike_program hst hb]

/-! ## Lamports -/

/-- What a movement leaves on the others. -/
theorem move_lamports_of_ne (kind : MoveKind) {source dest : Address} (n : Nat) (hs : b ≠ source)
    (hd : b ≠ dest) : (s.move kind source dest n).lamports b = s.lamports b := by
  simp only [State.move, Function.update_apply, if_neg hs, if_neg hd]

theorem move_kept {kind : MoveKind} {source dest : Address} {n : Nat} (hd : dest ∈ F)
    (hs : source ∈ F ∨ ¬s.InUse source) (hsW : source ∈ F ∪ W) :
    State.view.Kept F W s (s.move kind source dest n) := by
  intro b hb hheld
  have hne : b ≠ source := by
    intro he
    subst he
    rcases hs with hF | hfree
    · exact hb hF
    · exact hfree (State.inUse_of_held (hheld (hsW.resolve_left hb)))
  exact Cell.ext rfl rfl rfl rfl (move_lamports_of_ne kind n hne fun he => hb (he ▸ hd))

theorem move_alike {kind : MoveKind} {source dest : Address} {n : Nat} (h : State.view.Alike S s t)
    (hs : source ∈ S) (hd : dest ∈ S) :
    State.view.Alike S (s.move kind source dest n) (t.move kind source dest n) := by
  intro b hb
  obtain ⟨hp, hm, hx, hf, -⟩ := Cell.mk.inj (h b hb)
  refine Cell.ext hp hm hx hf ?_
  show (s.move kind source dest n).lamports b = (t.move kind source dest n).lamports b
  simp only [State.move, Function.update_apply, alike_lamports h hs, alike_lamports h hd, alike_lamports h hb]

/-- A payment up to `rent`, out of the pocket of somebody who signs. -/
theorem topUp_local {kind : MoveKind} {payer : Address} {rent : Nat} (ha : a ∈ F) (hp : payer ∈ F ∪ W) :
    Local State.view F W (fun s => transferLamports tx s kind payer a (rent - s.lamports a)) where
  kept h := by
    rcases transferLamports_eq_ok.mp h with ⟨-, rfl⟩ | ⟨-, -, hfree, -, rfl⟩
    · exact .refl _
    · exact move_kept ha (.inr hfree) hp
  tracks {s t s'} hst h := by
    have hrent := alike_lamports hst (.inl ha)
    rcases transferLamports_eq_ok.mp h with ⟨h0, rfl⟩ | ⟨h0, hs, hfree, hle, rfl⟩
    · exact ⟨t, transferLamports_eq_ok.mpr (.inl ⟨hrent ▸ h0, rfl⟩), hst⟩
    · refine ⟨_, transferLamports_eq_ok.mpr (.inr ⟨hrent ▸ h0, hs, ?_, ?_, rfl⟩), ?_⟩
      · rwa [← alike_inUse hst hp]
      · rwa [← hrent, ← alike_lamports hst hp]
      · rw [hrent]
        exact move_alike hst hp (.inl ha)

theorem createAddress_local {kind : MoveKind} {payer : Address} {rent : Nat} (ha : a ∈ F)
    (hp : payer ∈ F ∪ W) :
    Local State.view F W (fun s => createAddress tx s kind payer a rent) := by
  refine .read (r := fun s => check (¬s.InUse a) _) (fun s t u hst hs => ?_) fun _ => topUp_local ha hp
  rw [check_eq_ok] at hs ⊢
  rwa [← alike_inUse hst (.inl ha)]

theorem create_local {α : Type} {T : AccountType α} {payer : Address} (ha : a ∈ F) (hp : payer ∈ F ∪ W) :
    Local State.view F W (fun s => create P tx T s payer a) := by
  refine .seq (createAddress_local ha hp) ⟨fun h => ?_, fun hst h => ?_⟩
  · cases h
    exact put_kept ha fun b hb => by rw [Store.lookup_insert, if_neg hb]
  · cases h
    refine ⟨_, rfl, put_alike hst fun b hb => ?_⟩
    rw [Store.lookup_insert, Store.lookup_insert, alike_program hst hb]

theorem createIfNeeded_local {α : Type} {T : AccountType α} {payer : Address} (ha : a ∈ F)
    (hp : payer ∈ F ∪ W) : LocalWith State.view F W (fun s => createIfNeeded P tx T s payer a) := by
  refine .branch (fun hst => alike_inUse hst (.inl ha)) (.read (load_reads (.inl ha)) fun x => ?_)
    (.seq (create_local ha hp) .skip)
  refine .read (r := fun s : State => check (((s.program.lookup a).map List.length) = some T.space) _)
    (fun s t u hst hs => ?_) fun _ => .skip
  rw [check_eq_ok] at hs ⊢
  rwa [← alike_program hst (.inl ha)]

theorem close_local {dest : Address} (ha : a ∈ F) (hd : dest ∈ F) :
    Local State.view F W (fun s => (pure (close s a dest) : Except Failure State)) where
  kept {s s'} h := by
    cases h
    exact (move_kept hd (.inl ha) (.inl ha)).trans
      (put_kept (s := s.move .refund a dest (s.lamports a)) ha fun b hb => by
        rw [Store.lookup_erase, if_neg hb]; rfl)
  tracks {s t s'} hst h := by
    cases h
    refine ⟨_, rfl, ?_⟩
    rw [close, close, alike_lamports hst (.inl ha)]
    refine put_alike (move_alike hst (.inl ha) (.inl hd)) fun b hb => ?_
    rw [Store.lookup_erase, Store.lookup_erase, alike_program hst hb]

/-! ## Calls into the token program -/

theorem tokens_kept {r : Tokens Address} (h : Tokens.view.Kept F ∅ s.tokens r) :
    State.view.Kept F W s { s with tokens := r } := by
  intro b hb _
  have hsame := h b hb fun hW => hW.elim
  exact Cell.ext rfl (congrArg Prod.fst hsame) (congrArg Prod.snd hsame) rfl rfl

theorem tokens_put_alike {q r : Tokens Address} (h : State.view.Alike S s t) (hr : Tokens.view.Alike S q r) :
    State.view.Alike S { s with tokens := q } { t with tokens := r } := by
  intro b hb
  obtain ⟨hd, -, -, hf, hl⟩ := Cell.mk.inj (h b hb)
  exact Cell.ext hd (congrArg Prod.fst (hr b hb)) (congrArg Prod.snd (hr b hb)) hf hl

theorem liftToken_local {ctx : Ctx Address} {op : Op Address} (hF : ∀ a ∈ op.reads, a ∈ F) :
    (∀ {s t}, liftToken (exec ctx s op) = .ok t → Tokens.view.Kept F ∅ s t) ∧
    ∀ {s t r}, Tokens.view.Alike (F ∪ W) s t → liftToken (exec ctx s op) = .ok r →
      ∃ q, liftToken (exec ctx t op) = .ok q ∧ Tokens.view.Alike (F ∪ W) r q := by
  refine ⟨fun h => (exec_local hF).kept (liftToken_eq_ok.mp h), fun hst h => ?_⟩
  obtain ⟨q, hq, hrq⟩ := (exec_local (W := W) hF).tracks hst (liftToken_eq_ok.mp h)
  exact ⟨q, liftToken_eq_ok.mpr hq, hrq⟩

theorem invoke_local {signers : List Address} {op : Op Address} (hF : ∀ a ∈ op.reads, a ∈ F) :
    Local State.view F W (fun s => invoke signers s op) where
  kept h := by
    obtain ⟨r, hr, h⟩ := Except.bind_eq_ok.mp h
    cases h
    exact tokens_kept ((liftToken_local (W := W) hF).1 hr)
  tracks hst h := by
    obtain ⟨r, hr, h⟩ := Except.bind_eq_ok.mp h
    cases h
    obtain ⟨q, hq, hrq⟩ := (liftToken_local hF).2 (tokens_alike hst) hr
    exact ⟨_, Except.bind_eq_ok.mpr ⟨q, hq, rfl⟩, tokens_put_alike hst hrq⟩

theorem invokeClose_local {signers : List Address} {dest authority : Address} (ha : a ∈ F) (hd : dest ∈ F) :
    Local State.view F W (fun s => invokeClose signers s a dest authority) where
  kept {s s'} h := by
    obtain ⟨r, hr, h⟩ := Except.bind_eq_ok.mp h
    cases h
    exact (move_kept hd (.inl ha) (.inl ha)).trans
      (tokens_kept (s := s.move .refund a dest (s.lamports a))
        ((liftToken_local (W := W) (by simpa [Op.reads] using ha)).1 hr))
  tracks {s t s'} hst h := by
    obtain ⟨r, hr, h⟩ := Except.bind_eq_ok.mp h
    cases h
    obtain ⟨q, hq, hrq⟩ :=
      (liftToken_local (by simpa [Op.reads] using ha)).2 (tokens_alike hst) hr
    refine ⟨_, Except.bind_eq_ok.mpr ⟨q, hq, rfl⟩, ?_⟩
    rw [alike_lamports hst (.inl ha)]
    exact tokens_put_alike (move_alike hst (.inl ha) (.inl hd)) hrq

theorem createAssociatedToken_local {payer owner mint : Address} (ha : a ∈ F) (hm : mint ∈ F)
    (hp : payer ∈ F ∪ W) : Local State.view F W
    (fun s => createAssociatedToken P tx s payer a owner mint) := by
  refine .pass fun _ _ => .read (loadMint_reads (.inl hm)) fun m => .seq (createAddress_local ha hp) ?_
  refine invoke_local fun b hb => ?_
  simp only [Op.reads, List.mem_cons, List.not_mem_nil, or_false] at hb
  rcases hb with rfl | rfl
  · exact ha
  · exact hm

end Passdari
