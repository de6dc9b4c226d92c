/-
Prefix codecs: a value written as a run of cells that the decoder reads back
off the front of a longer run, whatever follows it.

Both laws are fields of `Codec`, so a codec that is built decodes what it
encodes (`dec_enc`) and has read exactly the cells it would have written
(`enc_dec`). The combinators below are all a record layout needs: one cell,
two codecs in sequence, a fixed number of repetitions, a length read first,
and a partial change of representation (`refine`). Numbers are little-endian.
-/
import Mathlib.Data.Sigma.Basic
import Mathlib.Tactic.Ring

namespace Wire

/-- A codec for `α` over cells `β`. -/
structure Codec (β α : Type) where
  enc : α → List β
  dec : List β → Option (α × List β)
  dec_enc : ∀ a rest, dec (enc a ++ rest) = some (a, rest)
  enc_dec : ∀ {l a rest}, dec l = some (a, rest) → enc a ++ rest = l

namespace Codec

variable {α β γ δ : Type}

@[simp] theorem dec_enc_append (c : Codec β α) (a : α) (rest : List β) :
    c.dec (c.enc a ++ rest) = some (a, rest) := c.dec_enc a rest

@[simp] theorem dec_enc_self (c : Codec β α) (a : α) : c.dec (c.enc a) = some (a, []) := by
  simpa using c.dec_enc a []

theorem length_dec (c : Codec β α) {l : List β} {a rest} (h : c.dec l = some (a, rest)) :
    (c.enc a).length + rest.length = l.length := by
  rw [← c.enc_dec h, List.length_append]

/-- Every value takes exactly `n` cells. -/
def Sized (c : Codec β α) (n : Nat) : Prop := ∀ a, (c.enc a).length = n

/-! ## Combinators -/

/-- One cell, as it is. -/
def cell : Codec β β where
  enc a := [a]
  dec
    | [] => none
    | a :: rest => some (a, rest)
  dec_enc _ _ := rfl
  enc_dec {l a rest} h := by
    cases l with
    | nil => cases h
    | cons b l => cases h; rfl

/-- Two codecs, one after the other. -/
def seq (c : Codec β α) (d : Codec β γ) : Codec β (α × γ) where
  enc p := c.enc p.1 ++ d.enc p.2
  dec l := (c.dec l).bind fun p => (d.dec p.2).map fun q => ((p.1, q.1), q.2)
  dec_enc a rest := by simp [List.append_assoc]
  enc_dec {l a rest} h := by
    simp only [Option.bind_eq_some_iff, Option.map_eq_some_iff, Prod.mk.injEq] at h
    obtain ⟨⟨x, l'⟩, hc, ⟨y, r⟩, hd, rfl, rfl⟩ := h
    rw [List.append_assoc, d.enc_dec hd, c.enc_dec hc]

/-- A second codec chosen by the value of the first: a length and what it counts. -/
def bind {γ : α → Type} (c : Codec β α) (d : ∀ a, Codec β (γ a)) : Codec β (Σ a, γ a) where
  enc p := c.enc p.1 ++ (d p.1).enc p.2
  dec l := (c.dec l).bind fun p => ((d p.1).dec p.2).map fun q => (⟨p.1, q.1⟩, q.2)
  dec_enc a rest := by simp [List.append_assoc]
  enc_dec {l a rest} h := by
    simp only [Option.bind_eq_some_iff, Option.map_eq_some_iff, Prod.mk.injEq] at h
    obtain ⟨⟨x, l'⟩, hc, ⟨y, r⟩, hd, rfl, rfl⟩ := h
    rw [List.append_assoc, (d x).enc_dec hd, c.enc_dec hc]

/-- A change of representation that some encoded values may not have: `f` reads it, `g` writes it. -/
def refine (c : Codec β α) (f : α → Option γ) (g : γ → α) (fg : ∀ x, f (g x) = some x)
    (gf : ∀ {a x}, f a = some x → g x = a) : Codec β γ where
  enc x := c.enc (g x)
  dec l := (c.dec l).bind fun p => (f p.1).map fun x => (x, p.2)
  dec_enc x rest := by simp [fg]
  enc_dec {l x rest} h := by
    simp only [Option.bind_eq_some_iff, Option.map_eq_some_iff, Prod.mk.injEq] at h
    obtain ⟨⟨a, r⟩, hc, y, hy, rfl, rfl⟩ := h
    rw [gf hy, c.enc_dec hc]

/-- A change of representation every value has. -/
def iso (c : Codec β α) (f : α → γ) (g : γ → α) (fg : ∀ x, f (g x) = x) (gf : ∀ a, g (f a) = a) :
    Codec β γ :=
  c.refine (fun a => some (f a)) g (fun x => by rw [fg]) (fun h => by cases h; exact gf _)

/-- `n` values one after the other. -/
def rep (c : Codec β α) : (n : Nat) → Codec β { l : List α // l.length = n }
  | 0 => {
      enc := fun _ => []
      dec := fun l => some (⟨[], rfl⟩, l)
      dec_enc := fun a rest => by
        obtain ⟨l, hl⟩ := a
        cases List.length_eq_zero_iff.mp hl
        rfl
      enc_dec := fun {l a rest} h => by
        simp only [Option.some.injEq, Prod.mk.injEq] at h
        simp [h.2] }
  | n + 1 => (c.seq (rep c n)).iso (fun p => ⟨p.1 :: p.2.1, by simp [p.2.2]⟩)
      (fun l => (l.1.head (by intro h; have := l.2; simp [h] at this), ⟨l.1.tail, by simp [l.2]⟩))
      (fun l => by simp)
      (fun p => by simp)

theorem rep_enc (c : Codec β α) : ∀ (n : Nat) (l : { l : List α // l.length = n }),
    (c.rep n).enc l = l.1.flatMap c.enc
  | 0, ⟨l, hl⟩ => by cases List.length_eq_zero_iff.mp hl; rfl
  | n + 1, ⟨[], hl⟩ => by simp at hl
  | n + 1, ⟨a :: l, hl⟩ => by
    have := rep_enc c n ⟨l, by simpa using hl⟩
    simp only [rep, iso, refine, seq, List.head_cons, List.tail_cons, List.flatMap_cons, this]

/-! ## Sizes -/

theorem Sized.seq {c : Codec β α} {d : Codec β γ} {m n} (hc : c.Sized m) (hd : d.Sized n) :
    (c.seq d).Sized (m + n) := fun p => by simp [Codec.seq, hc p.1, hd p.2]

theorem Sized.refine {c : Codec β α} {n} (hc : c.Sized n) {f : α → Option γ} {g : γ → α} {fg gf} :
    (c.refine f g fg gf).Sized n := fun x => hc (g x)

theorem Sized.iso {c : Codec β α} {n} (hc : c.Sized n) {f : α → γ} {g : γ → α} {fg gf} :
    (c.iso f g fg gf).Sized n := fun x => hc (g x)

theorem Sized.rep {c : Codec β α} {m} (hc : c.Sized m) (n : Nat) : (c.rep n).Sized (n * m) := by
  intro ⟨l, hl⟩
  rw [rep_enc]
  subst hl
  induction l with
  | nil => simp
  | cons a l ih => simp only [List.flatMap_cons, List.length_append, List.length_cons, hc a, ih]; ring

theorem cell_sized : (cell : Codec β β).Sized 1 := fun _ => rfl

/-! ## Reading whatever is there -/

/-- Any `n` cells that are written as `lit` are read as some value, and what follows them is left. -/
def Reads (c : Codec β α) (lit : γ → β) (n : Nat) : Prop :=
  ∀ l : List γ, n ≤ l.length → ∃ a, c.dec (l.map lit) = some (a, (l.drop n).map lit)

section Reads

variable {lit : δ → β} {m n : Nat}

theorem Reads.seq {c : Codec β α} {d : Codec β γ} (hc : c.Reads lit m) (hd : d.Reads lit n) :
    (c.seq d).Reads lit (m + n) := by
  intro l hl
  obtain ⟨a, ha⟩ := hc l (by omega)
  obtain ⟨b, hb⟩ := hd (l.drop m) (by rw [List.length_drop]; omega)
  refine ⟨(a, b), ?_⟩
  rw [List.drop_drop] at hb
  simp only [Codec.seq, ha, Option.bind_some, hb, Option.map_some]

theorem Reads.refine {c : Codec β α} {f : α → Option γ} {g : γ → α} {fg gf} (hc : c.Reads lit n)
    (hf : ∀ a (l : List δ), c.enc a = l.map lit → (f a).isSome = true) :
    (c.refine f g fg gf).Reads lit n := by
  intro l hl
  obtain ⟨a, ha⟩ := hc l hl
  have henc : c.enc a = (l.take n).map lit := by
    have := c.enc_dec ha
    rw [← List.take_append_drop n (l.map lit), List.map_drop] at this
    exact (List.append_cancel_right this).trans List.map_take.symm
  obtain ⟨b, hb⟩ := Option.isSome_iff_exists.mp (hf a _ henc)
  refine ⟨b, ?_⟩
  simp only [Codec.refine, ha, Option.bind_some, hb, Option.map_some]

theorem Reads.iso {c : Codec β α} {f : α → γ} {g : γ → α} {fg gf} (hc : c.Reads lit n) :
    (c.iso f g fg gf).Reads lit n := hc.refine fun _ _ _ => rfl

theorem Reads.rep {c : Codec β α} (hc : c.Reads lit m) : ∀ n : Nat, (c.rep n).Reads lit (n * m)
  | 0 => fun l _ => ⟨⟨[], rfl⟩, by rw [Nat.zero_mul, List.drop_zero]; rfl⟩
  | n + 1 => by
    rw [Nat.succ_mul, Nat.add_comm (n * m) m]
    exact (hc.seq (Reads.rep hc n)).iso

theorem cell_reads : (cell : Codec β β).Reads lit 1
  | [], h => absurd h (by simp)
  | x :: l, _ => ⟨lit x, rfl⟩

end Reads

/-- Too few cells are no value of a fixed size. -/
theorem Sized.dec_short {c : Codec β α} {n : Nat} (hc : c.Sized n) {l : List β} (h : l.length < n) :
    c.dec l = none := by
  cases hd : c.dec l with
  | none => rfl
  | some p =>
    have := c.length_dec hd
    rw [hc] at this
    omega

/-! ## Little-endian numbers -/

/-- The `w` little-endian digits of `n`, base 256. -/
def leBytes : Nat → Nat → List UInt8
  | 0, _ => []
  | w + 1, n => UInt8.ofNat n :: leBytes w (n / 256)

def leValue : List UInt8 → Nat
  | [] => 0
  | b :: bs => b.toNat + 256 * leValue bs

@[simp] theorem length_leBytes (w n : Nat) : (leBytes w n).length = w := by
  induction w generalizing n with
  | zero => rfl
  | succ w ih => simp [leBytes, ih]

theorem leValue_leBytes (w n : Nat) (h : n < 256 ^ w) : leValue (leBytes w n) = n := by
  induction w generalizing n with
  | zero => simp only [pow_zero] at h; simp only [leBytes, leValue]; omega
  | succ w ih =>
    have hd : n / 256 < 256 ^ w := by
      rw [pow_succ] at h
      exact Nat.div_lt_of_lt_mul (by omega)
    simp only [leBytes, leValue, ih _ hd, UInt8.toNat_ofNat']
    omega

theorem leBytes_leValue (l : List UInt8) : leBytes l.length (leValue l) = l := by
  induction l with
  | nil => rfl
  | cons b l ih =>
    have hb := b.toNat_lt
    have hm : UInt8.ofNat (b.toNat + 256 * leValue l) = b := by
      apply UInt8.toNat_inj.mp
      rw [UInt8.toNat_ofNat']
      omega
    have hd : (b.toNat + 256 * leValue l) / 256 = leValue l := by omega
    simp only [List.length_cons, leBytes, leValue, hm, hd, ih]

theorem leValue_lt (l : List UInt8) : leValue l < 256 ^ l.length := by
  induction l with
  | nil => simp [leValue]
  | cons b l ih =>
    have hb := b.toNat_lt
    simp only [leValue, List.length_cons, pow_succ]
    omega

section Numbers

variable (byte : Codec β UInt8)

/-- A number below `256 ^ w` in `w` cells. -/
def fin (w : Nat) : Codec β (Fin (256 ^ w)) :=
  (byte.rep w).iso (fun l => ⟨leValue l.1, by simpa only [l.2] using leValue_lt l.1⟩)
    (fun n => ⟨leBytes w n.1, length_leBytes w n.1⟩)
    (fun n => by simp only [leValue_leBytes w n.1 n.2])
    (fun l => by
      obtain ⟨l, rfl⟩ := l
      simp only [leBytes_leValue])

theorem fin_sized (hb : byte.Sized 1) (w : Nat) : (fin byte w).Sized w :=
  fun n => by
    have := hb.rep w ⟨leBytes w n.1, length_leBytes w n.1⟩
    rwa [Nat.mul_one] at this

def u32 : Codec β UInt32 :=
  (fin byte 4).iso UInt32.ofFin UInt32.toFin (fun _ => rfl) (fun _ => rfl)

def u64 : Codec β UInt64 :=
  (fin byte 8).iso UInt64.ofFin UInt64.toFin (fun _ => rfl) (fun _ => rfl)

def i64 : Codec β Int64 :=
  (u64 byte).iso UInt64.toInt64 Int64.toUInt64 (fun _ => rfl) (fun _ => rfl)

theorem u32_sized (hb : byte.Sized 1) : (u32 byte).Sized 4 := (fin_sized byte hb 4).iso
theorem u64_sized (hb : byte.Sized 1) : (u64 byte).Sized 8 := (fin_sized byte hb 8).iso
theorem i64_sized (hb : byte.Sized 1) : (i64 byte).Sized 8 := (u64_sized byte hb).iso

section Reads

variable {byte} {lit : α → β}

theorem fin_reads (hb : byte.Reads lit 1) (w : Nat) : (fin byte w).Reads lit w := by
  have h := hb.rep w
  rw [Nat.mul_one] at h
  exact h.iso

theorem u32_reads (hb : byte.Reads lit 1) : (u32 byte).Reads lit 4 := (fin_reads hb 4).iso
theorem i64_reads (hb : byte.Reads lit 1) : (i64 byte).Reads lit 8 := (fin_reads hb 8).iso.iso

end Reads

end Numbers

end Codec

/-! ## Strings -/

/-- A string whose byte length fits the four-byte length it is written with. -/
structure Text where
  val : String
  size_lt : val.utf8ByteSize < 2 ^ 32
  deriving DecidableEq

namespace Text

/-- The length in bytes. -/
def len (t : Text) : Nat := t.val.utf8ByteSize

theorem len_lt (t : Text) : t.len < 2 ^ 32 := t.size_lt

/-- The UTF-8 bytes. -/
def bytes (t : Text) : List UInt8 := t.val.toByteArray.data.toList

@[simp] theorem length_bytes (t : Text) : t.bytes.length = t.len := rfl

/-- The text with these bytes, when they are UTF-8 and `n` of them. -/
def ofBytes (n : UInt32) (bs : { l : List UInt8 // l.length = n.toNat }) : Option Text :=
  if h : (ByteArray.mk bs.1.toArray).IsValidUTF8 then
    some ⟨⟨⟨bs.1.toArray⟩, h⟩, by
      have hlen : bs.1.length < 2 ^ 32 := by rw [bs.2]; exact n.toNat_lt
      exact hlen⟩
  else none

end Text

namespace Codec

variable {β : Type} (byte : Codec β UInt8)

/-- A string: its length in bytes, then the bytes. -/
def text : Codec β Text :=
  ((u32 byte).bind fun n => byte.rep n.toNat).refine (fun p => Text.ofBytes p.1 p.2)
    (fun t => ⟨UInt32.ofNat t.len, t.bytes, by
      rw [UInt32.toNat_ofNat_of_lt' t.len_lt]; rfl⟩)
    (fun t => by
      have hv : (ByteArray.mk t.bytes.toArray).IsValidUTF8 := t.val.isValidUTF8
      simp only [Text.ofBytes, hv, dite_true]
      rfl)
    (fun {p t} h => by
      obtain ⟨n, bs, hbs⟩ := p
      simp only [Text.ofBytes] at h
      split at h
      · cases h
        refine Sigma.subtype_ext ?_ rfl
        show UInt32.ofNat bs.length = n
        rw [hbs, UInt32.ofNat_toNat]
      · cases h)

theorem text_length (hb : byte.Sized 1) (t : Text) : ((text byte).enc t).length = 4 + t.len := by
  have h4 := u32_sized byte hb (UInt32.ofNat t.len)
  have hr := hb.rep t.len ⟨t.bytes, rfl⟩
  simp only [rep_enc] at hr
  simp only [text, refine, bind, List.length_append, h4, rep_enc, hr, Nat.mul_one]

end Codec

end Wire
