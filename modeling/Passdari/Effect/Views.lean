/-
How the bytes of a program account read: as a record of the current layout,
or, more coarsely, as its face, which an account of an older layout has too.
An old shop and a current one have the same face when the fields of the old
layout agree, and so have an old card and a current one.
-/
import Passdari.Effect.Delta

namespace Passdari

open Wire

inductive Face
  | counter (x : Counter)
  | business (x : BusinessV1)
  | receipt (x : Receipt)
  | card (x : CardV1)
  | voucher (x : Voucher)
  | cardNft (x : CardNft)
  deriving DecidableEq

def Record.face : Record → Face
  | .counter x => .counter x
  | .business x => .business x.toBusinessV1
  | .receipt x => .receipt x
  | .card x => .card x.toCardV1
  | .voucher x => .voucher x
  | .cardNft x => .cardNft x

/-- The face of an account's data: its discriminator and the fields every layout of it has. -/
def Face.parse (data : List Byte) : Option Face :=
  let fields := data.drop 8
  if data.take 8 = Counter.discriminator then (Counter.layout.dec fields).map fun p => .counter p.1
  else if data.take 8 = Business.discriminator then (BusinessV1.layout.dec fields).map fun p => .business p.1
  else if data.take 8 = Receipt.discriminator then (Receipt.layout.dec fields).map fun p => .receipt p.1
  else if data.take 8 = LoyaltyCard.discriminator then (CardV1.layout.dec fields).map fun p => .card p.1
  else if data.take 8 = Voucher.discriminator then (Voucher.layout.dec fields).map fun p => .voucher p.1
  else if data.take 8 = CardNft.discriminator then (CardNft.layout.dec fields).map fun p => .cardNft p.1
  else none

/-- The face of an account, if it has one. -/
def State.face? (s : State) (a : Address) : Option Face := (s.program.lookup a).bind Face.parse

theorem LoyaltyCard.layout_enc (c : LoyaltyCard) :
    LoyaltyCard.layout.enc c = CardV1.layout.enc c.toCardV1 ++
    (address.enc c.rentPayer ++ u32.enc c.rewardsEarned) :=
  rfl

theorem Business.layout_enc (b : Business) : Business.layout.enc b = BusinessV1.layout.enc b.toBusinessV1 ++
    (i64.enc b.termsLockedUntil ++
      (u32.enc b.openCards ++ (address.enc b.rentPayer ++ u32.enc b.openVouchers))) :=
  rfl

theorem Face.parse_bytes_append (r : Record) (rest : List Byte) :
    Face.parse (r.bytes ++ rest) = some r.face := by
  cases r <;>
    simp [Face.parse, Record.bytes, Record.face, Counter.discriminator, Business.discriminator,
      Receipt.discriminator, LoyaltyCard.discriminator, Voucher.discriminator, CardNft.discriminator,
      LoyaltyCard.layout_enc, Business.layout_enc, List.append_assoc]

/-- A record has the face of its kind. -/
theorem Face.parse_of_record {data : List Byte} {r : Record} (h : Record.parse data = some r) :
    Face.parse data = some r.face := by
  obtain ⟨rest, rfl⟩ := Record.bytes_of_parse h
  exact Face.parse_bytes_append r rest

theorem State.face?_of_record? {s : State} {a : Address} {r : Record} (h : s.record? a = some r) :
    s.face? a = some r.face := by
  obtain ⟨data, hd, hp⟩ := Option.bind_eq_some_iff.mp h
  exact Option.bind_eq_some_iff.mpr ⟨data, hd, Face.parse_of_record hp⟩

theorem State.face?_of_lookup {s s' : State} {a : Address} (h : s'.program.lookup a = s.program.lookup a) :
    s'.face? a = s.face? a := by rw [State.face?, h, State.face?]

theorem State.record?_of_lookup {s s' : State} {a : Address} (h : s'.program.lookup a = s.program.lookup a) :
    s'.record? a = s.record? a := by rw [State.record?, h, State.record?]

theorem Record.length_le_of_parse {data : List Byte} {r : Record} (h : Record.parse data = some r) :
    r.bytes.length ≤ data.length := by
  obtain ⟨rest, rfl⟩ := Record.bytes_of_parse h
  simp

/-- The bytes of a card of any layout: discriminator, the oldest fields, and what follows them. -/
theorem Face.bytes_of_card {data : List Byte} {c : CardV1} (h : Face.parse data = some (.card c)) :
    ∃ rest, data = LoyaltyCard.discriminator ++ (CardV1.layout.enc c ++ rest) := by
  have key : ∀ {α : Type} {l : Codec Byte α} {f : α → Face}, (∀ x, f x ≠ .card c) →
      (l.dec (data.drop 8)).map (fun p => f p.1) ≠ some (.card c) := by
    intro α l f hf h
    obtain ⟨p, -, hp⟩ := Option.map_eq_some_iff.mp h
    exact hf p.1 hp
  simp only [Face.parse] at h
  split at h
  · exact absurd h (key (by simp))
  split at h
  · exact absurd h (key (by simp))
  split at h
  · exact absurd h (key (by simp))
  split at h
  · next hdisc =>
    obtain ⟨⟨x, rest⟩, hdec, hx⟩ := Option.map_eq_some_iff.mp h
    cases hx
    exact ⟨rest, by rw [CardV1.layout.enc_dec hdec, ← hdisc, List.take_append_drop]⟩
  split at h
  · exact absurd h (key (by simp))
  split at h
  · exact absurd h (key (by simp))
  · cases h

/-- A card's discriminator and a face make the face a card's. -/
theorem Face.card_of_discriminator {data : List Byte} {f : Face} (h : Face.parse data = some f)
    (hdisc : data.take 8 = LoyaltyCard.discriminator) : ∃ c, f = .card c := by
  simp only [Face.parse, hdisc] at h
  simp only [Counter.discriminator, Business.discriminator, Receipt.discriminator, LoyaltyCard.discriminator]
    at h
  simp at h
  obtain ⟨p, hp, rfl⟩ := h
  exact ⟨_, rfl⟩

/-- A shop's discriminator and its oldest fields are a shop's face. -/
theorem Face.parse_business {data : List Byte} {b : BusinessV1} (hdisc : data.take 8 = Business.discriminator)
    (h : readAt BusinessV1.layout data 8 = some b) : Face.parse data = some (.business b) := by
  obtain ⟨⟨x, rest⟩, hdec, rfl⟩ := Option.map_eq_some_iff.mp h
  simp [Face.parse, hdisc, hdec, Counter.discriminator, Business.discriminator]

/-! ## Placement -/

/-- The address an account with this face belongs at: the one its own seeds and bump make. -/
def Face.At (a : Address) : Face → Prop
  | .counter x => a = .counter x.owner x.bump
  | .business x => a = .business x.authority x.bump
  | .receipt x => ∃ secretHash, a = .receipt x.business secretHash x.bump
  | .card x => a = .card x.business x.customer x.bump
  | .voucher x => a = .voucher x.business x.voucherId x.bump
  | .cardNft x => ∃ mint, a = .cardNft mint x.bump

/-- Every account of the program reads as one of its types, of this layout or an older one, and is at its
own address; and a card that records who paid for it records an address. -/
structure State.WellPlaced (s : State) : Prop where
  faced : ∀ {a data}, s.program.lookup a = some data → ∃ f, Face.parse data = some f ∧ f.At a
  legible : ∀ {a data c}, s.program.lookup a = some data → Face.parse data = some (.card c) →
    cardLenV2 ≤ data.length → (readAt address data cardLenV1).isSome = true

namespace State.WellPlaced

variable {s : State} {a : Address}

theorem placed (h : s.WellPlaced) {f : Face} (hf : s.face? a = some f) : f.At a := by
  obtain ⟨data, hd, hp⟩ := Option.bind_eq_some_iff.mp hf
  obtain ⟨g, hg, hat⟩ := h.faced hd
  rw [hp, Option.some.injEq] at hg
  exact hg ▸ hat

theorem card (h : s.WellPlaced) {c : LoyaltyCard} (hc : s.record? a = some (.card c)) :
    a = .card c.business c.customer c.bump := h.placed (State.face?_of_record? hc)

theorem voucher (h : s.WellPlaced) {v : Voucher} (hv : s.record? a = some (.voucher v)) :
    a = .voucher v.business v.voucherId v.bump := h.placed (State.face?_of_record? hv)

theorem business (h : s.WellPlaced) {b : Business} (hb : s.record? a = some (.business b)) :
    a = .business b.authority b.bump := h.placed (State.face?_of_record? hb)

theorem receipt (h : s.WellPlaced) {r : Receipt} (hr : s.record? a = some (.receipt r)) :
    ∃ secretHash, a = .receipt r.business secretHash r.bump := h.placed (State.face?_of_record? hr)

end State.WellPlaced

/-! ## Rooms -/

/-- The room an account of this kind has. -/
def Record.space : Record → Nat
  | .counter _ => Counter.space
  | .business _ => Business.space
  | .receipt _ => Receipt.space
  | .card _ => LoyaltyCard.space
  | .voucher _ => Voucher.space
  | .cardNft _ => CardNft.space

/-- Every record of a kind other than a shop fills its room exactly. -/
theorem Record.length_bytes {r : Record} (h : ∀ b, r ≠ .business b) : r.bytes.length = r.space := by
  have h1 := Counter.layout_sized
  have h2 := Receipt.layout_sized
  have h3 := LoyaltyCard.layout_sized
  have h4 := Voucher.layout_sized
  have h5 := CardNft.layout_sized
  cases r with
  | business b => exact absurd rfl (h b)
  | counter x => simp [Record.bytes, Record.space, h1 x, Counter.discriminator, Counter.space]
  | receipt x => simp [Record.bytes, Record.space, h2 x, Receipt.discriminator, Receipt.space]
  | card x => simp [Record.bytes, Record.space, h3 x, LoyaltyCard.discriminator, LoyaltyCard.space]
  | voucher x => simp [Record.bytes, Record.space, h4 x, Voucher.discriminator, Voucher.space]
  | cardNft x => simp [Record.bytes, Record.space, h5 x, CardNft.discriminator, CardNft.space]

end Passdari
