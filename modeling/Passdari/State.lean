/-
The accounts the program owns, field by field in declaration order, and how
they are written: eight discriminator bytes, then the Borsh encoding of the
fields. A reader takes the fields off the front of the data and leaves what
follows them alone, and a writer overwrites that front only.

`BusinessV1` and `CardV1` are the oldest layouts of a shop and a card; a
current one is the old one with fields added at its end.
-/
import Passdari.Address

namespace Passdari

open Wire

structure Counter where
  owner : Address
  count : UInt64
  bump : UInt8
  deriving DecidableEq

structure BusinessV1 where
  authority : Address
  name : Text
  category : Text
  rewardLabel : Text
  stampsRequired : UInt8
  minPurchaseAmount : UInt64
  currency : Text
  receiptTtlSeconds : UInt32
  receiptsWindowStart : Int64
  receiptsThisWindow : UInt32
  totalCards : UInt32
  totalStampsIssued : UInt64
  totalVouchersIssued : UInt64
  totalRedemptions : UInt32
  bump : UInt8
  deriving DecidableEq

structure Business extends BusinessV1 where
  termsLockedUntil : Int64
  openCards : UInt32
  rentPayer : Address
  openVouchers : UInt32
  deriving DecidableEq

structure Receipt where
  business : Address
  amountBand : UInt8
  issuedAt : Int64
  expiresAt : Int64
  bump : UInt8
  rentPayer : Address
  deriving DecidableEq

/-- A card as the oldest accounts hold it, before `rentPayer` and `rewardsEarned`. -/
structure CardV1 where
  business : Address
  customer : Address
  stamps : UInt8
  lastStampTs : Int64
  claimsWindowStart : Int64
  claimsThisWindow : UInt32
  lifetimeStamps : UInt32
  nftCycle : UInt32
  stampsRequiredSnapshot : UInt8
  bump : UInt8
  deriving DecidableEq

structure LoyaltyCard extends CardV1 where
  rentPayer : Address
  rewardsEarned : UInt32
  deriving DecidableEq

structure Voucher where
  business : Address
  owner : Address
  mint : Address
  voucherId : UInt64
  mintedAt : Int64
  bump : UInt8
  rentPayer : Address
  expiresAt : Int64
  deriving DecidableEq

structure CardNft where
  rentPayer : Address
  bump : UInt8
  deriving DecidableEq

/-! ## Borsh layouts -/

def u8 : Codec Byte UInt8 := byte
def u32 : Codec Byte UInt32 := Codec.u32 byte
def u64 : Codec Byte UInt64 := Codec.u64 byte
def i64 : Codec Byte Int64 := Codec.i64 byte
def text : Codec Byte Text := Codec.text byte

def Counter.layout : Codec Byte Counter :=
  (address.seq (u64.seq u8)).iso (fun (o, c, b) => ⟨o, c, b⟩) (fun x => (x.owner, x.count, x.bump))
    (fun _ => rfl) (fun _ => rfl)

def BusinessV1.layout : Codec Byte BusinessV1 :=
  (address.seq <| text.seq <| text.seq <| text.seq <| u8.seq <| u64.seq <| text.seq <| u32.seq <| i64.seq <|
    u32.seq <| u32.seq <| u64.seq <| u64.seq <| u32.seq u8).iso
    (fun (a, n, c, r, s, m, cu, ttl, ws, wc, tc, ts, tv, tr, b) =>
      ⟨a, n, c, r, s, m, cu, ttl, ws, wc, tc, ts, tv, tr, b⟩)
    (fun x => (x.authority, x.name, x.category, x.rewardLabel, x.stampsRequired, x.minPurchaseAmount,
      x.currency, x.receiptTtlSeconds, x.receiptsWindowStart, x.receiptsThisWindow, x.totalCards,
      x.totalStampsIssued, x.totalVouchersIssued, x.totalRedemptions, x.bump))
    (fun _ => rfl) (fun _ => rfl)

def Business.layout : Codec Byte Business :=
  (BusinessV1.layout.seq <| i64.seq <| u32.seq <| address.seq u32).iso
    (fun (v, t, oc, p, ov) => ⟨v, t, oc, p, ov⟩)
    (fun x => (x.toBusinessV1, x.termsLockedUntil, x.openCards, x.rentPayer, x.openVouchers))
    (fun _ => rfl) (fun _ => rfl)

def Receipt.layout : Codec Byte Receipt :=
  (address.seq <| u8.seq <| i64.seq <| i64.seq <| u8.seq address).iso
    (fun (b, a, i, e, bu, p) => ⟨b, a, i, e, bu, p⟩)
    (fun x => (x.business, x.amountBand, x.issuedAt, x.expiresAt, x.bump, x.rentPayer))
    (fun _ => rfl) (fun _ => rfl)

def CardV1.layout : Codec Byte CardV1 :=
  (address.seq <| address.seq <| u8.seq <| i64.seq <| i64.seq <| u32.seq <| u32.seq <| u32.seq <|
    u8.seq u8).iso
    (fun (b, c, s, l, ws, wc, li, n, sn, bu) => ⟨b, c, s, l, ws, wc, li, n, sn, bu⟩)
    (fun x => (x.business, x.customer, x.stamps, x.lastStampTs, x.claimsWindowStart, x.claimsThisWindow,
      x.lifetimeStamps, x.nftCycle, x.stampsRequiredSnapshot, x.bump))
    (fun _ => rfl) (fun _ => rfl)

def LoyaltyCard.layout : Codec Byte LoyaltyCard :=
  (CardV1.layout.seq <| address.seq u32).iso (fun (v, p, r) => ⟨v, p, r⟩)
    (fun x => (x.toCardV1, x.rentPayer, x.rewardsEarned)) (fun _ => rfl) (fun _ => rfl)

def Voucher.layout : Codec Byte Voucher :=
  (address.seq <| address.seq <| address.seq <| u64.seq <| i64.seq <| u8.seq <| address.seq i64).iso
    (fun (b, o, m, n, t, bu, p, e) => ⟨b, o, m, n, t, bu, p, e⟩)
    (fun x => (x.business, x.owner, x.mint, x.voucherId, x.mintedAt, x.bump, x.rentPayer, x.expiresAt))
    (fun _ => rfl) (fun _ => rfl)

def CardNft.layout : Codec Byte CardNft :=
  (address.seq u8).iso (fun (p, b) => ⟨p, b⟩) (fun x => (x.rentPayer, x.bump)) (fun _ => rfl) (fun _ => rfl)

section Sizes

theorem u8_sized : u8.Sized 1 := byte_sized
theorem u32_sized : u32.Sized 4 := Codec.u32_sized byte byte_sized
theorem u64_sized : u64.Sized 8 := Codec.u64_sized byte byte_sized
theorem i64_sized : i64.Sized 8 := Codec.i64_sized byte byte_sized

theorem Counter.layout_sized : Counter.layout.Sized 41 := (address_sized.seq (u64_sized.seq u8_sized)).iso

theorem Receipt.layout_sized : Receipt.layout.Sized 82 :=
  (address_sized.seq <| u8_sized.seq <| i64_sized.seq <| i64_sized.seq <| u8_sized.seq address_sized).iso

theorem CardV1.layout_sized : CardV1.layout.Sized 95 :=
  (address_sized.seq <| address_sized.seq <| u8_sized.seq <| i64_sized.seq <| i64_sized.seq <|
    u32_sized.seq <|
    u32_sized.seq <| u32_sized.seq <| u8_sized.seq u8_sized).iso

theorem LoyaltyCard.layout_sized : LoyaltyCard.layout.Sized 131 :=
  (CardV1.layout_sized.seq <| address_sized.seq u32_sized).iso

theorem Voucher.layout_sized : Voucher.layout.Sized 153 :=
  (address_sized.seq <| address_sized.seq <| address_sized.seq <| u64_sized.seq <| i64_sized.seq <|
    u8_sized.seq <| address_sized.seq i64_sized).iso

theorem CardNft.layout_sized : CardNft.layout.Sized 33 := (address_sized.seq u8_sized).iso

/-- The space an old shop's fields take: its strings take what they use. -/
theorem BusinessV1.layout_length (b : BusinessV1) : (BusinessV1.layout.enc b).length =
    98 + b.name.len + b.category.len + b.rewardLabel.len + b.currency.len := by
  have ht := Codec.text_length byte byte_sized
  have ha := address_sized
  have h1 := u8_sized
  have h4 := u32_sized
  have h8 := u64_sized
  have hi := i64_sized
  simp only [BusinessV1.layout, Codec.iso, Codec.refine, Codec.seq, List.length_append, ha _, h1 _, h4 _,
    h8 _, hi _, text, ht]
  ring

theorem Business.layout_length (b : Business) : (Business.layout.enc b).length =
    146 + b.name.len + b.category.len + b.rewardLabel.len + b.currency.len := by
  have hv := BusinessV1.layout_length b.toBusinessV1
  have ha := address_sized
  have h4 := u32_sized
  have hi := i64_sized
  simp only [Business.layout, Codec.iso, Codec.refine, Codec.seq, List.length_append, ha _, h4 _, hi _, hv]
  ring

end Sizes

/-! ## Accounts -/

/-- Any of them. -/
inductive Record
  | counter (x : Counter)
  | business (x : Business)
  | receipt (x : Receipt)
  | card (x : LoyaltyCard)
  | voucher (x : Voucher)
  | cardNft (x : CardNft)
  deriving DecidableEq

/-- The first eight bytes of `sha256("account:" ++ name)`. -/
def Counter.discriminator : List Byte := [255, 176, 4, 245, 188, 253, 124, 25].map .lit
def Business.discriminator : List Byte := [60, 203, 129, 133, 68, 183, 210, 177].map .lit
def Receipt.discriminator : List Byte := [39, 154, 73, 106, 80, 102, 145, 153].map .lit
def LoyaltyCard.discriminator : List Byte := [204, 41, 42, 207, 153, 71, 5, 60].map .lit
def Voucher.discriminator : List Byte := [191, 204, 149, 234, 213, 165, 13, 65].map .lit
def CardNft.discriminator : List Byte := [234, 102, 146, 79, 206, 88, 37, 62].map .lit

/-- `8 + INIT_SPACE`: the room reserved for each. -/
def Counter.space : Nat := 49
def Business.space : Nat := 241
def Receipt.space : Nat := 90
def LoyaltyCard.space : Nat := 139
def Voucher.space : Nat := 161
def CardNft.space : Nat := 41

/-- What a writer puts at the front of the account. -/
def Record.bytes : Record → List Byte
  | .counter x => Counter.discriminator ++ Counter.layout.enc x
  | .business x => Business.discriminator ++ Business.layout.enc x
  | .receipt x => Receipt.discriminator ++ Receipt.layout.enc x
  | .card x => LoyaltyCard.discriminator ++ LoyaltyCard.layout.enc x
  | .voucher x => Voucher.discriminator ++ Voucher.layout.enc x
  | .cardNft x => CardNft.discriminator ++ CardNft.layout.enc x

/-- What a reader makes of an account's data: by its discriminator, then its fields. Bytes after the
fields are not read. -/
def Record.parse (data : List Byte) : Option Record :=
  let fields := data.drop 8
  if data.take 8 = Counter.discriminator then (Counter.layout.dec fields).map fun p => .counter p.1
  else if data.take 8 = Business.discriminator then (Business.layout.dec fields).map fun p => .business p.1
  else if data.take 8 = Receipt.discriminator then (Receipt.layout.dec fields).map fun p => .receipt p.1
  else if data.take 8 = LoyaltyCard.discriminator then (LoyaltyCard.layout.dec fields).map fun p => .card p.1
  else if data.take 8 = Voucher.discriminator then (Voucher.layout.dec fields).map fun p => .voucher p.1
  else if data.take 8 = CardNft.discriminator then (CardNft.layout.dec fields).map fun p => .cardNft p.1
  else none

/-- What was written is read back, whatever is left behind it in the account. -/
theorem Record.parse_bytes_append (r : Record) (rest : List Byte) :
    Record.parse (r.bytes ++ rest) = some r := by
  cases r <;>
    simp [Record.parse, Record.bytes, Counter.discriminator, Business.discriminator, Receipt.discriminator,
      LoyaltyCard.discriminator, Voucher.discriminator, CardNft.discriminator]

/-- A reader has read exactly the bytes a writer would put there. -/
theorem Record.bytes_of_parse {data : List Byte} {r : Record} (h : Record.parse data = some r) :
    ∃ rest, data = r.bytes ++ rest := by
  have key : ∀ {α : Type} (c : Codec Byte α) (f : α → Record) (d : List Byte),
      (∀ a, (f a).bytes = d ++ c.enc a) → data.take 8 = d →
      (c.dec (data.drop 8)).map (fun p => f p.1) = some r → ∃ rest, data = r.bytes ++ rest := by
    intro α c f d hf hd h
    simp only [Option.map_eq_some_iff] at h
    obtain ⟨⟨a, rest⟩, hdec, rfl⟩ := h
    refine ⟨rest, ?_⟩
    rw [hf, List.append_assoc, c.enc_dec hdec, ← hd, List.take_append_drop]
  simp only [Record.parse] at h
  split at h
  · next hd => exact key _ _ _ (fun _ => rfl) hd h
  split at h
  · next hd => exact key _ _ _ (fun _ => rfl) hd h
  split at h
  · next hd => exact key _ _ _ (fun _ => rfl) hd h
  split at h
  · next hd => exact key _ _ _ (fun _ => rfl) hd h
  split at h
  · next hd => exact key _ _ _ (fun _ => rfl) hd h
  split at h
  · next hd => exact key _ _ _ (fun _ => rfl) hd h
  · cases h

end Passdari
