import MppSdk.Base58
import MppSdk.Codec

/-! # Transactions and their wire format

The Solana wire layout, as `bincode` reads and writes it: lists carry their length as a
compact-u16, a legacy message is header, keys, blockhash and instructions, and a v0
message is the byte `0x80`, the same four and the address lookups. -/

namespace MppSdk

/-! ## The compact-u16 length -/

namespace CompactU16

/-- Seven bits a byte, the lowest first; a byte with the high bit set is not the last. -/
def encode (n : Nat) : List UInt8 :=
  if n < 0x80 then [UInt8.ofNat n]
  else if n < 0x4000 then [UInt8.ofNat (n % 0x80 + 0x80), UInt8.ofNat (n / 0x80)]
  else [UInt8.ofNat (n % 0x80 + 0x80), UInt8.ofNat (n / 0x80 % 0x80 + 0x80),
    UInt8.ofNat (n / 0x4000)]

/-- A later byte that is zero, a third byte that continues and a value past `u16` are
errors. -/
def decode : List UInt8 → Option (Nat × List UInt8)
  | [] => none
  | b₀ :: l =>
      if b₀.toNat < 0x80 then some (b₀.toNat, l)
      else match l with
        | [] => none
        | b₁ :: l =>
            if b₁.toNat = 0 then none
            else if b₁.toNat < 0x80 then some (b₀.toNat % 0x80 + b₁.toNat * 0x80, l)
            else match l with
              | [] => none
              | b₂ :: l =>
                  if b₂.toNat = 0 ∨ 4 ≤ b₂.toNat then none
                  else some (b₀.toNat % 0x80 + b₁.toNat % 0x80 * 0x80 + b₂.toNat * 0x4000, l)

theorem encode_of_lt {n : Nat} (h : n < 0x80) : encode n = [UInt8.ofNat n] := if_pos h

theorem toNat_ofNat {n : Nat} (h : n < 256) : (UInt8.ofNat n).toNat = n := by
  rw [UInt8.toNat_ofNat']
  exact Nat.mod_eq_of_lt h

theorem decode_encode (n : Nat) (rest : List UInt8) (h : n < 65536) :
    decode (encode n ++ rest) = some (n, rest) := by
  unfold encode
  split
  · rename_i h₁
    simp only [List.cons_append, List.nil_append, decode, toNat_ofNat (show n < 256 by omega)]
    rw [if_pos h₁]
  · rename_i h₁
    split
    · rename_i h₂
      simp only [List.cons_append, List.nil_append, decode,
        toNat_ofNat (show n % 0x80 + 0x80 < 256 by omega),
        toNat_ofNat (show n / 0x80 < 256 by omega)]
      rw [if_neg (by omega), if_neg (by omega), if_pos (by omega)]
      congr 2
      omega
    · rename_i h₂
      simp only [List.cons_append, List.nil_append, decode,
        toNat_ofNat (show n % 0x80 + 0x80 < 256 by omega),
        toNat_ofNat (show n / 0x80 % 0x80 + 0x80 < 256 by omega),
        toNat_ofNat (show n / 0x4000 < 256 by omega)]
      rw [if_neg (by omega), if_neg (by omega), if_neg (by omega), if_neg (by omega)]
      congr 2
      omega

theorem ofNat_eq {b : UInt8} {n : Nat} (h : b.toNat = n) : UInt8.ofNat n = b := by
  rw [← h]
  exact UInt8.ofNat_toNat

theorem of_decode (l : List UInt8) (n : Nat) (rest : List UInt8)
    (h : decode l = some (n, rest)) : n < 65536 ∧ l = encode n ++ rest := by
  rcases l with _ | ⟨b₀, l⟩
  · cases h
  have h₀ := b₀.toNat_lt
  by_cases hb₀ : b₀.toNat < 0x80
  · simp only [decode, if_pos hb₀, Option.some.injEq, Prod.mk.injEq] at h
    obtain ⟨rfl, rfl⟩ := h
    refine ⟨by omega, ?_⟩
    rw [encode, if_pos hb₀, UInt8.ofNat_toNat]
    rfl
  rcases l with _ | ⟨b₁, l⟩
  · simp [decode, hb₀] at h
  have h₁ := b₁.toNat_lt
  by_cases hz₁ : b₁.toNat = 0
  · simp [decode, hb₀, hz₁] at h
  by_cases hb₁ : b₁.toNat < 0x80
  · simp only [decode, if_neg hb₀, if_neg hz₁, if_pos hb₁, Option.some.injEq,
      Prod.mk.injEq] at h
    obtain ⟨rfl, rfl⟩ := h
    refine ⟨by omega, ?_⟩
    rw [encode, if_neg (by omega), if_pos (by omega),
      ofNat_eq (b := b₀) (by omega), ofNat_eq (b := b₁) (by omega)]
    rfl
  rcases l with _ | ⟨b₂, l⟩
  · simp [decode, hb₀, hz₁, hb₁] at h
  by_cases hz₂ : b₂.toNat = 0 ∨ 4 ≤ b₂.toNat
  · simp [decode, hb₀, hz₁, hb₁, hz₂] at h
  · simp only [decode, if_neg hb₀, if_neg hz₁, if_neg hb₁, if_neg hz₂, Option.some.injEq,
      Prod.mk.injEq] at h
    obtain ⟨rfl, rfl⟩ := h
    refine ⟨by omega, ?_⟩
    rw [encode, if_neg (by omega), if_neg (by omega), ofNat_eq (b := b₀) (by omega),
      ofNat_eq (b := b₁) (by omega), ofNat_eq (b := b₂) (by omega)]
    rfl

end CompactU16

/-- The codec of a compact-u16. -/
def compactU16 : Codec UInt8 Nat where
  valid n := n < 65536
  encode := CompactU16.encode
  decode := CompactU16.decode
  decode_encode := CompactU16.decode_encode
  of_decode := CompactU16.of_decode

/-- `short_vec`: a compact-u16 length, then the elements. -/
def shortVec {α : Type} (c : Codec UInt8 α) : Codec UInt8 (List α) := Codec.counted compactU16 c

/-- A block of `n` bytes. -/
def block (n : Nat) : Codec UInt8 (Bytes n) where
  valid _ := True
  encode b := b.toList
  decode l := (Bytes.ofList? n (l.take n)).map fun b => (b, l.drop n)
  decode_encode b rest _ := by
    have htake : (b.toList ++ rest).take n = b.toList := List.take_left' b.length_toList
    have hdrop : (b.toList ++ rest).drop n = rest := List.drop_left' b.length_toList
    rw [htake, hdrop, Bytes.ofList?_toList]
    rfl
  of_decode l b rest h := by
    obtain ⟨b', hb, he⟩ := Option.map_eq_some_iff.mp h
    cases he
    refine ⟨trivial, ?_⟩
    rw [Bytes.ofList?_eq_some.mp hb, List.take_append_drop]

/-- A list of `k * n` bytes is `k` blocks of `n` bytes. -/
theorem exists_blocks (n k : Nat) (l : List UInt8) (h : l.length = k * n) :
    ∃ bs : List (Bytes n), bs.length = k ∧ bs.flatMap Bytes.toList = l := by
  induction k generalizing l with
  | zero =>
    have hl : l = [] := List.eq_nil_of_length_eq_zero (by rw [h, Nat.zero_mul])
    exact ⟨[], rfl, hl.symm⟩
  | succ k ih =>
    have hlen : l.length = k * n + n := by rw [h, Nat.succ_mul]
    have htake : (l.take n).length = n := List.length_take_of_le (by omega)
    have hdrop : (l.drop n).length = k * n := by rw [List.length_drop]; omega
    obtain ⟨bs, hbs, hflat⟩ := ih (l.drop n) hdrop
    refine ⟨⟨l.take n, htake⟩ :: bs, by rw [List.length_cons, hbs], ?_⟩
    rw [List.flatMap_cons, hflat]
    exact List.take_append_drop n l

/-! ## Messages and transactions -/

/-- `MessageHeader`. -/
structure MessageHeader where
  numRequiredSignatures : UInt8
  numReadonlySignedAccounts : UInt8
  numReadonlyUnsignedAccounts : UInt8
deriving DecidableEq

/-- `CompiledInstruction`: accounts and program are indexes into the account keys. -/
structure CompiledInstruction where
  programIdIndex : UInt8
  accounts : List UInt8
  data : List UInt8
deriving DecidableEq

/-- `MessageAddressTableLookup`. -/
structure AddressTableLookup where
  accountKey : Pubkey
  writableIndexes : List UInt8
  readonlyIndexes : List UInt8
deriving DecidableEq

/-- What a legacy and a v0 message share. -/
structure MessageBody where
  accountKeys : List Pubkey
  recentBlockhash : Hash
  instructions : List CompiledInstruction
deriving DecidableEq

/-- `VersionedMessage`: legacy, or v0 with address table lookups. -/
inductive VersionedMessage : Type
  | legacy (header : MessageHeader) (body : MessageBody)
  | v0 (header : MessageHeader) (body : MessageBody)
      (addressTableLookups : List AddressTableLookup)
deriving DecidableEq

/-- `VersionedTransaction`. -/
structure VersionedTransaction where
  signatures : List Signature
  message : VersionedMessage
deriving DecidableEq

/-! ## Their codecs -/

def instructionCodec : Codec UInt8 CompiledInstruction :=
  (Codec.symbol.pair ((shortVec Codec.symbol).pair (shortVec Codec.symbol))).iso
    (fun p => ⟨p.1, p.2.1, p.2.2⟩) (fun i => (i.programIdIndex, i.accounts, i.data))
    (fun _ => rfl) (fun _ => rfl)

def bodyCodec : Codec UInt8 MessageBody :=
  ((shortVec (block 32)).pair ((block 32).pair (shortVec instructionCodec))).iso
    (fun p => ⟨p.1, p.2.1, p.2.2⟩) (fun b => (b.accountKeys, b.recentBlockhash, b.instructions))
    (fun _ => rfl) (fun _ => rfl)

theorem bodyCodec_encode (body : MessageBody) :
    bodyCodec.encode body = CompactU16.encode body.accountKeys.length ++
      body.accountKeys.flatMap Bytes.toList ++ (body.recentBlockhash.toList ++
        (shortVec instructionCodec).encode body.instructions) := rfl

def headerCodec : Codec UInt8 MessageHeader :=
  (Codec.symbol.pair (Codec.symbol.pair Codec.symbol)).iso
    (fun p => ⟨p.1, p.2.1, p.2.2⟩)
    (fun h => (h.numRequiredSignatures, h.numReadonlySignedAccounts,
      h.numReadonlyUnsignedAccounts))
    (fun _ => rfl) (fun _ => rfl)

def lookupCodec : Codec UInt8 AddressTableLookup :=
  ((block 32).pair ((shortVec Codec.symbol).pair (shortVec Codec.symbol))).iso
    (fun p => ⟨p.1, p.2.1, p.2.2⟩)
    (fun l => (l.accountKey, l.writableIndexes, l.readonlyIndexes))
    (fun _ => rfl) (fun _ => rfl)

/-- A legacy message; its decoder does not look at the version bit. -/
def legacyCodec : Codec UInt8 (MessageHeader × MessageBody) := headerCodec.pair bodyCodec

/-- A v0 message after its prefix byte. -/
def v0Codec : Codec UInt8 (MessageHeader × MessageBody × List AddressTableLookup) :=
  headerCodec.pair (bodyCodec.pair (shortVec lookupCodec))

def signaturesCodec : Codec UInt8 (List Signature) := shortVec (block 64)

/-- `Transaction`. -/
def legacyTransactionCodec : Codec UInt8 (List Signature × MessageHeader × MessageBody) :=
  signaturesCodec.pair legacyCodec

namespace VersionedMessage

/-- `MESSAGE_VERSION_PREFIX`. -/
def versionPrefix : UInt8 := 0x80

/-- `VersionedMessage::serialize`. -/
def serialize : VersionedMessage → List UInt8
  | .legacy header body => legacyCodec.encode (header, body)
  | .v0 header body lookups => versionPrefix :: v0Codec.encode (header, body, lookups)

/-- Every list of the message fits a compact-u16, so that it can be written. -/
def Writable : VersionedMessage → Prop
  | .legacy header body => legacyCodec.valid (header, body)
  | .v0 header body lookups => v0Codec.valid (header, body, lookups)

/-- `VersionedMessage::deserialize`: the first byte is the version, if its high bit is set,
and the first byte of a legacy header otherwise. -/
def deserialize : List UInt8 → Option (VersionedMessage × List UInt8)
  | [] => none
  | b :: l =>
      if b.toNat < 0x80 then
        (legacyCodec.decode (b :: l)).map fun r => (.legacy r.1.1 r.1.2, r.2)
      else if b = versionPrefix then
        (v0Codec.decode l).map fun r => (.v0 r.1.1 r.1.2.1 r.1.2.2, r.2)
      else none

end VersionedMessage

namespace VersionedTransaction

/-- The bytes of a transaction. -/
def wire (tx : VersionedTransaction) : List UInt8 :=
  signaturesCodec.encode tx.signatures ++ tx.message.serialize

/-- The transaction has wire bytes: every list in it fits a compact-u16. -/
def HasWire (tx : VersionedTransaction) : Prop :=
  signaturesCodec.valid tx.signatures ∧ tx.message.Writable

/-- `bincode::deserialize::<Transaction>`; trailing bytes are ignored. -/
def deserializeLegacy (bytes : List UInt8) : Option VersionedTransaction :=
  (legacyTransactionCodec.decode bytes).map fun r => ⟨r.1.1, .legacy r.1.2.1 r.1.2.2⟩

/-- `bincode::deserialize::<VersionedTransaction>`; trailing bytes are ignored. -/
def deserialize (bytes : List UInt8) : Option VersionedTransaction := do
  let (signatures, l) ← signaturesCodec.decode bytes
  let (message, _) ← VersionedMessage.deserialize l
  return ⟨signatures, message⟩

/-- How `verify_pull` decodes a transaction: as a legacy one, else as a versioned one. -/
def decode (bytes : List UInt8) : Option VersionedTransaction :=
  (deserializeLegacy bytes).or (deserialize bytes)

end VersionedTransaction
end MppSdk
