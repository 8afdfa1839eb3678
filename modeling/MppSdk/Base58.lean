import MppSdk.Radix
import MppSdk.RustStd

/-! # Base58, public keys and signatures

`bs58` writes bytes in radix 58 and keeps each leading zero byte as a leading `1`, so
it is `Radix.recode` between 256 and 58 under an alphabet.  Keys and signatures are
byte strings of a fixed length, and their texts are exactly their Base58 strings. -/

namespace MppSdk

/-- Byte strings of length `n`. -/
structure Bytes (n : Nat) where
  toList : List UInt8
  length_toList : toList.length = n
deriving DecidableEq

/-- A Solana public key. -/
abbrev Pubkey : Type := Bytes 32
/-- A blockhash. -/
abbrev Hash : Type := Bytes 32
/-- An Ed25519 signature. -/
abbrev Signature : Type := Bytes 64

/-- `[b; n]`. -/
def Bytes.replicate (n : Nat) (b : UInt8) : Bytes n := ⟨List.replicate n b, List.length_replicate⟩

theorem Bytes.ext_toList {n : Nat} {a b : Bytes n} (h : a.toList = b.toList) : a = b := by
  cases a; cases b; simp_all

/-- `<[u8; n]>::try_from`. -/
def Bytes.ofList? (n : Nat) (l : List UInt8) : Option (Bytes n) :=
  if h : l.length = n then some ⟨l, h⟩ else none

theorem Bytes.ofList?_eq_some {n : Nat} {l : List UInt8} {b : Bytes n} :
    Bytes.ofList? n l = some b ↔ b.toList = l := by
  unfold Bytes.ofList?
  split
  · constructor
    · intro he
      rw [← Option.some.inj he]
    · rintro rfl
      rfl
  · rename_i h
    constructor
    · intro he
      cases he
    · rintro rfl
      exact absurd b.length_toList h

@[simp] theorem Bytes.ofList?_toList {n : Nat} (b : Bytes n) :
    Bytes.ofList? n b.toList = some b := ofList?_eq_some.mpr rfl

-- a name for the instance that the tests for a key in a list use
instance lawfulBEqPubkey : LawfulBEq Pubkey := inferInstance

namespace Base58

/-- The Bitcoin alphabet. -/
def alphabet : List Char :=
  "123456789ABCDEFGHJKLMNPQRSTUVWXYZabcdefghijkmnopqrstuvwxyz".toList

/-- The value of a Base58 digit. -/
def digit? (c : Char) : Option Nat := alphabet.idxOf? c

/-- The character of a Base58 digit. -/
def char (d : Nat) : Char := alphabet.getD d '1'

/-- `bs58::decode(s).into_vec()`; `none` on a character outside the alphabet. -/
def decode (s : String) : Option (List UInt8) :=
  (s.toList.mapM digit?).map (fun ds => (Radix.recode 58 256 ds).map UInt8.ofNat)

/-- `bs58::encode(bytes).into_string()`. -/
def encode (bytes : List UInt8) : String :=
  String.ofList ((Radix.recode 256 58 (bytes.map UInt8.toNat)).map char)

theorem digit?_char : ∀ d < 58, digit? (char d) = some d := by decide

theorem char_of_digit? {c : Char} {d : Nat} (h : digit? c = some d) : d < 58 ∧ char d = c := by
  obtain ⟨hd, hc, -⟩ := List.idxOf?_eq_some_iff.mp h
  exact ⟨hd, by simp [char, hd, hc]⟩

/-- Reading a digit string off its characters, and back. -/
theorem mapM_digit?_eq_some {cs : List Char} {ds : List Nat} :
    cs.mapM digit? = some ds ↔ (∀ d ∈ ds, d < 58) ∧ ds.map char = cs := by
  induction cs generalizing ds with
  | nil => simp +contextual [List.mapM_nil, eq_comm]
  | cons c cs ih =>
    rw [List.mapM_cons]
    constructor
    · intro h
      obtain ⟨d, hd, h⟩ := Option.bind_eq_some_iff.mp h
      obtain ⟨ds', hds, h⟩ := Option.bind_eq_some_iff.mp h
      obtain rfl := Option.some.inj h
      obtain ⟨hlt, hc⟩ := char_of_digit? hd
      obtain ⟨hall, hcs⟩ := ih.mp hds
      exact ⟨by simpa using ⟨hlt, hall⟩, by rw [List.map_cons, hc, hcs]⟩
    · rintro ⟨hall, hcs⟩
      obtain ⟨d, ds', rfl, hc, hcs⟩ := List.map_eq_cons_iff.mp hcs
      have hd : digit? c = some d := hc ▸ digit?_char d (hall d (by simp))
      have hds : cs.mapM digit? = some ds' :=
        ih.mpr ⟨fun e he => hall e (List.mem_cons_of_mem _ he), hcs⟩
      simp [hd, hds]

theorem map_ofNat_toNat (bytes : List UInt8) :
    (bytes.map UInt8.toNat).map UInt8.ofNat = bytes := by
  simp [List.map_map, Function.comp_def]

theorem map_toNat_ofNat {ds : List Nat} (h : ∀ d ∈ ds, d < 256) :
    (ds.map UInt8.ofNat).map UInt8.toNat = ds := by
  rw [List.map_map]
  conv_rhs => rw [← List.map_id ds]
  refine List.map_congr_left fun d hd => ?_
  simp [Nat.mod_eq_of_lt (h d hd)]

theorem toNat_lt_of_mem (bytes : List UInt8) : ∀ d ∈ bytes.map UInt8.toNat, d < 256 := by
  intro d hd
  obtain ⟨b, -, rfl⟩ := List.mem_map.mp hd
  exact b.toNat_lt

/-- **The Base58 string of a byte string, and no other, decodes to it.** -/
theorem decode_eq_some {s : String} {bytes : List UInt8} :
    decode s = some bytes ↔ s = encode bytes := by
  rw [decode, Option.map_eq_some_iff]
  constructor
  · rintro ⟨ds, hds, rfl⟩
    obtain ⟨hlt, hcs⟩ := mapM_digit?_eq_some.mp hds
    rw [encode, map_toNat_ofNat (Radix.lt_of_mem_recode (by decide)),
      Radix.recode_recode (by decide) hlt, hcs, String.ofList_toList]
  · rintro rfl
    refine ⟨Radix.recode 256 58 (bytes.map UInt8.toNat), ?_, ?_⟩
    · rw [encode, String.toList_ofList]
      exact mapM_digit?_eq_some.mpr ⟨Radix.lt_of_mem_recode (by decide), rfl⟩
    · rw [Radix.recode_recode (by decide) (toNat_lt_of_mem bytes), map_ofNat_toNat]

end Base58

namespace Bytes
variable {n : Nat}

/-- `from_str`: the Base58 text of exactly `n` bytes. -/
def fromBase58 (n : Nat) (s : String) : Option (Bytes n) :=
  (Base58.decode s).bind (ofList? n)

/-- `to_string`. -/
def toBase58 (b : Bytes n) : String := Base58.encode b.toList

/-- **A key or signature has one text.** -/
theorem fromBase58_eq_some {s : String} {b : Bytes n} :
    fromBase58 n s = some b ↔ s = b.toBase58 := by
  rw [fromBase58, Option.bind_eq_some_iff, toBase58]
  constructor
  · rintro ⟨l, hl, hb⟩
    rw [ofList?_eq_some.mp hb]
    exact Base58.decode_eq_some.mp hl
  · intro h
    exact ⟨b.toList, Base58.decode_eq_some.mpr h, ofList?_toList b⟩

@[simp] theorem fromBase58_toBase58 (b : Bytes n) : fromBase58 n b.toBase58 = some b :=
  fromBase58_eq_some.mpr rfl

/-- A Base58 text has at least one character for each byte. -/
theorem le_length_toBase58 (b : Bytes n) : n ≤ b.toBase58.toList.length := by
  have hbytes := Base58.toNat_lt_of_mem b.toList
  have hle : (Radix.recode 58 256 (Radix.recode 256 58 (b.toList.map UInt8.toNat))).length ≤
      (Radix.recode 256 58 (b.toList.map UInt8.toNat)).length :=
    Radix.length_recode_le (by decide) (by decide) (Radix.lt_of_mem_recode (by decide))
  rw [Radix.recode_recode (by decide) hbytes, List.length_map, b.length_toList] at hle
  rw [toBase58, Base58.encode, String.toList_ofList, List.length_map]
  exact hle

end Bytes

/-- The System program's key is 32 zero bytes. -/
example : Bytes.fromBase58 32 "11111111111111111111111111111111" =
    some ⟨List.replicate 32 0, by decide⟩ := by decide +kernel

end MppSdk
