import Mathlib.Data.List.GetD
import Mathlib.Tactic.Ring
import MppSdk.LuaBase64url
import MppSdk.Sha256

/-! # Hashing in Lua

`util/bit.lua` computes on 32-bit words with division, remainder and powers of two, on numbers
that are whole and not negative, and `util/crypto.lua` hashes with it.  Both agree with SHA-256
and HMAC (`hmac_sha256_correct`). -/

namespace MppSdk
namespace Lua

/-! ## `util/bit.lua` -/

namespace Bit

def UINT32 : Nat := 4294967296

/-- `normalize`.  A remainder is never negative. -/
def normalize (value : Nat) : Nat := value % UINT32

/-- The loop of `bitop`. -/
def bitLoop (op : Nat → Nat → Nat) (a b result bit : Nat) : Nat :=
  if a > 0 ∨ b > 0 then
    let out := op (a % 2) (b % 2)
    bitLoop op (a / 2) (b / 2) (if out = 1 then result + bit else result) (bit * 2)
  else result
termination_by a + b

def bitop (a b : Nat) (op : Nat → Nat → Nat) : Nat :=
  normalize (bitLoop op (normalize a) (normalize b) 0 1)

def band (a b : Nat) : Nat := bitop a b fun x y => if x = 1 ∧ y = 1 then 1 else 0

def bor (a b : Nat) : Nat := bitop a b fun x y => if x = 1 ∨ y = 1 then 1 else 0

def bxor (a b : Nat) : Nat := bitop a b fun x y => if x ≠ y then 1 else 0

def bnot (a : Nat) : Nat := normalize (UINT32 - 1 - normalize a)

def rshift (value amount : Nat) : Nat := normalize value / 2 ^ amount

def lshift (value amount : Nat) : Nat := normalize (normalize value * 2 ^ amount)

def rrotate (value amount : Nat) : Nat :=
  let amount := amount % 32
  let right := rshift value amount
  let left := lshift value (32 - amount)
  normalize (bor right left)

def add (values : List Nat) : Nat := values.foldl (fun sum value => normalize (sum + value)) 0

end Bit

/-! ## `util/crypto.lua` -/

namespace Crypto

open Bit

def K : List Nat :=
  [0x428a2f98, 0x71374491, 0xb5c0fbcf, 0xe9b5dba5,
    0x3956c25b, 0x59f111f1, 0x923f82a4, 0xab1c5ed5,
    0xd807aa98, 0x12835b01, 0x243185be, 0x550c7dc3,
    0x72be5d74, 0x80deb1fe, 0x9bdc06a7, 0xc19bf174,
    0xe49b69c1, 0xefbe4786, 0x0fc19dc6, 0x240ca1cc,
    0x2de92c6f, 0x4a7484aa, 0x5cb0a9dc, 0x76f988da,
    0x983e5152, 0xa831c66d, 0xb00327c8, 0xbf597fc7,
    0xc6e00bf3, 0xd5a79147, 0x06ca6351, 0x14292967,
    0x27b70a85, 0x2e1b2138, 0x4d2c6dfc, 0x53380d13,
    0x650a7354, 0x766a0abb, 0x81c2c92e, 0x92722c85,
    0xa2bfe8a1, 0xa81a664b, 0xc24b8b70, 0xc76c51a3,
    0xd192e819, 0xd6990624, 0xf40e3585, 0x106aa070,
    0x19a4c116, 0x1e376c08, 0x2748774c, 0x34b0bcb5,
    0x391c0cb3, 0x4ed8aa4a, 0x5b9cca4f, 0x682e6ff3,
    0x748f82ee, 0x78a5636f, 0x84c87814, 0x8cc70208,
    0x90befffa, 0xa4506ceb, 0xbef9a3f7, 0xc67178f2]

/-- `string.char`. -/
def char (n : Nat) : UInt8 := UInt8.ofNat n

def toBytesFromWords (words : List Nat) : Str :=
  words.flatMap fun value =>
    [char (rshift value 24 % 256), char (rshift value 16 % 256), char (rshift value 8 % 256),
      char (value % 256)]

/-- `bytes[i]`, counted from one. -/
def byteAt (bytes : List Nat) (i : Nat) : Nat := bytes.getD (i - 1) 0

def toWord (bytes : List Nat) (start : Nat) : Nat :=
  add [lshift (byteAt bytes start) 24, lshift (byteAt bytes (start + 1)) 16,
    lshift (byteAt bytes (start + 2)) 8, byteAt bytes (start + 3)]

def ch (x y z : Nat) : Nat := bxor (band x y) (band (bnot x) z)

def maj (x y z : Nat) : Nat := bxor (bxor (band x y) (band x z)) (band y z)

def bigSigma0 (x : Nat) : Nat := bxor (bxor (rrotate x 2) (rrotate x 13)) (rrotate x 22)

def bigSigma1 (x : Nat) : Nat := bxor (bxor (rrotate x 6) (rrotate x 11)) (rrotate x 25)

def smallSigma0 (x : Nat) : Nat := bxor (bxor (rrotate x 7) (rrotate x 18)) (rshift x 3)

def smallSigma1 (x : Nat) : Nat := bxor (bxor (rrotate x 17) (rrotate x 19)) (rshift x 10)

/-- The loop that appends zeros. -/
def padLoop (bytes : List Nat) : List Nat :=
  if bytes.length % 64 ≠ 56 then padLoop (bytes ++ [0]) else bytes
termination_by (120 - bytes.length % 64) % 64
decreasing_by
  rw [List.length_append, List.length_singleton]
  omega

/-- The bytes of the length that are appended. -/
def lengthWords (bitLen : Nat) : List Nat :=
  let high := bitLen / UINT32
  let low := bitLen % UINT32
  [rshift high 24 % 256, rshift high 16 % 256, rshift high 8 % 256, high % 256,
    rshift low 24 % 256, rshift low 16 % 256, rshift low 8 % 256, low % 256]

/-- The bytes of the input with its padding. -/
def padded (input : Str) : List Nat :=
  let bytes := input.map UInt8.toNat
  padLoop (bytes ++ [0x80]) ++ lengthWords (bytes.length * 8)

/-- The variables `a` to `h`, or `h0` to `h7`. -/
structure Registers where
  a : Nat
  b : Nat
  c : Nat
  d : Nat
  e : Nat
  f : Nat
  g : Nat
  h : Nat

def initial : Registers :=
  ⟨0x6a09e667, 0xbb67ae85, 0x3c6ef372, 0xa54ff53a, 0x510e527f, 0x9b05688c, 0x1f83d9ab, 0x5be0cd19⟩

/-- `w[i]` for an index from 16 on. -/
def nextWord (w : List Nat) (i : Nat) : Nat :=
  add [smallSigma1 (w.getD (i - 2) 0), w.getD (i - 7) 0, smallSigma0 (w.getD (i - 15) 0),
    w.getD (i - 16) 0]

/-- The two loops over `w`. -/
def words (bytes : List Nat) (chunkStart : Nat) : List Nat :=
  let w := (List.range 16).map fun i => toWord bytes (chunkStart + i * 4)
  (List.range' 16 48).foldl (fun w i => w ++ [nextWord w i]) w

/-- One round. -/
def round (w : List Nat) (r : Registers) (i : Nat) : Registers :=
  let t1 := add [r.h, bigSigma1 r.e, ch r.e r.f r.g, K.getD i 0, w.getD i 0]
  let t2 := add [bigSigma0 r.a, maj r.a r.b r.c]
  ⟨add [t1, t2], r.a, r.b, r.c, add [r.d, t1], r.e, r.f, r.g⟩

/-- What the loop does with one chunk. -/
def chunk (bytes : List Nat) (h : Registers) (chunkStart : Nat) : Registers :=
  let r := (List.range 64).foldl (round (words bytes chunkStart)) h
  ⟨add [h.a, r.a], add [h.b, r.b], add [h.c, r.c], add [h.d, r.d], add [h.e, r.e], add [h.f, r.f],
    add [h.g, r.g], add [h.h, r.h]⟩

/-- The values of `for chunk_start = 1, #bytes, 64`. -/
def chunkStarts (length : Nat) : List Nat := (List.range ((length + 63) / 64)).map (1 + 64 * ·)

def sha256 (input : Str) : Str :=
  let bytes := padded input
  let h := (chunkStarts bytes.length).foldl (chunk bytes) initial
  toBytesFromWords [h.a, h.b, h.c, h.d, h.e, h.f, h.g, h.h]

def hmacSha256 (key message : Str) : Str :=
  let blockSize := 64
  let key := if key.length > blockSize then sha256 key else key
  let key :=
    if key.length < blockSize then key ++ List.replicate (blockSize - key.length) 0 else key
  let oKey := (List.range blockSize).map fun i => char (bxor (key.getD i 0).toNat 0x5c)
  let iKey := (List.range blockSize).map fun i => char (bxor (key.getD i 0).toNat 0x36)
  let inner := sha256 (iKey ++ message)
  sha256 (oKey ++ inner)

def hmacSha256Base64url (key message : Str) : Str := Base64url.encode (hmacSha256 key message)

end Crypto
/-! ## Words -/

namespace Bit

/-- A word is its own remainder. -/
@[simp]
theorem normalize_toNat (x : BitVec 32) : normalize x.toNat = x.toNat := Nat.mod_eq_of_lt x.isLt

/-- The loop computes what is computed bit by bit. -/
theorem bitLoop_eq {op w : Nat → Nat → Nat} (hzero : w 0 0 = 0)
    (hhalf : ∀ a b, w a b / 2 = w (a / 2) (b / 2))
    (hbit : ∀ a b, w a b % 2 = 1 ↔ op (a % 2) (b % 2) = 1) (a b result bit : Nat) :
    bitLoop op a b result bit = result + bit * w a b := by
  fun_induction bitLoop op a b result bit with
  | case1 a b result bit hpos out ih =>
    have hsplit : w a b = w a b % 2 + 2 * w (a / 2) (b / 2) := by
      rw [← hhalf]
      omega
    simp only [dite_eq_ite] at ih
    rw [ih]
    by_cases hout : out = 1
    · have hone : w a b % 2 = 1 := (hbit a b).mpr hout
      rw [if_pos hout, hsplit, hone]
      ring
    · have hzero : w a b % 2 = 0 := by
        have hnot : ¬ w a b % 2 = 1 := fun h => hout ((hbit a b).mp h)
        omega
      rw [if_neg hout, hsplit, hzero]
      ring
  | case2 a b result bit hpos =>
    obtain ⟨rfl, rfl⟩ : a = 0 ∧ b = 0 := by omega
    rw [hzero, Nat.mul_zero, Nat.add_zero]

/-- An operation on words that is computed bit by bit. -/
theorem bitop_toNat {op w : Nat → Nat → Nat} {x y z : BitVec 32} (hzero : w 0 0 = 0)
    (hhalf : ∀ a b, w a b / 2 = w (a / 2) (b / 2))
    (hbit : ∀ a b, w a b % 2 = 1 ↔ op (a % 2) (b % 2) = 1) (hz : w x.toNat y.toNat = z.toNat) :
    bitop x.toNat y.toNat op = z.toNat := by
  rw [bitop, normalize_toNat, normalize_toNat, bitLoop_eq hzero hhalf hbit, Nat.zero_add,
    Nat.one_mul, hz, normalize_toNat]

@[simp]
theorem band_toNat (x y : BitVec 32) : band x.toNat y.toNat = (x &&& y).toNat := by
  refine bitop_toNat (w := fun a b => a &&& b) rfl (fun a b => Nat.and_div_two) (fun a b => ?_)
    (BitVec.toNat_and ..).symm
  rw [Nat.and_mod_two_eq_one]
  split_ifs with h <;> simp [h]

@[simp]
theorem bor_toNat (x y : BitVec 32) : bor x.toNat y.toNat = (x ||| y).toNat := by
  refine bitop_toNat (w := fun a b => a ||| b) rfl (fun a b => Nat.or_div_two) (fun a b => ?_)
    (BitVec.toNat_or ..).symm
  rw [Nat.or_mod_two_eq_one]
  split_ifs with h <;> simp [h]

@[simp]
theorem bxor_toNat (x y : BitVec 32) : bxor x.toNat y.toNat = (x ^^^ y).toNat := by
  refine bitop_toNat (w := fun a b => a ^^^ b) rfl (fun a b => Nat.xor_div_two) (fun a b => ?_)
    (BitVec.toNat_xor ..).symm
  have hxor : (a ^^^ b) % 2 = 1 ↔ ¬ (a % 2 = 1 ↔ b % 2 = 1) := Nat.xor_mod_two_eq_one
  show (a ^^^ b) % 2 = 1 ↔ (if a % 2 ≠ b % 2 then 1 else 0) = 1
  rw [hxor]
  rcases Nat.mod_two_eq_zero_or_one a with ha | ha <;>
    rcases Nat.mod_two_eq_zero_or_one b with hb | hb <;> simp [ha, hb]

@[simp]
theorem bnot_toNat (x : BitVec 32) : bnot x.toNat = (~~~x).toNat := by
  rw [bnot, normalize_toNat, BitVec.toNat_not]
  exact Nat.mod_eq_of_lt (by unfold UINT32; omega)

@[simp]
theorem rshift_toNat (x : BitVec 32) (n : Nat) : rshift x.toNat n = (x >>> n).toNat := by
  rw [rshift, normalize_toNat, BitVec.toNat_ushiftRight, Nat.shiftRight_eq_div_pow]

@[simp]
theorem lshift_toNat (x : BitVec 32) (n : Nat) : lshift x.toNat n = (x <<< n).toNat := by
  rw [lshift, normalize_toNat, BitVec.toNat_shiftLeft, Nat.shiftLeft_eq]
  rfl

@[simp]
theorem rrotate_toNat (x : BitVec 32) (n : Nat) : rrotate x.toNat n = (x.rotateRight n).toNat := by
  rw [rrotate, BitVec.rotateRight_def, rshift_toNat, lshift_toNat, bor_toNat, normalize_toNat]

/-- Adding words one by one. -/
theorem add_eq (values : List Nat) : add values = values.sum % UINT32 := by
  have hloop : ∀ (values : List Nat) (sum : Nat), sum % UINT32 = sum →
      values.foldl (fun sum value => normalize (sum + value)) sum =
        (sum + values.sum) % UINT32 := by
    intro values
    induction values with
    | nil => exact fun sum hsum => hsum.symm
    | cons value values ih =>
      intro sum _
      rw [List.foldl_cons, ih (normalize (sum + value)) (Nat.mod_mod ..), List.sum_cons, normalize,
        Nat.mod_add_mod, Nat.add_assoc]
  rw [add, hloop values 0 rfl, Nat.zero_add]

theorem add_toNat (words : List (BitVec 32)) :
    add (words.map BitVec.toNat) = words.sum.toNat := by
  rw [add_eq]
  induction words with
  | nil => rfl
  | cons word words ih =>
    rw [List.map_cons, List.sum_cons, List.sum_cons, BitVec.toNat_add, ← ih]
    exact (Nat.add_mod_mod ..).symm

end Bit

/-! ## Hashing -/

namespace Crypto

open Bit

theorem ch_toNat (x y z : BitVec 32) : ch x.toNat y.toNat z.toNat = (Sha256.ch x y z).toNat := by
  simp only [ch, Sha256.ch, band_toNat, bnot_toNat, bxor_toNat]

theorem maj_toNat (x y z : BitVec 32) :
    maj x.toNat y.toNat z.toNat = (Sha256.maj x y z).toNat := by
  simp only [maj, Sha256.maj, band_toNat, bxor_toNat]

theorem bigSigma0_toNat (x : BitVec 32) : bigSigma0 x.toNat = (Sha256.bigSigma0 x).toNat := by
  simp only [bigSigma0, Sha256.bigSigma0, rrotate_toNat, bxor_toNat]

theorem bigSigma1_toNat (x : BitVec 32) : bigSigma1 x.toNat = (Sha256.bigSigma1 x).toNat := by
  simp only [bigSigma1, Sha256.bigSigma1, rrotate_toNat, bxor_toNat]

theorem smallSigma0_toNat (x : BitVec 32) : smallSigma0 x.toNat = (Sha256.smallSigma0 x).toNat := by
  simp only [smallSigma0, Sha256.smallSigma0, rrotate_toNat, rshift_toNat, bxor_toNat]

theorem smallSigma1_toNat (x : BitVec 32) : smallSigma1 x.toNat = (Sha256.smallSigma1 x).toNat := by
  simp only [smallSigma1, Sha256.smallSigma1, rrotate_toNat, rshift_toNat, bxor_toNat]

theorem K_getD (i : Nat) : K.getD i 0 = (Sha256.constants.getD i 0).toNat := by
  have hK : K = Sha256.constants.map BitVec.toNat := by decide
  rw [hK]
  exact List.getD_map (d := (0 : BitVec 32)) _ BitVec.toNat

/-! ### Padding -/

theorem padLoop_eq (bytes : List Nat) : padLoop bytes =
    bytes ++ List.replicate ((120 - bytes.length % 64) % 64) 0 := by
  fun_induction padLoop bytes with
  | case1 bytes hmore ih =>
    have hcount : (120 - bytes.length % 64) % 64 = (120 - (bytes.length + 1) % 64) % 64 + 1 := by
      omega
    rw [ih, List.length_append, List.length_singleton, hcount, List.replicate_succ,
      List.append_assoc, List.singleton_append]
  | case2 bytes hdone =>
    have hzero : (120 - bytes.length % 64) % 64 = 0 := by omega
    rw [hzero, List.replicate_zero, List.append_nil]

theorem lengthWords_eq (bits : Nat) :
    lengthWords bits = (Sha256.lengthBytes bits).map UInt8.toNat := by
  have hbyte : ∀ n : Nat, (UInt8.ofNat n).toNat = n % 256 := fun n => UInt8.toNat_ofNat'
  simp only [lengthWords, Sha256.lengthBytes, rshift, Bit.normalize, UINT32, List.range,
    List.range.loop, List.map_cons, List.map_nil, hbyte]
  norm_num
  omega

theorem padded_eq (input : Str) : padded input = (Sha256.pad input).map UInt8.toNat := by
  have hzeros : (120 - (input.length + 1) % 64) % 64 = Sha256.zeros input.length := by
    unfold Sha256.zeros
    omega
  rw [padded, Sha256.pad, padLoop_eq, lengthWords_eq, List.length_append, List.length_map,
    List.length_singleton, hzeros, Nat.mul_comm]
  simp

/-! ### Blocks -/

theorem byteAt_eq (bytes : Str) (i : Nat) :
    byteAt (bytes.map UInt8.toNat) (i + 1) = (bytes.getD i 0).toNat :=
  List.getD_map (d := (0 : UInt8)) _ UInt8.toNat

/-- The bytes of a word, the first of them most significant. -/
theorem toWord_eq (bytes : Str) (i : Nat) :
    toWord (bytes.map UInt8.toNat) (i + 1) = (Sha256.wordAt bytes i).toNat := by
  have hrest : ∀ k, i + 1 + k = i + k + 1 := fun k => by omega
  rw [toWord, hrest 1, hrest 2, hrest 3, byteAt_eq, byteAt_eq, byteAt_eq, byteAt_eq, add_eq,
    Sha256.wordAt, BitVec.toNat_ofNat]
  simp only [lshift, Bit.normalize, UINT32, List.sum_cons, List.sum_nil]
  omega

/-- The words of a chunk are its message schedule. -/
theorem words_eq (bytes : List Nat) (start : Nat) {block : Nat → BitVec 32}
    (hblock : ∀ i < 16, toWord bytes (start + i * 4) = (block i).toNat) :
    words bytes start = (List.range 64).map fun t => (Sha256.schedule block t).toNat := by
  have hfirst : (List.range 16).map (fun i => toWord bytes (start + i * 4)) =
      (List.range 16).map fun t => (Sha256.schedule block t).toNat := by
    refine List.map_congr_left fun i hi => ?_
    have hlt : i < 16 := List.mem_range.mp hi
    rw [hblock i hlt, Sha256.schedule, if_pos hlt]
  have hnext : ∀ n, (List.range' 16 n).foldl (fun w i => w ++ [nextWord w i])
      ((List.range 16).map fun t => (Sha256.schedule block t).toNat) =
        (List.range (16 + n)).map fun t => (Sha256.schedule block t).toNat := by
    intro n
    induction n with
    | zero => rfl
    | succ n ih =>
      have hget : ∀ k, 0 < k → k ≤ 16 →
          ((List.range (16 + n)).map fun t => (Sha256.schedule block t).toNat).getD (16 + n - k) 0 =
            (Sha256.schedule block (16 + n - k)).toNat := by
        intro k hpos hle
        rw [List.getD_eq_getElem _ _ (by simp; omega), List.getElem_map, List.getElem_range]
      rw [List.range'_1_concat, List.foldl_append, ih, List.foldl_cons, List.foldl_nil,
        ← Nat.add_assoc, List.range_succ, List.map_append, List.map_singleton, nextWord,
        hget 2 (by decide) (by decide), hget 7 (by decide) (by decide),
        hget 15 (by decide) (by decide), hget 16 (by decide) (by decide), smallSigma0_toNat,
        smallSigma1_toNat]
      have hadd := add_toNat [Sha256.smallSigma1 (Sha256.schedule block (16 + n - 2)),
        Sha256.schedule block (16 + n - 7),
        Sha256.smallSigma0 (Sha256.schedule block (16 + n - 15)),
        Sha256.schedule block (16 + n - 16)]
      simp only [List.map_cons, List.map_nil] at hadd
      rw [hadd]
      congr 3
      conv_rhs => rw [Sha256.schedule, if_neg (by omega)]
      simp only [List.sum_cons, List.sum_nil]
      ring
  rw [words, hfirst, hnext 48]

/-- The registers that hold a state. -/
def ofState (s : Sha256.State) : Registers :=
  ⟨s.a.toNat, s.b.toNat, s.c.toNat, s.d.toNat, s.e.toNat, s.f.toNat, s.g.toNat, s.h.toNat⟩

theorem add_two (x y : BitVec 32) : add [x.toNat, y.toNat] = (x + y).toNat := by
  have h := add_toNat [x, y]
  simpa using h

theorem round_ofState {w : List Nat} {t : Nat} {word : BitVec 32} (hw : w.getD t 0 = word.toNat)
    (s : Sha256.State) : round w (ofState s) t =
      ofState (Sha256.round s (Sha256.constants.getD t 0) word) := by
  have ht1 : add [s.h.toNat, bigSigma1 s.e.toNat, ch s.e.toNat s.f.toNat s.g.toNat, K.getD t 0,
      w.getD t 0] = (s.h + Sha256.bigSigma1 s.e + Sha256.ch s.e s.f s.g +
        Sha256.constants.getD t 0 + word).toNat := by
    rw [hw, K_getD, bigSigma1_toNat, ch_toNat]
    have hadd := add_toNat [s.h, Sha256.bigSigma1 s.e, Sha256.ch s.e s.f s.g,
      Sha256.constants.getD t 0, word]
    simp only [List.map_cons, List.map_nil] at hadd
    rw [hadd]
    congr 1
    simp only [List.sum_cons, List.sum_nil]
    ring
  simp only [round, ofState]
  rw [ht1, bigSigma0_toNat, maj_toNat, add_two, add_two, add_two]
  rfl

/-- The rounds over a chunk are those over its block. -/
theorem foldl_round {w : List Nat} {block : Nat → BitVec 32}
    (hw : ∀ t < 64, w.getD t 0 = (Sha256.schedule block t).toNat) {rounds : List Nat}
    (hrounds : ∀ t ∈ rounds, t < 64) (s : Sha256.State) :
    rounds.foldl (round w) (ofState s) = ofState (rounds.foldl (fun r t =>
      Sha256.round r (Sha256.constants.getD t 0) (Sha256.schedule block t)) s) := by
  induction rounds generalizing s with
  | nil => rfl
  | cons t rounds ih =>
    obtain ⟨ht, hrounds⟩ := List.forall_mem_cons.mp hrounds
    rw [List.foldl_cons, List.foldl_cons, round_ofState (hw t ht), ih hrounds]

theorem chunk_ofState {bytes : List Nat} {start : Nat} {block : Nat → BitVec 32}
    (hblock : ∀ i < 16, toWord bytes (start + i * 4) = (block i).toNat) (s : Sha256.State) :
    chunk bytes (ofState s) start = ofState (Sha256.compress s block) := by
  have hw : ∀ t < 64, (words bytes start).getD t 0 = (Sha256.schedule block t).toNat := by
    intro t ht
    rw [words_eq bytes start hblock, List.getD_eq_getElem _ _ (by simpa using ht), List.getElem_map,
      List.getElem_range]
  rw [chunk, foldl_round hw fun t ht => List.mem_range.mp ht]
  simp only [ofState, add_two]
  rfl

/-- The loop over the chunks is the one over the blocks. -/
theorem foldl_chunk (bytes : Str) (blocks : List Nat) (s : Sha256.State) :
    (blocks.map (1 + 64 * ·)).foldl (chunk (bytes.map UInt8.toNat)) (ofState s) =
      ofState (blocks.foldl (fun s i =>
        Sha256.compress s fun t => Sha256.wordAt bytes (64 * i + 4 * t)) s) := by
  induction blocks generalizing s with
  | nil => rfl
  | cons i blocks ih =>
    have hblock : ∀ t < 16, toWord (bytes.map UInt8.toNat) (1 + 64 * i + t * 4) =
        (Sha256.wordAt bytes (64 * i + 4 * t)).toNat := by
      intro t _
      rw [show 1 + 64 * i + t * 4 = 64 * i + 4 * t + 1 by omega, toWord_eq]
    rw [List.map_cons, List.foldl_cons, List.foldl_cons,
      chunk_ofState hblock, ih]

/-! ### Digests -/

theorem wordBytes_eq (w : BitVec 32) : [char (rshift w.toNat 24 % 256),
    char (rshift w.toNat 16 % 256), char (rshift w.toNat 8 % 256), char (w.toNat % 256)] =
      Sha256.wordBytes w := by
  have hchar : ∀ n : Nat, char (n % 256) = UInt8.ofNat n := by
    intro n
    rw [char, ← UInt8.toNat_inj, UInt8.toNat_ofNat', UInt8.toNat_ofNat']
    exact Nat.mod_mod ..
  simp only [hchar, rshift, normalize_toNat, Sha256.wordBytes]

/-- **The hash is SHA-256.** -/
theorem sha256_eq (input : Str) : sha256 input = Sha256.hash input := by
  have hlength := Sha256.length_pad input
  have hstarts : chunkStarts (Sha256.pad input).length =
      (List.range ((Sha256.pad input).length / 64)).map (1 + 64 * ·) := by
    rw [chunkStarts, show ((Sha256.pad input).length + 63) / 64 = (Sha256.pad input).length / 64 by
      omega]
  have hinitial : initial = ofState Sha256.initial := rfl
  rw [sha256, padded_eq, List.length_map, hstarts, hinitial, foldl_chunk]
  simp only [toBytesFromWords, ofState, List.flatMap_cons, List.flatMap_nil, wordBytes_eq]
  rfl

/-- A byte of the key with the bits of a constant flipped. -/
theorem bxor_byte (b c : UInt8) : char (bxor b.toNat c.toNat) = b ^^^ c := by
  have hword : ∀ d : UInt8, d.toNat = (BitVec.ofNat 32 d.toNat).toNat := by
    intro d
    have hlt := d.toNat_lt
    rw [BitVec.toNat_ofNat]
    omega
  rw [hword b, hword c, bxor_toNat, BitVec.toNat_xor, ← hword, ← hword, char, ← UInt8.toNat_inj,
    UInt8.toNat_ofNat', UInt8.toNat_xor]
  exact Nat.mod_eq_of_lt (Nat.xor_lt_two_pow (n := 8) b.toNat_lt c.toNat_lt)

/-- The key of a block with the bits of a constant flipped. -/
theorem map_bxor {key : Str} (hlength : key.length = 64) (c : UInt8) :
    ((List.range 64).map fun i => char (bxor (key.getD i 0).toNat c.toNat)) =
      key.map (· ^^^ c) := by
  refine List.ext_getElem (by simp [hlength]) fun i hi hi' => ?_
  have hlt : i < key.length := by simpa using hi'
  rw [List.getElem_map, List.getElem_map, List.getElem_range, List.getD_eq_getElem _ _ hlt,
    bxor_byte]

theorem hmacSha256_eq (key message : Str) : hmacSha256 key message = Sha256.hmac key message := by
  have hkey : (let key := if key.length > 64 then sha256 key else key
      if key.length < 64 then key ++ List.replicate (64 - key.length) 0 else key) =
        Sha256.blockKey key := by
    rw [Sha256.blockKey, sha256_eq]
    dsimp only
    generalize (if key.length > 64 then Sha256.hash key else key) = short
    by_cases hshort : short.length < 64
    · rw [if_pos hshort]
    · rw [if_neg hshort, Nat.sub_eq_zero_of_le (not_lt.mp hshort), List.replicate_zero,
        List.append_nil]
  have hpad : ∀ c : UInt8, ((List.range 64).map fun i =>
      char (bxor ((Sha256.blockKey key).getD i 0).toNat c.toNat)) =
        (Sha256.blockKey key).map (· ^^^ c) := map_bxor (Sha256.length_blockKey key)
  have houter := hpad 0x5c
  have hinner := hpad 0x36
  rw [hmacSha256]
  dsimp only at hkey ⊢
  rw [hkey]
  simp only [sha256_eq]
  rw [Sha256.hmac, ← houter, ← hinner]
  rfl

/-- **The keyed hash is HMAC-SHA256**, its text is the unpadded base64url of its bytes, and every
operation that it is computed with is the one on 32-bit words. -/
theorem hmac_sha256_correct :
    (∀ key message : Str, hmacSha256 key message = Sha256.hmac key message ∧
      hmacSha256Base64url key message =
        (Base64Url.encodeDigits (Sha256.hmac key message)).map Base64url.char) ∧
    (∀ x y : BitVec 32, band x.toNat y.toNat = (x &&& y).toNat ∧
      bor x.toNat y.toNat = (x ||| y).toNat ∧ bxor x.toNat y.toNat = (x ^^^ y).toNat ∧
      bnot x.toNat = (~~~x).toNat) ∧
    (∀ (x : BitVec 32) (n : Nat), rshift x.toNat n = (x >>> n).toNat ∧
      lshift x.toNat n = (x <<< n).toNat ∧ rrotate x.toNat n = (x.rotateRight n).toNat) ∧
    ∀ words : List (BitVec 32), add (words.map BitVec.toNat) = words.sum.toNat := by
  refine ⟨fun key message => ⟨hmacSha256_eq key message, ?_⟩, fun x y =>
    ⟨band_toNat x y, bor_toNat x y, bxor_toNat x y, bnot_toNat x⟩, fun x n =>
    ⟨rshift_toNat x n, lshift_toNat x n, rrotate_toNat x n⟩, add_toNat⟩
  rw [hmacSha256Base64url, hmacSha256_eq, Base64url.encode_eq]

end Crypto

end Lua
end MppSdk
