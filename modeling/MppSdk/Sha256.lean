import Mathlib.Data.List.Basic
import Mathlib.Data.UInt

/-! # SHA-256 and HMAC

The hash function of FIPS 180-4 over 32-bit words, and the keyed hash that RFC 2104 builds from
it.  A message is padded to whole blocks of 64 bytes (`length_pad`), each of which is expanded to
64 words and mixed into eight of them. -/

namespace Sha256

abbrev Word : Type := BitVec 32

/-! ## Functions on words -/

def ch (x y z : Word) : Word := (x &&& y) ^^^ (~~~x &&& z)

def maj (x y z : Word) : Word := (x &&& y) ^^^ (x &&& z) ^^^ (y &&& z)

def bigSigma0 (x : Word) : Word := x.rotateRight 2 ^^^ x.rotateRight 13 ^^^ x.rotateRight 22

def bigSigma1 (x : Word) : Word := x.rotateRight 6 ^^^ x.rotateRight 11 ^^^ x.rotateRight 25

def smallSigma0 (x : Word) : Word := x.rotateRight 7 ^^^ x.rotateRight 18 ^^^ x >>> 3

def smallSigma1 (x : Word) : Word := x.rotateRight 17 ^^^ x.rotateRight 19 ^^^ x >>> 10

/-- The fractional parts of the cube roots of the first sixty-four primes. -/
def constants : List Word :=
  [0x428a2f98, 0x71374491, 0xb5c0fbcf, 0xe9b5dba5,
    0x3956c25b, 0x59f111f1, 0x923f82a4, 0xab1c5ed5,
    0xd807aa98, 0x12835b01, 0x243185be, 0x550c7dc3,
    0x72be5d74, 0x80deb1fe, 0x9bdc06a7, 0xc19bf174,
    0xe49b69c1, 0xefbe4786, 0x0fc19dc6, 0x240ca1cc,
    0x2de92c6f, 0x4a7484aa, 0x5cb0a9dc, 0x76f988da,
    0x983e5152, 0xa831c66d, 0xb00327c8, 0xbf597fc7,
    0xc6e00bf3, 0xd5a79147, 0x06ca6351, 0x14292967,
    0x27b70a85, 0x2e1b2138, 0x4d2c6dfc, 0x53380d13,
    0x650a7354, 0x766a0abb, 0x81c2c92e, 0x92722c85,
    0xa2bfe8a1, 0xa81a664b, 0xc24b8b70, 0xc76c51a3,
    0xd192e819, 0xd6990624, 0xf40e3585, 0x106aa070,
    0x19a4c116, 0x1e376c08, 0x2748774c, 0x34b0bcb5,
    0x391c0cb3, 0x4ed8aa4a, 0x5b9cca4f, 0x682e6ff3,
    0x748f82ee, 0x78a5636f, 0x84c87814, 0x8cc70208,
    0x90befffa, 0xa4506ceb, 0xbef9a3f7, 0xc67178f2]

/-- The eight working variables. -/
@[ext]
structure State where
  a : Word
  b : Word
  c : Word
  d : Word
  e : Word
  f : Word
  g : Word
  h : Word
  deriving DecidableEq

/-- The fractional parts of the square roots of the first eight primes. -/
def initial : State :=
  ⟨0x6a09e667, 0xbb67ae85, 0x3c6ef372, 0xa54ff53a, 0x510e527f, 0x9b05688c, 0x1f83d9ab, 0x5be0cd19⟩

/-! ## Padding -/

/-- The zero bytes between the byte `80` and the length. -/
def zeros (n : ℕ) : ℕ := (119 - n % 64) % 64

/-- They are the fewest that leave eight bytes of the last block. -/
theorem zeros_spec (n : ℕ) : (n + 1 + zeros n) % 64 = 56 ∧ zeros n < 64 := by
  unfold zeros
  omega

/-- A length in bits, in eight bytes. -/
def lengthBytes (bits : ℕ) : List UInt8 :=
  (List.range 8).map fun i => UInt8.ofNat (bits / 2 ^ (8 * (7 - i)))

def pad (message : List UInt8) : List UInt8 :=
  message ++ 0x80 :: (List.replicate (zeros message.length) 0 ++ lengthBytes (8 * message.length))

/-- A padded message is made of whole blocks. -/
theorem length_pad (message : List UInt8) : (pad message).length % 64 = 0 := by
  have hzeros := (zeros_spec message.length).1
  simp only [pad, lengthBytes, List.length_append, List.length_cons, List.length_replicate,
    List.length_map, List.length_range]
  omega

/-! ## Hashing -/

/-- The four bytes from an index on, the most significant first. -/
def wordAt (bytes : List UInt8) (i : ℕ) : Word :=
  BitVec.ofNat 32 ((bytes.getD i 0).toNat * 2 ^ 24 + (bytes.getD (i + 1) 0).toNat * 2 ^ 16 +
    (bytes.getD (i + 2) 0).toNat * 2 ^ 8 + (bytes.getD (i + 3) 0).toNat)

/-- The message schedule of a block. -/
def schedule (block : ℕ → Word) (t : ℕ) : Word :=
  if t < 16 then block t
  else smallSigma1 (schedule block (t - 2)) + schedule block (t - 7) +
    smallSigma0 (schedule block (t - 15)) + schedule block (t - 16)

def round (s : State) (k w : Word) : State :=
  let t1 := s.h + bigSigma1 s.e + ch s.e s.f s.g + k + w
  let t2 := bigSigma0 s.a + maj s.a s.b s.c
  ⟨t1 + t2, s.a, s.b, s.c, s.d + t1, s.e, s.f, s.g⟩

/-- The sixty-four rounds over a block, added to the state before. -/
def compress (s : State) (block : ℕ → Word) : State :=
  let r := (List.range 64).foldl (fun r t => round r (constants.getD t 0) (schedule block t)) s
  ⟨s.a + r.a, s.b + r.b, s.c + r.c, s.d + r.d, s.e + r.e, s.f + r.f, s.g + r.g, s.h + r.h⟩

def wordBytes (w : Word) : List UInt8 :=
  [UInt8.ofNat (w.toNat / 2 ^ 24), UInt8.ofNat (w.toNat / 2 ^ 16), UInt8.ofNat (w.toNat / 2 ^ 8),
    UInt8.ofNat w.toNat]

def State.digest (s : State) : List UInt8 :=
  [s.a, s.b, s.c, s.d, s.e, s.f, s.g, s.h].flatMap wordBytes

def hash (message : List UInt8) : List UInt8 :=
  let padded := pad message
  ((List.range (padded.length / 64)).foldl
    (fun s i => compress s fun t => wordAt padded (64 * i + 4 * t)) initial).digest

theorem length_hash (message : List UInt8) : (hash message).length = 32 := rfl

/-! ## Keyed hashing -/

/-- A key of the length of a block: longer keys are hashed, and zeros are appended. -/
def blockKey (key : List UInt8) : List UInt8 :=
  let key := if 64 < key.length then hash key else key
  key ++ List.replicate (64 - key.length) 0

def hmac (key message : List UInt8) : List UInt8 :=
  hash ((blockKey key).map (· ^^^ 0x5c) ++ hash ((blockKey key).map (· ^^^ 0x36) ++ message))

theorem length_blockKey (key : List UInt8) : (blockKey key).length = 64 := by
  unfold blockKey
  by_cases hlong : 64 < key.length
  · simp [hlong, length_hash]
  · simp [hlong]
    omega

end Sha256
