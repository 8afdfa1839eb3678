import Mathlib.Data.List.Basic
import Mathlib.Data.UInt

/-! # Base64url

The URL-safe alphabet without padding: three bytes make four digits of six bits.  The
bytes can be read back (`decodeDigits_encodeDigits`), so encoding is injective. -/

namespace Base64Url

/-- The digits of some bytes, six bits each. -/
def encodeDigits : List UInt8 → List Nat
  | a :: b :: c :: rest =>
      a.toNat / 4 :: (a.toNat % 4 * 16 + b.toNat / 16) :: (b.toNat % 16 * 4 + c.toNat / 64) ::
        c.toNat % 64 :: encodeDigits rest
  | [a, b] => [a.toNat / 4, a.toNat % 4 * 16 + b.toNat / 16, b.toNat % 16 * 4]
  | [a] => [a.toNat / 4, a.toNat % 4 * 16]
  | [] => []

/-- The bytes of some digits. -/
def decodeDigits : List Nat → List UInt8
  | p :: q :: r :: s :: rest =>
      UInt8.ofNat (p * 4 + q / 16) :: UInt8.ofNat (q % 16 * 16 + r / 4) ::
        UInt8.ofNat (r % 4 * 64 + s) :: decodeDigits rest
  | [p, q, r] => [UInt8.ofNat (p * 4 + q / 16), UInt8.ofNat (q % 16 * 16 + r / 4)]
  | [p, q] => [UInt8.ofNat (p * 4 + q / 16)]
  | _ => []

theorem ofNat_eq {a : UInt8} {n : Nat} (h : n = a.toNat) : UInt8.ofNat n = a := by
  rw [h]
  exact UInt8.ofNat_toNat

/-- **Round trip.** -/
theorem decodeDigits_encodeDigits (bytes : List UInt8) :
    decodeDigits (encodeDigits bytes) = bytes := by
  induction bytes using encodeDigits.induct with
  | case1 a b c rest ih =>
    have ha := a.toNat_lt
    have hb := b.toNat_lt
    have hc := c.toNat_lt
    rw [encodeDigits, decodeDigits, ih, ofNat_eq (a := a) (by omega), ofNat_eq (a := b) (by omega),
      ofNat_eq (a := c) (by omega)]
  | case2 a b =>
    have ha := a.toNat_lt
    have hb := b.toNat_lt
    rw [encodeDigits, decodeDigits, ofNat_eq (a := a) (by omega), ofNat_eq (a := b) (by omega)]
  | case3 a =>
    have ha := a.toNat_lt
    rw [encodeDigits, decodeDigits, ofNat_eq (a := a) (by omega)]
  | case4 => rfl

theorem lt_of_mem_encodeDigits (bytes : List UInt8) : ∀ d ∈ encodeDigits bytes, d < 64 := by
  induction bytes using encodeDigits.induct with
  | case1 a b c rest ih =>
    have ha := a.toNat_lt
    have hb := b.toNat_lt
    have hc := c.toNat_lt
    intro d hd
    simp only [encodeDigits, List.mem_cons] at hd
    rcases hd with rfl | rfl | rfl | rfl | hd
    · omega
    · omega
    · omega
    · omega
    · exact ih d hd
  | case2 a b =>
    have ha := a.toNat_lt
    have hb := b.toNat_lt
    intro d hd
    simp only [encodeDigits, List.mem_cons, List.not_mem_nil, or_false] at hd
    omega
  | case3 a =>
    have ha := a.toNat_lt
    intro d hd
    simp only [encodeDigits, List.mem_cons, List.not_mem_nil, or_false] at hd
    omega
  | case4 => exact fun d hd => nomatch hd

/-- No digit is alone in its group. -/
theorem length_encodeDigits (bytes : List UInt8) : (encodeDigits bytes).length % 4 ≠ 1 := by
  induction bytes using encodeDigits.induct with
  | case1 a b c rest ih =>
    simp only [encodeDigits, List.length_cons]
    omega
  | case2 a b => simp [encodeDigits]
  | case3 a => simp [encodeDigits]
  | case4 => simp [encodeDigits]

/-- The alphabet. -/
def alphabet : List Char :=
  "ABCDEFGHIJKLMNOPQRSTUVWXYZabcdefghijklmnopqrstuvwxyz0123456789-_".toList

/-- The character of a digit. -/
def char (d : Nat) : Char := alphabet.getD d 'A'

/-- `URL_SAFE_NO_PAD.encode`. -/
def encode (bytes : List UInt8) : String := String.ofList ((encodeDigits bytes).map char)

theorem idxOf_char : ∀ d < 64, alphabet.idxOf (char d) = d := by decide

theorem char_mem_alphabet : ∀ d < 64, char d ∈ alphabet := by decide

theorem encode_injective : Function.Injective encode := by
  intro bytes bytes' h
  have hchars : (encodeDigits bytes).map char = (encodeDigits bytes').map char :=
    String.ofList_injective h
  have hdigits : ∀ bytes : List UInt8,
      ((encodeDigits bytes).map char).map alphabet.idxOf = encodeDigits bytes := by
    intro bytes
    rw [List.map_map]
    calc (encodeDigits bytes).map (alphabet.idxOf ∘ char)
        = (encodeDigits bytes).map id :=
          List.map_congr_left fun d hd => idxOf_char d (lt_of_mem_encodeDigits bytes d hd)
      _ = encodeDigits bytes := List.map_id _
  have hsame : encodeDigits bytes = encodeDigits bytes' := by
    rw [← hdigits bytes, hchars, hdigits]
  rw [← decodeDigits_encodeDigits bytes, hsame, decodeDigits_encodeDigits]

/-- The text is made of characters of the alphabet. -/
theorem mem_alphabet_of_mem_encode {bytes : List UInt8} {c : Char} (h : c ∈ (encode bytes).toList) :
    c ∈ alphabet := by
  rw [encode, String.toList_ofList] at h
  obtain ⟨d, hd, rfl⟩ := List.mem_map.mp h
  exact char_mem_alphabet d (lt_of_mem_encodeDigits bytes d hd)

end Base64Url
