import Mathlib.Tactic.FieldSimp
import Mathlib.Tactic.NormNum
import Mathlib.Tactic.Positivity
import MppSdk.Decimal
import MppSdk.GoTypes
import MppSdk.Voucher

/-! # `parse_units` in four languages

A human-readable amount becomes an integer of base units.  Rust multiplies, unless there is a
point; Go and Python pad with zeros and read the result back as a big integer; Lua matches a
pattern and only pads.  `parseUnits_agree`: on every decimal numeral whose base units fit in
64 bits the four return the same text. -/

namespace MppSdk

/-- The length of a string in bytes. -/
def byteLength (cs : List Char) : Nat := (cs.map Char.utf8Size).sum

/-- `trim_start_matches('0')`, `strings.TrimLeft(_, "0")`, `lstrip("0")`. -/
abbrev trimZeros (cs : List Char) : List Char := cs.dropWhile (· = '0')

/-- An optional sign and what follows it. -/
def splitSign : List Char → Int × List Char
  | '-' :: ds => (-1, ds)
  | '+' :: ds => (1, ds)
  | ds => (1, ds)

/-! ## Rust -/

/-- `str::parse::<u128>`. -/
def parseU128 (s : String) : Option Nat :=
  let ds := match s.toList with
    | '+' :: ds => ds
    | ds => ds
  if ds.isEmpty then none
  else (digitsValue ds).filter (· < 2 ^ 128)

/-- `parse_units`.  The product and the power are those of `u128`. -/
def parseUnits (amount : String) (decimals : UInt8) : RustResult Error String :=
  match amount.toList.dropWhile (· ≠ '.') with
  | '.' :: fraction => do
      let integer := amount.toList.takeWhile (· ≠ '.')
      let fracLen := byteLength fraction % 2 ^ 32
      rejectIf (decimals.toNat < fracLen)
        (Error.other s!"Too many decimal places: {fracLen} > {decimals}")
      let padding := decimals.toNat - fracLen
      let trimmed := trimZeros (integer ++ fraction ++ List.replicate padding '0')
      return if trimmed = [] then "0" else String.ofList trimmed
  | _ => do
      let value ← okOrElse (parseU128 amount) (Error.other s!"Invalid amount: {amount}")
      let factor := 10 ^ decimals.toNat % 2 ^ 128
      return toString (value * factor % 2 ^ 128)

/-! ## Go -/

namespace Go

/-- `strings.TrimSpace`. -/
def trimSpace (s : String) : List Char := trimMatches isSpace s.toList

/-- `SetString(value, 10)` of a big integer: an optional sign and at least one digit. -/
def setString (value : List Char) : Option Int :=
  let (sign, ds) := splitSign value
  if ds = [] then none else (digitsValue ds).map fun n : Nat => sign * n

/-- `ParseUnits`. -/
def parseUnits (amount : String) (decimals : UInt8) : Result String := do
  let amount := trimSpace amount
  let text := String.ofList amount
  rejectIf (amount = []) { message := "amount is required" }
  rejectIf (amount.head? = some '-') { message := "amount cannot be negative" }
  let parts := amount.splitOn '.'
  rejectIf (2 < parts.length) { message := s!"invalid amount: {text}" }
  let whole := if parts.headD [] = [] then ['0'] else parts.headD []
  let fractional := parts.getD 1 []
  rejectIf (decimals.toNat < byteLength fractional)
    { message := s!"amount {text} has too many decimal places for {decimals} decimals" }
  let value := trimZeros
    (whole ++ fractional ++ List.replicate (decimals.toNat - byteLength fractional) '0')
  if value = [] then return "0"
  else
    let bigValue ← okOrElse (setString value) (GoError.mk none s!"invalid amount: {text}")
    return toString bigValue

end Go

/-! ## Python -/

namespace Py

/-- A function returns a value or raises a `ValueError` with a message. -/
abbrev Result : Type → Type := Except String

/-- `str.isspace` of one character. -/
def isSpace (c : Char) : Bool :=
  c.toNat ∈ [0x20, 0x85, 0xA0, 0x1680, 0x2028, 0x2029, 0x202F, 0x205F, 0x3000] ∨
    (0x9 ≤ c.toNat ∧ c.toNat ≤ 0xD) ∨ (0x1C ≤ c.toNat ∧ c.toNat ≤ 0x1F) ∨
    (0x2000 ≤ c.toNat ∧ c.toNat ≤ 0x200A)

/-- `str.strip`. -/
def strip (s : String) : List Char := trimMatches isSpace s.toList

/-- The zeros of Unicode; the nine other decimal digits of each script follow. -/
def unicodeZeros : List Nat :=
  [ 0x30, 0x660, 0x6F0, 0x7C0, 0x966, 0x9E6, 0xA66, 0xAE6, 0xB66, 0xBE6, 0xC66, 0xCE6, 0xD66,
    0xDE6, 0xE50, 0xED0, 0xF20, 0x1040, 0x1090, 0x17E0, 0x1810, 0x1946, 0x19D0, 0x1A80, 0x1A90,
    0x1B50, 0x1BB0, 0x1C40, 0x1C50, 0xA620, 0xA8D0, 0xA900, 0xA9D0, 0xA9F0, 0xAA50, 0xABF0,
    0xFF10, 0x104A0, 0x10D30, 0x11066, 0x110F0, 0x11136, 0x111D0, 0x112F0, 0x11450, 0x114D0,
    0x11650, 0x116C0, 0x11730, 0x118E0, 0x11950, 0x11C50, 0x11D50, 0x11DA0, 0x16A60, 0x16AC0,
    0x16B50, 0x1D7CE, 0x1D7D8, 0x1D7E2, 0x1D7EC, 0x1D7F6, 0x1E140, 0x1E2F0, 0x1E950, 0x1FBF0]

/-- The ASCII character as which `int` takes a character: a digit of any script is that
digit, and a space beyond ASCII is a space. -/
def toAscii (c : Char) : Char :=
  if c.toNat < 127 then c
  else if isSpace c then ' '
  else match unicodeZeros.find? fun first => first ≤ c.toNat ∧ c.toNat < first + 10 with
    | some first => Char.ofNat ('0'.toNat + (c.toNat - first))
    | none => '?'

/-- The space that `int` skips, in ASCII. -/
def isAsciiSpace (c : Char) : Bool := c.toNat = 0x20 ∨ (0x9 ≤ c.toNat ∧ c.toNat ≤ 0xD)

-- a name for the instance that the test for an empty group uses
instance lawfulBEqChars : LawfulBEq (List Char) := inferInstance

/-- `int` of a string: space around it, a sign, single underscores between digits, and at most
4300 digits. -/
def int (s : List Char) : Option Int :=
  let text := trimMatches isAsciiSpace (s.map toAscii)
  let (sign, ds) := splitSign text
  let groups := ds.splitOn '_'
  if [] ∈ groups ∨ 4300 < groups.flatten.length then none
  else (digitsValue groups.flatten).map fun n : Nat => sign * n

/-- `parse_units`. -/
def parseUnits (amount : String) (decimals : Int) : Result String := do
  let amount := strip amount
  let text := String.ofList amount
  if amount = [] then throw "amount is required"
  if amount.head? = some '-' then throw "amount cannot be negative"
  let parts := amount.splitOn '.'
  if 2 < parts.length then throw s!"invalid amount: {text}"
  let whole := if parts.headD [] = [] then ['0'] else parts.headD []
  let fractional := parts.getD 1 []
  if decimals < fractional.length then
    throw s!"amount {text} has too many decimal places for {decimals} decimals"
  let padding := (decimals - fractional.length).toNat
  let stripped := trimZeros (whole ++ fractional ++ List.replicate padding '0')
  let valueStr := if stripped = [] then ['0'] else stripped
  match int valueStr with
  | some val => return toString val
  | none => throw s!"invalid amount: {text}"

end Py

/-! ## Lua -/

namespace Lua

/-- A function returns a value or raises an error; its message is without the position that
Lua puts in front. -/
abbrev Result : Type → Type := Except String

/-- The class `%s`. -/
def isSpace (c : Char) : Bool := c.toNat = 0x20 ∨ (0x9 ≤ c.toNat ∧ c.toNat ≤ 0xD)

/-- The pattern `^%d+$`. -/
def allDigits (cs : List Char) : Bool := ¬ cs.isEmpty ∧ cs.all Char.isDigit

/-- `parse_units` of a string. -/
def parseUnits (amount : String) (decimals : Int) : Result String := do
  let amount := trimMatches isSpace amount.toList
  let text := String.ofList amount
  if amount = [] then throw "amount is required"
  if amount.head? = some '-' then throw "amount cannot be negative"
  let whole := amount.takeWhile Char.isDigit
  let (whole, fractional) ←
    match amount.dropWhile Char.isDigit with
    | '.' :: fractional =>
        if whole ≠ [] ∧ allDigits fractional then pure (whole, fractional)
        else throw s!"invalid amount: {text}"
    | rest =>
        if whole ≠ [] ∧ rest = [] then pure (whole, [])
        else throw s!"invalid amount: {text}"
  if decimals < fractional.length then
    throw s!"amount {text} has too many decimal places for {decimals} decimals"
  let value := trimZeros
    (whole ++ fractional ++ List.replicate (decimals - fractional.length).toNat '0')
  return if value = [] then "0" else String.ofList value

end Lua

/-! ## Numerals -/

/-- A plain decimal numeral: digits, and after a point, if there is one, more digits. -/
structure Numeral where
  whole : List Char
  fraction : List Char
  whole_ne_nil : whole ≠ []
  whole_digits : Decimal.Digits whole
  fraction_digits : Decimal.Digits fraction

namespace Numeral
variable (n : Numeral) {decimals : UInt8}

/-- The characters of the numeral; it has a point if it has fraction digits. -/
def chars : List Char := n.whole ++ if n.fraction = [] then [] else '.' :: n.fraction

/-- The text of the numeral. -/
def text : String := String.ofList n.chars

/-- The number it denotes. -/
def value : ℚ := Decimal.value n.whole + Decimal.value n.fraction / 10 ^ n.fraction.length

/-- All digits, with zeros up to the decimals. -/
def padded (decimals : UInt8) : List Char :=
  n.whole ++ n.fraction ++ List.replicate (decimals.toNat - n.fraction.length) '0'

/-- The base units. -/
def units (decimals : UInt8) : Nat := Decimal.value (n.padded decimals)

theorem text_toList : n.text.toList = n.chars := String.toList_ofList

theorem padded_digits (decimals : UInt8) : Decimal.Digits (n.padded decimals) :=
  Decimal.digits_append.mpr
    ⟨Decimal.digits_append.mpr ⟨n.whole_digits, n.fraction_digits⟩, Decimal.digits_zeros _⟩

/-- The base units are the value times the power of ten. -/
theorem units_eq (h : n.fraction.length ≤ decimals.toNat) :
    (n.units decimals : ℚ) = n.value * 10 ^ decimals.toNat := by
  obtain ⟨k, hk⟩ := Nat.exists_eq_add_of_le h
  rw [units, padded, Decimal.value_pad, Decimal.value_append, value, hk, Nat.add_sub_cancel_left,
    pow_add]
  push_cast
  have hne : (10 : ℚ) ^ n.fraction.length ≠ 0 := by positivity
  field_simp

/-- Every character is a digit or the point. -/
theorem mem_chars {c : Char} (hc : c ∈ n.chars) : c.isDigit ∨ c = '.' := by
  unfold chars at hc
  rcases List.mem_append.mp hc with hc | hc
  · exact Or.inl (n.whole_digits c hc)
  · split at hc
    · cases hc
    · rcases List.mem_cons.mp hc with rfl | hc
      · exact Or.inr rfl
      · exact Or.inl (n.fraction_digits c hc)

/-- The numeral starts with a digit. -/
theorem exists_chars_eq : ∃ c cs, n.chars = c :: cs ∧ c.isDigit := by
  obtain ⟨c, cs, hwhole⟩ := List.exists_cons_of_ne_nil n.whole_ne_nil
  have hdigit : c.isDigit := n.whole_digits c (hwhole ▸ List.mem_cons_self)
  exact ⟨c, cs ++ if n.fraction = [] then [] else '.' :: n.fraction,
    by rw [chars, hwhole, List.cons_append], hdigit⟩

/-- A trim that takes neither digits nor the point leaves the numeral as it is. -/
theorem trim_chars {p : Char → Bool} (hdigit : ∀ c : Char, c.isDigit → p c = false)
    (hpoint : p '.' = false) : trimMatches p n.chars = n.chars := by
  have hkeep : ∀ c ∈ n.chars, p c = false := by
    intro c hc
    rcases n.mem_chars hc with hc | rfl
    · exact hdigit c hc
    · exact hpoint
  exact trimMatches_eq_self (fun c hc => hkeep c (List.mem_of_head? hc))
    fun c hc => hkeep c (List.mem_of_getLast? hc)

theorem takeWhile_chars {p : Char → Bool} (hdigit : ∀ c : Char, c.isDigit → p c)
    (hpoint : p '.' = false) : n.chars.takeWhile p = n.whole := by
  rw [chars, List.takeWhile_append_of_pos fun c hc => hdigit c (n.whole_digits c hc)]
  split
  · simp
  · simp [hpoint]

theorem dropWhile_chars {p : Char → Bool} (hdigit : ∀ c : Char, c.isDigit → p c)
    (hpoint : p '.' = false) :
    n.chars.dropWhile p = if n.fraction = [] then [] else '.' :: n.fraction := by
  rw [chars, List.dropWhile_append_of_pos fun c hc => hdigit c (n.whole_digits c hc)]
  split
  · rfl
  · simp [hpoint]

/-- The parts of the numeral. -/
theorem splitOn_chars : (n.chars.splitOn '.').headD [] = n.whole ∧
    (n.chars.splitOn '.').getD 1 [] = n.fraction ∧ (n.chars.splitOn '.').length ≤ 2 := by
  have hwhole : '.' ∉ n.whole := fun h => n.whole_digits.ne rfl _ h rfl
  have hfraction : '.' ∉ n.fraction := fun h => n.fraction_digits.ne rfl _ h rfl
  unfold chars
  split
  · rename_i hnil
    rw [List.append_nil, List.splitOn_eq_singleton hwhole]
    exact ⟨rfl, hnil.symm, by simp⟩
  · rw [List.splitOn_append_cons_self_of_not_mem hwhole, List.splitOn_eq_singleton hfraction]
    exact ⟨rfl, rfl, by simp⟩

theorem byteLength_digits {cs : List Char} (h : Decimal.Digits cs) : byteLength cs = cs.length := by
  induction cs with
  | nil => rfl
  | cons c cs ih =>
    obtain ⟨hc, hcs⟩ := Decimal.digits_cons.mp h
    have hlow : c.utf8Size = 1 := by
      rw [Char.utf8Size_eq_one_iff]
      have hnine : c.toNat ≤ 57 := (Char.isDigit_iff_toNat.mp hc).2
      show c.val.toNat ≤ 127
      exact le_trans hnine (by decide)
    have ih := ih hcs
    unfold byteLength at ih ⊢
    rw [List.map_cons, List.sum_cons, ih, hlow, List.length_cons, Nat.add_comm]

/-- Without leading zeros the padded digits are the text of the base units. -/
theorem canonical_padded (decimals : UInt8) :
    Decimal.canonical (n.padded decimals) = (toString (n.units decimals)).toList :=
  (Decimal.canonical_eq (n.padded_digits decimals)).trans Nat.toList_repr.symm

theorem ofList_canonical_padded (decimals : UInt8) :
    (if trimZeros (n.padded decimals) = [] then "0"
      else String.ofList (trimZeros (n.padded decimals))) = toString (n.units decimals) := by
  have h := n.canonical_padded decimals
  unfold Decimal.canonical at h
  split at h
  · rename_i hnil
    rw [if_pos hnil, ← String.toList_inj, ← h]
    rfl
  · rename_i hne
    rw [if_neg hne, ← String.toList_inj, String.toList_ofList]
    exact h

/-! ## What each of the four returns -/

/-- What has a value as digits is digits. -/
theorem isDigit_of_foldlM {cs : List Char} : ∀ {n m : Nat}, cs.foldlM (fun n c =>
    if c.isDigit then some (10 * n + (c.toNat - '0'.toNat)) else none) n = some m →
      ∀ c ∈ cs, c.isDigit := by
  induction cs with
  | nil => exact fun _ c hc => nomatch hc
  | cons c cs ih =>
    intro n m h
    rw [List.foldlM_cons] at h
    by_cases hc : c.isDigit
    · rw [if_pos hc] at h
      exact List.forall_mem_cons.mpr ⟨hc, ih h⟩
    · rw [if_neg hc] at h
      cases h

theorem digitsValue_eq {cs : List Char} (h : Decimal.Digits cs) :
    digitsValue cs = some (Decimal.value cs) := foldlM_digits h 0

theorem splitSign_eq {cs : List Char} (h : Decimal.Digits cs) : splitSign cs = (1, cs) := by
  unfold splitSign
  split
  · next ds h => exact absurd (h '-' List.mem_cons_self) (by decide)
  · next ds h => exact absurd (h '+' List.mem_cons_self) (by decide)
  · rfl

theorem parseU128_eq (h : Decimal.value n.whole < 2 ^ 128) :
    parseU128 (String.ofList n.whole) = some (Decimal.value n.whole) := by
  have hsign : (match n.whole with
      | '+' :: ds => ds
      | ds => ds) = n.whole := by
    split
    · rename_i ds hds
      exact absurd (n.whole_digits '+' (hds ▸ List.mem_cons_self)) (by decide)
    · rfl
  rw [parseU128, String.toList_ofList, hsign, digitsValue_eq n.whole_digits,
    if_neg (by simpa using n.whole_ne_nil), Option.filter_some, if_pos (by simpa using h)]

/-- Rust. -/
theorem parseUnits_eq (h : n.fraction.length ≤ decimals.toNat) (hdecimals : decimals.toNat ≤ 20)
    (hfits : n.units decimals < 2 ^ 64) :
    parseUnits n.text decimals = .ok (toString (n.units decimals)) := by
  have hpoint : ∀ c : Char, c.isDigit → decide (c ≠ '.') = true := by
    intro c hc
    refine decide_eq_true ?_
    rintro rfl
    cases hc
  unfold parseUnits
  rw [text_toList, n.dropWhile_chars hpoint (by decide), n.takeWhile_chars hpoint (by decide)]
  by_cases hnil : n.fraction = []
  · have htext : n.text = String.ofList n.whole := by
      rw [text, chars, if_pos hnil, List.append_nil]
    have hunits : n.units decimals = Decimal.value n.whole * 10 ^ decimals.toNat := by
      rw [units, padded, hnil, List.append_nil, List.length_nil, Nat.sub_zero, Decimal.value_pad]
    have hpower : (10 : Nat) ^ decimals.toNat < 2 ^ 128 :=
      lt_of_le_of_lt (Nat.pow_le_pow_right (by decide) hdecimals) (by decide)
    have hvalue : Decimal.value n.whole < 2 ^ 128 := by
      have hle : Decimal.value n.whole ≤ n.units decimals := by
        rw [hunits]
        exact Nat.le_mul_of_pos_right _ (by positivity)
      omega
    simp only [if_pos hnil, htext, n.parseU128_eq hvalue, okOrElse, ok_bind,
      Nat.mod_eq_of_lt hpower, ← hunits]
    rw [Nat.mod_eq_of_lt (by omega)]
    rfl
  · have hlength : byteLength n.fraction % 2 ^ 32 = n.fraction.length := by
      rw [byteLength_digits n.fraction_digits, Nat.mod_eq_of_lt (by omega)]
    simp only [if_neg hnil, hlength, rejectIf_neg (Nat.not_lt.mpr h), ok_bind]
    exact congrArg Except.ok (n.ofList_canonical_padded decimals)

theorem not_minus : ¬ n.chars.head? = some '-' := by
  obtain ⟨c, cs, hchars, hdigit⟩ := n.exists_chars_eq
  rw [hchars]
  rintro h
  rw [Option.some.inj h] at hdigit
  cases hdigit

theorem chars_ne_nil : n.chars ≠ [] := by
  obtain ⟨c, cs, hchars, -⟩ := n.exists_chars_eq
  rw [hchars]
  exact List.cons_ne_nil c cs

/-- The space of no language is a digit. -/
theorem isSpace_digit {c : Char} (h : c.isDigit) :
    Go.isSpace c = false ∧ Py.isSpace c = false ∧ Lua.isSpace c = false ∧
      Py.isAsciiSpace c = false := by
  have hlow : 48 ≤ c.toNat := (Char.isDigit_iff_toNat.mp h).1
  have hhigh : c.toNat ≤ 57 := (Char.isDigit_iff_toNat.mp h).2
  simp only [Go.isSpace, Py.isSpace, Lua.isSpace, Py.isAsciiSpace, decide_eq_false_iff_not,
    List.mem_cons, List.not_mem_nil, or_false]
  omega

theorem setString_eq {cs : List Char} (h : Decimal.Digits cs) (hne : cs ≠ []) :
    Go.setString cs = some (Decimal.value cs : Int) := by
  rw [Go.setString, splitSign_eq h]
  simp only [if_neg hne, digitsValue_eq h, Option.map_some, Int.one_mul]

/-- Go. -/
theorem go_parseUnits_eq (h : n.fraction.length ≤ decimals.toNat) :
    Go.parseUnits n.text decimals = .ok (toString (n.units decimals)) := by
  have htrim : Go.trimSpace n.text = n.chars := by
    rw [Go.trimSpace, text_toList, n.trim_chars (fun c hc => (isSpace_digit hc).1) (by decide)]
  obtain ⟨hwhole, hfraction, hparts⟩ := n.splitOn_chars
  have hlength := byteLength_digits n.fraction_digits
  simp only [Go.parseUnits, htrim, rejectIf_neg n.chars_ne_nil, rejectIf_neg n.not_minus,
    rejectIf_neg (Nat.not_lt.mpr hparts), hwhole, hfraction, hlength,
    rejectIf_neg (Nat.not_lt.mpr h), if_neg n.whole_ne_nil, ok_bind]
  have hcanonical := n.ofList_canonical_padded decimals
  unfold padded at hcanonical
  by_cases hnil : trimZeros (n.whole ++ n.fraction ++
      List.replicate (decimals.toNat - n.fraction.length) '0') = []
  · rw [if_pos hnil] at hcanonical ⊢
    exact congrArg Except.ok hcanonical
  · have hset : Go.setString (trimZeros (n.whole ++ n.fraction ++
        List.replicate (decimals.toNat - n.fraction.length) '0')) = some (n.units decimals : Int) := by
      refine (setString_eq ((n.padded_digits decimals).dropWhile _) hnil).trans ?_
      rw [Decimal.value_dropWhile]
      rfl
    rw [if_neg hnil, hset]
    rfl

/-- `int` reads digits unless there are too many of them. -/
theorem int_digits {cs : List Char} (h : Decimal.Digits cs) (hne : cs ≠ []) :
    Py.int cs = if cs.length ≤ 4300 then some (Decimal.value cs : Int) else none := by
  have hascii : cs.map Py.toAscii = cs := by
    refine (List.map_congr_left fun c hc => ?_).trans (List.map_id cs)
    have hhigh : c.toNat ≤ 57 := (Char.isDigit_iff_toNat.mp (h c hc)).2
    exact if_pos (by omega)
  have hkeep : ∀ c ∈ cs, Py.isAsciiSpace c = false := fun c hc => (isSpace_digit (h c hc)).2.2.2
  have htrim : trimMatches Py.isAsciiSpace cs = cs :=
    trimMatches_eq_self (fun c hc => hkeep c (List.mem_of_head? hc))
      fun c hc => hkeep c (List.mem_of_getLast? hc)
  have hgroups : cs.splitOn '_' = [cs] :=
    List.splitOn_eq_singleton fun hmem => h.ne rfl _ hmem rfl
  unfold Py.int
  simp only [hascii, htrim, splitSign_eq h, hgroups, List.flatten_singleton]
  by_cases hlength : cs.length ≤ 4300
  · rw [if_neg, if_pos hlength, digitsValue_eq h, Option.map_some, Int.one_mul]
    rintro (hmem | hlong)
    · exact hne (List.mem_singleton.mp hmem).symm
    · omega
  · rw [if_pos (Or.inr (Nat.not_le.mp hlength)), if_neg hlength]

/-- `int` reads digits that are not too many. -/
theorem int_eq {cs : List Char} (h : Decimal.Digits cs) (hne : cs ≠ []) (hlength : cs.length ≤ 4300) :
    Py.int cs = some (Decimal.value cs : Int) := by
  rw [int_digits h hne, if_pos hlength]

/-- The text of the base units is not too long for `int`. -/
theorem int_padded (hfits : n.units decimals < 2 ^ 64) :
    Py.int (Decimal.canonical (n.padded decimals)) = some (n.units decimals : Int) := by
  rw [Decimal.canonical_eq (n.padded_digits decimals)]
  have hdigits : Decimal.Digits (Nat.toDigits 10 (n.units decimals)) :=
    fun c hc => Nat.isDigit_of_mem_toDigits (by decide) (by decide) hc
  have hlength : (Nat.toDigits 10 (n.units decimals)).length ≤ 20 :=
    (Nat.length_toDigits_le_iff (by decide) (by decide)).mpr (by omega)
  rw [show Decimal.value (n.padded decimals) = n.units decimals from rfl,
    int_eq hdigits Nat.toDigits_ne_nil (by omega), Decimal.value, Nat.ofDigitChars_ten_toDigits]

/-- Python. -/
theorem py_parseUnits_eq (h : n.fraction.length ≤ decimals.toNat)
    (hfits : n.units decimals < 2 ^ 64) :
    Py.parseUnits n.text decimals.toNat = .ok (toString (n.units decimals)) := by
  have htrim : Py.strip n.text = n.chars := by
    rw [Py.strip, text_toList, n.trim_chars (fun c hc => (isSpace_digit hc).2.1) (by decide)]
  obtain ⟨hwhole, hfraction, hparts⟩ := n.splitOn_chars
  have hroom : ¬ (decimals.toNat : Int) < n.fraction.length := by omega
  have hpadding : ((decimals.toNat : Int) - n.fraction.length).toNat =
      decimals.toNat - n.fraction.length := by omega
  have hint := n.int_padded hfits
  unfold Decimal.canonical padded at hint
  simp only [Py.parseUnits, htrim, if_neg n.chars_ne_nil, if_neg n.not_minus, hwhole, hfraction,
    if_neg (Nat.not_lt.mpr hparts), if_neg hroom, if_neg n.whole_ne_nil, hpadding]
  rw [show Py.int _ = _ from hint]
  rfl

/-- Lua. -/
theorem lua_parseUnits_eq (h : n.fraction.length ≤ decimals.toNat) :
    Lua.parseUnits n.text decimals.toNat = .ok (toString (n.units decimals)) := by
  have htrim : trimMatches Lua.isSpace n.text.toList = n.chars := by
    rw [text_toList, n.trim_chars (fun c hc => (isSpace_digit hc).2.2.1) (by decide)]
  have hroom : ¬ (decimals.toNat : Int) < n.fraction.length := by omega
  have hpadding : ((decimals.toNat : Int) - n.fraction.length).toNat =
      decimals.toNat - n.fraction.length := by omega
  have hwhole := n.takeWhile_chars (p := Char.isDigit) (fun c hc => hc) rfl
  have hrest := n.dropWhile_chars (p := Char.isDigit) (fun c hc => hc) rfl
  have hresult := n.ofList_canonical_padded decimals
  unfold padded at hresult
  simp only [Lua.parseUnits, htrim, if_neg n.chars_ne_nil, if_neg n.not_minus, hwhole, hrest]
  by_cases hnil : n.fraction = []
  · rw [hnil] at hresult hroom hpadding
    simp only [if_pos hnil, ne_eq, n.whole_ne_nil, not_false_eq_true, and_self, if_true, pure_bind,
      if_neg hroom, hpadding, hresult]
    rfl
  · have hall : Lua.allDigits n.fraction = true := by
      have hdigits : n.fraction.all Char.isDigit = true := List.all_eq_true.mpr n.fraction_digits
      simp [Lua.allDigits, hnil, hdigits]
    simp only [if_neg hnil, ne_eq, n.whole_ne_nil, not_false_eq_true, hall, and_self, if_true,
      pure_bind, if_neg hroom, hpadding, hresult]
    rfl

/-! ## Agreement -/

end Numeral

/-- **The four implementations agree.**  On a numeral with no more fraction digits than
`decimals`, whose base units fit in 64 bits, they return the decimal text of the base units. -/
theorem parseUnits_agree (n : Numeral) (decimals : UInt8) (hdecimals : decimals ≤ 20)
    (hfraction : n.fraction.length ≤ decimals.toNat)
    (hfits : n.value * 10 ^ decimals.toNat < 2 ^ 64) :
    ∃ units : ℕ, (units : ℚ) = n.value * 10 ^ decimals.toNat ∧
      parseUnits n.text decimals = .ok (toString units) ∧
      Go.parseUnits n.text decimals = .ok (toString units) ∧
      Py.parseUnits n.text decimals.toNat = .ok (toString units) ∧
      Lua.parseUnits n.text decimals.toNat = .ok (toString units) := by
  have hunits := n.units_eq hfraction
  have hsmall : n.units decimals < 2 ^ 64 := by
    rw [← hunits] at hfits
    exact_mod_cast hfits
  exact ⟨n.units decimals, hunits, n.parseUnits_eq hfraction hdecimals hsmall,
    n.go_parseUnits_eq hfraction, n.py_parseUnits_eq hfraction hsmall,
    n.lua_parseUnits_eq hfraction⟩

/-- `001.50` with six decimals. -/
theorem parseUnits_agree_padded : ∃ units : ℕ,
    (units : ℚ) = (Numeral.mk ['0', '0', '1'] ['5', '0'] (by decide) (by decide) (by decide)).value *
        10 ^ (6 : UInt8).toNat ∧
      parseUnits "001.50" 6 = .ok (toString units) ∧
      Go.parseUnits "001.50" 6 = .ok (toString units) ∧
      Py.parseUnits "001.50" 6 = .ok (toString units) ∧
      Lua.parseUnits "001.50" 6 = .ok (toString units) :=
  parseUnits_agree ⟨['0', '0', '1'], ['5', '0'], by decide, by decide, by decide⟩ 6 (by decide)
    (by decide) (by
      have hwhole : Decimal.value ['0', '0', '1'] = 1 := by decide
      have hfraction : Decimal.value ['5', '0'] = 50 := by decide
      rw [Numeral.value, hwhole, hfraction, show (6 : UInt8).toNat = 6 from rfl]
      norm_num)

end MppSdk
