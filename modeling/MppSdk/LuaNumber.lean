import Mathlib.Data.List.DropRight
import MppSdk.Binary64
import MppSdk.Decimal

/-! # Lua numbers

Numbers are doubles.  `tonumber` reads a decimal numeral as the nearest one, and
`string.format('%.14g', value)` writes its first fourteen significant digits.  The two zeros
are equal in Lua and are one number here. -/

namespace MppSdk
namespace Lua

/-- A number. -/
inductive Number where
  | finite (value : ℚ)
  | huge
  | minusHuge
  | nan
  deriving DecidableEq, Repr

/-- The double nearest to a rational. -/
def Number.ofRat (q : ℚ) : Number :=
  if |Binary64.nearest q| < 2 ^ 1024 then .finite (Binary64.nearest q)
  else if 0 < q then .huge else .minusHuge

/-! ## `tonumber` -/

/-- An optional sign, and whether it is a minus. -/
def splitSign : List Char → Bool × List Char
  | '-' :: cs => (true, cs)
  | '+' :: cs => (false, cs)
  | cs => (false, cs)

/-- The digits after a point. -/
def splitFraction : List Char → List Char × List Char
  | '.' :: cs => (cs.takeWhile Char.isDigit, cs.dropWhile Char.isDigit)
  | cs => ([], cs)

/-- The exponent, up to the end of the text. -/
def exponentOf : List Char → Option ℤ
  | [] => some 0
  | c :: cs =>
    let (negative, digits) := splitSign cs
    if (c = 'e' ∨ c = 'E') ∧ digits ≠ [] ∧ digits.all Char.isDigit then
      some (if negative then -Decimal.value digits else Decimal.value digits)
    else none

/-- The rational a decimal numeral denotes. -/
def ratOf (negative : Bool) (whole fraction : List Char) (exponent : ℤ) : ℚ :=
  (if negative then -1 else 1) * Decimal.value (whole ++ fraction) *
    10 ^ (exponent - fraction.length)

/-- `tonumber(text)`, for a text of the characters of a decimal numeral. -/
def tonumber (text : List Char) : Option Number :=
  let (negative, cs) := splitSign text
  let whole := cs.takeWhile Char.isDigit
  let (fraction, rest) := splitFraction (cs.dropWhile Char.isDigit)
  if whole = [] ∧ fraction = [] then none
  else (exponentOf rest).map fun exponent => .ofRat (ratOf negative whole fraction exponent)

/-! ## `string.format('%.14g', value)` -/

/-- A fraction without the zeros at its end, and without its point if nothing is left. -/
def stripFraction (digits : List Char) : List Char :=
  let kept := digits.rdropWhile (· = '0')
  if kept = [] then [] else '.' :: kept

/-- The digits with the point after the first `exponent + 1` of them. -/
def fixed (digits : List Char) (exponent : ℤ) : List Char :=
  if 0 ≤ exponent then
    digits.take (exponent.toNat + 1) ++ stripFraction (digits.drop (exponent.toNat + 1))
  else '0' :: stripFraction (List.replicate (-exponent - 1).toNat '0' ++ digits)

/-- The digits with the point after the first, and an exponent of two digits or more. -/
def scientific (digits : List Char) (exponent : ℤ) : List Char :=
  let magnitude := Nat.toDigits 10 exponent.natAbs
  digits.take 1 ++ stripFraction (digits.drop 1) ++
    ['e', if exponent < 0 then '-' else '+'] ++
    (if magnitude.length < 2 then '0' :: magnitude else magnitude)

/-- Fourteen significant digits, and the exponent of the first. -/
def significant (q : ℚ) : ℤ × ℤ :=
  let exponent := Int.log 10 |q|
  let digits := Binary64.toNearestEven (|q| / 10 ^ (exponent - 13))
  if digits = 10 ^ 14 then (10 ^ 13, exponent + 1) else (digits, exponent)

/-- `string.format('%.14g', value)`, for a finite number. -/
def format14g (q : ℚ) : List Char :=
  if q = 0 then ['0'] else
  let (digits, exponent) := significant q
  let text := Nat.toDigits 10 digits.toNat
  (if q < 0 then ['-'] else []) ++
    if -4 ≤ exponent ∧ exponent < 14 then fixed text exponent else scientific text exponent

/-! ## Numerals -/

/-- A decimal numeral as its parts. -/
structure Numeral where
  negative : Bool
  whole : List Char
  fraction : Option (List Char)
  exponent : Option (Char × Option Char × List Char)
  whole_digits : Decimal.Digits whole
  whole_ne : whole ≠ []
  fraction_digits : ∀ ds ∈ fraction, Decimal.Digits ds
  mark : ∀ e ∈ exponent, e.1 = 'e' ∨ e.1 = 'E'
  sign : ∀ e ∈ exponent, ∀ c ∈ e.2.1, c = '-' ∨ c = '+'
  exponent_digits : ∀ e ∈ exponent, Decimal.Digits e.2.2
  exponent_ne : ∀ e ∈ exponent, e.2.2 ≠ []

namespace Numeral

variable (n : Numeral)

/-- The digits after the point. -/
def places : List Char := n.fraction.getD []

/-- The text after the digits. -/
def exponentText : List Char :=
  match n.exponent with
  | none => []
  | some (mark, sign, digits) => mark :: (sign.toList ++ digits)

/-- The text of a numeral. -/
def text : List Char :=
  (if n.negative then ['-'] else []) ++ n.whole ++
    (match n.fraction with
      | none => []
      | some digits => '.' :: digits) ++ n.exponentText

/-- The power of ten. -/
def power : ℤ :=
  match n.exponent with
  | none => 0
  | some (_, sign, digits) =>
    if sign = some '-' then -Decimal.value digits else Decimal.value digits

/-- The rational a numeral denotes. -/
def value : ℚ := ratOf n.negative n.whole n.places n.power

theorem exponentOf_text : exponentOf n.exponentText = some n.power := by
  unfold exponentText power
  match hexp : n.exponent with
  | none => rfl
  | some (mark, sign, digits) =>
    have hmark : mark = 'e' ∨ mark = 'E' := n.mark _ hexp
    have hdigits : Decimal.Digits digits := n.exponent_digits _ hexp
    have hne : digits ≠ [] := n.exponent_ne _ hexp
    have hall : digits.all Char.isDigit = true := List.all_eq_true.mpr hdigits
    obtain ⟨d, ds, rfl⟩ := List.exists_cons_of_ne_nil hne
    have hd : d.isDigit := hdigits d (List.mem_cons_self ..)
    have hsplit : splitSign (sign.toList ++ d :: ds) = (decide (sign = some '-'), d :: ds) := by
      match sign, n.sign _ hexp with
      | none, _ =>
        unfold splitSign
        split
        · next heq => cases heq; exact absurd hd (by decide)
        · next heq => cases heq; exact absurd hd (by decide)
        · rfl
      | some c, hsign =>
        rcases hsign c rfl with rfl | rfl <;> rfl
    dsimp only [exponentOf]
    rw [hsplit]
    simp [hmark, hall]

/-- What follows the digits before the point is no digit. -/
theorem exponentText_head : ∀ c ∈ n.exponentText.head?, c.isDigit = false := by
  unfold exponentText
  match hexp : n.exponent with
  | none => simp
  | some (mark, sign, digits) =>
    intro c hc
    obtain rfl : mark = c := by simpa using hc
    rcases n.mark _ hexp with h | h <;> · dsimp only at h; subst h; rfl

theorem takeWhile_digits {ds rest : List Char} (hds : Decimal.Digits ds)
    (hrest : ∀ c ∈ rest.head?, c.isDigit = false) :
    (ds ++ rest).takeWhile Char.isDigit = ds ∧ (ds ++ rest).dropWhile Char.isDigit = rest := by
  rw [List.takeWhile_append_of_pos hds, List.dropWhile_append_of_pos hds]
  cases rest with
  | nil => simp
  | cons c rest =>
    have hc : c.isDigit = false := hrest c rfl
    simp [hc]

theorem splitSign_digits {c : Char} (hc : c.isDigit) (cs : List Char) :
    splitSign (c :: cs) = (false, c :: cs) := by
  unfold splitSign
  split
  · next heq => cases heq; exact absurd hc (by decide)
  · next heq => cases heq; exact absurd hc (by decide)
  · rfl

/-- **`tonumber` reads every numeral as the double nearest to what it denotes.** -/
theorem tonumber_text : tonumber n.text = some (.ofRat n.value) := by
  obtain ⟨d, ds, hwhole⟩ := List.exists_cons_of_ne_nil n.whole_ne
  have hd : d.isDigit := n.whole_digits d (hwhole ▸ List.mem_cons_self ..)
  -- the text after the digits before the point
  obtain ⟨tail, htail, hhead, hsplit⟩ : ∃ tail, n.text =
      (if n.negative then ['-'] else []) ++ (n.whole ++ tail) ∧
      (∀ c ∈ tail.head?, c.isDigit = false) ∧ splitFraction tail = (n.places, n.exponentText) := by
    unfold text places
    match hfrac : n.fraction with
    | none =>
      refine ⟨n.exponentText, by simp, n.exponentText_head, ?_⟩
      unfold splitFraction
      split
      · next cs heq =>
        unfold exponentText at heq
        match hexp : n.exponent with
        | none =>
          rw [hexp] at heq
          exact nomatch heq
        | some (mark, sign, digits) =>
          rw [hexp] at heq
          have hmark : mark = '.' := (List.cons.inj heq).1
          rcases n.mark _ hexp with h | h <;> exact absurd (h.symm.trans hmark) (by decide)
      · rfl
    | some digits =>
      refine ⟨'.' :: digits ++ n.exponentText, by simp, ?_, ?_⟩
      · intro c hc
        obtain rfl : '.' = c := by simpa using hc
        rfl
      · have hdigits := takeWhile_digits (n.fraction_digits _ hfrac) n.exponentText_head
        simp [splitFraction, hdigits]
  have hsign : splitSign n.text = (n.negative, n.whole ++ tail) := by
    rw [htail, hwhole]
    cases n.negative with
    | true => rfl
    | false => exact splitSign_digits hd _
  obtain ⟨htake, hdrop⟩ := takeWhile_digits n.whole_digits hhead
  unfold tonumber
  rw [hsign]
  dsimp only
  rw [htake, hdrop, hsplit]
  dsimp only
  rw [if_neg (by simp [n.whole_ne]), exponentOf_text]
  rfl

end Numeral

/-! ## What is written -/

/-- A number's magnitude rounded to fourteen significant digits. -/
def round14 (q : ℚ) : ℚ :=
  Binary64.toNearestEven (|q| / 10 ^ (Int.log 10 |q| - 13)) * 10 ^ (Int.log 10 |q| - 13)

/-- The fraction that is left of digits. -/
def keptFraction (digits : List Char) : Option (List Char) :=
  if digits.rdropWhile (· = '0') = [] then none else some (digits.rdropWhile (· = '0'))

theorem stripFraction_eq (digits : List Char) : stripFraction digits =
    match keptFraction digits with
    | none => []
    | some kept => '.' :: kept := by
  unfold stripFraction keptFraction
  dsimp only
  split_ifs <;> rfl

theorem kept_append_zeros (digits : List Char) :
    ∃ k, digits = (keptFraction digits).getD [] ++ List.replicate k '0' := by
  have hkept : (keptFraction digits).getD [] = digits.rdropWhile (· = '0') := by
    unfold keptFraction
    split_ifs with h
    · exact h.symm
    · rfl
  rw [hkept]
  refine ⟨(digits.rtakeWhile (· = '0')).length, ?_⟩
  have hzeros : digits.rtakeWhile (· = '0') =
      List.replicate (digits.rtakeWhile (· = '0')).length '0' := by
    refine List.eq_replicate_of_mem fun c hc => ?_
    simpa using List.mem_rtakeWhile_imp hc
  rw [← hzeros]
  exact (List.rdropWhile_append_rtakeWhile ..).symm

theorem ten_pow_mul (k : ℕ) (exponent : ℤ) :
    (10 : ℚ) ^ k * 10 ^ (exponent - k) = 10 ^ exponent := by
  rw [← zpow_natCast, ← zpow_add₀ (by norm_num), add_sub_cancel]

/-- The zeros at the end of a fraction do not count. -/
theorem ratOf_kept (negative : Bool) (whole digits : List Char) (exponent : ℤ) :
    ratOf negative whole ((keptFraction digits).getD []) exponent =
      ratOf negative whole digits exponent := by
  obtain ⟨k, hk⟩ := kept_append_zeros digits
  generalize (keptFraction digits).getD [] = kept at hk
  subst hk
  unfold ratOf
  rw [← List.append_assoc, Decimal.value_pad, List.length_append, List.length_replicate]
  have hten : (10 : ℚ) ^ (exponent - kept.length) =
      10 ^ k * 10 ^ (exponent - (kept.length + k : ℕ)) := by
    rw [← ten_pow_mul k, Nat.cast_add, sub_add_eq_sub_sub]
  rw [hten]
  push_cast
  ring

theorem digits_toDigits (n : Nat) : Decimal.Digits (Nat.toDigits 10 n) := fun _ hc =>
  Nat.isDigit_of_mem_toDigits (by decide) (by decide) hc

theorem value_toDigits (n : Nat) : Decimal.value (Nat.toDigits 10 n) = n :=
  Nat.ofDigitChars_toDigits (by decide) (by decide)

theorem kept_digits {digits : List Char} (h : Decimal.Digits digits) :
    ∀ ds ∈ keptFraction digits, Decimal.Digits ds := by
  intro ds hds
  unfold keptFraction at hds
  split_ifs at hds with hkept
  · exact nomatch hds
  · obtain rfl := Option.mem_some_iff.mp hds
    exact fun c hc => h c ((List.rdropWhile_prefix _ digits).subset hc)

/-- Fourteen digits, the first of them at the exponent's place. -/
theorem significant_eq {q : ℚ} (hq : q ≠ 0) :
    10 ^ 13 ≤ (significant q).1 ∧ (significant q).1 < 10 ^ 14 ∧
      ((significant q).1 : ℚ) * 10 ^ ((significant q).2 - 13) = round14 q := by
  have hpos : 0 < |q| := abs_pos.mpr hq
  have hlow := Int.zpow_log_le_self (b := 10) (by norm_num) hpos
  have hhigh := Int.lt_zpow_succ_log_self (b := 10) (by norm_num) |q|
  unfold significant round14
  dsimp only
  generalize Int.log 10 |q| = exponent at hlow hhigh ⊢
  have hten : (0 : ℚ) < 10 ^ (exponent - 13) := zpow_pos (by norm_num) _
  have hle : ((10 ^ 13 : ℤ) : ℚ) ≤ |q| / 10 ^ (exponent - 13) := by
    rw [le_div_iff₀ hten, Int.cast_pow, Int.cast_ofNat]
    exact (ten_pow_mul 13 exponent).le.trans hlow
  have hlt : |q| / 10 ^ (exponent - 13) < ((10 ^ 14 : ℤ) : ℚ) := by
    rw [div_lt_iff₀ hten, Int.cast_pow, Int.cast_ofNat]
    refine hhigh.trans_le (le_of_eq ?_)
    rw [show exponent - 13 = exponent + 1 - (14 : ℕ) by push_cast; ring]
    exact (ten_pow_mul 14 (exponent + 1)).symm
  obtain ⟨hfloor, hceil⟩ := Binary64.toNearestEven_mem (|q| / 10 ^ (exponent - 13))
  have hmin : (10 ^ 13 : ℤ) ≤ ⌊|q| / 10 ^ (exponent - 13)⌋ := Int.le_floor.mpr hle
  have hmax : ⌊|q| / 10 ^ (exponent - 13)⌋ < (10 ^ 14 : ℤ) := Int.floor_lt.mpr hlt
  split_ifs with hcarry
  · refine ⟨le_rfl, by norm_num, ?_⟩
    have hleft : (10 : ℚ) ^ 13 * 10 ^ (exponent + 1 - 13) = 10 ^ (exponent + 1) :=
      ten_pow_mul 13 (exponent + 1)
    have hright : (10 : ℚ) ^ 14 * 10 ^ (exponent + 1 - 14) = 10 ^ (exponent + 1) :=
      ten_pow_mul 14 (exponent + 1)
    rw [hcarry, Int.cast_pow, Int.cast_pow, Int.cast_ofNat, hleft, ← hright]
    congr 2
    ring
  · exact ⟨by omega, by omega, rfl⟩

/-- Fourteen digits. -/
theorem length_toDigits_of_mem {n : Nat} (hlow : 10 ^ 13 ≤ n) (hhigh : n < 10 ^ 14) :
    (Nat.toDigits 10 n).length = 14 := by
  have hle : (Nat.toDigits 10 n).length ≤ 14 :=
    (Nat.length_toDigits_le_iff (by decide) (by decide)).mpr hhigh
  have hnot : ¬ (Nat.toDigits 10 n).length ≤ 13 := fun h =>
    absurd ((Nat.length_toDigits_le_iff (by decide) (by decide)).mp h) (not_lt.mpr hlow)
  omega

/-- A numeral without an exponent whose fraction lost its zeros. -/
def plain (negative : Bool) {whole digits : List Char} (hwhole : Decimal.Digits whole)
    (hne : whole ≠ []) (hdigits : Decimal.Digits digits) : Numeral where
  negative := negative
  whole := whole
  fraction := keptFraction digits
  exponent := none
  whole_digits := hwhole
  whole_ne := hne
  fraction_digits := kept_digits hdigits
  mark := nofun
  sign := nofun
  exponent_digits := nofun
  exponent_ne := nofun

theorem plain_value (negative : Bool) {whole digits : List Char} (hwhole : Decimal.Digits whole)
    (hne : whole ≠ []) (hdigits : Decimal.Digits digits) :
    (plain negative hwhole hne hdigits).value = ratOf negative whole digits 0 :=
  ratOf_kept negative whole digits 0

/-- The digits of an exponent, at least two. -/
def exponentDigits (exponent : ℤ) : List Char :=
  if (Nat.toDigits 10 exponent.natAbs).length < 2 then '0' :: Nat.toDigits 10 exponent.natAbs
  else Nat.toDigits 10 exponent.natAbs

theorem exponentDigits_digits (exponent : ℤ) : Decimal.Digits (exponentDigits exponent) := by
  unfold exponentDigits
  split_ifs
  · exact Decimal.digits_cons.mpr ⟨rfl, digits_toDigits _⟩
  · exact digits_toDigits _

theorem value_exponentDigits (exponent : ℤ) :
    Decimal.value (exponentDigits exponent) = exponent.natAbs := by
  unfold exponentDigits
  split_ifs
  · rw [Decimal.value_cons_zero, value_toDigits]
  · exact value_toDigits _

theorem exponentDigits_ne (exponent : ℤ) : exponentDigits exponent ≠ [] := by
  unfold exponentDigits
  split_ifs
  · exact List.cons_ne_nil _ _
  · exact List.length_pos_iff.mp Nat.length_toDigits_pos

/-- A numeral with an exponent whose fraction lost its zeros. -/
def withExponent (negative : Bool) {whole digits : List Char} (hwhole : Decimal.Digits whole)
    (hne : whole ≠ []) (hdigits : Decimal.Digits digits) (exponent : ℤ) : Numeral where
  negative := negative
  whole := whole
  fraction := keptFraction digits
  exponent := some ('e', some (if exponent < 0 then '-' else '+'), exponentDigits exponent)
  whole_digits := hwhole
  whole_ne := hne
  fraction_digits := kept_digits hdigits
  mark := by
    rintro e ⟨⟩
    exact Or.inl rfl
  sign := by
    rintro e ⟨⟩ c ⟨⟩
    split_ifs
    · exact Or.inl rfl
    · exact Or.inr rfl
  exponent_digits := by
    rintro e ⟨⟩
    exact exponentDigits_digits exponent
  exponent_ne := by
    rintro e ⟨⟩
    exact exponentDigits_ne exponent

theorem withExponent_value (negative : Bool) {whole digits : List Char}
    (hwhole : Decimal.Digits whole) (hne : whole ≠ []) (hdigits : Decimal.Digits digits)
    (exponent : ℤ) : (withExponent negative hwhole hne hdigits exponent).value =
      ratOf negative whole digits exponent := by
  have hpower : (withExponent negative hwhole hne hdigits exponent).power = exponent := by
    show (if some (if exponent < 0 then '-' else '+') = some '-' then
      -(Decimal.value (exponentDigits exponent) : ℤ)
      else Decimal.value (exponentDigits exponent)) = _
    rw [value_exponentDigits]
    by_cases hneg : exponent < 0
    · rw [if_pos (by rw [if_pos hneg])]
      omega
    · rw [if_neg (by rw [if_neg hneg]; decide)]
      omega
  rw [Numeral.value, hpower]
  exact ratOf_kept negative whole digits exponent

/-- **What is written is a numeral of the number rounded to fourteen significant digits.** -/
theorem format14g_numeral (q : ℚ) : ∃ n : Numeral, n.text = format14g q ∧
    n.value = (if q < 0 then -1 else 1) * round14 q := by
  by_cases hq : q = 0
  · subst hq
    have hdigit : Decimal.Digits ['0'] := by decide
    have hnone : Decimal.Digits [] := by decide
    refine ⟨plain false hdigit (List.cons_ne_nil _ _) hnone, rfl, ?_⟩
    have hzero : Decimal.value ['0'] = 0 := rfl
    have hround : Binary64.toNearestEven 0 = 0 := by exact_mod_cast Binary64.toNearestEven_intCast 0
    rw [plain_value, round14]
    simp [ratOf, hzero, hround]
  obtain ⟨hlow, hhigh, hvalue⟩ := significant_eq hq
  rw [format14g, if_neg hq]
  generalize significant q = pair at hlow hhigh hvalue ⊢
  obtain ⟨digits, exponent⟩ := pair
  dsimp only at hlow hhigh hvalue ⊢
  obtain ⟨n, rfl⟩ := Int.eq_ofNat_of_zero_le (le_trans (by norm_num) hlow)
  rw [Int.toNat_natCast]
  have hlength := length_toDigits_of_mem (n := n) (by omega) (by omega)
  have hdigits := digits_toDigits n
  have htake : ∀ k, Decimal.Digits ((Nat.toDigits 10 n).take k) := fun k c hc =>
    hdigits c (List.mem_of_mem_take hc)
  have hdrop : ∀ k, Decimal.Digits ((Nat.toDigits 10 n).drop k) := fun k c hc =>
    hdigits c (List.mem_of_mem_drop hc)
  have hne : ∀ k, (Nat.toDigits 10 n).take (k + 1) ≠ [] := by
    intro k h
    have hnil := congrArg List.length h
    rw [List.length_take, hlength, List.length_nil] at hnil
    omega
  -- each layout is a numeral with the same digits and the point in its place
  suffices hlayout : ∃ (m : Numeral) (whole fraction : List Char) (power : ℤ),
      m.text = (if q < 0 then ['-'] else []) ++ (if -4 ≤ exponent ∧ exponent < 14 then
        fixed (Nat.toDigits 10 n) exponent else scientific (Nat.toDigits 10 n) exponent) ∧
      m.value = ratOf (q < 0) whole fraction power ∧
      Decimal.value (whole ++ fraction) = n ∧ power - fraction.length = exponent - 13 by
    obtain ⟨m, whole, fraction, power, htext, hm, hall, hpower⟩ := hlayout
    refine ⟨m, htext, ?_⟩
    rw [hm, ← hvalue, ratOf, hall, hpower, mul_assoc]
    simp
  by_cases hplain : -4 ≤ exponent ∧ exponent < 14
  · rw [if_pos hplain]
    by_cases hpoint : 0 ≤ exponent
    · refine ⟨_, _, _, _, ?_, plain_value (q < 0) (htake (exponent.toNat + 1)) (hne _)
        (hdrop (exponent.toNat + 1)), ?_, ?_⟩
      · simp [Numeral.text, Numeral.exponentText, plain, fixed, hpoint, stripFraction_eq]
      · rw [List.take_append_drop, value_toDigits]
      · rw [List.length_drop, hlength]
        omega
    · have hdigit : Decimal.Digits ['0'] := by decide
      refine ⟨_, _, _, _, ?_, plain_value (q < 0) hdigit (List.cons_ne_nil _ _)
        (Decimal.digits_append.mpr ⟨Decimal.digits_zeros (-exponent - 1).toNat, hdigits⟩), ?_, ?_⟩
      · simp [Numeral.text, Numeral.exponentText, plain, fixed, hpoint, stripFraction_eq]
      · rw [List.singleton_append, Decimal.value_cons_zero, Decimal.value_append, value_toDigits]
        simp
      · rw [List.length_append, List.length_replicate, hlength]
        omega
  · rw [if_neg hplain]
    refine ⟨_, _, _, _, ?_, withExponent_value (q < 0) (htake 1) (hne 0) (hdrop 1) exponent, ?_, ?_⟩
    · simp [Numeral.text, Numeral.exponentText, withExponent, scientific, stripFraction_eq,
        exponentDigits]
    · rw [List.take_append_drop, value_toDigits]
    · rw [List.length_drop, hlength]
      omega

/-! ## Integers -/

/-- An integer has at most fourteen significant digits. -/
def Short (n : ℤ) : Prop := (10 : ℤ) ^ (Nat.log 10 n.natAbs - 13) ∣ n

instance (n : ℤ) : Decidable (Short n) :=
  inferInstanceAs (Decidable ((10 : ℤ) ^ (Nat.log 10 n.natAbs - 13) ∣ n))

/-- A sign over an integer's magnitude. -/
theorem sign_mul_abs (n : ℤ) : (if (n : ℚ) < 0 then (-1 : ℚ) else 1) * |(n : ℚ)| = n := by
  by_cases hneg : (n : ℚ) < 0
  · rw [if_pos hneg, abs_of_neg hneg]
    ring
  · rw [if_neg hneg, abs_of_nonneg (not_lt.mp hneg), one_mul]

theorem ofRat_intCast {n : ℤ} (hn : |n| < 2 ^ 54) (heven : 2 ^ 53 ≤ |n| → 2 ∣ n) :
    Number.ofRat n = .finite n := by
  have hsize : |(n : ℚ)| < 2 ^ 1024 := by
    have hcast : |(n : ℚ)| < 2 ^ 54 := by
      rw [← Int.cast_abs]
      exact_mod_cast hn
    exact hcast.trans (pow_lt_pow_right₀ (by norm_num) (by norm_num))
  rw [Number.ofRat, Binary64.nearest_intCast hn heven, if_pos hsize]

/-- A rounded number with its sign again. -/
theorem exists_signed (q : ℚ) (m : ℤ) {b : ℤ} (hb : 0 < b) :
    ∃ z : ℤ, (if q < 0 then (-1 : ℚ) else 1) * (m * (b : ℚ)) = z ∧ |z| = |m| * b ∧ b ∣ z := by
  by_cases hneg : q < 0
  · refine ⟨-(m * b), ?_, ?_, (Dvd.intro_left m rfl).neg_right⟩
    · rw [if_pos hneg]
      push_cast
      ring
    · rw [abs_neg, abs_mul, abs_of_pos hb]
  · refine ⟨m * b, ?_, ?_, Dvd.intro_left m rfl⟩
    · rw [if_neg hneg]
      push_cast
      ring
    · rw [abs_mul, abs_of_pos hb]

/-- Rounding to a multiple of `b` adds less than `b` more. -/
theorem toNearestEven_div_bounds (n : ℤ) {b : ℤ} (hb : 0 < b) :
    0 ≤ Binary64.toNearestEven (|(n : ℚ)| / (b : ℚ)) ∧
      Binary64.toNearestEven (|(n : ℚ)| / (b : ℚ)) * b ≤ |n| + b := by
  have hbpos : (0 : ℚ) < (b : ℚ) := Int.cast_pos.mpr hb
  obtain ⟨hfloor, hceil⟩ := Binary64.toNearestEven_mem (|(n : ℚ)| / (b : ℚ))
  have hnonneg : 0 ≤ ⌊|(n : ℚ)| / (b : ℚ)⌋ := Int.floor_nonneg.mpr (by positivity)
  have hle : (⌊|(n : ℚ)| / (b : ℚ)⌋ : ℚ) * (b : ℚ) ≤ |(n : ℚ)| :=
    (le_div_iff₀ hbpos).mp (Int.floor_le _)
  rw [← Int.cast_abs] at hle
  have hcast : ⌊|(n : ℚ)| / (b : ℚ)⌋ * b ≤ |n| := by
    exact_mod_cast hle
  refine ⟨by omega, ?_⟩
  calc Binary64.toNearestEven (|(n : ℚ)| / (b : ℚ)) * b
      ≤ (⌊|(n : ℚ)| / (b : ℚ)⌋ + 1) * b := mul_le_mul_of_nonneg_right hceil hb.le
    _ = ⌊|(n : ℚ)| / (b : ℚ)⌋ * b + b := by ring
    _ ≤ |n| + b := Int.add_le_add_right hcast b

/-- A multiple of `b` is not rounded. -/
theorem toNearestEven_div_of_dvd {n b : ℤ} (hb : 0 < b) (h : b ∣ n) :
    (Binary64.toNearestEven (|(n : ℚ)| / (b : ℚ)) : ℚ) * (b : ℚ) = |(n : ℚ)| := by
  obtain ⟨c, rfl⟩ := h
  have hne : (b : ℚ) ≠ 0 := Int.cast_ne_zero.mpr hb.ne'
  have hint : |((b * c : ℤ) : ℚ)| / (b : ℚ) = ((|c| : ℤ) : ℚ) := by
    rw [Int.cast_mul, abs_mul, abs_of_pos (Int.cast_pos.mpr hb), mul_div_cancel_left₀ _ hne,
      Int.cast_abs]
  rw [hint, Binary64.toNearestEven_intCast, ← hint, div_mul_cancel₀ _ hne]

/-- **An integer of at most 53 bits is read back exactly if it is short.** -/
theorem ofRat_round14_iff {n : ℤ} (hn : |n| ≤ 2 ^ 53) :
    Number.ofRat ((if (n : ℚ) < 0 then -1 else 1) * round14 n) = .finite n ↔ Short n := by
  have hexact : Number.ofRat n = .finite n := by
    refine ofRat_intCast (by omega) fun hle => ?_
    rcases abs_eq (by norm_num : (0 : ℤ) ≤ 2 ^ 53) |>.mp (le_antisymm hn hle) with h | h <;>
      · rw [h]
        decide
  have habs : |(n : ℚ)| = (n.natAbs : ℚ) := by
    rw [← Int.cast_abs, Int.abs_eq_natAbs]
    rfl
  have hlog : Int.log 10 |(n : ℚ)| = Nat.log 10 n.natAbs := by rw [habs, Int.log_natCast]
  unfold Short round14
  rw [hlog]
  by_cases hdigits : Nat.log 10 n.natAbs ≤ 13
  · -- every digit is written
    have hshort : (10 : ℤ) ^ (Nat.log 10 n.natAbs - 13) ∣ n := by
      rw [Nat.sub_eq_zero_of_le hdigits, pow_zero]
      exact one_dvd n
    refine iff_of_true ?_ hshort
    generalize Nat.log 10 n.natAbs = k at hdigits
    have hpow : (10 : ℚ) ^ ((k : ℤ) - 13) = (10 ^ (13 - k))⁻¹ := by
      rw [← zpow_natCast, ← zpow_neg]
      congr 1
      omega
    have hint : |(n : ℚ)| / 10 ^ ((k : ℤ) - 13) = ((n.natAbs * 10 ^ (13 - k) : ℕ) : ℤ) := by
      rw [hpow, habs, div_inv_eq_mul, Int.cast_natCast, Nat.cast_mul, Nat.cast_pow, Nat.cast_ofNat]
    rw [hint, Binary64.toNearestEven_intCast, ← hint,
      div_mul_cancel₀ _ (zpow_ne_zero _ (by norm_num)), sign_mul_abs, hexact]
  · -- the digits from the fifteenth on are rounded away
    obtain ⟨t, ht⟩ : ∃ t, Nat.log 10 n.natAbs = 13 + (t + 1) :=
      ⟨Nat.log 10 n.natAbs - 14, by omega⟩
    have hten : (0 : ℤ) < 10 ^ (t + 1) := by positivity
    have hpow : (10 : ℚ) ^ (((13 + (t + 1) : ℕ) : ℤ) - 13) = ((10 ^ (t + 1) : ℤ) : ℚ) := by
      rw [Nat.cast_add, Nat.cast_ofNat, add_sub_cancel_left, zpow_natCast]
      push_cast
      rfl
    rw [ht, hpow, Nat.add_sub_cancel_left]
    have htsmall : t ≤ 1 := by
      by_contra hnot
      have hle : 10 ^ 16 ≤ n.natAbs := (Nat.pow_le_pow_right (by norm_num) (by omega)).trans
        (Nat.pow_log_le_self 10 (by intro h; rw [h] at ht; simp at ht))
      rw [Int.abs_eq_natAbs] at hn
      omega
    obtain ⟨z, hz, hsize, hdvd⟩ := exists_signed n
      (Binary64.toNearestEven (|(n : ℚ)| / ((10 ^ (t + 1) : ℤ) : ℚ))) hten
    obtain ⟨hnonneg, hle⟩ := toNearestEven_div_bounds n hten
    have hread : Number.ofRat z = .finite z := by
      refine ofRat_intCast ?_ fun _ => ?_
      · rw [hsize, abs_of_nonneg hnonneg]
        have hpow : (10 : ℤ) ^ (t + 1) ≤ 10 ^ 2 := pow_le_pow_right₀ (by norm_num) (by omega)
        omega
      · exact ((show (2 : ℤ) ∣ 10 by decide).trans (dvd_pow_self 10 t.succ_ne_zero)).trans hdvd
    rw [hz, hread, Number.finite.injEq, Int.cast_inj]
    constructor
    · rintro rfl
      exact hdvd
    · intro hmultiple
      rw [toNearestEven_div_of_dvd hten hmultiple, sign_mul_abs] at hz
      exact (Int.cast_injective hz).symm

end Lua
end MppSdk
