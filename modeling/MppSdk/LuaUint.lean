import MppSdk.ParseUnits

/-! # Unsigned integers as decimal text

`util/uint.lua` compares, adds and subtracts unsigned integers of any size digit by digit, on
their texts without leading zeros.  On texts of digits each operation is the one of the natural
numbers they denote. -/

namespace MppSdk
namespace Lua
namespace Uint

/-- `tonumber` of a digit. -/
def digit (c : Char) : Nat := c.toNat - '0'.toNat

/-- `normalize`. -/
def normalize (value : String) : Result (List Char) :=
  if allDigits value.toList then .ok (Decimal.canonical value.toList)
  else .error s!"invalid unsigned integer: {value}"

/-- `compare`. -/
def compare (left right : String) : Result Int := do
  let left ← normalize left
  let right ← normalize right
  if left.length < right.length then return -1
  else if left.length > right.length then return 1
  else if left < right then return -1
  else if right < left then return 1
  else return 0

/-- The loop of `add` once the left digits are used up; the last digit comes first. -/
def carryLoop : List Char → Nat → List Char
  | [], carry => if 0 < carry then [Nat.digitChar (carry % 10)] else []
  | b :: right, carry =>
      let sum := digit b + carry
      Nat.digitChar (sum % 10) :: carryLoop right (sum / 10)

/-- The loop of `add`, with the last digits first. -/
def addLoop : List Char → List Char → Nat → List Char
  | [], right, carry => carryLoop right carry
  | a :: left, [], carry =>
      let sum := digit a + carry
      Nat.digitChar (sum % 10) :: addLoop left [] (sum / 10)
  | a :: left, b :: right, carry =>
      let sum := digit a + digit b + carry
      Nat.digitChar (sum % 10) :: addLoop left right (sum / 10)

/-- `add`. -/
def add (left right : String) : Result String := do
  let left ← normalize left
  let right ← normalize right
  return String.ofList (addLoop left.reverse right.reverse 0).reverse

/-- The loop of `sub`, with the last digits first. -/
def subLoop : List Char → List Char → Nat → List Char
  | [], _, _ => []
  | a :: left, right, borrow =>
      let b := right.head?.elim 0 digit
      if digit a < b + borrow then
        Nat.digitChar (digit a + 10 - (b + borrow)) :: subLoop left right.tail 1
      else
        Nat.digitChar (digit a - (b + borrow)) :: subLoop left right.tail 0

/-- `sub`. -/
def sub (left right : String) : Result String := do
  let left ← normalize left
  let right ← normalize right
  let order ← compare (String.ofList left) (String.ofList right)
  if order < 0 then throw "unsigned subtraction underflow"
  return String.ofList (Decimal.canonical (subLoop left.reverse right.reverse 0).reverse)

/-! ## Digits with the last one first -/

/-- The value of digits whose last one comes first. -/
def lastFirst : List Char → Nat
  | [] => 0
  | c :: cs => digit c + 10 * lastFirst cs

theorem lastFirst_cons (c : Char) (cs : List Char) :
    lastFirst (c :: cs) = digit c + 10 * lastFirst cs := rfl

theorem value_reverse (cs : List Char) : Decimal.value cs.reverse = lastFirst cs := by
  induction cs with
  | nil => rfl
  | cons c cs ih =>
    have hone : Decimal.value [c] = digit c := by
      rw [Decimal.value, Nat.ofDigitChars_cons, Nat.ofDigitChars_nil]
      simp [digit]
    rw [List.reverse_cons, Decimal.value_append, ih, hone, lastFirst, List.length_singleton,
      pow_one]
    omega

theorem value_eq (cs : List Char) : Decimal.value cs = lastFirst cs.reverse := by
  rw [← value_reverse, List.reverse_reverse]

theorem digit_lt {c : Char} (h : c.isDigit) : digit c < 10 := (Decimal.digitChar_of_isDigit h).1

theorem digit_digitChar {n : Nat} (h : n < 10) : digit (Nat.digitChar n) = n := by
  rw [digit, Nat.toNat_digitChar_of_lt_ten h]
  show 48 + n - 48 = n
  omega

theorem isDigit_digitChar {n : Nat} (h : n < 10) : (Nat.digitChar n).isDigit := by
  rw [Nat.isDigit_digitChar, decide_eq_true h]

theorem lastFirst_lt {cs : List Char} (h : Decimal.Digits cs) : lastFirst cs < 10 ^ cs.length := by
  induction cs with
  | nil => exact Nat.one_pos
  | cons c cs ih =>
    obtain ⟨hc, hcs⟩ := Decimal.digits_cons.mp h
    have hdigit := digit_lt hc
    have ih := ih hcs
    rw [lastFirst, List.length_cons, Nat.pow_succ]
    omega

/-- The value of digits is below the power of their number. -/
theorem value_lt {cs : List Char} (h : Decimal.Digits cs) : Decimal.value cs < 10 ^ cs.length := by
  rw [value_eq, ← List.length_reverse]
  exact lastFirst_lt fun c hc => h c (List.mem_reverse.mp hc)

/-! ## Comparison -/

theorem normalize_eq {value : String} (h : allDigits value.toList) :
    normalize value = .ok (Decimal.canonical value.toList) := if_pos h

theorem allDigits_of_normalize {value : String} {cs : List Char}
    (h : normalize value = .ok cs) : allDigits value.toList := by
  by_cases hdigits : allDigits value.toList
  · exact hdigits
  · rw [normalize, if_neg hdigits] at h
    cases h

theorem allDigits_iff {cs : List Char} : allDigits cs = true ↔ cs ≠ [] ∧ Decimal.Digits cs := by
  simp [allDigits, Decimal.Digits]

theorem digits_canonical {cs : List Char} (h : Decimal.Digits cs) :
    Decimal.Digits (Decimal.canonical cs) := by
  unfold Decimal.canonical
  split
  · decide
  · exact h.dropWhile _

theorem value_canonical (cs : List Char) :
    Decimal.value (Decimal.canonical cs) = Decimal.value cs := by
  have hvalue := Decimal.value_dropWhile cs
  unfold Decimal.canonical
  split
  · next hnil =>
    rw [← hvalue, hnil]
    rfl
  · exact hvalue

theorem canonical_ne_nil (cs : List Char) : Decimal.canonical cs ≠ [] := by
  unfold Decimal.canonical
  split
  · exact List.cons_ne_nil _ _
  · assumption

/-- Among canonical texts the longer one is the greater number. -/
theorem value_lt_of_length_lt {cs ds : List Char} (hcs : Decimal.Digits cs)
    (hds : Decimal.Digits ds)
    (h : (Decimal.canonical cs).length < (Decimal.canonical ds).length) :
    Decimal.value cs < Decimal.value ds := by
  have hpos : 0 < (Decimal.canonical cs).length := List.length_pos_of_ne_nil (canonical_ne_nil cs)
  have hsmall := value_lt (digits_canonical hcs)
  rw [value_canonical] at hsmall
  refine lt_of_lt_of_le hsmall ?_
  rw [Decimal.canonical_eq hds] at h
  exact Nat.not_lt.mp fun hlt =>
    absurd ((Nat.length_toDigits_le_iff (by decide) hpos).mpr hlt) (Nat.not_le.mpr h)

/-- Among digits of one length the order of the texts is that of the numbers. -/
theorem lt_iff_value_lt {cs ds : List Char} (hcs : Decimal.Digits cs) (hds : Decimal.Digits ds)
    (h : cs.length = ds.length) : cs < ds ↔ Decimal.value cs < Decimal.value ds := by
  induction cs generalizing ds with
  | nil =>
    obtain rfl := List.length_eq_zero_iff.mp h.symm
    simp
  | cons c cs ih =>
    rcases ds with _ | ⟨d, ds⟩
    · cases h
    obtain ⟨hc, hcs⟩ := Decimal.digits_cons.mp hcs
    obtain ⟨hd, hds⟩ := Decimal.digits_cons.mp hds
    have hlength : cs.length = ds.length := Nat.succ.inj h
    have hfront : ∀ (a : Char) (as : List Char), Decimal.value (a :: as) =
        digit a * 10 ^ as.length + Decimal.value as := by
      intro a as
      rw [← List.singleton_append, Decimal.value_append]
      congr 2
      rw [Decimal.value, Nat.ofDigitChars_cons, Nat.ofDigitChars_nil]
      simp [digit]
    have hcsmall := value_lt hcs
    have hdsmall := value_lt hds
    have horder : ∀ {a b : Char}, a.isDigit → b.isDigit → (a < b ↔ digit a < digit b) := by
      intro a b ha hb
      have haa : 48 ≤ a.toNat := (Char.isDigit_iff_toNat.mp ha).1
      have hbb : 48 ≤ b.toNat := (Char.isDigit_iff_toNat.mp hb).1
      rw [show a < b ↔ a.toNat < b.toNat from Iff.rfl]
      show _ ↔ a.toNat - 48 < b.toNat - 48
      omega
    rw [List.cons_lt_cons_iff, ih hcs hds hlength, hfront, hfront, ← hlength]
    rw [← hlength] at hdsmall
    -- the first digit decides unless it is the same
    rcases Nat.lt_trichotomy (digit c) (digit d) with hlt | heq | hgt
    · have hmul : (digit c + 1) * 10 ^ cs.length ≤ digit d * 10 ^ cs.length :=
        Nat.mul_le_mul_right _ hlt
      rw [Nat.succ_mul] at hmul
      exact ⟨fun _ => by omega, fun _ => Or.inl ((horder hc hd).mpr hlt)⟩
    · have hsame : c = d := by
        rw [← (Decimal.digitChar_of_isDigit hc).2, ← (Decimal.digitChar_of_isDigit hd).2]
        exact congrArg Nat.digitChar heq
      subst hsame
      simp
    · have hmul : (digit d + 1) * 10 ^ cs.length ≤ digit c * 10 ^ cs.length :=
        Nat.mul_le_mul_right _ hgt
      rw [Nat.succ_mul] at hmul
      have hnot : ¬ c < d := fun h => absurd ((horder hc hd).mp h) (by omega)
      have hne : c ≠ d := by
        rintro rfl
        exact Nat.lt_irrefl _ hgt
      simp only [hnot, hne, false_and, or_self, false_iff]
      omega

/-- **Comparison** of unsigned integers. -/
theorem compare_eq {left right : String} (hleft : allDigits left.toList)
    (hright : allDigits right.toList) :
    compare left right = .ok (if Decimal.value left.toList < Decimal.value right.toList then -1
      else if Decimal.value right.toList < Decimal.value left.toList then 1 else 0) := by
  obtain ⟨-, hl⟩ := allDigits_iff.mp hleft
  obtain ⟨-, hr⟩ := allDigits_iff.mp hright
  simp only [compare, normalize_eq hleft, normalize_eq hright, Bind.bind, Except.bind]
  by_cases hshort : (Decimal.canonical left.toList).length < (Decimal.canonical right.toList).length
  · rw [if_pos hshort, if_pos (value_lt_of_length_lt hl hr hshort)]
    rfl
  by_cases hlong : (Decimal.canonical right.toList).length < (Decimal.canonical left.toList).length
  · have hgreater := value_lt_of_length_lt hr hl hlong
    rw [if_neg hshort, if_pos hlong, if_neg (Nat.lt_asymm hgreater), if_pos hgreater]
    rfl
  have hlength :
      (Decimal.canonical left.toList).length = (Decimal.canonical right.toList).length := by
    omega
  rw [if_neg hshort, if_neg hlong]
  simp only [lt_iff_value_lt (digits_canonical hl) (digits_canonical hr) hlength,
    lt_iff_value_lt (digits_canonical hr) (digits_canonical hl) hlength.symm, value_canonical]
  split
  · rfl
  · split <;> rfl

/-! ## Sums and differences -/

/-- The digit that is written and the carry. -/
theorem digitChar_mod (n : Nat) : digit (Nat.digitChar (n % 10)) + 10 * (n / 10) = n ∧
    (Nat.digitChar (n % 10)).isDigit := by
  have hlt : n % 10 < 10 := Nat.mod_lt _ (by decide)
  rw [digit_digitChar hlt]
  exact ⟨Nat.mod_add_div n 10, isDigit_digitChar hlt⟩

theorem carryLoop_spec {right : List Char} (h : Decimal.Digits right) : ∀ {carry}, carry ≤ 1 →
    lastFirst (carryLoop right carry) = lastFirst right + carry ∧
      Decimal.Digits (carryLoop right carry) := by
  induction right with
  | nil =>
    intro carry hcarry
    by_cases hzero : carry = 0
    · subst hzero
      exact ⟨rfl, fun c hc => (nomatch hc)⟩
    · obtain rfl : carry = 1 := by omega
      decide
  | cons b right ih =>
    intro carry hcarry
    obtain ⟨hb, hright⟩ := Decimal.digits_cons.mp h
    have hlt := digit_lt hb
    obtain ⟨hsum, hdigit⟩ := digitChar_mod (digit b + carry)
    obtain ⟨hrest, hdigits⟩ := ih hright (show (digit b + carry) / 10 ≤ 1 by omega)
    rw [carryLoop, lastFirst, lastFirst, hrest]
    exact ⟨by omega, Decimal.digits_cons.mpr ⟨hdigit, hdigits⟩⟩

theorem addLoop_spec {left : List Char} (hl : Decimal.Digits left) :
    ∀ {right carry}, Decimal.Digits right → carry ≤ 1 →
      lastFirst (addLoop left right carry) = lastFirst left + lastFirst right + carry ∧
        Decimal.Digits (addLoop left right carry) := by
  induction left with
  | nil =>
    intro right carry hr hcarry
    obtain ⟨hvalue, hdigits⟩ := carryLoop_spec hr hcarry
    rw [addLoop, hvalue, lastFirst]
    exact ⟨by omega, hdigits⟩
  | cons a left ih =>
    intro right carry hr hcarry
    obtain ⟨ha, hleft⟩ := Decimal.digits_cons.mp hl
    have halt := digit_lt ha
    rcases right with _ | ⟨b, right⟩
    · obtain ⟨hsum, hdigit⟩ := digitChar_mod (digit a + carry)
      obtain ⟨hrest, hdigits⟩ := ih hleft hr (show (digit a + carry) / 10 ≤ 1 by omega)
      have hnil : lastFirst [] = 0 := rfl
      rw [addLoop, lastFirst_cons, lastFirst_cons, hrest]
      exact ⟨by omega, Decimal.digits_cons.mpr ⟨hdigit, hdigits⟩⟩
    · obtain ⟨hb, hright⟩ := Decimal.digits_cons.mp hr
      have hblt := digit_lt hb
      obtain ⟨hsum, hdigit⟩ := digitChar_mod (digit a + digit b + carry)
      obtain ⟨hrest, hdigits⟩ :=
        ih hleft hright (show (digit a + digit b + carry) / 10 ≤ 1 by omega)
      rw [addLoop, lastFirst, lastFirst, lastFirst, hrest]
      exact ⟨by omega, Decimal.digits_cons.mpr ⟨hdigit, hdigits⟩⟩

theorem digits_reverse {cs : List Char} (h : Decimal.Digits cs) : Decimal.Digits cs.reverse :=
  fun c hc => h c (List.mem_reverse.mp hc)

theorem subLoop_spec {left : List Char} (hl : Decimal.Digits left) :
    ∀ {right borrow}, Decimal.Digits right → borrow ≤ 1 →
      lastFirst right + borrow ≤ lastFirst left →
      lastFirst (subLoop left right borrow) + lastFirst right + borrow = lastFirst left ∧
        Decimal.Digits (subLoop left right borrow) := by
  induction left with
  | nil =>
    intro right borrow _ _ hle
    rw [lastFirst] at hle
    rw [subLoop, lastFirst]
    exact ⟨by omega, fun c hc => (nomatch hc)⟩
  | cons a left ih =>
    intro right borrow hr hborrow hle
    obtain ⟨ha, hleft⟩ := Decimal.digits_cons.mp hl
    have halt := digit_lt ha
    -- the digit that is taken away, and the digits after it
    obtain ⟨hb, hrest, hsplit⟩ : right.head?.elim 0 digit < 10 ∧ Decimal.Digits right.tail ∧
        lastFirst right = right.head?.elim 0 digit + 10 * lastFirst right.tail := by
      rcases right with _ | ⟨b, right⟩
      · exact ⟨by decide, fun c hc => (nomatch hc), rfl⟩
      · obtain ⟨hb, hright⟩ := Decimal.digits_cons.mp hr
        exact ⟨digit_lt hb, hright, rfl⟩
    rw [lastFirst] at hle
    rw [subLoop, hsplit]
    generalize right.head?.elim 0 digit = b at hb hsplit ⊢
    by_cases hless : digit a < b + borrow
    · obtain ⟨hvalue, hdigits⟩ := ih hleft hrest (Nat.le_refl 1) (by omega)
      have hdigit : digit a + 10 - (b + borrow) < 10 := by omega
      simp only [if_pos hless]
      rw [lastFirst, lastFirst, digit_digitChar hdigit]
      exact ⟨by omega, Decimal.digits_cons.mpr ⟨isDigit_digitChar hdigit, hdigits⟩⟩
    · obtain ⟨hvalue, hdigits⟩ := ih hleft hrest (Nat.zero_le 1) (by omega)
      have hdigit : digit a - (b + borrow) < 10 := by omega
      simp only [if_neg hless]
      rw [lastFirst, lastFirst, digit_digitChar hdigit]
      exact ⟨by omega, Decimal.digits_cons.mpr ⟨isDigit_digitChar hdigit, hdigits⟩⟩

/-! ## Results without leading zeros -/

/-- The digits are a single one, or the number is as long as they are. -/
def Tight (cs : List Char) : Prop :=
  cs.length = 1 ∨ 10 ^ (cs.length - 1) ≤ Decimal.value cs

/-- The digits of a numeral without leading zeros are tight. -/
theorem tight_canonical {cs : List Char} (h : Decimal.Digits cs) :
    Tight (Decimal.canonical cs) := by
  have hlength : 0 < (Decimal.canonical cs).length :=
    List.length_pos_of_ne_nil (canonical_ne_nil cs)
  by_cases hone : (Decimal.canonical cs).length = 1
  · exact Or.inl hone
  · refine Or.inr (Nat.not_lt.mp fun hlt => ?_)
    rw [value_canonical] at hlt
    have hle := (Nat.length_toDigits_le_iff (by decide) (by omega)).mpr hlt
    rw [← Decimal.canonical_eq h] at hle
    omega

/-- Tight digits have no leading zeros. -/
theorem canonical_of_tight {cs : List Char} (h : Decimal.Digits cs) (hne : cs ≠ [])
    (htight : Tight cs) : Decimal.canonical cs = cs := by
  rcases cs with _ | ⟨c, cs⟩
  · exact absurd rfl hne
  · by_cases hzero : c = '0'
    · subst hzero
      rcases htight with hone | hle
      · obtain rfl := List.length_eq_zero_iff.mp (Nat.succ.inj hone)
        rfl
      · -- a leading zero leaves the number to the digits after it
        have hlt := value_lt (Decimal.digits_cons.mp h).2
        rw [Decimal.value_cons_zero, List.length_cons, Nat.add_sub_cancel] at hle
        omega
    · have hdrop : (c :: cs).dropWhile (· = '0') = c :: cs := by
        rw [List.dropWhile_cons_of_neg (by simpa using hzero)]
      rw [Decimal.canonical, hdrop, if_neg (List.cons_ne_nil _ _)]

/-- The loop writes one digit for each digit of its text, and one more for a carry out of it. -/
theorem length_carryLoop {right : List Char} : ∀ {carry}, carry ≤ 1 → Decimal.Digits right →
    (carryLoop right carry).length = right.length ∨
      (carryLoop right carry).length = right.length + 1 ∧
        10 ^ right.length ≤ lastFirst right + carry := by
  induction right with
  | nil =>
    intro carry hcarry _
    by_cases hzero : carry = 0
    · subst hzero
      exact Or.inl rfl
    · obtain rfl : carry = 1 := by omega
      exact Or.inr ⟨rfl, Nat.le_refl 1⟩
  | cons b right ih =>
    intro carry hcarry h
    obtain ⟨hb, hright⟩ := Decimal.digits_cons.mp h
    have hlt := digit_lt hb
    have hrest := ih (show (digit b + carry) / 10 ≤ 1 by omega) hright
    rw [carryLoop, List.length_cons, List.length_cons, lastFirst, Nat.pow_succ]
    omega

/-- The loop writes one digit for each digit of the longer text, and one more for a carry. -/
theorem length_addLoop {left : List Char} (hl : Decimal.Digits left) :
    ∀ {right carry}, Decimal.Digits right → carry ≤ 1 →
      (addLoop left right carry).length = max left.length right.length ∨
        (addLoop left right carry).length = max left.length right.length + 1 ∧
          10 ^ max left.length right.length ≤ lastFirst left + lastFirst right + carry := by
  induction left with
  | nil =>
    intro right carry hr hcarry
    have hloop := length_carryLoop hcarry hr
    rw [addLoop, List.length_nil, Nat.zero_max, lastFirst]
    omega
  | cons a left ih =>
    intro right carry hr hcarry
    obtain ⟨ha, hleft⟩ := Decimal.digits_cons.mp hl
    have halt := digit_lt ha
    rcases right with _ | ⟨b, right⟩
    · have hrest := ih hleft hr (show (digit a + carry) / 10 ≤ 1 by omega)
      have hnil : lastFirst [] = 0 := rfl
      rw [List.length_nil, Nat.max_zero] at hrest
      rw [addLoop, List.length_cons, List.length_cons, List.length_nil, Nat.max_zero,
        lastFirst_cons, Nat.pow_succ]
      omega
    · obtain ⟨hb, hright⟩ := Decimal.digits_cons.mp hr
      have hblt := digit_lt hb
      have hrest := ih hleft hright (show (digit a + digit b + carry) / 10 ≤ 1 by omega)
      rw [addLoop, List.length_cons, List.length_cons, List.length_cons, Nat.succ_max_succ,
        lastFirst, lastFirst, Nat.pow_succ]
      omega

/-- A text without leading zeros is the text of its number. -/
theorem ofList_canonical {cs : List Char} (h : Decimal.Digits cs) :
    String.ofList (Decimal.canonical cs) = toString (Decimal.value cs) := by
  rw [Decimal.canonical_eq h, Nat.toString_eq_ofList_toDigits]

/-- The digits of a sum, with the last one first. -/
abbrev sumDigits (left right : List Char) : List Char :=
  addLoop (Decimal.canonical left).reverse (Decimal.canonical right).reverse 0

theorem sumDigits_spec {left right : List Char} (hl : Decimal.Digits left)
    (hr : Decimal.Digits right) : Decimal.Digits (sumDigits left right) ∧
      lastFirst (sumDigits left right) = Decimal.value left + Decimal.value right := by
  obtain ⟨hvalue, hdigits⟩ := addLoop_spec (digits_reverse (digits_canonical hl))
    (digits_reverse (digits_canonical hr)) (Nat.zero_le 1)
  rw [← value_eq, ← value_eq, value_canonical, value_canonical, Nat.add_zero] at hvalue
  exact ⟨hdigits, hvalue⟩

/-- **A sum of numerals without leading zeros has none.** -/
theorem tight_sumDigits {left right : List Char} (hl : Decimal.Digits left)
    (hr : Decimal.Digits right) : Tight (sumDigits left right).reverse := by
  have hvalue := (sumDigits_spec hl hr).2
  have hlength := length_addLoop (digits_reverse (digits_canonical hl))
    (digits_reverse (digits_canonical hr)) (Nat.zero_le 1)
  rw [← value_eq, ← value_eq, List.length_reverse, List.length_reverse] at hlength
  have htightl := tight_canonical hl
  have htightr := tight_canonical hr
  rw [Tight, value_canonical] at htightl htightr
  rw [value_canonical, value_canonical] at hlength
  rw [Tight, List.length_reverse, value_reverse, hvalue]
  rcases hlength with hmax | ⟨hmax, hcarry⟩
  · -- as long as the longer text, whose own number is that long
    rcases Nat.le_total (Decimal.canonical left).length (Decimal.canonical right).length with
      hle | hle
    · rw [hmax, Nat.max_eq_right hle]
      exact htightr.imp id fun h => by omega
    · rw [hmax, Nat.max_eq_left hle]
      exact htightl.imp id fun h => by omega
  · rw [hmax, Nat.add_sub_cancel]
    exact Or.inr hcarry

theorem sumDigits_ne_nil (left right : List Char) : sumDigits left right ≠ [] := by
  obtain ⟨a, rest, ha⟩ := List.exists_cons_of_ne_nil
    (List.reverse_ne_nil_iff.mpr (canonical_ne_nil left))
  rw [sumDigits, ha]
  rcases (Decimal.canonical right).reverse with _ | ⟨b, right⟩
  · exact List.cons_ne_nil _ _
  · exact List.cons_ne_nil _ _

/-- **The sum** is written without leading zeros. -/
theorem add_exact {left right : String} (hleft : allDigits left.toList)
    (hright : allDigits right.toList) : add left right =
      .ok (toString (Decimal.value left.toList + Decimal.value right.toList)) := by
  obtain ⟨-, hl⟩ := allDigits_iff.mp hleft
  obtain ⟨-, hr⟩ := allDigits_iff.mp hright
  obtain ⟨hdigits, hvalue⟩ := sumDigits_spec hl hr
  have hne := List.reverse_ne_nil_iff.mpr (sumDigits_ne_nil left.toList right.toList)
  have hcanonical := canonical_of_tight (digits_reverse hdigits) hne (tight_sumDigits hl hr)
  have htext := ofList_canonical (digits_reverse hdigits)
  rw [hcanonical, value_reverse, hvalue] at htext
  rw [add, normalize_eq hleft, normalize_eq hright, ← htext]
  rfl

/-- **The difference** is written without leading zeros, and a greater number is not taken from
a smaller one. -/
theorem sub_exact {left right : String} (hleft : allDigits left.toList)
    (hright : allDigits right.toList) : sub left right =
      if Decimal.value right.toList ≤ Decimal.value left.toList then
        .ok (toString (Decimal.value left.toList - Decimal.value right.toList))
      else .error "unsigned subtraction underflow" := by
  obtain ⟨-, hl⟩ := allDigits_iff.mp hleft
  obtain ⟨-, hr⟩ := allDigits_iff.mp hright
  have hcanonical : ∀ s : String, Decimal.Digits s.toList →
      allDigits (String.ofList (Decimal.canonical s.toList)).toList := by
    intro s hs
    rw [String.toList_ofList, allDigits_iff]
    exact ⟨canonical_ne_nil _, digits_canonical hs⟩
  have horder := compare_eq (hcanonical left hl) (hcanonical right hr)
  simp only [String.toList_ofList, value_canonical] at horder
  simp only [sub, normalize_eq hleft, normalize_eq hright, horder, Bind.bind, Except.bind]
  by_cases hle : Decimal.value right.toList ≤ Decimal.value left.toList
  · have hle' : lastFirst (Decimal.canonical right.toList).reverse + 0 ≤
        lastFirst (Decimal.canonical left.toList).reverse := by
      rw [← value_eq, ← value_eq, value_canonical, value_canonical, Nat.add_zero]
      exact hle
    obtain ⟨hvalue, hdigits⟩ := subLoop_spec (digits_reverse (digits_canonical hl))
      (digits_reverse (digits_canonical hr)) (Nat.zero_le 1) hle'
    rw [← value_eq, ← value_eq, value_canonical, value_canonical] at hvalue
    have hdifference : lastFirst (subLoop (Decimal.canonical left.toList).reverse
        (Decimal.canonical right.toList).reverse 0) =
          Decimal.value left.toList - Decimal.value right.toList := by
      omega
    rw [if_neg (Nat.not_lt.mpr hle), if_pos hle, ofList_canonical (digits_reverse hdigits),
      value_reverse, hdifference]
    split <;> rfl
  · rw [if_pos (Nat.not_le.mp hle), if_neg hle]
    rfl

/-- A computation that goes on had a first result. -/
theorem of_bind_eq_ok {α β : Type} {x : Result α} {f : α → Result β} {b : β}
    (h : (x >>= f) = .ok b) : ∃ a, x = .ok a ∧ f a = .ok b := by
  cases x with
  | error message => cases h
  | ok a => exact ⟨a, rfl, h⟩

/-- Only digits are added. -/
theorem allDigits_of_add {left right sum : String} (h : add left right = .ok sum) :
    allDigits left.toList ∧ allDigits right.toList := by
  obtain ⟨l, hl, h⟩ := of_bind_eq_ok h
  obtain ⟨r, hr, -⟩ := of_bind_eq_ok h
  exact ⟨allDigits_of_normalize hl, allDigits_of_normalize hr⟩

/-- Only digits are compared. -/
theorem allDigits_of_compare {left right : String} {order : Int}
    (h : compare left right = .ok order) : allDigits left.toList ∧ allDigits right.toList := by
  obtain ⟨l, hl, h⟩ := of_bind_eq_ok h
  obtain ⟨r, hr, -⟩ := of_bind_eq_ok h
  exact ⟨allDigits_of_normalize hl, allDigits_of_normalize hr⟩

/-! ## The numbers of the results -/

theorem allDigits_toString (n : Nat) : allDigits (toString n).toList := by
  rw [Nat.toString_eq_ofList_toDigits, String.toList_ofList, allDigits_iff]
  exact ⟨List.ne_nil_of_length_pos Nat.length_toDigits_pos,
    fun _ hc => Nat.isDigit_of_mem_toDigits (by decide) (by decide) hc⟩

theorem value_toString (n : Nat) : Decimal.value (toString n).toList = n := by
  rw [Nat.toString_eq_ofList_toDigits, String.toList_ofList]
  exact Nat.ofDigitChars_toDigits (by decide) (by decide)

/-- **Addition** of unsigned integers. -/
theorem add_eq {left right : String} (hleft : allDigits left.toList)
    (hright : allDigits right.toList) : ∃ sum : String, add left right = .ok sum ∧
      allDigits sum.toList ∧
      Decimal.value sum.toList = Decimal.value left.toList + Decimal.value right.toList :=
  ⟨_, add_exact hleft hright, allDigits_toString _, value_toString _⟩

/-- **Subtraction** of unsigned integers, the smaller one from the greater. -/
theorem sub_eq {left right : String} (hleft : allDigits left.toList)
    (hright : allDigits right.toList)
    (hle : Decimal.value right.toList ≤ Decimal.value left.toList) :
    ∃ difference : String, sub left right = .ok difference ∧ allDigits difference.toList ∧
      Decimal.value difference.toList =
        Decimal.value left.toList - Decimal.value right.toList :=
  ⟨_, (sub_exact hleft hright).trans (if_pos hle), allDigits_toString _, value_toString _⟩

end Uint
end Lua
end MppSdk
