import Mathlib.Algebra.Group.Nat.Defs
import Mathlib.Data.Nat.Basic

/-! # Decimal numerals

Digits are written most significant first, as the characters `'0'` to `'9'`.  A numeral
without leading zeros is the text of its value (`canonical_eq`), so taking the zeros off the
front of a padded numeral is multiplying by a power of ten (`canonical_pad`). -/

namespace Decimal

/-- Every character is a digit. -/
def Digits (cs : List Char) : Prop := ∀ c ∈ cs, c.isDigit = true

instance (cs : List Char) : Decidable (Digits cs) :=
  List.decidableBAll _ cs

/-- The value of digits. -/
abbrev value (cs : List Char) : Nat := Nat.ofDigitChars 10 cs 0

/-- The digits without their leading zeros, or a single zero. -/
def canonical (cs : List Char) : List Char :=
  if cs.dropWhile (· = '0') = [] then ['0'] else cs.dropWhile (· = '0')

variable {cs ds : List Char} {c : Char}

theorem digits_cons : Digits (c :: cs) ↔ c.isDigit ∧ Digits cs := List.forall_mem_cons

theorem digits_append : Digits (cs ++ ds) ↔ Digits cs ∧ Digits ds := List.forall_mem_append

theorem digits_zeros (k : Nat) : Digits (List.replicate k '0') := by
  intro c hc
  rw [List.eq_of_mem_replicate hc]
  rfl

theorem Digits.ne (h : Digits cs) {c : Char} (hc : c.isDigit = false) : ∀ d ∈ cs, d ≠ c := by
  rintro d hd rfl
  rw [h d hd] at hc
  cases hc

/-- A digit is less than ten, and it is the character of its value. -/
theorem digitChar_of_isDigit (h : c.isDigit) :
    c.toNat - '0'.toNat < 10 ∧ Nat.digitChar (c.toNat - '0'.toNat) = c := by
  obtain ⟨hlow, hhigh⟩ : 48 ≤ c.toNat ∧ c.toNat ≤ 57 := Char.isDigit_iff_toNat.mp h
  have hlt : c.toNat - '0'.toNat < 10 := by
    show c.toNat - 48 < 10
    omega
  refine ⟨hlt, Char.toNat_inj.mp ?_⟩
  rw [Nat.toNat_digitChar_of_lt_ten hlt]
  show 48 + (c.toNat - 48) = c.toNat
  omega

/-- Digits that follow a positive number are the rest of its numeral. -/
theorem toDigits_append (h : Digits cs) {n : Nat} (hn : 0 < n) :
    Nat.toDigits 10 n ++ cs = Nat.toDigits 10 (Nat.ofDigitChars 10 cs n) := by
  induction cs generalizing n with
  | nil => simp
  | cons c cs ih =>
    obtain ⟨hc, hcs⟩ := digits_cons.mp h
    obtain ⟨hlt, hchar⟩ := digitChar_of_isDigit hc
    have hnext : Nat.toDigits 10 n ++ [c] = Nat.toDigits 10 (10 * n + (c.toNat - '0'.toNat)) := by
      rw [← Nat.toDigits_append_toDigits (by decide) hn hlt, Nat.toDigits_of_lt_base hlt, hchar]
    rw [Nat.ofDigitChars_cons, ← ih hcs (by omega), ← hnext, List.append_assoc,
      List.singleton_append]

theorem value_cons_zero : value ('0' :: cs) = value cs := by
  rw [value, Nat.ofDigitChars_cons, Nat.mul_zero, Nat.zero_add, Nat.sub_self]

theorem Digits.dropWhile (h : Digits cs) (p : Char → Bool) : Digits (cs.dropWhile p) :=
  fun c hc => h c ((List.dropWhile_suffix p).subset hc)

theorem value_dropWhile (cs : List Char) : value (cs.dropWhile (· = '0')) = value cs := by
  induction cs with
  | nil => rfl
  | cons c cs ih =>
    by_cases hzero : c = '0'
    · subst hzero
      exact ih.trans value_cons_zero.symm
    · rw [List.dropWhile_cons_of_neg (by simpa using hzero)]

/-- **A numeral without leading zeros is the text of its value.** -/
theorem canonical_eq (h : Digits cs) : canonical cs = Nat.toDigits 10 (value cs) := by
  induction cs with
  | nil => rfl
  | cons c cs ih =>
    obtain ⟨hc, hcs⟩ := digits_cons.mp h
    by_cases hzero : c = '0'
    · subst hzero
      rw [value_cons_zero, ← ih hcs]
      rfl
    · obtain ⟨hlt, hchar⟩ := digitChar_of_isDigit hc
      have hpos : 0 < c.toNat - '0'.toNat := by
        by_contra hnot
        have hval : c.toNat - '0'.toNat = 0 := by omega
        rw [hval] at hchar
        exact hzero hchar.symm
      have hdrop : (c :: cs).dropWhile (· = '0') = c :: cs := by
        rw [List.dropWhile_cons_of_neg (by simpa using hzero)]
      rw [canonical, hdrop, if_neg (List.cons_ne_nil _ _), value, Nat.ofDigitChars_cons,
        Nat.mul_zero, Nat.zero_add, ← toDigits_append hcs hpos, Nat.toDigits_of_lt_base hlt, hchar]
      rfl

theorem value_append : value (cs ++ ds) = value cs * 10 ^ ds.length + value ds := by
  rw [value, Nat.ofDigitChars_append, Nat.ofDigitChars_eq_ofDigitChars_zero, Nat.mul_comm]

/-- Zeros at the end multiply by powers of ten. -/
theorem value_pad (cs : List Char) (k : Nat) :
    value (cs ++ List.replicate k '0') = value cs * 10 ^ k := by
  rw [value, Nat.ofDigitChars_append, Nat.ofDigitChars_replicate_zero, Nat.mul_comm]

end Decimal
