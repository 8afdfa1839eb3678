import Mathlib.Data.List.TakeWhile
import Mathlib.Data.Nat.Digits.Lemmas

/-! # Recoding digit strings between radices

A digit string, most significant digit first, denotes a number and also has a count of
leading zeros, which the number forgets.  `recode b c` rewrites a base `b` string in
base `c` and keeps the leading zeros, digit for digit.  Nothing is lost: recoding back
gives the string itself (`recode_recode`), so `recode` is injective on digit strings. -/

namespace Radix
open List

/-- The base `c` string of the number the base `b` string `ds` denotes, behind as many
leading zeros. -/
def recode (b c : ℕ) (ds : List ℕ) : List ℕ :=
  ds.takeWhile (· = 0) ++ (Nat.digits c (Nat.ofDigits b ds.reverse)).reverse

theorem ofDigits_zeros {b : ℕ} {zs : List ℕ} (h : ∀ z ∈ zs, z = 0) : Nat.ofDigits b zs = 0 := by
  induction zs with
  | nil => rfl
  | cons z zs ih => simp_all [Nat.ofDigits_cons]

theorem takeWhile_zeros (ds : List ℕ) : ∀ z ∈ ds.takeWhile (· = 0), z = 0 :=
  fun z hz => by simpa using mem_takeWhile_imp hz

/-- Leading zeros do not change the number. -/
theorem ofDigits_reverse_dropWhile (b : ℕ) (ds : List ℕ) :
    Nat.ofDigits b (ds.dropWhile (· = 0)).reverse = Nat.ofDigits b ds.reverse := by
  have hz : Nat.ofDigits b (ds.takeWhile (· = 0)).reverse = 0 :=
    ofDigits_zeros (fun z hz => takeWhile_zeros ds z (mem_reverse.mp hz))
  calc Nat.ofDigits b (ds.dropWhile (· = 0)).reverse
      = Nat.ofDigits b ((ds.takeWhile (· = 0) ++ ds.dropWhile (· = 0)).reverse) := by
        rw [reverse_append, Nat.ofDigits_append, hz, Nat.mul_zero, Nat.add_zero]
    _ = Nat.ofDigits b ds.reverse := by rw [takeWhile_append_dropWhile]

/-- The digits of a number, most significant first, have no leading zero. -/
theorem takeWhile_reverse_digits (c n : ℕ) :
    ((Nat.digits c n).reverse).takeWhile (· = 0) = [] := by
  rcases h : (Nat.digits c n).reverse with _ | ⟨d, ds⟩
  · rfl
  · have hne : Nat.digits c n ≠ [] := by rintro he; simp [he] at h
    have hn : n ≠ 0 := by rintro rfl; simp at hne
    have hd : d = (Nat.digits c n).getLast hne := by
      rw [getLast_eq_head_reverse]; simp [h]
    simp [hd, Nat.getLast_digit_ne_zero c hn]

theorem takeWhile_recode (b c : ℕ) (ds : List ℕ) :
    (recode b c ds).takeWhile (· = 0) = ds.takeWhile (· = 0) := by
  rw [recode, takeWhile_append_of_pos (by simpa using takeWhile_zeros ds),
    takeWhile_reverse_digits, append_nil]

theorem ofDigits_recode (b c : ℕ) (ds : List ℕ) :
    Nat.ofDigits c (recode b c ds).reverse = Nat.ofDigits b ds.reverse := by
  have hz : Nat.ofDigits c (ds.takeWhile (· = 0)).reverse = 0 :=
    ofDigits_zeros (fun z hz => takeWhile_zeros ds z (mem_reverse.mp hz))
  rw [recode, reverse_append, reverse_reverse, Nat.ofDigits_append, Nat.ofDigits_digits, hz,
    Nat.mul_zero, Nat.add_zero]

theorem lt_of_mem_recode {b c : ℕ} (hc : 1 < c) {ds : List ℕ} :
    ∀ d ∈ recode b c ds, d < c := by
  intro d hd
  rcases mem_append.mp hd with hd | hd
  · rw [takeWhile_zeros ds d hd]; omega
  · exact Nat.digits_lt_base hc (mem_reverse.mp hd)

/-- **Recoding loses nothing.** -/
theorem recode_recode {b c : ℕ} (hb : 1 < b) {ds : List ℕ} (hds : ∀ d ∈ ds, d < b) :
    recode c b (recode b c ds) = ds := by
  have hlast : ∀ h : (ds.dropWhile (· = 0)).reverse ≠ [],
      (ds.dropWhile (· = 0)).reverse.getLast h ≠ 0 := by
    intro h
    rw [getLast_reverse]
    simpa using head_dropWhile_not (p := (· = 0)) (l := ds) (by simpa using h)
  have hdigits : Nat.digits b (Nat.ofDigits b ds.reverse) = (ds.dropWhile (· = 0)).reverse := by
    rw [← ofDigits_reverse_dropWhile]
    refine Nat.digits_ofDigits b hb _ (fun d hd => hds d ?_) hlast
    exact (dropWhile_suffix _).subset (mem_reverse.mp hd)
  rw [recode, takeWhile_recode, ofDigits_recode, hdigits, reverse_reverse,
    takeWhile_append_dropWhile]

/-- A larger radix needs no more digits. -/
theorem length_recode_le {b c : ℕ} (hb : 1 < b) (hbc : b ≤ c) {ds : List ℕ}
    (hds : ∀ d ∈ ds, d < b) : (recode b c ds).length ≤ ds.length := by
  have hlt : Nat.ofDigits b (ds.dropWhile (· = 0)).reverse < c ^ (ds.dropWhile (· = 0)).length := by
    have hdigits : ∀ d ∈ (ds.dropWhile (· = 0)).reverse, d < b := fun d hd =>
      hds d ((dropWhile_suffix _).subset (mem_reverse.mp hd))
    calc Nat.ofDigits b (ds.dropWhile (· = 0)).reverse
        < b ^ (ds.dropWhile (· = 0)).reverse.length := Nat.ofDigits_lt_base_pow_length hb hdigits
      _ ≤ c ^ (ds.dropWhile (· = 0)).length := by
        rw [length_reverse]
        exact Nat.pow_le_pow_left hbc _
  have hdigits : (Nat.digits c (Nat.ofDigits b ds.reverse)).length ≤
      (ds.dropWhile (· = 0)).length := by
    rw [← ofDigits_reverse_dropWhile]
    exact (Nat.digits_length_le_iff (hb.trans_le hbc) _).mpr hlt
  calc (recode b c ds).length
      = (ds.takeWhile (· = 0)).length + (Nat.digits c (Nat.ofDigits b ds.reverse)).length := by
        rw [recode, length_append, length_reverse]
    _ ≤ (ds.takeWhile (· = 0)).length + (ds.dropWhile (· = 0)).length :=
        Nat.add_le_add_left hdigits _
    _ = ds.length := by rw [← length_append, takeWhile_append_dropWhile]

end Radix
