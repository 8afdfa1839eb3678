import Mathlib.Data.List.Basic
import Mathlib.Data.List.TakeWhile
import Mathlib.Data.UInt

/-! # What the Rust code takes from its language

Results that are errors or panics, the early exits of the `?` operator, trimming, integer
parsing, `Vec::push` and little-endian bytes, with the lemmas that read a successful
computation backwards. -/

namespace MppSdk

/-- How a Rust computation fails: it returns an error, or it panics. -/
inductive Failure (ε : Type) : Type
  | error (e : ε)
  | panic (message : String)
deriving DecidableEq, Repr

/-- The result of a Rust function that returns `Result<α, ε>`. -/
abbrev RustResult (ε α : Type) : Type := Except (Failure ε) α

/-- `if c { return Err(e) }`. -/
def rejectIf {ε : Type} (c : Prop) [Decidable c] (e : ε) : RustResult ε Unit :=
  if c then .error (.error e) else .ok ()

/-- `Option::ok_or_else`. -/
def okOrElse {ε α : Type} (o : Option α) (e : ε) : RustResult ε α :=
  match o with
  | some a => .ok a
  | none => .error (.error e)

/-- `Result::map_err`; a panic goes through. -/
def mapErr {ε ε' α : Type} (f : ε → ε') : RustResult ε α → RustResult ε' α
  | .ok a => .ok a
  | .error (.error e) => .error (.error (f e))
  | .error (.panic m) => .error (.panic m)

section Inversion
variable {ε α β : Type}

theorem bind_eq_ok {x : RustResult ε α} {f : α → RustResult ε β} {b : β} :
    (x >>= f) = .ok b ↔ ∃ a, x = .ok a ∧ f a = .ok b := by
  cases x <;> simp [bind, Except.bind]

theorem ok_bind {a : α} {f : α → RustResult ε β} : ((.ok a : RustResult ε α) >>= f) = f a := rfl

@[simp] theorem rejectIf_eq_ok {c : Prop} [Decidable c] {e : ε} {u : Unit} :
    rejectIf c e = .ok u ↔ ¬ c := by
  unfold rejectIf
  split <;> simp_all

@[simp] theorem okOrElse_eq_ok {o : Option α} {e : ε} {a : α} :
    okOrElse o e = .ok a ↔ o = some a := by
  cases o <;> simp [okOrElse]

@[simp] theorem mapErr_eq_ok {ε' : Type} {f : ε → ε'} {x : RustResult ε α} {a : α} :
    mapErr f x = .ok a ↔ x = .ok a := by
  rcases x with (e | m) | b <;> simp [mapErr]

theorem toOption_eq_some {x : RustResult ε α} {a : α} : x.toOption = some a ↔ x = .ok a := by
  cases x <;> simp [Except.toOption]

theorem rejectIf_pos {c : Prop} [Decidable c] {e : ε} (h : c) :
    rejectIf c e = .error (.error e) := if_pos h

theorem rejectIf_neg {c : Prop} [Decidable c] {e : ε} (h : ¬ c) : rejectIf c e = .ok () :=
  if_neg h

end Inversion

/-! ## Loops -/

section Loops
variable {ε α β : Type}

/-- A `for` loop over elements numbered from `i` on, whose body returns a value, fails, or
goes on to the next element. -/
def scan (body : α → Nat → RustResult ε (Option β)) (i : Nat) :
    List α → RustResult ε (Option β)
  | [] => .ok none
  | a :: as => do
      match ← body a i with
      | some b => return some b
      | none => scan body (i + 1) as

/-- `if c { continue; }` in the body of such a loop. -/
def continueIf (c : Prop) [Decidable c] (rest : RustResult ε (Option β)) :
    RustResult ε (Option β) :=
  if c then .ok none else rest

@[simp] theorem continueIf_eq_some {c : Prop} [Decidable c] {rest : RustResult ε (Option β)}
    {b : β} : continueIf c rest = .ok (some b) ↔ ¬ c ∧ rest = .ok (some b) := by
  unfold continueIf
  split <;> simp_all

/-- A loop that returns does so at one of its elements. -/
theorem exists_of_scan {body : α → Nat → RustResult ε (Option β)} {as : List α} {b : β} :
    ∀ {i : Nat}, scan body i as = .ok (some b) →
      ∃ k a, as[k]? = some a ∧ body a (i + k) = .ok (some b) := by
  induction as with
  | nil =>
    intro i h
    cases h
  | cons a as ih =>
    intro i h
    obtain ⟨r, hr, h⟩ := bind_eq_ok.mp h
    cases r with
    | some b' =>
      obtain rfl : b' = b := by cases h; rfl
      exact ⟨0, a, rfl, hr⟩
    | none =>
      obtain ⟨k, a', ha', hb⟩ := ih h
      have hindex : i + 1 + k = i + (k + 1) := by omega
      exact ⟨k + 1, a', ha', hindex ▸ hb⟩

/-- A loop whose body says of each element whether it is the one returns the first that
is. -/
theorem exists_scan_eq {body : α → Nat → RustResult ε (Option Nat)} {P : Nat → Prop} {as : List α} :
    ∀ {i : Nat}, (∀ k a, as[k]? = some a → (P (i + k) ∧ body a (i + k) = .ok (some (i + k))) ∨
        (¬ P (i + k) ∧ body a (i + k) = .ok none)) →
      (∃ k, k < as.length ∧ P (i + k)) →
      ∃ k, k < as.length ∧ P (i + k) ∧ scan body i as = .ok (some (i + k)) := by
  induction as with
  | nil => exact fun _ ⟨_, hk, _⟩ => (nomatch hk)
  | cons a as ih =>
    rintro i hbody ⟨k, hk, hP⟩
    rcases hbody 0 a rfl with ⟨hhere, hreturn⟩ | ⟨hnot, hnext⟩
    · refine ⟨0, Nat.succ_pos _, hhere, ?_⟩
      show (body a i >>= _) = _
      rw [show body a i = .ok (some i) from hreturn]
      rfl
    · have hshift : ∀ k, i + 1 + k = i + (k + 1) := fun k => by omega
      cases k with
      | zero => exact absurd hP hnot
      | succ k =>
        have hlater : ∀ k b, as[k]? = some b →
            (P (i + 1 + k) ∧ body b (i + 1 + k) = .ok (some (i + 1 + k))) ∨
              (¬ P (i + 1 + k) ∧ body b (i + 1 + k) = .ok none) := by
          intro k b hb
          rw [hshift]
          exact hbody (k + 1) b hb
        have hlt : k < as.length := Nat.lt_of_succ_lt_succ hk
        obtain ⟨k', hk', hP', hscan⟩ := ih hlater ⟨k, hlt, by rwa [hshift]⟩
        refine ⟨k' + 1, Nat.succ_lt_succ hk', by rwa [← hshift k'], ?_⟩
        show (body a i >>= _) = _
        rw [show body a i = .ok none from hnext, ← hshift k']
        exact hscan

/-- **Loop rule.**  What each round keeps holds after the loop, and each round that
follows the ones before it is one that succeeds. -/
theorem foldlM_eq_ok {P : β → Prop} {Q : α → Prop} {body : β → α → RustResult ε β} {as : List α}
    (hs : ∀ a ∈ as, ∀ b b', P b → body b a = .ok b' → P b' ∧ Q a) :
    ∀ {b b' : β}, P b → as.foldlM body b = .ok b' → P b' ∧ ∀ a ∈ as, Q a := by
  induction as with
  | nil =>
    intro b b' hb h
    obtain rfl : b = b' := by cases h; rfl
    exact ⟨hb, by simp⟩
  | cons a as ih =>
    intro b b' hb h
    rw [List.foldlM_cons] at h
    obtain ⟨c, hc, h⟩ := bind_eq_ok.mp h
    obtain ⟨hPc, hQa⟩ := hs a List.mem_cons_self b c hb hc
    obtain ⟨hPb, hQ⟩ := ih (fun a ha => hs a (List.mem_cons_of_mem _ ha)) hPc h
    exact ⟨hPb, List.forall_mem_cons.mpr ⟨hQa, hQ⟩⟩

/-- What `collect` gathers comes from the elements. -/
theorem exists_of_mem_mapM {f : α → RustResult ε β} {as : List α} :
    ∀ {bs : List β}, as.mapM f = .ok bs → ∀ b ∈ bs, ∃ a ∈ as, f a = .ok b := by
  induction as with
  | nil =>
    intro bs h b hb
    obtain rfl : [] = bs := by cases h; rfl
    cases hb
  | cons a as ih =>
    intro bs h b hb
    rw [List.mapM_cons] at h
    obtain ⟨c, hc, h⟩ := bind_eq_ok.mp h
    obtain ⟨cs, hcs, h⟩ := bind_eq_ok.mp h
    obtain rfl : c :: cs = bs := by cases h; rfl
    rcases List.mem_cons.mp hb with rfl | hb
    · exact ⟨a, List.mem_cons_self, hc⟩
    · obtain ⟨a', ha', hb⟩ := ih hcs b hb
      exact ⟨a', List.mem_cons_of_mem a ha', hb⟩

end Loops

/-! ## Strings -/

/-- `char::is_whitespace`. -/
def isWhitespace (c : Char) : Bool :=
  (0x09 ≤ c.toNat ∧ c.toNat ≤ 0x0D) ∨ (0x2000 ≤ c.toNat ∧ c.toNat ≤ 0x200A) ∨
    c.toNat ∈ [0x20, 0x85, 0xA0, 0x1680, 0x2028, 0x2029, 0x202F, 0x205F, 0x3000]

/-- `str::trim_matches`. -/
def trimMatches (p : Char → Bool) (cs : List Char) : List Char :=
  ((cs.dropWhile p).reverse.dropWhile p).reverse

/-- `str::trim`. -/
def trim (s : String) : String := String.ofList (trimMatches isWhitespace s.toList)

theorem dropWhile_of_head {p : Char → Bool} {cs : List Char} (h : ∀ c, cs.head? = some c → p c = false) :
    cs.dropWhile p = cs := by
  rcases cs with _ | ⟨c, cs⟩
  · rfl
  · exact List.dropWhile_cons_of_neg (by rw [h c rfl]; exact Bool.false_ne_true)

/-- Nothing is trimmed between two characters that stay. -/
theorem trimMatches_eq_self {p : Char → Bool} {cs : List Char}
    (hhead : ∀ c, cs.head? = some c → p c = false)
    (hlast : ∀ c, cs.getLast? = some c → p c = false) : trimMatches p cs = cs := by
  have hlast : ∀ c, cs.reverse.head? = some c → p c = false := by
    intro c hc
    exact hlast c (List.head?_reverse.symm.trans hc)
  rw [trimMatches, dropWhile_of_head hhead, dropWhile_of_head hlast, List.reverse_reverse]

/-- What is trimmed away holds only what is trimmed. -/
theorem forall_of_trimMatches {p : Char → Bool} {cs : List Char} (h : trimMatches p cs = []) :
    ∀ c ∈ cs, p c = true := by
  have hrest : ∀ c ∈ cs.dropWhile p, p c = true := by
    intro c hc
    exact List.dropWhile_eq_nil_iff.mp (List.reverse_eq_nil_iff.mp h) c (List.mem_reverse.mpr hc)
  have hnil : cs.dropWhile p = [] := by
    by_contra hne
    have hhead := List.head_dropWhile_not p hne
    exact Bool.false_ne_true (hhead.symm.trans (hrest _ (List.head_mem hne)))
  exact List.dropWhile_eq_nil_iff.mp hnil

/-! ## Integers -/

/-- The value of a string of ASCII digits; `none` if some character is not a digit. -/
def digitsValue (cs : List Char) : Option Nat :=
  cs.foldlM (fun n c => if c.isDigit then some (10 * n + (c.toNat - '0'.toNat)) else none) 0

/-- `str::parse::<u64>`: an optional `+`, then at least one digit, and a value that fits. -/
def parseU64 (s : String) : Option UInt64 :=
  let ds := match s.toList with
    | '+' :: ds => ds
    | ds => ds
  if ds.isEmpty then none
  else match digitsValue ds with
    | some n => if n < 2 ^ 64 then some (UInt64.ofNat n) else none
    | none => none

/-- The value of digits, wherever the count starts. -/
theorem foldlM_digits {cs : List Char} (h : ∀ c ∈ cs, c.isDigit) : ∀ n,
    cs.foldlM (fun n c => if c.isDigit then some (10 * n + (c.toNat - '0'.toNat)) else none) n =
      some (Nat.ofDigitChars 10 cs n) := by
  induction cs with
  | nil =>
    intro n
    rw [Nat.ofDigitChars_nil]
    rfl
  | cons c cs ih =>
    intro n
    obtain ⟨hc, hcs⟩ := List.forall_mem_cons.mp h
    rw [List.foldlM_cons, if_pos hc, Nat.ofDigitChars_cons]
    exact ih hcs _

/-- The text of an integer is read as that integer. -/
theorem parseU64_toString (n : UInt64) : parseU64 (toString n) = some n := by
  have htext : (toString n).toList = Nat.toDigits 10 n.toNat := Nat.toList_repr
  have hdigit : ∀ c ∈ Nat.toDigits 10 n.toNat, c.isDigit :=
    fun c hc => Nat.isDigit_of_mem_toDigits (by decide) (by decide) hc
  have hnil : Nat.toDigits 10 n.toNat ≠ [] := Nat.toDigits_ne_nil
  have hvalue : digitsValue (Nat.toDigits 10 n.toNat) = some n.toNat := by
    rw [digitsValue, foldlM_digits hdigit, Nat.ofDigitChars_ten_toDigits]
  unfold parseU64
  rw [htext]
  -- no digit is the optional sign
  split
  · rename_i ds hds
    exact absurd (hdigit '+' (hds ▸ List.mem_cons_self)) (by decide)
  · simp only [hvalue, List.isEmpty_iff, if_neg hnil, if_pos n.toNat_lt, UInt64.ofNat_toNat]

/-- A sum of machine integers is the sum modulo `2 ^ 64`. -/
theorem toNat_sum (amounts : List UInt64) :
    amounts.sum.toNat = (amounts.map UInt64.toNat).sum % 2 ^ 64 := by
  induction amounts with
  | nil => rfl
  | cons amount amounts ih =>
    rw [List.sum_cons, List.map_cons, List.sum_cons, UInt64.toNat_add, ih, Nat.add_mod_mod]

/-- `to_le_bytes` of an unsigned integer of `k` bytes. -/
def leBytes : Nat → Nat → List UInt8
  | 0, _ => []
  | k + 1, n => UInt8.ofNat n :: leBytes k (n / 256)

/-- `from_le_bytes`. -/
def fromLeBytes : List UInt8 → Nat
  | [] => 0
  | b :: bs => b.toNat + 256 * fromLeBytes bs

@[simp] theorem leBytes_length (k n : Nat) : (leBytes k n).length = k := by
  induction k generalizing n with
  | zero => rfl
  | succ k ih => simp [leBytes, ih]

theorem fromLeBytes_leBytes (k n : Nat) : fromLeBytes (leBytes k n) = n % 256 ^ k := by
  induction k generalizing n with
  | zero => simp [leBytes, fromLeBytes, Nat.mod_one]
  | succ k ih =>
    have hb : (UInt8.ofNat n).toNat = n % 256 := by simp
    rw [leBytes, fromLeBytes, ih, hb, Nat.pow_succ', Nat.mod_mul]

/-! ## Vectors -/

/-- The most bytes a Rust allocation can hold, `isize::MAX`. -/
def isizeMax : Nat := 2 ^ 63 - 1

/-- `Vec::push` for elements of `size` bytes: it panics when the vector would hold more
than `isize::MAX` bytes. -/
def vecPush {ε α : Type} (size : Nat) (xs : List α) (x : α) : RustResult ε (List α) :=
  if (xs.length + 1) * size ≤ isizeMax then .ok (xs ++ [x]) else .error (.panic "capacity overflow")

theorem vecPush_eq_ok {ε α : Type} {size : Nat} {xs ys : List α} {x : α} :
    (vecPush size xs x : RustResult ε (List α)) = .ok ys ↔
      ys = xs ++ [x] ∧ (xs.length + 1) * size ≤ isizeMax := by
  unfold vecPush
  split <;> simp_all [eq_comm]

end MppSdk
