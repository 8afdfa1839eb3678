import MppSdk.ParseUnits

/-! # Exactness of `parse_units`

Rust's `parse_units` multiplies an integer in `u128`, and only moves characters when there is
a point.  So it returns the decimal text of the base units of the plain numerals, and nothing
else, exactly on the inputs that are `Plain`: the characters around a point are looked at by
nobody, a plus sign is read, and a product that does not fit wraps around
(`parsesExactly_iff`).  Go's `ParseUnits` reads the moved characters back as a big integer,
which may have a sign after leading zeros (`Go.exactUnits_iff`). -/

namespace MppSdk

/-- The number of base units that a numeral denotes, if it has few enough fraction digits. -/
def Numeral.Denotes (n : Numeral) (decimals : UInt8) (units : Nat) : Prop :=
  n.fraction.length ≤ decimals.toNat ∧ (units : ℚ) = n.value * 10 ^ decimals.toNat

theorem Numeral.denotes_iff {n : Numeral} {decimals : UInt8} {units : Nat} :
    n.Denotes decimals units ↔ n.fraction.length ≤ decimals.toNat ∧ units = n.units decimals := by
  refine and_congr_right fun h => ?_
  rw [← n.units_eq h]
  exact_mod_cast Iff.rfl

/-- Two numerals of one value denote the same base units. -/
theorem Numeral.Denotes.unique {m n : Numeral} {decimals : UInt8} {j k : Nat}
    (hm : m.Denotes decimals j) (hn : n.Denotes decimals k) (h : m.value = n.value) : j = k := by
  have heq : (j : ℚ) = k := by rw [hm.2, hn.2, h]
  exact_mod_cast heq

/-- An operation of `parse_units` overflows: the cast of a length to `u32`, the power or the
product. -/
def Overflows (amount : String) (decimals : UInt8) : Prop :=
  match amount.toList.dropWhile (· ≠ '.') with
  | '.' :: fraction => 2 ^ 32 ≤ byteLength fraction
  | _ => ∃ value, parseU128 amount = some value ∧
      (2 ^ 128 ≤ 10 ^ decimals.toNat ∨ 2 ^ 128 ≤ value * 10 ^ decimals.toNat)

/-- `parse_units` returns the text of the base units of the numerals that fit `u128`, and
nothing else, without an overflow. -/
def ParsesExactly (amount : String) (decimals : UInt8) : Prop :=
  (∀ text, parseUnits amount decimals = .ok text ↔ ∃ (n : Numeral) (units : Nat),
    n.text = amount ∧ n.Denotes decimals units ∧ units < 2 ^ 128 ∧ text = toString units) ∧
  ¬ Overflows amount decimals

/-- With a point: too many bytes follow it, or there are digits on both sides and their scaled
value fits `u128`.  Without: the text is no integer of `u128`, or it has no sign and the power
and the scaled value fit. -/
def Plain (amount : String) (decimals : UInt8) : Prop :=
  match amount.toList.dropWhile (· ≠ '.') with
  | '.' :: fraction =>
      let whole := amount.toList.takeWhile (· ≠ '.')
      byteLength fraction < 2 ^ 32 ∧ (decimals.toNat < byteLength fraction ∨
        (whole ≠ [] ∧ Decimal.Digits whole) ∧ (fraction ≠ [] ∧ Decimal.Digits fraction) ∧
          Decimal.value (whole ++ fraction) * 10 ^ (decimals.toNat - fraction.length) < 2 ^ 128)
  | _ => ∀ value, parseU128 amount = some value → amount.toList.head? ≠ some '+' ∧
      10 ^ decimals.toNat < 2 ^ 128 ∧ value * 10 ^ decimals.toNat < 2 ^ 128

/-! ## The parts of a text -/

section Parts
variable {amount : String} {n : Numeral} {fraction : List Char}

theorem isDigit_ne_point (c : Char) (hc : c.isDigit) : decide (c ≠ '.') = true := by
  refine decide_eq_true ?_
  rintro rfl
  cases hc

/-- The text from its first point on. -/
theorem dropWhile_point (cs : List Char) : cs.dropWhile (· ≠ '.') = [] ∨
    ∃ fraction, cs.dropWhile (· ≠ '.') = '.' :: fraction := by
  rcases h : cs.dropWhile (· ≠ '.') with _ | ⟨c, fraction⟩
  · exact Or.inl rfl
  · have hc : ¬ decide (c ≠ '.') = true := by
      have hhead := List.head?_dropWhile_not (fun c => decide (c ≠ '.')) cs
      rw [h] at hhead
      simpa using hhead
    have hpoint : c = '.' := by simpa using hc
    exact Or.inr ⟨fraction, by rw [hpoint]⟩

/-- A numeral with this text, when there is a point. -/
theorem Numeral.text_eq_iff_point (h : amount.toList.dropWhile (· ≠ '.') = '.' :: fraction) :
    n.text = amount ↔ n.whole = amount.toList.takeWhile (· ≠ '.') ∧ n.fraction = fraction ∧
      fraction ≠ [] := by
  constructor
  · rintro rfl
    rw [n.text_toList, n.dropWhile_chars isDigit_ne_point (by decide)] at h
    rw [n.text_toList, n.takeWhile_chars isDigit_ne_point (by decide)]
    split at h
    · cases h
    · next hne =>
      obtain rfl := (List.cons.inj h).2
      exact ⟨rfl, rfl, hne⟩
  · rintro ⟨hwhole, rfl, hne⟩
    rw [← String.toList_inj, n.text_toList, chars, if_neg hne, hwhole, ← h,
      List.takeWhile_append_dropWhile]

/-- A numeral with this text, when there is no point. -/
theorem Numeral.text_eq_iff_no_point (h : amount.toList.dropWhile (· ≠ '.') = []) :
    n.text = amount ↔ n.whole = amount.toList ∧ n.fraction = [] := by
  constructor
  · rintro rfl
    rw [n.text_toList, n.dropWhile_chars isDigit_ne_point (by decide)] at h
    split at h
    · next hnil => exact ⟨by rw [n.text_toList, chars, if_pos hnil, List.append_nil], hnil⟩
    · cases h
  · rintro ⟨hwhole, hnil⟩
    rw [← String.toList_inj, n.text_toList, chars, if_pos hnil, List.append_nil, hwhole]

end Parts

/-! ## With a point -/

section Point
variable {amount : String} {decimals : UInt8} {fraction : List Char}

theorem parsesExactly_iff_point (h : amount.toList.dropWhile (· ≠ '.') = '.' :: fraction) :
    ParsesExactly amount decimals ↔ Plain amount decimals := by
  have hplain : Plain amount decimals ↔ byteLength fraction < 2 ^ 32 ∧
      (decimals.toNat < byteLength fraction ∨
        (amount.toList.takeWhile (· ≠ '.') ≠ [] ∧
            Decimal.Digits (amount.toList.takeWhile (· ≠ '.'))) ∧
          (fraction ≠ [] ∧ Decimal.Digits fraction) ∧
          Decimal.value (amount.toList.takeWhile (· ≠ '.') ++ fraction) *
            10 ^ (decimals.toNat - fraction.length) < 2 ^ 128) := by
    simp only [Plain, h]
  have hover : Overflows amount decimals ↔ 2 ^ 32 ≤ byteLength fraction := by
    simp only [Overflows, h]
  rw [hplain, ParsesExactly, hover, Nat.not_le, and_comm]
  refine and_congr_right fun hshort => ?_
  have hlength : byteLength fraction % 2 ^ 32 = byteLength fraction := Nat.mod_eq_of_lt hshort
  by_cases hmany : decimals.toNat < byteLength fraction
  · -- both refuse
    refine ⟨fun _ => Or.inl hmany, fun _ text => ?_⟩
    have herror : ∀ text, parseUnits amount decimals ≠ .ok text := by
      intro text hok
      simp only [parseUnits, h, hlength, rejectIf_pos hmany] at hok
      cases hok
    refine ⟨fun hok => absurd hok (herror text), ?_⟩
    rintro ⟨n, units, htext, ⟨hfew, -⟩, -, -⟩
    obtain ⟨-, rfl, -⟩ := (Numeral.text_eq_iff_point h).mp htext
    rw [Numeral.byteLength_digits n.fraction_digits] at hmany
    omega
  · have hok : parseUnits amount decimals = .ok (
        let trimmed := trimZeros (amount.toList.takeWhile (· ≠ '.') ++ fraction ++
          List.replicate (decimals.toNat - byteLength fraction) '0')
        if trimmed = [] then "0" else String.ofList trimmed) := by
      simp only [parseUnits, h, hlength, rejectIf_neg hmany, ok_bind]
      rfl
    rw [or_iff_right hmany]
    constructor
    · -- the text that is returned comes from a numeral
      intro hexact
      obtain ⟨n, units, htext, hdenotes, hfits, -⟩ := (hexact _).mp hok
      obtain ⟨hwhole, rfl, hne⟩ := (Numeral.text_eq_iff_point h).mp htext
      obtain ⟨hfew, rfl⟩ := Numeral.denotes_iff.mp hdenotes
      refine ⟨hwhole ▸ ⟨n.whole_ne_nil, n.whole_digits⟩, ⟨hne, n.fraction_digits⟩, ?_⟩
      rw [← hwhole, ← Decimal.value_pad]
      exact hfits
    · rintro ⟨⟨hwhole, hwholeDigits⟩, ⟨hne, hdigits⟩, hfits⟩ text
      let n : Numeral := ⟨_, fraction, hwhole, hwholeDigits, hdigits⟩
      have htext : n.text = amount := (Numeral.text_eq_iff_point h).mpr ⟨rfl, rfl, hne⟩
      have hfew : n.fraction.length ≤ decimals.toNat :=
        Nat.not_lt.mp (Numeral.byteLength_digits hdigits ▸ hmany)
      have hunits : parseUnits amount decimals = .ok (toString (n.units decimals)) := by
        rw [hok, Numeral.byteLength_digits hdigits]
        exact congrArg Except.ok (n.ofList_canonical_padded decimals)
      rw [← Decimal.value_pad] at hfits
      rw [hunits, Except.ok.injEq]
      constructor
      · rintro rfl
        exact ⟨n, n.units decimals, htext, Numeral.denotes_iff.mpr ⟨hfew, rfl⟩, hfits, rfl⟩
      · rintro ⟨m, units, hm, hdenotes, -, rfl⟩
        obtain ⟨hmwhole, hmfraction, -⟩ := (Numeral.text_eq_iff_point h).mp hm
        obtain ⟨-, rfl⟩ := Numeral.denotes_iff.mp hdenotes
        rw [Numeral.units, Numeral.padded, Numeral.units, Numeral.padded, hmwhole, hmfraction]

end Point

/-! ## Without a point -/

section NoPoint
variable {amount : String} {decimals : UInt8}

/-- Characters with a value are digits. -/
theorem digitsValue_eq_some {cs : List Char} {value : Nat} :
    digitsValue cs = some value ↔ Decimal.Digits cs ∧ Decimal.value cs = value := by
  constructor
  · intro h
    have hdigits : Decimal.Digits cs := Numeral.isDigit_of_foldlM h
    rw [Numeral.digitsValue_eq hdigits] at h
    exact ⟨hdigits, Option.some.inj h⟩
  · rintro ⟨hdigits, rfl⟩
    exact Numeral.digitsValue_eq hdigits

/-- What `u128` reads: digits, after a plus sign or not. -/
theorem parseU128_eq_some {value : Nat} : parseU128 amount = some value ↔ value < 2 ^ 128 ∧
    ∃ ds : List Char, ds ≠ [] ∧ Decimal.Digits ds ∧ Decimal.value ds = value ∧
      (amount.toList = ds ∨ amount.toList = '+' :: ds) := by
  have hread : ∀ ds : List Char,
      (if ds.isEmpty then none else (digitsValue ds).filter (· < 2 ^ 128)) = some value ↔
        value < 2 ^ 128 ∧ ds ≠ [] ∧ Decimal.Digits ds ∧ Decimal.value ds = value := by
    intro ds
    rw [← digitsValue_eq_some]
    by_cases hnil : ds = []
    · simp [hnil]
    · rw [if_neg (by simpa using hnil), Option.filter_eq_some_iff, decide_eq_true_eq]
      tauto
  unfold parseU128
  split
  · next ds hds =>
    rw [hread, hds]
    constructor
    · rintro ⟨hlt, hne, hdigits, hvalue⟩
      exact ⟨hlt, ds, hne, hdigits, hvalue, Or.inr rfl⟩
    · rintro ⟨hlt, ds', hne, hdigits, hvalue, rfl | htext⟩
      · exact absurd (hdigits '+' List.mem_cons_self) (by decide)
      · obtain rfl := (List.cons.inj htext).2
        exact ⟨hlt, hne, hdigits, hvalue⟩
  · next hplus =>
    rw [hread]
    constructor
    · rintro ⟨hlt, hne, hdigits, hvalue⟩
      exact ⟨hlt, _, hne, hdigits, hvalue, Or.inl rfl⟩
    · rintro ⟨hlt, ds', hne, hdigits, hvalue, htext | htext⟩
      · exact htext ▸ ⟨hlt, hne, hdigits, hvalue⟩
      · exact absurd htext (hplus ds')

theorem parsesExactly_iff_no_point (h : amount.toList.dropWhile (· ≠ '.') = []) :
    ParsesExactly amount decimals ↔ Plain amount decimals := by
  have hplain : Plain amount decimals ↔ ∀ value, parseU128 amount = some value →
      amount.toList.head? ≠ some '+' ∧ 10 ^ decimals.toNat < 2 ^ 128 ∧
        value * 10 ^ decimals.toNat < 2 ^ 128 := by
    simp only [Plain, h]
  have hover : Overflows amount decimals ↔ ∃ value, parseU128 amount = some value ∧
      (2 ^ 128 ≤ 10 ^ decimals.toNat ∨ 2 ^ 128 ≤ value * 10 ^ decimals.toNat) := by
    simp only [Overflows, h]
  rw [hplain, ParsesExactly, hover]
  -- the numerals with this text are its digits
  have hnumeral : ∀ (n : Numeral) units, n.text = amount → n.Denotes decimals units →
      units < 2 ^ 128 → Decimal.Digits amount.toList ∧
        parseU128 amount = some (Decimal.value amount.toList) ∧
        units = Decimal.value amount.toList * 10 ^ decimals.toNat := by
    intro n units htext hdenotes hfits
    obtain ⟨hwhole, hnil⟩ := (Numeral.text_eq_iff_no_point h).mp htext
    obtain ⟨-, rfl⟩ := Numeral.denotes_iff.mp hdenotes
    have hunits : n.units decimals = Decimal.value n.whole * 10 ^ decimals.toNat := by
      rw [Numeral.units, Numeral.padded, hnil, List.append_nil, List.length_nil, Nat.sub_zero,
        Decimal.value_pad]
    have hle : Decimal.value n.whole ≤ n.units decimals :=
      hunits ▸ Nat.le_mul_of_pos_right _ (by positivity)
    rw [← hwhole]
    refine ⟨n.whole_digits, parseU128_eq_some.mpr ⟨by omega, n.whole, n.whole_ne_nil,
      n.whole_digits, rfl, Or.inl hwhole.symm⟩, hunits⟩
  rcases hparse : parseU128 amount with _ | value
  · -- both refuse
    refine ⟨fun _ => ?_, fun _ => ⟨fun text => ?_, ?_⟩⟩
    · rintro value ⟨⟩
    · constructor
      · intro hok
        simp only [parseUnits, h, hparse, okOrElse] at hok
        cases hok
      · rintro ⟨n, units, htext, hdenotes, hfits, -⟩
        have hread := (hnumeral n units htext hdenotes hfits).2.1
        rw [hparse] at hread
        cases hread
    · rintro ⟨value, hvalue, -⟩
      cases hvalue
  · have hok : parseUnits amount decimals =
        .ok (toString (value * (10 ^ decimals.toNat % 2 ^ 128) % 2 ^ 128)) := by
      simp only [parseUnits, h, hparse, okOrElse, ok_bind]
      rfl
    obtain ⟨-, ds, hne, hdigits, rfl, htext⟩ := parseU128_eq_some.mp hparse
    have hall : (∀ value, some (Decimal.value ds) = some value → amount.toList.head? ≠ some '+' ∧
        10 ^ decimals.toNat < 2 ^ 128 ∧ value * 10 ^ decimals.toNat < 2 ^ 128) ↔
        amount.toList.head? ≠ some '+' ∧ 10 ^ decimals.toNat < 2 ^ 128 ∧
          Decimal.value ds * 10 ^ decimals.toNat < 2 ^ 128 :=
      ⟨fun hv => hv _ rfl, fun hv _ heq => Option.some.inj heq ▸ hv⟩
    rw [hall]
    constructor
    · rintro ⟨hexact, hnot⟩
      obtain ⟨n, units, hn, hdenotes, hfits, -⟩ := (hexact _).mp hok
      obtain ⟨hplain, -, -⟩ := hnumeral n units hn hdenotes hfits
      refine ⟨fun hplus => ?_, ?_, ?_⟩
      · have hmem : '+' ∈ amount.toList := List.mem_of_head? hplus
        exact absurd (hplain '+' hmem) (by decide)
      · exact Nat.not_le.mp fun hle => hnot ⟨_, rfl, Or.inl hle⟩
      · exact Nat.not_le.mp fun hle => hnot ⟨_, rfl, Or.inr hle⟩
    · rintro ⟨hplus, hpower, hfits⟩
      have hds : amount.toList = ds := by
        refine htext.resolve_right fun hsign => hplus ?_
        rw [hsign]
        rfl
      have hunits : parseUnits amount decimals =
          .ok (toString (Decimal.value ds * 10 ^ decimals.toNat)) := by
        rw [hok, Nat.mod_eq_of_lt hpower, Nat.mod_eq_of_lt hfits]
      constructor
      · intro text
        rw [hunits, Except.ok.injEq]
        constructor
        · rintro rfl
          let n : Numeral := ⟨ds, [], hne, hdigits, fun _ => by rintro ⟨⟩⟩
          refine ⟨n, _, (Numeral.text_eq_iff_no_point h).mpr ⟨hds.symm, rfl⟩,
            Numeral.denotes_iff.mpr ⟨Nat.zero_le _, ?_⟩, hfits, rfl⟩
          rw [Numeral.units, Numeral.padded, List.append_nil, List.length_nil, Nat.sub_zero,
            Decimal.value_pad]
        · rintro ⟨n, units, hn, hdenotes, hlt, rfl⟩
          rw [(hnumeral n units hn hdenotes hlt).2.2, hds]
      · rintro ⟨value, hvalue, hle | hle⟩
        · omega
        · obtain rfl := Option.some.inj hvalue
          omega

end NoPoint

theorem Plain.exactly {amount : String} {decimals : UInt8} (hplain : Plain amount decimals) :
    ParsesExactly amount decimals := by
  rcases dropWhile_point amount.toList with h | ⟨fraction, h⟩
  · exact (parsesExactly_iff_no_point h).mpr hplain
  · exact (parsesExactly_iff_point h).mpr hplain

/-- **Exact condition for `parse_units`.** -/
theorem parsesExactly_iff (amount : String) (decimals : UInt8) :
    ParsesExactly amount decimals ↔ Plain amount decimals := by
  refine ⟨fun hexact => ?_, Plain.exactly⟩
  rcases dropWhile_point amount.toList with h | ⟨fraction, h⟩
  · exact (parsesExactly_iff_no_point h).mp hexact
  · exact (parsesExactly_iff_point h).mp hexact

/-- The two ways through `parse_units` agree on numerals of one value. -/
theorem parseUnits_eq_of_value_eq {m n : Numeral} {decimals : UInt8} {j k : Nat}
    (hm : m.Denotes decimals j) (hn : n.Denotes decimals k) (h : m.value = n.value)
    (hfits : j < 2 ^ 128) (hmplain : Plain m.text decimals) (hnplain : Plain n.text decimals) :
    parseUnits m.text decimals = parseUnits n.text decimals := by
  obtain rfl := hm.unique hn h
  have hmok := (hmplain.exactly.1 _).mpr ⟨m, j, rfl, hm, hfits, rfl⟩
  have hnok := (hnplain.exactly.1 _).mpr ⟨n, j, rfl, hn, hfits, rfl⟩
  rw [hmok, hnok]

/-- A letter after the point is not noticed. -/
theorem letters_accepted : ¬ ParsesExactly "1.a" 6 := by
  rintro ⟨hexact, -⟩
  have hok : parseUnits "1.a" 6 = .ok "1a00000" := by decide +kernel
  obtain ⟨n, units, htext, -⟩ := (hexact _).mp hok
  have hmem : 'a' ∈ n.chars := by
    rw [← n.text_toList, htext]
    decide
  rcases n.mem_chars hmem with h | h
  · exact absurd h (by decide)
  · exact absurd h (by decide)

/-! ## Go -/

namespace Go

/-- The text before the point and after it, if there is no second one. -/
def pointParts (cs : List Char) : Option (List Char × List Char) :=
  match cs.splitOn '.' with
  | [whole] => some (whole, [])
  | [whole, fraction] => some (whole, fraction)
  | _ => none

/-- The characters that are read back as a big integer. -/
def scaled (decimals : UInt8) (whole fraction : List Char) : List Char :=
  whole ++ fraction ++ List.replicate (decimals.toNat - byteLength fraction) '0'

/-- `ParseUnits` returns the text of the base units of the decimal numerals with few enough
fraction digits, white space around them aside, and nothing else.  The digits on one side of
the point may be left out. -/
def ParsesExactly (amount : String) (decimals : UInt8) : Prop :=
  ∀ text, parseUnits amount decimals = .ok text ↔ ∃ whole fraction,
    pointParts (trimSpace amount) = some (whole, fraction) ∧ Decimal.Digits whole ∧
      Decimal.Digits fraction ∧ (whole ≠ [] ∨ fraction ≠ []) ∧ fraction.length ≤ decimals.toNat ∧
      text = toString (Decimal.value (whole ++ fraction) * 10 ^ (decimals.toNat - fraction.length))

/-- Zeros, a sign and digits. -/
def HidesSign (cs : List Char) : Prop :=
  ∃ k sign ds, cs = List.replicate k '0' ++ sign :: ds ∧ (sign = '-' ∨ sign = '+') ∧ ds ≠ [] ∧
    Decimal.Digits ds

/-- A sign that the check in front does not see: the text does not start with a minus, but its
digits, moved to base units, are zeros, a sign and digits. -/
def SignedInside (decimals : UInt8) (cs : List Char) : Prop :=
  cs.head? ≠ some '-' ∧ ∃ whole fraction, pointParts cs = some (whole, fraction) ∧
    byteLength fraction ≤ decimals.toNat ∧ HidesSign (scaled decimals whole fraction)

/-- How the moved characters are read back. -/
def readBack (cs : List Char) : Option String :=
  if trimZeros cs = [] then some "0" else (setString (trimZeros cs)).map toString

theorem sign_not_digit {sign : Char} (h : sign = '-' ∨ sign = '+') : sign.isDigit = false := by
  rcases h with rfl | rfl <;> rfl

theorem HidesSign.not_digits {cs : List Char} (h : HidesSign cs) : ¬ Decimal.Digits cs := by
  obtain ⟨k, sign, ds, rfl, hsign, -⟩ := h
  intro hdigits
  have hsigndigit := hdigits sign (List.mem_append_right _ List.mem_cons_self)
  rw [sign_not_digit hsign] at hsigndigit
  cases hsigndigit

/-- The zeros in front and the rest. -/
theorem exists_zeros (cs : List Char) : ∃ k, cs = List.replicate k '0' ++ trimZeros cs := by
  refine ⟨(cs.takeWhile (· = '0')).length, ?_⟩
  have hzeros : cs.takeWhile (· = '0') = List.replicate (cs.takeWhile (· = '0')).length '0' := by
    refine List.eq_replicate_of_mem fun c hc => ?_
    simpa using List.mem_takeWhile_imp hc
  conv_lhs => rw [← List.takeWhile_append_dropWhile (p := (· = '0')) (l := cs), hzeros]

theorem hidesSign_iff {cs : List Char} : HidesSign cs ↔ ∃ sign ds, trimZeros cs = sign :: ds ∧
    (sign = '-' ∨ sign = '+') ∧ ds ≠ [] ∧ Decimal.Digits ds := by
  constructor
  · rintro ⟨k, sign, ds, rfl, hsign, hne, hdigits⟩
    refine ⟨sign, ds, ?_, hsign, hne, hdigits⟩
    have hzero : ¬ decide (sign = '0') = true := by rcases hsign with rfl | rfl <;> decide
    have hzeros : ∀ c ∈ List.replicate k '0', decide (c = '0') = true :=
      fun c hc => decide_eq_true (List.eq_of_mem_replicate hc)
    rw [trimZeros, List.dropWhile_append_of_pos hzeros]
    exact List.dropWhile_cons_of_neg hzero
  · rintro ⟨sign, ds, htrim, h⟩
    obtain ⟨k, hk⟩ := exists_zeros cs
    exact ⟨k, sign, ds, by rw [← htrim]; exact hk, h⟩

/-- What a big integer is read from, when there is no digit in front. -/
theorem setString_cases {cs : List Char} (h : ¬ Decimal.Digits cs) :
    ((∃ sign ds, cs = sign :: ds ∧ (sign = '-' ∨ sign = '+') ∧ ds ≠ [] ∧ Decimal.Digits ds) ∧
      (setString cs).isSome) ∨
    ((¬ ∃ sign ds, cs = sign :: ds ∧ (sign = '-' ∨ sign = '+') ∧ ds ≠ [] ∧ Decimal.Digits ds) ∧
      setString cs = none) := by
  have hsigned : ∀ (sign : Char) (i : Int) (ds : List Char), (sign = '-' ∨ sign = '+') →
      ((∃ sign' ds', sign :: ds = sign' :: ds' ∧ (sign' = '-' ∨ sign' = '+') ∧ ds' ≠ [] ∧
          Decimal.Digits ds') ∧
        (if ds = [] then none else (digitsValue ds).map fun n : Nat => i * n).isSome) ∨
      ((¬ ∃ sign' ds', sign :: ds = sign' :: ds' ∧ (sign' = '-' ∨ sign' = '+') ∧ ds' ≠ [] ∧
          Decimal.Digits ds') ∧
        (if ds = [] then none else (digitsValue ds).map fun n : Nat => i * n) = none) := by
    intro sign i ds hsign
    by_cases hgood : ds ≠ [] ∧ Decimal.Digits ds
    · refine Or.inl ⟨⟨sign, ds, rfl, hsign, hgood⟩, ?_⟩
      rw [if_neg hgood.1, Numeral.digitsValue_eq hgood.2]
      rfl
    · refine Or.inr ⟨?_, ?_⟩
      · rintro ⟨sign', ds', heq, -, hds⟩
        obtain ⟨rfl, rfl⟩ := List.cons.inj heq
        exact hgood hds
      · by_cases hnil : ds = []
        · rw [if_pos hnil]
        · rw [if_neg hnil, Option.map_eq_none_iff, Option.eq_none_iff_forall_ne_some]
          exact fun value hvalue => hgood ⟨hnil, (digitsValue_eq_some.mp hvalue).1⟩
  unfold setString splitSign
  split
  · next sign ds hsplit =>
    split at hsplit
    · next cs =>
      obtain ⟨rfl, rfl⟩ := Prod.mk.inj hsplit
      exact hsigned '-' (-1) cs (Or.inl rfl)
    · next cs =>
      obtain ⟨rfl, rfl⟩ := Prod.mk.inj hsplit
      exact hsigned '+' 1 cs (Or.inr rfl)
    · next hminus hplus =>
      obtain ⟨rfl, rfl⟩ := Prod.mk.inj hsplit
      refine Or.inr ⟨?_, ?_⟩
      · rintro ⟨sign, ds, rfl, rfl | rfl, -⟩
        · exact hminus ds rfl
        · exact hplus ds rfl
      · have hnone : digitsValue cs = none :=
          Option.eq_none_iff_forall_ne_some.mpr fun value hvalue =>
            h (digitsValue_eq_some.mp hvalue).1
        rw [hnone]
        split <;> rfl

/-- **What is read back**: digits as their value, and signed digits after zeros. -/
theorem readBack_cases (cs : List Char) :
    (Decimal.Digits cs ∧ readBack cs = some (toString (Decimal.value cs))) ∨
    (HidesSign cs ∧ (readBack cs).isSome) ∨
    (¬ Decimal.Digits cs ∧ ¬ HidesSign cs ∧ readBack cs = none) := by
  by_cases hdigits : Decimal.Digits cs
  · refine Or.inl ⟨hdigits, ?_⟩
    have hvalue : Decimal.value (trimZeros cs) = Decimal.value cs := Decimal.value_dropWhile cs
    by_cases hnil : trimZeros cs = []
    · rw [readBack, if_pos hnil, ← hvalue, hnil]
      rfl
    · rw [readBack, if_neg hnil, Numeral.setString_eq (hdigits.dropWhile _) hnil, hvalue]
      rfl
  · obtain ⟨k, hk⟩ := exists_zeros cs
    have htrimmed : ¬ Decimal.Digits (trimZeros cs) := fun h =>
      hdigits (hk ▸ Decimal.digits_append.mpr ⟨Decimal.digits_zeros k, h⟩)
    have hne : trimZeros cs ≠ [] := fun hnil => htrimmed (hnil ▸ fun c hc => (nomatch hc))
    rw [readBack, if_neg hne, hidesSign_iff]
    rcases setString_cases htrimmed with ⟨hsigned, hsome⟩ | ⟨hsigned, hnone⟩
    · exact Or.inr (Or.inl ⟨hsigned, Option.isSome_map.trans hsome⟩)
    · exact Or.inr (Or.inr ⟨hdigits, hsigned, by rw [hnone]; rfl⟩)

/-- When `ParseUnits` succeeds. -/
theorem parseUnits_eq_ok {amount : String} {decimals : UInt8} {text : String} :
    parseUnits amount decimals = .ok text ↔ trimSpace amount ≠ [] ∧
      (trimSpace amount).head? ≠ some '-' ∧ ∃ whole fraction,
        pointParts (trimSpace amount) = some (whole, fraction) ∧
          byteLength fraction ≤ decimals.toNat ∧
          readBack (scaled decimals whole fraction) = some text := by
  have hread : ∀ (whole fraction : List Char) (message : GoError),
      (if trimZeros ((if whole = [] then ['0'] else whole) ++ fraction ++
          List.replicate (decimals.toNat - byteLength fraction) '0') = [] then return "0"
        else do
          let bigValue ← okOrElse (setString (trimZeros ((if whole = [] then ['0'] else whole) ++
            fraction ++ List.replicate (decimals.toNat - byteLength fraction) '0'))) message
          return toString bigValue) = (.ok text : Result String) ↔
        readBack (scaled decimals whole fraction) = some text := by
    intro whole fraction message
    have hzero : trimZeros ((if whole = [] then ['0'] else whole) ++ fraction ++
        List.replicate (decimals.toNat - byteLength fraction) '0') =
          trimZeros (scaled decimals whole fraction) := by
      by_cases hnil : whole = []
      · rw [if_pos hnil, hnil]
        rfl
      · rw [if_neg hnil]
        rfl
    rw [hzero, readBack]
    split
    · exact ⟨fun h => congrArg some (Except.ok.inj h), fun h => congrArg Except.ok (Option.some.inj h)⟩
    · simp only [bind_eq_ok, okOrElse_eq_ok, Option.map_eq_some_iff]
      exact exists_congr fun i => and_congr_right fun _ =>
        ⟨fun h => Except.ok.inj h, fun h => congrArg Except.ok h⟩
  simp only [parseUnits, bind_eq_ok, rejectIf_eq_ok, pointParts]
  have hparts := List.splitOn_ne_nil '.' (trimSpace amount)
  rcases hsplit : (trimSpace amount).splitOn '.' with _ | ⟨whole, _ | ⟨fraction, _ | ⟨third, rest⟩⟩⟩
  · exact absurd hsplit hparts
  · constructor
    · rintro ⟨-, hne, -, hminus, -, -, -, hfew, hok⟩
      exact ⟨hne, hminus, whole, [], rfl, Nat.not_lt.mp hfew, (hread whole [] _).mp hok⟩
    · rintro ⟨hne, hminus, _, _, ⟨⟩, hfew, hok⟩
      exact ⟨(), hne, (), hminus, (), by simp, (), Nat.not_lt.mpr hfew, (hread whole [] _).mpr hok⟩
  · constructor
    · rintro ⟨-, hne, -, hminus, -, -, -, hfew, hok⟩
      exact ⟨hne, hminus, whole, fraction, rfl, Nat.not_lt.mp hfew, (hread whole fraction _).mp hok⟩
    · rintro ⟨hne, hminus, _, _, ⟨⟩, hfew, hok⟩
      exact ⟨(), hne, (), hminus, (), by simp, (), Nat.not_lt.mpr hfew,
        (hread whole fraction _).mpr hok⟩
  · constructor
    · rintro ⟨-, -, -, -, -, hmany, -⟩
      exact absurd (by simp) hmany
    · rintro ⟨-, -, _, _, hpoints, -⟩
      cases hpoints

/-- The text is its parts, with a point between them or with nothing after the whole. -/
theorem eq_of_pointParts {cs whole fraction : List Char}
    (h : pointParts cs = some (whole, fraction)) :
    (cs = whole ∧ fraction = []) ∨ cs = whole ++ '.' :: fraction := by
  have hjoin : ['.'].intercalate (cs.splitOn '.') = cs := List.intercalate_splitOn '.'
  unfold pointParts at h
  split at h
  · next whole' hsplit =>
    obtain ⟨rfl, rfl⟩ := Prod.mk.inj (Option.some.inj h)
    rw [hsplit] at hjoin
    exact Or.inl ⟨by simpa using hjoin.symm, rfl⟩
  · next whole' fraction' hsplit =>
    obtain ⟨rfl, rfl⟩ := Prod.mk.inj (Option.some.inj h)
    rw [hsplit] at hjoin
    exact Or.inr (by simpa [List.intercalate] using hjoin.symm)
  · cases h

/-- A text of digits with a point or without one starts with no minus, and it is empty or a lone
point if it has no digits at all. -/
theorem ends_of_digits {cs whole fraction : List Char}
    (h : pointParts cs = some (whole, fraction)) (hwhole : Decimal.Digits whole)
    (hfraction : Decimal.Digits fraction) :
    (whole ≠ [] ∨ fraction ≠ [] ↔ cs ≠ [] ∧ cs ≠ ['.']) ∧ cs.head? ≠ some '-' := by
  constructor
  · rcases eq_of_pointParts h with ⟨rfl, rfl⟩ | rfl
    · have hpoint : cs ≠ ['.'] := by
        rintro rfl
        exact absurd (hwhole '.' (List.mem_singleton_self _)) (by decide)
      simp [hpoint]
    · simp [List.append_eq_cons_iff]
      tauto
  · intro hhead
    have hmem : '-' ∈ cs := List.mem_of_head? hhead
    rcases eq_of_pointParts h with ⟨rfl, -⟩ | rfl
    · exact absurd (hwhole '-' hmem) (by decide)
    · rcases List.mem_append.mp hmem with hmem | hmem
      · exact absurd (hwhole '-' hmem) (by decide)
      · rcases List.mem_cons.mp hmem with h | hmem
        · exact absurd h (by decide)
        · exact absurd (hfraction '-' hmem) (by decide)

/-- **Exact condition for `ParseUnits`.** -/
theorem exactUnits_iff (amount : String) (decimals : UInt8) :
    ParsesExactly amount decimals ↔
      trimSpace amount ≠ ['.'] ∧ ¬ SignedInside decimals (trimSpace amount) := by
  unfold ParsesExactly SignedInside
  simp only [parseUnits_eq_ok]
  generalize trimSpace amount = cs
  rcases hparts : pointParts cs with _ | ⟨whole, fraction⟩
  · -- two points
    have hpoint : cs ≠ ['.'] := by
      rintro rfl
      cases hparts
    simp [hpoint]
  simp only [Option.some.injEq, Prod.mk.injEq]
  have hsome : ∀ {P : List Char → List Char → Prop},
      (∃ w f, (whole = w ∧ fraction = f) ∧ P w f) ↔ P whole fraction := by
    intro P
    exact ⟨fun ⟨_, _, ⟨rfl, rfl⟩, h⟩ => h, fun h => ⟨whole, fraction, ⟨rfl, rfl⟩, h⟩⟩
  simp only [hsome]
  by_cases hdigits : Decimal.Digits whole ∧ Decimal.Digits fraction
  · obtain ⟨hwhole, hfraction⟩ := hdigits
    have hlength := Numeral.byteLength_digits hfraction
    have hall : Decimal.Digits (scaled decimals whole fraction) := Decimal.digits_append.mpr
      ⟨Decimal.digits_append.mpr ⟨hwhole, hfraction⟩, Decimal.digits_zeros _⟩
    have hvalue : Decimal.value (scaled decimals whole fraction) =
        Decimal.value (whole ++ fraction) * 10 ^ (decimals.toNat - fraction.length) := by
      rw [scaled, Decimal.value_pad, hlength]
    have hread : readBack (scaled decimals whole fraction) = some (toString
        (Decimal.value (whole ++ fraction) * 10 ^ (decimals.toNat - fraction.length))) := by
      rcases readBack_cases (scaled decimals whole fraction) with ⟨-, h⟩ | ⟨h, -⟩ | ⟨h, -, -⟩
      · rw [h, hvalue]
      · exact absurd hall h.not_digits
      · exact absurd hall h
    obtain ⟨hempty, hminus⟩ := ends_of_digits hparts hwhole hfraction
    have hsign : ¬ HidesSign (scaled decimals whole fraction) := fun h => h.not_digits hall
    simp only [hread, hlength, hminus, hsign, hwhole, hfraction, true_and, ne_eq, not_false_eq_true,
      and_false, and_true, Option.some.injEq]
    constructor
    · rintro h rfl
      obtain ⟨rfl, rfl⟩ := Prod.mk.inj (Option.some.inj hparts)
      have hne := ((h _).mp ⟨List.cons_ne_nil _ _, Nat.zero_le _, rfl⟩).1
      exact (hempty.mp hne).2 rfl
    · intro hpoint text
      have hne : (¬ whole = [] ∨ ¬ fraction = []) ↔ ¬ cs = [] :=
        hempty.trans (and_iff_left hpoint)
      rw [hne]
      exact and_congr_right fun _ => and_congr_right fun _ => eq_comm
  · have hall : ¬ Decimal.Digits (scaled decimals whole fraction) := fun h =>
      hdigits (Decimal.digits_append.mp (Decimal.digits_append.mp h).1)
    have hpoint : cs ≠ ['.'] := by
      rintro rfl
      cases hparts
      exact hdigits ⟨fun c hc => (nomatch hc), fun c hc => (nomatch hc)⟩
    have hne : cs ≠ [] := by
      rintro rfl
      cases hparts
      exact hdigits ⟨fun c hc => (nomatch hc), fun c hc => (nomatch hc)⟩
    have hnumeral : ∀ P : Prop, ¬ (Decimal.Digits whole ∧ Decimal.Digits fraction ∧ P) :=
      fun P h => hdigits ⟨h.1, h.2.1⟩
    simp only [hnumeral, iff_false, hpoint, hne, ne_eq, not_false_eq_true, true_and]
    rcases readBack_cases (scaled decimals whole fraction) with ⟨h, -⟩ | ⟨hsign, hsome⟩ |
      ⟨-, hsign, hnone⟩
    · exact absurd h hall
    · obtain ⟨text, htext⟩ := Option.isSome_iff_exists.mp hsome
      exact ⟨fun h ⟨hminus, hfew, _⟩ => h text ⟨hminus, hfew, htext⟩,
        fun h _ ⟨hminus, hfew, _⟩ => h ⟨hminus, hfew, hsign⟩⟩
    · refine ⟨fun _ ⟨_, _, h⟩ => hsign h, fun _ text ⟨_, _, h⟩ => ?_⟩
      exact nomatch hnone.symm.trans h

theorem minus_not_mem_toString (n : Nat) : '-' ∉ (toString n).toList := by
  intro hmem
  rw [show (toString n).toList = Nat.toDigits 10 n from Nat.toList_repr] at hmem
  exact absurd (Nat.isDigit_of_mem_toDigits (by decide) (by decide) hmem) (by decide)

/-- A zero in front hides the minus. -/
theorem hidden_minus : parseUnits "0-5" 2 = .ok "-500" ∧ ¬ ParsesExactly "0-5" 2 := by
  have hok : parseUnits "0-5" 2 = .ok "-500" := by decide +kernel
  refine ⟨hok, fun hexact => ?_⟩
  obtain ⟨whole, fraction, -, -, -, -, -, htext⟩ := (hexact _).mp hok
  refine minus_not_mem_toString (Decimal.value (whole ++ fraction) *
    10 ^ ((2 : UInt8).toNat - fraction.length)) ?_
  rw [← htext]
  decide

end Go

end MppSdk
