import MppSdk.ParseExact

/-! # Exactness of Python's `parse_units`

Python reads the moved characters back with `int`, which takes much more than digits: white
space around them, a sign, underscores between digits and the digits of any script, but no more
than 4300 of them.  So `parse_units` is exact on an amount unless it is a lone point, unless such
an integer stands behind the zeros in front, or unless its base units are too long
(`exactLiterals_iff`). -/

namespace MppSdk
namespace Py

/-- The characters that are read back as an integer. -/
def scaled (decimals : Nat) (whole fraction : List Char) : List Char :=
  whole ++ fraction ++ List.replicate (decimals - fraction.length) '0'

/-- `parse_units` returns the text of the base units of the decimal numerals with few enough
fraction digits, white space around them aside, and nothing else. -/
def ParsesExactly (amount : String) (decimals : Nat) : Prop :=
  ∀ text, parseUnits amount decimals = .ok text ↔ ∃ whole fraction,
    Go.pointParts (strip amount) = some (whole, fraction) ∧ Decimal.Digits whole ∧
      Decimal.Digits fraction ∧ (whole ≠ [] ∨ fraction ≠ []) ∧ fraction.length ≤ decimals ∧
      text = toString (Decimal.value (whole ++ fraction) * 10 ^ (decimals - fraction.length))

/-! ## The literals of `int` -/

/-- White space, a sign or none, groups of digits of any script with single underscores between
them, at most 4300 digits in all, and white space. -/
def IntLiteral (cs : List Char) : Prop :=
  ∃ before sign groups after,
    cs.map toAscii = before ++ (sign ++ ['_'].intercalate groups) ++ after ∧
      (∀ c ∈ before, isAsciiSpace c) ∧ (∀ c ∈ after, isAsciiSpace c) ∧
      (sign = [] ∨ sign = ['+'] ∨ sign = ['-']) ∧
      groups ≠ [] ∧ (∀ g ∈ groups, g ≠ [] ∧ Decimal.Digits g) ∧ groups.flatten.length ≤ 4300

/-- What a trim takes away. -/
theorem exists_trimmed (p : Char → Bool) (cs : List Char) : ∃ before after,
    cs = before ++ trimMatches p cs ++ after ∧ (∀ c ∈ before, p c) ∧ ∀ c ∈ after, p c := by
  have hfront : cs.takeWhile p ++ cs.dropWhile p = cs := List.takeWhile_append_dropWhile
  have hback := List.takeWhile_append_dropWhile (p := p) (l := (cs.dropWhile p).reverse)
  have hrest : cs.dropWhile p = trimMatches p cs ++
      ((cs.dropWhile p).reverse.takeWhile p).reverse := by
    have h := congrArg List.reverse hback
    rw [List.reverse_append, List.reverse_reverse] at h
    exact h.symm
  refine ⟨cs.takeWhile p, ((cs.dropWhile p).reverse.takeWhile p).reverse, ?_, ?_, ?_⟩
  · rw [List.append_assoc, ← hrest, hfront]
  · exact fun c hc => List.mem_takeWhile_imp hc
  · exact fun c hc => List.mem_takeWhile_imp (List.mem_reverse.mp hc)

/-- What stands between characters that are trimmed, when it starts and ends with others. -/
theorem trimMatches_between {p : Char → Bool} {before cs after : List Char}
    (hbefore : ∀ c ∈ before, p c) (hafter : ∀ c ∈ after, p c) (hne : cs ≠ [])
    (hhead : ∀ c, cs.head? = some c → p c = false)
    (hlast : ∀ c, cs.getLast? = some c → p c = false) :
    trimMatches p (before ++ cs ++ after) = cs := by
  have hfront : (before ++ cs ++ after).dropWhile p = cs ++ after := by
    obtain ⟨c, rest, rfl⟩ := List.exists_cons_of_ne_nil hne
    rw [List.append_assoc, List.dropWhile_append_of_pos hbefore]
    exact List.dropWhile_cons_of_neg (by simp [hhead c rfl])
  have hback : (cs ++ after).reverse.dropWhile p = cs.reverse := by
    obtain ⟨c, rest, hcs⟩ := List.exists_cons_of_ne_nil (List.reverse_ne_nil_iff.mpr hne)
    have hc : p c = false := by
      refine hlast c ?_
      rw [List.getLast?_eq_head?_reverse, hcs]
      rfl
    rw [List.reverse_append,
      List.dropWhile_append_of_pos fun c hc => hafter c (List.mem_reverse.mp hc), hcs]
    exact List.dropWhile_cons_of_neg (by simp [hc])
  rw [trimMatches, hfront, hback, List.reverse_reverse]

theorem exists_splitSign (cs : List Char) : ∃ sign,
    cs = sign ++ (splitSign cs).2 ∧ (sign = [] ∨ sign = ['+'] ∨ sign = ['-']) := by
  unfold splitSign
  split
  · exact ⟨['-'], rfl, Or.inr (Or.inr rfl)⟩
  · exact ⟨['+'], rfl, Or.inr (Or.inl rfl)⟩
  · exact ⟨[], rfl, Or.inl rfl⟩

/-- The digits behind a sign. -/
theorem splitSign_append {sign cs : List Char}
    (hsign : sign = [] ∨ sign = ['+'] ∨ sign = ['-']) (hhead : ∃ c, cs.head? = some c ∧ c.isDigit) :
    (splitSign (sign ++ cs)).2 = cs := by
  obtain ⟨c, hc, hdigit⟩ := hhead
  rcases hsign with rfl | rfl | rfl
  · unfold splitSign
    split
    · next ds heq =>
      rw [show cs = '-' :: ds from heq] at hc
      obtain rfl := Option.some.inj hc
      exact absurd hdigit (by decide)
    · next ds heq =>
      rw [show cs = '+' :: ds from heq] at hc
      obtain rfl := Option.some.inj hc
      exact absurd hdigit (by decide)
    · rfl
  · rfl
  · rfl

/-- The first and the last character of digit groups are digits. -/
theorem intercalate_ends {groups : List (List Char)} (hne : groups ≠ [])
    (hgroups : ∀ g ∈ groups, g ≠ [] ∧ Decimal.Digits g) :
    (∃ c, (['_'].intercalate groups).head? = some c ∧ c.isDigit) ∧
      ∃ c, (['_'].intercalate groups).getLast? = some c ∧ c.isDigit := by
  induction groups with
  | nil => exact absurd rfl hne
  | cons g groups ih =>
    obtain ⟨⟨hg, hdigits⟩, hrest⟩ := List.forall_mem_cons.mp hgroups
    obtain ⟨c, cs, rfl⟩ := List.exists_cons_of_ne_nil hg
    rcases groups with _ | ⟨g', groups⟩
    · rw [List.intercalate_singleton]
      refine ⟨⟨c, rfl, hdigits c List.mem_cons_self⟩, _,
        List.getLast?_eq_some_getLast (List.cons_ne_nil c cs), hdigits _ (List.getLast_mem _)⟩
    · obtain ⟨-, last, hlast, hlastDigit⟩ := ih (List.cons_ne_nil _ _) hrest
      rw [List.intercalate_cons_cons]
      refine ⟨⟨c, rfl, hdigits c List.mem_cons_self⟩, last, ?_, hlastDigit⟩
      rw [List.getLast?_append, List.getLast?_append, hlast]
      rfl

/-- **What `int` reads.** -/
theorem int_isSome {cs : List Char} : (int cs).isSome ↔ IntLiteral cs := by
  unfold int
  constructor
  · intro h
    obtain ⟨before, after, htext, hbefore, hafter⟩ :=
      exists_trimmed isAsciiSpace (cs.map toAscii)
    obtain ⟨sign, hsplit, hsign⟩ := exists_splitSign (trimMatches isAsciiSpace (cs.map toAscii))
    rcases hsigned : splitSign (trimMatches isAsciiSpace (cs.map toAscii)) with ⟨i, ds⟩
    simp only [hsigned] at h hsplit
    have hjoin : ['_'].intercalate (ds.splitOn '_') = ds := List.intercalate_splitOn '_'
    by_cases hbad : [] ∈ ds.splitOn '_' ∨ 4300 < (ds.splitOn '_').flatten.length
    · rw [if_pos hbad] at h
      cases h
    · rw [if_neg hbad, Option.isSome_map] at h
      obtain ⟨value, hvalue⟩ := Option.isSome_iff_exists.mp h
      have hdigits : Decimal.Digits (ds.splitOn '_').flatten := (digitsValue_eq_some.mp hvalue).1
      push Not at hbad
      refine ⟨before, sign, ds.splitOn '_', after, ?_, hbefore, hafter, hsign,
        List.splitOn_ne_nil _ _, fun g hg => ⟨?_, ?_⟩, hbad.2⟩
      · rw [hjoin, ← hsplit]
        exact htext
      · rintro rfl
        exact hbad.1 hg
      · exact fun c hc => hdigits c (List.mem_flatten.mpr ⟨g, hg, hc⟩)
  · rintro ⟨before, sign, groups, after, htext, hbefore, hafter, hsign, hne, hgroups, hlength⟩
    obtain ⟨hhead, last, hlast, hlastDigit⟩ := intercalate_ends hne hgroups
    have hspace : ∀ c : Char, c.isDigit → isAsciiSpace c = false :=
      fun c hc => (Numeral.isSpace_digit hc).2.2.2
    have htrim : trimMatches isAsciiSpace (cs.map toAscii) = sign ++ ['_'].intercalate groups := by
      rw [htext]
      refine trimMatches_between hbefore hafter ?_ ?_ ?_
      · intro hnil
        rw [(List.append_eq_nil_iff.mp hnil).2] at hlast
        cases hlast
      · intro c hc
        obtain ⟨first, hfirst, hdigit⟩ := hhead
        rcases hsign with rfl | rfl | rfl
        · rw [List.nil_append, hfirst] at hc
          exact Option.some.inj hc ▸ hspace first hdigit
        · obtain rfl : '+' = c := Option.some.inj hc
          rfl
        · obtain rfl : '-' = c := Option.some.inj hc
          rfl
      · intro c hc
        rw [List.getLast?_append, hlast] at hc
        exact (Option.some.inj hc) ▸ hspace last hlastDigit
    have hsplit : (['_'].intercalate groups).splitOn '_' = groups :=
      List.splitOn_intercalate '_' (fun g hg hmem => (hgroups g hg).2.ne rfl _ hmem rfl) hne
    have hflatten : Decimal.Digits groups.flatten := by
      intro c hc
      obtain ⟨g, hg, hc⟩ := List.mem_flatten.mp hc
      exact (hgroups g hg).2 c hc
    have hbad : ¬ ([] ∈ groups ∨ 4300 < groups.flatten.length) := by
      rintro (hnil | hlong)
      · exact (hgroups [] hnil).1 rfl
      · omega
    simp only [htrim, splitSign_append hsign hhead, hsplit, if_neg hbad,
      Numeral.digitsValue_eq hflatten, Option.map_some, Option.isSome_some]

/-! ## The exact condition -/

/-- Something else than digits that `int` takes for an integer: the text does not start with a
minus, but its characters, moved to base units and without the zeros in front, are a literal. -/
def Disguised (decimals : Nat) (cs : List Char) : Prop :=
  cs.head? ≠ some '-' ∧ ∃ whole fraction, Go.pointParts cs = some (whole, fraction) ∧
    fraction.length ≤ decimals ∧ ¬ (Decimal.Digits whole ∧ Decimal.Digits fraction) ∧
    IntLiteral (trimZeros (scaled decimals whole fraction))

/-- A numeral whose base units have more than 4300 digits. -/
def TooLong (decimals : Nat) (cs : List Char) : Prop :=
  ∃ whole fraction, Go.pointParts cs = some (whole, fraction) ∧ Decimal.Digits whole ∧
    Decimal.Digits fraction ∧ fraction.length ≤ decimals ∧
    4300 < (trimZeros (scaled decimals whole fraction)).length

/-- How the moved characters are read back. -/
def readBack (cs : List Char) : Option String :=
  (int (if trimZeros cs = [] then ['0'] else trimZeros cs)).map toString

/-- A literal that is digits has at most 4300 of them. -/
theorem readBack_digits {cs : List Char} (h : Decimal.Digits cs) :
    readBack cs = if (trimZeros cs).length ≤ 4300 then some (toString (Decimal.value cs))
      else none := by
  have hvalue : Decimal.value (trimZeros cs) = Decimal.value cs := Decimal.value_dropWhile cs
  unfold readBack
  by_cases hnil : trimZeros cs = []
  · rw [if_pos hnil, ← hvalue, hnil]
    rfl
  · rw [if_neg hnil, Numeral.int_digits (h.dropWhile _) hnil, hvalue]
    split <;> rfl

/-- When `parse_units` succeeds. -/
theorem parseUnits_eq_ok {amount : String} {decimals : Nat} {text : String} :
    parseUnits amount decimals = .ok text ↔ strip amount ≠ [] ∧
      (strip amount).head? ≠ some '-' ∧ ∃ whole fraction,
        Go.pointParts (strip amount) = some (whole, fraction) ∧ fraction.length ≤ decimals ∧
          readBack (scaled decimals whole fraction) = some text := by
  have hzero : ∀ whole fraction : List Char, trimZeros ((if whole = [] then ['0'] else whole) ++
      fraction ++ List.replicate ((decimals : Int) - fraction.length).toNat '0') =
        trimZeros (scaled decimals whole fraction) := by
    intro whole fraction
    have hpadding : ((decimals : Int) - fraction.length).toNat = decimals - fraction.length := by
      omega
    rw [hpadding]
    by_cases hnil : whole = []
    · rw [if_pos hnil, hnil]
      rfl
    · rw [if_neg hnil]
      rfl
  simp only [parseUnits, Go.pointParts]
  generalize strip amount = cs
  by_cases hne : cs = []
  · rw [if_pos hne]
    exact iff_of_false (by rintro ⟨⟩) fun h => h.1 hne
  by_cases hminus : cs.head? = some '-'
  · rw [if_neg hne, if_pos hminus]
    exact iff_of_false (by rintro ⟨⟩) fun h => h.2.1 hminus
  rw [if_neg hne, if_neg hminus]
  simp only [ne_eq, hne, hminus, not_false_eq_true, true_and]
  have hparts := List.splitOn_ne_nil '.' cs
  rcases hsplit : cs.splitOn '.' with _ | ⟨whole, _ | ⟨fraction, _ | ⟨third, rest⟩⟩⟩
  · exact absurd hsplit hparts
  · rw [if_neg (by simp), show [whole].headD [] = whole from rfl,
      show [whole].getD 1 [] = ([] : List Char) from rfl, if_neg (by simp), hzero whole []]
    have hparts : (∃ w f, some (whole, []) = some (w, f) ∧ f.length ≤ decimals ∧
        readBack (scaled decimals w f) = some text) ↔
          readBack (scaled decimals whole []) = some text := by
      refine ⟨?_, fun h => ⟨whole, [], rfl, Nat.zero_le _, h⟩⟩
      rintro ⟨_, _, heq, -, h⟩
      cases heq
      exact h
    rw [hparts, readBack]
    split
    · next val hval =>
      rw [hval, Option.map_some, Option.some.injEq]
      exact ⟨Except.ok.inj, congrArg Except.ok⟩
    · next hnone =>
      rw [hnone]
      exact iff_of_false (by rintro ⟨⟩) (by rintro ⟨⟩)
  · rw [if_neg (by simp), show [whole, fraction].headD [] = whole from rfl,
      show [whole, fraction].getD 1 [] = fraction from rfl, hzero whole fraction]
    have hparts : (∃ w f, some (whole, fraction) = some (w, f) ∧ f.length ≤ decimals ∧
        readBack (scaled decimals w f) = some text) ↔ fraction.length ≤ decimals ∧
          readBack (scaled decimals whole fraction) = some text := by
      refine ⟨?_, fun h => ⟨whole, fraction, rfl, h⟩⟩
      rintro ⟨_, _, heq, h⟩
      cases heq
      exact h
    rw [hparts, readBack]
    by_cases hmany : (decimals : Int) < fraction.length
    · rw [if_pos hmany]
      refine iff_of_false (by rintro ⟨⟩) ?_
      omega
    · rw [if_neg hmany, and_iff_right (show fraction.length ≤ decimals by omega)]
      split
      · next val hval =>
        rw [hval, Option.map_some, Option.some.injEq]
        exact ⟨Except.ok.inj, congrArg Except.ok⟩
      · next hnone =>
        rw [hnone]
        exact iff_of_false (by rintro ⟨⟩) (by rintro ⟨⟩)
  · rw [if_pos (by simp)]
    refine iff_of_false (by rintro ⟨⟩) ?_
    rintro ⟨_, _, hpoints, -⟩
    cases hpoints

/-- A lone point is taken for zero. -/
theorem not_exactly_point {amount : String} {decimals : Nat} (h : strip amount = ['.']) :
    ¬ ParsesExactly amount decimals := by
  intro hexact
  have hzeros : trimZeros (scaled decimals [] []) = [] :=
    List.dropWhile_eq_nil_iff.mpr fun c hc => decide_eq_true (List.eq_of_mem_replicate hc)
  have hread : readBack (scaled decimals [] []) = some "0" := by
    rw [readBack, if_pos hzeros]
    rfl
  have hok : parseUnits amount decimals = .ok "0" := by
    refine parseUnits_eq_ok.mpr ⟨?_, ?_, [], [], ?_, Nat.zero_le _, hread⟩
    · rw [h]
      exact List.cons_ne_nil _ _
    · rw [h]
      decide
    · rw [h]
      rfl
  obtain ⟨whole, fraction, hparts, -, -, hsome, -⟩ := (hexact _).mp hok
  rw [h] at hparts
  obtain ⟨rfl, rfl⟩ := Prod.mk.inj (Option.some.inj (show some ([], []) = some _ from hparts))
  simp at hsome

/-- **Exact condition for `parse_units`.**  It succeeds on the decimal numerals with few enough
fraction digits and nothing else, with the text of their base units, unless the amount is a lone
point, hides another integer literal of Python, or is too long. -/
theorem exactLiterals_iff (amount : String) (decimals : Nat) :
    ParsesExactly amount decimals ↔ strip amount ≠ ['.'] ∧ ¬ Disguised decimals (strip amount) ∧
      ¬ TooLong decimals (strip amount) := by
  by_cases hpoint : strip amount = ['.']
  · exact ⟨fun h => absurd h (not_exactly_point hpoint), fun h => absurd hpoint h.1⟩
  unfold ParsesExactly Disguised TooLong
  simp only [parseUnits_eq_ok, ne_eq, hpoint, not_false_eq_true, true_and]
  generalize strip amount = cs at hpoint
  rcases hparts : Go.pointParts cs with _ | ⟨whole, fraction⟩
  · simp
  have hsome : ∀ {P : List Char → List Char → Prop},
      (∃ w f, some (whole, fraction) = some (w, f) ∧ P w f) ↔ P whole fraction := by
    intro P
    exact ⟨fun ⟨_, _, rfl, h⟩ => h, fun h => ⟨whole, fraction, rfl, h⟩⟩
  simp only [hsome]
  by_cases hdigits : Decimal.Digits whole ∧ Decimal.Digits fraction
  · obtain ⟨hempty, hminus⟩ := Go.ends_of_digits hparts hdigits.1 hdigits.2
    have hall : Decimal.Digits (scaled decimals whole fraction) := Decimal.digits_append.mpr
      ⟨Decimal.digits_append.mpr hdigits, Decimal.digits_zeros _⟩
    have hne : (¬ whole = [] ∨ ¬ fraction = []) ↔ ¬ cs = [] := hempty.trans (and_iff_left hpoint)
    have hvalue : Decimal.value (scaled decimals whole fraction) =
        Decimal.value (whole ++ fraction) * 10 ^ (decimals - fraction.length) := by
      rw [scaled, Decimal.value_pad]
    rw [readBack_digits hall, hvalue]
    simp only [hdigits, hne, hminus, not_false_eq_true, not_true_eq_false, and_self, true_and,
      false_and, and_false, not_and, Nat.not_lt]
    by_cases hlength : (trimZeros (scaled decimals whole fraction)).length ≤ 4300
    · simp only [hlength, if_true, Option.some.injEq, imp_true_iff, iff_true]
      intro text
      exact and_congr_right fun _ => and_congr_right fun _ => eq_comm
    · have hne : cs ≠ [] := by
        rintro rfl
        obtain ⟨hwhole, hfraction⟩ := Prod.mk.inj (Option.some.inj hparts)
        have hzeros : trimZeros (scaled decimals whole fraction) = [] := by
          rw [← hwhole, ← hfraction]
          exact List.dropWhile_eq_nil_iff.mpr fun c hc => decide_eq_true (List.eq_of_mem_replicate hc)
        rw [hzeros] at hlength
        exact hlength (Nat.zero_le _)
      simp only [hlength, if_false, reduceCtorEq, and_false, false_iff, hne, not_false_eq_true,
        true_and, not_and, imp_false]
      constructor
      · intro h hfew
        exact h _ hfew rfl
      · intro h text hfew
        exact absurd hfew h
  · have hne : cs ≠ [] := by
      rintro rfl
      obtain ⟨rfl, rfl⟩ := Prod.mk.inj (Option.some.inj hparts)
      exact hdigits ⟨fun c hc => (nomatch hc), fun c hc => (nomatch hc)⟩
    have hnumeral : ∀ P : Prop, ¬ (Decimal.Digits whole ∧ Decimal.Digits fraction ∧ P) :=
      fun P h => hdigits ⟨h.1, h.2.1⟩
    have hread : (∃ text, readBack (scaled decimals whole fraction) = some text) ↔
        IntLiteral (trimZeros (scaled decimals whole fraction)) := by
      have hzeros : trimZeros (scaled decimals whole fraction) ≠ [] := by
        intro hnil
        have hall : Decimal.Digits (scaled decimals whole fraction) := by
          intro c hc
          have hzero := List.dropWhile_eq_nil_iff.mp hnil c hc
          rw [of_decide_eq_true hzero]
          rfl
        exact hdigits (Decimal.digits_append.mp (Decimal.digits_append.mp hall).1)
      rw [← int_isSome, readBack, if_neg hzeros, ← Option.isSome_iff_exists, Option.isSome_map]
    simp only [hnumeral, iff_false, hne, not_false_eq_true, true_and, and_true, hdigits, ← hread]
    constructor
    · rintro h ⟨hminus, hfew, text, htext⟩
      exact h text ⟨hminus, hfew, htext⟩
    · rintro h text ⟨hminus, hfew, htext⟩
      exact h ⟨hminus, hfew, text, htext⟩

/-- A zero in front hides the minus. -/
theorem hidden_negative : parseUnits "0-5" 2 = .ok "-500" ∧ ¬ ParsesExactly "0-5" 2 := by
  have hok : parseUnits "0-5" 2 = .ok "-500" := by decide +kernel
  refine ⟨hok, fun hexact => ?_⟩
  obtain ⟨whole, fraction, -, -, -, -, -, htext⟩ := (hexact _).mp hok
  refine Go.minus_not_mem_toString (Decimal.value (whole ++ fraction) * 10 ^ (2 - fraction.length)) ?_
  rw [← htext]
  decide

end Py
end MppSdk
