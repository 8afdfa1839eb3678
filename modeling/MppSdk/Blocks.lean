import Mathlib.Data.List.Basic

/-! # Lines and blocks of a text

A text over any alphabet with a separator is a list of lines, and the runs of its non-empty
lines are its blocks.  A reader that cuts the text at the first two separators in a row and
goes on behind them meets the same blocks (`blocks_append`, `filterMap_blocks`), provided it
takes no notice of empty lines.

`flatMap_eq_iff` compares two readers block by block: where one never yields more than the
other, they yield the same list only if they do on every block. -/

namespace Blocks
variable {α : Type*}

/-- The runs of non-empty lines, with an empty run between two empty lines. -/
def ofLines (lines : List (List α)) : List (List (List α)) := lines.splitOnP List.isEmpty

theorem ofLines_cons_of_ne {line : List α} (h : line ≠ []) (lines : List (List α)) :
    ofLines (line :: lines) = (ofLines lines).modifyHead (line :: ·) := by
  simp [ofLines, List.splitOnP_cons_eq_if_modifyHead, h]

theorem ofLines_nil_cons (lines : List (List α)) : ofLines ([] :: lines) = [] :: ofLines lines := by
  simp [ofLines, List.splitOnP_cons_eq_if_modifyHead]

theorem ofLines_append (before after : List (List α)) :
    ofLines (before ++ [] :: after) = ofLines before ++ ofLines after :=
  List.splitOnP_append_cons before after (by rfl)

/-- No two separators stand together. -/
def Single (sep : α) (text : List α) : Prop := ¬ [sep, sep] <:+: text

theorem Single.suffix {sep : α} {before text : List α} (h : Single sep (before ++ text)) :
    Single sep text :=
  fun hin => h (hin.trans (List.suffix_append before text).isInfix)

theorem Single.head {sep : α} {before text : List α} (h : Single sep (before ++ sep :: text)) :
    text.head? ≠ some sep := by
  intro hhead
  cases text with
  | nil => cases hhead
  | cons c cs =>
    obtain rfl := Option.some.inj hhead
    exact h ⟨before, cs, by simp⟩

theorem single_cons {sep c : α} {text : List α} (htext : Single sep text)
    (hc : ¬ (c = sep ∧ text.head? = some sep)) : Single sep (c :: text) := by
  intro hin
  rcases List.infix_cons_iff.mp hin with hpre | hin
  · cases text with
    | nil => simp at hpre
    | cons d text =>
      obtain ⟨rfl, rfl, -⟩ : sep = c ∧ sep = d ∧ True := by simpa using hpre
      exact hc ⟨rfl, rfl⟩
  · exact htext hin

variable [DecidableEq α]

/-- The blocks of a text whose lines end at `sep`. -/
def blocks (sep : α) (text : List α) : List (List (List α)) := ofLines (text.splitOn sep)

/-- The text up to the first two separators in a row and the text behind them. -/
def boundary (sep : α) : List α → Option (List α × List α)
  | [] => none
  | c :: cs =>
      if c = sep ∧ cs.head? = some sep then some ([], cs.tail)
      else (boundary sep cs).map fun cut => (c :: cut.1, cut.2)

theorem boundary_eq_none {sep : α} : ∀ {text : List α}, boundary sep text = none → Single sep text
  | [], _ => fun h => by simpa [List.eq_nil_iff_length_eq_zero] using h.length_le
  | c :: cs, h => by
      unfold boundary at h
      split at h
      · cases h
      · next hc => exact single_cons (boundary_eq_none (by simpa using h)) hc

theorem boundary_eq_some {sep : α} : ∀ {text block rest : List α},
    boundary sep text = some (block, rest) → text = block ++ sep :: sep :: rest ∧ Single sep block
  | [], _, _, h => nomatch h
  | c :: cs, block, rest, h => by
      unfold boundary at h
      split at h
      · next hc =>
        obtain ⟨rfl, rfl⟩ := Prod.mk.inj (Option.some.inj h)
        obtain ⟨rfl, hhead⟩ := hc
        cases cs with
        | nil => cases hhead
        | cons d cs =>
          obtain rfl := Option.some.inj hhead
          exact ⟨rfl, boundary_eq_none rfl⟩
      · next hc =>
        obtain ⟨⟨block', rest'⟩, hcut, heq⟩ := Option.map_eq_some_iff.mp h
        obtain ⟨rfl, rfl⟩ := Prod.mk.inj heq
        obtain ⟨rfl, hsingle⟩ := boundary_eq_some hcut
        refine ⟨rfl, single_cons hsingle fun ⟨hsep, hhead⟩ => hc ⟨hsep, ?_⟩⟩
        cases block' with
        | nil => cases hhead
        | cons d block' => exact hhead

/-- Two separators in a row end a block. -/
theorem blocks_append (sep : α) (block rest : List α) :
    blocks sep (block ++ sep :: sep :: rest) = blocks sep block ++ blocks sep rest := by
  have hlines : (sep :: rest).splitOn sep = [] :: rest.splitOn sep :=
    List.splitOn_append_cons_self [] rest
  rw [blocks, List.splitOn_append_cons_self, hlines, ofLines_append]
  rfl

/-- A text that starts no line break and has no two together is one block, perhaps with an
empty line behind it. -/
theorem blocks_of_single {sep : α} (text : List α) (hsingle : Single sep text)
    (hhead : text.head? ≠ some sep) :
    ∃ behind, (behind = [] ∨ behind = [[]]) ∧
      blocks sep text = (text.splitOn sep).filter (· ≠ []) :: behind := by
  by_cases hsep : sep ∈ text
  · obtain ⟨line, rest, rfl, hline⟩ := List.eq_append_cons_of_mem hsep
    have hne : line ≠ [] := by
      rintro rfl
      exact hhead rfl
    obtain ⟨behind, hbehind, hblocks⟩ := blocks_of_single rest
      ((List.append_cons line sep rest ▸ hsingle).suffix) hsingle.head
    refine ⟨behind, hbehind, ?_⟩
    rw [blocks, List.splitOn_append_cons_self_of_not_mem hline, ofLines_cons_of_ne hne]
    rw [← blocks, hblocks]
    simp [hne]
  · rw [blocks, List.splitOn_eq_singleton hsep]
    by_cases hne : text = []
    · subst hne
      exact ⟨[[]], Or.inr rfl, rfl⟩
    · exact ⟨[], Or.inl rfl, by simp [ofLines, List.splitOnP_cons_eq_if_modifyHead, hne]⟩
termination_by text.length
decreasing_by
  subst_vars
  simp only [List.length_append, List.length_cons]
  omega

/-- A reader that ignores empty lines, and yields nothing from no lines, reads a text without
two separators in a row as a whole. -/
theorem filterMap_blocks {ε : Type*} {sep : α} {read : List (List α) → Option ε} {text : List α}
    (hignores : ∀ lines, read lines = read (lines.filter (· ≠ []))) (hnil : read [] = none)
    (hsingle : Single sep text) :
    (blocks sep text).filterMap read = (read (text.splitOn sep)).toList := by
  have hblock : ∀ text : List α, Single sep text → text.head? ≠ some sep →
      (blocks sep text).filterMap read = (read (text.splitOn sep)).toList := by
    intro text hsingle hhead
    obtain ⟨behind, hbehind, hblocks⟩ := blocks_of_single text hsingle hhead
    rw [hblocks, hignores (text.splitOn sep), List.filterMap_cons]
    rcases hbehind with rfl | rfl <;>
      cases read ((text.splitOn sep).filter (· ≠ [])) <;> simp [hnil]
  by_cases hhead : text.head? = some sep
  · obtain ⟨rest, rfl⟩ : ∃ rest, text = sep :: rest := by
      cases text with
      | nil => cases hhead
      | cons c cs => exact ⟨cs, by rw [Option.some.inj hhead]⟩
    have hlines : (sep :: rest).splitOn sep = [] :: rest.splitOn sep :=
      List.splitOn_append_cons_self [] rest
    have hafter : Single sep ([] ++ sep :: rest) := hsingle
    have hrest := hblock rest (List.append_cons [] sep rest ▸ hafter).suffix hafter.head
    rw [blocks, hlines, ofLines_nil_cons, List.filterMap_cons, hnil]
    rw [hignores ([] :: _), List.filter_cons_of_neg (by simp), ← hignores]
    exact hrest
  · exact hblock text hsingle hhead

theorem mem_of_mem_splitOn {sep c : α} {line : List α} (hc : c ∈ line) :
    ∀ {text : List α}, line ∈ text.splitOn sep → c ∈ text := by
  intro text
  induction text generalizing line with
  | nil =>
    intro hline
    obtain rfl : line = [] := by simpa using hline
    exact hc
  | cons d text ih =>
    intro hline
    rw [List.splitOn_cons_eq_if_modifyHead] at hline
    split at hline
    · rcases List.mem_cons.mp hline with rfl | hline
      · cases hc
      · exact List.mem_cons_of_mem d (ih hc hline)
    · cases hlines : text.splitOn sep with
      | nil => exact absurd hlines (List.splitOn_ne_nil sep text)
      | cons first lines =>
        rw [hlines, List.modifyHead_cons] at hline
        rcases List.mem_cons.mp hline with rfl | hline
        · rcases List.mem_cons.mp hc with rfl | hc
          · exact List.mem_cons_self
          · exact List.mem_cons_of_mem d (ih hc (hlines ▸ List.mem_cons_self))
        · exact List.mem_cons_of_mem d (ih hc (hlines ▸ List.mem_cons_of_mem first hline))

/-- Lines that each end at a separator are the lines of their text, with nothing behind. -/
theorem splitOn_flatMap {sep : α} {lines : List (List α)} (h : ∀ line ∈ lines, sep ∉ line) :
    (lines.flatMap (· ++ [sep])).splitOn sep = lines ++ [[]] := by
  induction lines with
  | nil => rfl
  | cons line lines ih =>
    obtain ⟨hline, hlines⟩ := List.forall_mem_cons.mp h
    have htext : (line :: lines).flatMap (· ++ [sep]) =
        line ++ sep :: lines.flatMap (· ++ [sep]) := by
      rw [List.flatMap_cons, List.append_assoc, List.singleton_append]
    rw [htext, List.splitOn_append_cons_self_of_not_mem hline, ih hlines, List.cons_append]

end Blocks

theorem length_flatMap_le {β ε : Type*} {f g : β → List ε} {xs : List β}
    (hle : ∀ x ∈ xs, (f x).length ≤ (g x).length) :
    (xs.flatMap f).length ≤ (xs.flatMap g).length := by
  induction xs with
  | nil => exact Nat.le_refl 0
  | cons x xs ih =>
    obtain ⟨hx, hxs⟩ := List.forall_mem_cons.mp hle
    rw [List.flatMap_cons, List.flatMap_cons, List.length_append, List.length_append]
    exact Nat.add_le_add hx (ih hxs)

/-- Of two readings of which one never yields more, both yield the same of a whole list exactly
when they do of each of its elements. -/
theorem flatMap_eq_iff {β ε : Type*} {f g : β → List ε} {xs : List β}
    (hle : ∀ x ∈ xs, (f x).length ≤ (g x).length) :
    xs.flatMap g = xs.flatMap f ↔ ∀ x ∈ xs, g x = f x := by
  induction xs with
  | nil => simp
  | cons x xs ih =>
    obtain ⟨hx, hxs⟩ := List.forall_mem_cons.mp hle
    rw [List.flatMap_cons, List.flatMap_cons, List.forall_mem_cons, ← ih hxs]
    constructor
    · intro h
      have htotal := congrArg List.length h
      have hrest := length_flatMap_le hxs
      simp only [List.length_append] at htotal
      exact List.append_inj h (by omega)
    · rintro ⟨hx, hxs⟩
      rw [hx, hxs]
