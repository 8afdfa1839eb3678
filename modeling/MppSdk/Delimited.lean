import Mathlib.Data.List.Basic
import Mathlib.Algebra.BigOperators.Group.List.Basic
import Mathlib.Algebra.Ring.Nat

/-! # Fields joined by a separator

Fields that are joined without escaping cannot be told apart in general: a field may hold
the separator.  Where the fields of one of two joined texts are free of it, the number of
separators shows that those of the other are too, so the fields are the same
(`eq_of_intercalate_eq`). -/

namespace Delimited
variable {α : Type} [DecidableEq α] {c : α}

/-- The separators of a joined text are those of its fields and those between them. -/
theorem count_intercalate : ∀ {fields : List (List α)}, fields ≠ [] →
    ([c].intercalate fields).count c + 1 = (fields.map (List.count c)).sum + fields.length := by
  intro fields
  induction fields with
  | nil => exact fun h => absurd rfl h
  | cons field fields ih =>
    intro _
    by_cases hrest : fields = []
    · subst hrest
      simp
    · have ih := ih hrest
      rw [List.intercalate_cons_of_ne_nil hrest, List.count_append, List.count_append,
        List.map_cons, List.sum_cons, List.length_cons, List.count_singleton_self]
      omega

theorem sum_count_eq_zero {fields : List (List α)} :
    (fields.map (List.count c)).sum = 0 ↔ ∀ field ∈ fields, c ∉ field := by
  induction fields with
  | nil => simp
  | cons field fields ih =>
    rw [List.map_cons, List.sum_cons, Nat.add_eq_zero_iff, ih, List.count_eq_zero,
      List.forall_mem_cons]

/-- **Fields free of the separator are determined by the joined text** and their number. -/
theorem eq_of_intercalate_eq {fields fields' : List (List α)} (hfree : ∀ field ∈ fields, c ∉ field)
    (hlength : fields.length = fields'.length)
    (h : [c].intercalate fields = [c].intercalate fields') : fields = fields' := by
  by_cases hnil : fields = []
  · subst hnil
    exact (List.length_eq_zero_iff.mp hlength.symm).symm
  have hnil' : fields' ≠ [] := by
    rintro rfl
    exact hnil (List.length_eq_zero_iff.mp hlength)
  have hnone : (fields.map (List.count c)).sum = 0 := sum_count_eq_zero.mpr hfree
  have hcount : ([c].intercalate fields).count c + 1 = _ := count_intercalate hnil
  have hcount' : ([c].intercalate fields').count c + 1 = _ := count_intercalate hnil'
  have hnone' : (fields'.map (List.count c)).sum = 0 := by
    rw [h] at hcount
    omega
  calc fields = ([c].intercalate fields).splitOn c := (List.splitOn_intercalate c hfree hnil).symm
    _ = ([c].intercalate fields').splitOn c := by rw [h]
    _ = fields' := List.splitOn_intercalate c (sum_count_eq_zero.mp hnone') hnil'

/-- What comes before the first separator is determined, and what comes after it. -/
theorem eq_of_append_cons_eq {rest rest' : List α} : ∀ {field field' : List α}, c ∉ field →
    c ∉ field' → field ++ c :: rest = field' ++ c :: rest' → field = field' ∧ rest = rest' := by
  intro field
  induction field with
  | nil =>
    intro field' _ hfree' h
    cases field' with
    | nil => exact ⟨rfl, (List.cons.inj h).2⟩
    | cons b field' => exact absurd ((List.cons.inj h).1 ▸ List.mem_cons_self) hfree'
  | cons a field ih =>
    intro field' hfree hfree' h
    cases field' with
    | nil => exact absurd ((List.cons.inj h).1 ▸ List.mem_cons_self) hfree
    | cons b field' =>
      obtain ⟨hab, h⟩ := List.cons.inj h
      obtain ⟨hfield, hrest⟩ := ih (fun hc => hfree (List.mem_cons_of_mem a hc))
        (fun hc => hfree' (List.mem_cons_of_mem b hc)) h
      exact ⟨by rw [hab, hfield], hrest⟩

/-- **All fields but the last** are determined if they are free of the separator, whatever
comes last. -/
theorem eq_of_intercalate_append_eq {last last' : List α} : ∀ {fields fields' : List (List α)},
    (∀ field ∈ fields, c ∉ field) → (∀ field ∈ fields', c ∉ field) →
    fields.length = fields'.length →
    [c].intercalate (fields ++ [last]) = [c].intercalate (fields' ++ [last']) →
    fields = fields' ∧ last = last' := by
  intro fields
  induction fields with
  | nil =>
    intro fields' _ _ hlength h
    obtain rfl := List.length_eq_zero_iff.mp hlength.symm
    simpa using h
  | cons field fields ih =>
    intro fields' hfree hfree' hlength h
    cases fields' with
    | nil => cases hlength
    | cons field' fields' =>
      obtain ⟨hfield, hfields⟩ := List.forall_mem_cons.mp hfree
      obtain ⟨hfield', hfields'⟩ := List.forall_mem_cons.mp hfree'
      rw [List.cons_append, List.cons_append, List.intercalate_cons_of_ne_nil (by simp),
        List.intercalate_cons_of_ne_nil (by simp), List.append_assoc, List.append_assoc,
        List.singleton_append, List.singleton_append] at h
      obtain ⟨rfl, hrest⟩ := eq_of_append_cons_eq hfield hfield' h
      obtain ⟨rfl, rfl⟩ := ih hfields hfields' (Nat.succ.inj hlength) hrest
      exact ⟨rfl, rfl⟩

end Delimited
