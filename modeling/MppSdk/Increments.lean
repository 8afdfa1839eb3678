import Mathlib.Algebra.BigOperators.Fin
import Mathlib.Algebra.Order.BigOperators.Group.Finset
import Mathlib.Combinatorics.Enumerative.DoubleCounting
import Mathlib.Order.Interval.Finset.Nat
import MppSdk.Machine

/-! # Increments of a watermark

A party advances a remote watermark by increments.  It reads its own copy of the watermark,
asks for what it read plus an amount, and raises its copy once it was granted.  The remote
side grants whatever is above its mark, so an increment that reads while another is under
way is granted less than its amount.

`total_iff_alone`: among the runs in which every increment is granted and recorded, those
that raise the mark by all the amounts are exactly those in which no increment reads while
another is under way. -/

namespace Increments

/-- Where an increment stands, and what it read of the copy. -/
inductive Stage : Type
  | waiting
  | begun (base : Nat)
  | recorded (base : Nat)
  | failed
deriving DecidableEq

/-- An increment. -/
structure Claim where
  amount : Nat
  stage : Stage
deriving DecidableEq

namespace Claim

/-- What the increment read. -/
def Read (c : Claim) (base : Nat) : Prop := c.stage = .begun base ∨ c.stage = .recorded base

/-- The values it asks for: those above what it read, up to its amount more. -/
def span (c : Claim) : Finset Nat :=
  match c.stage with
  | .begun base => Finset.Ioc base (base + c.amount)
  | .recorded base => Finset.Ioc base (base + c.amount)
  | _ => ∅

theorem mem_span {c : Claim} {n : Nat} :
    n ∈ c.span ↔ ∃ base, c.Read base ∧ base < n ∧ n ≤ base + c.amount := by
  unfold span Read
  rcases c.stage with _ | base | base | _ <;> simp

end Claim

/-- The copy, the mark, and the increments in the order they were asked for. -/
structure State where
  copy : Nat
  mark : Nat
  claims : List Claim

/-- An increment is asked for, reads, is granted, is recorded, or fails. -/
inductive Event : Type
  | call (amount : Nat)
  | start (i : Nat)
  | accept (i : Nat)
  | record (i : Nat)
  | fail (i : Nat)

namespace State

/-- What an event does; one that does not apply does nothing. -/
def react (s : State) : Event → State
  | .call amount => { s with claims := s.claims ++ [⟨amount, .waiting⟩] }
  | .start i =>
      match s.claims[i]? with
      | some ⟨amount, .waiting⟩ => { s with claims := s.claims.set i ⟨amount, .begun s.copy⟩ }
      | _ => s
  | .accept i =>
      match s.claims[i]? with
      | some ⟨amount, .begun base⟩ =>
          if s.mark < base + amount then { s with mark := base + amount } else s
      | _ => s
  | .record i =>
      match s.claims[i]? with
      | some ⟨amount, .begun base⟩ =>
          if base + amount ≤ s.mark ∧ s.copy < base + amount then
            { s with copy := base + amount, claims := s.claims.set i ⟨amount, .recorded base⟩ }
          else s
      | _ => s
  | .fail i =>
      match s.claims[i]? with
      | some ⟨amount, .waiting⟩ => { s with claims := s.claims.set i ⟨amount, .failed⟩ }
      | some ⟨amount, .begun _⟩ => { s with claims := s.claims.set i ⟨amount, .failed⟩ }
      | _ => s

/-- Some increment failed. -/
def Failed (s : State) : Prop := ∃ c ∈ s.claims, c.stage = .failed

/-- Every increment was recorded. -/
def Settled (s : State) : Prop := ∀ c ∈ s.claims, ∃ base, c.stage = .recorded base

/-- The event lets an increment read, or fail instead of reading. -/
def Begins (s : State) : Event → Prop
  | .start i => ∃ amount, s.claims[i]? = some ⟨amount, .waiting⟩
  | .fail i => ∃ amount, s.claims[i]? = some ⟨amount, .waiting⟩
  | _ => False

/-- An increment that begins does so while no other is under way. -/
def Alone (s : State) (e : Event) : Prop :=
  s.Begins e → ∀ c ∈ s.claims, ∀ base, c.stage ≠ .begun base

end State

/-- Increments of a copy and a mark that are at `low` at first. -/
def machine (low : Nat) : Machine State Event where
  init := ⟨low, low, []⟩
  step := State.react

/-! ## What a step can do -/

/-- The events that do something, and what they do. -/
inductive Step (s : State) : Event → State → Prop
  | call (amount : Nat) :
      Step s (.call amount) { s with claims := s.claims ++ [⟨amount, .waiting⟩] }
  | start {i amount : Nat} (hi : s.claims[i]? = some ⟨amount, .waiting⟩) :
      Step s (.start i) { s with claims := s.claims.set i ⟨amount, .begun s.copy⟩ }
  | accept {i amount base : Nat} (hi : s.claims[i]? = some ⟨amount, .begun base⟩)
      (hlt : s.mark < base + amount) : Step s (.accept i) { s with mark := base + amount }
  | record {i amount base : Nat} (hi : s.claims[i]? = some ⟨amount, .begun base⟩)
      (hle : base + amount ≤ s.mark) (hlt : s.copy < base + amount) :
      Step s (.record i)
        { s with copy := base + amount, claims := s.claims.set i ⟨amount, .recorded base⟩ }
  | fail {i : Nat} {c : Claim} (hi : s.claims[i]? = some c)
      (hopen : ∀ base, c.stage ≠ .recorded base) :
      Step s (.fail i) { s with claims := s.claims.set i { c with stage := .failed } }

/-- **What an event can do**: a step, or nothing. -/
theorem react_cases (s : State) (e : Event) :
    Step s e (s.react e) ∨ s.react e = s ∧ ¬ s.Begins e := by
  cases e with
  | call amount => exact Or.inl (.call amount)
  | start i =>
    rcases hi : s.claims[i]? with _ | ⟨amount, _ | base | base | _⟩
    case some.waiting => exact Or.inl (by simpa [State.react, hi] using Step.start hi)
    all_goals exact Or.inr ⟨by simp [State.react, hi], by simp [State.Begins, hi]⟩
  | accept i =>
    rcases hi : s.claims[i]? with _ | ⟨amount, _ | base | base | _⟩
    case some.begun =>
      by_cases hlt : s.mark < base + amount
      · exact Or.inl (by simpa [State.react, hi, hlt] using Step.accept hi hlt)
      · exact Or.inr ⟨by simp [State.react, hi, hlt], id⟩
    all_goals exact Or.inr ⟨by simp [State.react, hi], id⟩
  | record i =>
    rcases hi : s.claims[i]? with _ | ⟨amount, _ | base | base | _⟩
    case some.begun =>
      by_cases h : base + amount ≤ s.mark ∧ s.copy < base + amount
      · exact Or.inl (by simpa [State.react, hi, h] using Step.record hi h.1 h.2)
      · exact Or.inr ⟨by simp [State.react, hi, h], id⟩
    all_goals exact Or.inr ⟨by simp [State.react, hi], id⟩
  | fail i =>
    rcases hi : s.claims[i]? with _ | ⟨amount, _ | base | base | _⟩
    case some.waiting => exact Or.inl (by simpa [State.react, hi] using Step.fail hi (by simp))
    case some.begun => exact Or.inl (by simpa [State.react, hi] using Step.fail hi (by simp))
    all_goals exact Or.inr ⟨by simp [State.react, hi], by simp [State.Begins, hi]⟩

section Replace
variable {claims : List Claim} {i : Nat} {c c' : Claim}

/-- The claims other than the one that is replaced stay. -/
theorem getElem?_set_of_ne {j : Nat} (hne : i ≠ j) : (claims.set i c')[j]? = claims[j]? := by
  rw [List.getElem?_set, if_neg hne]

theorem getElem?_set_self (hi : claims[i]? = some c) : (claims.set i c')[i]? = some c' := by
  rw [List.getElem?_set, if_pos rfl, if_pos (List.getElem?_eq_some_iff.mp hi).1]

/-- What is asked for stays asked for when a claim grows. -/
theorem exists_span_set (hi : claims[i]? = some c) (hspan : c.span ⊆ c'.span) {n : Nat}
    (h : ∃ d ∈ claims, n ∈ d.span) : ∃ d ∈ claims.set i c', n ∈ d.span := by
  obtain ⟨d, hd, hn⟩ := h
  obtain ⟨j, hj⟩ := List.mem_iff_getElem?.mp hd
  by_cases hij : i = j
  · subst hij
    obtain rfl := Option.some.inj (hi.symm.trans hj)
    exact ⟨c', List.mem_of_getElem? (getElem?_set_self hi), hspan hn⟩
  · exact ⟨d, List.mem_of_getElem? ((getElem?_set_of_ne hij).trans hj), hn⟩

end Replace

/-- A failure stays. -/
theorem Step.failed {s t : State} {e : Event} (h : Step s e t) (hs : s.Failed) : t.Failed := by
  obtain ⟨c, hc, hfailed⟩ := hs
  obtain ⟨j, hj⟩ := List.mem_iff_getElem?.mp hc
  -- the failed claim is none of those an event replaces
  have hkeep : ∀ {i : Nat} {d d' : Claim}, s.claims[i]? = some d → d.stage ≠ .failed →
      c ∈ s.claims.set i d' := by
    intro i d d' hi hd
    have hne : i ≠ j := by
      rintro rfl
      obtain rfl := Option.some.inj (hi.symm.trans hj)
      exact hd hfailed
    exact List.mem_of_getElem? ((getElem?_set_of_ne hne).trans hj)
  cases h with
  | call amount => exact ⟨c, List.mem_append_left _ hc, hfailed⟩
  | start hi => exact ⟨c, hkeep hi (by simp), hfailed⟩
  | accept hi hlt => exact ⟨c, hc, hfailed⟩
  | record hi hle hlt => exact ⟨c, hkeep hi (by simp), hfailed⟩
  | fail hi hopen =>
    exact ⟨_, List.mem_of_getElem? (getElem?_set_self hi), rfl⟩

/-! ## The mark is made of what was asked for -/

/-- The copy is behind the mark, and everything up to the mark was asked for. -/
structure State.Sound (low : Nat) (s : State) : Prop where
  low_le : low ≤ s.copy
  copy_le : s.copy ≤ s.mark
  read_le : ∀ c ∈ s.claims, ∀ base, c.Read base → low ≤ base ∧ base ≤ s.copy
  recorded_le : ∀ c ∈ s.claims, ∀ base, c.stage = .recorded base → base + c.amount ≤ s.copy
  covered : ∀ n, low < n → n ≤ s.mark → ∃ c ∈ s.claims, n ∈ c.span

namespace State.Sound
variable {low : Nat} {s t : State} {e : Event}

theorem init (low : Nat) : (machine low).init.Sound low where
  low_le := Nat.le_refl low
  copy_le := Nat.le_refl low
  read_le _ hc := nomatch hc
  recorded_le _ hc := nomatch hc
  covered n hlt hle := absurd hle (Nat.not_le.mpr hlt)

/-- **A step keeps the mark covered**, unless it fails an increment. -/
theorem step (h : s.Sound low) (hstep : Step s e t) (hok : ¬ t.Failed) : t.Sound low := by
  cases hstep with
  | call amount =>
    refine ⟨h.low_le, h.copy_le, ?_, ?_, ?_⟩
    · intro c hc base hread
      rcases List.mem_append.mp hc with hc | hc
      · exact h.read_le c hc base hread
      · obtain rfl := List.mem_singleton.mp hc
        simp [Claim.Read] at hread
    · intro c hc base hrecorded
      rcases List.mem_append.mp hc with hc | hc
      · exact h.recorded_le c hc base hrecorded
      · obtain rfl := List.mem_singleton.mp hc
        cases hrecorded
    · intro n hlt hle
      obtain ⟨c, hc, hn⟩ := h.covered n hlt hle
      exact ⟨c, List.mem_append_left _ hc, hn⟩
  | start hi =>
    refine ⟨h.low_le, h.copy_le, ?_, ?_, fun n hlt hle => ?_⟩
    · intro c hc base hread
      rcases List.mem_or_eq_of_mem_set hc with hc | rfl
      · exact h.read_le c hc base hread
      · obtain rfl : s.copy = base := by simpa [Claim.Read] using hread
        exact ⟨h.low_le, Nat.le_refl _⟩
    · intro c hc base hrecorded
      rcases List.mem_or_eq_of_mem_set hc with hc | rfl
      · exact h.recorded_le c hc base hrecorded
      · cases hrecorded
    · exact exists_span_set hi (Finset.empty_subset _) (h.covered n hlt hle)
  | @accept i amount base hi hlt =>
    have hmem := List.mem_of_getElem? hi
    have hread := h.read_le _ hmem base (Or.inl rfl)
    have hcopy : s.copy ≤ base + amount := by
      have := h.copy_le
      omega
    refine ⟨h.low_le, hcopy, h.read_le, h.recorded_le, fun n hlow hle => ?_⟩
    -- what is granted anew was asked for by the increment itself
    by_cases hold : n ≤ s.mark
    · exact h.covered n hlow hold
    · refine ⟨_, hmem, Claim.mem_span.mpr ⟨base, Or.inl rfl, ?_, hle⟩⟩
      have := h.copy_le
      omega
  | @record i amount base hi hle hlt =>
    have hmem := List.mem_of_getElem? hi
    have hread := h.read_le _ hmem base (Or.inl rfl)
    have hlow : low ≤ base + amount := Nat.le_trans h.low_le (Nat.le_of_lt hlt)
    refine ⟨hlow, hle, ?_, ?_, fun n hlow hle => ?_⟩
    · intro c hc b hb
      rcases List.mem_or_eq_of_mem_set hc with hc | rfl
      · obtain ⟨hlow, hcopy⟩ := h.read_le c hc b hb
        exact ⟨hlow, Nat.le_trans hcopy (Nat.le_of_lt hlt)⟩
      · obtain rfl : base = b := by simpa [Claim.Read] using hb
        exact ⟨hread.1, Nat.le_add_right base amount⟩
    · intro c hc b hb
      rcases List.mem_or_eq_of_mem_set hc with hc | rfl
      · exact Nat.le_trans (h.recorded_le c hc b hb) (Nat.le_of_lt hlt)
      · obtain rfl : base = b := by simpa using hb
        exact Nat.le_refl _
    · have hsame : (Claim.mk amount (.begun base)).span ⊆ (Claim.mk amount (.recorded base)).span :=
        Finset.Subset.refl _
      exact exists_span_set hi hsame (h.covered n hlow hle)
  | fail hi hopen => exact absurd ⟨_, List.mem_of_getElem? (getElem?_set_self hi), rfl⟩ hok

end State.Sound

/-! ## Increments that are made one at a time -/

/-- No value is asked for twice. -/
def State.Apart (s : State) : Prop :=
  ∀ (i j : Nat) (c d : Claim), i ≠ j → s.claims[i]? = some c → s.claims[j]? = some d →
    Disjoint c.span d.span

/-- Replacing a claim by one that asks for nothing that others do. -/
theorem State.Apart.set {s : State} (h : s.Apart) {i : Nat} {c' : Claim} (copy mark : Nat)
    (hnew : ∀ (j : Nat) (d : Claim), i ≠ j → s.claims[j]? = some d → Disjoint c'.span d.span) :
    State.Apart ⟨copy, mark, s.claims.set i c'⟩ := by
  have hself : ∀ {c : Claim}, (s.claims.set i c')[i]? = some c → c = c' := by
    intro c hc
    rw [List.getElem?_set, if_pos rfl] at hc
    split at hc
    · exact (Option.some.inj hc).symm
    · cases hc
  intro j k c d hne hj hk
  by_cases hij : i = j
  · subst hij
    obtain rfl := hself hj
    exact hnew k d hne ((getElem?_set_of_ne hne).symm.trans hk)
  by_cases hik : i = k
  · subst hik
    obtain rfl := hself hk
    exact (hnew j c hij ((getElem?_set_of_ne hij).symm.trans hj)).symm
  · exact h j k c d hne ((getElem?_set_of_ne hij).symm.trans hj)
      ((getElem?_set_of_ne hik).symm.trans hk)

/-- An increment that reads while no other is under way asks for what no other does. -/
theorem State.Apart.step {low : Nat} {s t : State} {e : Event} (h : s.Apart) (hs : s.Sound low)
    (hstep : Step s e t) (halone : s.Alone e) : t.Apart := by
  cases hstep with
  | call amount =>
    have hnew : ∀ {i : Nat} {c : Claim}, (s.claims ++ [⟨amount, .waiting⟩])[i]? = some c →
        s.claims[i]? = some c ∨ c.span = ∅ := by
      intro i c hi
      rw [List.getElem?_append] at hi
      split at hi
      · exact Or.inl hi
      · obtain rfl := List.mem_singleton.mp (List.mem_of_getElem? hi)
        exact Or.inr rfl
    intro i j c d hne hi hj
    rcases hnew hi with hi | hi
    · rcases hnew hj with hj | hj
      · exact h i j c d hne hi hj
      · exact hj ▸ Finset.disjoint_empty_right _
    · exact hi ▸ Finset.disjoint_empty_left _
  | @start i amount hi =>
    have hnone := halone ⟨amount, hi⟩
    refine h.set s.copy s.mark fun j d _ hj => Finset.disjoint_left.mpr fun n hn hd => ?_
    obtain ⟨b, hread, hlt, -⟩ := Claim.mem_span.mp hn
    obtain rfl : s.copy = b := by simpa [Claim.Read] using hread
    obtain ⟨b, hb, -, hle⟩ := Claim.mem_span.mp hd
    have hd := List.mem_of_getElem? hj
    -- the others are recorded, so what they asked for is behind the copy
    have hrecorded := hs.recorded_le d hd b (hb.resolve_left (hnone d hd b))
    omega
  | accept hi hlt => exact h
  | record hi hle hlt =>
    refine h.set _ s.mark fun j d hne hj => ?_
    have hbegun := h _ j _ d hne hi hj
    exact hbegun
  | fail hi hopen =>
    refine h.set s.copy s.mark fun j d hne hj => ?_
    exact Finset.disjoint_empty_left _

/-! ## Increments that overlap -/

/-- Two increments are under way that read while one of them was, or were granted since. -/
def State.Crossed (s : State) : Prop :=
  ∃ (i j : Nat) (c d : Claim) (b b' : Nat), i ≠ j ∧ s.claims[i]? = some c ∧
    s.claims[j]? = some d ∧ c.Read b ∧ d.Read b' ∧ b' ≤ b ∧ b ≤ s.copy ∧
    (d.stage = .begun b' ∨ b < b' + d.amount) ∧ (c.stage = .begun b ∨ 0 < c.amount)

/-- Reading while another is under way makes two increments overlap. -/
theorem State.Sound.crossed {low : Nat} {s t : State} {e : Event} (h : s.Sound low)
    (hstep : Step s e t) (hok : ¬ t.Failed) (hnot : ¬ s.Alone e) : t.Crossed := by
  unfold State.Alone at hnot
  push Not at hnot
  obtain ⟨hbegins, d, hd, b', hbegun⟩ := hnot
  cases hstep with
  | @start i amount hi =>
    obtain ⟨j, hj⟩ := List.mem_iff_getElem?.mp hd
    have hne : i ≠ j := by
      rintro rfl
      obtain rfl := Option.some.inj (hi.symm.trans hj)
      cases hbegun
    exact ⟨i, j, _, d, s.copy, b', hne, getElem?_set_self hi, (getElem?_set_of_ne hne).trans hj,
      Or.inl rfl, Or.inl hbegun, (h.read_le d hd b' (Or.inl hbegun)).2, Nat.le_refl _,
      Or.inl hbegun, Or.inl rfl⟩
  | fail hi hopen => exact absurd ⟨_, List.mem_of_getElem? (getElem?_set_self hi), rfl⟩ hok
  | _ => exact hbegins.elim

/-- Increments that overlap still do, unless one of them fails. -/
theorem State.Crossed.step {s t : State} {e : Event} (h : s.Crossed) (hstep : Step s e t) :
    t.Crossed ∨ t.Failed := by
  obtain ⟨i, j, c, d, b, b', hne, hi, hj, hc, hd, hle, hcopy, hdopen, hcopen⟩ := h
  cases hstep with
  | call amount =>
    have hkeep : ∀ {k : Nat} {a : Claim}, s.claims[k]? = some a →
        (s.claims ++ [⟨amount, .waiting⟩])[k]? = some a := by
      intro k a hk
      rw [List.getElem?_append_left (List.getElem?_eq_some_iff.mp hk).1]
      exact hk
    exact Or.inl ⟨i, j, c, d, b, b', hne, hkeep hi, hkeep hj, hc, hd, hle, hcopy, hdopen, hcopen⟩
  | @start k amount hk =>
    have hread : ∀ {a : Claim} {l base : Nat}, s.claims[l]? = some a → a.Read base → k ≠ l := by
      rintro a l base hl hread rfl
      obtain rfl := Option.some.inj (hk.symm.trans hl)
      simp [Claim.Read] at hread
    exact Or.inl ⟨i, j, c, d, b, b', hne, (getElem?_set_of_ne (hread hi hc)).trans hi,
      (getElem?_set_of_ne (hread hj hd)).trans hj, hc, hd, hle, hcopy, hdopen, hcopen⟩
  | accept hk hlt => exact Or.inl ⟨i, j, c, d, b, b', hne, hi, hj, hc, hd, hle, hcopy, hdopen, hcopen⟩
  | @record k amount base hk hmark hlt =>
    refine Or.inl ?_
    have hcopy' : b ≤ base + amount := Nat.le_trans hcopy (Nat.le_of_lt hlt)
    by_cases hik : k = i
    · -- the one that read later is recorded
      subst hik
      obtain rfl := Option.some.inj (hk.symm.trans hi)
      obtain rfl : base = b := by simpa [Claim.Read] using hc
      have hpos : 0 < amount := by omega
      exact ⟨k, j, _, d, base, b', hne, getElem?_set_self hk, (getElem?_set_of_ne hne).trans hj,
        Or.inr rfl, hd, hle, hcopy', hdopen, Or.inr hpos⟩
    by_cases hjk : k = j
    · -- the other one is recorded, above what the first read
      subst hjk
      obtain rfl := Option.some.inj (hk.symm.trans hj)
      obtain rfl : base = b' := by simpa [Claim.Read] using hd
      exact ⟨i, k, c, _, b, base, hne, (getElem?_set_of_ne hik).trans hi, getElem?_set_self hk,
        hc, Or.inr rfl, hle, hcopy', Or.inr (Nat.lt_of_le_of_lt hcopy hlt), hcopen⟩
    · exact ⟨i, j, c, d, b, b', hne, (getElem?_set_of_ne hik).trans hi,
        (getElem?_set_of_ne hjk).trans hj, hc, hd, hle, hcopy', hdopen, hcopen⟩
  | fail hk hopen => exact Or.inr ⟨_, List.mem_of_getElem? (getElem?_set_self hk), rfl⟩

/-- Increments that overlap ask for one value twice, once they are recorded. -/
theorem State.Crossed.not_apart {s : State} (h : s.Crossed) (hsettled : s.Settled) : ¬ s.Apart := by
  obtain ⟨i, j, c, d, b, b', hne, hi, hj, hc, hd, hle, -, hdopen, hcopen⟩ := h
  have hrecorded : ∀ {k : Nat} {a : Claim} {base : Nat}, s.claims[k]? = some a →
      a.stage ≠ .begun base := by
    intro k a base hk hbegun
    obtain ⟨base', hbase'⟩ := hsettled a (List.mem_of_getElem? hk)
    rw [hbegun] at hbase'
    cases hbase'
  have hlt := hdopen.resolve_left (hrecorded hj)
  have hpos := hcopen.resolve_left (hrecorded hi)
  intro hapart
  have hb : b + 1 ∈ c.span := Claim.mem_span.mpr ⟨b, hc, by omega, by omega⟩
  have hb' : b + 1 ∈ d.span := Claim.mem_span.mpr ⟨b', hd, by omega, by omega⟩
  exact Finset.disjoint_left.mp (hapart i j c d hne hi hj) hb hb'

/-! ## Counting -/

/-- Finite sets that cover a set have as many elements together as it has exactly if no two
of them meet. -/
theorem sum_card_eq_iff {ι α : Type} [Fintype ι] [DecidableEq α] {u : Finset α}
    {f : ι → Finset α} (hsub : ∀ i, f i ⊆ u) (hcover : ∀ n ∈ u, ∃ i, n ∈ f i) :
    ∑ i, (f i).card = u.card ↔ ∀ i j, i ≠ j → Disjoint (f i) (f j) := by
  -- count for each element the sets it is in
  have hcount : ∑ i, (f i).card = ∑ n ∈ u, (Finset.univ.filter fun i => n ∈ f i).card := by
    refine Eq.trans (Finset.sum_congr rfl fun i _ => ?_)
      (Finset.sum_card_bipartiteAbove_eq_sum_card_bipartiteBelow fun i n => n ∈ f i)
    rw [Finset.bipartiteAbove, Finset.filter_mem_eq_inter, Finset.inter_eq_right.mpr (hsub i)]
  have hpos : ∀ n ∈ u, 1 ≤ (Finset.univ.filter fun i => n ∈ f i).card := by
    intro n hn
    obtain ⟨i, hi⟩ := hcover n hn
    exact Finset.card_pos.mpr ⟨i, Finset.mem_filter.mpr ⟨Finset.mem_univ i, hi⟩⟩
  rw [hcount, Finset.card_eq_sum_ones, eq_comm, Finset.sum_eq_sum_iff_of_le hpos]
  constructor
  · intro h i j hne
    refine Finset.disjoint_left.mpr fun n hi hj => hne ?_
    have hone := Finset.card_le_one.mp (h n (hsub i hi)).symm.le
    exact hone i (by simpa using hi) j (by simpa using hj)
  · intro h n hn
    refine Nat.le_antisymm (hpos n hn) (Finset.card_le_one.mpr fun i hi j hj => ?_)
    by_contra hne
    exact Finset.disjoint_left.mp (h i j hne) (by simpa using hi) (by simpa using hj)

/-- The amounts of the increments. -/
def State.total (s : State) : Nat := (s.claims.map Claim.amount).sum

/-- Once all increments are recorded, the mark has risen by their amounts exactly if no value
was asked for twice. -/
theorem State.Sound.total_iff {low : Nat} {s : State} (h : s.Sound low) (hsettled : s.Settled) :
    s.mark = low + s.total ↔ s.Apart := by
  have hspan : ∀ c ∈ s.claims, c.span ⊆ Finset.Ioc low s.mark ∧ c.span.card = c.amount := by
    intro c hc
    obtain ⟨base, hbase⟩ := hsettled c hc
    have hread := h.read_le c hc base (Or.inr hbase)
    have hrecorded := h.recorded_le c hc base hbase
    have hcopy := h.copy_le
    constructor
    · intro n hn
      obtain ⟨b, hb, hlt, hle⟩ := Claim.mem_span.mp hn
      obtain rfl : base = b := by simpa [Claim.Read, hbase] using hb
      exact Finset.mem_Ioc.mpr ⟨by omega, by omega⟩
    · unfold Claim.span
      rw [hbase]
      simp
  have hsum : ∑ i : Fin s.claims.length, (s.claims.get i).span.card = s.total := by
    rw [State.total, ← Fin.sum_univ_fun_getElem]
    exact Finset.sum_congr rfl fun i _ => (hspan _ (List.get_mem s.claims i)).2
  have hcard : (Finset.Ioc low s.mark).card = s.total ↔ s.mark = low + s.total := by
    have := h.low_le
    have := h.copy_le
    rw [Nat.card_Ioc]
    omega
  rw [← hcard, eq_comm, ← hsum, sum_card_eq_iff]
  · constructor
    · intro hdisjoint i j c d hne hi hj
      obtain ⟨hlt, rfl⟩ := List.getElem?_eq_some_iff.mp hi
      obtain ⟨hlt', rfl⟩ := List.getElem?_eq_some_iff.mp hj
      exact hdisjoint ⟨i, hlt⟩ ⟨j, hlt'⟩ fun heq => hne (congrArg Fin.val heq)
    · intro hapart i j hne
      exact hapart i j _ _ (fun heq => hne (Fin.ext heq)) (List.getElem?_eq_getElem i.2)
        (List.getElem?_eq_getElem j.2)
  · exact fun i => (hspan _ (List.get_mem s.claims i)).1
  · intro n hn
    obtain ⟨hlt, hle⟩ := Finset.mem_Ioc.mp hn
    obtain ⟨c, hc, hn⟩ := h.covered n hlt hle
    obtain ⟨i, rfl⟩ := List.get_of_mem hc
    exact ⟨i, hn⟩

/-! ## Runs -/

/-- What holds at the end of a run that fails no increment: it is apart if each increment
read alone, and crossed otherwise. -/
theorem sound_run (low : Nat) (run : List Event) (hok : ¬ ((machine low).exec run).Failed) :
    ((machine low).exec run).Sound low ∧
      ((machine low).Guarded State.Alone run → ((machine low).exec run).Apart) ∧
      (¬ (machine low).Guarded State.Alone run → ((machine low).exec run).Crossed) := by
  induction run with
  | nil =>
    refine ⟨.init low, fun _ i j c d _ hi => ?_, fun hnot => absurd Machine.guarded_nil hnot⟩
    simp [machine] at hi
  | cons e run ih =>
    rw [Machine.exec_cons] at hok ⊢
    rw [Machine.guarded_cons]
    rcases react_cases ((machine low).exec run) e with hstep | ⟨hsame, hidle⟩
    · obtain ⟨hsound, hapart, hcrossed⟩ := ih fun hfailed => hok (hstep.failed hfailed)
      refine ⟨hsound.step hstep hok, fun ⟨halone, hguarded⟩ => ?_, fun hnot => ?_⟩
      · exact (hapart hguarded).step hsound hstep halone
      · by_cases hguarded : (machine low).Guarded State.Alone run
        · exact hsound.crossed hstep hok fun halone => hnot ⟨halone, hguarded⟩
        · exact ((hcrossed hguarded).step hstep).resolve_right hok
    · have hsame : (machine low).step ((machine low).exec run) e = (machine low).exec run := hsame
      rw [hsame] at hok ⊢
      have halone : ((machine low).exec run).Alone e := fun hbegins => absurd hbegins hidle
      obtain ⟨hsound, hapart, hcrossed⟩ := ih hok
      exact ⟨hsound, fun h => hapart h.2, fun hnot => hcrossed fun hg => hnot ⟨halone, hg⟩⟩

/-- **Increments one at a time.**  Once all increments are recorded, the mark has risen by
all their amounts exactly if none read while another was under way. -/
theorem total_iff_alone {low : Nat} {run : List Event}
    (hsettled : ((machine low).exec run).Settled) :
    ((machine low).exec run).mark = low + ((machine low).exec run).total ↔
      (machine low).Guarded State.Alone run := by
  have hok : ¬ ((machine low).exec run).Failed := by
    rintro ⟨c, hc, hfailed⟩
    obtain ⟨base, hbase⟩ := hsettled c hc
    rw [hfailed] at hbase
    cases hbase
  obtain ⟨hsound, hapart, hcrossed⟩ := sound_run low run hok
  rw [hsound.total_iff hsettled]
  refine ⟨fun h => ?_, hapart⟩
  by_contra hnot
  exact (hcrossed hnot).not_apart hsettled h

end Increments
