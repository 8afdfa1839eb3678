import Mathlib.Data.List.Infix

/-! # Machines and their runs

A machine has one state and reacts to one event at a time.  A run is the list of
its events, most recent first, so the state reached is a fold of the list
(`exec`), the earlier moments of a run are the suffixes of its list, and an
induction on the list is an induction on the run.

Three ways to speak about a whole run:

* `Always P`: `P` holds in every state the run passes through;
* `Guarded C`: every step of the run is taken in a state that meets `C`;
* `Along R`: any two moments of the run, the earlier one first, are related by `R`;
* `Once occurs`: what occurs at a step of the run does not occur at a later one;
* `OncePer resets occurs`: it does so only after a step that resets it;
* `AlongUnless resets R`: any two moments are related by `R`, unless a step between them
  resets it.

`always_iff_guarded`, `along_iff_guarded` and `alongUnless_iff_guarded` turn a statement about one step into
the corresponding statement about every run, in both directions: what holds along a
run is exactly that its steps meet the step's condition. -/

universe u v

/-- A deterministic machine: an initial state and its reaction to an event. -/
structure Machine (State : Type u) (Event : Type v) where
  init : State
  step : State → Event → State

namespace Machine
variable {State : Type u} {Event : Type v} (M : Machine State Event)

/-- The state a run ends in; `run` lists its events, most recent first. -/
def exec : List Event → State
  | [] => M.init
  | e :: run => M.step (exec run) e

@[simp] theorem exec_nil : M.exec [] = M.init := rfl

@[simp] theorem exec_cons (e : Event) (run : List Event) :
    M.exec (e :: run) = M.step (M.exec run) e := rfl

/-- `P` holds in every state the run passes through, the first and the last included. -/
def Always (P : State → Prop) (run : List Event) : Prop :=
  ∀ before, before <:+ run → P (M.exec before)

/-- Every step of the run is taken in a state that meets `C`. -/
def Guarded (C : State → Event → Prop) (run : List Event) : Prop :=
  ∀ e before, e :: before <:+ run → C (M.exec before) e

/-- Any two moments of the run, the earlier one first, are related by `R`. -/
def Along (R : State → State → Prop) (run : List Event) : Prop :=
  ∀ before after, before <:+ after → after <:+ run → R (M.exec before) (M.exec after)

/-- Nothing that occurs at a step of the run occurs at a later step. -/
def Once {Key : Type*} (occurs : State → Event → Key → Prop) (run : List Event) : Prop :=
  ∀ k e before e' between, e' :: between <:+ run → e :: before <:+ between →
    occurs (M.exec before) e k → ¬ occurs (M.exec between) e' k

/-- What occurs at a step of the run occurs at a later one only after a reset between. -/
def OncePer {Key : Type*} (resets occurs : State → Event → Key → Prop) (run : List Event) : Prop :=
  ∀ k e before e' between, e' :: between <:+ run → e :: before <:+ between →
    occurs (M.exec before) e k → occurs (M.exec between) e' k →
      ∃ r mid, r :: mid <:+ between ∧ e :: before <:+ mid ∧ resets (M.exec mid) r k

/-- Any two moments of the run, the earlier one first, are related by `R k` unless a step
between them resets `k`. -/
def AlongUnless {Key : Type*} (resets : State → Event → Key → Prop)
    (R : Key → State → State → Prop) (run : List Event) : Prop :=
  ∀ k before after, before <:+ after → after <:+ run →
    (∀ e mid, e :: mid <:+ after → before <:+ mid → ¬ resets (M.exec mid) e k) →
    R k (M.exec before) (M.exec after)

variable {M} {P Q : State → Prop} {C D : State → Event → Prop} {R : State → State → Prop}
variable {e : Event} {run : List Event}

theorem guarded_nil : M.Guarded C [] := by
  intro e before h
  simp [List.suffix_nil] at h

theorem guarded_cons : M.Guarded C (e :: run) ↔ C (M.exec run) e ∧ M.Guarded C run := by
  simp only [Guarded, List.suffix_cons_iff, List.cons.injEq]
  constructor
  · exact fun h => ⟨h e run (Or.inl ⟨rfl, rfl⟩), fun e' b hb => h e' b (Or.inr hb)⟩
  · rintro ⟨h, hr⟩ e' b (⟨rfl, rfl⟩ | hb)
    · exact h
    · exact hr e' b hb

/-- Whether a run is guarded can be computed, step by step. -/
instance decidableGuarded [∀ s e, Decidable (C s e)] : ∀ run, Decidable (M.Guarded C run)
  | [] => .isTrue guarded_nil
  | e :: run =>
      have := decidableGuarded run
      decidable_of_iff (C (M.exec run) e ∧ M.Guarded C run) guarded_cons.symm

theorem Always.last (h : M.Always P run) : P (M.exec run) := h run List.suffix_rfl

theorem Guarded.mono (h : M.Guarded C run) (hCD : ∀ s e, C s e → D s e) : M.Guarded D run :=
  fun e before hb => hCD _ e (h e before hb)

theorem Guarded.and (hC : M.Guarded C run) (hD : M.Guarded D run) :
    M.Guarded (fun s e => C s e ∧ D s e) run :=
  fun e before hb => ⟨hC e before hb, hD e before hb⟩

theorem Guarded.suffix {before : List Event} (h : M.Guarded C run) (hb : before <:+ run) :
    M.Guarded C before :=
  fun e b hs => h e b (hs.trans hb)

/-! ## From one step to every run -/

/-- **Invariant rule.**  What holds at first and is kept by every step that meets
`C` holds at the end of every run whose steps meet `C`. -/
theorem holds_of_guarded (h0 : P M.init) (hs : ∀ s e, P s → C s e → P (M.step s e)) :
    ∀ run, M.Guarded C run → P (M.exec run)
  | [], _ => h0
  | e :: run, h => by
      obtain ⟨hC, hr⟩ := guarded_cons.mp h
      exact hs _ e (holds_of_guarded h0 hs run hr) hC

/-- The invariant rule when every step keeps `P`. -/
theorem holds (h0 : P M.init) (hs : ∀ s e, P s → P (M.step s e)) (run : List Event) :
    P (M.exec run) :=
  holds_of_guarded (C := fun _ _ => True) h0 (fun s e h _ => hs s e h) run
    (fun _ _ _ => trivial)

/-- **Exact condition for a law between moments.**  If a step is related by the
preorder `R` exactly when it meets `C`, then all moments of a run are related by
`R` exactly when all its steps meet `C`. -/
theorem along_iff_guarded (hrefl : ∀ s, R s s) (htrans : ∀ s t u, R s t → R t u → R s u)
    (hQ : ∀ run, Q (M.exec run)) (hs : ∀ s e, Q s → (R s (M.step s e) ↔ C s e))
    (run : List Event) : M.Along R run ↔ M.Guarded C run := by
  constructor
  · intro h e before hb
    exact (hs _ e (hQ before)).mp (h before (e :: before) (List.suffix_cons e before) hb)
  · intro h before after hba har
    induction after with
    | nil => rw [List.suffix_nil.mp hba]; exact hrefl _
    | cons e after ih =>
      rcases List.suffix_cons_iff.mp hba with rfl | hba
      · exact hrefl _
      · have hlast : after <:+ run := (List.suffix_cons e after).trans har
        exact htrans _ _ _ (ih hba hlast) ((hs _ e (hQ after)).mpr (h e after har))

/-- **Exact condition for a law between resets.**  If a step relates what it does not reset by
the preorders `R k` exactly when it meets `C`, then all moments of a run without a reset
between them are related exactly when all its steps meet `C`. -/
theorem alongUnless_iff_guarded {Key : Type*} {resets : State → Event → Key → Prop}
    {R : Key → State → State → Prop} (hrefl : ∀ k s, R k s s)
    (htrans : ∀ k s t u, R k s t → R k t u → R k s u) (hQ : ∀ run, Q (M.exec run))
    (hs : ∀ s e, Q s → ((∀ k, ¬ resets s e k → R k s (M.step s e)) ↔ C s e))
    (run : List Event) : M.AlongUnless resets R run ↔ M.Guarded C run := by
  constructor
  · intro h e before hb
    refine (hs _ e (hQ before)).mp fun k hk => ?_
    refine h k before (e :: before) (List.suffix_cons e before) hb fun e' mid hmid hbefore => ?_
    -- the only step between the two moments is this one
    have hle : before.length ≤ mid.length := hbefore.length_le
    have heq : e' :: mid = e :: before := hmid.eq_of_length_le (Nat.succ_le_succ hle)
    obtain ⟨rfl, rfl⟩ := List.cons.inj heq
    exact hk
  · intro h k before after hba har hnot
    induction after with
    | nil => rw [List.suffix_nil.mp hba]; exact hrefl k _
    | cons e after ih =>
      rcases List.suffix_cons_iff.mp hba with rfl | hba
      · exact hrefl k _
      · have hlast : after <:+ run := (List.suffix_cons e after).trans har
        have hearlier := ih hba hlast fun e' mid hmid hbefore =>
          hnot e' mid (hmid.trans (List.suffix_cons e after)) hbefore
        have hstep := (hs _ e (hQ after)).mpr (h e after har) k
          (hnot e after List.suffix_rfl hba)
        exact htrans k _ _ _ hearlier hstep

/-- **At most once.**  If what occurs leaves a mark, the mark lasts along the run, and
nothing marked occurs, then nothing occurs twice. -/
theorem once_of_along {Key : Type*} {occurs : State → Event → Key → Prop}
    (marked : Key → State → Prop) (hmark : ∀ s e k, occurs s e k → marked k (M.step s e))
    (hnew : ∀ s e k, occurs s e k → ¬ marked k s)
    (hlast : ∀ s t k, R s t → marked k s → marked k t) (h : M.Along R run) :
    M.Once occurs run := by
  intro k e before e' between hlater hearlier hocc hocc'
  have hbetween : between <:+ run := (List.suffix_cons e' between).trans hlater
  have hmarked : marked k (M.exec (e :: before)) := hmark _ e k hocc
  have hstill : marked k (M.exec between) := hlast _ _ k (h _ _ hearlier hbetween) hmarked
  exact hnew _ e' k hocc' hstill

/-- **At most once between resets.**  If what occurs leaves a mark that only a reset
removes, and nothing marked occurs, then nothing occurs twice without a reset between. -/
theorem oncePer_of_marked {Key : Type*} {resets occurs : State → Event → Key → Prop}
    (marked : Key → State → Prop) (hmark : ∀ s e k, occurs s e k → marked k (M.step s e))
    (hnew : ∀ s e k, occurs s e k → ¬ marked k s)
    (hkeep : ∀ s e k, marked k s → ¬ resets s e k → marked k (M.step s e)) :
    M.OncePer resets occurs run := by
  intro k e before e' between _ hearlier hocc hocc'
  -- induction on the moments from the first occurrence to the second
  have hlast : ∀ mid, e :: before <:+ mid → marked k (M.exec mid) ∨
      ∃ r m, r :: m <:+ mid ∧ e :: before <:+ m ∧ resets (M.exec m) r k := by
    intro mid
    induction mid with
    | nil => intro h; simp [List.suffix_nil] at h
    | cons r mid ih =>
      intro h
      rcases List.suffix_cons_iff.mp h with heq | h
      · obtain ⟨rfl, rfl⟩ := List.cons.inj heq
        exact Or.inl (hmark _ e k hocc)
      · rcases ih h with hm | ⟨r', m, hr, hm, hreset⟩
        · by_cases hreset : resets (M.exec mid) r k
          · exact Or.inr ⟨r, mid, List.suffix_rfl, h, hreset⟩
          · exact Or.inl (hkeep _ r k hm hreset)
        · exact Or.inr ⟨r', m, hr.trans (List.suffix_cons r mid), hm, hreset⟩
  rcases hlast between hearlier with hm | hreset
  · exact absurd hm (hnew _ e' k hocc')
  · exact hreset

/-- **Simulation.**  If every step of one machine is matched by a step of another, or by
none, and meets its condition exactly when the matching step does, then every run is matched
by a run, and meets its condition exactly when that does. -/
theorem exists_simulation {State' : Type*} {Event' : Type*} {N : Machine State' Event'}
    {D : State' → Event' → Prop} {Q : State → State' → Prop} (h0 : Q M.init N.init)
    (hs : ∀ s t e, Q s t → (Q (M.step s e) t ∧ C s e) ∨
      ∃ e', Q (M.step s e) (N.step t e') ∧ (C s e ↔ D t e')) :
    ∀ run, ∃ run', Q (M.exec run) (N.exec run') ∧ (M.Guarded C run ↔ N.Guarded D run')
  | [] => ⟨[], h0, ⟨fun _ => guarded_nil, fun _ => guarded_nil⟩⟩
  | e :: run => by
      obtain ⟨run', hQ, hiff⟩ := exists_simulation h0 hs run
      rw [guarded_cons]
      rcases hs _ _ e hQ with ⟨hQ', hC⟩ | ⟨e', hQ', hCD⟩
      · exact ⟨run', hQ', ⟨fun h => hiff.mp h.2, fun h => ⟨hC, hiff.mpr h⟩⟩⟩
      · refine ⟨e' :: run', hQ', ?_⟩
        rw [guarded_cons]
        exact and_congr hCD hiff

end Machine
