import MppSdk.Machine
import MppSdk.Script

/-! # Any number of scripts over one store

The machine of all interleavings: an event starts a new call, whose program is
`program c`, or lets one call in progress perform its next operation.  Calls keep
their place in the list and stay in it when finished, so two positions are two calls
and a finished call shows its result.

`step_cases` says once what a step can do.  From it come the two rules for every run:
`every_call`, for what a program may ever ask, and `correct_run`, the rely–guarantee
rule. -/

/-- A store and the calls made on it, oldest first, each with what is left of it. -/
structure Pool (F : Interface) (Store Call α : Type) where
  store : Store
  calls : List (Call × Script F α)

namespace Pool
variable {F : Interface} {Store Input Call α : Type}

/-- A new call begins, or the call at a position performs its next operation. -/
inductive Event (Call Input : Type)
  | start (c : Call)
  | step (i : Nat) (x : Input)

variable (h : Handler F Store Input) (program : Call → Script F α)

/-- The call at position `i` performs its next operation. -/
def advance (p : Pool F Store Call α) (i : Nat) (x : Input) : Pool F Store Call α :=
  match p.calls[i]? with
  | some (c, .call op next) =>
      let o := h op x p.store
      ⟨o.1, p.calls.set i (c, next o.2)⟩
  | _ => p

/-- What an event does to the pool. -/
def react (p : Pool F Store Call α) : Event Call Input → Pool F Store Call α
  | .start c => ⟨p.store, p.calls ++ [(c, program c)]⟩
  | .step i x => p.advance h i x

/-- The machine of all interleavings, from a store with no calls. -/
def machine (store : Store) : Machine (Pool F Store Call α) (Event Call Input) where
  init := ⟨store, []⟩
  step := react h program

/-- The operation the call at position `i` performs next. -/
def Next (p : Pool F Store Call α) (i : Nat) (c : Call) (op : F.Op) : Prop :=
  ∃ next, p.calls[i]? = some (c, .call op next)

/-- The call at position `i` has finished with result `a`. -/
def Finished (p : Pool F Store Call α) (i : Nat) (c : Call) (a : α) : Prop :=
  p.calls[i]? = some (c, .done a)

/-- The result of the call at position `i`, if it has finished. -/
def resultAt (p : Pool F Store Call α) (i : Nat) : Option α :=
  match p.calls[i]? with
  | some (_, .done a) => some a
  | _ => none

theorem finished_of_resultAt {p : Pool F Store Call α} {i : Nat} {a : α}
    (h : p.resultAt i = some a) : ∃ c, p.Finished i c a := by
  unfold resultAt at h
  split at h
  · next c b hi =>
    cases h
    exact ⟨c, hi⟩
  · cases h

/-- The event lets some call perform the operation `op`, with input `x`. -/
def Performs (p : Pool F Store Call α) (e : Event Call Input) (op : F.Op) (x : Input) : Prop :=
  ∃ i c, e = .step i x ∧ p.Next i c op

/-- The operation a call performs next, if it is in progress, meets a condition. -/
def Meets (C : F.Op → Store → Prop) (store : Store) : Option (Call × Script F α) → Prop
  | some (_, .call op _) => C op store
  | _ => True

/-- A condition on operations, as a condition on the steps of the machine. -/
def Guard (C : F.Op → Store → Prop) (p : Pool F Store Call α) : Event Call Input → Prop
  | .start _ => True
  | .step i _ => Meets C p.store p.calls[i]?

section Decide
variable {C : F.Op → Store → Prop} [∀ op s, Decidable (C op s)]

instance decidableMeets (store : Store) :
    ∀ o : Option (Call × Script F α), Decidable (Meets C store o)
  | some (_, .call op _) => inferInstanceAs (Decidable (C op store))
  | some (_, .done _) => .isTrue trivial
  | none => .isTrue trivial

instance decidableGuard (p : Pool F Store Call α) :
    ∀ e : Event Call Input, Decidable (Guard C p e)
  | .start _ => .isTrue trivial
  | .step i _ => decidableMeets p.store p.calls[i]?

end Decide

theorem guard_step {C : F.Op → Store → Prop} {p : Pool F Store Call α} {i : Nat} {x : Input} :
    Guard C p (.step i x) ↔ ∀ c op, p.Next i c op → C op p.store := by
  simp only [Guard, Meets, Next]
  rcases p.calls[i]? with _ | ⟨c, a | ⟨op, next⟩⟩
  · simp
  · simp
  · constructor
    · intro hC c' op' hn
      obtain ⟨next', hn⟩ := hn
      simp only [Option.some.injEq, Prod.mk.injEq, Script.call.injEq] at hn
      exact hn.2.1 ▸ hC
    · intro hG
      exact hG c op ⟨next, rfl⟩

theorem Guard.and {C D : F.Op → Store → Prop} {p : Pool F Store Call α} {e : Event Call Input}
    (hC : Guard C p e) (hD : Guard D p e) : Guard (fun op s => C op s ∧ D op s) p e := by
  cases e with
  | start c => trivial
  | step i x =>
    exact guard_step.mpr fun c op hn => ⟨guard_step.mp hC c op hn, guard_step.mp hD c op hn⟩

/-- A condition on operations and their inputs, as a condition on the steps of the
machine. -/
def Allowed (C : F.Op → Input → Store → Prop) (p : Pool F Store Call α) (e : Event Call Input) :
    Prop :=
  ∀ op x, p.Performs e op x → C op x p.store

theorem allowed_step {C : F.Op → Input → Store → Prop} {p : Pool F Store Call α} {i : Nat}
    {x : Input} : Allowed C p (.step i x) ↔ Guard (fun op s => C op x s) p (.step i x) := by
  rw [guard_step]
  constructor
  · exact fun h c op hn => h op x ⟨i, c, rfl, hn⟩
  · rintro h op y ⟨j, c, hstep, hn⟩
    cases hstep
    exact h c op hn

instance decidableAllowed {C : F.Op → Input → Store → Prop} [∀ op x s, Decidable (C op x s)]
    (p : Pool F Store Call α) : ∀ e : Event Call Input, Decidable (Allowed C p e)
  | .start c => .isTrue (by rintro op x ⟨i, d, hstart, -⟩; cases hstart)
  | .step _ _ => decidable_of_iff _ allowed_step.symm

/-- Every run meets the empty condition. -/
theorem allowed_true (store : Store) (run : List (Event Call Input)) :
    (machine h program store).Guarded (Allowed fun _ _ _ => True) run :=
  fun _ _ _ _ _ _ => trivial

@[simp] theorem machine_init (store : Store) :
    (machine h program store).init = ⟨store, []⟩ := rfl

theorem machine_step (store : Store) (p : Pool F Store Call α) (e : Event Call Input) :
    (machine h program store).step p e = p.react h program e := rfl

theorem exec_cons (store : Store) (e : Event Call Input) (run : List (Event Call Input)) :
    (machine h program store).exec (e :: run) =
      ((machine h program store).exec run).react h program e := rfl

/-- **What a step can do**: start a call, perform one operation of one call, or
nothing. -/
theorem step_cases (p : Pool F Store Call α) (e : Event Call Input) :
    (∃ c, e = .start c ∧ p.react h program e = ⟨p.store, p.calls ++ [(c, program c)]⟩) ∨
    (∃ i x c op next, e = .step i x ∧ p.calls[i]? = some (c, .call op next) ∧
      p.react h program e =
        ⟨(h op x p.store).1, p.calls.set i (c, next (h op x p.store).2)⟩) ∨
    (∃ i x, e = .step i x ∧ (∀ c op, ¬ p.Next i c op) ∧ p.react h program e = p) := by
  cases e with
  | start c => exact Or.inl ⟨c, rfl, rfl⟩
  | step i x =>
    refine Or.inr ?_
    rcases hi : p.calls[i]? with _ | ⟨c, _ | ⟨op, next⟩⟩
    · exact Or.inr ⟨i, x, rfl, by simp [Next, hi], by simp [react, advance, hi]⟩
    · exact Or.inr ⟨i, x, rfl, by simp [Next, hi], by simp [react, advance, hi]⟩
    · exact Or.inl ⟨i, x, c, op, next, rfl, hi, by simp [react, advance, hi]⟩

/-- A step performs one operation, or leaves the store as it is. -/
theorem performs_or_idle (p : Pool F Store Call α) (e : Event Call Input) :
    (∃ op x, p.Performs e op x) ∨
      ((∀ op x, ¬ p.Performs e op x) ∧ (p.react h program e).store = p.store) := by
  rcases step_cases h program p e with
    ⟨c, rfl, he⟩ | ⟨i, x, c, op, next, rfl, hi, -⟩ | ⟨i, x, rfl, hn, he⟩
  · refine Or.inr ⟨fun op x hp => ?_, by rw [he]⟩
    obtain ⟨i, c', hstart, -⟩ := hp
    cases hstart
  · exact Or.inl ⟨op, x, i, c, rfl, next, hi⟩
  · refine Or.inr ⟨fun op y hp => ?_, by rw [he]⟩
    obtain ⟨j, c, hstep, hnext⟩ := hp
    cases hstep
    exact hn c op hnext

variable {h program}

/-- The store after an operation is performed. -/
theorem Performs.store_eq {p : Pool F Store Call α} {e : Event Call Input} {op : F.Op} {x : Input}
    (hp : p.Performs e op x) : (p.react h program e).store = (h op x p.store).1 := by
  obtain ⟨i, c, rfl, next, hi⟩ := hp
  simp [react, advance, hi]

/-- A step performs at most one operation. -/
theorem Performs.unique {p : Pool F Store Call α} {e : Event Call Input} {op op' : F.Op}
    {x x' : Input} (hp : p.Performs e op x) (hp' : p.Performs e op' x') : op = op' ∧ x = x' := by
  obtain ⟨i, c, rfl, next, hi⟩ := hp
  obtain ⟨j, c', hstep, next', hj⟩ := hp'
  cases hstep
  have heq := hi.symm.trans hj
  simp only [Option.some.injEq, Prod.mk.injEq, Script.call.injEq] at heq
  exact ⟨heq.2.1, rfl⟩

/-- Calls that satisfy `P` still do after one of them changes to another that does. -/
theorem forall_mem_set {P : Call × Script F α → Prop} {l : List (Call × Script F α)} {i : Nat}
    {b : Call × Script F α} (hl : ∀ a ∈ l, P a) (hb : P b) : ∀ a ∈ l.set i b, P a := by
  intro a ha
  rcases List.mem_or_eq_of_mem_set ha with ha | rfl
  · exact hl a ha
  · exact hb

/-- **What programs may ask.**  If every operation of every program satisfies `A`, so
does every operation left in the calls of any run. -/
theorem every_call {A : F.Op → Prop} (hA : ∀ c, (program c).Every A) (store : Store)
    (run : List (Event Call Input)) :
    ∀ cr ∈ ((machine h program store).exec run).calls, cr.2.Every A := by
  induction run with
  | nil => simp
  | cons e run ih =>
    rw [exec_cons]
    rcases step_cases h program _ e with
      ⟨c, rfl, hs⟩ | ⟨i, x, c, op, next, rfl, hi, hs⟩ | ⟨i, x, rfl, -, hs⟩
    · rw [hs]
      intro cr hcr
      rcases List.mem_append.mp hcr with hcr | hcr
      · exact ih cr hcr
      · obtain rfl := List.mem_singleton.mp hcr
        exact hA c
    · rw [hs]
      exact forall_mem_set ih ((ih _ (List.mem_of_getElem? hi)).2 _)
    · rw [hs]
      exact ih

/-- The operation a call performs next satisfies what all its operations do. -/
theorem Next.every {A : F.Op → Prop} {p : Pool F Store Call α} {i : Nat} {c : Call} {op : F.Op}
    (hn : p.Next i c op) (hp : ∀ cr ∈ p.calls, cr.2.Every A) : A op := by
  obtain ⟨next, hi⟩ := hn
  exact (hp _ (List.mem_of_getElem? hi)).1

theorem Performs.every {A : F.Op → Prop} {p : Pool F Store Call α} {e : Event Call Input}
    {op : F.Op} {x : Input} (hp : p.Performs e op x) (hA : ∀ cr ∈ p.calls, cr.2.Every A) :
    A op := by
  obtain ⟨i, c, -, hn⟩ := hp
  exact hn.every hA

section Exact
variable {A : F.Op → Prop} {P : Store → Prop} {R : Store → Store → Prop}
  {C : F.Op → Store → Prop} {store : Store}

/-- What a step does to the store, and when it meets a condition, comes down to the
operation it performs. -/
theorem step_iff {D : Store → Store → Prop} {p : Pool F Store Call α}
    (hp : ∀ cr ∈ p.calls, cr.2.Every A) (hsame : D p.store p.store)
    (hs : ∀ op x, A op → (D p.store (h op x p.store).1 ↔ C op p.store))
    (e : Event Call Input) : D p.store (p.react h program e).store ↔ Guard C p e := by
  rcases step_cases h program p e with
    ⟨c, rfl, he⟩ | ⟨i, x, c, op, next, rfl, hi, he⟩ | ⟨i, x, rfl, hn, he⟩
  · rw [he]
    exact ⟨fun _ => trivial, fun _ => hsame⟩
  · rw [he]
    have hA : A op := (hp _ (List.mem_of_getElem? hi)).1
    have hguard : Guard C p (.step i x) ↔ C op p.store := by simp only [Guard, Meets, hi]
    exact (hs op x hA).trans hguard.symm
  · rw [he]
    exact ⟨fun _ => guard_step.mpr fun c op hc => absurd hc (hn c op), fun _ => hsame⟩

/-- **Exact condition for a law between the stores of two moments.** -/
theorem along_store_iff (hA : ∀ c, (program c).Every A) (hrefl : ∀ s, R s s)
    (htrans : ∀ s t u, R s t → R t u → R s u)
    (hs : ∀ op x s, A op → (R s (h op x s).1 ↔ C op s)) (run : List (Event Call Input)) :
    (machine h program store).Along (fun p q => R p.store q.store) run ↔
      (machine h program store).Guarded (Guard C) run := by
  refine Machine.along_iff_guarded (Q := fun p => ∀ cr ∈ p.calls, cr.2.Every A)
    (fun p => hrefl p.store)
    (fun p q r => htrans p.store q.store r.store) (every_call hA store) (fun p e hp => ?_) run
  exact step_iff (D := R) hp (hrefl p.store) (fun op x ha => hs op x p.store ha) e

end Exact

/-- **Rely–guarantee rule.**  If every program is correct from every store that
satisfies the invariant, then in every run whose steps meet the terms' condition the
store satisfies the invariant and every call in progress is correct. -/
theorem correct_run {T : Script.Terms F Store} {post : Call → α → Store → Prop} {store : Store}
    (h0 : T.holds store)
    (hpost : ∀ c a s s', T.guarantee s s' → post c a s → post c a s')
    (hprogram : ∀ c s, T.holds s → (program c).Correct h T (post c) s)
    (run : List (Event Call Input))
    (hg : (machine h program store).Guarded (Guard T.allowed) run) :
    T.holds ((machine h program store).exec run).store ∧
      ∀ cr ∈ ((machine h program store).exec run).calls,
        cr.2.Correct h T (post cr.1) ((machine h program store).exec run).store := by
  refine Machine.holds_of_guarded
    (P := fun p => T.holds p.store ∧ ∀ cr ∈ p.calls, cr.2.Correct h T (post cr.1) p.store)
    ⟨h0, by simp [machine]⟩ ?_ run hg
  rintro p e ⟨hI, hp⟩ hC
  rw [machine_step]
  rcases step_cases h program p e with
    ⟨c, rfl, hs⟩ | ⟨i, x, c, op, next, rfl, hi, hs⟩ | ⟨i, x, rfl, -, hs⟩
  · rw [hs]
    refine ⟨hI, fun cr hcr => ?_⟩
    rcases List.mem_append.mp hcr with hcr | hcr
    · exact hp cr hcr
    · obtain rfl := List.mem_singleton.mp hcr
      exact hprogram c _ hI
  · rw [hs]
    have hmem := hp _ (List.mem_of_getElem? hi)
    obtain ⟨hI', hG, hnext⟩ := hmem p.store (T.refl _) hI (guard_step.mp hC c op ⟨next, hi⟩) x
    refine ⟨hI', forall_mem_set (fun cr hcr => ?_) hnext⟩
    exact (hp cr hcr).stable (hpost cr.1) hG
  · rw [hs]
    exact ⟨hI, hp⟩

end Pool
