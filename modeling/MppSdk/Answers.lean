import MppSdk.Interleaving

/-! # What a call has been told

A call that ends with a result owes it to the answers it has been given.  `Earns` says that
whatever is answered, a script ends with a result that its answers justify, and `earned_run`
that then, in every run, so does every call, with answers of its own operations in that run. -/

namespace Script
variable {F : Interface} {α β ε : Type}

/-- Operations with their answers, the last one first. -/
abbrev Log (F : Interface) : Type := List ((op : F.Op) × F.Answer op)

/-- From the answers it has, the script ends with a result that its answers justify. -/
def Earns (post : Log F → α → Prop) : Log F → Script F α → Prop
  | log, done a => post log a
  | log, call op next => ∀ answer, Earns post (⟨op, answer⟩ :: log) (next answer)

variable {log : Log F}

theorem Earns.mono {post post' : Log F → α → Prop} (hpost : ∀ log a, post log a → post' log a) :
    ∀ {r : Script F α} {log : Log F}, Earns post log r → Earns post' log r
  | done a, log, hr => hpost log a hr
  | call _ _, _, hr => fun answer => (hr answer).mono hpost

theorem earns_bind {post : Log F → β → Prop} {f : α → Script F β} :
    ∀ {r : Script F α} {log : Log F}, Earns post log (r >>= f) ↔
      Earns (fun log a => Earns post log (f a)) log r
  | done _, _ => Iff.rfl
  | call _ _, _ => forall_congr' fun _ => earns_bind

/-- A script keeps the answers it has. -/
theorem Earns.grows {post : Log F → α → Prop} : ∀ {r : Script F α} {log : Log F},
    Earns post log r → Earns (fun log' a => log ⊆ log' ∧ post log' a) log r
  | done _, log, hr => ⟨List.Subset.refl log, hr⟩
  | call _ _, log, hr => fun answer => (hr answer).grows.mono fun _ _ h =>
      ⟨List.Subset.trans (List.subset_cons_self _ log) h.1, h.2⟩

/-- Whatever it earns, a script keeps the answers it has. -/
theorem earns_grows : ∀ (r : Script F α) (log : Log F), Earns (fun log' _ => log ⊆ log') log r
  | done _, log => List.Subset.refl log
  | call _ next, log => fun answer => (earns_grows (next answer) _).mono fun _ _ h =>
      List.Subset.trans (List.subset_cons_self _ log) h

/-- What holds whatever the answers are. -/
theorem Earns.results {post : α → Prop} : ∀ {r : Script F α} {log : Log F},
    Earns (fun _ a => post a) log r → r.Results post
  | done _, _, hr => hr
  | call _ _, _, hr => fun answer => (hr answer).results

/-- The values that a program may return. -/
def Justified (post : Log F → α → Prop) (log : Log F) (r : Except ε α) : Prop :=
  ∀ a, r = .ok a → post log a

/-- From the answers it has, the program fails or returns what its answers justify. -/
def Returns (post : Log F → α → Prop) (log : Log F) (x : ExceptT ε (Script F) α) : Prop :=
  Earns (Justified post) log x.run

theorem Returns.mono {post post' : Log F → α → Prop} {x : ExceptT ε (Script F) α}
    (hx : Returns post log x) (hpost : ∀ log a, post log a → post' log a) :
    Returns post' log x :=
  Earns.mono (fun log _ hr a ha => hpost log a (hr a ha)) hx

/-- **Frame rule**: what was justified by the answers a program has stays so. -/
theorem Returns.frame {post : Log F → α → Prop} {P : Log F → Prop} {x : ExceptT ε (Script F) α}
    (hx : Returns post log x) (hP : P log) (hmono : ∀ log log', log ⊆ log' → P log → P log') :
    Returns (fun log a => P log ∧ post log a) log x :=
  (Earns.grows hx).mono fun log' _ hr a ha => ⟨hmono log log' hr.1 hP, hr.2 a ha⟩

theorem Returns.results {post : α → Prop} {x : ExceptT ε (Script F) α}
    (hx : Returns (fun _ a => post a) log x) : x.run.Results fun r => ∀ a, r = .ok a → post a :=
  Earns.results hx

theorem returns_pure {post : Log F → α → Prop} {a : α} (h : post log a) :
    Returns post log (pure a : ExceptT ε (Script F) α) := by
  intro b hb
  cases hb
  exact h

theorem returns_lift {post : Log F → α → Prop} {r : Except ε α} (h : Justified post log r) :
    Returns post log (liftM r : ExceptT ε (Script F) α) := by
  rcases r with e | a
  · intro b hb
    cases hb
  · exact returns_pure (h a rfl)

theorem returns_bind {post : Log F → α → Prop} {x : ExceptT ε (Script F) β}
    {f : β → ExceptT ε (Script F) α}
    (hx : Returns (fun log b => Returns post log (f b)) log x) : Returns post log (x >>= f) := by
  rw [Returns, run_bind, earns_bind]
  refine Earns.mono (fun log r hr => ?_) hx
  rcases r with e | b
  · intro a ha
    cases ha
  · exact hr b rfl

/-- A check that may end the program, whatever it ends with. -/
theorem earns_lift_bind {post : Log F → Except ε α → Prop} {r : Except ε β}
    {f : β → ExceptT ε (Script F) α} (herror : ∀ e, r = .error e → post log (.error e))
    (hf : ∀ b, r = .ok b → Earns post log (f b).run) :
    Earns post log ((liftM r : ExceptT ε (Script F) β) >>= f).run := by
  rcases r with e | b
  · exact herror e rfl
  · exact hf b rfl

theorem returns_lift_bind {post : Log F → α → Prop} {r : Except ε β}
    {f : β → ExceptT ε (Script F) α} (hf : ∀ b, r = .ok b → Returns post log (f b)) :
    Returns post log ((liftM r : ExceptT ε (Script F) β) >>= f) :=
  returns_bind (returns_lift hf)

theorem returns_perform_bind {post : Log F → α → Prop} {op : F.Op}
    {f : F.Answer op → ExceptT ε (Script F) α} :
    Returns post log ((liftM (perform op) : ExceptT ε (Script F) (F.Answer op)) >>= f) ↔
      ∀ answer, Returns post (⟨op, answer⟩ :: log) (f answer) := Iff.rfl

end Script

namespace Pool
open Script
variable {F : Interface} {Store Input Call α : Type}
variable (h : Handler F Store Input) (program : Call → Script F α)

/-- In the run the call has performed the operation and has been given the answer. -/
def Answered (store : Store) (run : List (Event Call Input)) (i : Nat) (op : F.Op)
    (answer : F.Answer op) : Prop :=
  ∃ before x c, Event.step i x :: before <:+ run ∧
    ((machine h program store).exec before).Next i c op ∧
    (h op x ((machine h program store).exec before).store).2 = answer

variable {h program}

theorem Answered.cons {store : Store} {run : List (Event Call Input)} {i : Nat} {op : F.Op}
    {answer : F.Answer op} (ha : Answered h program store run i op answer)
    (e : Event Call Input) : Answered h program store (e :: run) i op answer := by
  obtain ⟨before, x, c, hb, hn, hanswer⟩ := ha
  exact ⟨before, x, c, hb.trans (List.suffix_cons e run), hn, hanswer⟩

/-- **The rule for answers.**  If every program earns its result, so does every call of a run,
with the answers that it was given there. -/
theorem earned_run {post : Call → Log F → α → Prop}
    (hprogram : ∀ c, Earns (post c) [] (program c)) (store : Store)
    (run : List (Event Call Input)) {i : Nat} {c : Call} {a : α}
    (hi : ((machine h program store).exec run).Finished i c a) :
    ∃ log : Log F, (∀ entry ∈ log, Answered h program store run i entry.1 entry.2) ∧
      post c log a := by
  have hcalls : ∀ run, ∀ i cr, ((machine h program store).exec run).calls[i]? = some cr →
      ∃ log : Log F, (∀ entry ∈ log, Answered h program store run i entry.1 entry.2) ∧
        Earns (post cr.1) log cr.2 := by
    intro run
    induction run with
    | nil =>
      intro i cr hi
      cases hi
    | cons e run ih =>
      -- the invariant: what a call has left to do earns its result from the answers it has
      intro j cr hj
      rw [exec_cons] at hj
      -- a call that does not move keeps its answers
      have hkeep : ((machine h program store).exec run).calls[j]? = some cr →
          ∃ log : Log F, (∀ entry ∈ log,
            Answered h program store (e :: run) j entry.1 entry.2) ∧
            Earns (post cr.1) log cr.2 := by
        intro hj
        obtain ⟨log, hlog, hcr⟩ := ih j cr hj
        exact ⟨log, fun entry hentry => (hlog entry hentry).cons e, hcr⟩
      rcases step_cases h program _ e with
        ⟨c, rfl, hs⟩ | ⟨i, x, c, op, next, rfl, hi, hs⟩ | ⟨i, x, rfl, -, hs⟩
      · rw [hs] at hj
        rcases Nat.lt_or_ge j ((machine h program store).exec run).calls.length with hlt | hge
        · rw [List.getElem?_append_left hlt] at hj
          exact hkeep hj
        · rw [List.getElem?_append_right hge] at hj
          obtain rfl := List.mem_singleton.mp (List.mem_of_getElem? hj)
          exact ⟨[], fun entry hentry => absurd hentry List.not_mem_nil, hprogram c⟩
      · rw [hs] at hj
        have hlt := (List.getElem?_eq_some_iff.mp hi).1
        by_cases hij : j = i
        · subst hij
          rw [List.getElem?_set_self hlt] at hj
          obtain rfl := Option.some.inj hj
          obtain ⟨log, hlog, hcr⟩ := ih j _ hi
          refine ⟨⟨op, _⟩ :: log, List.forall_mem_cons.mpr ⟨?_, fun entry hentry => ?_⟩, hcr _⟩
          · exact ⟨run, x, c, List.suffix_refl _, ⟨next, hi⟩, rfl⟩
          · exact (hlog entry hentry).cons _
        · rw [List.getElem?_set_ne (Ne.symm hij)] at hj
          exact hkeep hj
      · rw [hs] at hj
        exact hkeep hj
  exact hcalls run i _ hi

end Pool
