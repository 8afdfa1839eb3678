import Mathlib.Logic.Basic

/-! # Programs that call on a shared store

A `Script` is a program cut at the operations it performs on its surroundings: it is
finished, or it performs one operation and goes on with the answer.  A `Handler` says
what an operation does to the shared store, given one input from the outside (a clock
reading, a server's reply); each operation is atomic.

Run by itself a script is a state transformer (`alone`).  Among others it is a task
whose operations interleave with theirs; there it is judged by rely and guarantee
(`Correct`): between two of its operations the store may change as the relation
`guarantee` allows, and each of its own operations keeps `holds` and changes the store
as `guarantee` allows. -/

/-- What a program may ask of its surroundings, and the type of each answer. -/
structure Interface where
  Op : Type
  Answer : Op → Type

/-- A program over an interface, cut at its operations. -/
inductive Script (F : Interface) (α : Type) : Type
  | done (a : α)
  | call (op : F.Op) (next : F.Answer op → Script F α)

/-- What each operation does to the store, given an input from the outside. -/
abbrev Handler (F : Interface) (Store Input : Type) : Type :=
  (op : F.Op) → Input → Store → Store × F.Answer op

namespace Script
variable {F : Interface} {α β ε : Type}

/-- Run the first program, then the second on its result. -/
def bind : Script F α → (α → Script F β) → Script F β
  | done a, f => f a
  | call op next, f => call op (fun x => bind (next x) f)

instance : Monad (Script F) where
  pure := done
  bind := bind

/-- The program that performs one operation and returns its answer. -/
def perform (op : F.Op) : Script F (F.Answer op) := call op done

@[simp] theorem pure_eq (a : α) : (pure a : Script F α) = done a := rfl

@[simp] theorem done_bind (a : α) (f : α → Script F β) : (done a : Script F α) >>= f = f a := rfl

@[simp] theorem call_bind (op : F.Op) (next : F.Answer op → Script F α) (f : α → Script F β) :
    call op next >>= f = call op (fun x => next x >>= f) := rfl

/-- The script over an interface that contains its own. -/
def embed {G : Interface} (inj : F.Op → G.Op) (ans : ∀ op, G.Answer (inj op) → F.Answer op) :
    Script F α → Script G α
  | done a => done a
  | call op next => call (inj op) fun x => embed inj ans (next (ans op x))

/-! ## Programs that may fail

`ExceptT ε (Script F)` stops at the first error.  These lemmas lay such a program
out as a plain script. -/

@[simp] theorem run_bind (x : ExceptT ε (Script F) α) (f : α → ExceptT ε (Script F) β) :
    (x >>= f).run = x.run >>= fun r => match r with
      | .ok a => (f a).run
      | .error e => done (.error e) := by
  show x.run >>= ExceptT.bindCont f = _
  congr 1
  funext r
  cases r <;> rfl

@[simp] theorem run_pure (a : α) :
    (pure a : ExceptT ε (Script F) α).run = done (.ok a) := rfl

theorem run_map (g : α → β) (x : ExceptT ε (Script F) α) :
    (g <$> x).run = x.run >>= fun r => done (r.map g) := by
  show x.run >>= _ = _
  congr 1
  funext r
  cases r <;> rfl

@[simp] theorem run_liftExcept (r : Except ε α) :
    (liftM r : ExceptT ε (Script F) α).run = done r := rfl

theorem run_lift_bind (r : Script F β) (f : β → ExceptT ε (Script F) α) :
    ((ExceptT.lift r : ExceptT ε (Script F) β) >>= f).run = r >>= fun b => (f b).run := by
  induction r with
  | done b => rfl
  | call op next ih => exact congrArg (call op) (funext ih)

@[simp] theorem run_perform (op : F.Op) :
    (liftM (perform op) : ExceptT ε (Script F) (F.Answer op)).run =
      call op (fun x => done (.ok x)) := rfl

/-! ## A script by itself -/

section Alone
variable {Store Input : Type} (h : Handler F Store Input)

/-- The script run with nothing in between: its operations are handled in turn, the
`n`-th with the `n`-th input. -/
def alone : Script F α → (Nat → Input) → Store → Store × α
  | done a, _, s => (s, a)
  | call op next, xs, s =>
      let o := h op (xs 0) s
      alone (next o.2) (fun n => xs (n + 1)) o.1

@[simp] theorem alone_done (a : α) (xs : Nat → Input) (s : Store) :
    alone h (done a : Script F α) xs s = (s, a) := rfl

@[simp] theorem alone_call (op : F.Op) (next : F.Answer op → Script F α) (xs : Nat → Input)
    (s : Store) :
    alone h (call op next) xs s =
      alone h (next (h op (xs 0) s).2) (fun n => xs (n + 1)) (h op (xs 0) s).1 := rfl

theorem alone_map {g : α → β} : ∀ (r : Script F α) (xs : Nat → Input) (s : Store),
    alone h (r >>= fun a => done (g a)) xs s = ((alone h r xs s).1, g (alone h r xs s).2)
  | done _, _, _ => rfl
  | call _ next, xs, _ => alone_map (next _) (fun n => xs (n + 1)) _

theorem alone_lift_bind {r : Except ε β} {f : β → ExceptT ε (Script F) α} {xs : Nat → Input}
    {s : Store} :
    alone h ((liftM r : ExceptT ε (Script F) β) >>= f).run xs s = match r with
      | .ok b => alone h (f b).run xs s
      | .error e => (s, .error e) := by
  rcases r with e | b <;> rfl

/-- Weakest precondition: run by itself from `s`, the script ends in `post`, whatever the
inputs. -/
def Wp (post : α → Store → Prop) : Script F α → Store → Prop
  | done a, s => post a s
  | call op next, s => ∀ x, Wp post (next (h op x s).2) (h op x s).1

variable {h} {post : α → Store → Prop}

/-- The weakest precondition speaks about the runs of `alone`. -/
theorem Wp.alone : ∀ {r : Script F α} {s : Store}, Wp h post r s → ∀ xs : Nat → Input,
    post (alone h r xs s).2 (alone h r xs s).1
  | done _, _, hr, _ => hr
  | call _ _, _, hr, xs => (hr (xs 0)).alone fun n => xs (n + 1)

theorem wp_bind {post : β → Store → Prop} {f : α → Script F β} :
    ∀ {r : Script F α} {s : Store}, Wp h post (r >>= f) s ↔
      Wp h (fun a s => Wp h post (f a) s) r s
  | done _, _ => Iff.rfl
  | call _ _, _ => forall_congr' fun _ => wp_bind

theorem Wp.mono {post post' : α → Store → Prop} (hpost : ∀ a s, post a s → post' a s) :
    ∀ {r : Script F α} {s : Store}, Wp h post r s → Wp h post' r s
  | done a, s, hr => hpost a s hr
  | call _ _, _, hr => fun x => (hr x).mono hpost

theorem wp_run_bind {x : ExceptT ε (Script F) β} {f : β → ExceptT ε (Script F) α}
    {post : Except ε α → Store → Prop} {s : Store}
    (hx : Wp h (fun r s => (∀ b, r = .ok b → Wp h post (f b).run s) ∧
      ∀ e, r = .error e → post (.error e) s) x.run s) :
    Wp h post (x >>= f).run s := by
  rw [run_bind, wp_bind]
  refine hx.mono fun r s hr => ?_
  rcases r with e | b
  · exact hr.2 e rfl
  · exact hr.1 b rfl

theorem wp_lift_bind {r : Except ε β} {f : β → ExceptT ε (Script F) α}
    {post : Except ε α → Store → Prop} {s : Store} (herr : ∀ e, r = .error e → post (.error e) s)
    (hf : ∀ b, r = .ok b → Wp h post (f b).run s) :
    Wp h post ((liftM r : ExceptT ε (Script F) β) >>= f).run s := by
  rcases r with e | b
  · exact herr e rfl
  · exact hf b rfl

theorem wp_map {x : ExceptT ε (Script F) β} {g : β → α} {post : Except ε α → Store → Prop}
    {s : Store} :
    Wp h post (g <$> x).run s ↔ Wp h (fun r s => post (r.map g) s) x.run s := by
  rw [run_map, wp_bind]
  rfl

theorem wp_perform_bind {op : F.Op} {f : F.Answer op → ExceptT ε (Script F) α}
    {post : Except ε α → Store → Prop} {s : Store} :
    Wp h post ((liftM (perform op) : ExceptT ε (Script F) (F.Answer op)) >>= f).run s ↔
      ∀ x, Wp h post (f (h op x s).2).run (h op x s).1 := Iff.rfl

end Alone

/-! ## What a script may ever ask -/

/-- Every operation the script may perform, whatever the answers, satisfies `A`. -/
def Every (A : F.Op → Prop) : Script F α → Prop
  | done _ => True
  | call op next => A op ∧ ∀ x, Every A (next x)

@[simp] theorem every_done {A : F.Op → Prop} (a : α) : Every A (done a : Script F α) := trivial

@[simp] theorem every_call {A : F.Op → Prop} (op : F.Op) (next : F.Answer op → Script F α) :
    Every A (call op next) ↔ A op ∧ ∀ x, Every A (next x) := Iff.rfl

theorem every_bind {A : F.Op → Prop} {f : α → Script F β} (hf : ∀ a, Every A (f a)) :
    ∀ {r : Script F α}, Every A r → Every A (r >>= f)
  | done a, _ => hf a
  | call _ _, hr => ⟨hr.1, fun x => every_bind hf (hr.2 x)⟩

theorem Every.mono {A B : F.Op → Prop} (hAB : ∀ op, A op → B op) :
    ∀ {r : Script F α}, Every A r → Every B r
  | done _, _ => trivial
  | call op _, hr => ⟨hAB op hr.1, fun x => (hr.2 x).mono hAB⟩

theorem every_run_bind {A : F.Op → Prop} {x : ExceptT ε (Script F) β}
    {f : β → ExceptT ε (Script F) α} (hx : Every A x.run) (hf : ∀ b, Every A (f b).run) :
    Every A (x >>= f).run := by
  rw [run_bind]
  refine every_bind (fun r => ?_) hx
  rcases r with e | b
  · exact every_done _
  · exact hf b

theorem every_lift_bind {A : F.Op → Prop} {r : Except ε β} {f : β → ExceptT ε (Script F) α}
    (hf : ∀ b, r = .ok b → Every A (f b).run) :
    Every A ((liftM r : ExceptT ε (Script F) β) >>= f).run := by
  rcases r with e | b
  · trivial
  · exact hf b rfl

theorem Every.of_bind {A : F.Op → Prop} {f : α → Script F β} :
    ∀ {r : Script F α}, Every A (r >>= f) → Every A r
  | done _, _ => trivial
  | call _ _, hr => ⟨hr.1, fun x => (hr.2 x).of_bind⟩

theorem every_lift_ok {A : F.Op → Prop} {r : Except ε β} {f : β → ExceptT ε (Script F) α} {b : β}
    (hr : r = .ok b) :
    Every A ((liftM r : ExceptT ε (Script F) β) >>= f).run ↔ Every A (f b).run := by
  subst hr
  exact Iff.rfl

theorem every_map {A : F.Op → Prop} {x : ExceptT ε (Script F) α} {g : α → β}
    (hx : Every A x.run) : Every A (g <$> x).run := by
  rw [run_map]
  exact every_bind (fun r => every_done (r.map g)) hx

theorem every_perform_bind {A : F.Op → Prop} {op : F.Op}
    {f : F.Answer op → ExceptT ε (Script F) α} :
    Every A ((liftM (perform op) : ExceptT ε (Script F) (F.Answer op)) >>= f).run ↔
      A op ∧ ∀ x, Every A (f x).run := Iff.rfl

/-- Whatever the answers, the script ends in `post`. -/
def Results (post : α → Prop) : Script F α → Prop
  | done a => post a
  | call _ next => ∀ x, Results post (next x)

@[simp] theorem results_done {post : α → Prop} (a : α) :
    Results post (done a : Script F α) ↔ post a := Iff.rfl

@[simp] theorem results_call {post : α → Prop} (op : F.Op) (next : F.Answer op → Script F α) :
    Results post (call op next) ↔ ∀ x, Results post (next x) := Iff.rfl

theorem results_bind {post : β → Prop} {f : α → Script F β} :
    ∀ {r : Script F α}, Results post (r >>= f) ↔ Results (fun a => Results post (f a)) r
  | done _ => Iff.rfl
  | call _ _ => forall_congr' fun _ => results_bind

theorem Results.mono {post post' : α → Prop} (hpost : ∀ a, post a → post' a) :
    ∀ {r : Script F α}, Results post r → Results post' r
  | done a, hr => hpost a hr
  | call _ _, hr => fun x => (hr x).mono hpost

theorem results_true : ∀ r : Script F α, Results (fun _ => True) r
  | done _ => trivial
  | call _ next => fun x => results_true (next x)

/-- What a program that may fail returns, if its last part returns it from any input. -/
theorem results_run_bind {x : ExceptT ε (Script F) β} {f : β → ExceptT ε (Script F) α}
    {post : α → Prop} (hf : ∀ b, Results (fun r => ∀ a, r = .ok a → post a) (f b).run) :
    Results (fun r => ∀ a, r = .ok a → post a) (x >>= f).run := by
  rw [run_bind, results_bind]
  refine (results_true x.run).mono fun r _ => ?_
  rcases r with e | b
  · intro a ha
    cases ha
  · exact hf b

/-- What a program asks after a part of it, whose result is known to satisfy `P`. -/
theorem every_run_bind_results {A : F.Op → Prop} {P : β → Prop} {x : ExceptT ε (Script F) β}
    {f : β → ExceptT ε (Script F) α} (hx : Every A x.run)
    (hP : Results (fun r => ∀ b, r = .ok b → P b) x.run) (hf : ∀ b, P b → Every A (f b).run) :
    Every A (x >>= f).run := by
  have hbind : ∀ {r : Script F (Except ε β)}, Every A r →
      Results (fun r => ∀ b, r = .ok b → P b) r → Every A (r >>= fun r => match r with
        | .ok b => (f b).run
        | .error e => done (.error e)) := by
    intro r
    induction r with
    | done r =>
      intro _ hr
      rcases r with e | b
      · trivial
      · exact hf b (hr b rfl)
    | call op next ih => exact fun hA hr => ⟨hA.1, fun a => ih a (hA.2 a) (hr a)⟩
  rw [run_bind]
  exact hbind hx hP

theorem results_lift_bind {r : Except ε β} {f : β → ExceptT ε (Script F) α} {post : α → Prop}
    (hf : ∀ b, r = .ok b → Results (fun r => ∀ a, r = .ok a → post a) (f b).run) :
    Results (fun r => ∀ a, r = .ok a → post a)
      ((liftM r : ExceptT ε (Script F) β) >>= f).run := by
  rcases r with e | b
  · intro a ha
    cases ha
  · exact hf b rfl

/-! ## Rely and guarantee -/

/-- The terms a script is judged on: the invariant of the store, the changes of the
store that any operation may make, and a condition under which operations are taken. -/
structure Terms (F : Interface) (Store : Type) where
  holds : Store → Prop
  guarantee : Store → Store → Prop
  allowed : F.Op → Store → Prop
  refl : ∀ s, guarantee s s
  trans : ∀ s t u, guarantee s t → guarantee t u → guarantee s u

section Correct
variable {Store Input : Type} (h : Handler F Store Input) (T : Terms F Store)

/-- From a store `s`, the script keeps the terms and ends with a result in `post`,
however others change the store in between. -/
def Correct (post : α → Store → Prop) : Script F α → Store → Prop
  | done a, s => post a s
  | call op next, s => ∀ s', T.guarantee s s' → T.holds s' → T.allowed op s' → ∀ x,
      T.holds (h op x s').1 ∧ T.guarantee s' (h op x s').1 ∧
        Correct post (next (h op x s').2) (h op x s').1

variable {h T} {post : α → Store → Prop} {s : Store}

@[simp] theorem correct_done (a : α) :
    Correct h T post (done a : Script F α) s ↔ post a s := Iff.rfl

@[simp] theorem correct_call (op : F.Op) (next : F.Answer op → Script F α) :
    Correct h T post (call op next) s ↔
      ∀ s', T.guarantee s s' → T.holds s' → T.allowed op s' → ∀ x,
        T.holds (h op x s').1 ∧ T.guarantee s' (h op x s').1 ∧
          Correct h T post (next (h op x s').2) (h op x s').1 := Iff.rfl

/-- Sequencing: the first script is to end where the second is correct. -/
@[simp] theorem correct_bind {post : β → Store → Prop} (f : α → Script F β) :
    ∀ (r : Script F α) (s : Store), Correct h T post (r >>= f) s ↔
      Correct h T (fun a s => Correct h T post (f a) s) r s
  | done _, _ => Iff.rfl
  | call op next, s => by
      simp only [call_bind, correct_call, correct_bind f]

theorem correct_lift_bind {r : Except ε β} {f : β → ExceptT ε (Script F) α}
    {post : Except ε α → Store → Prop} {s : Store} (herr : ∀ e, r = .error e → post (.error e) s)
    (hf : ∀ b, r = .ok b → Correct h T post (f b).run s) :
    Correct h T post ((liftM r : ExceptT ε (Script F) β) >>= f).run s := by
  rcases r with e | b
  · exact herr e rfl
  · exact hf b rfl

theorem correct_map {x : ExceptT ε (Script F) β} {g : β → α} {post : Except ε α → Store → Prop}
    {s : Store} :
    Correct h T post (g <$> x).run s ↔ Correct h T (fun r s => post (r.map g) s) x.run s := by
  rw [run_map, correct_bind]
  rfl

theorem correct_perform_bind {op : F.Op} {f : F.Answer op → ExceptT ε (Script F) α}
    {post : Except ε α → Store → Prop} {s : Store} :
    Correct h T post ((liftM (perform op) : ExceptT ε (Script F) (F.Answer op)) >>= f).run s ↔
      ∀ s', T.guarantee s s' → T.holds s' → T.allowed op s' → ∀ x,
        T.holds (h op x s').1 ∧ T.guarantee s' (h op x s').1 ∧
          Correct h T post (f (h op x s').2).run (h op x s').1 := Iff.rfl

/-- Consequence: a weaker postcondition. -/
theorem Correct.mono {post' : α → Store → Prop} (hpost : ∀ a s, post a s → post' a s) :
    ∀ {r : Script F α} {s : Store}, Correct h T post r s → Correct h T post' r s
  | done a, s, hr => hpost a s hr
  | call _ _, _, hr => fun s' hg hI hA x =>
      have ⟨hI', hG', hnext⟩ := hr s' hg hI hA x
      ⟨hI', hG', hnext.mono hpost⟩

theorem correct_run_bind {x : ExceptT ε (Script F) β} {f : β → ExceptT ε (Script F) α}
    {post : Except ε α → Store → Prop} {s : Store}
    (hx : Correct h T (fun r s => (∀ b, r = .ok b → Correct h T post (f b).run s) ∧
      ∀ e, r = .error e → post (.error e) s) x.run s) :
    Correct h T post (x >>= f).run s := by
  rw [run_bind, correct_bind]
  refine hx.mono fun r s hr => ?_
  rcases r with e | b
  · exact hr.2 e rfl
  · exact hr.1 b rfl

/-- An operation that leaves the store alone. -/
theorem correct_read_bind {op : F.Op} {f : F.Answer op → ExceptT ε (Script F) α}
    {post : Except ε α → Store → Prop} {s : Store} (hread : ∀ x s, (h op x s).1 = s)
    (hf : ∀ s', T.guarantee s s' → T.holds s' → ∀ x,
      Correct h T post (f (h op x s').2).run s') :
    Correct h T post ((liftM (perform op) : ExceptT ε (Script F) (F.Answer op)) >>= f).run s := by
  intro s' hg hI _ x
  rw [hread x s']
  exact ⟨hI, T.refl s', hf s' hg hI x⟩

/-- **Stability.**  A script that is correct stays so while others change the store,
provided its postcondition does. -/
theorem Correct.stable (hpost : ∀ a s s', T.guarantee s s' → post a s → post a s') :
    ∀ {r : Script F α} {s s' : Store}, Correct h T post r s → T.guarantee s s' →
      Correct h T post r s'
  | done a, _, _, hr, hg => hpost a _ _ hg hr
  | call _ _, _, _, hr, hg => fun t hgt => hr t (T.trans _ _ _ hg hgt)

/-- A script whose operations keep the terms wherever `P` holds is correct where it does. -/
theorem Every.correct {A : F.Op → Prop} {P : Store → Prop}
    (hP : ∀ s s', T.guarantee s s' → P s → P s')
    (hA : ∀ op x s, A op → P s → T.holds s → T.allowed op s →
      T.holds (h op x s).1 ∧ T.guarantee s (h op x s).1) :
    ∀ {r : Script F α} {s : Store}, r.Every A → P s → Correct h T (fun _ _ => True) r s
  | done _, _, _, _ => trivial
  | call op _, _, hr, hs => fun s' hg hI hC x =>
      have hs' := hP _ s' hg hs
      have ⟨hI', hG'⟩ := hA op x s' hr.1 hs' hI hC
      ⟨hI', hG', (hr.2 _).correct hP hA (hP _ _ hG' hs')⟩

end Correct

/-! ## What a script asks after what it has read -/

section Asks
variable {Store Input : Type} (h : Handler F Store Input) (rely : Store → Store → Prop)
  (P : F.Op → Store → Prop)

/-- From a store `s`, every operation the script performs finds a store with which it satisfies
`P`, as long as others change the store as `rely` allows. -/
def Asks : Script F α → Store → Prop
  | done _, _ => True
  | call op next, s => ∀ s', rely s s' → P op s' ∧
      ∀ x, Asks (next (h op x s').2) (h op x s').1

variable {h rely P}

/-- **Stability.**  What a script asks stays so while others change the store. -/
theorem Asks.stable (htrans : ∀ s t u, rely s t → rely t u → rely s u) :
    ∀ {r : Script F α} {s s' : Store}, r.Asks h rely P s → rely s s' → r.Asks h rely P s'
  | done _, _, _, _, _ => trivial
  | call _ _, _, _, hr, hg => fun t hgt => hr t (htrans _ _ _ hg hgt)

end Asks
end Script
