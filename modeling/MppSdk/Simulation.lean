import MppSdk.Interleaving
import Mathlib.Data.List.Forall2

/-! # Scripts that follow a ghost

A script is followed by a ghost, the state of what the script stands for in an abstract
machine.  `Shadow` says where the ghost is when an operation is asked and how it may move
when the operation is performed; `Follows` is the rely–guarantee judgement of `Correct`
with the ghost carried along.  A script of a part of the system that is correct on its own
is followed by a ghost that stays (`follows_embed_bind`). -/

namespace Script
variable {F G : Interface} {Store Input Ghost α β ε : Type}

/-- The terms of a script and its ghost. -/
structure Shadow (F : Interface) (Store Ghost : Type) where
  terms : Terms F Store
  asks : F.Op → Ghost → Prop
  move : F.Op → Store → Ghost → Store → Ghost → Prop

section Follows
variable (h : Handler F Store Input) (S : Shadow F Store Ghost)

/-- From a store, the script and its ghost keep the terms and end in `post`, however others
change the store in between. -/
def Follows (post : α → Ghost → Store → Prop) : Script F α → Ghost → Store → Prop
  | done a, g, s => post a g s
  | call op next, g, s => S.asks op g ∧ ∀ s', S.terms.guarantee s s' → S.terms.holds s' → ∀ x,
      S.terms.holds (h op x s').1 ∧ S.terms.guarantee s' (h op x s').1 ∧
        ∃ g', S.move op s' g (h op x s').1 g' ∧
          Follows post (next (h op x s').2) g' (h op x s').1

variable {h S} {post : α → Ghost → Store → Prop} {g : Ghost} {s : Store}

theorem follows_perform_bind {op : F.Op} {f : F.Answer op → ExceptT ε (Script F) α}
    {post : Except ε α → Ghost → Store → Prop} :
    Follows h S post ((liftM (perform op) : ExceptT ε (Script F) (F.Answer op)) >>= f).run g s ↔
      S.asks op g ∧ ∀ s', S.terms.guarantee s s' → S.terms.holds s' → ∀ x,
        S.terms.holds (h op x s').1 ∧ S.terms.guarantee s' (h op x s').1 ∧
          ∃ g', S.move op s' g (h op x s').1 g' ∧
            Follows h S post (f (h op x s').2).run g' (h op x s').1 := Iff.rfl

/-- Consequence: a weaker postcondition. -/
theorem Follows.mono {post' : α → Ghost → Store → Prop}
    (hpost : ∀ a g s, post a g s → post' a g s) :
    ∀ {r : Script F α} {g : Ghost} {s : Store}, Follows h S post r g s → Follows h S post' r g s
  | done a, g, s, hr => hpost a g s hr
  | call _ _, _, _, hr => ⟨hr.1, fun s' hg hI x =>
      have ⟨hI', hG', g', hmove, hnext⟩ := hr.2 s' hg hI x
      ⟨hI', hG', g', hmove, hnext.mono hpost⟩⟩

theorem follows_bind {post : β → Ghost → Store → Prop} {f : α → Script F β} :
    ∀ {r : Script F α} {g : Ghost} {s : Store},
      Follows h S (fun a g s => Follows h S post (f a) g s) r g s → Follows h S post (r >>= f) g s
  | done _, _, _, hr => hr
  | call _ _, _, _, hr => ⟨hr.1, fun s' hg hI x =>
      have ⟨hI', hG', g', hmove, hnext⟩ := hr.2 s' hg hI x
      ⟨hI', hG', g', hmove, follows_bind hnext⟩⟩

theorem follows_run_bind {x : ExceptT ε (Script F) β} {f : β → ExceptT ε (Script F) α}
    {post : Except ε α → Ghost → Store → Prop}
    (hx : Follows h S (fun r g s => (∀ b, r = .ok b → Follows h S post (f b).run g s) ∧
      ∀ e, r = .error e → post (.error e) g s) x.run g s) :
    Follows h S post (x >>= f).run g s := by
  rw [run_bind]
  refine follows_bind (hx.mono fun r g s hr => ?_)
  rcases r with e | b
  · exact hr.2 e rfl
  · exact hr.1 b rfl

/-- Where the ghost goes may depend on whether a check passes. -/
theorem exists_follows_lift_bind {M : Ghost → Prop} {r : Except ε β}
    {f : β → ExceptT ε (Script F) α} {post : Except ε α → Ghost → Store → Prop}
    (herr : ∀ e, r = .error e → ∃ g, M g ∧ post (.error e) g s)
    (hf : ∀ b, r = .ok b → ∃ g, M g ∧ Follows h S post (f b).run g s) :
    ∃ g, M g ∧ Follows h S post ((liftM r : ExceptT ε (Script F) β) >>= f).run g s := by
  rcases r with e | b
  · exact herr e rfl
  · exact hf b rfl

/-- A script goes on following its ghost while others change the store. -/
theorem Follows.stable (hpost : ∀ a g s s', S.terms.guarantee s s' → post a g s → post a g s') :
    ∀ {r : Script F α} {g : Ghost} {s s' : Store}, Follows h S post r g s →
      S.terms.guarantee s s' → Follows h S post r g s'
  | done a, _, _, _, hr, hg => hpost a _ _ _ hg hr
  | call _ _, _, _, _, hr, hg => ⟨hr.1, fun t hgt => hr.2 t (S.terms.trans _ _ _ hg hgt)⟩

end Follows

/-! ## A script of a part -/

/-- What is known of an interface that is part of another: its operations act on a view of
the store, and those that meet `A` leave the ghost where it is. -/
structure Part (h : Handler G Store Input) (S : Shadow G Store Ghost) {StoreF InputF : Type}
    (hF : Handler F StoreF InputF) (T : Terms F StoreF) (inj : F.Op → G.Op)
    (ans : ∀ op, G.Answer (inj op) → F.Answer op) (A : F.Op → Prop) (g : Ghost) where
  view : Store → StoreF
  input : Input → InputF
  view_step : ∀ op x s, view (h (inj op) x s).1 = (hF op (input x) (view s)).1
  answer : ∀ op x s, ans op (h (inj op) x s).2 = (hF op (input x) (view s)).2
  guarantee : ∀ s s', S.terms.guarantee s s' → T.guarantee (view s) (view s')
  holds : ∀ s, S.terms.holds s → T.holds (view s)
  allowed : ∀ op s, A op → T.allowed op (view s)
  asks : ∀ op, A op → S.asks (inj op) g
  step : ∀ op x s, A op → S.terms.holds s → S.terms.holds (h (inj op) x s).1 ∧
    S.terms.guarantee s (h (inj op) x s).1 ∧ S.move (inj op) s g (h (inj op) x s).1 g

/-- **A part in its place.**  A script of a part that is correct there leaves the ghost where
it is, and what comes after it may use what it ended with. -/
theorem follows_embed_bind {h : Handler G Store Input} {S : Shadow G Store Ghost}
    {StoreF InputF : Type} {hF : Handler F StoreF InputF} {T : Terms F StoreF}
    {inj : F.Op → G.Op} {ans : ∀ op, G.Answer (inj op) → F.Answer op} {A : F.Op → Prop} {g : Ghost}
    (P : Part h S hF T inj ans A g) {postF : β → StoreF → Prop} {post : α → Ghost → Store → Prop}
    {k : β → Script G α} (hk : ∀ b s, postF b (P.view s) → Follows h S post (k b) g s) :
    ∀ {r : Script F β} {s : Store}, Every A r → Correct hF T postF r (P.view s) →
      Follows h S post (embed inj ans r >>= k) g s
  | done b, s, _, hr => hk b s hr
  | call op next, s, hA, hr => by
      refine ⟨P.asks op hA.1, fun s' hg hI x => ?_⟩
      obtain ⟨hI', hG', hmove⟩ := P.step op x s' hA.1 hI
      refine ⟨hI', hG', g, hmove, ?_⟩
      have hcorrect := (hr (P.view s') (P.guarantee s s' hg) (P.holds s' hI) (P.allowed op s' hA.1)
        (P.input x)).2.2
      rw [← P.answer, ← P.view_step] at hcorrect
      exact follows_embed_bind P hk (hA.2 _) hcorrect

end Script

namespace List
variable {α β : Type*} {R : α → β → Prop}

/-- Lists that correspond still do after corresponding entries are replaced. -/
theorem Forall₂.set {l : List α} {m : List β} (h : Forall₂ R l m) {a : α} {b : β} (hab : R a b) :
    ∀ i, Forall₂ R (l.set i a) (m.set i b) := by
  induction h with
  | nil => exact fun _ => .nil
  | cons hd htl ih =>
    intro i
    cases i with
    | zero => exact .cons hab htl
    | succ i => exact .cons hd (ih i)

/-- What corresponds to an entry. -/
theorem Forall₂.exists_getElem? {l : List α} {m : List β} (h : Forall₂ R l m) :
    ∀ {i : Nat} {a : α}, l[i]? = some a → ∃ b, m[i]? = some b ∧ R a b := by
  induction h with
  | nil => exact fun h => nomatch h
  | cons hd htl ih =>
    rintro (_ | i) a hi
    · obtain rfl : _ = a := by simpa using hi
      exact ⟨_, rfl, hd⟩
    · simpa using ih (i := i) (by simpa using hi)

end List
