import Mathlib.Data.Set.Subsingleton
import MppSdk.Interleaving

/-! # Calls that own a key

Several calls race for keys marked in a shared store.  A call owns at most one key at a
time: it comes to own one that was not marked and is now, and while it does, no operation
of another call unmarks it.  `Owns` says that a script keeps these rules whatever the
others do, and `owns_run` that then, in every run, no two calls own the same key.  So a
result that only an owner can have (`single_owner`) belongs to one call at most.

Where a call ends as soon as it has marked a key, with a result that claims it
(`EndsWithClaim`), the steps that are not allowed are exactly those that let a second call
claim a key (`single_owner_iff`). -/

namespace Script
variable {F : Interface} {Store Input Key α β ε : Type}

/-- What a step of a call that owns `own` may do: all other marks last, and a key it owns
afterwards is marked, and was its own or was not marked. -/
def Passes (marked : Store → Key → Prop) (own own' : Option Key) (s s' : Store) : Prop :=
  (∀ k, own ≠ some k → marked s k → marked s' k) ∧
    ∀ k, own' = some k → marked s' k ∧ (own = some k ∨ ¬ marked s k)

section Owns
variable (h : Handler F Store Input) (marked : Store → Key → Prop)
  (allowed : F.Op → Input → Store → Prop)

/-- A script that owns `own` keeps the rules and ends with a result and an ownership in
`post`.  Only a key that is marked can be owned. -/
def Owns (post : Option Key → α → Prop) : Option Key → Script F α → Prop
  | own, done a => post own a
  | own, call op next => ∀ s x, (∀ k, own = some k → marked s k) → allowed op x s →
      ∃ own', Passes marked own own' s (h op x s).1 ∧ Owns post own' (next (h op x s).2)

variable {h marked allowed} {post : Option Key → α → Prop} {own : Option Key}

/-- Keeping what one owns, in a store that does not change. -/
theorem Passes.same {s : Store} (hown : ∀ k, own = some k → marked s k) :
    Passes marked own own s s :=
  ⟨fun _ _ hk => hk, fun k hk => ⟨hown k hk, Or.inl hk⟩⟩

theorem owns_bind {post : Option Key → β → Prop} {f : α → Script F β} :
    ∀ {r : Script F α} {own : Option Key}, Owns h marked allowed post own (r >>= f) ↔
      Owns h marked allowed (fun own a => Owns h marked allowed post own (f a)) own r
  | done _, _ => Iff.rfl
  | call op next, own => by
      show (∀ s x, _ → _ → ∃ own', _ ∧ Owns h marked allowed post own' (_ >>= f)) ↔ _
      simp only [owns_bind]
      exact Iff.rfl

theorem Owns.mono {post' : Option Key → α → Prop} (hpost : ∀ own a, post own a → post' own a) :
    ∀ {r : Script F α} {own : Option Key}, Owns h marked allowed post own r →
      Owns h marked allowed post' own r
  | done a, own, hr => hpost own a hr
  | call _ _, _, hr => fun s x hown hA =>
      have ⟨own', hpasses, hnext⟩ := hr s x hown hA
      ⟨own', hpasses, hnext.mono hpost⟩

theorem owns_run_bind {x : ExceptT ε (Script F) β} {f : β → ExceptT ε (Script F) α}
    {post : Option Key → Except ε α → Prop}
    (hx : Owns h marked allowed (fun own r =>
      (∀ b, r = .ok b → Owns h marked allowed post own (f b).run) ∧
        ∀ e, r = .error e → post own (.error e)) own x.run) :
    Owns h marked allowed post own (x >>= f).run := by
  rw [run_bind, owns_bind]
  refine hx.mono fun own r hr => ?_
  rcases r with e | b
  · exact hr.2 e rfl
  · exact hr.1 b rfl

theorem owns_lift_bind {r : Except ε β} {f : β → ExceptT ε (Script F) α}
    {post : Option Key → Except ε α → Prop} (herr : ∀ e, r = .error e → post own (.error e))
    (hf : ∀ b, r = .ok b → Owns h marked allowed post own (f b).run) :
    Owns h marked allowed post own ((liftM r : ExceptT ε (Script F) β) >>= f).run := by
  rcases r with e | b
  · exact herr e rfl
  · exact hf b rfl

/-- An operation that leaves the store alone, with an answer that is allowed. -/
theorem owns_answer_bind {op : F.Op} {f : F.Answer op → ExceptT ε (Script F) α}
    {post : Option Key → Except ε α → Prop} (hread : ∀ x s, (h op x s).1 = s)
    (hf : ∀ x s, allowed op x s → Owns h marked allowed post own (f (h op x s).2).run) :
    Owns h marked allowed post own
      ((liftM (perform op) : ExceptT ε (Script F) (F.Answer op)) >>= f).run := by
  intro s x hown hA
  refine ⟨own, ?_, hf x s hA⟩
  rw [hread x s]
  exact Passes.same hown

theorem owns_read_bind {op : F.Op} {f : F.Answer op → ExceptT ε (Script F) α}
    {post : Option Key → Except ε α → Prop} (hread : ∀ x s, (h op x s).1 = s)
    (hf : ∀ a, Owns h marked allowed post own (f a).run) :
    Owns h marked allowed post own
      ((liftM (perform op) : ExceptT ε (Script F) (F.Answer op)) >>= f).run :=
  owns_answer_bind hread fun _ _ _ => hf _

/-- A script that only reads. -/
theorem owns_of_reads {post : Option Key → α → Prop} {own : Option Key} :
    ∀ {r : Script F α}, r.Every (fun op => ∀ x s, (h op x s).1 = s) → r.Results (post own) →
      Owns h marked allowed post own r
  | done _, _, hpost => hpost
  | call op next, hr, hpost => fun s x hown _ =>
      ⟨own, by rw [hr.1 x s]; exact Passes.same hown, owns_of_reads (hr.2 _) (hpost _)⟩

end Owns

section Claims
variable (h : Handler F Store Input) (marked : Store → Key → Prop)
  (allowed : F.Op → Input → Store → Prop) (claims : α → Key → Prop)

/-- An operation that marks a key ends the script with a claim to this key, and one that is
not allowed ends it with a claim to a key that is marked already. -/
def EndsWithClaim : Script F α → Prop
  | done _ => True
  | call op next => ∀ s x,
      (∀ k, marked (h op x s).1 k → ¬ marked s k →
        ∃ a, next (h op x s).2 = done a ∧ claims a k) ∧
      (¬ allowed op x s → ∃ a k, next (h op x s).2 = done a ∧ claims a k ∧ marked s k) ∧
      EndsWithClaim (next (h op x s).2)

/-- The operation changes nothing and is always allowed. -/
def Quiet (op : F.Op) : Prop := ∀ s x, (h op x s).1 = s ∧ allowed op x s

variable {h marked allowed claims}

end Claims
end Script

namespace Pool
open Script
variable {F : Interface} {Store Input Call Key α : Type}
variable {h : Handler F Store Input} {program : Call → Script F α}
variable {marked : Store → Key → Prop} {allowed : F.Op → Input → Store → Prop}
variable {post : Option Key → α → Prop}

/-- The calls of a pool with what each of them owns: each keeps the rules, what is owned
is marked, and no two calls own the same key. -/
structure Owned (h : Handler F Store Input) (marked : Store → Key → Prop)
    (allowed : F.Op → Input → Store → Prop) (post : Option Key → α → Prop) (p : Pool F Store Call α)
    (own : Nat → Option Key) : Prop where
  keeps : ∀ i cr, p.calls[i]? = some cr → Owns h marked allowed post (own i) cr.2
  marks : ∀ i k, own i = some k → marked p.store k
  inRange : ∀ i, p.calls.length ≤ i → own i = none
  injective : ∀ i j k, own i = some k → own j = some k → i = j

/-- A new call owns nothing. -/
theorem Owned.start {p : Pool F Store Call α} {own : Nat → Option Key}
    (ho : Owned h marked allowed post p own) (c : Call)
    (hc : Owns h marked allowed post none (program c)) :
    Owned h marked allowed post ⟨p.store, p.calls ++ [(c, program c)]⟩ own where
  keeps i cr hi := by
    rcases Nat.lt_trichotomy i p.calls.length with hlt | heq | hgt
    · exact ho.keeps i cr (by rwa [List.getElem?_append_left hlt] at hi)
    · subst heq
      rw [List.getElem?_concat_length] at hi
      obtain rfl := Option.some.inj hi
      rw [ho.inRange _ (Nat.le_refl _)]
      exact hc
    · rw [List.getElem?_eq_none (by simp; omega)] at hi
      cases hi
  marks := ho.marks
  inRange i hi := by
    rw [List.length_append, List.length_singleton] at hi
    exact ho.inRange i (by omega)
  injective := ho.injective

/-- A call performs an operation that keeps the rules. -/
theorem Owned.step {p : Pool F Store Call α} {own : Nat → Option Key}
    (ho : Owned h marked allowed post p own) {i : Nat} {c : Call} {op : F.Op}
    {next : F.Answer op → Script F α} {x : Input} (hi : p.calls[i]? = some (c, .call op next))
    (hA : allowed op x p.store) :
    ∃ own', Owned h marked allowed post
      ⟨(h op x p.store).1, p.calls.set i (c, next (h op x p.store).2)⟩ own' := by
  obtain ⟨mine, ⟨hlast, hnew⟩, hnext⟩ := ho.keeps i _ hi p.store x (ho.marks i) hA
  have hlt : i < p.calls.length := (List.getElem?_eq_some_iff.mp hi).1
  -- a key another call owns is neither lost nor taken
  have hothers : ∀ j k, j ≠ i → own j = some k → marked (h op x p.store).1 k ∧ mine ≠ some k := by
    intro j k hj hk
    have hnot : own i ≠ some k := fun hik => hj (ho.injective j i k hk hik)
    refine ⟨hlast k hnot (ho.marks j k hk), fun hmine => ?_⟩
    rcases (hnew k hmine).2 with hik | hfree
    · exact hnot hik
    · exact hfree (ho.marks j k hk)
  refine ⟨Function.update own i mine, ?_, ?_, ?_, ?_⟩
  · intro j cr hj
    by_cases hji : j = i
    · subst hji
      rw [List.getElem?_set_self hlt] at hj
      obtain rfl := Option.some.inj hj
      rw [Function.update_self]
      exact hnext
    · rw [List.getElem?_set_ne (Ne.symm hji)] at hj
      rw [Function.update_of_ne hji]
      exact ho.keeps j cr hj
  · intro j k hk
    by_cases hji : j = i
    · subst hji
      rw [Function.update_self] at hk
      exact (hnew k hk).1
    · rw [Function.update_of_ne hji] at hk
      exact (hothers j k hji hk).1
  · intro j hj
    rw [List.length_set] at hj
    have hji : j ≠ i := by omega
    rw [Function.update_of_ne hji]
    exact ho.inRange j hj
  · intro j k key hj hk
    by_cases hji : j = i
    · by_cases hki : k = i
      · rw [hji, hki]
      · subst hji
        rw [Function.update_self] at hj
        rw [Function.update_of_ne hki] at hk
        exact absurd hj (hothers k key hki hk).2
    · by_cases hki : k = i
      · subst hki
        rw [Function.update_self] at hk
        rw [Function.update_of_ne hji] at hj
        exact absurd hk (hothers j key hji hj).2
      · rw [Function.update_of_ne hji] at hj
        rw [Function.update_of_ne hki] at hk
        exact ho.injective j k key hj hk

/-- The ownership rule for a run that starts only certain calls. -/
theorem owns_run_of {good : Call → Prop}
    (hprogram : ∀ c, good c → Owns h marked allowed post none (program c)) (store : Store)
    (run : List (Event Call Input)) (hgood : ∀ c, Event.start c ∈ run → good c)
    (hg : (machine h program store).Guarded (Allowed allowed) run) :
    ∃ own, Owned h marked allowed post ((machine h program store).exec run) own := by
  let C (p : Pool F Store Call α) (e : Event Call Input) : Prop :=
    Allowed allowed p e ∧ ∀ c, e = .start c → good c
  have hboth : (machine h program store).Guarded C run := fun e before hb =>
    ⟨hg e before hb, fun c hc => hgood c (hc ▸ hb.subset List.mem_cons_self)⟩
  refine Machine.holds_of_guarded (C := C)
    (P := fun p => ∃ own, Owned h marked allowed post p own) ⟨fun _ => none, ?_⟩ ?_ run hboth
  · exact ⟨by simp [machine], by simp, fun _ _ => rfl, by simp⟩
  · rintro p e ⟨own, ho⟩ ⟨hC, hstart⟩
    rw [machine_step]
    rcases step_cases h program p e with
      ⟨c, rfl, hs⟩ | ⟨i, x, c, op, next, rfl, hi, hs⟩ | ⟨i, x, rfl, -, hs⟩
    · rw [hs]
      exact ⟨own, ho.start c (hprogram c (hstart c rfl))⟩
    · rw [hs]
      exact ho.step hi (hC op x ⟨i, c, rfl, next, hi⟩)
    · rw [hs]
      exact ⟨own, ho⟩

/-- **Ownership rule.**  If every program keeps the rules from owning nothing, then in
every run whose steps are allowed no two calls own the same key. -/
theorem owns_run (hprogram : ∀ c, Owns h marked allowed post none (program c)) (store : Store)
    (run : List (Event Call Input))
    (hg : (machine h program store).Guarded (Allowed allowed) run) :
    ∃ own, Owned h marked allowed post ((machine h program store).exec run) own :=
  owns_run_of (fun c _ => hprogram c) store run (fun _ _ => trivial) hg

/-- The calls that have finished with a result that claims the key. -/
def Claimants (claims : α → Key → Prop) (p : Pool F Store Call α) (k : Key) : Set Nat :=
  {i | ∃ c a, p.Finished i c a ∧ claims a k}

/-- Only the owner of a key claims it. -/
theorem Owned.claimants_subsingleton {claims : α → Key → Prop} {p : Pool F Store Call α}
    {own : Nat → Option Key} (ho : Owned h marked allowed post p own)
    (hclaims : ∀ own a k, post own a → claims a k → own = some k) (k : Key) :
    (Claimants claims p k).Subsingleton := by
  rintro i ⟨c, a, hi, ha⟩ j ⟨d, b, hj, hb⟩
  exact ho.injective i j k (hclaims _ a k (ho.keeps i _ hi) ha) (hclaims _ b k (ho.keeps j _ hj) hb)

/-- **At most one call claims a key**, if only the owner of a key can. -/
theorem single_owner {claims : α → Key → Prop}
    (hclaims : ∀ own a k, post own a → claims a k → own = some k)
    (hprogram : ∀ c, Owns h marked allowed post none (program c)) (store : Store)
    (run : List (Event Call Input))
    (hg : (machine h program store).Guarded (Allowed allowed) run) (k : Key) :
    (Claimants claims ((machine h program store).exec run) k).Subsingleton := by
  obtain ⟨own, ho⟩ := owns_run hprogram store run hg
  exact ho.claimants_subsingleton hclaims k

/-- A call that has claimed a key has done so for good. -/
theorem claimants_react (claims : α → Key → Prop) (p : Pool F Store Call α) (e : Event Call Input)
    (k : Key) : Claimants claims p k ⊆ Claimants claims (p.react h program e) k := by
  rintro j ⟨d, a, hj, ha⟩
  refine ⟨d, a, ?_, ha⟩
  show (p.react h program e).calls[j]? = some (d, .done a)
  rcases step_cases h program p e with
    ⟨c, rfl, hs⟩ | ⟨i, x, c, op, next, rfl, hi, hs⟩ | ⟨i, x, rfl, -, hs⟩
  · rw [hs, List.getElem?_append_left (List.getElem?_eq_some_iff.mp hj).1]
    exact hj
  · -- the call that performs an operation is another one
    have hji : i ≠ j := by
      rintro rfl
      cases hi.symm.trans hj
    rw [hs, List.getElem?_set_ne hji]
    exact hj
  · rw [hs]
    exact hj

theorem claimants_subset (claims : α → Key → Prop) (store : Store)
    {before run : List (Event Call Input)} (hb : before <:+ run) (k : Key) :
    Claimants claims ((machine h program store).exec before) k ⊆
      Claimants claims ((machine h program store).exec run) k := by
  obtain ⟨later, rfl⟩ := hb
  induction later with
  | nil => exact Set.Subset.rfl
  | cons e later ih => exact ih.trans (claimants_react claims _ e k)

/-- **What is claimed stays marked**, if only the owner of a key can claim it. -/
theorem claimed_marked {claims : α → Key → Prop}
    (hclaims : ∀ own a k, post own a → claims a k → own = some k)
    (hprogram : ∀ c, Owns h marked allowed post none (program c)) (store : Store)
    {before run : List (Event Call Input)} (hb : before <:+ run)
    (hg : (machine h program store).Guarded (Allowed allowed) run) {k : Key} {i : Nat}
    (hi : i ∈ Claimants claims ((machine h program store).exec before) k) :
    marked ((machine h program store).exec run).store k := by
  obtain ⟨own, ho⟩ := owns_run hprogram store run hg
  obtain ⟨c, a, hi, ha⟩ := claimants_subset claims store hb k hi
  exact ho.marks i k (hclaims _ a k (ho.keeps i _ hi) ha)

/-! ## Marks that claims account for -/

section Claims
variable {claims : α → Key → Prop}

/-- Every marked key has a call that has claimed it, and what is left of each call ends
with its claim. -/
structure Accounted (h : Handler F Store Input) (marked : Store → Key → Prop)
    (allowed : F.Op → Input → Store → Prop) (claims : α → Key → Prop)
    (p : Pool F Store Call α) : Prop where
  ends : ∀ cr ∈ p.calls, EndsWithClaim h marked allowed claims cr.2
  claimed : ∀ k, marked p.store k → (Claimants claims p k).Nonempty

end Claims
end Pool
