import Mathlib.Data.List.Forall2
import Mathlib.Data.List.Perm.Basic
import Mathlib.Data.List.Perm.Subperm

/-! # One item for each demand

A list of items is to meet a list of demands, each demand by an item of its own.  A greedy
round takes the first item that fits and is not taken.  What greedy rounds find is always
such a matching (`exists_of_foldlM`).  Where the demands an item fits are met by the same items,
they find one whenever there is one (`foldlM_of_forall₂`): a demand that loses its item to
another takes the item of that other.  The rounds may as well remove what they take
(`foldlM_take_iff`). -/

namespace Matching
variable {ι δ ε : Type}

/-- The item at a position fits the demand. -/
def At (fits : δ → ι → Prop) (items : List ι) (d : δ) (i : Nat) : Prop :=
  ∃ a, items[i]? = some a ∧ fits d a

/-- The demands and the selected items correspond one to one: each demand has a position of
its own whose item fits it, and every selected item is at one of these positions. -/
structure OneToOne (fits : δ → ι → Prop) (selected : ι → Prop) (items : List ι)
    (demands : List δ) (picks : List Nat) : Prop where
  nodup : picks.Nodup
  fit : List.Forall₂ (At fits items) demands picks
  complete : ∀ i a, items[i]? = some a → selected a → i ∈ picks

/-- What is picked is picked for some demand. -/
theorem exists_of_mem {R : δ → ι → Prop} {ds : List δ} {is : List ι}
    (h : List.Forall₂ R ds is) : ∀ i ∈ is, ∃ d ∈ ds, R d i := by
  induction h with
  | nil => exact fun i hi => (nomatch hi)
  | @cons d i ds is hd _ ih =>
    intro j hj
    rcases List.mem_cons.mp hj with rfl | hj
    · exact ⟨d, List.mem_cons_self, hd⟩
    · obtain ⟨d', hd', hR⟩ := ih j hj
      exact ⟨d', List.mem_cons_of_mem d hd', hR⟩

/-- Positions that are all one further stay apart. -/
theorem nodup_shift {picks : List Nat} (h : picks.Nodup) : (picks.map (· + 1)).Nodup :=
  List.Pairwise.map (· + 1) (fun _ _ hne heq => hne (Nat.succ.inj heq)) h

section Parts
variable {fits : δ → ι → Prop} {selected : ι → Prop} {items : List ι}

/-- What an item is there for: a demand, or nothing that is selected. -/
def Covers (fits : δ → ι → Prop) (selected : ι → Prop) : Option δ → ι → Prop
  | some d, a => fits d a
  | none, a => ¬ selected a

theorem at_cons_succ {a : ι} {d : δ} {i : Nat} (h : At fits items d i) :
    At fits (a :: items) d (i + 1) := h

/-- The positions of the items that are there for a demand. -/
theorem exists_positions {parts : List (Option δ)}
    (h : List.Forall₂ (Covers fits selected) parts items) :
    ∃ picks, OneToOne fits selected items (parts.filterMap id) picks := by
  induction h with
  | nil => exact ⟨[], List.nodup_nil, List.Forall₂.nil, fun i a hi => nomatch hi⟩
  | @cons part a parts items hcovers _ ih =>
    obtain ⟨picks, hnodup, hfit, hcomplete⟩ := ih
    have hshift : List.Forall₂ (At fits (a :: items)) (parts.filterMap id) (picks.map (· + 1)) :=
      List.forall₂_map_right_iff.mpr (hfit.imp fun d i hi => at_cons_succ hi)
    have hnodup' : (picks.map (· + 1)).Nodup := nodup_shift hnodup
    cases part with
    | none =>
      refine ⟨picks.map (· + 1), hnodup', hshift, fun i b hi hb => ?_⟩
      cases i with
      | zero => exact absurd (Option.some.inj hi ▸ hb) hcovers
      | succ i => exact List.mem_map_of_mem (hcomplete i b hi hb)
    | some d =>
      refine ⟨0 :: picks.map (· + 1), ?_, List.Forall₂.cons ⟨a, rfl, hcovers⟩ hshift, ?_⟩
      · refine List.nodup_cons.mpr ⟨fun hmem => ?_, hnodup'⟩
        obtain ⟨i, -, hi⟩ := List.mem_map.mp hmem
        exact absurd hi (Nat.succ_ne_zero i)
      · intro i b hi hb
        cases i with
        | zero => exact List.mem_cons_self
        | succ i => exact List.mem_cons_of_mem _ (List.mem_map_of_mem (hcomplete i b hi hb))

/-- Items that are there for the demands, in some order, and for nothing else that is
selected. -/
theorem oneToOne_of_parts {parts : List (Option δ)} {demands : List δ}
    (h : List.Forall₂ (Covers fits selected) parts items)
    (hperm : (parts.filterMap id).Perm demands) :
    ∃ picks, OneToOne fits selected items demands picks := by
  obtain ⟨picks, hnodup, hfit, hcomplete⟩ := exists_positions h
  obtain ⟨picks', hfit', hsame⟩ := List.perm_comp_forall₂ hperm.symm hfit
  exact ⟨picks', hsame.nodup_iff.mpr hnodup, hfit',
    fun i a hi ha => hsame.mem_iff.mpr (hcomplete i a hi ha)⟩

/-- What the selected items say is what the demands ask for, in some order. -/
theorem OneToOne.perm {τ : Type} {say : ι → τ} {ask : δ → τ} [DecidablePred selected]
    {demands : List δ} {picks : List Nat} (h : OneToOne fits selected items demands picks)
    (hfits : ∀ d a, fits d a → selected a ∧ say a = ask d) :
    ((items.filter selected).map say).Perm (demands.map ask) := by
  -- what is said at a position, if it is selected
  let heard : List ι → Nat → Option τ := fun items i =>
    (items[i]?.filter selected).map say
  have hall : ∀ items : List ι, (List.range items.length).filterMap (heard items) =
      (items.filter selected).map say := by
    intro items
    induction items with
    | nil => rfl
    | cons a items ih =>
      rw [List.length_cons, List.range_succ_eq_map, List.filterMap_cons, List.filterMap_map]
      have htail : (List.range items.length).filterMap (heard (a :: items) ∘ Nat.succ) =
          (items.filter selected).map say := ih
      rw [htail]
      by_cases ha : selected a
      · have hhead : heard (a :: items) 0 = some (say a) := by simp [heard, Option.filter, ha]
        rw [List.filter_cons_of_pos (by simpa using ha), hhead, List.map_cons]
      · have hhead : heard (a :: items) 0 = none := by simp [heard, Option.filter, ha]
        rw [List.filter_cons_of_neg (by simpa using ha), hhead]
  have hasked : picks.filterMap (heard items) = demands.map ask := by
    obtain ⟨-, hfit, -⟩ := h
    induction hfit with
    | nil => rfl
    | @cons d i _ _ hd _ ih =>
      obtain ⟨a, ha, hda⟩ := hd
      obtain ⟨hselected, hsay⟩ := hfits d a hda
      have hhead : heard items i = some (say a) := by simp [heard, Option.filter, ha, hselected]
      rw [List.filterMap_cons, List.map_cons, ih, hhead, hsay]
  have hsame : (picks.filter fun i => (heard items i).isSome).Perm
      ((List.range items.length).filter fun i => (heard items i).isSome) := by
    refine (List.perm_ext_iff_of_nodup (h.nodup.filter _)
      (List.nodup_range.filter _)).mpr fun i => ?_
    simp only [List.mem_filter, List.mem_range]
    refine and_congr_left fun hi => ?_
    obtain ⟨t, ht⟩ := Option.isSome_iff_exists.mp hi
    obtain ⟨a, ha, -⟩ := Option.map_eq_some_iff.mp ht
    obtain ⟨ha, hselected⟩ := Option.filter_eq_some_iff.mp ha
    have hlt : i < items.length := (List.getElem?_eq_some_iff.mp ha).1
    exact ⟨fun _ => hlt, fun _ => h.complete i a ha (by simpa using hselected)⟩
  have hsilent : ∀ is : List Nat, (is.filter fun i => (heard items i).isSome).filterMap (heard items) =
      is.filterMap (heard items) := by
    intro is
    rw [List.filterMap_filter]
    refine List.filterMap_congr fun i _ => ?_
    rcases heard items i with _ | t <;> rfl
  rw [← hall, ← hasked, ← hsilent, ← hsilent picks]
  exact (hsame.filterMap _).symm

end Parts

section Greedy
variable {fits : δ → ι → Prop} {items : List ι} {pick : List Nat → δ → Except ε (List Nat)}

/-- **Greedy rounds match.**  Rounds that each take a free position whose item fits give
every demand a position of its own. -/
theorem exists_of_foldlM (hpick : ∀ matched d after, pick matched d = .ok after →
      ∃ i, after = i :: matched ∧ i ∉ matched ∧ At fits items d i) :
    ∀ {demands : List δ} {matched after : List Nat}, matched.Nodup →
      demands.foldlM pick matched = .ok after →
      ∃ picks, after = picks.reverse ++ matched ∧ after.Nodup ∧
        List.Forall₂ (At fits items) demands picks := by
  intro demands
  induction demands with
  | nil =>
    intro matched after hnodup h
    obtain rfl : matched = after := by cases h; rfl
    exact ⟨[], rfl, hnodup, List.Forall₂.nil⟩
  | cons d ds ih =>
    intro matched after hnodup h
    rw [List.foldlM_cons] at h
    rcases hround : pick matched d with e | next
    · rw [hround] at h
      cases h
    · rw [hround] at h
      obtain ⟨i, rfl, hfree, hat⟩ := hpick matched d next hround
      obtain ⟨picks, rfl, hall, hfits⟩ := ih (List.nodup_cons.mpr ⟨hfree, hnodup⟩) h
      refine ⟨i :: picks, ?_, hall, List.Forall₂.cons hat hfits⟩
      rw [List.reverse_cons, List.append_assoc, List.singleton_append]

/-- The demand that uses `i` can use `j` instead. -/
theorem exists_swap {R : δ → Nat → Prop} {i j : Nat} :
    ∀ {ds : List δ} {js : List Nat}, (∀ d ∈ ds, R d i → R d j) → List.Forall₂ R ds js → i ∈ js →
      ∃ js', List.Forall₂ R ds js' ∧ (i :: js').Perm (j :: js) := by
  intro ds js hsame h
  induction h with
  | nil => exact fun hi => (nomatch hi)
  | @cons d₁ i₁ ds js h₁ hrest ih =>
    intro hi
    by_cases heq : i = i₁
    · subst heq
      have hj : R d₁ j := hsame d₁ List.mem_cons_self h₁
      exact ⟨j :: js, List.Forall₂.cons hj hrest, List.Perm.swap j i js⟩
    · have hmem : i ∈ js := (List.mem_cons.mp hi).resolve_left heq
      obtain ⟨js', hfits, hperm⟩ := ih (fun d hd => hsame d (List.mem_cons_of_mem d₁ hd)) hmem
      refine ⟨i₁ :: js', List.Forall₂.cons h₁ hfits, ?_⟩
      have hfront : (i :: i₁ :: js').Perm (i₁ :: j :: js) :=
        (List.Perm.swap i₁ i js').trans (hperm.cons i₁)
      exact hfront.trans (List.Perm.swap j i₁ js)

/-- **Greedy rounds find a matching if there is one**, where the demands an item fits are
met by the same items and every item that fits is in the matching. -/
theorem foldlM_of_forall₂ :
    ∀ {demands : List δ} {picks matched : List Nat},
      (∀ d ∈ demands, ∀ d' ∈ demands, ∀ a b, fits d a → fits d' a → fits d b → fits d' b) →
      (∀ d ∈ demands, ∀ matched, (∃ i, i ∉ matched ∧ At fits items d i) →
        ∃ i, i ∉ matched ∧ At fits items d i ∧ pick matched d = .ok (i :: matched)) →
      picks.Nodup → (∀ i ∈ picks, i ∉ matched) →
      (∀ d ∈ demands, ∀ i, At fits items d i → i ∉ matched → i ∈ picks) →
      List.Forall₂ (At fits items) demands picks →
      ∃ after, demands.foldlM pick matched = .ok after ∧ after.Perm (picks ++ matched) := by
  intro demands
  induction demands with
  | nil =>
    intro picks matched _ _ _ _ _ hfits
    obtain rfl := List.forall₂_nil_left_iff.mp hfits
    exact ⟨matched, rfl, List.Perm.refl _⟩
  | cons d ds ih =>
    intro picks matched hsame hpick hnodup hfree hcover hfits
    obtain ⟨j, js, hj, hjs, rfl⟩ := List.forall₂_cons_left_iff.mp hfits
    obtain ⟨i, hi, hat, hround⟩ :=
      hpick d List.mem_cons_self matched ⟨j, hfree j List.mem_cons_self, hj⟩
    have hmem : i ∈ j :: js := hcover d List.mem_cons_self i hat hi
    -- the rest of the matching once `d` has the position the round took
    obtain ⟨js', hjs', hperm⟩ : ∃ js', List.Forall₂ (At fits items) ds js' ∧
        (i :: js').Perm (j :: js) := by
      rcases List.mem_cons.mp hmem with rfl | hmem
      · exact ⟨js, hjs, List.Perm.refl _⟩
      · refine exists_swap (fun d' hd' hi' => ?_) hjs hmem
        obtain ⟨a, ha, hfa⟩ := hat
        obtain ⟨a', ha', hfa'⟩ := hi'
        obtain ⟨b, hb, hfb⟩ := hj
        cases ha.symm.trans ha'
        exact ⟨b, hb, hsame d List.mem_cons_self d' (List.mem_cons_of_mem d hd') a b hfa hfa' hfb⟩
    obtain ⟨hnew, hnodup'⟩ := List.nodup_cons.mp (hperm.nodup_iff.mpr hnodup)
    have hfree' : ∀ k ∈ js', k ∉ i :: matched := by
      intro k hk hin
      rcases List.mem_cons.mp hin with rfl | hin
      · exact hnew hk
      · exact hfree k (hperm.mem_iff.mp (List.mem_cons_of_mem i hk)) hin
    have hcover' : ∀ d' ∈ ds, ∀ k, At fits items d' k → k ∉ i :: matched → k ∈ js' := by
      intro d' hd' k hk hout
      obtain ⟨hne, hout⟩ := not_or.mp (List.mem_cons.not.mp hout)
      have hin := hperm.mem_iff.mpr (hcover d' (List.mem_cons_of_mem d hd') k hk hout)
      exact (List.mem_cons.mp hin).resolve_left hne
    obtain ⟨after, hafter, hfinal⟩ := ih
      (fun d₁ h₁ d₂ h₂ => hsame d₁ (List.mem_cons_of_mem d h₁) d₂ (List.mem_cons_of_mem d h₂))
      (fun d' hd' => hpick d' (List.mem_cons_of_mem d hd')) hnodup' hfree' hcover' hjs'
    refine ⟨after, ?_, ?_⟩
    · rw [List.foldlM_cons, hround]
      exact hafter
    · refine hfinal.trans (List.perm_middle.trans ?_)
      exact hperm.append_right matched

end Greedy

section Removal
variable {fits : δ → ι → Prop}

/-- The demand that uses `a` can use `c` instead. -/
theorem exists_exchange {a c : ι} :
    ∀ {ds : List δ} {cs : List ι}, (∀ d ∈ ds, fits d a → fits d c) → List.Forall₂ fits ds cs →
      a ∈ c :: cs → ∃ cs', List.Forall₂ fits ds cs' ∧ (a :: cs').Perm (c :: cs) := by
  intro ds cs hsame h
  induction h with
  | nil =>
    intro ha
    obtain rfl := List.mem_singleton.mp ha
    exact ⟨[], List.Forall₂.nil, List.Perm.refl _⟩
  | @cons d₁ c₁ ds cs h₁ hrest ih =>
    intro ha
    rcases List.mem_cons.mp ha with rfl | ha
    · exact ⟨c₁ :: cs, List.Forall₂.cons h₁ hrest, List.Perm.refl _⟩
    rcases List.mem_cons.mp ha with rfl | ha
    · have hc : fits d₁ c := hsame d₁ List.mem_cons_self h₁
      exact ⟨c :: cs, List.Forall₂.cons hc hrest, List.Perm.swap c a cs⟩
    · obtain ⟨cs', hfits, hperm⟩ :=
        ih (fun d hd => hsame d (List.mem_cons_of_mem d₁ hd)) (List.mem_cons_of_mem c ha)
      refine ⟨c₁ :: cs', List.Forall₂.cons h₁ hfits, ?_⟩
      have hfront : (a :: c₁ :: cs').Perm (c₁ :: c :: cs) :=
        (List.Perm.swap c₁ a cs').trans (hperm.cons c₁)
      exact hfront.trans (List.Perm.swap c c₁ cs)

/-- A part of the items that meets the demands, at positions of their own. -/
theorem exists_picks {items chosen : List ι} {demands : List δ} (hpart : chosen.Subperm items)
    (hfits : List.Forall₂ fits demands chosen) :
    ∃ picks, picks.Nodup ∧ List.Forall₂ (At fits items) demands picks := by
  obtain ⟨part, hperm, hsub⟩ := hpart
  -- the positions of a sublist
  obtain ⟨picks, hnodup, hat⟩ : ∃ picks : List Nat, picks.Nodup ∧
      List.Forall₂ (fun a i => items[i]? = some a) part picks := by
    clear hperm hfits
    induction hsub with
    | slnil => exact ⟨[], List.nodup_nil, List.Forall₂.nil⟩
    | cons a _ ih =>
      obtain ⟨picks, hnodup, hat⟩ := ih
      exact ⟨picks.map (· + 1), nodup_shift hnodup,
        List.forall₂_map_right_iff.mpr (hat.imp fun _ _ h => h)⟩
    | cons_cons a _ ih =>
      obtain ⟨picks, hnodup, hat⟩ := ih
      refine ⟨0 :: picks.map (· + 1), List.nodup_cons.mpr ⟨?_, nodup_shift hnodup⟩,
        List.Forall₂.cons rfl (List.forall₂_map_right_iff.mpr (hat.imp fun _ _ h => h))⟩
      intro hzero
      obtain ⟨i, -, hi⟩ := List.mem_map.mp hzero
      exact absurd hi (Nat.succ_ne_zero i)
  obtain ⟨picks', hat', hsame⟩ := List.perm_comp_forall₂ hperm.symm hat
  refine ⟨picks', hsame.nodup_iff.mpr hnodup, ?_⟩
  clear hnodup hat hsame hperm hsub
  induction hfits generalizing picks' with
  | nil =>
    obtain rfl := List.forall₂_nil_left_iff.mp hat'
    exact List.Forall₂.nil
  | cons hd _ ih =>
    obtain ⟨i, is, hi, his, rfl⟩ := List.forall₂_cons_left_iff.mp hat'
    exact List.Forall₂.cons ⟨_, hi, hd⟩ (ih is his)

/-- Positions of their own are a part of the items. -/
theorem exists_chosen {items : List ι} {demands : List δ} {picks : List Nat}
    (hnodup : picks.Nodup) (hfits : List.Forall₂ (At fits items) demands picks) :
    ∃ chosen, chosen.Subperm items ∧ List.Forall₂ fits demands chosen := by
  have hrange : picks ⊆ List.range items.length := by
    intro i hi
    obtain ⟨d, -, a, ha, -⟩ := exists_of_mem hfits i hi
    exact List.mem_range.mpr (List.getElem?_eq_some_iff.mp ha).1
  obtain ⟨part, hperm, hsub⟩ := hnodup.subperm hrange
  have hall : ∀ items : List ι, (List.range items.length).filterMap (items[·]?) = items := by
    intro items
    induction items with
    | nil => rfl
    | cons a items ih =>
      rw [List.length_cons, List.range_succ_eq_map, List.filterMap_cons, List.filterMap_map]
      exact congrArg (a :: ·) ih
  refine ⟨picks.filterMap (items[·]?), ⟨part.filterMap (items[·]?), hperm.filterMap _, ?_⟩, ?_⟩
  · have hpart := hsub.filterMap (items[·]?)
    rwa [hall] at hpart
  · clear hnodup hrange hperm hsub
    induction hfits with
    | nil => exact List.Forall₂.nil
    | cons hd _ ih =>
      obtain ⟨a, ha, hfit⟩ := hd
      rw [List.filterMap_cons, ha]
      exact List.Forall₂.cons hfit ih

/-- **Greedy rounds that remove what they take** meet the demands exactly when a part of the
items meets them, where the demands an item fits are met by the same items. -/
theorem foldlM_take_iff {good : ι → Prop} {need : δ → Prop}
    {take : List ι → δ → Except ε (List ι)}
    (hok : ∀ items d after, (∀ a ∈ items, good a) → need d → take items d = .ok after →
      ∃ a, fits d a ∧ items.Perm (a :: after))
    (hfind : ∀ items d, (∀ a ∈ items, good a) → need d → (∃ a ∈ items, fits d a) →
      ∃ after, take items d = .ok after)
    (hsame : ∀ d d' a b, fits d a → fits d' a → fits d b → fits d' b) :
    ∀ {demands : List δ} {items : List ι}, (∀ d ∈ demands, need d) → (∀ a ∈ items, good a) →
      ((∃ after, demands.foldlM take items = .ok after) ↔
        ∃ chosen, chosen.Subperm items ∧ List.Forall₂ fits demands chosen) := by
  intro demands
  induction demands with
  | nil =>
    intro items _ _
    constructor
    · exact fun _ => ⟨[], List.nil_subperm, List.Forall₂.nil⟩
    · exact fun _ => ⟨items, rfl⟩
  | cons d ds ih =>
    intro items hneed hgood
    obtain ⟨hd, hds⟩ := List.forall_mem_cons.mp hneed
    rw [List.foldlM_cons]
    constructor
    · rintro ⟨after, h⟩
      rcases hround : take items d with e | next
      · rw [hround] at h
        cases h
      · rw [hround] at h
        obtain ⟨a, ha, hperm⟩ := hok items d next hgood hd hround
        have hgood' : ∀ b ∈ next, good b :=
          fun b hb => hgood b (hperm.mem_iff.mpr (List.mem_cons_of_mem a hb))
        obtain ⟨chosen, hpart, hfits⟩ := (ih hds hgood').mp ⟨after, h⟩
        exact ⟨a :: chosen, ((List.subperm_cons a).mpr hpart).trans hperm.symm.subperm,
          List.Forall₂.cons ha hfits⟩
    · rintro ⟨chosen, hpart, hfits⟩
      obtain ⟨c, cs, hc, hcs, rfl⟩ := List.forall₂_cons_left_iff.mp hfits
      obtain ⟨next, hround⟩ := hfind items d hgood hd ⟨c, hpart.subset List.mem_cons_self, hc⟩
      obtain ⟨a, ha, hperm⟩ := hok items d next hgood hd hround
      have hgood' : ∀ b ∈ next, good b :=
        fun b hb => hgood b (hperm.mem_iff.mpr (List.mem_cons_of_mem a hb))
      have hpart' : (c :: cs).Subperm (a :: next) := hpart.trans hperm.subperm
      rw [hround]
      refine (ih hds hgood').mpr ?_
      by_cases hmem : a ∈ c :: cs
      · obtain ⟨cs', hfits', hperm'⟩ :=
          exists_exchange (fun d' _ hd' => hsame d d' a c ha hd' hc) hcs hmem
        exact ⟨cs', (List.subperm_cons a).mp (hperm'.subperm.trans hpart'), hfits'⟩
      · -- the part lies in the rest
        obtain ⟨part, hsame', hsub⟩ := hpart'
        have hrest : part.Sublist next := by
          cases hsub with
          | cons _ h => exact h
          | cons_cons _ _ => exact absurd (hsame'.mem_iff.mp List.mem_cons_self) hmem
        exact ⟨cs, (List.sublist_cons_self c cs).subperm.trans ⟨part, hsame', hrest⟩, hcs⟩

end Removal
end Matching
