import MppSdk.TsSessionFetch

/-! # Targets that outlive their session

The target and the queue of the session fetch client survive the opening of another session,
and `commitTarget` reads the open session when its turn comes.  What was recorded for one
session is then committed on the next.

The invariant: every amount that may yet be committed is recorded for the session that is open,
or within its watermark.  Only the opening of a session and the retry can break it. -/

namespace MppSdk
namespace Ts
open Script

namespace FetchState
variable {s t : FetchState} {n : Nat}

/-! ## The order of the states of a client -/

/-- Watermarks rise, and sessions stay opened with what was recorded for them. -/
structure Grows (s t : FetchState) : Prop where
  sessions : ∀ r, (s.sessions r).cumulative ≤ (t.sessions r).cumulative
  openings : ∀ (i : Nat) (o : Opening), s.openings[i]? = some o →
    ∃ o' : Opening, t.openings[i]? = some o' ∧ o'.session = o.session ∧
      ∀ m ∈ o.recorded, m ∈ o'.recorded

theorem Grows.refl (s : FetchState) : s.Grows s where
  sessions _ := Nat.le_refl _
  openings _ o h := ⟨o, h, rfl, fun _ hm => hm⟩

theorem Grows.trans {u : FetchState} (hst : s.Grows t) (htu : t.Grows u) : s.Grows u where
  sessions r := (hst.sessions r).trans (htu.sessions r)
  openings i o h := by
    obtain ⟨o', ho', hsession, hrecorded⟩ := hst.openings i o h
    obtain ⟨o'', ho'', hsession', hrecorded'⟩ := htu.openings i o' ho'
    exact ⟨o'', ho'', hsession'.trans hsession, fun m hm => hrecorded' m (hrecorded m hm)⟩

/-- The same sessions and openings. -/
theorem Grows.of_eq (hsessions : t.sessions = s.sessions) (hopenings : t.openings = s.openings) :
    s.Grows t where
  sessions r := by rw [hsessions]
  openings i o h := ⟨o, hopenings ▸ h, rfl, fun _ hm => hm⟩

/-- An opening that is changed keeps its session and what was recorded for it. -/
theorem grows_modifyOpening {f : Opening → Opening} (hsession : ∀ o, (f o).session = o.session)
    (hrecorded : ∀ o, ∀ m ∈ o.recorded, m ∈ (f o).recorded) (i : Nat) :
    s.Grows (s.modifyOpening i f) where
  sessions _ := Nat.le_refl _
  openings j o h := by
    have hj : (s.modifyOpening i f).openings[j]? = some (if i = j then f o else o) := by
      show (s.openings.modify i f)[j]? = _
      rw [List.getElem?_modify, h]
      rfl
    by_cases hij : i = j
    · rw [if_pos hij] at hj
      exact ⟨f o, hj, hsession o, hrecorded o⟩
    · rw [if_neg hij] at hj
      exact ⟨o, hj, rfl, fun _ hm => hm⟩

/-- The amount is recorded for an opened session. -/
def RecordedFor (s : FetchState) (i n : Nat) : Prop :=
  ∃ o, s.openings[i]? = some o ∧ ∃ m ∈ o.recorded, n ≤ m

theorem RecordedFor.grows {i : Nat} (h : s.RecordedFor i n) (hg : s.Grows t) : t.RecordedFor i n := by
  obtain ⟨o, ho, m, hm, hle⟩ := h
  obtain ⟨o', ho', -, hrecorded⟩ := hg.openings i o ho
  exact ⟨o', ho', m, hrecorded m hm, hle⟩

/-- What is covered stays so while no other session is opened. -/
theorem Covers.grows (h : s.Covers n) (hg : s.Grows t)
    (hlength : t.openings.length = s.openings.length) : t.Covers n := by
  obtain ⟨o, ho, hcovers⟩ := h
  rw [List.getLast?_eq_getElem?] at ho
  obtain ⟨o', ho', hsession, hrecorded⟩ := hg.openings _ o ho
  refine ⟨o', ?_, ?_⟩
  · rw [List.getLast?_eq_getElem?, hlength]
    exact ho'
  · rcases hcovers with hle | ⟨m, hm, hle⟩
    · refine Or.inl (hle.trans ?_)
      unfold cumulative
      rw [hsession]
      exact hg.sessions _
    · exact Or.inr ⟨m, hrecorded m hm, hle⟩

/-! ## What may yet be committed -/

/-- Every amount that may yet be committed is covered. -/
def Covered (s : FetchState) : Prop := ∀ n ∈ s.pending, s.Covers n

theorem mem_pending : n ∈ s.pending ↔
    n ∈ s.commitQueue ∨ s.targetCumulative = some n ∧ s.lastQueuedCumulative < n := by
  simp [pending]

/-- A commit that is queued adds its target to what may yet be committed. -/
theorem mem_pending_queueCommit {target : Nat} (h : n ∈ (s.queueCommit target).pending) :
    n ∈ s.pending ∨ n = target ∧ s.lastQueuedCumulative < target := by
  unfold queueCommit at h
  split at h
  · exact Or.inl h
  · rename_i hlt
    have hlt := Nat.lt_of_not_le hlt
    rcases mem_pending.mp h with hqueue | ⟨htarget, habove⟩
    · rcases List.mem_append.mp hqueue with hqueue | hnew
      · exact Or.inl (mem_pending.mpr (Or.inl hqueue))
      · exact Or.inr ⟨List.mem_singleton.mp hnew, hlt⟩
    · have habove : target < n := habove
      exact Or.inl (mem_pending.mpr (Or.inr ⟨htarget, hlt.trans habove⟩))

theorem queueCommit_openings (s : FetchState) (target : Nat) :
    (s.queueCommit target).openings = s.openings ∧ (s.queueCommit target).sessions = s.sessions := by
  unfold queueCommit
  split <;> exact ⟨rfl, rfl⟩

/-- Covering depends on the sessions and the openings only. -/
theorem covers_congr (hsessions : t.sessions = s.sessions) (hopenings : t.openings = s.openings) :
    t.Covers n ↔ s.Covers n := by
  unfold Covers cumulative
  rw [hsessions, hopenings]

/-- A commit is queued for a target that is covered. -/
theorem Covered.queueCommit (h : s.Covered) {target : Nat}
    (htarget : s.lastQueuedCumulative < target → s.Covers target) :
    (s.queueCommit target).Covered := by
  intro n hn
  have ⟨hopenings, hsessions⟩ := s.queueCommit_openings target
  rw [covers_congr hsessions hopenings]
  rcases mem_pending_queueCommit hn with hn | ⟨rfl, hlt⟩
  · exact h n hn
  · exact htarget hlt

/-! ## What one step keeps -/

/-- What is committed is within what was recorded, and will be. -/
structure Invariant (s : FetchState) : Prop where
  within : s.WithinRecorded
  covered : s.Covered

/-- A step of the client that leaves the openings alone. -/
theorem Invariant.of_eq (h : s.Invariant) (hsessions : t.sessions = s.sessions)
    (hopenings : t.openings = s.openings) (hpending : ∀ n ∈ t.pending, n ∈ s.pending) :
    t.Invariant ∧ s.Grows t := by
  refine ⟨⟨?_, fun n hn => ?_⟩, .of_eq hsessions hopenings⟩
  · unfold WithinRecorded
    rw [hopenings]
    exact h.within
  · rw [covers_congr hsessions hopenings]
    exact h.covered n (hpending n hn)

theorem Invariant.queueCommit (h : s.Invariant) {target : Nat}
    (htarget : s.lastQueuedCumulative < target → s.Covers target) :
    (s.queueCommit target).Invariant ∧ s.Grows (s.queueCommit target) := by
  have ⟨hopenings, hsessions⟩ := s.queueCommit_openings target
  refine ⟨⟨?_, h.covered.queueCommit htarget⟩, .of_eq hsessions hopenings⟩
  unfold WithinRecorded
  rw [hopenings]
  exact h.within

/-- The commit of the recorded target is queued. -/
theorem Invariant.queueTarget (h : s.Invariant) {target : Nat}
    (htarget : s.targetCumulative = some target) :
    (s.queueCommit target).Invariant ∧ s.Grows (s.queueCommit target) :=
  h.queueCommit fun hlt => h.covered target (mem_pending.mpr (Or.inr ⟨htarget, hlt⟩))

/-- Openings that are changed, but for what was committed on them within what was recorded. -/
theorem Invariant.modifyOpening (h : s.Invariant) {i : Nat} {f : Opening → Opening}
    (hsession : ∀ o, (f o).session = o.session)
    (hrecorded : ∀ o, ∀ m ∈ o.recorded, m ∈ (f o).recorded)
    (hcommitted : ∀ o, s.openings[i]? = some o → ∀ n ∈ (f o).committed,
      ∃ m ∈ (f o).recorded, n ≤ m) :
    (s.modifyOpening i f).Invariant ∧ s.Grows (s.modifyOpening i f) := by
  have hg := grows_modifyOpening hsession hrecorded i (s := s)
  refine ⟨⟨?_, fun n hn => (h.covered n hn).grows hg (List.length_modify f s.openings i)⟩, hg⟩
  intro o ho n hn
  obtain ⟨j, hj⟩ := List.mem_iff_getElem?.mp ho
  have hj : (s.openings.modify i f)[j]? = some o := hj
  rw [List.getElem?_modify] at hj
  obtain ⟨o', ho', rfl⟩ := Option.map_eq_some_iff.mp hj
  by_cases hij : i = j
  · rw [if_pos hij] at hn ⊢
    exact hcommitted o' (hij ▸ ho') n hn
  · rw [if_neg hij] at hn ⊢
    exact h.within o' (List.mem_of_getElem? ho') n hn

theorem targetCumulative_recordTarget (s : FetchState) (target : Nat) :
    (s.recordTarget target).targetCumulative = some (s.targetCumulative.elim target (max target)) := by
  unfold FetchState.recordTarget
  rcases hold : s.targetCumulative with _ | highest
  · simp [FetchState.modifyOpening, hold]
  · simp only [FetchState.modifyOpening, hold, Option.elim_some, Option.some.injEq]
    split_ifs <;> omega

/-- The target of `recordCumulative` is recorded for the open session. -/
theorem Invariant.recordTarget (h : s.Invariant) {opened : Opening}
    (hopened : s.openings.getLast? = some opened) (target : Nat) :
    (s.recordTarget target).Invariant ∧ s.Grows (s.recordTarget target) ∧
      (s.recordTarget target).Covers target := by
  obtain ⟨hI, hg⟩ := h.modifyOpening (i := s.openings.length - 1)
    (f := fun o => { o with recorded := target :: o.recorded }) (fun _ => rfl)
    (fun _ m hm => List.mem_cons_of_mem target hm) fun o ho n hn => by
      obtain ⟨m, hm, hle⟩ := h.within o (List.mem_of_getElem? ho) n hn
      exact ⟨m, List.mem_cons_of_mem target hm, hle⟩
  -- the session that is open has the target among what is recorded for it
  have hlast : (s.recordTarget target).Covers target := by
    refine ⟨{ opened with recorded := target :: opened.recorded }, ?_,
      Or.inr ⟨target, List.mem_cons_self, Nat.le_refl target⟩⟩
    rw [List.getLast?_eq_getElem?] at hopened ⊢
    show (s.openings.modify _ _)[(s.openings.modify _ _).length - 1]? = _
    rw [List.length_modify, List.getElem?_modify_eq, hopened]
    rfl
  refine ⟨⟨hI.within, fun n hn => ?_⟩, hg.trans (.of_eq rfl rfl), hlast⟩
  rcases mem_pending.mp hn with hqueue | ⟨htarget, habove⟩
  · exact hI.covered n (mem_pending.mpr (Or.inl hqueue))
  · rw [targetCumulative_recordTarget, Option.some.injEq] at htarget
    rcases hold : s.targetCumulative with _ | highest
    · rw [hold, Option.elim_none] at htarget
      exact htarget ▸ hlast
    · rw [hold, Option.elim_some] at htarget
      rcases Nat.le_total highest target with hle | hle
      · rw [Nat.max_eq_left hle] at htarget
        exact htarget ▸ hlast
      · rw [Nat.max_eq_right hle] at htarget
        rw [← htarget] at habove ⊢
        exact hI.covered highest (mem_pending.mpr (Or.inr ⟨hold, habove⟩))

theorem Invariant.commitOrSchedule (h : s.Invariant) (client : SessionFetchClient) (force : Bool)
    (now : Int) {target : Nat} (hcovers : s.Covers target) :
    (s.commitOrSchedule client target force now).Invariant ∧
      s.Grows (s.commitOrSchedule client target force now) := by
  unfold FetchState.commitOrSchedule
  split
  · obtain ⟨hI, hg⟩ := h.of_eq (t := { s.clearTrailingCommit with lastCommitQueuedAt := now }) rfl
      rfl fun _ hn => hn
    obtain ⟨hI', hg'⟩ := hI.queueCommit fun _ => hcovers
    exact ⟨hI', hg.trans hg'⟩
  · exact h.of_eq rfl rfl fun _ hn => hn

theorem Invariant.recordCumulative (h : s.Invariant) (client : SessionFetchClient)
    (cumulativeAmount : AmountLike) (options : RecordOptions) (now : Int) :
    (s.recordCumulative client cumulativeAmount options now).1.Invariant ∧
      s.Grows (s.recordCumulative client cumulativeAmount options now).1 := by
  unfold FetchState.recordCumulative
  split
  · exact ⟨h, .refl s⟩
  · next hrecordable =>
    simp only [recordable, bind_eq_ok, pure, Except.pure, Except.ok.injEq, Prod.mk.injEq] at hrecordable
    obtain ⟨_, -, opened, hopen, target, -, rfl, rfl⟩ := hrecordable
    dsimp only
    split
    · exact ⟨h, .refl s⟩
    · obtain ⟨hI, hg, hcovers⟩ := h.recordTarget (okOrElse_eq_ok.mp hopen) target
      split
      · exact ⟨hI, hg⟩
      · obtain ⟨hI', hg'⟩ := hI.commitOrSchedule client options.force now hcovers
        exact ⟨hI', hg.trans hg'⟩

theorem Invariant.flush (h : s.Invariant) : s.flush.1.Invariant ∧ s.Grows s.flush.1 := by
  unfold FetchState.flush
  split
  · exact ⟨h, .refl s⟩
  · split
    · exact ⟨h, .refl s⟩
    · next target htarget =>
      obtain ⟨hI, hg⟩ := h.of_eq (t := s.clearTrailingCommit) rfl rfl fun _ hn => hn
      obtain ⟨hI', hg'⟩ := hI.queueTarget htarget
      exact ⟨hI', hg.trans hg'⟩

theorem Invariant.trailingCommit (h : s.Invariant) (now : Int) :
    (s.trailingCommit now).Invariant ∧ s.Grows (s.trailingCommit now) := by
  unfold FetchState.trailingCommit
  split
  · dsimp only
    split
    · exact h.of_eq rfl rfl fun _ hn => hn
    · next target htarget =>
      obtain ⟨hI, hg⟩ := h.of_eq (t := { s.clearTrailingCommit with lastCommitQueuedAt := now }) rfl
        rfl fun _ hn => hn
      obtain ⟨hI', hg'⟩ := hI.queueTarget htarget
      exact ⟨hI', hg.trans hg'⟩
  · exact ⟨h, .refl s⟩

/-- A commit whose turn has come is one of the queue. -/
theorem Invariant.takeCommit (h : s.Invariant) :
    s.takeCommit.1.Invariant ∧ s.Grows s.takeCommit.1 ∧ ∀ turn ∈ s.takeCommit.2,
      turn.target ≤ turn.current ∨ s.RecordedFor turn.opening turn.target := by
  unfold FetchState.takeCommit
  split
  · next target commitQueue _ hqueue =>
    obtain ⟨hI, hg⟩ := h.of_eq (t := { s with committing := true, commitQueue }) rfl rfl
      fun n hn => by
        rcases mem_pending.mp hn with hn | hn
        · exact mem_pending.mpr (Or.inl (hqueue ▸ List.mem_cons_of_mem target hn))
        · exact mem_pending.mpr (Or.inr hn)
    refine ⟨hI, hg, fun turn hturn => ?_⟩
    obtain rfl := Option.some.inj hturn
    have hmem : target ∈ s.commitQueue := hqueue ▸ List.mem_cons_self
    obtain ⟨o, ho, hcovers⟩ := h.covered target (mem_pending.mpr (Or.inl hmem))
    have ho : s.openings.getLast? = some o := ho
    rcases hcovers with hle | hrecorded
    · refine Or.inl ?_
      show target ≤ s.openings.getLast?.elim 0 _
      rw [ho]
      exact hle
    · exact Or.inr ⟨o, List.getLast?_eq_getElem? ▸ ho, hrecorded⟩
  · exact ⟨h, .refl s, fun turn hturn => nomatch hturn⟩

/-- A session is opened that covers what may yet be committed. -/
theorem Invariant.opened (h : s.Invariant) {opened : SessionFetchOpenState}
    (hcarries : ∀ n ∈ s.pending, n ≤ s.cumulative opened.toSessionOpenResult) :
    let t := { s with openings := s.openings ++ [{ toSessionFetchOpenState := opened }] }
    t.Invariant ∧ s.Grows t := by
  intro t
  refine ⟨⟨fun o ho => ?_, fun n hn => ?_⟩, fun _ => Nat.le_refl _, fun i o ho => ?_⟩
  · rcases List.mem_append.mp ho with ho | ho
    · exact h.within o ho
    · obtain rfl := List.mem_singleton.mp ho
      exact fun n hn => nomatch hn
  · exact ⟨_, List.getLast?_concat, Or.inl (hcarries n hn)⟩
  · have hlt := (List.getElem?_eq_some_iff.mp ho).1
    exact ⟨o, (List.getElem?_append_left hlt).trans ho, rfl, fun _ hm => hm⟩

/-- The retry resumes from a watermark that covers the target. -/
theorem Invariant.resync (h : s.Invariant) {opened : SessionOpenResult}
    (hcarries : ∀ n ∈ s.targetCumulative, n ≤ s.cumulative opened ∨ s.Covers n) :
    let t := { s with lastQueuedCumulative := s.cumulative opened }
    t.Invariant ∧ s.Grows t := by
  intro t
  refine ⟨⟨h.within, fun n hn => ?_⟩, .of_eq rfl rfl⟩
  rcases mem_pending.mp hn with hqueue | ⟨htarget, habove⟩
  · exact h.covered n (mem_pending.mpr (Or.inl hqueue))
  · have habove : s.cumulative opened < n := habove
    rcases hcarries n htarget with hle | hcovers
    · omega
    · exact hcovers

/-- A commit is sent for what is recorded. -/
theorem Invariant.commitDelivery (h : s.Invariant) {i target : Nat}
    (hrecorded : s.RecordedFor i target) :
    let t := s.modifyOpening i fun o => { o with committed := target :: o.committed }
    t.Invariant ∧ s.Grows t := by
  refine h.modifyOpening (fun _ => rfl) (fun _ _ hm => hm) fun o ho n hn => ?_
  rcases List.mem_cons.mp hn with rfl | hn
  · obtain ⟨o', ho', hm⟩ := hrecorded
    obtain rfl := Option.some.inj (ho.symm.trans ho')
    exact hm
  · exact h.within o (List.mem_of_getElem? ho) n hn

/-- A voucher that is recorded raises the watermark of its session. -/
theorem Invariant.recordVoucher (h : s.Invariant) (r : Nat) (voucher : SignedVoucher) :
    let t := { s with
      sessions := Function.update s.sessions r ((s.sessions r).recordVoucher voucher).1 }
    t.Invariant ∧ s.Grows t := by
  intro t
  have hrises : (s.sessions r).cumulative ≤ ((s.sessions r).recordVoucher voucher).1.cumulative := by
    rcases (s.sessions r).recordVoucher_cases voucher with ⟨e, he⟩ | ⟨n, nonce, q, -, hlt, he⟩
    · rw [he]
    · rw [he]
      exact Nat.le_of_lt hlt
  have hg : s.Grows t := by
    refine ⟨fun q => ?_, fun i o ho => ⟨o, ho, rfl, fun _ hm => hm⟩⟩
    show _ ≤ (Function.update s.sessions r _ q).cumulative
    by_cases hq : q = r
    · rw [hq, Function.update_self]
      exact hrises
    · rw [Function.update_of_ne hq]
  exact ⟨⟨h.within, fun n hn => (h.covered n hn).grows hg rfl⟩, hg⟩

end FetchState

/-! ## What the tasks keep -/

namespace SessionFetchClient
open FetchState

/-- The terms of the client: the invariant, with nothing carried over. -/
def fetchTerms : Terms fetchInterface FetchState where
  holds := Invariant
  guarantee := Grows
  allowed := CarriesNothing
  refl := .refl
  trans _ _ _ := .trans

/-- What is committed by the operation is recorded for its session. -/
def CommitsRecorded : FetchOp → FetchState → Prop
  | .commitDelivery i target _, s => s.RecordedFor i target
  | _, _ => True

section Client
variable (client : SessionFetchClient) {s : FetchState}

/-- **What an operation keeps**: nothing is committed but what was recorded. -/
theorem fetchHandler_keeps (op : FetchOp) (x : FetchInput) (s : FetchState)
    (hrecorded : CommitsRecorded op s) (hI : s.Invariant) (hcarries : CarriesNothing op s) :
    (fetchHandler client op x s).1.Invariant ∧ s.Grows (fetchHandler client op x s).1 := by
  cases op with
  | opened opened => exact hI.opened hcarries
  | resync opened => exact hI.resync hcarries
  | recordCumulative amount options => exact hI.recordCumulative client amount options x.now
  | flush => exact hI.flush
  | trailingCommit => exact hI.trailingCommit x.now
  | takeCommit => exact ⟨hI.takeCommit.1, hI.takeCommit.2.1⟩
  | commitDelivery i target request => exact hI.commitDelivery hrecorded
  | recordVoucher r voucher => exact hI.recordVoucher r voucher
  | settle outcome => exact hI.of_eq rfl rfl fun _ hn => hn
  | _ => exact ⟨hI, .refl s⟩

/-! ## The tasks -/

/-- The operation commits at most this amount, on this opened session. -/
def Commits (i target : Nat) : FetchOp → Prop
  | .commitDelivery i' target' _ => i' = i ∧ target' = target
  | _ => True

theorem Commits.recorded {i target : Nat} {op : FetchOp} (hop : Commits i target op)
    (hrecorded : s.RecordedFor i target) : CommitsRecorded op s := by
  cases op with
  | commitDelivery i' target' request =>
    obtain ⟨rfl, rfl⟩ := hop
    exact hrecorded
  | _ => trivial

/-- The operation commits nothing. -/
def CommitsNothing : FetchOp → Prop
  | .commitDelivery _ _ _ => False
  | _ => True

theorem CommitsNothing.recorded {op : FetchOp} (hop : CommitsNothing op) (s : FetchState) :
    CommitsRecorded op s := by
  cases op with
  | commitDelivery i target request => exact hop.elim
  | _ => trivial

/-- A program that commits nothing keeps the terms. -/
theorem correct_of_commitsNothing {α : Type} {r : Script fetchInterface α}
    (hr : r.Every CommitsNothing) (s : FetchState) :
    r.Correct (fetchHandler client) fetchTerms (fun _ _ => True) s :=
  Every.correct (P := fun _ => True) (fun _ _ _ h => h)
    (fun op x s hop _ => fetchHandler_keeps client op x s (hop.recorded s)) hr trivial

/-- A program that commits what is recorded keeps the terms. -/
theorem correct_of_commits {i target : Nat} {α : Type} {r : Script fetchInterface α}
    (hr : r.Every (Commits i target)) (hrecorded : s.RecordedFor i target) :
    r.Correct (fetchHandler client) fetchTerms (fun _ _ => True) s :=
  Every.correct (P := fun s => s.RecordedFor i target) (fun _ _ hg h => h.grows hg)
    (fun op x s hop h => fetchHandler_keeps client op x s (hop.recorded h)) hr hrecorded

theorem fetchWithSession_commitsNothing (request : PreparedFetchRequest) :
    (client.fetchWithSession request).run.Every CommitsNothing := by
  refine every_perform_bind.mpr ⟨trivial, fun _ => every_lift_bind fun _ _ => ?_⟩
  refine every_perform_bind.mpr ⟨trivial, fun _ => every_lift_bind fun response _ => ?_⟩
  split
  · exact every_done _
  · refine every_lift_bind fun challenge _ => ?_
    rcases challenge with _ | challenge
    · exact every_done _
    · refine every_perform_bind.mpr ⟨trivial, fun _ => every_lift_bind fun opened _ => ?_⟩
      refine every_perform_bind.mpr ⟨trivial, fun _ => ?_⟩
      refine every_perform_bind.mpr ⟨trivial, fun _ => every_lift_bind fun retryResponse _ => ?_⟩
      split
      · exact every_perform_bind.mpr ⟨trivial, fun _ => every_done _⟩
      · exact every_done _

theorem flush_commitsNothing : flush.run.Every CommitsNothing := by
  refine every_perform_bind.mpr ⟨trivial, fun _ => every_lift_bind fun _ _ => ?_⟩
  refine every_perform_bind.mpr ⟨trivial, fun receipt => ?_⟩
  exact every_perform_bind.mpr ⟨trivial, fun _ => every_lift_bind fun _ _ => every_done _⟩

theorem recordCumulative_commitsNothing (cumulativeAmount : AmountLike) (options : RecordOptions) :
    (recordCumulative cumulativeAmount options).run.Every CommitsNothing :=
  every_perform_bind.mpr ⟨trivial, fun _ => every_lift_bind fun _ _ => every_done _⟩

/-- A commit is of its target, on the session that was open when its turn came. -/
theorem commitTarget_commits (turn : Turn) :
    (client.commitTarget turn).run.Every (Commits turn.opening turn.target) := by
  refine every_lift_bind fun opened _ => ?_
  split
  · exact every_done _
  · refine every_perform_bind.mpr ⟨trivial, fun _ => every_perform_bind.mpr ⟨trivial, fun _ => ?_⟩⟩
    refine every_run_bind (every_lift_bind fun url _ => every_perform_bind.mpr
      ⟨trivial, fun _ => every_done _⟩) fun directive => ?_
    refine every_perform_bind.mpr ⟨trivial, fun session => ?_⟩
    refine every_run_bind ?_ fun voucher => ?_
    · refine every_lift_bind fun _ _ => every_perform_bind.mpr ⟨trivial, fun _ => every_done _⟩
    · refine every_run_bind (every_run_bind ?_ fun url => ?_) fun receipt => ?_
      · unfold commitUrl
        split
        · exact every_done _
        · exact every_perform_bind.mpr ⟨trivial, fun _ => every_lift_bind fun _ _ => every_done _⟩
      · exact every_perform_bind.mpr ⟨⟨rfl, rfl⟩, fun _ => every_done _⟩
      · exact every_perform_bind.mpr ⟨trivial, fun _ => every_lift_bind fun _ _ => every_done _⟩

/-- A commit that does not exceed the watermark asks nothing. -/
theorem commitTarget_commitsNothing {turn : Turn} (h : turn.target ≤ turn.current) :
    (client.commitTarget turn).run.Every CommitsNothing := by
  refine every_lift_bind fun opened _ => ?_
  rw [if_pos h]
  exact every_done _

/-- **What the queue keeps.**  A commit whose turn has come was recorded for its session. -/
theorem nextCommit_correct (s : FetchState) :
    client.nextCommit.Correct (fetchHandler client) fetchTerms (fun _ _ => True) s := by
  intro s₁ _ hI hcarries x
  obtain ⟨hI', hg, hturn⟩ := hI.takeCommit
  refine ⟨hI', hg, ?_⟩
  show Correct _ _ _ (match s₁.takeCommit.2 with
    | none => _
    | some turn => _) _
  rcases h : s₁.takeCommit.2 with _ | turn
  · trivial
  · have hsettle : ∀ outcome, (perform (F := fetchInterface) (.settle outcome)).Every
        CommitsNothing := fun outcome => ⟨trivial, fun _ => trivial⟩
    rcases hturn turn h with hle | hrecorded
    · exact correct_of_commitsNothing client
        (every_bind hsettle (client.commitTarget_commitsNothing hle)) _
    · refine (correct_bind _ _ _).mpr ?_
      refine (correct_of_commits client (client.commitTarget_commits turn) (hrecorded.grows hg)).mono
        fun outcome s₂ _ => ?_
      exact correct_of_commitsNothing client (hsettle outcome) s₂

/-- A task whose program commits nothing. -/
theorem correct_of_program {α : Type} {r : Script fetchInterface α} (outcome : α → Outcome)
    (hr : r.Every CommitsNothing) (s : FetchState) :
    (r >>= fun a => Script.done (outcome a)).Correct (fetchHandler client) fetchTerms
      (fun _ _ => True) s :=
  correct_of_commitsNothing client (every_bind (fun a => every_done (outcome a)) hr) s

/-- **What every task keeps.** -/
theorem task_correct (task : Task) (s : FetchState) :
    (client.task task).Correct (fetchHandler client) fetchTerms (fun _ _ => True) s := by
  cases task with
  | fetch request =>
    exact correct_of_program client .response (client.fetchWithSession_commitsNothing request) s
  | recordCumulative amount options =>
    exact correct_of_program client .ended (recordCumulative_commitsNothing amount options) s
  | commitCumulative amount =>
    have hcommit : (commitCumulative amount).run.Every CommitsNothing :=
      every_run_bind (recordCumulative_commitsNothing amount _) fun _ => flush_commitsNothing
    exact correct_of_program client .receipt hcommit s
  | flush => exact correct_of_program client .receipt flush_commitsNothing s
  | trailingCommit =>
    have hfire : (perform (F := fetchInterface) .trailingCommit).Every CommitsNothing :=
      ⟨trivial, fun _ => trivial⟩
    exact correct_of_program client (fun _ => .ended (.ok ())) hfire s
  | nextCommit => exact (correct_bind _ _ _).mpr ((client.nextCommit_correct s).mono fun _ _ _ => trivial)

/-- **Nothing is overspent while nothing is carried over.** -/
theorem withinRecorded_of_carriesNothing (sessions : Nat → ActiveSession) (run : List Event)
    (h : (client.machine sessions).Guarded (Pool.Guard CarriesNothing) run) :
    (client.machine sessions).Always (fun p => p.store.WithinRecorded) run := by
  intro before hbefore
  have hinit : fetchTerms.holds { sessions } := ⟨fun o ho => (nomatch ho), fun n hn => (nomatch hn)⟩
  have hprogram : ∀ task s, fetchTerms.holds s → (client.task task).Correct (fetchHandler client)
      fetchTerms (fun _ _ => True) s := fun task s _ => client.task_correct task s
  have hkeeps := Pool.correct_run hinit (fun _ _ _ _ _ _ => trivial) hprogram before
    (h.suffix hbefore)
  exact hkeeps.1.within

end Client

namespace Sample

def client : SessionFetchClient where
  selectChallenge _ := return some .null
  resolveUrl path base := return base ++ path
  serializeCredential _ _ _ := "Payment e30"

/-- A session, and one that is opened next. -/
def sessions (cumulative : Nat) : Nat → ActiveSession
  | 0 => {
      channelId := "11111111111111111111111111111111"
      cumulative := 0
      expiresAt := 1
      nonce := 0
      signer := "11111111111111111111111111111113" }
  | _ => {
      channelId := "11111111111111111111111111111112"
      cumulative
      expiresAt := 1
      nonce := 0
      signer := "11111111111111111111111111111113" }

/-- A directive that names no URL. -/
def directive : MeteringDirective where
  deliveryId := "a"
  sessionId := ""
  amount := "100"
  currency := "USDC"
  sequence := 1
  expiresAt := 1
  commitUrl := none
  proof := none

/-- What comes from outside; a request is answered with the status. -/
def input (status session : Nat) : FetchInput where
  now := 5000
  fetch := .ok { status, text := "", json := .ok .null }
  opener := .ok { payload := .null, session }
  commitQueue := none
  defaultDeliveryId := "mpp-1"
  reserveDelivery := .ok { status := 200, text := "", json := .ok directive }
  signed := .ok (some ⟨List.replicate 63 0 ++ [1], rfl⟩)
  commitDelivery := .ok {
    status := 200, text := "", json := .ok {
      deliveryId := "a", sessionId := "", amount := "100", cumulative := "100"
      status := .committed } }

/-- The task at a position performs its next operations. -/
def steps (position count status session : Nat) : List Event :=
  List.replicate count (.step position (input status session))

/-- A session is opened, 100 recorded for it and committed, and another opened; then a flush. -/
def reopened : List Event :=
  List.reverse (
    [.start (.fetch { input := "https://api.test" })] ++ steps 0 2 402 0 ++ steps 0 4 200 0 ++
    [.start (.recordCumulative (.bigint 100) {})] ++ steps 1 1 200 0 ++
    [.start .nextCommit] ++ steps 2 10 200 0 ++
    [.start (.fetch { input := "https://api.test" })] ++ steps 3 2 402 1 ++ steps 3 4 200 1 ++
    [.start .flush] ++ steps 4 1 200 1 ++
    [.start .nextCommit] ++ steps 5 10 200 1)

/-- The other session starts at 0: nothing is recorded for it, and 100 is committed on it. -/
theorem reopened_overspends :
    ¬ (client.machine (sessions 0)).Always (fun p => p.store.WithinRecorded) reopened := by
  intro h
  have hlast : ((client.machine (sessions 0)).exec reopened).store.WithinRecorded := h.last
  revert hlast
  decide +kernel

/-- The other session starts at 100, and nothing more is committed. -/
theorem reopened_withinRecorded :
    (client.machine (sessions 100)).Always (fun p => p.store.WithinRecorded) reopened :=
  withinRecorded_of_carriesNothing client (sessions 100) reopened (by decide +kernel)

end Sample

end SessionFetchClient
end Ts
end MppSdk
