import MppSdk.SessionSteps

/-! # What a failed call leaves behind

Run by itself, a call that returns an error leaves the store as it was: every check comes
before the one update it makes, and what follows the update succeeds.  The exception is
`process_close`, which builds its result after the update and fails there when the channel
id or the configured recipient is not a key (`LateFailure`). -/

namespace MppSdk
open Script

/-- A final voucher a close accepts: none, the one it holds, or a verified higher one. -/
def CloseUpdate.Settles (u : CloseUpdate) (ed : Ed25519) (clock : Int64) (state : ChannelState) :
    Prop :=
  u.voucherOpt = none ∨ (∃ voucher, u.Replays state voucher) ∨
    ∃ voucher cumulative, u.Advances ed clock state voucher cumulative

theorem CloseUpdate.settles_iff {u : CloseUpdate} {ed : Ed25519} {clock : Int64}
    {state : ChannelState} :
    u.Settles ed clock state ↔ ∃ r, u.settlement ed clock state = .ok r := by
  constructor
  · intro h
    rcases h with h | ⟨voucher, h⟩ | ⟨voucher, cumulative, h⟩
    · exact ⟨_, settlement_eq_ok.mpr (Or.inl ⟨h, rfl⟩)⟩
    · exact ⟨_, settlement_eq_ok.mpr (Or.inr (Or.inl ⟨voucher, h, rfl⟩))⟩
    · exact ⟨_, settlement_eq_ok.mpr (Or.inr (Or.inr ⟨voucher, cumulative, h, rfl⟩))⟩
  · intro ⟨r, hr⟩
    rcases settlement_eq_ok.mp hr with ⟨h, -⟩ | ⟨voucher, h, -⟩ | ⟨voucher, cumulative, h, -⟩
    · exact Or.inl h
    · exact Or.inr (Or.inl ⟨voucher, h⟩)
    · exact Or.inr (Or.inr ⟨voucher, cumulative, h⟩)

/-- The store is the one the call began with, if the call returned an error. -/
def KeptOnError {α : Type} (s : ChannelStore) (r : RustResult Error α) (s' : ChannelStore) :
    Prop :=
  ∀ e, r = .error (.error e) → s' = s

namespace KeptOnError
variable {α β : Type} {s : ChannelStore}

theorem ok (a : α) (s' : ChannelStore) : KeptOnError s (.ok a) s' := fun _ h => by cases h

theorem same (r : RustResult Error α) : KeptOnError s r s := fun _ _ => rfl

theorem map {g : α → β} {r : RustResult Error α} {s' : ChannelStore} (h : KeptOnError s r s') :
    KeptOnError s (r.map g) s' := by
  intro e he
  rcases r with f | a
  · exact h e (by cases he; rfl)
  · cases he

end KeptOnError

namespace SessionServer
variable {server : SessionServer} {α β : Type} {s : ChannelStore}

/-- A program keeps the store when it fails. -/
abbrev Atomic (server : SessionServer) (program : SessionM α) (s : ChannelStore) : Prop :=
  Wp (sessionHandler server.ed) (KeptOnError s) program.run s

/-- An atomic program keeps the store when its call fails. -/
theorem Atomic.keeps {program : SessionM α} {g : α → β} (h : server.Atomic program s)
    (xs : Nat → SessionInput) :
    KeptOnError s (alone (sessionHandler server.ed) (g <$> program).run xs s).2
      (alone (sessionHandler server.ed) (g <$> program).run xs s).1 :=
  (wp_map.mpr (h.mono fun _ _ hr => hr.map)).alone xs

/-- Before the update a check may fail. -/
theorem atomic_check {r : RustResult Error β} {f : β → SessionM α}
    (h : ∀ b, r = .ok b → server.Atomic (f b) s) : server.Atomic (liftM r >>= f) s :=
  wp_lift_bind (fun _ _ => .same _) h

/-- A read leaves the store alone. -/
theorem atomic_read {op : SessionOp} {f : op.Answer → SessionM α}
    (hread : ∀ x, (sessionHandler server.ed op x s).1 = s)
    (h : ∀ x, server.Atomic (f (sessionHandler server.ed op x s).2) s) :
    server.Atomic (ask op >>= f) s := by
  refine wp_perform_bind.mpr fun x => ?_
  rw [hread x]
  exact h x

/-- An update either fails, and nothing happened, or goes on from its result. -/
theorem atomic_update {channelId : String} {u : Updater} {f : ChannelState × Captured → SessionM α}
    (h : ∀ (x : SessionInput) state' out,
      u.apply server.ed x.now (s channelId) = .ok (state', out) →
        Wp (sessionHandler server.ed) (KeptOnError s) (f (state', out)).run
          (s.insert channelId state')) :
    server.Atomic (ask (.updateChannel channelId u) >>= fun r => liftM (mapErr storeErr r) >>= f)
      s := by
  refine wp_perform_bind.mpr fun x => ?_
  rcases s.updateChannel_cases channelId (u.apply server.ed x.now) with
    ⟨state', out, hu, hs⟩ | ⟨e, -, hs⟩
  · rw [show sessionHandler server.ed (.updateChannel channelId u) x s = _ from hs]
    exact h x state' out hu
  · rw [show sessionHandler server.ed (.updateChannel channelId u) x s = _ from hs]
    refine atomic_check fun b hb => ?_
    cases mapErr_eq_ok.mp hb

theorem confirmOpen_keeps (payload : OpenPayload) :
    Wp (sessionHandler server.ed) (fun _ s' => s' = s) (server.confirmOpen payload).run s := by
  unfold confirmOpen
  split
  · exact wp_lift_bind (fun _ _ => rfl) fun sig _ => wp_perform_bind.mpr fun x => rfl
  · rfl

theorem processOpen_atomic (payload : OpenPayload) :
    server.Atomic (server.processOpen payload) s := by
  refine atomic_check fun _ _ => atomic_check fun sessionId _ => atomic_check fun deposit _ =>
    atomic_check fun _ _ => atomic_check fun _ _ => wp_run_bind ?_
  refine (confirmOpen_keeps payload).mono fun r s' hs => ?_
  subst hs
  exact ⟨fun _ _ _ => KeptOnError.ok _ _, fun e _ => KeptOnError.same _⟩

theorem verifyVoucher_atomic (payload : VoucherPayload) :
    server.Atomic (server.verifyVoucher payload) s := by
  refine atomic_check fun newCumulative _ => atomic_read (fun _ => rfl) fun x =>
    atomic_check fun state _ => atomic_check fun _ _ => atomic_check fun _ _ => ?_
  split
  · exact atomic_read (fun _ => rfl) fun _ => atomic_check fun _ _ => KeptOnError.ok _ s
  · refine atomic_check fun _ _ => atomic_check fun _ _ => atomic_check fun _ _ =>
      atomic_read (fun _ => rfl) fun _ => atomic_check fun _ _ => ?_
    exact atomic_update fun _ state' _ _ => KeptOnError.ok _ _

theorem processTopup_atomic (payload : TopUpPayload) :
    server.Atomic (server.processTopup payload) s :=
  atomic_check fun _ _ => atomic_update fun _ _ _ _ => KeptOnError.ok _ _

theorem beginDelivery_atomic (request : DeliveryRequest) :
    server.Atomic (server.beginDelivery request) s := by
  refine atomic_check fun _ _ => atomic_update fun x state' out hu => ?_
  -- the closure always leaves its directive
  obtain ⟨_, -, -, -, -, -, -, -, rfl⟩ := DeliveryUpdate.apply_eq_ok.mp hu
  exact KeptOnError.ok _ _

theorem processCommit_atomic (payload : CommitPayload) :
    server.Atomic (server.processCommit payload) s := by
  refine atomic_check fun newCumulative _ => atomic_read (fun _ => rfl) fun x =>
    atomic_check fun state _ => ?_
  split
  · exact atomic_check fun _ _ => atomic_read (fun _ => rfl) fun _ => atomic_check fun _ _ =>
      KeptOnError.ok _ s
  · refine atomic_check fun pending _ => atomic_read (fun _ => rfl) fun _ =>
      atomic_check fun _ _ => atomic_check fun _ _ => atomic_read (fun _ => rfl) fun _ =>
      atomic_check fun _ _ => atomic_update fun x state' out hu => ?_
    -- the closure always leaves its outcome
    obtain ⟨_, -, ⟨d, -, -, rfl⟩ | ⟨pending, -, -, rfl⟩⟩ := CommitUpdate.apply_eq_ok.mp hu
    · exact KeptOnError.ok _ _
    · exact KeptOnError.ok _ _

theorem finalizeParams_atomic (channelId : String) :
    server.Atomic (server.finalizeParams channelId) s :=
  atomic_read (fun _ => rfl) fun _ => atomic_check fun _ _ => atomic_check fun _ _ =>
    atomic_check fun _ _ => KeptOnError.ok _ s

theorem markFinalized_atomic (channelId : String) :
    server.Atomic (SessionServer.markFinalized channelId) s := by
  refine wp_perform_bind.mpr fun x => ?_
  show KeptOnError s (mapErr storeErr (s.markFinalized channelId).2) (s.markFinalized channelId).1
  unfold ChannelStore.markFinalized
  split
  · exact KeptOnError.ok _ _
  · exact KeptOnError.same _

/-! ## The close that fails late -/

/-- The closure of a close, when the clock shows `x` at its start. -/
def closeUpdate (payload : ClosePayload) (x : SessionInput) : CloseUpdate :=
  { now := x.unixSecs, voucherOpt := payload.voucher }

/-- A close takes effect although the channel id or the recipient is not a key. -/
def LateFailure (server : SessionServer) (store : ChannelStore) (xs : Nat → SessionInput) :
    Call → Prop
  | .processClose payload =>
      (∃ state, store payload.channelId = some state ∧ state.Open ∧
        (closeUpdate payload (xs 0)).Settles server.ed (xs 1).now state) ∧
      (Bytes.fromBase58 32 payload.channelId = none ∨
        Bytes.fromBase58 32 server.config.recipient = none)
  | _ => False

/-- A call run by itself. -/
abbrev runAlone (server : SessionServer) (call : Call) (xs : Nat → SessionInput)
    (store : ChannelStore) : ChannelStore × RustResult Error Reply :=
  alone (sessionHandler server.ed) (server.program call) xs store

/-- `finalize_params` on a stored channel. -/
theorem finalizeParams_alone {channelId : String} {xs : Nat → SessionInput}
    {store : ChannelStore} {state : ChannelState} (hstate : store channelId = some state) :
    alone (sessionHandler server.ed) (server.finalizeParams channelId).run xs store =
      (store, do
        let channel ← parsePubkey channelId
        let recipient ← parsePubkey server.config.recipient
        return server.settlementOf channel recipient state) := by
  show alone _ ((liftM (okOrElse (store channelId) _) : SessionM ChannelState) >>= _).run _ _ = _
  rw [hstate, alone_lift_bind]
  simp only [okOrElse, alone_lift_bind]
  rcases parsePubkey channelId with e | channel
  · rfl
  · rcases parsePubkey server.config.recipient with e | recipient <;> rfl

/-- A close run by itself: its update, then what the two keys give. -/
theorem processClose_runAlone {payload : ClosePayload} {xs : Nat → SessionInput}
    {store : ChannelStore} {o : ChannelStore × Updated}
    (ho : sessionHandler server.ed
      (.updateChannel payload.channelId (.close (closeUpdate payload (xs 0)))) (xs 1) store = o) :
    server.runAlone (.processClose payload) xs store = match mapErr storeErr o.2 with
      | .ok _ =>
          let r := alone (sessionHandler server.ed) (server.finalizeParams payload.channelId).run
            (fun n => xs (n + 2)) o.1
          (r.1, r.2.map .closing)
      | .error e => (o.1, .error e) := by
  have hclose : alone (sessionHandler server.ed) (server.processClose payload).run xs store =
      alone (sessionHandler server.ed) ((liftM (mapErr storeErr o.2) : SessionM _) >>= fun _ =>
        server.finalizeParams payload.channelId).run (fun n => xs (n + 2)) o.1 := by
    subst ho
    rfl
  rw [runAlone, program, run_map, alone_map, hclose, alone_lift_bind]
  rcases mapErr storeErr o.2 with e | b <;> rfl

/-- A close fails late exactly when it takes effect and one of the two is not a key. -/
theorem processClose_keeps_iff (payload : ClosePayload) (xs : Nat → SessionInput)
    (store : ChannelStore) :
    KeptOnError store (server.runAlone (.processClose payload) xs store).2
        (server.runAlone (.processClose payload) xs store).1 ↔
      ¬ server.LateFailure store xs (.processClose payload) := by
  rcases store.updateChannel_cases payload.channelId
    ((closeUpdate payload (xs 0)).apply server.ed (xs 1).now) with
    ⟨state', out, hu, hs⟩ | ⟨e, hu, hs⟩
  · obtain ⟨state, hstate, -, hopen, cumulative, sig, expiresAt, hset, hstate'⟩ :=
      CloseUpdate.apply_eq_ok.mp hu
    have heffect : ∃ state, store payload.channelId = some state ∧ state.Open ∧
        (closeUpdate payload (xs 0)).Settles server.ed (xs 1).now state :=
      ⟨state, hstate, hopen, CloseUpdate.settles_iff.mpr ⟨_, hset⟩⟩
    have hchanged : store.insert payload.channelId state' ≠ store := by
      intro heq
      have hself := congrFun heq payload.channelId
      rw [ChannelStore.insert_self, hstate] at hself
      have hclosing : state'.closeRequestedAt = state.closeRequestedAt := by
        rw [Option.some.inj hself]
      rw [hstate', hopen.2] at hclosing
      cases hclosing
    rw [processClose_runAlone hs]
    simp only [mapErr,
      finalizeParams_alone (ChannelStore.insert_self store payload.channelId state')]
    -- the update is done; what is left are the two keys
    rcases hid : Bytes.fromBase58 32 payload.channelId with _ | channel
    · obtain ⟨e, he⟩ := parsePubkey_eq_error hid
      rw [he]
      exact ⟨fun h => absurd (h e rfl) hchanged, fun h => absurd ⟨heffect, Or.inl hid⟩ h⟩
    · rw [parsePubkey_eq_ok.mpr hid]
      rcases hrec : Bytes.fromBase58 32 server.config.recipient with _ | recipient
      · obtain ⟨e, he⟩ := parsePubkey_eq_error hrec
        rw [he]
        exact ⟨fun h => absurd (h e rfl) hchanged, fun h => absurd ⟨heffect, Or.inr hrec⟩ h⟩
      · rw [parsePubkey_eq_ok.mpr hrec]
        refine ⟨fun _ hlate => ?_, fun _ => KeptOnError.ok _ _⟩
        obtain ⟨-, hnone | hnone⟩ := hlate
        · cases hid.symm.trans hnone
        · cases hrec.symm.trans hnone
  · rw [processClose_runAlone hs]
    refine ⟨fun _ hlate => ?_, fun _ => ?_⟩
    · obtain ⟨⟨state, hstate, hopen, hsettles⟩, -⟩ := hlate
      obtain ⟨r, hr⟩ := CloseUpdate.settles_iff.mp hsettles
      have hok := CloseUpdate.apply_eq_ok.mpr ⟨state, hstate, rfl, hopen, r.1, r.2.1, r.2.2, hr, rfl⟩
      cases hu.symm.trans hok
    · rcases e with e | m
      · exact KeptOnError.same _
      · exact KeptOnError.same _

/-- **Exact condition for failure atomicity.**  A call that returns an error leaves the
store as it was, unless it is a close that takes effect although the channel id or the
recipient is not a key. -/
theorem keeps_store_iff (server : SessionServer) (call : Call) (xs : Nat → SessionInput)
    (store : ChannelStore) :
    (∀ e, (server.runAlone call xs store).2 = .error (.error e) →
      (server.runAlone call xs store).1 = store) ↔ ¬ server.LateFailure store xs call := by
  cases call with
  | processOpen payload => exact ⟨fun _ => id, fun _ => (processOpen_atomic payload).keeps xs⟩
  | verifyVoucher payload => exact ⟨fun _ => id, fun _ => (verifyVoucher_atomic payload).keeps xs⟩
  | processTopup payload => exact ⟨fun _ => id, fun _ => (processTopup_atomic payload).keeps xs⟩
  | beginDelivery request => exact ⟨fun _ => id, fun _ => (beginDelivery_atomic request).keeps xs⟩
  | processCommit payload => exact ⟨fun _ => id, fun _ => (processCommit_atomic payload).keeps xs⟩
  | processClose payload => exact processClose_keeps_iff payload xs store
  | finalizeParams channelId =>
    exact ⟨fun _ => id, fun _ => (finalizeParams_atomic channelId).keeps xs⟩
  | markFinalized channelId =>
    exact ⟨fun _ => id, fun _ => (markFinalized_atomic channelId).keeps xs⟩

/-- `process_open` accepts a channel id that is not a key. -/
def openChan1 : List Event :=
  List.reverse (
    [.start (.processOpen { sampleOpen with channelId := some "chan1" })] ++ steps 0 1)

/-- Closing it fails, and leaves it closing. -/
theorem closeChan1_changes_store :
    ¬ ∀ e, (sampleServer.runAlone (.processClose { channelId := "chan1" })
        (fun _ => ⟨0, .ok none⟩) (sampleServer.machine.exec openChan1).store).2 =
          .error (.error e) →
      (sampleServer.runAlone (.processClose { channelId := "chan1" })
        (fun _ => ⟨0, .ok none⟩) (sampleServer.machine.exec openChan1).store).1 =
          (sampleServer.machine.exec openChan1).store := by
  intro h
  refine (processClose_keeps_iff _ _ _).mp h ⟨⟨openedState "chan1"
    "11111111111111111111111111111112" 100 none, ?_, ⟨rfl, rfl⟩, Or.inl rfl⟩, Or.inl ?_⟩
  · decide +kernel
  · decide +kernel

end SessionServer
end MppSdk
