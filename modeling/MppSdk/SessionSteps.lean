import MppSdk.SessionServer

/-! # What a step of the session server can do

`program_issues` bounds what the server ever asks of its surroundings, whatever the
payloads and the interleaving; `effect_cases` says what one such operation does to the
store.  Every invariant of the store is derived from these two. -/

namespace MppSdk
open Script

/-- A closure fails on an unknown channel. -/
theorem Updater.apply_some {ed : Ed25519} {clock : Int64} {u : Updater}
    {stateOpt : Option ChannelState} {state' : ChannelState} {out : Captured}
    (h : u.apply ed clock stateOpt = .ok (state', out)) : ∃ state, stateOpt = some state := by
  cases u with
  | voucher u => obtain ⟨state, hs, -⟩ := VoucherUpdate.apply_eq_ok.mp h; exact ⟨state, hs⟩
  | topup u => obtain ⟨state, hs, -⟩ := TopUpUpdate.apply_eq_ok.mp h; exact ⟨state, hs⟩
  | delivery u => obtain ⟨state, hs, -⟩ := DeliveryUpdate.apply_eq_ok.mp h; exact ⟨state, hs⟩
  | commit u => obtain ⟨state, hs, -⟩ := CommitUpdate.apply_eq_ok.mp h; exact ⟨state, hs⟩
  | close u => obtain ⟨state, hs, -⟩ := CloseUpdate.apply_eq_ok.mp h; exact ⟨state, hs⟩

/-- The operation writes nothing: it puts no channel and no closure of it succeeds. -/
def SessionOp.Idle (ed : Ed25519) (x : SessionInput) (store : ChannelStore) : SessionOp → Prop
  | .putChannel _ _ => False
  | .updateChannel channelId u => ∀ r, u.apply ed x.now (store channelId) ≠ .ok r
  | _ => True

/-- **What an operation can do to the store**: nothing, put a channel, replace a stored
channel by what a closure makes of it, or finalize a stored channel. -/
theorem effect_cases (ed : Ed25519) (op : SessionOp) (x : SessionInput) (store : ChannelStore) :
    (op.Idle ed x store ∧ (sessionHandler ed op x store).1 = store) ∨
    (∃ channelId state, op = .putChannel channelId state ∧
      (sessionHandler ed op x store).1 = store.insert channelId state) ∨
    (∃ channelId u state state' out, op = .updateChannel channelId u ∧
      store channelId = some state ∧ u.apply ed x.now (some state) = .ok (state', out) ∧
      (sessionHandler ed op x store).1 = store.insert channelId state') ∨
    (∃ channelId state, op = .markFinalized channelId ∧ store channelId = some state ∧
      (sessionHandler ed op x store).1 =
        store.insert channelId { state with finalized := true }) := by
  cases op with
  | getChannel channelId => exact Or.inl ⟨trivial, rfl⟩
  | putChannel channelId state => exact Or.inr (Or.inl ⟨channelId, state, rfl, rfl⟩)
  | updateChannel channelId u =>
    rcases store.updateChannel_cases channelId (u.apply ed x.now) with
      ⟨state', out, hu, hs⟩ | ⟨e, he, hs⟩
    · obtain ⟨state, hstate⟩ := Updater.apply_some hu
      refine Or.inr (Or.inr (Or.inl ⟨channelId, u, state, state', out, rfl, hstate, ?_, ?_⟩))
      · rw [← hstate]
        exact hu
      · exact congrArg Prod.fst hs
    · exact Or.inl ⟨fun r hr => (nomatch he.symm.trans hr), congrArg Prod.fst hs⟩
  | markFinalized channelId =>
    rcases hstate : store channelId with _ | state
    · refine Or.inl ⟨trivial, ?_⟩
      simp [sessionHandler, ChannelStore.markFinalized, hstate]
    · refine Or.inr (Or.inr (Or.inr ⟨channelId, state, rfl, hstate, ?_⟩))
      simp [sessionHandler, ChannelStore.markFinalized, hstate]
  | unixTime => exact Or.inl ⟨trivial, rfl⟩
  | signatureStatus signature => exact Or.inl ⟨trivial, rfl⟩

/-- A closure that succeeds is what the store then holds. -/
theorem stored_of_update {ed : Ed25519} {x : SessionInput} {store : ChannelStore}
    {channelId : String} {u : Updater} {state state' : ChannelState} {out : Captured}
    (hstate : store channelId = some state)
    (hu : u.apply ed x.now (some state) = .ok (state', out)) :
    (sessionHandler ed (.updateChannel channelId u) x store).1 channelId = some state' := by
  show (store.updateChannel channelId (u.apply ed x.now)).1 channelId = some state'
  rw [ChannelStore.updateChannel, hstate, hu]
  exact ChannelStore.insert_self store channelId state'

/-- **Channel rule.**  What holds of each stored channel still does after an operation,
if it holds of the channel that is put and is kept by the closure or by finalizing. -/
theorem forall_channels {P : String → ChannelState → Prop} {ed : Ed25519} {op : SessionOp}
    {x : SessionInput} {store : ChannelStore}
    (hput : ∀ channelId state, op = .putChannel channelId state → P channelId state)
    (hupdate : ∀ channelId u state state' out, op = .updateChannel channelId u →
      store channelId = some state → P channelId state →
      u.apply ed x.now (some state) = .ok (state', out) → P channelId state')
    (hfinal : ∀ channelId state, op = .markFinalized channelId → P channelId state →
      P channelId { state with finalized := true })
    (h : ∀ id state, store id = some state → P id state) :
    ∀ id state, (sessionHandler ed op x store).1 id = some state → P id state := by
  intro id st hst
  rcases effect_cases ed op x store with ⟨-, hs⟩ | ⟨channelId, state, hop, hs⟩ |
    ⟨channelId, u, state, state', out, hop, hstate, hu, hs⟩ | ⟨channelId, state, hop, hstate, hs⟩
  · rw [hs] at hst
    exact h id st hst
  · rw [hs, ChannelStore.insert_eq_some] at hst
    rcases hst with ⟨rfl, rfl⟩ | ⟨-, hst⟩
    · exact hput id state hop
    · exact h id st hst
  · rw [hs, ChannelStore.insert_eq_some] at hst
    rcases hst with ⟨rfl, rfl⟩ | ⟨-, hst⟩
    · exact hupdate id u state state' out hop hstate (h id state hstate) hu
    · exact h id st hst
  · rw [hs, ChannelStore.insert_eq_some] at hst
    rcases hst with ⟨rfl, rfl⟩ | ⟨-, hst⟩
    · exact hfinal id state hop (h id state hstate)
    · exact h id st hst

namespace SessionServer
variable {server : SessionServer}

/-- The operations of the server: a channel is put freshly opened, with a deposit within
the cap, and the closures carry the configured cap, the session and a positive amount. -/
def Issues (server : SessionServer) : SessionOp → Prop
  | .putChannel channelId state => ∃ signer deposit operator,
      state = openedState channelId signer deposit operator ∧
        0 < deposit ∧ deposit ≤ server.config.maxCap
  | .updateChannel _ (.topup u) => u.maxCap = server.config.maxCap
  | .updateChannel channelId (.delivery u) => u.sessionId = channelId ∧ 0 < u.amount
  | _ => True

theorem verifyOpenSignature_issues (sigStr : String) :
    Every server.Issues (verifyOpenSignature sigStr).run := by
  refine every_lift_bind fun sig _ => every_perform_bind.mpr ⟨trivial, fun reply => ?_⟩
  trivial

theorem processOpen_issues (payload : OpenPayload) :
    Every server.Issues (server.processOpen payload).run := by
  refine every_lift_bind fun _ _ => every_lift_bind fun sessionId _ =>
    every_lift_bind fun deposit _ => every_lift_bind fun _ hpos => every_lift_bind fun _ hcap => ?_
  have hdeposit : 0 < deposit ∧ deposit ≤ server.config.maxCap :=
    ⟨UInt64.pos_iff_ne_zero.mpr (rejectIf_eq_ok.mp hpos), UInt64.not_lt.mp (rejectIf_eq_ok.mp hcap)⟩
  refine every_run_bind ?_ fun _ => every_perform_bind.mpr
    ⟨⟨payload.authorizedSigner, deposit, payload.owner.or payload.payer, rfl, hdeposit⟩,
      fun _ => every_done _⟩
  unfold confirmOpen
  split
  · exact verifyOpenSignature_issues payload.signature
  · exact every_done _

theorem verifyVoucher_issues (payload : VoucherPayload) :
    Every server.Issues (server.verifyVoucher payload).run := by
  refine every_lift_bind fun newCumulative _ => every_perform_bind.mpr ⟨trivial, fun snapshot =>
    every_lift_bind fun state _ => every_lift_bind fun _ _ => every_lift_bind fun _ _ => ?_⟩
  split
  · refine every_perform_bind.mpr ⟨trivial, fun now => every_lift_bind fun _ _ => every_done _⟩
  · refine every_lift_bind fun _ _ => every_lift_bind fun _ _ => every_lift_bind fun _ _ =>
      every_perform_bind.mpr ⟨trivial, fun now => every_lift_bind fun _ _ => ?_⟩
    exact every_perform_bind.mpr ⟨trivial, fun updated => every_lift_bind fun _ _ => every_done _⟩

theorem processTopup_issues (payload : TopUpPayload) :
    Every server.Issues (server.processTopup payload).run := by
  refine every_lift_bind fun newDeposit _ => every_perform_bind.mpr ⟨rfl, fun updated => ?_⟩
  exact every_lift_bind fun _ _ => every_done _

theorem beginDelivery_issues (request : DeliveryRequest) :
    Every server.Issues (server.beginDelivery request).run := by
  refine every_lift_bind fun _ hpos => every_perform_bind.mpr ⟨?_, fun updated => ?_⟩
  · exact ⟨rfl, UInt64.pos_iff_ne_zero.mpr (rejectIf_eq_ok.mp hpos)⟩
  · exact every_lift_bind fun _ _ => every_done _

theorem processCommit_issues (payload : CommitPayload) :
    Every server.Issues (server.processCommit payload).run := by
  refine every_lift_bind fun newCumulative _ => every_perform_bind.mpr ⟨trivial, fun snapshot =>
    every_lift_bind fun state _ => ?_⟩
  split
  · refine every_lift_bind fun _ _ => every_perform_bind.mpr ⟨trivial, fun now => ?_⟩
    exact every_lift_bind fun _ _ => every_done _
  · refine every_lift_bind fun pending _ => every_perform_bind.mpr ⟨trivial, fun now =>
      every_lift_bind fun _ _ => every_lift_bind fun _ _ => every_perform_bind.mpr
        ⟨trivial, fun signatureNow => every_lift_bind fun _ _ => ?_⟩⟩
    exact every_perform_bind.mpr ⟨trivial, fun updated => every_lift_bind fun _ _ =>
      every_lift_bind fun _ _ => every_done _⟩

theorem finalizeParams_issues (channelId : String) :
    Every server.Issues (server.finalizeParams channelId).run := by
  refine every_perform_bind.mpr ⟨trivial, fun snapshot => every_lift_bind fun state _ => ?_⟩
  exact every_lift_bind fun _ _ => every_lift_bind fun _ _ => every_done _

theorem processClose_issues (payload : ClosePayload) :
    Every server.Issues (server.processClose payload).run := by
  refine every_perform_bind.mpr ⟨trivial, fun now => every_perform_bind.mpr ⟨trivial,
    fun updated => every_lift_bind fun _ _ => ?_⟩⟩
  exact finalizeParams_issues payload.channelId

theorem markFinalized_issues (channelId : String) :
    Every server.Issues (SessionServer.markFinalized channelId).run :=
  every_perform_bind.mpr ⟨trivial, fun _ => every_done _⟩

/-- **What the server ever asks.** -/
theorem program_issues (call : Call) : Every server.Issues (server.program call) := by
  cases call with
  | processOpen payload => exact every_map (processOpen_issues payload)
  | verifyVoucher payload => exact every_map (verifyVoucher_issues payload)
  | processTopup payload => exact every_map (processTopup_issues payload)
  | beginDelivery request => exact every_map (beginDelivery_issues request)
  | processCommit payload => exact every_map (processCommit_issues payload)
  | processClose payload => exact every_map (processClose_issues payload)
  | finalizeParams channelId => exact every_map (finalizeParams_issues channelId)
  | markFinalized channelId => exact every_map (markFinalized_issues channelId)

end SessionServer
end MppSdk
