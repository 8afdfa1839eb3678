import MppSdk.CommitExchange
import MppSdk.CommitSteps

/-! # The consumer and its channel

Whatever the transport loses, the watermark of the channel is that of the consumer, or ahead of
it by the directive that the consumer is committing (`Balanced`).  Every request is of that
directive, or its delivery is committed; so a request that arrives late charges nothing. -/

namespace MppSdk
open Script

/-! ## Calls that spare a channel -/

/-- The operation reads, or changes neither the watermark of the channel nor what is committed. -/
def SessionOp.SparesAt (channelId : String) : SessionOp → Prop
  | .putChannel id _ => id ≠ channelId
  | .markFinalized id => id ≠ channelId
  | .updateChannel _ (.topup _) => True
  | .updateChannel _ (.delivery _) => True
  | .updateChannel id _ => id ≠ channelId
  | _ => True

/-- An operation on another channel. -/
theorem SessionOp.sparesAt_of_ne {channelId id : String} (h : id ≠ channelId) (u : Updater) :
    (SessionOp.updateChannel id u).SparesAt channelId := by
  cases u with
  | topup u => trivial
  | delivery u => trivial
  | _ => exact h

/-- The two states have the same watermark and the same committed deliveries. -/
def ChannelState.SameCharges (state state' : ChannelState) : Prop :=
  state'.cumulative = state.cumulative ∧ state'.committedDeliveries = state.committedDeliveries

/-- **What a sparing operation does to the channel.** -/
theorem SessionOp.SparesAt.step (ed : Ed25519) {channelId : String} {op : SessionOp}
    (hop : op.SparesAt channelId) (x : SessionInput) {store : ChannelStore} {state : ChannelState}
    (hstate : store channelId = some state) (hledger : state.Ledger) : ∃ state',
      (sessionHandler ed op x store).1 channelId = some state' ∧ state'.Ledger ∧
      state.Extends state' ∧ state.SameCharges state' := by
  have hsame : ∃ state', store channelId = some state' ∧ state'.Ledger ∧ state.Extends state' ∧
      state.SameCharges state' := ⟨state, hstate, hledger, .refl state, rfl, rfl⟩
  rcases effect_cases ed op x store with ⟨-, hs⟩ | ⟨id, put, rfl, hs⟩ |
    ⟨id, u, old, state', out, rfl, hold, hu, hs⟩ | ⟨id, old, rfl, -, hs⟩
  · rw [hs]
    exact hsame
  · rw [hs, ChannelStore.insert_of_ne (Ne.symm hop)]
    exact hsame
  · rw [hs]
    by_cases hid : id = channelId
    · subst hid
      obtain rfl := Option.some.inj (hold.symm.trans hstate)
      refine ⟨state', ChannelStore.insert_self store id state', ?_, .update hu, ?_⟩
      all_goals cases u
      case topup u =>
        obtain ⟨_, hsome, -, -, -, rfl⟩ := TopUpUpdate.apply_eq_ok.mp hu
        obtain rfl := Option.some.inj hsome
        exact hledger.of_same rfl rfl rfl (UInt64.le_refl _)
      case delivery u =>
        obtain ⟨_, hsome, -, -, hpending, hcommitted, hroom, rfl, -⟩ := DeliveryUpdate.apply_eq_ok.mp hu
        obtain rfl := Option.some.inj hsome
        exact hledger.reserve hpending hcommitted hroom
      case topup u =>
        obtain ⟨_, hsome, -, -, -, rfl⟩ := TopUpUpdate.apply_eq_ok.mp hu
        obtain rfl := Option.some.inj hsome
        exact ⟨rfl, rfl⟩
      case delivery u =>
        obtain ⟨_, hsome, -, -, -, -, -, rfl, -⟩ := DeliveryUpdate.apply_eq_ok.mp hu
        obtain rfl := Option.some.inj hsome
        exact ⟨rfl, rfl⟩
      all_goals exact absurd rfl hop
    · rw [ChannelStore.insert_of_ne (Ne.symm hid)]
      exact hsame
  · rw [hs, ChannelStore.insert_of_ne (Ne.symm hop)]
    exact hsame

namespace Exchange
variable {server : SessionServer} {channelId : String}

theorem finalizeParams_spares (id : String) :
    (server.finalizeParams id).run.Every (SessionOp.SparesAt channelId) := by
  refine every_perform_bind.mpr ⟨trivial, fun snapshot => every_lift_bind fun state _ => ?_⟩
  exact every_lift_bind fun _ _ => every_lift_bind fun _ _ => every_done _

theorem processOpen_spares {payload : OpenPayload} (h : payload.sessionId ≠ .ok channelId) :
    (server.processOpen payload).run.Every (SessionOp.SparesAt channelId) := by
  refine every_lift_bind fun _ _ => every_lift_bind fun sessionId hsession =>
    every_lift_bind fun _ _ => every_lift_bind fun _ _ => every_lift_bind fun _ _ => ?_
  have hne : sessionId ≠ channelId := fun heq => h (heq ▸ hsession)
  refine every_run_bind ?_ fun _ => every_perform_bind.mpr ⟨hne, fun _ => every_done _⟩
  unfold SessionServer.confirmOpen
  split
  · exact every_lift_bind fun sig _ => every_perform_bind.mpr ⟨trivial, fun reply => every_done _⟩
  · exact every_done _

theorem verifyVoucher_spares {payload : VoucherPayload}
    (h : payload.voucher.data.channelId ≠ channelId) :
    (server.verifyVoucher payload).run.Every (SessionOp.SparesAt channelId) := by
  refine every_lift_bind fun newCumulative _ => every_perform_bind.mpr ⟨trivial, fun snapshot =>
    every_lift_bind fun state _ => every_lift_bind fun _ _ => every_lift_bind fun _ _ => ?_⟩
  split
  · exact every_perform_bind.mpr ⟨trivial, fun now => every_lift_bind fun _ _ => every_done _⟩
  · refine every_lift_bind fun _ _ => every_lift_bind fun _ _ => every_lift_bind fun _ _ =>
      every_perform_bind.mpr ⟨trivial, fun now => every_lift_bind fun _ _ => ?_⟩
    exact every_perform_bind.mpr ⟨h, fun updated => every_lift_bind fun _ _ => every_done _⟩

/-- **What a call that spares the channel asks.** -/
theorem program_spares {c : SessionServer.Call} (h : Spares channelId c) :
    (server.program c).Every (SessionOp.SparesAt channelId) := by
  cases c with
  | processOpen payload => exact every_map (processOpen_spares h)
  | verifyVoucher payload => exact every_map (verifyVoucher_spares h)
  | processTopup payload =>
    refine every_map (every_lift_bind fun newDeposit _ => every_perform_bind.mpr ⟨trivial,
      fun updated => ?_⟩)
    exact every_lift_bind fun _ _ => every_done _
  | beginDelivery request =>
    refine every_map (every_lift_bind fun _ _ => every_perform_bind.mpr ⟨trivial, fun updated => ?_⟩)
    exact every_lift_bind fun _ _ => every_done _
  | processCommit payload =>
    refine every_map ((server.processCommit_commitsFor payload).mono fun op hop => ?_)
    cases op with
    | updateChannel id u =>
      obtain ⟨rfl, -⟩ := hop
      exact SessionOp.sparesAt_of_ne h u
    | putChannel id state => exact hop.elim
    | markFinalized id => exact hop.elim
    | _ => trivial
  | processClose payload =>
    refine every_map (every_perform_bind.mpr ⟨trivial, fun now => every_perform_bind.mpr
      ⟨SessionOp.sparesAt_of_ne h _, fun updated => every_lift_bind fun _ _ => ?_⟩⟩)
    exact finalizeParams_spares payload.channelId
  | finalizeParams id => exact every_map (finalizeParams_spares id)
  | markFinalized id => exact every_map (every_perform_bind.mpr ⟨h, fun _ => every_done _⟩)

/-! ## The consumer and the channel -/

variable {sign : List UInt8 → Signature}

/-- The request for a directive. -/
def payloadFor (sign : List UInt8 → Signature) (session : ActiveSession)
    (directive : MeteringDirective) (amount : UInt64) : CommitPayload where
  deliveryId := directive.deliveryId
  voucher := session.voucherFor amount (sign (session.messageFor amount))

/-- The consumer is committing the directive, which is for this amount. -/
def Committing (s : Exchange) (directive : MeteringDirective) (amount : UInt64) : Prop :=
  s.directive = some directive ∧ parseU64 directive.amount = some amount

theorem Committing.unique {s : Exchange} {directive directive' : MeteringDirective}
    {amount amount' : UInt64} (h : s.Committing directive amount)
    (h' : s.Committing directive' amount') : directive = directive' ∧ amount = amount' := by
  obtain ⟨hd, ha⟩ := h
  obtain ⟨hd', ha'⟩ := h'
  obtain rfl := Option.some.inj (hd.symm.trans hd')
  exact ⟨rfl, Option.some.inj (ha.symm.trans ha')⟩

/-- What the consumer has done and what the channel holds agree, but for the directive that the
consumer is committing. -/
structure Balanced (sign : List UInt8 → Signature) (start : Nat) (s : Exchange)
    (state : ChannelState) : Prop where
  watermark : state.cumulative = s.session.cumulative ∨
    ∃ directive amount, s.Committing directive amount ∧
      s.session.cumulative < s.session.cumulative + amount ∧
      state.cumulative = s.session.cumulative + amount ∧
      ∃ d ∈ state.committedDeliveries,
        d.Records (payloadFor sign s.session directive amount) ∧ d.amount = amount
  requests : ∀ payload ∈ s.sent, state.Charged payload ∨
    ∃ directive amount, s.Committing directive amount ∧
      payload = payloadFor sign s.session directive amount
  acknowledged : ∀ ack ∈ s.acknowledged, ∃ d ∈ state.committedDeliveries,
    d.deliveryId = ack.1.deliveryId ∧ parseU64 ack.1.amount = some d.amount
  total : s.session.cumulative.toNat = start + s.acknowledgedTotal

namespace Balanced
variable {start : Nat} {s : Exchange} {state state' : ChannelState}

theorem congr (h : Balanced sign start s state) (hsame : state.SameCharges state') :
    Balanced sign start s state' := by
  obtain ⟨hcum, hcommitted⟩ := hsame
  refine ⟨?_, ?_, ?_, h.total⟩
  · rw [hcum, hcommitted]
    exact h.watermark
  · unfold ChannelState.Charged
    rw [hcommitted]
    exact h.requests
  · rw [hcommitted]
    exact h.acknowledged

/-- What is recorded for a request is its amount. -/
theorem records_cumulative {d : CommittedDelivery} {session : ActiveSession}
    {directive : MeteringDirective} {amount : UInt64}
    (h : d.Records (payloadFor sign session directive amount)) :
    d.cumulative = session.cumulative + amount := by
  obtain ⟨-, hcum, -⟩ := h
  exact Option.some.inj (hcum.symm.trans (parseU64_toString _))

/-- **A commit charges the directive that the consumer is committing.** -/
theorem charge (h : Balanced sign start s state) {payload : CommitPayload} (hsent : payload ∈ s.sent)
    (hnew : ¬ state.Charged payload) {u : CommitUpdate} {pending : PendingDelivery}
    (hadv : u.Advances state pending) (hrecords : (u.record state).Records payload) :
    Balanced sign start s (u.committed state) := by
  have hkept : ∀ d ∈ state.committedDeliveries, d ∈ (u.committed state).committedDeliveries :=
    fun d hd => List.mem_append_left _ hd
  have hmem : u.record state ∈ (u.committed state).committedDeliveries :=
    List.mem_append_right _ (List.mem_singleton_self _)
  obtain ⟨directive, amount, hcommitting, rfl⟩ := (h.requests payload hsent).resolve_left hnew
  have hcum : u.newCumulative = s.session.cumulative + amount := records_cumulative hrecords
  obtain ⟨-, -, -, -, hlt, -⟩ := hadv
  refine ⟨Or.inr ⟨directive, amount, hcommitting, ?_⟩, fun p hp => ?_, fun ack hack => ?_, h.total⟩
  · rcases h.watermark with heq | ⟨directive', amount', hcommitting', -, -, d, hd, hrecords', -⟩
    · rw [heq, hcum] at hlt
      refine ⟨hlt, hcum, u.record state, hmem, hrecords, ?_⟩
      show u.newCumulative - state.cumulative = amount
      rw [hcum, heq, UInt64.add_comm, UInt64.add_sub_cancel]
    · -- the directive was charged before
      obtain ⟨rfl, rfl⟩ := hcommitting.unique hcommitting'
      exact absurd ⟨d, hd, hrecords'⟩ hnew
  · rcases h.requests p hp with ⟨d, hd, hr⟩ | hcurrent
    · exact Or.inl ⟨d, hkept d hd, hr⟩
    · exact Or.inr hcurrent
  · obtain ⟨d, hd, hack⟩ := h.acknowledged ack hack
    exact ⟨d, hkept d hd, hack⟩

/-- A directive is begun when none is outstanding, or again. -/
theorem begin (h : Balanced sign start s state) {directive : MeteringDirective}
    (hfree : s.directive = none ∨ s.directive = some directive) :
    Balanced sign start { s with directive := some directive } state := by
  rcases hfree with hnone | hsame
  · have hnot : ∀ directive amount, ¬ s.Committing directive amount := by
      intro directive amount hcommitting
      rw [Committing, hnone] at hcommitting
      cases hcommitting.1
    refine ⟨Or.inl (h.watermark.resolve_right ?_), fun p hp => Or.inl ?_, h.acknowledged, h.total⟩
    · rintro ⟨directive, amount, hcommitting, -⟩
      exact hnot _ _ hcommitting
    · refine (h.requests p hp).resolve_right ?_
      rintro ⟨directive, amount, hcommitting, -⟩
      exact hnot _ _ hcommitting
  · rw [← hsame]
    exact h

/-- **A receipt is acknowledged**: the consumer moves on to the watermark of the channel. -/
theorem acknowledge (h : Balanced sign start s state) (hledger : state.Ledger)
    {directive : MeteringDirective} {amount : UInt64} (hcommitting : s.Committing directive amount)
    (hlt : s.session.cumulative < s.session.cumulative + amount)
    (hcharged : state.Charged (payloadFor sign s.session directive amount))
    (receipt : CommitReceipt) :
    Balanced sign start { s with
      session := s.session.advanced amount
      directive := none
      attempt := none
      acknowledged := s.acknowledged ++ s.directive.toList.map (·, receipt) } state := by
  obtain ⟨d, hd, hrecords⟩ := hcharged
  have hle : s.session.cumulative + amount ≤ state.cumulative :=
    records_cumulative hrecords ▸ hledger.cumulative_le d hd
  -- the channel is ahead by this directive
  obtain ⟨directive', amount', hcommitting', -, hcum, d', hd', hrecords', hamount⟩ :=
    h.watermark.resolve_left fun heq => UInt64.not_lt.mpr (heq ▸ hle) hlt
  obtain ⟨rfl, rfl⟩ := hcommitting.unique hcommitting'
  refine ⟨Or.inl hcum, fun p hp => Or.inl ?_, fun ack hack => ?_, ?_⟩
  · rcases h.requests p hp with hcharged | ⟨directive', amount', hcommitting', rfl⟩
    · exact hcharged
    · obtain ⟨rfl, rfl⟩ := hcommitting.unique hcommitting'
      exact ⟨d, hd, hrecords⟩
  · rcases List.mem_append.mp hack with hack | hack
    · exact h.acknowledged ack hack
    · rw [hcommitting.1] at hack
      obtain rfl := List.mem_singleton.mp hack
      exact ⟨d', hd', hrecords'.1, hamount ▸ hcommitting.2⟩
  · have hsum : (s.session.advanced amount).cumulative.toNat =
        s.session.cumulative.toNat + amount.toNat := by
      show (s.session.cumulative + amount).toNat = _
      rw [UInt64.toNat_add, Nat.mod_eq_of_lt (ActiveSession.lt_add_iff.mp hlt).2]
    rw [hsum, h.total]
    simp [acknowledgedTotal, hcommitting.1, hcommitting.2, Nat.add_assoc]

/-- The consumer hands over requests of the directive that it is committing. -/
theorem of_eq (h : Balanced sign start s state) {s' : Exchange} (hsession : s'.session = s.session)
    (hdirective : s'.directive = s.directive) (hacknowledged : s'.acknowledged = s.acknowledged)
    (hsent : ∀ payload ∈ s'.sent, payload ∈ s.sent ∨
      ∃ directive amount, s.Committing directive amount ∧
        payload = payloadFor sign s.session directive amount) :
    Balanced sign start s' state := by
  have hcommitting : ∀ directive amount, s'.Committing directive amount ↔
      s.Committing directive amount := by
    intro directive amount
    unfold Committing
    rw [hdirective]
  refine ⟨?_, fun p hp => ?_, ?_, ?_⟩
  · simp only [hcommitting, hsession]
    exact h.watermark
  · simp only [hcommitting, hsession]
    rcases hsent p hp with hp | hcurrent
    · exact h.requests p hp
    · exact Or.inr hcurrent
  · rw [hacknowledged]
    exact h.acknowledged
  · rw [hsession, acknowledgedTotal, hacknowledged]
    exact h.total

end Balanced

end Exchange
end MppSdk
