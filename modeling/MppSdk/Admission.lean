import MppSdk.SessionServer

/-! # Which reservations are admitted

`begin_delivery` reserves an amount when the watermark, the outstanding reservations and the
amount fit the deposit.  It adds the three as machine integers, so it admits what it should
exactly as long as their sum does not wrap around to something the deposit covers
(`admits_iff`). -/

namespace MppSdk
open Script

/-- What a channel owes with one more reservation, over unbounded integers: the watermark,
the outstanding reservations and the new amount. -/
def ChannelState.owed (state : ChannelState) (amount : UInt64) : Nat :=
  state.cumulative.toNat + (state.pendingDeliveries.map (·.amount.toNat)).sum + amount.toNat

/-- The sum the code compares with the deposit. -/
theorem ChannelState.toNat_owed (state : ChannelState) (amount : UInt64) :
    (state.cumulative + state.pendingTotal + amount).toNat = state.owed amount % 2 ^ 64 := by
  have hpending : state.pendingTotal.toNat =
      (state.pendingDeliveries.map (·.amount.toNat)).sum % 2 ^ 64 := by
    rw [pendingTotal, toNat_sum, List.map_map]
    rfl
  rw [UInt64.toNat_add, UInt64.toNat_add, hpending, owed]
  omega

/-- The vector of reservations has room for one more. -/
def ChannelState.HasRoom (state : ChannelState) : Prop :=
  (state.pendingDeliveries.length + 1) * PendingDelivery.size ≤ isizeMax

instance (state : ChannelState) : Decidable state.HasRoom :=
  inferInstanceAs (Decidable (_ ≤ _))

namespace SessionServer
variable {server : SessionServer} {request : DeliveryRequest} {store : ChannelStore}
  {state : ChannelState} {xs : Nat → SessionInput}

/-- The update `begin_delivery` asks for. -/
def reservationOf (server : SessionServer) (request : DeliveryRequest) : DeliveryUpdate where
  sessionId := request.sessionId
  amount := request.amount
  currency := server.config.currency
  commitUrl := request.commitUrl
  proof := request.proof
  requestedDeliveryId := request.deliveryId
  expiresAt := request.expiresAt.getD DEFAULT_SESSION_EXPIRES_AT

/-- The id of the delivery, requested or generated, is not in use. -/
def FreshId (server : SessionServer) (request : DeliveryRequest) (state : ChannelState) : Prop :=
  (∀ d ∈ state.pendingDeliveries,
      d.deliveryId ≠ ((server.reservationOf request).reservation state).deliveryId) ∧
    ∀ d ∈ state.committedDeliveries,
      d.deliveryId ≠ ((server.reservationOf request).reservation state).deliveryId

/-- `begin_delivery`, run by itself, returns a directive. -/
def Reserves (server : SessionServer) (request : DeliveryRequest) (store : ChannelStore)
    (xs : Nat → SessionInput) : Prop :=
  ∃ directive, (alone (sessionHandler server.ed) (server.beginDelivery request).run xs store).2 =
    .ok directive

/-- What `begin_delivery` returns: what its one update captured. -/
theorem beginDelivery_run (h : request.amount ≠ 0) :
    (alone (sessionHandler server.ed) (server.beginDelivery request).run xs store).2 =
      (mapErr storeErr (store.updateChannel request.sessionId
        (server.reservationOf request).apply).2 >>= fun newState =>
          okOrElse newState.2.directiveOut
            (Error.other "Delivery reservation did not produce directive")) := by
  unfold beginDelivery
  rw [alone_lift_bind, rejectIf_neg h]
  show (alone (sessionHandler server.ed)
    (liftM (mapErr storeErr (store.updateChannel request.sessionId
      (server.reservationOf request).apply).2) >>= fun newState : ChannelState × Captured =>
        (liftM (okOrElse newState.2.directiveOut
          (Error.other "Delivery reservation did not produce directive")) : SessionM _)).run
        _ _).2 = _
  rw [alone_lift_bind]
  rcases mapErr storeErr (store.updateChannel request.sessionId
    (server.reservationOf request).apply).2 with e | newState <;> rfl

/-- **When a reservation is made**, by the sum of machine integers. -/
theorem reserves_iff (hstate : store request.sessionId = some state) (hopen : state.Open)
    (hfresh : server.FreshId request state) :
    server.Reserves request store xs ↔ request.amount ≠ 0 ∧ state.HasRoom ∧
      state.cumulative + state.pendingTotal + request.amount ≤ state.deposit := by
  by_cases hzero : request.amount = 0
  · constructor
    · rintro ⟨directive, h⟩
      rw [beginDelivery, alone_lift_bind, rejectIf_pos hzero] at h
      cases h
    · exact fun h => absurd hzero h.1
  · rw [Reserves, beginDelivery_run hzero, ChannelStore.updateChannel, hstate]
    constructor
    · rintro ⟨directive, h⟩
      obtain ⟨newState, hupdated, -⟩ := bind_eq_ok.mp h
      rcases hu : (server.reservationOf request).apply (some state) with e | ⟨state', out⟩
      · rw [hu] at hupdated
        exact nomatch mapErr_eq_ok.mp hupdated
      · obtain ⟨_, hs, -, hle, -, -, hroom, -⟩ := DeliveryUpdate.apply_eq_ok.mp hu
        obtain rfl := Option.some.inj hs
        exact ⟨hzero, hroom, hle⟩
    · rintro ⟨-, hroom, hle⟩
      have hu := DeliveryUpdate.apply_eq_ok.mpr
        ⟨state, rfl, hopen, hle, hfresh.1, hfresh.2, hroom, rfl, rfl⟩
      rw [hu]
      exact ⟨_, rfl⟩

/-- **Exact condition for the admission of reservations.**  On an open channel, for an id not
in use, a reservation is made exactly when its amount is positive and fits the deposit with
what the channel owes, over unbounded integers; unless the sum wraps around to something that
the deposit covers, or the vector of reservations is full. -/
theorem admits_iff (server : SessionServer) (request : DeliveryRequest) (store : ChannelStore)
    (state : ChannelState) (xs : Nat → SessionInput)
    (hstate : store request.sessionId = some state) (hopen : state.Open)
    (hfresh : server.FreshId request state) :
    (server.Reserves request store xs ↔
        0 < request.amount ∧ state.owed request.amount ≤ state.deposit.toNat) ↔
      request.amount = 0 ∨
        (state.owed request.amount < 2 ^ 64 ∨
            state.deposit.toNat < state.owed request.amount % 2 ^ 64 ∨ ¬ state.HasRoom) ∧
          (state.HasRoom ∨ state.deposit.toNat < state.owed request.amount) := by
  have hdeposit : state.deposit.toNat < 2 ^ 64 := state.deposit.toNat_lt
  rw [reserves_iff hstate hopen hfresh, UInt64.le_iff_toNat_le, ChannelState.toNat_owed,
    UInt64.pos_iff_ne_zero]
  by_cases hzero : request.amount = 0
  · simp [hzero]
  · by_cases hroom : state.HasRoom
    · simp only [hzero, hroom, ne_eq, not_false_eq_true, true_and, not_true_eq_false, or_false,
        true_or, and_true, false_or]
      omega
    · simp only [hzero, hroom, ne_eq, not_false_eq_true, true_and, false_and, or_true, false_or,
        false_iff]
      omega

/-- A channel with a deposit of 100 and nothing spent. -/
def idleState : ChannelState :=
  openedState "11111111111111111111111111111111" "11111111111111111111111111111112" 100 none

/-- The reservation of an amount on the sample channel. -/
def reserve (amount : UInt64) : DeliveryRequest where
  sessionId := "11111111111111111111111111111111"
  amount

theorem idle_admits : (sampleServer.Reserves (reserve 5)
      (ChannelStore.insert (fun _ => none) "11111111111111111111111111111111" idleState)
        (fun _ => ⟨0, .ok none⟩) ↔
      0 < (reserve 5).amount ∧ idleState.owed (reserve 5).amount ≤ idleState.deposit.toNat) ↔
    (reserve 5).amount = 0 ∨
      (idleState.owed (reserve 5).amount < 2 ^ 64 ∨
          idleState.deposit.toNat < idleState.owed (reserve 5).amount % 2 ^ 64 ∨
            ¬ idleState.HasRoom) ∧
        (idleState.HasRoom ∨ idleState.deposit.toNat < idleState.owed (reserve 5).amount) :=
  admits_iff sampleServer (reserve 5) _ idleState _ (ChannelStore.insert_self _ _ _)
    ⟨rfl, rfl⟩ ⟨by simp [idleState, openedState], by simp [idleState, openedState]⟩

/-- Open with a deposit of 100 and spend it by a voucher. -/
def spent : List Event :=
  List.reverse (
    [.start (.processOpen sampleOpen)] ++ steps 0 1 ++
    [.start (.verifyVoucher { voucher := voucher100 })] ++ steps 1 3)

/-- With nothing left of the deposit, a reservation of 50 less than `2 ^ 64` is made. -/
theorem wrapped_admitted : ∃ state,
    (sampleServer.machine.exec spent).store "11111111111111111111111111111111" = some state ∧
    state.Open ∧ sampleServer.FreshId (reserve 18446744073709551566) state ∧
    ¬ (sampleServer.Reserves (reserve 18446744073709551566) (sampleServer.machine.exec spent).store
        (fun _ => ⟨0, .ok none⟩) ↔
      0 < (reserve 18446744073709551566).amount ∧
        state.owed (reserve 18446744073709551566).amount ≤ state.deposit.toNat) := by
  have hspent : ((sampleServer.machine.exec spent).store "11111111111111111111111111111111").map
      (fun state => (decide state.Open, state.deposit, state.cumulative, state.pendingDeliveries,
        state.committedDeliveries)) = some (true, 100, 100, [], []) := by
    decide +kernel
  generalize (sampleServer.machine.exec spent).store = store at hspent ⊢
  obtain ⟨state, hstate, hfields⟩ := Option.map_eq_some_iff.mp hspent
  simp only [Prod.mk.injEq, decide_eq_true_eq] at hfields
  obtain ⟨hopen, hdeposit, hcumulative, hpending, hcommitted⟩ := hfields
  have hfresh : sampleServer.FreshId (reserve 18446744073709551566) state := by
    constructor
    · simp [hpending]
    · simp [hcommitted]
  have htotal : state.pendingTotal = 0 := by rw [ChannelState.pendingTotal, hpending]; rfl
  refine ⟨state, hstate, hopen, hfresh, fun hclaim => ?_⟩
  have hroom : state.HasRoom := by
    unfold ChannelState.HasRoom
    rw [hpending]
    decide
  have hfits : state.cumulative + state.pendingTotal + (reserve 18446744073709551566).amount ≤
      state.deposit := by
    rw [hcumulative, htotal, hdeposit]
    decide +kernel
  have hpositive : (reserve 18446744073709551566).amount ≠ 0 := by decide +kernel
  have hreserves : sampleServer.Reserves (reserve 18446744073709551566) store
      (fun _ => ⟨0, .ok none⟩) :=
    (reserves_iff hstate hopen hfresh).mpr ⟨hpositive, hroom, hfits⟩
  have howed := (hclaim.mp hreserves).2
  rw [ChannelState.owed, hcumulative, hpending, hdeposit] at howed
  exact absurd howed (by decide +kernel)

end SessionServer
end MppSdk
