import MppSdk.ChannelStore
import MppSdk.SessionTypes

/-! # The closures of the session server

Each operation that changes a channel hands `update_channel` a closure.  A closure is
its captured values and what it makes of the stored state, here one structure with one
`apply` each, in the order of the checks in `server/session.rs`.  The `apply_eq_ok`
lemmas say once when a closure succeeds and what it makes of the state; nothing later
unfolds a closure. -/

namespace MppSdk

/-- What a closure leaves in the slot it shares with its caller. -/
inductive Captured : Type
  | nothing
  | directive (d : MeteringDirective)
  | outcome (amount cumulative : UInt64) (status : CommitStatus)
deriving DecidableEq

/-- `directive_out` of `begin_delivery`. -/
def Captured.directiveOut : Captured → Option MeteringDirective
  | .directive d => some d
  | _ => none

/-- `commit_outcome` of `process_commit`. -/
def Captured.commitOutcome : Captured → Option (UInt64 × UInt64 × CommitStatus)
  | .outcome amount cumulative status => some (amount, cumulative, status)
  | _ => none

/-- The new state and what the closure leaves behind, or its error. -/
abbrev Updated : Type := RustResult StoreError (ChannelState × Captured)

/-- Neither finalized nor closing: the channel takes vouchers, deliveries and commits. -/
def ChannelState.Open (state : ChannelState) : Prop :=
  state.finalized = false ∧ state.closeRequestedAt = none

instance (state : ChannelState) : Decidable state.Open := inferInstanceAs (Decidable (_ ∧ _))

theorem ChannelState.open_iff {state : ChannelState} :
    state.Open ↔ ¬ state.finalized = true ∧ ¬ state.closeRequestedAt.isSome = true := by
  simp [Open]

/-! ## Vouchers -/

/-- The closure of `verify_voucher`. -/
structure VoucherUpdate where
  newCumulative : UInt64
  sig : String
  expiresAt : Int64
deriving DecidableEq

def VoucherUpdate.apply (u : VoucherUpdate) (stateOpt : Option ChannelState) : Updated := do
  let state ← okOrElse stateOpt (.internal "Channel not found")
  rejectIf (state.finalized = true) (.internal "Channel is already finalized")
  rejectIf (state.closeRequestedAt.isSome = true)
    (.internal "Channel close is pending — no further vouchers accepted")
  if u.newCumulative = state.cumulative ∧ state.highestVoucherSignature = some u.sig then
    return (state, .nothing)
  rejectIf (u.newCumulative ≤ state.cumulative)
    (.internal "Concurrent update: watermark advanced")
  return ({ state with
    cumulative := u.newCumulative
    highestVoucherSignature := some u.sig
    highestVoucherExpiresAt := some u.expiresAt }, .nothing)

namespace VoucherUpdate

/-- The voucher is the one the channel holds already. -/
def Replays (u : VoucherUpdate) (state : ChannelState) : Prop :=
  u.newCumulative = state.cumulative ∧ state.highestVoucherSignature = some u.sig

/-- The channel takes vouchers and this one is above its watermark. -/
def Advances (u : VoucherUpdate) (state : ChannelState) : Prop :=
  state.Open ∧ state.cumulative < u.newCumulative

/-- The channel once it holds the voucher. -/
def accepted (u : VoucherUpdate) (state : ChannelState) : ChannelState :=
  { state with
    cumulative := u.newCumulative
    highestVoucherSignature := some u.sig
    highestVoucherExpiresAt := some u.expiresAt }

/-- **What the closure of `verify_voucher` can do.** -/
theorem apply_eq_ok {u : VoucherUpdate} {stateOpt : Option ChannelState} {state' : ChannelState}
    {out : Captured} :
    u.apply stateOpt = .ok (state', out) ↔ ∃ state, stateOpt = some state ∧ out = .nothing ∧
      ((state.Open ∧ u.Replays state ∧ state' = state) ∨
        (u.Advances state ∧ state' = u.accepted state)) := by
  simp only [apply, bind_eq_ok, okOrElse_eq_ok, rejectIf_eq_ok, pure, Except.pure]
  constructor
  · rintro ⟨state, rfl, _, hf, _, hc, h⟩
    have hopen : state.Open := ChannelState.open_iff.mpr ⟨hf, hc⟩
    split at h
    · rename_i hr
      obtain ⟨rfl, rfl⟩ : state = state' ∧ Captured.nothing = out := by simpa using h
      exact ⟨state, rfl, rfl, Or.inl ⟨hopen, hr, rfl⟩⟩
    · obtain ⟨_, hlt, h⟩ := bind_eq_ok.mp h
      obtain ⟨rfl, rfl⟩ : u.accepted state = state' ∧ Captured.nothing = out := by
        simpa [accepted] using h
      exact ⟨state, rfl, rfl, Or.inr ⟨⟨hopen, UInt64.not_le.mp (rejectIf_eq_ok.mp hlt)⟩, rfl⟩⟩
  · rintro ⟨state, rfl, rfl, ⟨hopen, hr, rfl⟩ | ⟨⟨hopen, hlt⟩, rfl⟩⟩
    · obtain ⟨hf, hc⟩ := ChannelState.open_iff.mp hopen
      exact ⟨state', rfl, (), hf, (), hc, if_pos hr⟩
    · obtain ⟨hf, hc⟩ := ChannelState.open_iff.mp hopen
      have hr : ¬ (u.newCumulative = state.cumulative ∧
          state.highestVoucherSignature = some u.sig) := fun hr => UInt64.ne_of_lt hlt hr.1.symm
      refine ⟨state, rfl, (), hf, (), hc, ?_⟩
      rw [if_neg hr]
      exact bind_eq_ok.mpr ⟨(), rejectIf_eq_ok.mpr (UInt64.not_le.mpr hlt), rfl⟩

end VoucherUpdate

/-! ## Top-ups -/

/-- The closure of `process_topup`. -/
structure TopUpUpdate where
  cid : String
  newDeposit : UInt64
  maxCap : UInt64
deriving DecidableEq

def TopUpUpdate.apply (u : TopUpUpdate) (stateOpt : Option ChannelState) : Updated := do
  let state ← okOrElse stateOpt (.internal s!"Channel {u.cid} not found")
  rejectIf (u.newDeposit ≤ state.deposit)
    (.internal s!"New deposit {u.newDeposit} must exceed current deposit {state.deposit}")
  rejectIf (u.newDeposit > u.maxCap)
    (.internal s!"New deposit {u.newDeposit} exceeds max cap {u.maxCap}")
  return ({ state with deposit := u.newDeposit }, .nothing)

/-- **What the closure of `process_topup` can do.** -/
theorem TopUpUpdate.apply_eq_ok {u : TopUpUpdate} {stateOpt : Option ChannelState}
    {state' : ChannelState} {out : Captured} :
    u.apply stateOpt = .ok (state', out) ↔ ∃ state, stateOpt = some state ∧ out = .nothing ∧
      state.deposit < u.newDeposit ∧ u.newDeposit ≤ u.maxCap ∧
      state' = { state with deposit := u.newDeposit } := by
  simp only [apply, bind_eq_ok, okOrElse_eq_ok, rejectIf_eq_ok, pure, Except.pure,
    Except.ok.injEq, Prod.mk.injEq]
  constructor
  · rintro ⟨state, rfl, _, hlt, _, hle, rfl, rfl⟩
    exact ⟨state, rfl, rfl, UInt64.not_le.mp hlt, UInt64.not_lt.mp hle, rfl⟩
  · rintro ⟨state, rfl, rfl, hlt, hle, rfl⟩
    exact ⟨state, rfl, (), UInt64.not_le.mpr hlt, (), UInt64.not_lt.mpr hle, rfl, rfl⟩

/-! ## Reservations -/

/-- The closure of `begin_delivery`. -/
structure DeliveryUpdate where
  sessionId : String
  amount : UInt64
  currency : String
  commitUrl : Option String
  proof : Option String
  requestedDeliveryId : Option String
  expiresAt : Int64
deriving DecidableEq

/-- The amounts of the outstanding reservations, added modulo `2 ^ 64` as a release
build adds them. -/
def ChannelState.pendingTotal (state : ChannelState) : UInt64 :=
  (state.pendingDeliveries.map PendingDelivery.amount).sum

def DeliveryUpdate.apply (u : DeliveryUpdate) (stateOpt : Option ChannelState) : Updated := do
  let state ← okOrElse stateOpt (.internal s!"Channel {u.sessionId} not found")
  rejectIf (state.finalized = true) (.internal "Channel is already finalized")
  rejectIf (state.closeRequestedAt.isSome = true)
    (.internal "Channel close is pending — no further deliveries accepted")
  rejectIf (state.cumulative + state.pendingTotal + u.amount > state.deposit)
    (.internal s!"Delivery amount {u.amount} exceeds available deposit")
  let sequence := state.nextDeliverySequence + 1
  let deliveryId := u.requestedDeliveryId.getD s!"{u.sessionId}:{sequence}"
  rejectIf ((state.pendingDeliveries.any (·.deliveryId = deliveryId) ||
      state.committedDeliveries.any (·.deliveryId = deliveryId)) = true)
    (.internal s!"Delivery {deliveryId} already exists")
  let pendingDeliveries ← vecPush PendingDelivery.size state.pendingDeliveries
    { deliveryId, amount := u.amount, sequence, expiresAt := u.expiresAt }
  return ({ state with nextDeliverySequence := sequence, pendingDeliveries },
    .directive {
      deliveryId
      sessionId := u.sessionId
      amount := toString u.amount
      currency := u.currency
      sequence
      expiresAt := u.expiresAt
      commitUrl := u.commitUrl
      proof := u.proof })

namespace DeliveryUpdate

/-- The reservation the closure adds to the channel. -/
def reservation (u : DeliveryUpdate) (state : ChannelState) : PendingDelivery :=
  let sequence := state.nextDeliverySequence + 1
  { deliveryId := u.requestedDeliveryId.getD s!"{u.sessionId}:{sequence}"
    amount := u.amount
    sequence
    expiresAt := u.expiresAt }

/-- The directive for a reservation. -/
def directive (u : DeliveryUpdate) (d : PendingDelivery) : MeteringDirective :=
  { deliveryId := d.deliveryId
    sessionId := u.sessionId
    amount := toString d.amount
    currency := u.currency
    sequence := d.sequence
    expiresAt := d.expiresAt
    commitUrl := u.commitUrl
    proof := u.proof }

/-- The channel with one reservation more. -/
def reserved (u : DeliveryUpdate) (state : ChannelState) : ChannelState :=
  { state with
    nextDeliverySequence := state.nextDeliverySequence + 1
    pendingDeliveries := state.pendingDeliveries ++ [u.reservation state] }

/-- **What the closure of `begin_delivery` can do.** -/
theorem apply_eq_ok {u : DeliveryUpdate} {stateOpt : Option ChannelState} {state' : ChannelState}
    {out : Captured} :
    u.apply stateOpt = .ok (state', out) ↔ ∃ state, stateOpt = some state ∧ state.Open ∧
      state.cumulative + state.pendingTotal + u.amount ≤ state.deposit ∧
      (∀ d ∈ state.pendingDeliveries, d.deliveryId ≠ (u.reservation state).deliveryId) ∧
      (∀ d ∈ state.committedDeliveries, d.deliveryId ≠ (u.reservation state).deliveryId) ∧
      (state.pendingDeliveries.length + 1) * PendingDelivery.size ≤ isizeMax ∧
      state' = u.reserved state ∧ out = .directive (u.directive (u.reservation state)) := by
  simp only [apply, bind_eq_ok, okOrElse_eq_ok, rejectIf_eq_ok, vecPush_eq_ok, pure, Except.pure,
    Except.ok.injEq, Prod.mk.injEq]
  constructor
  · rintro ⟨state, rfl, _, hf, _, hc, _, hcap, _, hnew, _, ⟨rfl, hroom⟩, rfl, rfl⟩
    obtain ⟨hp, hm⟩ : (∀ d ∈ state.pendingDeliveries, _) ∧
        (∀ d ∈ state.committedDeliveries, _) := by simpa [List.any_eq_false] using hnew
    exact ⟨state, rfl, ChannelState.open_iff.mpr ⟨hf, hc⟩, UInt64.not_lt.mp hcap, hp, hm, hroom,
      rfl, rfl⟩
  · rintro ⟨state, rfl, hopen, hcap, hp, hm, hroom, rfl, rfl⟩
    obtain ⟨hf, hc⟩ := ChannelState.open_iff.mp hopen
    exact ⟨state, rfl, (), hf, (), hc, (), UInt64.not_lt.mpr hcap, (),
      by simpa [List.any_eq_false, reservation] using And.intro hp hm, _, ⟨rfl, hroom⟩, rfl, rfl⟩

end DeliveryUpdate

/-! ## Commits -/

/-- The closure of `process_commit`. -/
structure CommitUpdate where
  channelId : String
  deliveryId : String
  newCumulative : UInt64
  signature : String
  expiresAt : Int64
  now : Int64
deriving DecidableEq

def CommitUpdate.apply (u : CommitUpdate) (stateOpt : Option ChannelState) : Updated := do
  let state ← okOrElse stateOpt (.internal s!"Channel {u.channelId} not found")
  rejectIf (state.finalized = true) (.internal "Channel is already finalized")
  rejectIf (state.closeRequestedAt.isSome = true)
    (.internal "Channel close is pending — no further commits accepted")
  match state.committedDeliveries.find? (·.deliveryId = u.deliveryId) with
  | some committed =>
      if committed.cumulative = u.newCumulative ∧ committed.voucherSignature = u.signature then
        return (state, .outcome committed.amount committed.cumulative .replayed)
      else
        .error (.error (.internal
          s!"Delivery {u.deliveryId} was already committed with different voucher"))
  | none =>
      let pending ← okOrElse (state.pendingDeliveries.find? (·.deliveryId = u.deliveryId))
        (.internal s!"Delivery {u.deliveryId} not found")
      rejectIf (pending.expiresAt ≤ u.now) (.internal s!"Delivery {u.deliveryId} has expired")
      rejectIf (u.newCumulative ≤ state.cumulative)
        (.internal
          s!"Commit cumulative {u.newCumulative} must exceed watermark {state.cumulative}")
      let actualAmount := u.newCumulative - state.cumulative
      rejectIf (actualAmount > pending.amount)
        (.internal s!"Commit amount {actualAmount} exceeds reserved amount {pending.amount}")
      -- `position` and `remove`: the first entry with this id goes
      let pendingDeliveries := state.pendingDeliveries.eraseP (·.deliveryId = u.deliveryId)
      let committedDeliveries ← vecPush CommittedDelivery.size state.committedDeliveries
        { deliveryId := u.deliveryId, amount := actualAmount, cumulative := u.newCumulative,
          voucherSignature := u.signature }
      return ({ state with
        pendingDeliveries
        cumulative := u.newCumulative
        highestVoucherSignature := some u.signature
        highestVoucherExpiresAt := some u.expiresAt
        committedDeliveries }, .outcome actualAmount u.newCumulative .committed)

namespace CommitUpdate

/-- The delivery was committed with this very voucher. -/
def Replays (u : CommitUpdate) (state : ChannelState) (d : CommittedDelivery) : Prop :=
  state.Open ∧ state.committedDeliveries.find? (·.deliveryId = u.deliveryId) = some d ∧
    d.cumulative = u.newCumulative ∧ d.voucherSignature = u.signature

/-- The delivery is reserved as `pending`, and the voucher is above the watermark by no
more than was reserved. -/
def Advances (u : CommitUpdate) (state : ChannelState) (pending : PendingDelivery) : Prop :=
  state.Open ∧ state.committedDeliveries.find? (·.deliveryId = u.deliveryId) = none ∧
    state.pendingDeliveries.find? (·.deliveryId = u.deliveryId) = some pending ∧
    u.now < pending.expiresAt ∧ state.cumulative < u.newCumulative ∧
    u.newCumulative - state.cumulative ≤ pending.amount ∧
    (state.committedDeliveries.length + 1) * CommittedDelivery.size ≤ isizeMax

/-- The delivery that is committed is a pending one with its id. -/
theorem Advances.mem {u : CommitUpdate} {state : ChannelState} {pending : PendingDelivery}
    (h : u.Advances state pending) :
    pending ∈ state.pendingDeliveries ∧ pending.deliveryId = u.deliveryId := by
  obtain ⟨-, -, hfind, -⟩ := h
  exact ⟨List.mem_of_find?_eq_some hfind, by simpa using List.find?_some hfind⟩

/-- The record of the commit. -/
def record (u : CommitUpdate) (state : ChannelState) : CommittedDelivery :=
  { deliveryId := u.deliveryId
    amount := u.newCumulative - state.cumulative
    cumulative := u.newCumulative
    voucherSignature := u.signature }

/-- The channel once the delivery is charged. -/
def committed (u : CommitUpdate) (state : ChannelState) : ChannelState :=
  { state with
    pendingDeliveries := state.pendingDeliveries.eraseP (·.deliveryId = u.deliveryId)
    cumulative := u.newCumulative
    highestVoucherSignature := some u.signature
    highestVoucherExpiresAt := some u.expiresAt
    committedDeliveries := state.committedDeliveries ++ [u.record state] }

/-- **What the closure of `process_commit` can do.** -/
theorem apply_eq_ok {u : CommitUpdate} {stateOpt : Option ChannelState} {state' : ChannelState}
    {out : Captured} :
    u.apply stateOpt = .ok (state', out) ↔ ∃ state, stateOpt = some state ∧
      ((∃ d, u.Replays state d ∧ state' = state ∧
          out = .outcome d.amount d.cumulative .replayed) ∨
        (∃ pending, u.Advances state pending ∧ state' = u.committed state ∧
          out = .outcome (u.newCumulative - state.cumulative) u.newCumulative .committed)) := by
  simp only [apply, bind_eq_ok, okOrElse_eq_ok, rejectIf_eq_ok]
  constructor
  · rintro ⟨state, rfl, _, hf, _, hc, h⟩
    have hopen : state.Open := ChannelState.open_iff.mpr ⟨hf, hc⟩
    refine ⟨state, rfl, ?_⟩
    rcases hd : state.committedDeliveries.find? (·.deliveryId = u.deliveryId) with _ | d
    · simp only [hd, bind_eq_ok, okOrElse_eq_ok, rejectIf_eq_ok, vecPush_eq_ok, pure, Except.pure,
        Except.ok.injEq, Prod.mk.injEq] at h
      obtain ⟨pending, hp, _, hexp, _, hlt, _, hle, _, ⟨rfl, hroom⟩, rfl, rfl⟩ := h
      exact Or.inr ⟨pending, ⟨hopen, hd, hp, Int64.not_le.mp hexp, UInt64.not_le.mp hlt,
        UInt64.not_lt.mp hle, hroom⟩, rfl, rfl⟩
    · simp only [hd] at h
      split at h
      · rename_i hr
        obtain ⟨rfl, rfl⟩ : state = state' ∧ _ = out := by
          simpa [pure, Except.pure] using h
        exact Or.inl ⟨d, ⟨hopen, hd, hr⟩, rfl, rfl⟩
      · cases h
  · rintro ⟨state, rfl, h⟩
    rcases h with ⟨d, ⟨hopen, hd, hr⟩, rfl, rfl⟩ |
      ⟨pending, ⟨hopen, hd, hp, hexp, hlt, hle, hroom⟩, rfl, rfl⟩
    · obtain ⟨hf, hc⟩ := ChannelState.open_iff.mp hopen
      exact ⟨state', rfl, (), hf, (), hc, by rw [hd]; exact if_pos hr⟩
    · obtain ⟨hf, hc⟩ := ChannelState.open_iff.mp hopen
      refine ⟨state, rfl, (), hf, (), hc, ?_⟩
      simp only [hd, bind_eq_ok, okOrElse_eq_ok, rejectIf_eq_ok, vecPush_eq_ok]
      exact ⟨pending, hp, (), Int64.not_le.mpr hexp, (), UInt64.not_le.mpr hlt, (),
        UInt64.not_lt.mpr hle, _, ⟨rfl, hroom⟩, rfl⟩

end CommitUpdate

/-! ## Closes -/

/-- The closure of `process_close`. -/
structure CloseUpdate where
  now : UInt64
  voucherOpt : Option SignedVoucher
deriving DecidableEq

/-- The watermark, signature and expiry a close settles with. -/
def CloseUpdate.settlement (u : CloseUpdate) (ed : Ed25519) (clock : Int64) (state : ChannelState) :
    RustResult StoreError (UInt64 × Option String × Option Int64) :=
  match u.voucherOpt with
  | some voucher => do
      let cumulative ← okOrElse (parseU64 voucher.data.cumulative) (.internal "Invalid cumulative")
      if cumulative ≤ state.cumulative then
        if cumulative = state.cumulative ∧
            state.highestVoucherSignature = some voucher.signature then
          return (state.cumulative, state.highestVoucherSignature,
            state.highestVoucherExpiresAt.or (some voucher.data.expiresAt))
        else
          .error (.error (.internal
            s!"Final voucher cumulative {cumulative} must exceed watermark {state.cumulative}"))
      else
        rejectIf (cumulative > state.deposit) (.internal "Final voucher exceeds deposit")
        mapErr (fun e => .internal e.text)
          (verifySignature ed clock voucher state.authorizedSigner)
        return (cumulative, some voucher.signature, some voucher.data.expiresAt)
  | none =>
      return (state.cumulative, state.highestVoucherSignature, state.highestVoucherExpiresAt)

def CloseUpdate.apply (u : CloseUpdate) (ed : Ed25519) (clock : Int64)
    (stateOpt : Option ChannelState) : Updated := do
  let state ← okOrElse stateOpt (.internal "Channel not found")
  rejectIf (state.finalized = true) (.internal "Channel is already finalized")
  rejectIf (state.closeRequestedAt.isSome = true) (.internal "Close already requested")
  let (newCumulative, newSig, newExpiresAt) ← u.settlement ed clock state
  return ({ state with
    cumulative := newCumulative
    highestVoucherSignature := newSig
    highestVoucherExpiresAt := newExpiresAt
    closeRequestedAt := some u.now }, .nothing)

namespace CloseUpdate

/-- The final voucher is above the watermark, within the deposit and verified. -/
def Advances (u : CloseUpdate) (ed : Ed25519) (clock : Int64) (state : ChannelState)
    (voucher : SignedVoucher) (cumulative : UInt64) : Prop :=
  u.voucherOpt = some voucher ∧ parseU64 voucher.data.cumulative = some cumulative ∧
    state.cumulative < cumulative ∧ cumulative ≤ state.deposit ∧
    verifySignature ed clock voucher state.authorizedSigner = .ok ()

/-- The final voucher is the one the channel holds already. -/
def Replays (u : CloseUpdate) (state : ChannelState) (voucher : SignedVoucher) : Prop :=
  u.voucherOpt = some voucher ∧ parseU64 voucher.data.cumulative = some state.cumulative ∧
    state.highestVoucherSignature = some voucher.signature

/-- **What a close settles with.** -/
theorem settlement_eq_ok {u : CloseUpdate} {ed : Ed25519} {clock : Int64} {state : ChannelState}
    {r : UInt64 × Option String × Option Int64} :
    u.settlement ed clock state = .ok r ↔
      (u.voucherOpt = none ∧
        r = (state.cumulative, state.highestVoucherSignature, state.highestVoucherExpiresAt)) ∨
      (∃ voucher, u.Replays state voucher ∧
        r = (state.cumulative, state.highestVoucherSignature,
          state.highestVoucherExpiresAt.or (some voucher.data.expiresAt))) ∨
      (∃ voucher cumulative, u.Advances ed clock state voucher cumulative ∧
        r = (cumulative, some voucher.signature, some voucher.data.expiresAt)) := by
  obtain ⟨now, _ | voucher⟩ := u
  · simp [settlement, Replays, Advances, pure, Except.pure, eq_comm]
  simp only [settlement, Replays, Advances, bind_eq_ok, okOrElse_eq_ok, reduceCtorEq, false_and,
    false_or, Option.some.injEq]
  constructor
  · rintro ⟨cumulative, hcum, h⟩
    by_cases hle : cumulative ≤ state.cumulative
    · rw [if_pos hle] at h
      split at h
      · rename_i hr
        obtain ⟨rfl, hsig⟩ := hr
        exact Or.inl ⟨voucher, ⟨rfl, hcum, hsig⟩, (Except.ok.inj h).symm⟩
      · cases h
    · rw [if_neg hle] at h
      simp only [bind_eq_ok, rejectIf_eq_ok] at h
      obtain ⟨_, hdep, _, hver, h⟩ := h
      refine Or.inr ⟨voucher, cumulative,
        ⟨rfl, hcum, UInt64.not_le.mp hle, UInt64.not_lt.mp hdep, ?_⟩, (Except.ok.inj h).symm⟩
      exact mapErr_eq_ok.mp hver
  · rintro (⟨_, ⟨rfl, hcum, hsig⟩, rfl⟩ | ⟨_, cumulative, ⟨rfl, hcum, hlt, hdep, hver⟩, rfl⟩)
    · refine ⟨state.cumulative, hcum, ?_⟩
      rw [if_pos (UInt64.le_refl _), if_pos ⟨rfl, hsig⟩]
      rfl
    · refine ⟨cumulative, hcum, ?_⟩
      rw [if_neg (UInt64.not_le.mpr hlt)]
      simp only [bind_eq_ok, rejectIf_eq_ok]
      exact ⟨(), UInt64.not_lt.mpr hdep, (), mapErr_eq_ok.mpr hver, rfl⟩

/-- **What the closure of `process_close` can do.** -/
theorem apply_eq_ok {u : CloseUpdate} {ed : Ed25519} {clock : Int64}
    {stateOpt : Option ChannelState} {state' : ChannelState} {out : Captured} :
    u.apply ed clock stateOpt = .ok (state', out) ↔ ∃ state, stateOpt = some state ∧
      out = .nothing ∧ state.Open ∧ ∃ cumulative sig expiresAt,
        u.settlement ed clock state = .ok (cumulative, sig, expiresAt) ∧
        state' = { state with
          cumulative
          highestVoucherSignature := sig
          highestVoucherExpiresAt := expiresAt
          closeRequestedAt := some u.now } := by
  simp only [apply, bind_eq_ok, okOrElse_eq_ok, rejectIf_eq_ok, pure, Except.pure,
    Except.ok.injEq, Prod.mk.injEq]
  constructor
  · rintro ⟨state, rfl, _, hf, _, hc, ⟨cumulative, sig, expiresAt⟩, hs, rfl, rfl⟩
    exact ⟨state, rfl, rfl, ChannelState.open_iff.mpr ⟨hf, hc⟩, cumulative, sig, expiresAt, hs,
      rfl⟩
  · rintro ⟨state, rfl, rfl, hopen, cumulative, sig, expiresAt, hs, rfl⟩
    obtain ⟨hf, hc⟩ := ChannelState.open_iff.mp hopen
    exact ⟨state, rfl, (), hf, (), hc, (cumulative, sig, expiresAt), hs, rfl, rfl⟩

end CloseUpdate

/-! ## All closures -/

/-- A closure given to `update_channel`. -/
inductive Updater : Type
  | voucher (u : VoucherUpdate)
  | topup (u : TopUpUpdate)
  | delivery (u : DeliveryUpdate)
  | commit (u : CommitUpdate)
  | close (u : CloseUpdate)
deriving DecidableEq

/-- Run a closure; `clock` is the time it reads under the lock. -/
def Updater.apply (ed : Ed25519) (clock : Int64) : Updater → Option ChannelState → Updated
  | .voucher u => u.apply
  | .topup u => u.apply
  | .delivery u => u.apply
  | .commit u => u.apply
  | .close u => u.apply ed clock

end MppSdk
