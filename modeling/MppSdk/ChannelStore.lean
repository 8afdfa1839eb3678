import MppSdk.RustStd

/-! # The channel store

`store.rs`: the state the server keeps for each channel, and the in-memory store of
those states.  Every operation of the store takes its lock once, so each is atomic;
`update_channel` runs its closure under the lock and stores the result only if the
closure succeeds. -/

namespace MppSdk

/-- `StoreError`. -/
inductive StoreError : Type
  | internal (message : String)
  | serialization (message : String)
deriving DecidableEq, Repr

/-- `Display` of a store error. -/
def StoreError.text : StoreError → String
  | .internal message => s!"Store error: {message}"
  | .serialization message => s!"Serialization error: {message}"

/-- A delivery reserved by the server and not yet committed. -/
structure PendingDelivery where
  deliveryId : String
  amount : UInt64
  sequence : UInt64
  expiresAt : Int64
deriving DecidableEq

/-- The bytes of a `PendingDelivery`: a `String` and three eight-byte integers. -/
def PendingDelivery.size : Nat := 48

/-- A committed delivery, kept for the replay of its commit. -/
structure CommittedDelivery where
  deliveryId : String
  amount : UInt64
  cumulative : UInt64
  voucherSignature : String
deriving DecidableEq

/-- The bytes of a `CommittedDelivery`: two `String`s and two eight-byte integers. -/
def CommittedDelivery.size : Nat := 64

/-- The state of a payment channel. -/
structure ChannelState where
  channelId : String
  authorizedSigner : String
  deposit : UInt64
  cumulative : UInt64
  finalized : Bool
  highestVoucherSignature : Option String
  highestVoucherExpiresAt : Option Int64
  closeRequestedAt : Option UInt64
  operator : Option String
  nextDeliverySequence : UInt64
  pendingDeliveries : List PendingDelivery
  committedDeliveries : List CommittedDelivery
deriving DecidableEq

/-- `MemoryChannelStore`: the state under each channel id. -/
abbrev ChannelStore : Type := String → Option ChannelState

namespace ChannelStore

/-- `HashMap::insert`. -/
def insert (store : ChannelStore) (channelId : String) (state : ChannelState) : ChannelStore :=
  fun id => if id = channelId then some state else store id

@[simp] theorem insert_self (store : ChannelStore) (channelId : String) (state : ChannelState) :
    store.insert channelId state channelId = some state := if_pos rfl

theorem insert_of_ne {store : ChannelStore} {channelId id : String} {state : ChannelState}
    (h : id ≠ channelId) : store.insert channelId state id = store id := if_neg h

theorem insert_eq_some {store : ChannelStore} {channelId id : String} {state st : ChannelState} :
    store.insert channelId state id = some st ↔
      (id = channelId ∧ state = st) ∨ (id ≠ channelId ∧ store id = some st) := by
  unfold insert
  split <;> simp_all

theorem insert_eq_self {store : ChannelStore} {channelId : String} {state : ChannelState}
    (h : store channelId = some state) : store.insert channelId state = store := by
  funext id
  by_cases hid : id = channelId
  · rw [hid, insert_self, h]
  · exact insert_of_ne hid

/-- `update_channel`: run the closure on the stored state and keep what it returns; the
store is untouched when it fails. -/
def updateChannel {ε β : Type} (store : ChannelStore) (channelId : String)
    (updater : Option ChannelState → RustResult ε (ChannelState × β)) :
    ChannelStore × RustResult ε (ChannelState × β) :=
  match updater (store channelId) with
  | .ok (state, out) => (store.insert channelId state, .ok (state, out))
  | .error e => (store, .error e)

/-- `mark_finalized`. -/
def markFinalized (store : ChannelStore) (channelId : String) :
    ChannelStore × RustResult StoreError Unit :=
  match store channelId with
  | some state => (store.insert channelId { state with finalized := true }, .ok ())
  | none => (store, .error (.error (.internal "Channel not found")))

/-- What `update_channel` can do: store what the closure made of the state, or nothing. -/
theorem updateChannel_cases {ε β : Type} (store : ChannelStore) (channelId : String)
    (updater : Option ChannelState → RustResult ε (ChannelState × β)) :
    (∃ state out, updater (store channelId) = .ok (state, out) ∧
      store.updateChannel channelId updater =
        (store.insert channelId state, .ok (state, out))) ∨
    (∃ e, updater (store channelId) = .error e ∧
      store.updateChannel channelId updater = (store, .error e)) := by
  unfold updateChannel
  rcases updater (store channelId) with e | ⟨state, out⟩
  · exact Or.inr ⟨e, rfl, rfl⟩
  · exact Or.inl ⟨state, out, rfl, rfl⟩

end ChannelStore
end MppSdk
