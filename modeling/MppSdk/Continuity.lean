import MppSdk.SessionSteps

/-! # What a channel keeps along a run

The updates of a channel only ever extend it (`Extends`): its watermark grows, its signer
stays, it does not reopen, and its committed deliveries are kept.  `process_open` puts a
fresh record instead, whether or not the channel is stored already.  So along a run every
channel is only extended, and no voucher or delivery is charged twice, exactly when each
open of a stored channel finds nothing to lose (`extends_iff_fresh`). -/

namespace MppSdk

/-- What a channel keeps from one moment to a later one. -/
structure ChannelState.Extends (state state' : ChannelState) : Prop where
  cumulative_le : state.cumulative ≤ state'.cumulative
  finalized : state.finalized = true → state'.finalized = true
  closing : state.closeRequestedAt.isSome = true → state'.closeRequestedAt.isSome = true
  signer : state'.authorizedSigner = state.authorizedSigner
  committed : state.committedDeliveries ⊆ state'.committedDeliveries

namespace ChannelState.Extends
variable {a b c : ChannelState}

theorem refl (a : ChannelState) : a.Extends a :=
  ⟨UInt64.le_refl _, id, id, rfl, List.Subset.refl _⟩

theorem trans (h : a.Extends b) (k : b.Extends c) : a.Extends c :=
  ⟨UInt64.le_trans h.cumulative_le k.cumulative_le, fun ha => k.finalized (h.finalized ha),
    fun ha => k.closing (h.closing ha), k.signer.trans h.signer,
    List.Subset.trans h.committed k.committed⟩

/-- **Every closure extends the channel.** -/
theorem update {ed : Ed25519} {clock : Int64} {u : Updater} {out : Captured}
    (hu : u.apply ed clock (some a) = .ok (b, out)) : a.Extends b := by
  cases u with
  | voucher u =>
    obtain ⟨_, hs, -, h⟩ := VoucherUpdate.apply_eq_ok.mp hu
    obtain rfl := Option.some.inj hs
    rcases h with ⟨-, -, rfl⟩ | ⟨⟨-, hlt⟩, rfl⟩
    · exact refl _
    · exact ⟨UInt64.le_of_lt hlt, id, id, rfl, List.Subset.refl _⟩
  | topup u =>
    obtain ⟨_, hs, -, -, -, rfl⟩ := TopUpUpdate.apply_eq_ok.mp hu
    obtain rfl := Option.some.inj hs
    exact ⟨UInt64.le_refl _, id, id, rfl, List.Subset.refl _⟩
  | delivery u =>
    obtain ⟨_, hs, -, -, -, -, -, rfl, -⟩ := DeliveryUpdate.apply_eq_ok.mp hu
    obtain rfl := Option.some.inj hs
    exact ⟨UInt64.le_refl _, id, id, rfl, List.Subset.refl _⟩
  | commit u =>
    obtain ⟨_, hs, h⟩ := CommitUpdate.apply_eq_ok.mp hu
    obtain rfl := Option.some.inj hs
    rcases h with ⟨d, -, rfl, -⟩ | ⟨pending, ⟨-, -, -, -, hlt, -, -⟩, rfl, -⟩
    · exact refl _
    · exact ⟨UInt64.le_of_lt hlt, id, id, rfl, List.subset_append_left _ _⟩
  | close u =>
    obtain ⟨_, hs, -, -, cumulative, sig, expiresAt, hset, rfl⟩ := CloseUpdate.apply_eq_ok.mp hu
    obtain rfl := Option.some.inj hs
    have hle : a.cumulative ≤ cumulative := by
      rcases CloseUpdate.settlement_eq_ok.mp hset with
        ⟨-, hr⟩ | ⟨voucher, -, hr⟩ | ⟨voucher, n, ⟨-, -, hlt, -, -⟩, hr⟩
      · exact (Prod.mk.inj hr).1 ▸ UInt64.le_refl _
      · exact (Prod.mk.inj hr).1 ▸ UInt64.le_refl _
      · exact (Prod.mk.inj hr).1 ▸ UInt64.le_of_lt hlt
    exact ⟨hle, id, fun _ => rfl, rfl, List.Subset.refl _⟩

theorem finalize (a : ChannelState) : a.Extends { a with finalized := true } :=
  ⟨UInt64.le_refl _, fun _ => rfl, id, rfl, List.Subset.refl _⟩

/-- What a freshly opened channel extends. -/
theorem opened_iff {channelId signer : String} {deposit : UInt64} {operator : Option String} :
    a.Extends (SessionServer.openedState channelId signer deposit operator) ↔
      a.cumulative = 0 ∧ a.Open ∧ signer = a.authorizedSigner ∧ a.committedDeliveries = [] := by
  constructor
  · intro h
    refine ⟨UInt64.le_zero_iff.mp h.cumulative_le, ChannelState.open_iff.mpr ⟨fun hf => ?_,
      fun hc => ?_⟩, h.signer, List.subset_nil.mp h.committed⟩
    · cases h.finalized hf
    · cases h.closing hc
  · rintro ⟨hcum, hopen, hsigner, hcommitted⟩
    obtain ⟨hf, hc⟩ := ChannelState.open_iff.mp hopen
    exact ⟨hcum ▸ UInt64.le_refl _, fun h => absurd h hf, fun h => absurd h hc, hsigner,
      hcommitted ▸ List.Subset.refl _⟩

end ChannelState.Extends

/-- Every stored channel stays stored and is extended. -/
def ChannelStore.Extends (store store' : ChannelStore) : Prop :=
  ∀ id state, store id = some state → ∃ state', store' id = some state' ∧ state.Extends state'

namespace ChannelStore.Extends
variable {s t u : ChannelStore}

theorem refl (s : ChannelStore) : s.Extends s :=
  fun _ state h => ⟨state, h, ChannelState.Extends.refl state⟩

theorem trans (h : s.Extends t) (k : t.Extends u) : s.Extends u := by
  intro id state hs
  obtain ⟨state₁, ht, h₁⟩ := h id state hs
  obtain ⟨state₂, hu, h₂⟩ := k id state₁ ht
  exact ⟨state₂, hu, h₁.trans h₂⟩

/-- Replacing a stored channel extends the store exactly when it extends the channel. -/
theorem insert_iff {channelId : String} {state' : ChannelState} :
    s.Extends (s.insert channelId state') ↔
      ∀ state, s channelId = some state → state.Extends state' := by
  constructor
  · intro h state hs
    obtain ⟨state₁, hs₁, h₁⟩ := h channelId state hs
    rw [ChannelStore.insert_self] at hs₁
    obtain rfl := Option.some.inj hs₁
    exact h₁
  · intro h id state hs
    by_cases hid : id = channelId
    · subst hid
      exact ⟨state', ChannelStore.insert_self s id state', h state hs⟩
    · exact ⟨state, (ChannelStore.insert_of_ne hid).trans hs, ChannelState.Extends.refl state⟩

end ChannelStore.Extends

/-- A channel that is put replaces nothing, or a channel with the same signer that has
spent and committed nothing and is neither finalized nor closing. -/
def SessionOp.Fresh : SessionOp → ChannelStore → Prop
  | .putChannel channelId state, store => ∀ old, store channelId = some old →
      old.cumulative = 0 ∧ old.Open ∧ state.authorizedSigner = old.authorizedSigner ∧
        old.committedDeliveries = []
  | _, _ => True

/-! ## Charges -/

/-- What a channel is charged for: a voucher, named by its channel and its cumulative
amount, or a delivery, named by its channel and its id. -/
inductive Charge : Type
  | voucher (channelId : String) (cumulative : UInt64)
  | delivery (channelId deliveryId : String)

/-- The closure advances the watermark of `state` to `cumulative`. -/
def Updater.AdvancesTo (ed : Ed25519) (clock : Int64) (state : ChannelState)
    (cumulative : UInt64) : Updater → Prop
  | .voucher u => u.Advances state ∧ cumulative = u.newCumulative
  | .commit u => (∃ pending, u.Advances state pending) ∧ cumulative = u.newCumulative
  | .close u => state.Open ∧ ∃ voucher, u.Advances ed clock state voucher cumulative
  | _ => False

/-- A closure that advances the watermark succeeds, and stores the new watermark. -/
theorem Updater.AdvancesTo.applied {ed : Ed25519} {clock : Int64} {state : ChannelState}
    {cumulative : UInt64} {u : Updater} (h : u.AdvancesTo ed clock state cumulative) :
    ∃ state' out, u.apply ed clock (some state) = .ok (state', out) ∧
      cumulative ≤ state'.cumulative := by
  cases u with
  | voucher u =>
    obtain ⟨hadv, rfl⟩ := h
    exact ⟨u.accepted state, _, VoucherUpdate.apply_eq_ok.mpr
      ⟨state, rfl, rfl, Or.inr ⟨hadv, rfl⟩⟩, UInt64.le_refl _⟩
  | commit u =>
    obtain ⟨⟨pending, hadv⟩, rfl⟩ := h
    exact ⟨u.committed state, _, CommitUpdate.apply_eq_ok.mpr
      ⟨state, rfl, Or.inr ⟨pending, hadv, rfl, rfl⟩⟩, UInt64.le_refl _⟩
  | close u =>
    obtain ⟨hopen, voucher, hadv⟩ := h
    have hset := CloseUpdate.settlement_eq_ok.mpr
      (Or.inr (Or.inr ⟨voucher, cumulative, hadv, rfl⟩))
    exact ⟨_, _, CloseUpdate.apply_eq_ok.mpr
      ⟨state, rfl, rfl, hopen, cumulative, _, _, hset, rfl⟩, UInt64.le_refl _⟩
  | topup u => exact h.elim
  | delivery u => exact h.elim

/-- The closure commits the delivery as a new one. -/
def Updater.Commits (state : ChannelState) (deliveryId : String) : Updater → Prop
  | .commit u => (∃ pending, u.Advances state pending) ∧ deliveryId = u.deliveryId
  | _ => False

/-- The operation charges a stored channel for something as new. -/
def SessionOp.Charges (ed : Ed25519) (x : SessionInput) (store : ChannelStore) (op : SessionOp) :
    Charge → Prop
  | .voucher channelId cumulative => ∃ u state, op = .updateChannel channelId u ∧
      store channelId = some state ∧ u.AdvancesTo ed x.now state cumulative
  | .delivery channelId deliveryId => ∃ u state, op = .updateChannel channelId u ∧
      store channelId = some state ∧ u.Commits state deliveryId

/-- The store shows that the charge was made. -/
def Charge.Taken : Charge → ChannelStore → Prop
  | .voucher channelId cumulative, store => ∃ state, store channelId = some state ∧
      cumulative ≤ state.cumulative
  | .delivery channelId deliveryId, store => ∃ state, store channelId = some state ∧
      ∃ d ∈ state.committedDeliveries, d.deliveryId = deliveryId

/-- The channel that is charged. -/
def Charge.channelId : Charge → String
  | .voucher channelId _ => channelId
  | .delivery channelId _ => channelId

/-- A charge shows as long as its channel is only extended. -/
theorem Charge.Taken.mono {charge : Charge} {s t : ChannelStore}
    (h : ∀ state, s charge.channelId = some state →
      ∃ state', t charge.channelId = some state' ∧ state.Extends state')
    (hs : charge.Taken s) : charge.Taken t := by
  cases charge with
  | voucher channelId cumulative =>
    obtain ⟨state, hstate, hle⟩ := hs
    obtain ⟨state', hstate', hext⟩ := h state hstate
    exact ⟨state', hstate', UInt64.le_trans hle hext.cumulative_le⟩
  | delivery channelId deliveryId =>
    obtain ⟨state, hstate, d, hd, hid⟩ := hs
    obtain ⟨state', hstate', hext⟩ := h state hstate
    exact ⟨state', hstate', d, hext.committed hd, hid⟩

/-- What is charged as new was not charged before. -/
theorem SessionOp.Charges.not_taken {ed : Ed25519} {x : SessionInput} {store : ChannelStore}
    {op : SessionOp} {charge : Charge} (h : op.Charges ed x store charge) :
    ¬ charge.Taken store := by
  cases charge with
  | voucher channelId cumulative =>
    obtain ⟨u, state, -, hstate, hadv⟩ := h
    rintro ⟨_, hstate', hle⟩
    obtain rfl := Option.some.inj (hstate.symm.trans hstate')
    have hlt : state.cumulative < cumulative := by
      cases u with
      | voucher u => exact hadv.2 ▸ hadv.1.2
      | commit u =>
        obtain ⟨⟨pending, -, -, -, -, hlt, -⟩, rfl⟩ := hadv
        exact hlt
      | close u =>
        obtain ⟨-, voucher, -, -, hlt, -⟩ := hadv
        exact hlt
      | topup u => exact hadv.elim
      | delivery u => exact hadv.elim
    exact UInt64.not_le.mpr hlt hle
  | delivery channelId deliveryId =>
    obtain ⟨u, state, -, hstate, hcom⟩ := h
    rintro ⟨_, hstate', d, hd, hid⟩
    obtain rfl := Option.some.inj (hstate.symm.trans hstate')
    cases u with
    | commit u =>
      obtain ⟨⟨pending, -, hnone, -⟩, rfl⟩ := hcom
      exact absurd hid (by simpa using List.find?_eq_none.mp hnone d hd)
    | voucher u => exact hcom.elim
    | topup u => exact hcom.elim
    | delivery u => exact hcom.elim
    | close u => exact hcom.elim

/-- What is charged shows in the store. -/
theorem SessionOp.Charges.taken {ed : Ed25519} {x : SessionInput} {store : ChannelStore}
    {op : SessionOp} {charge : Charge} (h : op.Charges ed x store charge) :
    charge.Taken (sessionHandler ed op x store).1 := by
  cases charge with
  | voucher channelId cumulative =>
    obtain ⟨u, state, rfl, hstate, hadv⟩ := h
    obtain ⟨state', out, hu, hle⟩ := Updater.AdvancesTo.applied hadv
    exact ⟨state', stored_of_update hstate hu, hle⟩
  | delivery channelId deliveryId =>
    obtain ⟨u, state, rfl, hstate, hcom⟩ := h
    cases u with
    | commit u =>
      obtain ⟨⟨pending, hadv⟩, rfl⟩ := hcom
      have hu : u.apply (some state) = .ok (u.committed state, _) :=
        CommitUpdate.apply_eq_ok.mpr ⟨state, rfl, Or.inr ⟨pending, hadv, rfl, rfl⟩⟩
      exact ⟨u.committed state, stored_of_update (u := .commit u) hstate hu, u.record state,
        List.mem_append_right _ (List.mem_singleton_self _), rfl⟩
    | voucher u => exact hcom.elim
    | topup u => exact hcom.elim
    | delivery u => exact hcom.elim
    | close u => exact hcom.elim

/-- The operation opens the channel. -/
def SessionOp.Opens (channelId : String) : SessionOp → Prop
  | .putChannel id _ => id = channelId
  | _ => False

/-- An operation extends every channel that it does not open. -/
theorem extends_of_not_opens {ed : Ed25519} {op : SessionOp} {x : SessionInput}
    {store : ChannelStore} {id : String} (hop : ¬ op.Opens id) (state : ChannelState)
    (h : store id = some state) :
    ∃ state', (sessionHandler ed op x store).1 id = some state' ∧ state.Extends state' := by
  rcases effect_cases ed op x store with ⟨-, hs⟩ | ⟨channelId, put, rfl, hs⟩ |
    ⟨channelId, u, old, state', out, rfl, hold, hu, hs⟩ | ⟨channelId, old, rfl, hold, hs⟩
  · rw [hs]
    exact ⟨state, h, .refl state⟩
  · rw [hs, ChannelStore.insert_of_ne (Ne.symm hop)]
    exact ⟨state, h, .refl state⟩
  · rw [hs]
    refine ChannelStore.Extends.insert_iff.mpr (fun a ha => ?_) id state h
    obtain rfl := Option.some.inj (hold.symm.trans ha)
    exact .update hu
  · rw [hs]
    refine ChannelStore.Extends.insert_iff.mpr (fun a ha => ?_) id state h
    obtain rfl := Option.some.inj (hold.symm.trans ha)
    exact .finalize old

namespace SessionServer
variable {server : SessionServer}

/-- An operation extends the store exactly when it is fresh. -/
theorem extends_step_iff {op : SessionOp} {x : SessionInput} {store : ChannelStore}
    (hop : server.Issues op) :
    store.Extends (sessionHandler server.ed op x store).1 ↔ op.Fresh store := by
  rcases effect_cases server.ed op x store with ⟨hidle, hs⟩ | ⟨channelId, state, rfl, hs⟩ |
    ⟨channelId, u, state, state', out, rfl, hstate, hu, hs⟩ | ⟨channelId, state, rfl, hstate, hs⟩
  · rw [hs]
    refine ⟨fun _ => ?_, fun _ => ChannelStore.Extends.refl store⟩
    cases op with
    | putChannel channelId state => exact hidle.elim
    | _ => trivial
  · rw [hs, ChannelStore.Extends.insert_iff]
    obtain ⟨signer, deposit, operator, rfl, -⟩ := hop
    refine forall_congr' fun old => imp_congr_right fun _ => ?_
    exact ChannelState.Extends.opened_iff
  · rw [hs, ChannelStore.Extends.insert_iff]
    refine ⟨fun _ => trivial, fun _ old hold => ?_⟩
    obtain rfl := Option.some.inj (hstate.symm.trans hold)
    exact .update hu
  · rw [hs, ChannelStore.Extends.insert_iff]
    refine ⟨fun _ => trivial, fun _ old hold => ?_⟩
    obtain rfl := Option.some.inj (hstate.symm.trans hold)
    exact .finalize state

/-- A step charges a stored channel for something as new. -/
def Charges (server : SessionServer) (p : Sessions) (e : Event) (charge : Charge) : Prop :=
  ∃ op x, p.Performs e op x ∧ op.Charges server.ed x p.store charge

/-- What a step charges shows in the store after it. -/
theorem charged_taken {p : Sessions} {e : Event} {charge : Charge}
    (h : server.Charges p e charge) : charge.Taken (server.machine.step p e).store := by
  obtain ⟨op, x, hp, hc⟩ := h
  show charge.Taken (p.react (sessionHandler server.ed) server.program e).store
  rw [hp.store_eq]
  exact hc.taken

/-- **Exact condition for continuity.**  Along a run every channel is only extended, and
no voucher or delivery is charged twice, exactly when each open of a stored channel finds
nothing to lose. -/
theorem extends_iff_fresh (server : SessionServer) (run : List Event) :
    (server.machine.Along (fun p q => p.store.Extends q.store) run ∧
      server.machine.Once server.Charges run) ↔
      server.machine.Guarded (Pool.Guard SessionOp.Fresh) run := by
  have hiff : server.machine.Along (fun p q => p.store.Extends q.store) run ↔
      server.machine.Guarded (Pool.Guard SessionOp.Fresh) run :=
    Pool.along_store_iff program_issues ChannelStore.Extends.refl
      (fun _ _ _ h k => h.trans k) (fun _ _ _ hop => extends_step_iff hop) run
  refine ⟨fun h => hiff.mp h.1, fun hfresh => ⟨hiff.mpr hfresh, ?_⟩⟩
  refine Machine.once_of_along (fun charge (p : Sessions) => charge.Taken p.store)
    (fun p e charge h => charged_taken h) (fun p e charge h => ?_)
    (fun p q charge h => Charge.Taken.mono (h charge.channelId)) (hiff.mpr hfresh)
  obtain ⟨op, x, -, hc⟩ := h
  exact hc.not_taken

/-! ## A channel opened twice -/

/-- Open a channel, spend 100 by a voucher, open the channel again and submit the same
voucher again. -/
def reopening : List Event :=
  List.reverse (
    [.start (.processOpen sampleOpen)] ++ steps 0 1 ++
    [.start (.verifyVoucher { voucher := voucher100 })] ++ steps 1 3 ++
    [.start (.processOpen sampleOpen)] ++ steps 2 1 ++
    [.start (.verifyVoucher { voucher := voucher100 })] ++ steps 3 3)

/-- The watermark falls from 100 to 0 at the second open. -/
theorem reopening_not_extends :
    ¬ (sampleServer.machine.Along (fun p q => p.store.Extends q.store) reopening ∧
      sampleServer.machine.Once sampleServer.Charges reopening) := by
  rintro ⟨h, -⟩
  have hext := h (reopening.drop 6) (reopening.drop 4) (List.drop_suffix_drop_left _ (by decide))
    (List.drop_suffix _ _)
  have hspent : ((sampleServer.machine.exec (reopening.drop 6)).store
      "11111111111111111111111111111111").map ChannelState.cumulative = some 100 := by
    decide +kernel
  have hafter : ((sampleServer.machine.exec (reopening.drop 4)).store
      "11111111111111111111111111111111").map ChannelState.cumulative = some 0 := by
    decide +kernel
  obtain ⟨state, hstate, hcum⟩ := Option.map_eq_some_iff.mp hspent
  obtain ⟨state', hstate', hle⟩ := hext _ state hstate
  rw [hstate'] at hafter
  obtain hzero : state'.cumulative = 0 := Option.some.inj hafter
  have hfalls := hle.cumulative_le
  rw [hcum, hzero] at hfalls
  exact absurd hfalls (by decide)

end SessionServer
end MppSdk
