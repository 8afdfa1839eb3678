import MppSdk.Continuity

/-! # The delivery ledger

Deliveries are reserved, then committed once: `pendingDeliveries` and
`committedDeliveries` are the two halves of a ledger whose lines are the reservations made
since the channel was opened.  `Ledger` is the invariant of one channel; what a committed
amount owes to its reservation is a property of the run (`ReservedIn`), since a
reservation leaves the state when it is committed. -/

namespace MppSdk

/-- What holds of the ledger of a channel at all times. -/
structure ChannelState.LedgerSound (state : ChannelState) : Prop where
  ids_nodup : (state.pendingDeliveries.map PendingDelivery.deliveryId ++
    state.committedDeliveries.map CommittedDelivery.deliveryId).Nodup
  sequences : state.pendingDeliveries.Pairwise (·.sequence < ·.sequence)
  sequence_le : ∀ d ∈ state.pendingDeliveries, d.sequence ≤ state.nextDeliverySequence
  cumulatives : state.committedDeliveries.Pairwise (·.cumulative < ·.cumulative)
  cumulative_le : ∀ d ∈ state.committedDeliveries, d.cumulative ≤ state.cumulative
  amount_pos : ∀ d ∈ state.committedDeliveries, 0 < d.amount
  amounts_le : (state.committedDeliveries.map (·.amount.toNat)).sum ≤ state.cumulative.toNat

/-- The invariant behind it: the sequence counter counts the lines of the ledger, whose
number is bounded by what a vector can hold, so the counter never wraps. -/
structure ChannelState.Ledger (state : ChannelState) : Prop extends state.LedgerSound where
  next_eq : state.nextDeliverySequence.toNat =
    state.pendingDeliveries.length + state.committedDeliveries.length
  pending_room : state.pendingDeliveries.length * PendingDelivery.size ≤ isizeMax
  committed_room : state.committedDeliveries.length * CommittedDelivery.size ≤ isizeMax

namespace ChannelState.Ledger
variable {state state' : ChannelState} {out : Captured}

theorem opened (channelId signer : String) (deposit : UInt64) (operator : Option String) :
    (SessionServer.openedState channelId signer deposit operator).Ledger where
  ids_nodup := List.nodup_nil
  sequences := List.Pairwise.nil
  sequence_le _ h := by cases h
  cumulatives := List.Pairwise.nil
  cumulative_le _ h := by cases h
  amount_pos _ h := by cases h
  amounts_le := Nat.zero_le _
  next_eq := rfl
  pending_room := by simp [SessionServer.openedState]
  committed_room := by simp [SessionServer.openedState]

/-- The ledger is kept when its lines stay and the watermark grows. -/
theorem of_same (h : state.Ledger)
    (hpending : state'.pendingDeliveries = state.pendingDeliveries)
    (hcommitted : state'.committedDeliveries = state.committedDeliveries)
    (hnext : state'.nextDeliverySequence = state.nextDeliverySequence)
    (hcum : state.cumulative ≤ state'.cumulative) : state'.Ledger where
  ids_nodup := by rw [hpending, hcommitted]; exact h.ids_nodup
  sequences := by rw [hpending]; exact h.sequences
  sequence_le := by rw [hpending, hnext]; exact h.sequence_le
  cumulatives := by rw [hcommitted]; exact h.cumulatives
  cumulative_le := by
    rw [hcommitted]
    exact fun d hd => UInt64.le_trans (h.cumulative_le d hd) hcum
  amount_pos := by rw [hcommitted]; exact h.amount_pos
  amounts_le := by
    rw [hcommitted]
    exact Nat.le_trans h.amounts_le (UInt64.le_iff_toNat_le.mp hcum)
  next_eq := by rw [hnext, hpending, hcommitted]; exact h.next_eq
  pending_room := by rw [hpending]; exact h.pending_room
  committed_room := by rw [hcommitted]; exact h.committed_room

/-- The sequence counter does not wrap while there is room for a reservation. -/
theorem next_lt (h : state.Ledger)
    (hroom : (state.pendingDeliveries.length + 1) * PendingDelivery.size ≤ isizeMax) :
    state.nextDeliverySequence.toNat + 1 < 2 ^ 64 := by
  have hnext := h.next_eq
  have hcommitted := h.committed_room
  simp only [PendingDelivery.size, CommittedDelivery.size, isizeMax] at hroom hcommitted
  omega

/-- **A reservation keeps the ledger.** -/
theorem reserve {u : DeliveryUpdate} (h : state.Ledger)
    (hpending : ∀ d ∈ state.pendingDeliveries, d.deliveryId ≠ (u.reservation state).deliveryId)
    (hcommitted : ∀ d ∈ state.committedDeliveries,
      d.deliveryId ≠ (u.reservation state).deliveryId)
    (hroom : (state.pendingDeliveries.length + 1) * PendingDelivery.size ≤ isizeMax) :
    (u.reserved state).Ledger := by
  have hnext : (state.nextDeliverySequence + 1).toNat = state.nextDeliverySequence.toNat + 1 := by
    rw [UInt64.toNat_add]
    exact Nat.mod_eq_of_lt (h.next_lt hroom)
  have hlt : state.nextDeliverySequence < state.nextDeliverySequence + 1 := by
    rw [UInt64.lt_iff_toNat_lt, hnext]
    omega
  refine { ids_nodup := ?_, sequences := ?_, sequence_le := ?_, cumulatives := h.cumulatives,
           cumulative_le := h.cumulative_le, amount_pos := h.amount_pos,
           amounts_le := h.amounts_le, next_eq := ?_, pending_room := ?_,
           committed_room := h.committed_room }
  · show ((state.pendingDeliveries ++ [u.reservation state]).map _ ++ _).Nodup
    rw [List.map_append, List.append_assoc, List.map_singleton, List.singleton_append]
    refine (List.perm_middle.nodup_iff).mpr (List.nodup_cons.mpr ⟨?_, h.ids_nodup⟩)
    intro hmem
    rcases List.mem_append.mp hmem with hmem | hmem
    · obtain ⟨d, hd, hid⟩ := List.mem_map.mp hmem
      exact hpending d hd hid
    · obtain ⟨d, hd, hid⟩ := List.mem_map.mp hmem
      exact hcommitted d hd hid
  · refine List.pairwise_append.mpr ⟨h.sequences, List.pairwise_singleton _ _, ?_⟩
    intro d hd e he
    obtain rfl := List.mem_singleton.mp he
    exact UInt64.lt_of_le_of_lt (h.sequence_le d hd) hlt
  · intro d hd
    rcases List.mem_append.mp hd with hd | hd
    · exact UInt64.le_trans (h.sequence_le d hd) (UInt64.le_of_lt hlt)
    · obtain rfl := List.mem_singleton.mp hd
      exact UInt64.le_refl _
  · show (state.nextDeliverySequence + 1).toNat =
      (state.pendingDeliveries ++ [u.reservation state]).length + state.committedDeliveries.length
    rw [hnext, h.next_eq, List.length_append, List.length_singleton]
    omega
  · show (state.pendingDeliveries ++ [u.reservation state]).length * PendingDelivery.size ≤ isizeMax
    rw [List.length_append, List.length_singleton]
    exact hroom

/-- **A commit keeps the ledger.** -/
theorem commit {u : CommitUpdate} {pending : PendingDelivery} (h : state.Ledger)
    (hadv : u.Advances state pending) : (u.committed state).Ledger := by
  obtain ⟨hmem, hid⟩ := hadv.mem
  obtain ⟨-, -, -, -, hlt, -, hroom⟩ := hadv
  -- the reservation goes from between the others
  obtain ⟨d, before, after, -, hd, hsplit, herase⟩ := List.exists_of_eraseP
    (p := fun d => decide (d.deliveryId = u.deliveryId)) hmem (decide_eq_true hid)
  have hsublist : (before ++ after).Sublist state.pendingDeliveries := by
    rw [hsplit]
    exact (List.sublist_cons_self d after).append_left before
  have hamount : (u.newCumulative - state.cumulative).toNat =
      u.newCumulative.toNat - state.cumulative.toNat :=
    UInt64.toNat_sub_of_le _ _ (UInt64.le_of_lt hlt)
  have hlt' : state.cumulative.toNat < u.newCumulative.toNat := UInt64.lt_iff_toNat_lt.mp hlt
  have hpending : (u.committed state).pendingDeliveries = before ++ after := herase
  have hcommitted : (u.committed state).committedDeliveries =
      state.committedDeliveries ++ [u.record state] := rfl
  refine { ids_nodup := ?_, sequences := ?_, sequence_le := ?_, cumulatives := ?_,
           cumulative_le := ?_, amount_pos := ?_, amounts_le := ?_, next_eq := ?_,
           pending_room := ?_, committed_room := ?_ }
  · rw [hpending, hcommitted]
    have hids := h.ids_nodup
    have hdid : d.deliveryId = u.deliveryId := of_decide_eq_true hd
    rw [hsplit, List.map_append, List.map_cons, hdid] at hids
    rw [List.map_append, List.map_append, List.map_singleton, ← List.append_assoc]
    refine (List.Perm.nodup_iff ?_).mp hids
    refine (List.perm_middle.append_right _).trans ?_
    exact (List.perm_append_singleton _ _).symm
  · rw [hpending]
    exact h.sequences.sublist hsublist
  · rw [hpending]
    exact fun e he => h.sequence_le e (hsublist.subset he)
  · rw [hcommitted]
    refine List.pairwise_append.mpr ⟨h.cumulatives, List.pairwise_singleton _ _, ?_⟩
    intro c hc e he
    obtain rfl := List.mem_singleton.mp he
    exact UInt64.lt_of_le_of_lt (h.cumulative_le c hc) hlt
  · rw [hcommitted]
    intro c hc
    rcases List.mem_append.mp hc with hc | hc
    · exact UInt64.le_trans (h.cumulative_le c hc) (UInt64.le_of_lt hlt)
    · obtain rfl := List.mem_singleton.mp hc
      exact UInt64.le_refl _
  · rw [hcommitted]
    intro c hc
    rcases List.mem_append.mp hc with hc | hc
    · exact h.amount_pos c hc
    · obtain rfl := List.mem_singleton.mp hc
      refine UInt64.lt_iff_toNat_lt.mpr ?_
      show 0 < (u.newCumulative - state.cumulative).toNat
      omega
  · rw [hcommitted]
    have hsum := h.amounts_le
    simp only [List.map_append, List.map_singleton, List.sum_append, List.sum_singleton,
      CommitUpdate.record, CommitUpdate.committed, hamount]
    omega
  · have hnext := h.next_eq
    have hlen := congrArg List.length hsplit
    rw [hpending, hcommitted]
    simp only [List.length_append, List.length_cons, List.length_nil] at hlen ⊢
    show state.nextDeliverySequence.toNat = _
    omega
  · rw [hpending]
    have hpr := h.pending_room
    have hle := hsublist.length_le
    simp only [PendingDelivery.size] at hpr ⊢
    omega
  · rw [hcommitted, List.length_append, List.length_singleton]
    exact hroom

theorem finalize (h : state.Ledger) : { state with finalized := true : ChannelState }.Ledger :=
  h.of_same rfl rfl rfl (UInt64.le_refl _)

end ChannelState.Ledger

/-! ## Reservations and what becomes of them -/

/-- The ledger, and the reservations its lines come from: each line has one, and each
reservation is pending or was committed for no more than its amount. -/
structure ChannelState.Accounted (state : ChannelState) (reserved : PendingDelivery → Prop) :
    Prop extends state.Ledger where
  pending_reserved : ∀ r ∈ state.pendingDeliveries, reserved r
  committed_reserved : ∀ d ∈ state.committedDeliveries, ∃ r, reserved r ∧
    r.deliveryId = d.deliveryId
  covered : ∀ r, reserved r → r ∈ state.pendingDeliveries ∨
    ∃ d ∈ state.committedDeliveries, d.deliveryId = r.deliveryId ∧ d.amount ≤ r.amount

namespace ChannelState.Accounted
variable {state state' : ChannelState} {out : Captured} {reserved reserved' : PendingDelivery → Prop}

theorem congr (h : state.Accounted reserved) (hiff : ∀ r, reserved r ↔ reserved' r) :
    state.Accounted reserved' := by
  obtain rfl : reserved = reserved' := funext fun r => propext (hiff r)
  exact h

theorem opened (channelId signer : String) (deposit : UInt64) (operator : Option String)
    (hnone : ∀ r, ¬ reserved r) :
    (SessionServer.openedState channelId signer deposit operator).Accounted reserved where
  toLedger := .opened channelId signer deposit operator
  pending_reserved _ h := by cases h
  committed_reserved _ h := by cases h
  covered r h := absurd h (hnone r)

theorem of_same (h : state.Accounted reserved)
    (hpending : state'.pendingDeliveries = state.pendingDeliveries)
    (hcommitted : state'.committedDeliveries = state.committedDeliveries)
    (hnext : state'.nextDeliverySequence = state.nextDeliverySequence)
    (hcum : state.cumulative ≤ state'.cumulative) : state'.Accounted reserved where
  toLedger := h.toLedger.of_same hpending hcommitted hnext hcum
  pending_reserved := by rw [hpending]; exact h.pending_reserved
  committed_reserved := by rw [hcommitted]; exact h.committed_reserved
  covered := by rw [hpending, hcommitted]; exact h.covered

/-- A committed amount is at most what any reservation of its delivery reserved. -/
theorem amount_le (h : state.Accounted reserved) {d : CommittedDelivery}
    (hd : d ∈ state.committedDeliveries) {r : PendingDelivery} (hr : reserved r)
    (hid : r.deliveryId = d.deliveryId) : d.amount ≤ r.amount := by
  have hdistinct := List.nodup_append.mp h.ids_nodup
  rcases h.covered r hr with hmem | ⟨d', hd', hid', hle⟩
  · have hsame := hdistinct.2.2 _ (List.mem_map_of_mem hmem) _ (List.mem_map_of_mem hd)
    exact absurd hid hsame
  · have heq : d' = d := List.inj_on_of_nodup_map hdistinct.2.1 hd' hd (hid'.trans hid)
    exact heq ▸ hle

theorem reserve {u : DeliveryUpdate} (h : state.Accounted reserved)
    (hledger : (u.reserved state).Ledger) :
    (u.reserved state).Accounted (fun r => r = u.reservation state ∨ reserved r) where
  toLedger := hledger
  pending_reserved r hr := by
    rcases List.mem_append.mp hr with hr | hr
    · exact Or.inr (h.pending_reserved r hr)
    · exact Or.inl (List.mem_singleton.mp hr)
  committed_reserved d hd := by
    obtain ⟨r, hr, hid⟩ := h.committed_reserved d hd
    exact ⟨r, Or.inr hr, hid⟩
  covered r hr := by
    rcases hr with rfl | hr
    · exact Or.inl (List.mem_append_right _ (List.mem_singleton_self _))
    · rcases h.covered r hr with hmem | hcommitted
      · exact Or.inl (List.mem_append_left _ hmem)
      · exact Or.inr hcommitted

theorem commit {u : CommitUpdate} {pending : PendingDelivery} (h : state.Accounted reserved)
    (hadv : u.Advances state pending) : (u.committed state).Accounted reserved where
  toLedger := h.toLedger.commit hadv
  pending_reserved r hr := h.pending_reserved r (List.mem_of_mem_eraseP hr)
  committed_reserved d hd := by
    obtain ⟨hmem, hid⟩ := hadv.mem
    rcases List.mem_append.mp hd with hd | hd
    · exact h.committed_reserved d hd
    · obtain rfl := List.mem_singleton.mp hd
      exact ⟨pending, h.pending_reserved pending hmem, hid⟩
  covered r hr := by
    obtain ⟨hpmem, hpid⟩ := hadv.mem
    obtain ⟨-, -, -, -, -, hle, -⟩ := hadv
    rcases h.covered r hr with hmem | ⟨d, hd, hid⟩
    · by_cases hid : r.deliveryId = u.deliveryId
      · -- the delivery committed now is this one, for no two reservations share an id
        have hdistinct := (List.nodup_append.mp h.ids_nodup).1
        have heq : r = pending :=
          List.inj_on_of_nodup_map hdistinct hmem hpmem (hid.trans hpid.symm)
        exact Or.inr ⟨u.record state, List.mem_append_right _ (List.mem_singleton_self _),
          hid.symm, heq ▸ hle⟩
      · exact Or.inl ((List.mem_eraseP_of_neg (by simpa using hid)).mpr hmem)
    · exact Or.inr ⟨d, List.mem_append_left _ hd, hid⟩

end ChannelState.Accounted

/-- The operation reserves a delivery on the channel. -/
def SessionOp.Reserves (store : ChannelStore) (channelId : String) (r : PendingDelivery) :
    SessionOp → Prop
  | .updateChannel id (.delivery u) => id = channelId ∧ ∃ state state' out,
      store channelId = some state ∧ u.apply (some state) = .ok (state', out) ∧
        r = u.reservation state
  | _ => False

/-- The reservations made on a channel, once one more operation is performed. -/
def SessionOp.reservedNext (store : ChannelStore) (channelId : String) (op : SessionOp)
    (reserved : PendingDelivery → Prop) (r : PendingDelivery) : Prop :=
  op.Reserves store channelId r ∨ (reserved r ∧ ¬ op.Opens channelId)

/-- The stored channel accounts for the reservations; an unknown channel has none. -/
def ChannelStore.Accounts (store : ChannelStore) (channelId : String)
    (reserved : PendingDelivery → Prop) : Prop :=
  match store channelId with
  | some state => state.Accounted reserved
  | none => ∀ r, ¬ reserved r

/-- **What a closure does to the account.** -/
theorem ChannelState.Accounted.update {ed : Ed25519} {clock : Int64} {u : Updater}
    {store : ChannelStore} {channelId : String} {state state' : ChannelState} {out : Captured}
    {reserved : PendingDelivery → Prop} (h : state.Accounted reserved)
    (hstate : store channelId = some state)
    (hu : u.apply ed clock (some state) = .ok (state', out)) :
    state'.Accounted
      (SessionOp.reservedNext store channelId (.updateChannel channelId u) reserved) := by
  have hother (hnot : ∀ r, ¬ SessionOp.Reserves store channelId r (.updateChannel channelId u))
      (h' : state'.Accounted reserved) : state'.Accounted
        (SessionOp.reservedNext store channelId (.updateChannel channelId u) reserved) :=
    h'.congr fun r => ⟨fun hr => Or.inr ⟨hr, id⟩, fun hr => (hr.resolve_left (hnot r)).1⟩
  have hext := ChannelState.Extends.update hu
  cases u with
  | voucher u =>
    refine hother (fun _ => id) ?_
    obtain ⟨_, hs, -, ⟨-, -, rfl⟩ | ⟨-, rfl⟩⟩ := VoucherUpdate.apply_eq_ok.mp hu
    · obtain rfl := Option.some.inj hs
      exact h
    · obtain rfl := Option.some.inj hs
      exact h.of_same rfl rfl rfl hext.cumulative_le
  | topup u =>
    refine hother (fun _ => id) ?_
    obtain ⟨_, hs, -, -, -, rfl⟩ := TopUpUpdate.apply_eq_ok.mp hu
    obtain rfl := Option.some.inj hs
    exact h.of_same rfl rfl rfl hext.cumulative_le
  | delivery u =>
    obtain ⟨_, hs, -, -, hp, hc, hroom, hres, -⟩ := DeliveryUpdate.apply_eq_ok.mp hu
    obtain rfl := Option.some.inj hs
    subst hres
    refine (h.reserve (h.toLedger.reserve hp hc hroom)).congr fun r => ⟨fun hr => ?_, fun hr => ?_⟩
    · rcases hr with rfl | hr
      · exact Or.inl ⟨rfl, state, u.reserved state, out, hstate, hu, rfl⟩
      · exact Or.inr ⟨hr, id⟩
    · rcases hr with ⟨-, state₁, -, -, hstate₁, -, rfl⟩ | ⟨hr, -⟩
      · obtain rfl := Option.some.inj (hstate.symm.trans hstate₁)
        exact Or.inl rfl
      · exact Or.inr hr
  | commit u =>
    refine hother (fun _ => id) ?_
    obtain ⟨_, hs, ⟨d, -, rfl, -⟩ | ⟨pending, hadv, rfl, -⟩⟩ := CommitUpdate.apply_eq_ok.mp hu
    · obtain rfl := Option.some.inj hs
      exact h
    · obtain rfl := Option.some.inj hs
      exact h.commit hadv
  | close u =>
    refine hother (fun _ => id) ?_
    obtain ⟨_, hs, -, -, cumulative, sig, expiresAt, -, rfl⟩ := CloseUpdate.apply_eq_ok.mp hu
    obtain rfl := Option.some.inj hs
    exact h.of_same rfl rfl rfl hext.cumulative_le

namespace SessionServer
variable {server : SessionServer}

/-- An operation that neither reserves on a channel nor touches it. -/
theorem accounts_other {op : SessionOp} {store store' : ChannelStore} {channelId : String}
    {reserved : PendingDelivery → Prop} (hsame : store' channelId = store channelId)
    (hreserves : ∀ r, ¬ op.Reserves store channelId r) (hopens : ¬ op.Opens channelId)
    (h : store.Accounts channelId reserved) :
    store'.Accounts channelId (op.reservedNext store channelId reserved) := by
  have hiff : ∀ r, reserved r ↔ op.reservedNext store channelId reserved r := fun r =>
    ⟨fun hr => Or.inr ⟨hr, hopens⟩, fun hr => (hr.resolve_left (hreserves r)).1⟩
  unfold ChannelStore.Accounts at h ⊢
  rw [hsame]
  rcases hstate : store channelId with _ | state
  · rw [hstate] at h
    exact fun r hr => h r ((hiff r).mpr hr)
  · rw [hstate] at h
    exact ChannelState.Accounted.congr h hiff

/-- **Every operation keeps the accounts.** -/
theorem accounts_step {op : SessionOp} {x : SessionInput} {store : ChannelStore}
    {channelId : String} {reserved : PendingDelivery → Prop} (hop : server.Issues op)
    (h : store.Accounts channelId reserved) :
    (sessionHandler server.ed op x store).1.Accounts channelId
      (op.reservedNext store channelId reserved) := by
  rcases effect_cases server.ed op x store with ⟨hidle, hs⟩ | ⟨other, state, rfl, hs⟩ |
    ⟨other, u, state, state', out, rfl, hstate, hu, hs⟩ | ⟨other, state, rfl, hstate, hs⟩
  · rw [hs]
    refine accounts_other rfl (fun r hr => ?_) (fun hopens => ?_) h
    · rcases op with _ | _ | ⟨id, u | u | u | u | u⟩ | _ | _ | _ <;> try exact hr.elim
      obtain ⟨rfl, state, state', out, hstate, hu, -⟩ := hr
      exact hidle _ (by rw [hstate]; exact hu)
    · cases op with
      | putChannel id state => exact hidle.elim
      | _ => exact hopens.elim
  · rw [hs]
    by_cases hid : other = channelId
    · subst hid
      obtain ⟨signer, deposit, operator, rfl, -⟩ := hop
      unfold ChannelStore.Accounts
      rw [ChannelStore.insert_self]
      refine .opened other signer deposit operator fun r hr => ?_
      rcases hr with hr | ⟨-, hopens⟩
      · exact hr.elim
      · exact hopens rfl
    · exact accounts_other (ChannelStore.insert_of_ne (Ne.symm hid)) (fun _ => id) hid h
  · rw [hs]
    by_cases hid : other = channelId
    · subst hid
      unfold ChannelStore.Accounts at h ⊢
      rw [hstate] at h
      rw [ChannelStore.insert_self]
      exact ChannelState.Accounted.update h hstate hu
    · refine accounts_other (ChannelStore.insert_of_ne (Ne.symm hid)) (fun r hr => ?_) id h
      cases u with
      | delivery u => exact hid hr.1
      | _ => exact hr.elim
  · rw [hs]
    by_cases hid : other = channelId
    · subst hid
      unfold ChannelStore.Accounts at h ⊢
      rw [hstate] at h
      rw [ChannelStore.insert_self]
      have hsame : { state with finalized := true : ChannelState }.Accounted reserved :=
        ChannelState.Accounted.of_same h rfl rfl rfl (UInt64.le_refl _)
      exact hsame.congr fun r => ⟨fun hr => Or.inr ⟨hr, id⟩, fun hr => (hr.resolve_left id).1⟩
    · exact accounts_other (ChannelStore.insert_of_ne (Ne.symm hid)) (fun _ => id) id h

/-- The reservations made on a channel in a run since the channel was last opened. -/
def ReservedIn (server : SessionServer) (channelId : String) :
    List Event → PendingDelivery → Prop
  | [], _ => False
  | e :: run, r =>
      (∃ op x, (server.machine.exec run).Performs e op x ∧
        op.Reserves (server.machine.exec run).store channelId r) ∨
      (server.ReservedIn channelId run r ∧
        ∀ op x, (server.machine.exec run).Performs e op x → ¬ op.Opens channelId)

/-- **Every reachable store accounts for the reservations of the run.** -/
theorem accounts_of_run (server : SessionServer) (channelId : String) (run : List Event) :
    (server.machine.exec run).store.Accounts channelId (server.ReservedIn channelId run) := by
  induction run with
  | nil => exact fun _ => id
  | cons e run ih =>
    rcases Pool.performs_or_idle (sessionHandler server.ed) server.program
      (server.machine.exec run) e with ⟨op, x, hp⟩ | ⟨hidle, hs⟩
    · have hop : server.Issues op := hp.every (Pool.every_call program_issues _ run)
      have hstore : (server.machine.exec (e :: run)).store =
          (sessionHandler server.ed op x (server.machine.exec run).store).1 := hp.store_eq
      rw [hstore]
      have hstep := accounts_step (x := x) hop ih
      convert hstep using 1
      funext r
      refine propext ⟨fun hr => ?_, fun hr => ?_⟩
      · rcases hr with ⟨op', x', hp', hr⟩ | ⟨hr, hopens⟩
        · obtain ⟨rfl, rfl⟩ := hp.unique hp'
          exact Or.inl hr
        · exact Or.inr ⟨hr, hopens op x hp⟩
      · rcases hr with hr | ⟨hr, hopens⟩
        · exact Or.inl ⟨op, x, hp, hr⟩
        · refine Or.inr ⟨hr, fun op' x' hp' => ?_⟩
          obtain ⟨rfl, rfl⟩ := hp.unique hp'
          exact hopens
    · have hstore : (server.machine.exec (e :: run)).store = (server.machine.exec run).store := hs
      rw [hstore]
      convert ih using 1
      funext r
      refine propext ⟨fun hr => ?_, fun hr => ?_⟩
      · rcases hr with ⟨op, x, hp, -⟩ | ⟨hr, -⟩
        · exact absurd hp (hidle op x)
        · exact hr
      · exact Or.inr ⟨hr, fun op x hp => absurd hp (hidle op x)⟩

/-- A step opens the channel of a charge again. -/
def Reopens (p : Sessions) (e : Event) (charge : Charge) : Prop :=
  ∃ op x, p.Performs e op x ∧ op.Opens charge.channelId

/-- **The delivery ledger, exactly once.**  In every reachable state the ledger of a channel
is sound, each committed amount is at most what was reserved for its delivery since the
channel was opened, and nothing is charged twice without the channel being opened between. -/
theorem ledger_sound (server : SessionServer) (run : List Event) :
    (∀ channelId state, (server.machine.exec run).store channelId = some state →
      state.LedgerSound ∧ ∀ d ∈ state.committedDeliveries,
        (∃ r, server.ReservedIn channelId run r ∧ r.deliveryId = d.deliveryId) ∧
          ∀ r, server.ReservedIn channelId run r → r.deliveryId = d.deliveryId →
            d.amount ≤ r.amount) ∧
      server.machine.OncePer Reopens server.Charges run := by
  refine ⟨fun channelId state hstate => ?_, ?_⟩
  · have hacc := accounts_of_run server channelId run
    unfold ChannelStore.Accounts at hacc
    rw [hstate] at hacc
    have hacc : state.Accounted (server.ReservedIn channelId run) := hacc
    refine ⟨hacc.toLedgerSound, fun d hd => ⟨hacc.committed_reserved d hd, fun r hr hid => ?_⟩⟩
    exact hacc.amount_le hd hr hid
  · refine Machine.oncePer_of_marked (fun charge (p : Sessions) => charge.Taken p.store)
      (fun p e charge h => ?_) (fun p e charge h => ?_) (fun p e charge htaken hopens => ?_)
    · exact charged_taken h
    · obtain ⟨op, x, -, hc⟩ := h
      exact hc.not_taken
    · show charge.Taken (p.react (sessionHandler server.ed) server.program e).store
      rcases Pool.performs_or_idle (sessionHandler server.ed) server.program p e with
        ⟨op, x, hp⟩ | ⟨-, hs⟩
      · rw [hp.store_eq]
        exact htaken.mono (extends_of_not_opens fun hop => hopens ⟨op, x, hp, hop⟩)
      · rw [hs]
        exact htaken

end SessionServer
end MppSdk
