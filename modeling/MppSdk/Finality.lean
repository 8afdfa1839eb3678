import MppSdk.Continuity

/-! # What a close settles

Once a channel is closing or finalized its record is settled: the closures of vouchers,
deliveries, commits and closes look at both flags under the lock, so they also stop the calls
that began before the close.  `process_topup` looks at neither flag and raises the deposit of
a closed channel.  So along a run closed channels stay as they are, until they are opened
again, exactly when each top-up that takes effect finds its channel open
(`closesFinally_iff`). -/

namespace MppSdk

/-- The later state is the settled one, up to being finalized. -/
def ChannelState.Settled (state state' : ChannelState) : Prop :=
  state' = state ∨ state' = { state with finalized := true }

namespace ChannelState.Settled
variable {a b c : ChannelState}

theorem trans (h : a.Settled b) (k : b.Settled c) : a.Settled c := by
  rcases h with rfl | rfl
  · exact k
  · rcases k with rfl | rfl
    · exact Or.inr rfl
    · exact Or.inr rfl

/-- A settled channel stays closed. -/
theorem not_open (h : a.Settled b) (ha : ¬ a.Open) : ¬ b.Open := by
  rcases h with rfl | rfl
  · exact ha
  · exact fun hb => Bool.noConfusion hb.1

theorem deposit_eq (h : a.Settled b) : b.deposit = a.deposit := by
  rcases h with rfl | rfl <;> rfl

end ChannelState.Settled

/-- A top-up that takes effect finds its channel open. -/
def SessionOp.TopsUpOpen : SessionOp → ChannelStore → Prop
  | .updateChannel channelId (.topup u), store => ∀ state, store channelId = some state →
      state.deposit < u.newDeposit → u.newDeposit ≤ u.maxCap → state.Open
  | _, _ => True

/-- A closed channel is settled from one store to the other. -/
def ChannelStore.Settles (channelId : String) (store store' : ChannelStore) : Prop :=
  ∀ state, store channelId = some state → ¬ state.Open →
    ∃ state', store' channelId = some state' ∧ state.Settled state'

namespace ChannelStore.Settles
variable {id : String} {s t u : ChannelStore}

theorem refl (id : String) (s : ChannelStore) : s.Settles id s :=
  fun state h _ => ⟨state, h, Or.inl rfl⟩

theorem trans (h : s.Settles id t) (k : t.Settles id u) : s.Settles id u := by
  intro state hs hclosed
  obtain ⟨state₁, ht, h₁⟩ := h state hs hclosed
  obtain ⟨state₂, hu, h₂⟩ := k state₁ ht (h₁.not_open hclosed)
  exact ⟨state₂, hu, h₁.trans h₂⟩

end ChannelStore.Settles

/-- A closure leaves a closed channel alone, unless it is a top-up. -/
theorem Updater.open_of_apply {ed : Ed25519} {clock : Int64} {u : Updater}
    {state state' : ChannelState} {out : Captured}
    (hu : u.apply ed clock (some state) = .ok (state', out)) :
    state.Open ∨ ∃ t, u = .topup t ∧ state.deposit < t.newDeposit ∧ t.newDeposit ≤ t.maxCap ∧
      state' = { state with deposit := t.newDeposit } := by
  cases u with
  | voucher u =>
    obtain ⟨_, hs, -, h⟩ := VoucherUpdate.apply_eq_ok.mp hu
    obtain rfl := Option.some.inj hs
    rcases h with ⟨hopen, -, -⟩ | ⟨⟨hopen, -⟩, -⟩
    · exact Or.inl hopen
    · exact Or.inl hopen
  | topup u =>
    obtain ⟨_, hs, -, hlt, hle, rfl⟩ := TopUpUpdate.apply_eq_ok.mp hu
    obtain rfl := Option.some.inj hs
    exact Or.inr ⟨u, rfl, hlt, hle, rfl⟩
  | delivery u =>
    obtain ⟨_, hs, hopen, -⟩ := DeliveryUpdate.apply_eq_ok.mp hu
    obtain rfl := Option.some.inj hs
    exact Or.inl hopen
  | commit u =>
    obtain ⟨_, hs, h⟩ := CommitUpdate.apply_eq_ok.mp hu
    obtain rfl := Option.some.inj hs
    rcases h with ⟨d, ⟨hopen, -⟩, -⟩ | ⟨pending, ⟨hopen, -⟩, -⟩
    · exact Or.inl hopen
    · exact Or.inl hopen
  | close u =>
    obtain ⟨_, hs, -, hopen, -⟩ := CloseUpdate.apply_eq_ok.mp hu
    obtain rfl := Option.some.inj hs
    exact Or.inl hopen

/-- **A step on closed channels.**  An operation settles every closed channel that it does not
open exactly when it is no top-up of one. -/
theorem settles_step_iff {ed : Ed25519} {op : SessionOp} {x : SessionInput}
    {store : ChannelStore} :
    (∀ id, ¬ op.Opens id → store.Settles id (sessionHandler ed op x store).1) ↔
      op.TopsUpOpen store := by
  rcases effect_cases ed op x store with ⟨hidle, hs⟩ | ⟨channelId, put, rfl, hs⟩ |
    ⟨channelId, u, old, state', out, rfl, hold, hu, hs⟩ | ⟨channelId, old, rfl, hold, hs⟩
  · rw [hs]
    refine ⟨fun _ => ?_, fun _ id _ => .refl id store⟩
    cases op with
    | updateChannel channelId u =>
      cases u with
      | topup u =>
        -- the closure would have taken effect
        intro state hstate hlt hle
        refine absurd ?_ (hidle (({ state with deposit := u.newDeposit }, .nothing)))
        rw [hstate]
        exact TopUpUpdate.apply_eq_ok.mpr ⟨state, rfl, rfl, hlt, hle, rfl⟩
      | _ => trivial
    | _ => trivial
  · rw [hs]
    refine ⟨fun _ => trivial, fun _ id hid state hstate _ => ⟨state, ?_, Or.inl rfl⟩⟩
    exact (ChannelStore.insert_of_ne (Ne.symm hid)).trans hstate
  · rw [hs]
    have hstored := ChannelStore.insert_self store channelId state'
    have hother : ∀ id, id ≠ channelId → store.Settles id (store.insert channelId state') :=
      fun id hid state hstate _ =>
        ⟨state, (ChannelStore.insert_of_ne hid).trans hstate, Or.inl rfl⟩
    rcases Updater.open_of_apply hu with hopen | ⟨t, rfl, hlt, hle, rfl⟩
    · have hall : ∀ id, store.Settles id (store.insert channelId state') := by
        intro id
        by_cases hid : id = channelId
        · subst hid
          intro state hstate hclosed
          obtain rfl := Option.some.inj (hold.symm.trans hstate)
          exact absurd hopen hclosed
        · exact hother id hid
      refine ⟨fun _ => ?_, fun _ id _ => hall id⟩
      cases u with
      | topup u =>
        intro state hstate _ _
        obtain rfl := Option.some.inj (hold.symm.trans hstate)
        exact hopen
      | _ => trivial
    · constructor
      · intro h state hstate _ _
        obtain rfl := Option.some.inj (hold.symm.trans hstate)
        by_contra hclosed
        obtain ⟨state'', hstate'', hsettled⟩ := h channelId id old hold hclosed
        obtain rfl := Option.some.inj (hstored.symm.trans hstate'')
        have heq : t.newDeposit = old.deposit := hsettled.deposit_eq
        exact UInt64.lt_irrefl _ (heq ▸ hlt)
      · intro h id _
        by_cases hid : id = channelId
        · subst hid
          intro state hstate hclosed
          obtain rfl := Option.some.inj (hold.symm.trans hstate)
          exact absurd (h old hold hlt hle) hclosed
        · exact hother id hid
  · rw [hs]
    refine ⟨fun _ => trivial, fun _ id _ state hstate _ => ?_⟩
    by_cases hid : id = channelId
    · subst hid
      obtain rfl := Option.some.inj (hold.symm.trans hstate)
      exact ⟨_, ChannelStore.insert_self store id _, Or.inr rfl⟩
    · exact ⟨state, (ChannelStore.insert_of_ne hid).trans hstate, Or.inl rfl⟩

/-- A closure that closes, and finalizing, leave the channel closed. -/
theorem closed_of_effect {ed : Ed25519} {x : SessionInput} {store : ChannelStore}
    {channelId : String} {state : ChannelState} (hstate : store channelId = some state) :
    (∀ u state' out, Updater.apply ed x.now (.close u) (some state) = .ok (state', out) →
      ∃ closed, (sessionHandler ed (.updateChannel channelId (.close u)) x store).1 channelId =
        some closed ∧ ¬ closed.Open) ∧
    ∃ closed, (sessionHandler ed (.markFinalized channelId) x store).1 channelId = some closed ∧
      ¬ closed.Open := by
  constructor
  · intro u state' out hu
    refine ⟨state', stored_of_update hstate hu, fun hopen => ?_⟩
    obtain ⟨_, hs, -, -, cumulative, sig, expiresAt, -, rfl⟩ := CloseUpdate.apply_eq_ok.mp hu
    exact Option.some_ne_none u.now hopen.2
  · refine ⟨{ state with finalized := true }, ?_, fun hopen => Bool.noConfusion hopen.1⟩
    simp [sessionHandler, ChannelStore.markFinalized, hstate]

namespace SessionServer
variable {server : SessionServer}

/-- The step opens the channel. -/
def OpensChannel (p : Sessions) (e : Event) (channelId : String) : Prop :=
  ∃ op x, p.Performs e op x ∧ op.Opens channelId

/-- **Exact condition for a close to be final.**  From any moment on, a channel that is closing
or finalized stays as it is, up to being finalized, until it is opened again, exactly when each
top-up that takes effect finds its channel open. -/
theorem closesFinally_iff (server : SessionServer) (run : List Event) :
    server.machine.AlongUnless OpensChannel (fun id p q => p.store.Settles id q.store) run ↔
      server.machine.Guarded (Pool.Guard SessionOp.TopsUpOpen) run := by
  refine Machine.alongUnless_iff_guarded (Q := fun _ => True)
    (fun id p => .refl id p.store) (fun id p q r h k => h.trans k) (fun _ => trivial)
    (fun p e _ => ?_) run
  rcases Pool.step_cases (sessionHandler server.ed) server.program p e with
    ⟨c, rfl, he⟩ | ⟨i, x, c, op, next, rfl, hi, he⟩ | ⟨i, x, rfl, hn, he⟩
  · refine ⟨fun _ => trivial, fun _ id _ => ?_⟩
    show p.store.Settles id (p.react _ _ _).store
    rw [he]
    exact .refl id p.store
  · have hperforms : p.Performs (.step i x) op x := ⟨i, c, rfl, next, hi⟩
    have hopens : ∀ id, OpensChannel p (.step i x) id ↔ op.Opens id := by
      intro id
      constructor
      · rintro ⟨op', x', hp, hop⟩
        obtain ⟨rfl, -⟩ := hperforms.unique hp
        exact hop
      · exact fun hop => ⟨op, x, hperforms, hop⟩
    have hguard : Pool.Guard SessionOp.TopsUpOpen p (.step i x) ↔ op.TopsUpOpen p.store := by
      simp only [Pool.Guard, Pool.Meets, hi]
    have hstore : (server.machine.step p (.step i x)).store =
        (sessionHandler server.ed op x p.store).1 := congrArg Pool.store he
    rw [hguard, hstore, ← @settles_step_iff server.ed op x p.store]
    exact forall_congr' fun id => imp_congr_left (not_congr (hopens id))
  · refine ⟨fun _ => Pool.guard_step.mpr fun c op hc => absurd hc (hn c op), fun _ id _ => ?_⟩
    show p.store.Settles id (p.react _ _ _).store
    rw [he]
    exact .refl id p.store

/-! ## A channel topped up after its close -/

/-- Open a channel with a deposit of 100, close it, and top it up to 200. -/
def lateTopup : List Event :=
  List.reverse (
    [.start (.processOpen sampleOpen)] ++ steps 0 1 ++
    [.start (.processClose { channelId := "11111111111111111111111111111111", voucher := none })] ++
    steps 1 3 ++
    [.start (.processTopup { channelId := "11111111111111111111111111111111",
                             newDeposit := "200", signature := "" })] ++ steps 2 1)

instance (channelId : String) : ∀ op : SessionOp, Decidable (op.Opens channelId)
  | .putChannel id _ => inferInstanceAs (Decidable (id = channelId))
  | .getChannel _ => .isFalse id
  | .updateChannel _ _ => .isFalse id
  | .markFinalized _ => .isFalse id
  | .unixTime => .isFalse id
  | .signatureStatus _ => .isFalse id

/-- The deposit of the closed channel rises from 100 to 200. -/
theorem lateTopup_unsettles :
    ¬ sampleServer.machine.AlongUnless OpensChannel
      (fun id p q => p.store.Settles id q.store) lateTopup := by
  intro h
  have hclosed : ((sampleServer.machine.exec lateTopup.tail).store
      "11111111111111111111111111111111").map (fun state => (decide state.Open, state.deposit)) =
        some (false, 100) := by decide +kernel
  have hafter : ((sampleServer.machine.exec lateTopup).store
      "11111111111111111111111111111111").map ChannelState.deposit = some 200 := by
    decide +kernel
  have hstays : Pool.Guard
      (fun (op : SessionOp) _ => ¬ op.Opens "11111111111111111111111111111111")
      (sampleServer.machine.exec lateTopup.tail) (.step 2 (⟨0, .ok none⟩ : SessionInput)) := by
    decide +kernel
  have hnot : ∀ e mid, e :: mid <:+ lateTopup → lateTopup.tail <:+ mid →
      ¬ OpensChannel (sampleServer.machine.exec mid) e "11111111111111111111111111111111" := by
    intro e mid hmid hbefore
    have heq : e :: mid = lateTopup := hmid.eq_of_length_le (Nat.succ_le_succ hbefore.length_le)
    obtain ⟨rfl, rfl⟩ := List.cons.inj heq
    rintro ⟨op, x, ⟨i, c, hstep, hn⟩, hop⟩
    cases hstep
    exact Pool.guard_step.mp hstays c op hn hop
  obtain ⟨state, hstate, hbefore⟩ := Option.map_eq_some_iff.mp hclosed
  obtain ⟨hopen, hdeposit⟩ := Prod.mk.inj hbefore
  obtain ⟨state', hstate', hsettled⟩ := h _ lateTopup.tail lateTopup (List.tail_suffix _)
    List.suffix_rfl hnot state hstate (of_decide_eq_false hopen)
  rw [hstate'] at hafter
  have heq : state'.deposit = 200 := Option.some.inj hafter
  rw [hsettled.deposit_eq, hdeposit] at heq
  exact absurd heq (by decide)

end SessionServer
end MppSdk
