import MppSdk.Admission
import MppSdk.DeliveryLedger

/-! # Generated delivery ids

Without a requested id `begin_delivery` names a delivery by its session and its sequence
number; a requested id is taken as it is.  As long as no request takes an id that is still to
be generated, the ids of a channel are behind its counter (`NamesPast`), and the generated id
is free in every state of the run (`generates_of_choosesPast`).  A single request for the id
after next makes the one after it fail, and as the counter then stays, every later one. -/

namespace MppSdk
open Script

/-- The id that is generated for a sequence number. -/
def generatedId (sessionId : String) (sequence : UInt64) : String := s!"{sessionId}:{sequence}"

theorem generatedId_injective {sessionId : String} {m n : UInt64}
    (h : generatedId sessionId m = generatedId sessionId n) : m = n := by
  have htext : (toString m).toList = (toString n).toList := by
    have hlist := congrArg String.toList h
    simp only [generatedId, String.toList_append] at hlist
    simpa using hlist
  have hread := congrArg parseU64 (String.toList_inj.mp htext)
  rw [parseU64_toString, parseU64_toString] at hread
  exact Option.some.inj hread

/-- The ids of the deliveries of a channel, pending and committed. -/
def ChannelState.deliveryIds (state : ChannelState) : List String :=
  state.pendingDeliveries.map PendingDelivery.deliveryId ++
    state.committedDeliveries.map CommittedDelivery.deliveryId

/-- The generated ids among those of a channel are behind its counter. -/
def ChannelState.NamesPast (channelId : String) (state : ChannelState) : Prop :=
  ∀ n, generatedId channelId n ∈ state.deliveryIds → n ≤ state.nextDeliverySequence

/-- A reservation that is made takes no id that is to be generated after it. -/
def SessionOp.ChoosesPast : SessionOp → ChannelStore → Prop
  | .updateChannel channelId (.delivery u), store => ∀ state r, store channelId = some state →
      u.apply (some state) = .ok r → ∀ n, u.requestedDeliveryId = some (generatedId channelId n) →
        n ≤ state.nextDeliverySequence + 1
  | _, _ => True

namespace ChannelState.NamesPast
variable {channelId : String} {state state' : ChannelState}

/-- Fewer ids and a later counter. -/
theorem mono (h : state.NamesPast channelId) (hids : state'.deliveryIds ⊆ state.deliveryIds)
    (hnext : state.nextDeliverySequence ≤ state'.nextDeliverySequence) :
    state'.NamesPast channelId :=
  fun n hn => UInt64.le_trans (h n (hids hn)) hnext

theorem opened (channelId signer : String) (deposit : UInt64) (operator : Option String) :
    (SessionServer.openedState channelId signer deposit operator).NamesPast channelId :=
  fun _ h => (nomatch h)

/-- A reservation adds its id, generated for the new counter or chosen behind it. -/
theorem reserve {u : DeliveryUpdate} (h : state.NamesPast channelId) (hledger : state.Ledger)
    (hroom : state.HasRoom) (hsession : u.sessionId = channelId)
    (hchosen : ∀ n, u.requestedDeliveryId = some (generatedId channelId n) →
      n ≤ state.nextDeliverySequence + 1) :
    (u.reserved state).NamesPast channelId := by
  have hlt : state.nextDeliverySequence ≤ state.nextDeliverySequence + 1 := by
    rw [UInt64.le_iff_toNat_le, UInt64.toNat_add]
    have hnext := hledger.next_lt hroom
    simp only [UInt64.reduceToNat]
    omega
  intro n hn
  show n ≤ state.nextDeliverySequence + 1
  have hids : (u.reserved state).deliveryIds = state.pendingDeliveries.map PendingDelivery.deliveryId
      ++ (u.reservation state).deliveryId ::
        state.committedDeliveries.map CommittedDelivery.deliveryId := by
    simp [deliveryIds, DeliveryUpdate.reserved]
  rw [hids, List.mem_append, List.mem_cons] at hn
  have hmem : generatedId channelId n = (u.reservation state).deliveryId ∨
      generatedId channelId n ∈ state.deliveryIds := by
    rw [deliveryIds, List.mem_append]
    tauto
  rcases hmem with hnew | hold
  · have hid : (u.reservation state).deliveryId =
        u.requestedDeliveryId.getD (generatedId u.sessionId (state.nextDeliverySequence + 1)) := rfl
    rcases hrequested : u.requestedDeliveryId with _ | requested
    · rw [hid, hrequested, hsession, Option.getD_none] at hnew
      rw [generatedId_injective hnew]
      exact UInt64.le_refl _
    · rw [hid, hrequested, Option.getD_some] at hnew
      exact hchosen n (hnew ▸ hrequested)
  · exact UInt64.le_trans (h n hold) hlt

/-- A commit moves an id from the one list to the other. -/
theorem commit {u : CommitUpdate} {pending : PendingDelivery} (h : state.NamesPast channelId)
    (hadv : u.Advances state pending) : (u.committed state).NamesPast channelId := by
  obtain ⟨hmem, hid⟩ := hadv.mem
  refine h.mono ?_ (UInt64.le_refl _)
  intro id hin
  rcases List.mem_append.mp hin with hin | hin
  · obtain ⟨d, hd, rfl⟩ := List.mem_map.mp hin
    have hd : d ∈ state.pendingDeliveries := List.mem_of_mem_eraseP hd
    exact List.mem_append_left _ (List.mem_map_of_mem hd)
  · obtain ⟨d, hd, rfl⟩ := List.mem_map.mp hin
    rcases List.mem_append.mp hd with hd | hd
    · exact List.mem_append_right _ (List.mem_map_of_mem hd)
    · obtain rfl := List.mem_singleton.mp hd
      have hrecord : (u.record state).deliveryId = pending.deliveryId := hid.symm
      exact List.mem_append_left _ (hrecord ▸ List.mem_map_of_mem hmem)

/-- **Every closure keeps the ids behind the counter**, if the reservations do. -/
theorem update {ed : Ed25519} {clock : Int64} {u : Updater} {out : Captured}
    (h : state.NamesPast channelId) (hledger : state.Ledger)
    (hdelivery : ∀ d : DeliveryUpdate, u = .delivery d → d.sessionId = channelId ∧
      ∀ n, d.requestedDeliveryId = some (generatedId channelId n) →
        n ≤ state.nextDeliverySequence + 1)
    (hu : u.apply ed clock (some state) = .ok (state', out)) : state'.NamesPast channelId := by
  cases u with
  | voucher u =>
    obtain ⟨_, hs, -, hv⟩ := VoucherUpdate.apply_eq_ok.mp hu
    obtain rfl := Option.some.inj hs
    rcases hv with ⟨-, -, rfl⟩ | ⟨-, rfl⟩
    · exact h
    · exact h
  | topup u =>
    obtain ⟨_, hs, -, -, -, rfl⟩ := TopUpUpdate.apply_eq_ok.mp hu
    obtain rfl := Option.some.inj hs
    exact h
  | delivery u =>
    obtain ⟨_, hs, -, -, -, -, hroom, rfl, -⟩ := DeliveryUpdate.apply_eq_ok.mp hu
    obtain rfl := Option.some.inj hs
    obtain ⟨hsession, hchosen⟩ := hdelivery u rfl
    exact h.reserve hledger hroom hsession hchosen
  | commit u =>
    obtain ⟨_, hs, hc⟩ := CommitUpdate.apply_eq_ok.mp hu
    obtain rfl := Option.some.inj hs
    rcases hc with ⟨d, -, rfl, -⟩ | ⟨pending, hadv, rfl, -⟩
    · exact h
    · exact h.commit hadv
  | close u =>
    obtain ⟨_, hs, -, -, cumulative, sig, expiresAt, -, rfl⟩ := CloseUpdate.apply_eq_ok.mp hu
    obtain rfl := Option.some.inj hs
    exact h

end ChannelState.NamesPast

namespace SessionServer
variable {server : SessionServer}

/-- A reservation without a requested id that fits the deposit is made. -/
def GeneratesIds (server : SessionServer) (p : Sessions) : Prop :=
  ∀ request state xs, p.store request.sessionId = some state → state.Open → state.HasRoom →
    request.deliveryId = none → 0 < request.amount →
    state.owed request.amount ≤ state.deposit.toNat → server.Reserves request p.store xs

/-- The generated id is free when the ids are behind the counter. -/
theorem freshId_of_namesPast {request : DeliveryRequest} {state : ChannelState}
    (hpast : state.NamesPast request.sessionId) (hledger : state.Ledger) (hroom : state.HasRoom)
    (hnone : request.deliveryId = none) : server.FreshId request state := by
  have hid : ((server.reservationOf request).reservation state).deliveryId =
      generatedId request.sessionId (state.nextDeliverySequence + 1) := by
    show request.deliveryId.getD _ = _
    rw [hnone]
    rfl
  have hfree : generatedId request.sessionId (state.nextDeliverySequence + 1) ∉
      state.deliveryIds := by
    intro hin
    have hle := UInt64.le_iff_toNat_le.mp (hpast _ hin)
    have hnext := hledger.next_lt hroom
    rw [UInt64.toNat_add] at hle
    simp only [UInt64.reduceToNat] at hle
    omega
  rw [FreshId, hid]
  constructor
  · exact fun d hd heq => hfree (List.mem_append_left _ (heq ▸ List.mem_map_of_mem hd))
  · exact fun d hd heq => hfree (List.mem_append_right _ (heq ▸ List.mem_map_of_mem hd))

/-- Every stored ledger is sound. -/
theorem ledger_of_run (run : List Event) {channelId : String} {state : ChannelState}
    (hstate : (server.machine.exec run).store channelId = some state) : state.Ledger := by
  have hacc := accounts_of_run server channelId run
  unfold ChannelStore.Accounts at hacc
  rw [hstate] at hacc
  have hacc : state.Accounted (server.ReservedIn channelId run) := hacc
  exact hacc.toLedger

/-- **In a run in which no request takes a later id, the ids are behind the counter.** -/
theorem namesPast_of_run (run : List Event)
    (hg : server.machine.Guarded (Pool.Guard SessionOp.ChoosesPast) run) :
    ∀ channelId state, (server.machine.exec run).store channelId = some state →
      state.NamesPast channelId := by
  induction run with
  | nil => exact fun _ _ h => (nomatch h)
  | cons e run ih =>
    obtain ⟨hC, hg⟩ := Machine.guarded_cons.mp hg
    rcases Pool.performs_or_idle (sessionHandler server.ed) server.program
      (server.machine.exec run) e with ⟨op, x, hp⟩ | ⟨-, hs⟩
    · have hop : server.Issues op := hp.every (Pool.every_call program_issues _ run)
      have hpast : op.ChoosesPast (server.machine.exec run).store := by
        obtain ⟨i, c, rfl, hn⟩ := hp
        exact Pool.guard_step.mp hC c op hn
      have hstore : (server.machine.exec (e :: run)).store =
          (sessionHandler server.ed op x (server.machine.exec run).store).1 := hp.store_eq
      rw [hstore]
      refine forall_channels ?_ ?_ ?_ (ih hg)
      · rintro channelId state rfl
        obtain ⟨signer, deposit, operator, rfl, -⟩ := hop
        exact .opened channelId signer deposit operator
      · rintro channelId u state state' out rfl hstate hnames hu
        refine hnames.update (ledger_of_run run hstate) ?_ hu
        rintro d rfl
        exact ⟨hop.1, hpast state _ hstate hu⟩
      · exact fun _ _ _ h => h
    · have hstore : (server.machine.exec (e :: run)).store = (server.machine.exec run).store := hs
      rw [hstore]
      exact ih hg

/-- **Generated ids never collide** in a run in which no request takes an id that is still to
be generated. -/
theorem generates_of_choosesPast (server : SessionServer) (run : List Event)
    (hg : server.machine.Guarded (Pool.Guard SessionOp.ChoosesPast) run) :
    server.machine.Always server.GeneratesIds run := by
  intro before hbefore request state xs hstate hopen hroom hnone hpos hfits
  have hnames := namesPast_of_run before (hg.suffix hbefore) _ state hstate
  have hfresh : server.FreshId request state :=
    freshId_of_namesPast hnames (ledger_of_run before hstate) hroom hnone
  refine (reserves_iff hstate hopen hfresh).mpr ⟨UInt64.pos_iff_ne_zero.mp hpos, hroom, ?_⟩
  rw [UInt64.le_iff_toNat_le, ChannelState.toNat_owed]
  exact Nat.le_trans (Nat.mod_le _ _) hfits

/-! ## A request for the next id -/

/-- Open a channel and reserve 5 under the id that is generated next. -/
def squatted : List Event :=
  List.reverse (
    [.start (.processOpen sampleOpen)] ++ steps 0 1 ++
    [.start (.beginDelivery { reserve 5 with
      deliveryId := some "11111111111111111111111111111111:2" })] ++ steps 1 1)

/-- Nothing can be reserved without a requested id any more. -/
theorem squatted_blocks :
    ¬ sampleServer.machine.Always sampleServer.GeneratesIds squatted := by
  intro h
  have hblocked : (alone (sessionHandler sampleServer.ed)
      (sampleServer.beginDelivery (reserve 5)).run (fun _ => ⟨0, .ok none⟩)
      (sampleServer.machine.exec squatted).store).2.toOption.isNone := by decide +kernel
  have hstored : ((sampleServer.machine.exec squatted).store
      "11111111111111111111111111111111").map (fun state =>
        (decide (state.Open ∧ state.HasRoom), decide (state.owed 5 ≤ state.deposit.toNat))) =
          some (true, true) := by decide +kernel
  obtain ⟨state, hstate, hfits⟩ := Option.map_eq_some_iff.mp hstored
  simp only [Prod.mk.injEq, decide_eq_true_eq] at hfits
  obtain ⟨⟨hopen, hroom⟩, hfits⟩ := hfits
  obtain ⟨directive, hreserves⟩ := h.last (reserve 5) state (fun _ => ⟨0, .ok none⟩) hstate hopen
    hroom rfl (by decide) hfits
  rw [hreserves] at hblocked
  cases hblocked

/-- Open a channel and reserve 5 twice, the second time under a requested id. -/
def reservations : List Event :=
  List.reverse (
    [.start (.processOpen sampleOpen)] ++ steps 0 1 ++
    [.start (.beginDelivery (reserve 5))] ++ steps 1 1 ++
    [.start (.beginDelivery { reserve 5 with deliveryId := some "tip" })] ++ steps 2 1)

/-- No id is requested but "tip". -/
def RequestsTip : SessionOp → ChannelStore → Prop
  | .updateChannel _ (.delivery u), _ => u.requestedDeliveryId.getD "tip" = "tip"
  | _, _ => True

instance : ∀ (op : SessionOp) (store : ChannelStore), Decidable (RequestsTip op store)
  | .updateChannel _ (.delivery _), _ => inferInstanceAs (Decidable (_ = _))
  | .updateChannel _ (.voucher _), _ | .updateChannel _ (.topup _), _
  | .updateChannel _ (.commit _), _ | .updateChannel _ (.close _), _
  | .getChannel _, _ | .putChannel _ _, _ | .markFinalized _, _ | .unixTime, _
  | .signatureStatus _, _ => .isTrue trivial

/-- "tip" is not generated. -/
theorem RequestsTip.choosesPast {op : SessionOp} {store : ChannelStore}
    (h : RequestsTip op store) : op.ChoosesPast store := by
  rcases op with _ | _ | ⟨channelId, u | u | u | u | u⟩ | _ | _ | _ <;> try trivial
  intro state r _ _ n hn
  have hcolon : ':' ∈ "tip".toList := by
    rw [← show generatedId channelId n = "tip" by simpa [RequestsTip, hn] using h]
    simp only [generatedId, String.toList_append, List.mem_append]
    exact Or.inl (Or.inr (by decide))
  exact absurd hcolon (by decide)

theorem reservations_generate :
    sampleServer.machine.Always sampleServer.GeneratesIds reservations := by
  have htip : sampleServer.machine.Guarded (Pool.Guard RequestsTip) reservations := by
    decide +kernel
  refine generates_of_choosesPast sampleServer reservations (htip.mono fun p e h => ?_)
  cases e with
  | start c => trivial
  | step i x =>
    exact Pool.guard_step.mpr fun c op hn => (Pool.guard_step.mp h c op hn).choosesPast

end SessionServer
end MppSdk
