import MppSdk.DeliveryLedger

/-! # A channel whose deliveries are committed

What one `process_commit` may do to its channel, and what its receipt shows, whatever else
happens in between: the channel is only extended, its watermark moves to the amount of the
voucher or not at all, and a receipt names a delivery that was committed with this amount. -/

namespace MppSdk
open Script

/-- The channel is stored, and its ledger is sound. -/
def ChannelStore.LedgerAt (channelId : String) (store : ChannelStore) : Prop :=
  ∃ state, store channelId = some state ∧ state.Ledger

/-- The channel stays stored and is extended. -/
def ChannelStore.ExtendsAt (channelId : String) (store store' : ChannelStore) : Prop :=
  ∀ state, store channelId = some state →
    ∃ state', store' channelId = some state' ∧ state.Extends state'

namespace ChannelStore.ExtendsAt
variable {channelId : String} {s t u : ChannelStore}

theorem refl (s : ChannelStore) : ExtendsAt channelId s s :=
  fun state h => ⟨state, h, .refl state⟩

theorem trans (h : ExtendsAt channelId s t) (k : ExtendsAt channelId t u) :
    ExtendsAt channelId s u := by
  intro state hs
  obtain ⟨state₁, ht, h₁⟩ := h state hs
  obtain ⟨state₂, hu, h₂⟩ := k state₁ ht
  exact ⟨state₂, hu, h₁.trans h₂⟩

end ChannelStore.ExtendsAt

/-- The delivery was committed on the channel, at this watermark. -/
def ChannelStore.CommittedAt (channelId deliveryId : String) (cumulative : UInt64)
    (store : ChannelStore) : Prop :=
  ∃ state, store channelId = some state ∧
    ∃ d ∈ state.committedDeliveries, d.deliveryId = deliveryId ∧ d.cumulative = cumulative

theorem ChannelStore.CommittedAt.mono {channelId deliveryId : String} {cumulative : UInt64}
    {s t : ChannelStore} (h : s.CommittedAt channelId deliveryId cumulative)
    (hext : ExtendsAt channelId s t) : t.CommittedAt channelId deliveryId cumulative := by
  obtain ⟨state, hs, d, hd, hid, hcum⟩ := h
  obtain ⟨state', ht, hext⟩ := hext state hs
  exact ⟨state', ht, d, hext.committed hd, hid, hcum⟩

/-- A committed delivery is within the watermark. -/
theorem ChannelStore.CommittedAt.le {channelId deliveryId : String} {cumulative : UInt64}
    {store : ChannelStore} {state : ChannelState}
    (h : store.CommittedAt channelId deliveryId cumulative) (hstate : store channelId = some state)
    (hledger : state.Ledger) : cumulative ≤ state.cumulative := by
  obtain ⟨_, hs, d, hd, -, rfl⟩ := h
  obtain rfl := Option.some.inj (hs.symm.trans hstate)
  exact hledger.cumulative_le d hd

/-- The committed delivery is that of the payload: its id, its amount and its signature. -/
def CommittedDelivery.Records (d : CommittedDelivery) (payload : CommitPayload) : Prop :=
  d.deliveryId = payload.deliveryId ∧
    parseU64 payload.voucher.data.cumulative = some d.cumulative ∧
    d.voucherSignature = payload.voucher.signature

/-- The payload is committed on the channel. -/
def ChannelState.Charged (state : ChannelState) (payload : CommitPayload) : Prop :=
  ∃ d ∈ state.committedDeliveries, d.Records payload

theorem ChannelState.Charged.mono {state state' : ChannelState} {payload : CommitPayload}
    (h : state.Charged payload) (hext : state.Extends state') : state'.Charged payload := by
  obtain ⟨d, hd, hrecords⟩ := h
  exact ⟨d, hext.committed hd, hrecords⟩

/-- The receipt is of the delivery that is committed for the payload, whose signature the scheme
accepts. -/
def ChannelState.Shows (ed : Ed25519) (payload : CommitPayload) (receipt : CommitReceipt)
    (state : ChannelState) : Prop :=
  ∃ d ∈ state.committedDeliveries, d.Records payload ∧
    ed.Accepts state.authorizedSigner payload.voucher.data.channelId d.cumulative
      payload.voucher.data.expiresAt payload.voucher.signature ∧
    ∃ status, receipt = SessionServer.commitReceipt payload.deliveryId
      payload.voucher.data.channelId d.amount d.cumulative status

theorem ChannelState.Shows.mono {ed : Ed25519} {payload : CommitPayload} {receipt : CommitReceipt}
    {state state' : ChannelState} (h : state.Shows ed payload receipt)
    (hext : state.Extends state') : state'.Shows ed payload receipt := by
  obtain ⟨d, hd, hrecords, haccepts, hreceipt⟩ := h
  refine ⟨d, hext.committed hd, hrecords, ?_, hreceipt⟩
  rw [hext.signer]
  exact haccepts

/-- The receipt shows what the store holds. -/
def ChannelStore.ShownAt (ed : Ed25519) (payload : CommitPayload) (receipt : CommitReceipt)
    (store : ChannelStore) : Prop :=
  ∃ state, store payload.voucher.data.channelId = some state ∧ state.Shows ed payload receipt

theorem ChannelStore.ShownAt.mono {ed : Ed25519} {payload : CommitPayload} {receipt : CommitReceipt}
    {s t : ChannelStore} (h : s.ShownAt ed payload receipt)
    (hext : ExtendsAt payload.voucher.data.channelId s t) : t.ShownAt ed payload receipt := by
  obtain ⟨state, hs, hshows⟩ := h
  obtain ⟨state', ht, hext⟩ := hext state hs
  exact ⟨state', ht, hshows.mono hext⟩

/-- A delivery that is committed is so once. -/
theorem ChannelState.Ledger.committed_once {state : ChannelState} (hledger : state.Ledger)
    {d : CommittedDelivery} (hd : d ∈ state.committedDeliveries) :
    (state.committedDeliveries.filter (·.deliveryId = d.deliveryId)).length = 1 := by
  have hnodup : (state.committedDeliveries.map CommittedDelivery.deliveryId).Nodup :=
    (List.nodup_append.mp hledger.ids_nodup).2.1
  have hcount := List.count_eq_one_of_mem hnodup (List.mem_map_of_mem hd)
  rw [List.count, List.countP_map, List.countP_eq_length_filter] at hcount
  simpa [Function.comp_def, beq_eq_decide] using hcount

/-- The terms of a channel that is only extended. -/
def commitTerms (channelId : String) : Terms sessionInterface ChannelStore where
  holds := ChannelStore.LedgerAt channelId
  guarantee := ChannelStore.ExtendsAt channelId
  allowed _ _ := True
  refl := .refl
  trans _ _ _ := .trans

/-- The operation reads, or commits a delivery of the channel at this amount. -/
def SessionOp.CommitsAt (channelId : String) (cumulative : UInt64) : SessionOp → Prop
  | .updateChannel id u => id = channelId ∧ ∃ c, u = .commit c ∧ c.newCumulative = cumulative
  | .putChannel _ _ => False
  | .markFinalized _ => False
  | _ => True

/-- The operation reads, or commits the delivery of the payload. -/
def SessionOp.CommitsFor (payload : CommitPayload) : SessionOp → Prop
  | .updateChannel id u => id = payload.voucher.data.channelId ∧ ∃ c, u = .commit c ∧
      c.deliveryId = payload.deliveryId ∧
      parseU64 payload.voucher.data.cumulative = some c.newCumulative ∧
      c.signature = payload.voucher.signature
  | .putChannel _ _ => False
  | .markFinalized _ => False
  | _ => True

theorem SessionOp.CommitsFor.commitsAt {payload : CommitPayload} {cumulative : UInt64}
    (hcum : parseU64 payload.voucher.data.cumulative = some cumulative) {op : SessionOp}
    (hop : op.CommitsFor payload) : op.CommitsAt payload.voucher.data.channelId cumulative := by
  cases op with
  | updateChannel id u =>
    obtain ⟨hid, c, rfl, -, hnew, -⟩ := hop
    exact ⟨hid, c, rfl, Option.some.inj (hnew.symm.trans hcum)⟩
  | putChannel id state => exact hop.elim
  | markFinalized id => exact hop.elim
  | _ => trivial

/-- **What a commit does to the store**: nothing, or it charges what was not charged. -/
theorem SessionOp.CommitsFor.step (ed : Ed25519) {payload : CommitPayload} {op : SessionOp}
    (hop : op.CommitsFor payload) (x : SessionInput) (store : ChannelStore) :
    (sessionHandler ed op x store).1 = store ∨
      ∃ (state : ChannelState) (u : CommitUpdate) (pending : PendingDelivery),
        store payload.voucher.data.channelId = some state ∧ ¬ state.Charged payload ∧ u.Advances state pending ∧ (u.record state).Records payload ∧
        (sessionHandler ed op x store).1 =
          store.insert payload.voucher.data.channelId (u.committed state) := by
  rcases effect_cases ed op x store with ⟨-, hs⟩ | ⟨id, put, rfl, -⟩ |
    ⟨id, u, old, state', out, rfl, hold, hu, hs⟩ | ⟨id, old, rfl, -⟩
  · exact Or.inl hs
  · exact hop.elim
  · obtain ⟨rfl, c, rfl, hid, hcum, hsig⟩ := hop
    obtain ⟨_, hsome, hcommit⟩ := CommitUpdate.apply_eq_ok.mp hu
    obtain rfl := Option.some.inj hsome
    rcases hcommit with ⟨d, -, rfl, -⟩ | ⟨pending, hadv, rfl, -⟩
    · refine Or.inl ?_
      rw [hs, ChannelStore.insert_eq_self hold]
    · refine Or.inr ⟨old, c, pending, hold, ?_, hadv, ⟨hid, hcum, hsig⟩, hs⟩
      rintro ⟨d, hd, hrecords, -⟩
      obtain ⟨-, hnone, -⟩ := hadv
      have hne : d.deliveryId ≠ c.deliveryId := by simpa using List.find?_eq_none.mp hnone d hd
      exact hne (hrecords.trans hid.symm)
  · exact hop.elim

/-- **What a commit can do to its channel.** -/
theorem SessionOp.CommitsAt.step (ed : Ed25519) {channelId : String} {cumulative : UInt64}
    {op : SessionOp} (hop : op.CommitsAt channelId cumulative) (x : SessionInput)
    {store : ChannelStore} {state : ChannelState} (hstate : store channelId = some state)
    (hledger : state.Ledger) : ∃ state',
      (sessionHandler ed op x store).1 channelId = some state' ∧ state'.Ledger ∧
      state.Extends state' ∧ (state'.cumulative = state.cumulative ∨
        state.cumulative < cumulative ∧ state'.cumulative = cumulative) := by
  rcases effect_cases ed op x store with ⟨-, hs⟩ | ⟨id, put, rfl, -⟩ |
    ⟨id, u, old, state', out, rfl, hold, hu, hs⟩ | ⟨id, old, rfl, -⟩
  · rw [hs]
    exact ⟨state, hstate, hledger, .refl state, Or.inl rfl⟩
  · exact hop.elim
  · obtain ⟨rfl, c, rfl, rfl⟩ := hop
    obtain rfl := Option.some.inj (hstate.symm.trans hold)
    refine ⟨state', ?_, ?_, .update hu, ?_⟩
    · rw [hs]
      exact ChannelStore.insert_self store id state'
    · obtain ⟨_, hsome, hcommit⟩ := CommitUpdate.apply_eq_ok.mp hu
      obtain rfl := Option.some.inj hsome
      rcases hcommit with ⟨d, -, rfl, -⟩ | ⟨pending, hadv, rfl, -⟩
      · exact hledger
      · exact hledger.commit hadv
    · obtain ⟨_, hsome, hcommit⟩ := CommitUpdate.apply_eq_ok.mp hu
      obtain rfl := Option.some.inj hsome
      rcases hcommit with ⟨d, -, rfl, -⟩ | ⟨pending, hadv, rfl, -⟩
      · exact Or.inl rfl
      · exact Or.inr ⟨hadv.2.2.2.2.1, rfl⟩
  · exact hop.elim

/-- A commit that succeeds leaves its delivery committed, and says so. -/
theorem committed_of_updated {ed : Ed25519} {channelId : String} {u : CommitUpdate}
    {x : SessionInput} {store : ChannelStore} {r : ChannelState × Captured}
    (h : (sessionHandler ed (.updateChannel channelId (.commit u)) x store).2 = .ok r) :
    ∃ state, (sessionHandler ed (.updateChannel channelId (.commit u)) x store).1 channelId =
        some state ∧
      ∃ d ∈ state.committedDeliveries, (d.deliveryId = u.deliveryId ∧
        d.cumulative = u.newCumulative ∧ d.voucherSignature = u.signature) ∧
        ∃ status, r.2 = .outcome d.amount d.cumulative status := by
  rcases store.updateChannel_cases channelId (u.apply) with ⟨state', out, hu, hs⟩ | ⟨e, -, hs⟩
  · have hstored : (sessionHandler ed (.updateChannel channelId (.commit u)) x store).1 channelId =
        some state' :=
      (congrFun (congrArg Prod.fst hs) channelId).trans (ChannelStore.insert_self _ _ _)
    have hr : r = (state', out) :=
      Except.ok.inj (h.symm.trans (congrArg Prod.snd hs))
    rw [hr]
    refine ⟨state', hstored, ?_⟩
    obtain ⟨state, -, hcommit⟩ := CommitUpdate.apply_eq_ok.mp hu
    rcases hcommit with ⟨d, ⟨-, hfind, hcum, hsig⟩, rfl, rfl⟩ | ⟨pending, -, rfl, rfl⟩
    · have hid : d.deliveryId = u.deliveryId := by simpa using List.find?_some hfind
      exact ⟨d, List.mem_of_find?_eq_some hfind, ⟨hid, hcum, hsig⟩, _, rfl⟩
    · exact ⟨u.record state, List.mem_append_right _ (List.mem_singleton_self _), ⟨rfl, rfl, rfl⟩,
        _, rfl⟩
  · have hfailed : (sessionHandler ed (.updateChannel channelId (.commit u)) x store).2 =
        .error e := congrArg Prod.snd hs
    rw [hfailed] at h
    cases h

namespace SessionServer
variable (server : SessionServer)

/-- What `process_commit` asks. -/
theorem processCommit_commitsFor (payload : CommitPayload) :
    Every (SessionOp.CommitsFor payload) (server.processCommit payload).run := by
  refine every_lift_bind fun newCumulative hnew => every_perform_bind.mpr ⟨trivial, fun snapshot =>
    every_lift_bind fun state _ => ?_⟩
  split
  · refine every_lift_bind fun _ _ => every_perform_bind.mpr ⟨trivial, fun now => ?_⟩
    exact every_lift_bind fun _ _ => every_done _
  · refine every_lift_bind fun pending _ => every_perform_bind.mpr ⟨trivial, fun now =>
      every_lift_bind fun _ _ => every_lift_bind fun _ _ => every_perform_bind.mpr
        ⟨trivial, fun signatureNow => every_lift_bind fun _ _ => ?_⟩⟩
    exact every_perform_bind.mpr ⟨⟨rfl, _, rfl, rfl, okOrElse_eq_ok.mp hnew, rfl⟩,
      fun updated => every_lift_bind fun _ _ => every_lift_bind fun _ _ => every_done _⟩

theorem processCommit_commitsAt {payload : CommitPayload} {cumulative : UInt64}
    (hcum : parseU64 payload.voucher.data.cumulative = some cumulative) :
    Every (SessionOp.CommitsAt payload.voucher.data.channelId cumulative)
      (server.processCommit payload).run :=
  (server.processCommit_commitsFor payload).mono fun _ hop => hop.commitsAt hcum

/-- **What a receipt of `process_commit` shows.** -/
theorem processCommit_shows (payload : CommitPayload) (s : ChannelStore) :
    Correct (sessionHandler server.ed) (commitTerms payload.voucher.data.channelId)
      (fun r store => ∀ receipt, r = .ok receipt → store.ShownAt server.ed payload receipt)
      (server.processCommit payload).run s := by
  have herr : ∀ {e : Failure Error} {store : ChannelStore} (receipt : CommitReceipt),
      (.error e : RustResult Error CommitReceipt) = .ok receipt →
        store.ShownAt server.ed payload receipt := fun _ h => nomatch h
  refine correct_lift_bind (fun _ _ => herr) fun newCumulative hnew =>
    correct_read_bind (fun _ _ => rfl) fun s₁ _ _ x => correct_lift_bind (fun _ _ => herr)
      fun state hstate => ?_
  have hnew := okOrElse_eq_ok.mp hnew
  have hstate : s₁ payload.voucher.data.channelId = some state := okOrElse_eq_ok.mp hstate
  split
  · -- the snapshot shows the delivery committed
    rename_i committed hfind
    refine correct_lift_bind (fun _ _ => herr) fun _ hsame =>
      correct_read_bind (fun _ _ => rfl) fun s₂ hg₂ _ now =>
        correct_lift_bind (fun _ _ => herr) fun _ hverify => ?_
    obtain ⟨hcum, hsig⟩ := not_not.mp (rejectIf_eq_ok.mp hsame)
    have hid : committed.deliveryId = payload.deliveryId := by
      simpa using List.find?_some hfind
    obtain ⟨-, cumulative, hparse, haccepts⟩ := verifySignature_eq_ok.mp hverify
    obtain rfl : cumulative = committed.cumulative :=
      Option.some.inj ((hparse.symm.trans hnew).trans (congrArg some hcum.symm))
    intro receipt hreceipt
    have hshown : s₁.ShownAt server.ed payload receipt :=
      ⟨state, hstate, committed, List.mem_of_find?_eq_some hfind, ⟨hid, hparse, hsig⟩, haccepts,
        _, (Except.ok.inj hreceipt).symm⟩
    exact hshown.mono hg₂
  · refine correct_lift_bind (fun _ _ => herr) fun pending _ =>
      correct_read_bind (fun _ _ => rfl) fun s₂ hg₂ _ now => correct_lift_bind (fun _ _ => herr)
      fun _ _ => correct_lift_bind (fun _ _ => herr) fun _ _ =>
      correct_read_bind (fun _ _ => rfl) fun s₃ hg₃ _ now' => correct_lift_bind (fun _ _ => herr)
      fun _ hverify => correct_perform_bind.mpr fun s₄ hg₄ hI₄ _ x₄ => ?_
    obtain ⟨state₄, hstate₄, hledger⟩ := hI₄
    obtain ⟨-, cumulative, hparse, haccepts⟩ := verifySignature_eq_ok.mp hverify
    obtain rfl : cumulative = newCumulative := Option.some.inj (hparse.symm.trans hnew)
    -- the signer of the snapshot is the signer under the lock
    obtain ⟨_, hlocked, hext⟩ := ((hg₂.trans hg₃).trans hg₄) state hstate
    obtain rfl := Option.some.inj (hstate₄.symm.trans hlocked)
    rw [← hext.signer] at haccepts
    have hop : SessionOp.CommitsAt payload.voucher.data.channelId cumulative
        (.updateChannel payload.voucher.data.channelId (.commit {
          channelId := payload.voucher.data.channelId
          deliveryId := payload.deliveryId
          newCumulative := cumulative
          signature := payload.voucher.signature
          expiresAt := payload.voucher.data.expiresAt
          now := now.unixSecs.toInt64 })) := ⟨rfl, _, rfl, rfl⟩
    obtain ⟨state₅, hstate₅, hledger₅, hext₅, -⟩ := hop.step server.ed x₄ hstate₄ hledger
    refine ⟨⟨state₅, hstate₅, hledger₅⟩, fun st hst => ?_, ?_⟩
    · obtain rfl := Option.some.inj (hst.symm.trans hstate₄)
      exact ⟨state₅, hstate₅, hext₅⟩
    · refine correct_lift_bind (fun _ _ => herr) fun newState hnewState =>
        correct_lift_bind (fun _ _ => herr) fun outcome houtcome receipt hreceipt => ?_
      have hsigner : state₅.authorizedSigner = state₄.authorizedSigner := hext₅.signer
      obtain ⟨st, hst, d, hd, hcommitted, status, hout⟩ :=
        committed_of_updated (mapErr_eq_ok.mp hnewState)
      obtain rfl := Option.some.inj (hst.symm.trans hstate₅)
      have houtcome : (d.amount, d.cumulative, status) = outcome := by
        have hsome := okOrElse_eq_ok.mp houtcome
        rw [hout] at hsome
        exact Option.some.inj hsome
      refine ⟨st, hst, d, hd, ⟨hcommitted.1, hparse.trans ?_, hcommitted.2.2⟩, ?_, status, ?_⟩
      · rw [hcommitted.2.1]
      · rw [hsigner, hcommitted.2.1]
        exact haccepts
      · rw [← Except.ok.inj hreceipt, ← houtcome]

/-- A receipt names a delivery that is committed at this amount. -/
theorem processCommit_correct {payload : CommitPayload} {cumulative : UInt64}
    (hcum : parseU64 payload.voucher.data.cumulative = some cumulative) (s : ChannelStore) :
    Correct (sessionHandler server.ed) (commitTerms payload.voucher.data.channelId)
      (fun r store => ∀ receipt, r = .ok receipt →
        store.CommittedAt payload.voucher.data.channelId payload.deliveryId cumulative)
      (server.processCommit payload).run s := by
  refine (server.processCommit_shows payload s).mono fun r store hshown receipt hreceipt => ?_
  obtain ⟨state, hstate, d, hd, ⟨hid, hparse, -⟩, -⟩ := hshown receipt hreceipt
  exact ⟨state, hstate, d, hd, hid, Option.some.inj (hparse.symm.trans hcum)⟩

end SessionServer
end MppSdk
