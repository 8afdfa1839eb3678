import MppSdk.Continuity

/-! # What a settlement rests on

The on-chain program pays what a voucher signed by the channel's signer names: this
channel, the settled amount, the voucher's expiry.  The server keeps the last voucher with
the watermark (`Evidenced`).  `verify_voucher` and `process_commit` check the signature on
a snapshot and store the voucher later, which is sound because the signer of a channel
stays while no channel is opened twice: a rely–guarantee argument.  `process_close`
verifies its final voucher for the channel the voucher names, which need not be the one
being closed, so the result is for runs in which it is (`OwnVouchers`). -/

namespace MppSdk
open Script

/-- Where something was spent, the channel holds a voucher for exactly that amount. -/
def ChannelState.Evidenced (ed : Ed25519) (id : String) (state : ChannelState) : Prop :=
  0 < state.cumulative → ∃ signature expiresAt,
    state.highestVoucherSignature = some signature ∧
    state.highestVoucherExpiresAt = some expiresAt ∧
    ed.Accepts state.authorizedSigner id state.cumulative expiresAt signature

/-- Every stored channel holds the evidence of what it spent. -/
def ChannelStore.Evidenced (ed : Ed25519) (store : ChannelStore) : Prop :=
  ∀ id state, store id = some state → state.Evidenced ed id

/-- The parameters carry a voucher the on-chain program accepts for `settled`. -/
def FinalizeParams.Settleable (ed : Ed25519) (params : FinalizeParams) : Prop :=
  0 < params.settled → ∃ key text signature expiresAt,
    params.authorizedSigner = some key ∧ params.voucherSignature = some text ∧
    Bytes.fromBase58 64 text = some signature ∧ params.voucherExpiresAt = some expiresAt ∧
    ed.validKey key ∧
    ed.verifyStrict key (voucherMessageBytes params.channelId params.settled expiresAt) signature

/-- Channels stay stored, with their signer. -/
def ChannelStore.SameSigners (store store' : ChannelStore) : Prop :=
  ∀ id state, store id = some state →
    ∃ state', store' id = some state' ∧ state'.authorizedSigner = state.authorizedSigner

/-- No channel is opened again. -/
def SessionOp.OpensNew : SessionOp → ChannelStore → Prop
  | .putChannel channelId _, store => store channelId = none
  | _, _ => True

/-- A final voucher above the watermark names the channel that is closed. -/
def SessionOp.ClosesOwn : SessionOp → ChannelStore → Prop
  | .updateChannel channelId (.close u), store =>
      ∀ voucher ∈ u.voucherOpt, ∀ state ∈ store channelId,
        ∀ cumulative ∈ parseU64 voucher.data.cumulative,
          state.cumulative < cumulative → voucher.data.channelId = channelId
  | _, _ => True

instance : ∀ (op : SessionOp) (store : ChannelStore), Decidable (op.OpensNew store)
  | .putChannel channelId _, store => inferInstanceAs (Decidable (store channelId = none))
  | .getChannel _, _ => .isTrue trivial
  | .updateChannel _ _, _ => .isTrue trivial
  | .markFinalized _, _ => .isTrue trivial
  | .unixTime, _ => .isTrue trivial
  | .signatureStatus _, _ => .isTrue trivial

instance : ∀ (op : SessionOp) (store : ChannelStore), Decidable (op.ClosesOwn store)
  | .updateChannel channelId (.close u), store =>
      inferInstanceAs (Decidable (∀ voucher ∈ u.voucherOpt, ∀ state ∈ store channelId,
        ∀ cumulative ∈ parseU64 voucher.data.cumulative,
          state.cumulative < cumulative → voucher.data.channelId = channelId))
  | .updateChannel _ (.voucher _), _ => .isTrue trivial
  | .updateChannel _ (.topup _), _ => .isTrue trivial
  | .updateChannel _ (.delivery _), _ => .isTrue trivial
  | .updateChannel _ (.commit _), _ => .isTrue trivial
  | .putChannel _ _, _ => .isTrue trivial
  | .getChannel _, _ => .isTrue trivial
  | .markFinalized _, _ => .isTrue trivial
  | .unixTime, _ => .isTrue trivial
  | .signatureStatus _, _ => .isTrue trivial

/-- The voucher an operation is about to store is signed for its channel, and a channel
that is put has spent nothing. -/
def SessionOp.Vouched (ed : Ed25519) : SessionOp → ChannelStore → Prop
  | .putChannel _ state, _ => state.cumulative = 0
  | .updateChannel channelId (.voucher u), store => ∀ state, store channelId = some state →
      ed.Accepts state.authorizedSigner channelId u.newCumulative u.expiresAt u.sig
  | .updateChannel channelId (.commit u), store => ∀ state, store channelId = some state →
      ed.Accepts state.authorizedSigner channelId u.newCumulative u.expiresAt u.signature
  | _, _ => True

namespace ChannelStore.SameSigners

theorem refl (s : ChannelStore) : s.SameSigners s := fun _ state h => ⟨state, h, rfl⟩

theorem trans {s t u : ChannelStore} (h : s.SameSigners t) (k : t.SameSigners u) :
    s.SameSigners u := by
  intro id state hs
  obtain ⟨state₁, ht, h₁⟩ := h id state hs
  obtain ⟨state₂, hu, h₂⟩ := k id state₁ ht
  exact ⟨state₂, hu, h₂.trans h₁⟩

theorem of_extends {s t : ChannelStore} (h : s.Extends t) : s.SameSigners t := by
  intro id state hs
  obtain ⟨state', ht, hext⟩ := h id state hs
  exact ⟨state', ht, hext.signer⟩

end ChannelStore.SameSigners

/-- The signers stay while no channel is opened again. -/
theorem SessionOp.OpensNew.sameSigners {ed : Ed25519} {op : SessionOp} {x : SessionInput}
    {store : ChannelStore} (hop : op.OpensNew store) :
    store.SameSigners (sessionHandler ed op x store).1 := by
  refine .of_extends ?_
  rcases effect_cases ed op x store with ⟨-, hs⟩ | ⟨channelId, state, rfl, hs⟩ |
    ⟨channelId, u, state, state', out, rfl, hstate, hu, hs⟩ | ⟨channelId, state, rfl, hstate, hs⟩
  · rw [hs]
    exact ChannelStore.Extends.refl store
  · rw [hs, ChannelStore.Extends.insert_iff]
    intro old hold
    have hnone : store channelId = none := hop
    rw [hnone] at hold
    cases hold
  · rw [hs, ChannelStore.Extends.insert_iff]
    intro old hold
    obtain rfl := Option.some.inj (hstate.symm.trans hold)
    exact .update hu
  · rw [hs, ChannelStore.Extends.insert_iff]
    intro old hold
    obtain rfl := Option.some.inj (hstate.symm.trans hold)
    exact .finalize state

namespace ChannelState.Evidenced
variable {ed : Ed25519} {id : String} {state state' : ChannelState} {out : Captured}

theorem topup {u : TopUpUpdate} (hu : u.apply (some state) = .ok (state', out))
    (h : state.Evidenced ed id) : state'.Evidenced ed id := by
  obtain ⟨_, hs, -, -, -, rfl⟩ := TopUpUpdate.apply_eq_ok.mp hu
  obtain rfl := Option.some.inj hs
  exact h

theorem delivery {u : DeliveryUpdate} (hu : u.apply (some state) = .ok (state', out))
    (h : state.Evidenced ed id) : state'.Evidenced ed id := by
  obtain ⟨_, hs, -, -, -, -, -, rfl, -⟩ := DeliveryUpdate.apply_eq_ok.mp hu
  obtain rfl := Option.some.inj hs
  exact h

theorem voucher {u : VoucherUpdate} (hu : u.apply (some state) = .ok (state', out))
    (hv : ed.Accepts state.authorizedSigner id u.newCumulative u.expiresAt u.sig)
    (h : state.Evidenced ed id) : state'.Evidenced ed id := by
  obtain ⟨_, hs, -, ⟨-, -, rfl⟩ | ⟨-, rfl⟩⟩ := VoucherUpdate.apply_eq_ok.mp hu
  · obtain rfl := Option.some.inj hs
    exact h
  · obtain rfl := Option.some.inj hs
    exact fun _ => ⟨u.sig, u.expiresAt, rfl, rfl, hv⟩

theorem commit {u : CommitUpdate} (hu : u.apply (some state) = .ok (state', out))
    (hv : ed.Accepts state.authorizedSigner id u.newCumulative u.expiresAt u.signature)
    (h : state.Evidenced ed id) : state'.Evidenced ed id := by
  obtain ⟨_, hs, ⟨d, -, rfl, -⟩ | ⟨pending, -, rfl, -⟩⟩ := CommitUpdate.apply_eq_ok.mp hu
  · obtain rfl := Option.some.inj hs
    exact h
  · obtain rfl := Option.some.inj hs
    exact fun _ => ⟨u.signature, u.expiresAt, rfl, rfl, hv⟩

theorem close {u : CloseUpdate} {clock : Int64}
    (hu : u.apply ed clock (some state) = .ok (state', out))
    (hown : ∀ voucher ∈ u.voucherOpt, ∀ cumulative ∈ parseU64 voucher.data.cumulative,
      state.cumulative < cumulative → voucher.data.channelId = id)
    (h : state.Evidenced ed id) : state'.Evidenced ed id := by
  obtain ⟨_, hs, -, -, cumulative, sig, expiresAt, hset, rfl⟩ := CloseUpdate.apply_eq_ok.mp hu
  obtain rfl := Option.some.inj hs
  rcases CloseUpdate.settlement_eq_ok.mp hset with
    ⟨-, hr⟩ | ⟨voucher, -, hr⟩ | ⟨voucher, c, ⟨hv, hc, hlt, -, hver⟩, hr⟩
  · obtain ⟨rfl, rfl, rfl⟩ : _ ∧ _ ∧ _ := by simpa using hr
    exact h
  · obtain ⟨rfl, rfl, rfl⟩ : _ ∧ _ ∧ _ := by simpa using hr
    intro hpos
    obtain ⟨signature, expiry, hsig, hexp, hacc⟩ := h hpos
    exact ⟨signature, expiry, hsig, by rw [hexp]; rfl, hacc⟩
  · obtain ⟨rfl, rfl, rfl⟩ : _ ∧ _ ∧ _ := by simpa using hr
    obtain ⟨-, n, hn, hacc⟩ := verifySignature_eq_ok.mp hver
    obtain rfl := Option.some.inj (hc.symm.trans hn)
    have hid : voucher.data.channelId = id := hown voucher hv cumulative hc hlt
    exact fun _ => ⟨voucher.signature, voucher.data.expiresAt, rfl, rfl, hid ▸ hacc⟩

end ChannelState.Evidenced

/-- An operation keeps the evidence when what it stores is vouched for. -/
theorem ChannelStore.Evidenced.step {ed : Ed25519} {op : SessionOp} {x : SessionInput}
    {store : ChannelStore} (hown : op.ClosesOwn store) (hv : op.Vouched ed store)
    (h : store.Evidenced ed) : (sessionHandler ed op x store).1.Evidenced ed := by
  refine forall_channels (fun channelId state hput => ?_) (fun channelId u state state' out hup
    hstate hev hu => ?_) (fun channelId state _ hev => hev) h
  · subst hput
    intro hpos
    have hzero : state.cumulative = 0 := hv
    rw [hzero] at hpos
    exact absurd hpos (by decide)
  · subst hup
    cases u with
    | voucher u => exact hev.voucher hu (hv state hstate)
    | topup u => exact hev.topup hu
    | delivery u => exact hev.delivery hu
    | commit u => exact hev.commit hu (hv state hstate)
    | close u =>
      exact hev.close hu fun voucher hvo cumulative hc => hown voucher hvo state hstate cumulative hc

namespace SessionServer
variable {server : SessionServer}

/-- The terms every call of the server is judged on. -/
def settlementTerms (server : SessionServer) : Terms sessionInterface ChannelStore where
  holds store := store.Evidenced server.ed
  guarantee := ChannelStore.SameSigners
  allowed op store := op.OpensNew store ∧ op.ClosesOwn store
  refl := ChannelStore.SameSigners.refl
  trans _ _ _ h k := h.trans k

/-- A program of the server keeps the evidence, from any store that has it. -/
abbrev Settles (server : SessionServer) {α : Type} (post : α → ChannelStore → Prop) :
    Script sessionInterface α → ChannelStore → Prop :=
  Correct (sessionHandler server.ed) server.settlementTerms post

/-- An operation on the way, once it is vouched for. -/
theorem settles_perform {α : Type} {op : SessionOp} {f : op.Answer → SessionM α}
    {post : RustResult Error α → ChannelStore → Prop} {s : ChannelStore}
    (hv : ∀ s', s.SameSigners s' → op.Vouched server.ed s')
    (hf : ∀ r s', server.Settles post (f r).run s') : server.Settles post (ask op >>= f).run s := by
  refine correct_perform_bind.mpr fun s' hg hI hA x => ⟨?_, ?_, hf _ _⟩
  · exact ChannelStore.Evidenced.step hA.2 (hv s' hg) hI
  · exact SessionOp.OpensNew.sameSigners hA.1

/-- What a verified voucher shows about a channel whose signer did not change. -/
theorem vouched_of_verified {channelId : String} {state : ChannelState} {s s' : ChannelStore}
    {now : Int64} {voucher : SignedVoucher} {cumulative : UInt64}
    (hstate : s channelId = some state) (hg : s.SameSigners s')
    (hcum : parseU64 voucher.data.cumulative = some cumulative)
    (hver : verifySignature server.ed now voucher state.authorizedSigner = .ok ()) :
    ∀ state', s' channelId = some state' → server.ed.Accepts state'.authorizedSigner
      voucher.data.channelId cumulative voucher.data.expiresAt voucher.signature := by
  intro state' hstate'
  obtain ⟨_, hs', hsigner⟩ := hg channelId state hstate
  obtain rfl := Option.some.inj (hs'.symm.trans hstate')
  obtain ⟨-, n, hn, hacc⟩ := verifySignature_eq_ok.mp hver
  obtain rfl := Option.some.inj (hcum.symm.trans hn)
  rw [hsigner]
  exact hacc

theorem verifyVoucher_settles (payload : VoucherPayload) (s : ChannelStore) :
    server.Settles (fun _ _ => True) (server.verifyVoucher payload).run s := by
  refine correct_lift_bind (fun _ _ => trivial) fun newCumulative hcum =>
    correct_read_bind (fun _ _ => rfl) fun s₁ _ _ x => correct_lift_bind (fun _ _ => trivial)
    fun state hstate => correct_lift_bind (fun _ _ => trivial) fun _ _ =>
    correct_lift_bind (fun _ _ => trivial) fun _ _ => ?_
  split
  · refine correct_read_bind (fun _ _ => rfl) fun s₂ _ _ now => ?_
    exact correct_lift_bind (fun _ _ => trivial) fun _ _ => trivial
  · refine correct_lift_bind (fun _ _ => trivial) fun _ _ => correct_lift_bind (fun _ _ => trivial)
      fun _ _ => correct_lift_bind (fun _ _ => trivial) fun _ _ =>
      correct_read_bind (fun _ _ => rfl) fun s₂ hg₂ _ now => correct_lift_bind (fun _ _ => trivial)
      fun _ hver => settles_perform (fun s₃ hg₃ => ?_) fun r s₄ => ?_
    · exact vouched_of_verified (okOrElse_eq_ok.mp hstate) (hg₂.trans hg₃)
        (okOrElse_eq_ok.mp hcum) hver
    · exact correct_lift_bind (fun _ _ => trivial) fun _ _ => trivial

theorem processCommit_settles (payload : CommitPayload) (s : ChannelStore) :
    server.Settles (fun _ _ => True) (server.processCommit payload).run s := by
  refine correct_lift_bind (fun _ _ => trivial) fun newCumulative hcum =>
    correct_read_bind (fun _ _ => rfl) fun s₁ _ _ x => correct_lift_bind (fun _ _ => trivial)
    fun state hstate => ?_
  split
  · refine correct_lift_bind (fun _ _ => trivial) fun _ _ => correct_read_bind (fun _ _ => rfl)
      fun s₂ _ _ now => ?_
    exact correct_lift_bind (fun _ _ => trivial) fun _ _ => trivial
  · refine correct_lift_bind (fun _ _ => trivial) fun pending _ =>
      correct_read_bind (fun _ _ => rfl) fun s₂ hg₂ _ now => correct_lift_bind (fun _ _ => trivial)
      fun _ _ => correct_lift_bind (fun _ _ => trivial) fun _ _ =>
      correct_read_bind (fun _ _ => rfl) fun s₃ hg₃ _ now' => correct_lift_bind (fun _ _ => trivial)
      fun _ hver => settles_perform (fun s₄ hg₄ => ?_) fun r s₅ => ?_
    · exact vouched_of_verified (okOrElse_eq_ok.mp hstate) ((hg₂.trans hg₃).trans hg₄)
        (okOrElse_eq_ok.mp hcum) hver
    · exact correct_lift_bind (fun _ _ => trivial) fun _ _ =>
        correct_lift_bind (fun _ _ => trivial) fun _ _ => trivial

theorem confirmOpen_settles (payload : OpenPayload) (s : ChannelStore) :
    server.Settles (fun _ _ => True) (server.confirmOpen payload).run s := by
  unfold confirmOpen
  split
  · refine correct_lift_bind (fun _ _ => trivial) fun sig _ => ?_
    exact correct_read_bind (fun _ _ => rfl) fun _ _ _ _ => trivial
  · trivial

theorem processOpen_settles (payload : OpenPayload) (s : ChannelStore) :
    server.Settles (fun _ _ => True) (server.processOpen payload).run s := by
  refine correct_lift_bind (fun _ _ => trivial) fun _ _ => correct_lift_bind (fun _ _ => trivial)
    fun sessionId _ => correct_lift_bind (fun _ _ => trivial) fun deposit _ =>
    correct_lift_bind (fun _ _ => trivial) fun _ _ => correct_lift_bind (fun _ _ => trivial)
    fun _ _ => ?_
  refine correct_run_bind ((confirmOpen_settles payload s).mono fun r s₁ _ => ?_)
  refine ⟨fun _ _ => ?_, fun _ _ => trivial⟩
  exact settles_perform (fun _ _ => rfl) fun _ _ => trivial

theorem processTopup_settles (payload : TopUpPayload) (s : ChannelStore) :
    server.Settles (fun _ _ => True) (server.processTopup payload).run s := by
  refine correct_lift_bind (fun _ _ => trivial) fun newDeposit _ =>
    settles_perform (fun _ _ => trivial) fun _ _ => ?_
  exact correct_lift_bind (fun _ _ => trivial) fun _ _ => trivial

theorem beginDelivery_settles (request : DeliveryRequest) (s : ChannelStore) :
    server.Settles (fun _ _ => True) (server.beginDelivery request).run s := by
  refine correct_lift_bind (fun _ _ => trivial) fun _ _ =>
    settles_perform (fun _ _ => trivial) fun _ _ => ?_
  exact correct_lift_bind (fun _ _ => trivial) fun _ _ => trivial

theorem markFinalized_settles (channelId : String) (s : ChannelStore) :
    server.Settles (fun _ _ => True) (SessionServer.markFinalized channelId).run s :=
  settles_perform (fun _ _ => trivial) fun _ _ => trivial

/-- The parameters of an evidenced channel can be settled. -/
theorem settlementOf_settleable {channelId : String} {channel recipient : Pubkey}
    {state : ChannelState} (hid : Bytes.fromBase58 32 channelId = some channel)
    (h : state.Evidenced server.ed channelId) :
    (server.settlementOf channel recipient state).Settleable server.ed := by
  intro hpos
  obtain ⟨text, expiresAt, htext, hexp, key, channel', signature, hkey, hid', hsig, hvalid, hver⟩ :=
    h hpos
  obtain rfl := Option.some.inj (hid.symm.trans hid')
  have hsigner : parsePubkey state.authorizedSigner = .ok key := parsePubkey_eq_ok.mpr hkey
  exact ⟨key, text, signature, expiresAt, by simp [settlementOf, hsigner, Except.toOption], htext,
    hsig, hexp, hvalid, hver⟩

/-- The parameters a call returns can be settled. -/
def SettleableResult (server : SessionServer) (r : RustResult Error FinalizeParams)
    (_ : ChannelStore) : Prop :=
  ∀ params, r = .ok params → params.Settleable server.ed

theorem finalizeParams_settles (channelId : String) (s : ChannelStore) :
    server.Settles server.SettleableResult (server.finalizeParams channelId).run s := by
  have herr (e : Failure Error) (s : ChannelStore) :
      server.SettleableResult (.error e) s := fun _ h => by cases h
  refine correct_read_bind (fun _ _ => rfl) fun s₁ _ hI x => correct_lift_bind (fun e _ => ?_)
    fun state hstate => correct_lift_bind (fun e _ => ?_) fun channel hchannel =>
    correct_lift_bind (fun e _ => ?_) fun recipient _ => ?_
  · exact herr e s₁
  · exact herr e s₁
  · exact herr e s₁
  · intro params hparams
    obtain rfl := Except.ok.inj hparams
    exact settlementOf_settleable (parsePubkey_eq_ok.mp hchannel)
      (hI channelId state (okOrElse_eq_ok.mp hstate))

theorem processClose_settles (payload : ClosePayload) (s : ChannelStore) :
    server.Settles server.SettleableResult (server.processClose payload).run s := by
  refine correct_read_bind (fun _ _ => rfl) fun s₁ _ _ now =>
    settles_perform (fun _ _ => trivial) fun r s₂ => correct_lift_bind (fun e _ => ?_)
    fun _ _ => ?_
  · intro params hparams
    cases hparams
  · exact finalizeParams_settles payload.channelId s₂

/-- **Every call settles.** -/
theorem program_settles (call : Call) (s : ChannelStore) :
    server.Settles (fun r _ => ∀ params, r = .ok (.closing params) → params.Settleable server.ed)
      (server.program call) s := by
  cases call with
  | processOpen payload =>
    refine correct_map.mpr ((processOpen_settles payload s).mono fun r _ _ params h => ?_)
    rcases r with e | state <;> cases h
  | verifyVoucher payload =>
    refine correct_map.mpr ((verifyVoucher_settles payload s).mono fun r _ _ params h => ?_)
    rcases r with e | cumulative <;> cases h
  | processTopup payload =>
    refine correct_map.mpr ((processTopup_settles payload s).mono fun r _ _ params h => ?_)
    rcases r with e | state <;> cases h
  | beginDelivery request =>
    refine correct_map.mpr ((beginDelivery_settles request s).mono fun r _ _ params h => ?_)
    rcases r with e | directive <;> cases h
  | processCommit payload =>
    refine correct_map.mpr ((processCommit_settles payload s).mono fun r _ _ params h => ?_)
    rcases r with e | receipt <;> cases h
  | processClose payload =>
    refine correct_map.mpr ((processClose_settles payload s).mono fun r _ hr params h => ?_)
    rcases r with e | p
    · cases h
    · cases h
      exact hr params rfl
  | finalizeParams channelId =>
    refine correct_map.mpr ((finalizeParams_settles channelId s).mono fun r _ hr params h => ?_)
    rcases r with e | p
    · cases h
    · cases h
      exact hr params rfl
  | markFinalized channelId =>
    refine correct_map.mpr ((markFinalized_settles channelId s).mono fun r _ _ params h => ?_)
    rcases r with e | u <;> cases h

/-- **What was spent can be settled.**  While no channel is opened twice and final vouchers
above the watermark name the channel they close, every channel holds a voucher for what it
spent, and every settlement returned carries one. -/
theorem evidenced_of_closesOwn (server : SessionServer) (run : List Event)
    (hnew : server.machine.Guarded (Pool.Guard SessionOp.OpensNew) run)
    (hown : server.machine.Guarded (Pool.Guard SessionOp.ClosesOwn) run) :
    (server.machine.exec run).store.Evidenced server.ed ∧
      ∀ i call params, (server.machine.exec run).Finished i call (.ok (.closing params)) →
        params.Settleable server.ed := by
  have hempty : server.settlementTerms.holds (fun _ => none) := by
    intro id state hs
    cases hs
  have hguard : server.machine.Guarded (Pool.Guard server.settlementTerms.allowed) run :=
    (hnew.and hown).mono fun _ _ h => h.1.and h.2
  obtain ⟨hI, hcalls⟩ := Pool.correct_run (T := server.settlementTerms) hempty
    (fun _ _ _ _ _ hr => hr) (fun call s _ => program_settles call s) run hguard
  refine ⟨hI, fun i call params hdone => ?_⟩
  exact hcalls _ (List.mem_of_getElem? hdone) params rfl

/-- Open a channel, spend 100 by a voucher and close it without another. -/
def openSpendClose : List Event :=
  List.reverse (
    [.start (.processOpen sampleOpen)] ++ steps 0 1 ++
    [.start (.verifyVoucher { voucher := voucher100 })] ++ steps 1 3 ++
    [.start (.processClose { channelId := "11111111111111111111111111111111" })] ++ steps 2 3)

/-- The channel of `openSpendClose` holds the voucher it can be settled with. -/
theorem openSpendClose_evidenced :
    (sampleServer.machine.exec openSpendClose).store.Evidenced sampleServer.ed ∧
      ∀ i call params,
        (sampleServer.machine.exec openSpendClose).Finished i call (.ok (.closing params)) →
          params.Settleable sampleServer.ed :=
  evidenced_of_closesOwn sampleServer openSpendClose (by decide +kernel) (by decide +kernel)

/-! ## A close with the voucher of another channel -/

/-- The signer of the sample channel owns a second channel; this is its voucher for 100. -/
def otherVoucher100 : SignedVoucher where
  data := { channelId := "11111111111111111111111111111112", cumulative := "100", expiresAt := 1 }
  signature := "1111111111111111111111111111111111111111111111111111111111111112n"

/-- Open two channels of one signer and close the first with a voucher for the second. -/
def crossClose : List Event :=
  List.reverse (
    [.start (.processOpen sampleOpen)] ++ steps 0 1 ++
    [.start (.processOpen
      { sampleOpen with channelId := some "11111111111111111111111111111112" })] ++ steps 1 1 ++
    [.start (.processClose {
      channelId := "11111111111111111111111111111111"
      voucher := some otherVoucher100 })] ++ steps 2 3)

/-- No channel is opened twice, and the first channel ends with 100 spent and a signature
that does not verify for it. -/
theorem crossClose_not_evidenced :
    sampleServer.machine.Guarded (Pool.Guard SessionOp.OpensNew) crossClose ∧
    ¬ ((sampleServer.machine.exec crossClose).store.Evidenced sampleServer.ed ∧
      ∀ i call params,
        (sampleServer.machine.exec crossClose).Finished i call (.ok (.closing params)) →
          params.Settleable sampleServer.ed) := by
  refine ⟨by decide +kernel, ?_⟩
  rintro ⟨h, -⟩
  have hstored : ((sampleServer.machine.exec crossClose).store
      "11111111111111111111111111111111").map (fun state => (state.authorizedSigner,
        state.cumulative, state.highestVoucherSignature, state.highestVoucherExpiresAt)) =
      some ("11111111111111111111111111111112", 100, some otherVoucher100.signature, some 1) := by
    decide +kernel
  obtain ⟨state, hstate, hfields⟩ := Option.map_eq_some_iff.mp hstored
  obtain ⟨hsigner, hcum, hsig, hexp⟩ : _ ∧ _ ∧ _ ∧ _ := by simpa using hfields
  obtain ⟨signature, expiresAt, hsig', hexp', hacc⟩ := h _ state hstate (by rw [hcum]; decide)
  obtain rfl := Option.some.inj (hsig.symm.trans hsig')
  obtain rfl := Option.some.inj (hexp.symm.trans hexp')
  rw [hsigner, hcum] at hacc
  exact absurd hacc (by decide +kernel)

end SessionServer
end MppSdk
