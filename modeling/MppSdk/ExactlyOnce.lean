import MppSdk.CommitBalance

/-! # Every delivery is charged once

The exchange is in step (`InStep`): the consumer and its channel are balanced, the attempt that
waits is that of the directive being committed, and every call of the server spares the channel
or serves a request.  Every event keeps it so.  A request that was answered before is answered
with the same receipt again. -/

namespace MppSdk
open Script

namespace Exchange
variable {server : SessionServer} {channelId : String} {sign : List UInt8 → Signature}

/-! ## The exchange in step -/

/-- The server is not part of what an attempt changes. -/
theorem resume_server (s : Exchange) (r : Attempt) : (s.resume r).server = s.server := by
  unfold resume
  split <;> rfl

theorem sent_resume (s : Exchange) (r : Attempt) : ∀ payload ∈ s.sent, payload ∈ (s.resume r).sent := by
  unfold resume
  split
  case h_3 => exact fun payload hp => List.mem_append_left _ hp
  all_goals exact fun payload hp => hp

/-- A request stays with the transport. -/
theorem sent_react (server : SessionServer) (sign : List UInt8 → Signature) (s : Exchange)
    (e : Event) : ∀ payload ∈ s.sent, payload ∈ (s.react server sign e).sent := by
  cases e with
  | commit directive =>
    simp only [react]
    split
    · exact sent_resume { s with directive := some directive } _
    · exact fun payload hp => hp
  | sign failure =>
    simp only [react]
    split
    · exact sent_resume _ _
    · exact fun payload hp => hp
  | receive n =>
    simp only [react]
    split <;> exact fun payload hp => hp
  | respond i =>
    simp only [react]
    split
    · split
      · exact sent_resume _ _
      · exact fun payload hp => hp
    · exact fun payload hp => hp
  | lose message =>
    simp only [react]
    split
    · exact sent_resume _ _
    · exact fun payload hp => hp
  | server e => exact fun payload hp => hp

/-- **What an event does to the server**: calls begin, or one of them goes on. -/
theorem server_cases (server : SessionServer) (sign : List UInt8 → Signature) (s : Exchange)
    (e : Event) :
    (∃ added, (s.react server sign e).server = ⟨s.server.store, s.server.calls ++ added⟩) ∨
      ∃ i x c op next, e = .server (.step i x) ∧ s.server.calls[i]? = some (c, .call op next) ∧
        (s.react server sign e).server = ⟨(sessionHandler server.ed op x s.server.store).1,
          s.server.calls.set i (c, next (sessionHandler server.ed op x s.server.store).2)⟩ := by
  have hsame : s.server = ⟨s.server.store, s.server.calls ++ []⟩ := by
    rw [List.append_nil]
  cases e with
  | commit directive =>
    refine Or.inl ⟨[], ?_⟩
    simp only [react]
    split
    · rw [resume_server]
      exact hsame
    · exact hsame
  | sign failure =>
    refine Or.inl ⟨[], ?_⟩
    simp only [react]
    split
    · rw [resume_server]
      exact hsame
    · exact hsame
  | receive n =>
    simp only [react]
    split
    · next payload _ => exact Or.inl ⟨[(.processCommit payload, server.program _)], rfl⟩
    · exact Or.inl ⟨[], hsame⟩
  | respond i =>
    refine Or.inl ⟨[], ?_⟩
    simp only [react]
    split
    · split
      · rw [resume_server]
        exact hsame
      · exact hsame
    · exact hsame
  | lose message =>
    refine Or.inl ⟨[], ?_⟩
    simp only [react]
    split
    · rw [resume_server]
      exact hsame
    · exact hsame
  | server e =>
    simp only [react]
    rcases Pool.step_cases (sessionHandler server.ed) server.program s.server e with
      ⟨c, rfl, hs⟩ | ⟨i, x, c, op, next, rfl, hi, hs⟩ | ⟨i, x, rfl, -, hs⟩
    · rw [hs]
      exact Or.inl ⟨[(c, server.program c)], rfl⟩
    · exact Or.inr ⟨i, x, c, op, next, rfl, hi, hs⟩
    · rw [hs]
      exact Or.inl ⟨[], hsame⟩

/-- The attempt that waits for the response to its request. -/
def waiting (session : ActiveSession) (directive : MeteringDirective) (amount : UInt64)
    (payload : CommitPayload) : Attempt :=
  .call (.commit directive payload) fun reply =>
    match reply with
    | .error e => .done (.error (.error e))
    | .ok receipt => .done (.ok (receipt, session.advanced amount))

/-- The attempt that waits for its signer. -/
def signing (session : ActiveSession) (directive : MeteringDirective) (amount : UInt64) : Attempt :=
  .call (.signMessage (session.messageFor amount)) fun reply =>
    match reply with
    | .error e => .done (.error (.error (.other s!"Signing failed: {e}")))
    | .ok sig => waiting session directive amount {
        deliveryId := directive.deliveryId
        voucher := session.voucherFor amount sig }

/-- The attempt is that of the directive being committed, and its request was the last. -/
def Attempting (sign : List UInt8 → Signature) (s : Exchange) (r : Attempt) : Prop :=
  ∃ directive amount, s.Committing directive amount ∧
    s.session.cumulative < s.session.cumulative + amount ∧
    (r = signing s.session directive amount ∨
      r = waiting s.session directive amount (payloadFor sign s.session directive amount) ∧
        s.sent.getLast? = some (payloadFor sign s.session directive amount))

/-- What a call of the server may yet do: nothing to the channel, or the commit of a request, and
its receipt shows the delivery committed. -/
def Serves (server : SessionServer) (channelId : String) (s : Exchange)
    (cr : SessionServer.Call × Script sessionInterface (RustResult Error SessionServer.Reply)) :
    Prop :=
  Spares channelId cr.1 ∧ cr.2.Every (SessionOp.SparesAt channelId) ∨
    ∃ payload ∈ s.sent, cr.1 = .processCommit payload ∧
      cr.2.Every (SessionOp.CommitsFor payload) ∧
      cr.2.Correct (sessionHandler server.ed) (commitTerms channelId)
        (fun r store => ∀ receipt, r = .ok (.committed receipt) →
          store.ShownAt server.ed payload receipt) s.server.store

/-- **The exchange is in step.** -/
structure InStep (server : SessionServer) (sign : List UInt8 → Signature) (channelId : String)
    (start : Nat) (s : Exchange) : Prop where
  session : s.session.channelId.toBase58 = channelId
  balanced : ∃ state, s.server.store channelId = some state ∧ state.Ledger ∧
    Balanced sign start s state
  attempting : ∀ r, s.attempt = some r → s.Attempting sign r
  channel : ∀ payload ∈ s.sent, payload.voucher.data.channelId = channelId
  expiry : ∀ payload ∈ s.sent, payload.voucher.data.expiresAt = s.session.expiresAt
  received : ∀ n i, (n, i) ∈ s.received → ∃ payload r, s.sent[n]? = some payload ∧
    s.server.calls[i]? = some (.processCommit payload, r)
  serves : ∀ cr ∈ s.server.calls, Serves server channelId s cr

theorem commitDirective_signing {session : ActiveSession} {directive : MeteringDirective}
    {amount : UInt64} (hamount : parseU64 directive.amount = some amount)
    (h : ¬ session.Refuses directive amount) :
    (session.commitDirective directive).run = signing session directive amount := by
  rw [ActiveSession.commitDirective_run hamount h]
  show Script.call _ _ = Script.call _ _
  congr 1
  funext reply
  cases reply with
  | error e => rfl
  | ok sig =>
    show Script.call _ _ = Script.call _ _
    congr 1
    funext reply
    cases reply <;> rfl

/-- A call goes on serving while requests are added and the channel is extended. -/
theorem Serves.mono {s s' : Exchange}
    {cr : SessionServer.Call × Script sessionInterface (RustResult Error SessionServer.Reply)}
    (h : Serves server channelId s cr) (hsent : ∀ payload ∈ s.sent, payload ∈ s'.sent)
    (hchannel : ∀ payload ∈ s.sent, payload.voucher.data.channelId = channelId)
    (hext : ChannelStore.ExtendsAt channelId s.server.store s'.server.store) :
    Serves server channelId s' cr := by
  rcases h with hspares | ⟨payload, hp, hc, hevery, hcorrect⟩
  · exact Or.inl hspares
  · refine Or.inr ⟨payload, hsent payload hp, hc, hevery, hcorrect.stable ?_ hext⟩
    intro r t t' ht hshown receipt hreceipt
    refine (hshown receipt hreceipt).mono ?_
    rw [hchannel payload hp]
    exact ht

namespace InStep
variable {start : Nat} {s : Exchange}

/-- The attempt is over, with no receipt. -/
theorem giveUp (h : InStep server sign channelId start s) :
    InStep server sign channelId start { s with attempt := none } := by
  obtain ⟨state, hstate, hledger, hbalanced⟩ := h.balanced
  refine ⟨h.session, ⟨state, hstate, hledger, ?_⟩, fun r hr => (nomatch hr), h.channel,
    h.expiry, h.received,
    fun cr hcr => ?_⟩
  · exact hbalanced.of_eq rfl rfl rfl fun p hp => Or.inl hp
  · exact (h.serves cr hcr).mono (fun _ hp => hp) h.channel (.refl _)

/-- **The consumer begins an attempt.** -/
theorem commit (h : InStep server sign channelId start s) (directive : MeteringDirective) :
    InStep server sign channelId start (s.react server sign (.commit directive)) := by
  simp only [react]
  split
  case isFalse => exact h
  case isTrue hfree =>
    obtain ⟨state, hstate, hledger, hbalanced⟩ := h.balanced
    have hbegun : InStep server sign channelId start
        { s with directive := some directive, attempt := none } := by
      refine ⟨h.session, ⟨state, hstate, hledger, ?_⟩, fun r hr => (nomatch hr), h.channel,
        h.expiry, h.received, fun cr hcr => (h.serves cr hcr).mono (fun _ hp => hp) h.channel (.refl _)⟩
      exact (hbalanced.begin hfree.2).of_eq rfl rfl rfl fun p hp => Or.inl hp
    by_cases hrefuses : ∀ amount, parseU64 directive.amount = some amount →
        s.session.Refuses directive amount
    · obtain ⟨e, hrun⟩ := ActiveSession.commitDirective_refused hrefuses
      rw [hrun]
      exact hbegun
    · push Not at hrefuses
      obtain ⟨amount, hamount, hnot⟩ := hrefuses
      rw [commitDirective_signing hamount hnot]
      have hlt : s.session.cumulative < s.session.cumulative + amount := by
        obtain ⟨-, hzero, hfits⟩ := not_or.mp hnot |>.imp id not_or.mp
        exact ActiveSession.lt_add_iff.mpr ⟨hzero, Nat.lt_of_not_le hfits⟩
      refine ⟨hbegun.session, ?_, fun r hr => ?_, hbegun.channel,
        hbegun.expiry, hbegun.received, fun cr hcr => ?_⟩
      · exact ⟨state, hstate, hledger,
          (hbalanced.begin hfree.2).of_eq rfl rfl rfl fun p hp => Or.inl hp⟩
      · obtain rfl := Option.some.inj hr
        exact ⟨directive, amount, ⟨rfl, hamount⟩, hlt, Or.inl rfl⟩
      · exact (h.serves cr hcr).mono (fun _ hp => hp) h.channel (.refl _)

/-- **The signer answers**, and the request is handed over. -/
theorem signed (h : InStep server sign channelId start s) (failure : Option String) :
    InStep server sign channelId start (s.react server sign (.sign failure)) := by
  simp only [react]
  split
  case h_2 => exact h
  case h_1 message next hattempt =>
    obtain ⟨directive, amount, hcommitting, hlt, hr⟩ := h.attempting _ hattempt
    rcases hr with hr | ⟨hr, -⟩
    case inr => cases hr
    cases hr
    cases failure with
    | some e => exact h.giveUp
    | none =>
      obtain ⟨state, hstate, hledger, hbalanced⟩ := h.balanced
      have hkept : ∀ payload ∈ s.sent, payload ∈ s.sent ++
          [payloadFor sign s.session directive amount] := fun p hp => List.mem_append_left _ hp
      show InStep server sign channelId start { s with
        attempt := some (waiting s.session directive amount
          (payloadFor sign s.session directive amount))
        sent := s.sent ++ [payloadFor sign s.session directive amount] }
      refine ⟨h.session, ⟨state, hstate, hledger, ?_⟩, fun r hr => ?_, fun p hp => ?_,
        fun p hp => ?_, fun n i hni => ?_, fun cr hcr => (h.serves cr hcr).mono hkept h.channel (.refl _)⟩
      · refine hbalanced.of_eq rfl rfl rfl fun p hp => ?_
        rcases List.mem_append.mp hp with hp | hp
        · exact Or.inl hp
        · exact Or.inr ⟨directive, amount, hcommitting, List.mem_singleton.mp hp⟩
      · obtain rfl := Option.some.inj hr
        exact ⟨directive, amount, hcommitting, hlt, Or.inr ⟨rfl, List.getLast?_concat⟩⟩
      · rcases List.mem_append.mp hp with hp | hp
        · exact h.channel p hp
        · obtain rfl := List.mem_singleton.mp hp
          exact h.session
      · rcases List.mem_append.mp hp with hp | hp
        · exact h.expiry p hp
        · obtain rfl := List.mem_singleton.mp hp
          rfl
      · obtain ⟨payload, r, hsent, hcall⟩ := h.received n i hni
        have hn := (List.getElem?_eq_some_iff.mp hsent).1
        exact ⟨payload, r, (List.getElem?_append_left hn).trans hsent, hcall⟩

/-- The server begins a call that serves. -/
theorem began (h : InStep server sign channelId start s) {c : SessionServer.Call}
    {received : List (Nat × Nat)}
    (hserves : Serves server channelId s (c, server.program c))
    (hreceived : ∀ n i, (n, i) ∈ received → (n, i) ∈ s.received ∨
      i = s.server.calls.length ∧ ∃ payload, s.sent[n]? = some payload ∧ c = .processCommit payload) :
    InStep server sign channelId start { s with
      received
      server := ⟨s.server.store, s.server.calls ++ [(c, server.program c)]⟩ } := by
  obtain ⟨state, hstate, hledger, hbalanced⟩ := h.balanced
  refine ⟨h.session, ⟨state, hstate, hledger, ?_⟩, h.attempting, h.channel, h.expiry,
    fun n i hni => ?_,
    fun cr hcr => ?_⟩
  · exact hbalanced.of_eq rfl rfl rfl fun p hp => Or.inl hp
  · rcases hreceived n i hni with hni | ⟨rfl, payload, hsent, rfl⟩
    · obtain ⟨payload, r, hsent, hcall⟩ := h.received n i hni
      have hi := (List.getElem?_eq_some_iff.mp hcall).1
      exact ⟨payload, r, hsent, (List.getElem?_append_left hi).trans hcall⟩
    · exact ⟨payload, _, hsent, List.getElem?_concat_length⟩
  · refine Serves.mono ?_ (fun _ hp => hp) h.channel (.refl _)
    rcases List.mem_append.mp hcr with hcr | hcr
    · exact h.serves cr hcr
    · obtain rfl := List.mem_singleton.mp hcr
      exact hserves

/-- **A request reaches the server.** -/
theorem receive (h : InStep server sign channelId start s) (n : Nat) :
    InStep server sign channelId start (s.react server sign (.receive n)) := by
  simp only [react]
  split
  case h_2 => exact h
  case h_1 payload hsent =>
    have hmem : payload ∈ s.sent := List.mem_of_getElem? hsent
    refine h.began (Or.inr ⟨payload, hmem, rfl, ?_, ?_⟩) fun m i hmi => ?_
    · exact every_map (server.processCommit_commitsFor payload)
    · have hshows := server.processCommit_shows payload s.server.store
      rw [h.channel payload hmem] at hshows
      refine correct_map.mpr (hshows.mono fun r store hshown receipt hreceipt => ?_)
      rcases r with e | receipt'
      · cases hreceipt
      · obtain rfl : receipt' = receipt := by simpa [Except.map] using hreceipt
        exact hshown receipt' rfl
    · rcases List.mem_cons.mp hmi with hmi | hmi
      · obtain ⟨rfl, rfl⟩ := Prod.mk.inj hmi
        exact Or.inr ⟨rfl, payload, hsent, rfl⟩
      · exact Or.inl hmi

/-- **The attempt learns nothing.** -/
theorem lose (h : InStep server sign channelId start s) (message : String) :
    InStep server sign channelId start (s.react server sign (.lose message)) := by
  simp only [react]
  split
  case h_2 => exact h
  case h_1 directive payload next hattempt =>
    obtain ⟨directive, amount, hcommitting, hlt, hr⟩ := h.attempting _ hattempt
    rcases hr with hr | ⟨hr, -⟩
    · cases hr
    · cases hr
      exact h.giveUp

/-- **The response arrives.** -/
theorem respond (h : InStep server sign channelId start s) (i : Nat) :
    InStep server sign channelId start (s.react server sign (.respond i)) := by
  simp only [react]
  split
  case h_2 => exact h
  case h_1 directive payload next outcome hattempt hresult =>
    split
    case isFalse => exact h
    case isTrue hreceived =>
      obtain ⟨directive, amount, hcommitting, hlt, hr⟩ := h.attempting _ hattempt
      rcases hr with hr | ⟨hr, hlast⟩
      · cases hr
      cases hr
      rcases houtcome : transported outcome with e | receipt
      · exact h.giveUp
      -- the call that was answered served this very request
      obtain ⟨payload, r, hsent, hcall⟩ := h.received _ _ hreceived
      obtain rfl : payload = payloadFor sign s.session directive amount := by
        rw [List.getLast?_eq_getElem?] at hlast
        exact Option.some.inj (hsent.symm.trans hlast)
      have hmem := List.mem_of_getElem? hsent
      have hdone : outcome = .ok (.committed receipt) := by
        rcases outcome with (e | m) | reply
        · cases houtcome
        · cases houtcome
        · cases reply
          case committed => simpa [transported] using houtcome
          all_goals cases houtcome
      obtain ⟨c, hfinished⟩ := Pool.finished_of_resultAt hresult
      obtain ⟨rfl, rfl⟩ := Prod.mk.inj (Option.some.inj (hfinished.symm.trans hcall))
      obtain ⟨state, hstate, hledger, hbalanced⟩ := h.balanced
      have hcharged : state.Charged (payloadFor sign s.session directive amount) := by
        rcases h.serves _ (List.mem_of_getElem? hfinished) with
          ⟨hspares, -⟩ | ⟨payload', -, hc, -, hcorrect⟩
        · exact absurd (h.channel _ hmem) hspares
        · cases hc
          obtain ⟨state', hstate', d, hd, hrecords, -⟩ := hcorrect receipt hdone
          rw [h.channel _ hmem] at hstate'
          obtain rfl := Option.some.inj (hstate.symm.trans hstate')
          exact ⟨d, hd, hrecords⟩
      refine ⟨h.session, ⟨state, hstate, hledger,
        hbalanced.acknowledge hledger hcommitting hlt hcharged receipt⟩, fun r hr => (nomatch hr),
        h.channel, h.expiry, h.received, fun cr hcr => ?_⟩
      exact (h.serves cr hcr).mono (fun _ hp => hp) h.channel (.refl _)

/-- What an operation of a call does to the channel. -/
theorem channel_step (h : InStep server sign channelId start s) {i : Nat} {c : SessionServer.Call}
    {op : SessionOp} (hnext : s.server.Next i c op) (x : SessionInput) : ∃ state state',
      s.server.store channelId = some state ∧ state.Ledger ∧
      (sessionHandler server.ed op x s.server.store).1 channelId = some state' ∧
      state'.Ledger ∧ state.Extends state' ∧ Balanced sign start s state' := by
  obtain ⟨next, hi⟩ := hnext
  obtain ⟨state, hstate, hledger, hbalanced⟩ := h.balanced
  refine ⟨state, ?_⟩
  rcases h.serves _ (List.mem_of_getElem? hi) with ⟨-, hevery⟩ | ⟨payload, hp, -, hevery, -⟩
  · obtain ⟨state', hstate', hledger', hext, hsame⟩ := hevery.1.step server.ed x hstate hledger
    exact ⟨state', hstate, hledger, hstate', hledger', hext, hbalanced.congr hsame⟩
  · have hid := h.channel payload hp
    rcases hevery.1.step server.ed x s.server.store with
      hs | ⟨st, u, pending, hst, hnew, hadv, hrecords, hs⟩
    · rw [hs]
      exact ⟨state, hstate, hledger, hstate, hledger, .refl state, hbalanced⟩
    · rw [hid] at hst hs
      obtain rfl := Option.some.inj (hst.symm.trans hstate)
      rw [hs]
      have happly : Updater.apply server.ed x.now (.commit u) (some st) =
          .ok (u.committed st, _) :=
        CommitUpdate.apply_eq_ok.mpr ⟨st, rfl, Or.inr ⟨pending, hadv, rfl, rfl⟩⟩
      exact ⟨u.committed st, hstate, hledger, ChannelStore.insert_self _ _ _, hledger.commit hadv,
        .update happly, hbalanced.charge hp hnew hadv hrecords⟩

/-- **A call of the server goes on.** -/
theorem perform (h : InStep server sign channelId start s) {i : Nat} {x : SessionInput}
    {c : SessionServer.Call} {op : SessionOp}
    {next : op.Answer → Script sessionInterface (RustResult Error SessionServer.Reply)}
    (hi : s.server.calls[i]? = some (c, .call op next)) :
    InStep server sign channelId start { s with
      server := ⟨(sessionHandler server.ed op x s.server.store).1,
        s.server.calls.set i (c, next (sessionHandler server.ed op x s.server.store).2)⟩ } := by
  obtain ⟨state, state', hstate, hledger, hstate', hledger', hext, hbalanced'⟩ :=
    h.channel_step ⟨next, hi⟩ x
  have hextends : ChannelStore.ExtendsAt channelId s.server.store
      (sessionHandler server.ed op x s.server.store).1 := by
    intro st hst
    obtain rfl := Option.some.inj (hst.symm.trans hstate)
    exact ⟨state', hstate', hext⟩
  refine ⟨h.session, ⟨state', hstate', hledger', ?_⟩, h.attempting, h.channel, h.expiry,
    fun n j hnj => ?_,
    Pool.forall_mem_set (fun cr hcr => ?_) ?_⟩
  · exact hbalanced'.of_eq rfl rfl rfl fun p hp => Or.inl hp
  · obtain ⟨payload, r, hsent, hj⟩ := h.received n j hnj
    by_cases hij : i = j
    · subst hij
      obtain ⟨rfl, rfl⟩ := Prod.mk.inj (Option.some.inj (hj.symm.trans hi))
      exact ⟨payload, _, hsent, List.getElem?_set_self (List.getElem?_eq_some_iff.mp hi).1⟩
    · exact ⟨payload, r, hsent, (List.getElem?_set_ne hij).trans hj⟩
  · exact (h.serves cr hcr).mono (fun _ hp => hp) h.channel hextends
  · rcases h.serves _ (List.mem_of_getElem? hi) with
      ⟨hspares, hevery⟩ | ⟨payload, hp, hc, hevery, hcorrect⟩
    · exact Or.inl ⟨hspares, hevery.2 _⟩
    · have hnext := hcorrect s.server.store (.refl _) ⟨state, hstate, hledger⟩ trivial x
      exact Or.inr ⟨payload, hp, hc, hevery.2 _, hnext.2.2⟩

/-- **Every step keeps the exchange in step.** -/
theorem react (h : InStep server sign channelId start s) {e : Event} (he : s.Undisturbed e) :
    InStep server sign channelId start (s.react server sign e) := by
  cases e with
  | commit directive => exact h.commit directive
  | sign failure => exact h.signed failure
  | receive n => exact h.receive n
  | respond i => exact h.respond i
  | lose message => exact h.lose message
  | server e =>
    simp only [Exchange.react]
    rcases Pool.step_cases (sessionHandler server.ed) server.program s.server e with
      ⟨c, rfl, hs⟩ | ⟨i, x, c, op, next, rfl, hi, hs⟩ | ⟨i, x, rfl, -, hs⟩
    · rw [hs]
      have hspares : Spares channelId c := h.session ▸ he
      exact h.began (Or.inl ⟨hspares, program_spares hspares⟩) fun n i hni => Or.inl hni
    · rw [hs]
      exact h.perform hi
    · rw [hs]
      exact h

/-- Every step extends the channel. -/
theorem extends_react (h : InStep server sign channelId start s) (e : Event) :
    ChannelStore.ExtendsAt channelId s.server.store (s.react server sign e).server.store := by
  rcases s.server_cases server sign e with ⟨added, hs⟩ | ⟨i, x, c, op, next, rfl, hi, hs⟩
  · rw [hs]
    exact .refl _
  · rw [hs]
    intro st hst
    obtain ⟨state, state', hstate, -, hstate', -, hext, -⟩ := h.channel_step ⟨next, hi⟩ x
    obtain rfl := Option.some.inj (hst.symm.trans hstate)
    exact ⟨state', hstate', hext⟩

end InStep

/-! ## Retries -/

/-- The session server while no voucher of this expiry has expired. -/
def timelyHandler (ed : Ed25519) (expiresAt : Int64) :
    Handler sessionInterface ChannelStore { x : SessionInput // x.now < expiresAt } :=
  fun op x store => sessionHandler ed op x.1 store

/-- The terms of a channel on which the delivery of the payload is committed. -/
def replayTerms (ed : Ed25519) (payload : CommitPayload) (receipt : CommitReceipt) :
    Terms sessionInterface ChannelStore where
  holds store := store.LedgerAt payload.voucher.data.channelId ∧ store.ShownAt ed payload receipt
  guarantee := ChannelStore.ExtendsAt payload.voucher.data.channelId
  allowed _ _ := True
  refl := .refl
  trans _ _ _ := .trans

/-- **A retry is answered with the receipt that was lost.** -/
theorem processCommit_replays (server : SessionServer) {payload : CommitPayload}
    {receipt : CommitReceipt} {s : ChannelStore} (hshown : s.ShownAt server.ed payload receipt) :
    (server.processCommit payload).run.Correct
      (timelyHandler server.ed payload.voucher.data.expiresAt)
      (replayTerms server.ed payload receipt)
      (fun r _ => r = .ok { receipt with status := .replayed }) s := by
  obtain ⟨_, -, d₀, -, ⟨-, hparse₀, -⟩, -⟩ := hshown
  refine correct_lift_bind (fun e he => ?_) fun newCumulative hnew => ?_
  · rw [hparse₀] at he
    cases he
  refine correct_read_bind (fun _ _ => rfl) fun s₁ _ hI₁ _ => ?_
  obtain ⟨⟨state, hstate, hledger⟩, _, hstate', d, hd, ⟨hid, hparse, hsig⟩, haccepts, status, rfl⟩ := hI₁
  obtain rfl := Option.some.inj (hstate.symm.trans hstate')
  obtain rfl : newCumulative = d.cumulative :=
    Option.some.inj ((okOrElse_eq_ok.mp hnew).symm.trans hparse)
  -- the snapshot has one delivery of this id
  have hfind : state.committedDeliveries.find? (·.deliveryId = payload.deliveryId) = some d := by
    have hdistinct := (List.nodup_append.mp hledger.ids_nodup).2.1
    rcases hfound : state.committedDeliveries.find? (·.deliveryId = payload.deliveryId) with _ | d'
    · exact absurd hid (by simpa using List.find?_eq_none.mp hfound d hd)
    · have hid' : d'.deliveryId = payload.deliveryId := by simpa using List.find?_some hfound
      have hmem : d' ∈ state.committedDeliveries := List.mem_of_find?_eq_some hfound
      have heq : d' = d := List.inj_on_of_nodup_map hdistinct hmem hd (hid'.trans hid.symm)
      exact hfound.trans (congrArg some heq)
  refine correct_lift_bind (fun e he => ?_) fun found hfound => ?_
  · change okOrElse (s₁ payload.voucher.data.channelId) _ = _ at he
    rw [hstate] at he
    cases he
  obtain rfl : state = found := Option.some.inj (hstate.symm.trans (okOrElse_eq_ok.mp hfound))
  rw [hfind]
  refine correct_lift_bind (fun e he => ?_) fun _ _ => ?_
  · rw [rejectIf_neg (not_not.mpr ⟨rfl, hsig⟩)] at he
    cases he
  refine correct_read_bind (fun _ _ => rfl) fun s₂ _ _ x => ?_
  have hverify : verifySignature server.ed x.1.unixSecs.toInt64 payload.voucher
      state.authorizedSigner = .ok () :=
    verifySignature_eq_ok.mpr ⟨Int64.not_le.mpr x.2, d.cumulative, hparse, haccepts⟩
  refine correct_lift_bind (fun e he => ?_) fun _ _ => rfl
  have hthrown := hverify.symm.trans he
  cases hthrown

/-- A call that answers a retry, on a channel where the delivery is committed. -/
structure Replays (server : SessionServer) (payload : CommitPayload) (receipt : CommitReceipt)
    (i : Nat) (s : Exchange) : Prop where
  shown : s.server.store.ShownAt server.ed payload receipt
  answers : ∃ r, s.server.calls[i]? = some (.processCommit payload, r) ∧
    r.Every (SessionOp.CommitsFor payload) ∧
    r.Correct (timelyHandler server.ed payload.voucher.data.expiresAt)
      (replayTerms server.ed payload receipt)
      (fun r _ => r = .ok (.committed { receipt with status := .replayed })) s.server.store

namespace Replays
variable {payload : CommitPayload} {receipt : CommitReceipt} {i : Nat} {start : Nat} {s : Exchange}

/-- What the call asks leaves the store as it is. -/
theorem quiet (h : Replays server payload receipt i s) {c : SessionServer.Call} {op : SessionOp}
    (hnext : s.server.Next i c op) (x : SessionInput) :
    (sessionHandler server.ed op x s.server.store).1 = s.server.store := by
  obtain ⟨next, hi⟩ := hnext
  obtain ⟨r, hcall, hevery, -⟩ := h.answers
  obtain ⟨rfl, rfl⟩ := Prod.mk.inj (Option.some.inj (hcall.symm.trans hi))
  rcases hevery.1.step server.ed x s.server.store with hs | ⟨st, u, pending, hst, hnew, -⟩
  · exact hs
  · obtain ⟨state, hstate, d, hd, hrecords, -⟩ := h.shown
    obtain rfl := Option.some.inj (hst.symm.trans hstate)
    exact absurd ⟨d, hd, hrecords⟩ hnew

/-- **Every step goes on answering the retry.** -/
theorem react (h : Replays server payload receipt i s)
    (hstep : InStep server sign payload.voucher.data.channelId start s) (hsent : payload ∈ s.sent)
    {e : Event} (he : s.Undisturbed e) : Replays server payload receipt i (s.react server sign e) := by
  have hext := hstep.extends_react e
  refine ⟨h.shown.mono hext, ?_⟩
  obtain ⟨r, hcall, hevery, hcorrect⟩ := h.answers
  have hi := (List.getElem?_eq_some_iff.mp hcall).1
  have hstable : r.Correct (timelyHandler server.ed payload.voucher.data.expiresAt)
      (replayTerms server.ed payload receipt)
      (fun r _ => r = .ok (.committed { receipt with status := .replayed }))
      (s.react server sign e).server.store := hcorrect.stable (fun _ _ _ _ hr => hr) hext
  rcases s.server_cases server sign e with ⟨added, hs⟩ | ⟨j, x, c, op, next, rfl, hj, hs⟩
  · rw [hs] at hstable ⊢
    exact ⟨r, (List.getElem?_append_left hi).trans hcall, hevery, hstable⟩
  · rw [hs] at hstable ⊢
    by_cases hij : j = i
    · subst hij
      obtain ⟨rfl, rfl⟩ := Prod.mk.inj (Option.some.inj (hcall.symm.trans hj))
      have htimely : x.now < payload.voucher.data.expiresAt := by
        rw [hstep.expiry payload hsent]
        exact he
      obtain ⟨state, hstate, hledger, -⟩ := hstep.balanced
      have hnext := hcorrect s.server.store (.refl _) ⟨⟨state, hstate, hledger⟩, h.shown⟩ trivial
        ⟨x, htimely⟩
      exact ⟨_, List.getElem?_set_self hi, hevery.2 _, hnext.2.2⟩
    · exact ⟨r, (List.getElem?_set_ne hij).trans hcall, hevery, hstable⟩

end Replays

/-! ## Every run -/

section Run
variable (server : SessionServer) (sign : List UInt8 → Signature) (setup : List SessionServer.Event)
  (session : ActiveSession) (state : ChannelState)

/-- The exchange is in step along every undisturbed run. -/
theorem inStep_of_run
    (hstate : (server.machine.exec setup).store session.channelId.toBase58 = some state)
    (hcumulative : session.cumulative = state.cumulative) (run : List Event)
    (hrun : (machine server sign session (server.machine.exec setup).store).Guarded Undisturbed run) :
    InStep server sign session.channelId.toBase58 state.cumulative.toNat
      ((machine server sign session (server.machine.exec setup).store).exec run) := by
  have hledger : state.Ledger := by
    have haccounts := SessionServer.accounts_of_run server session.channelId.toBase58 setup
    unfold ChannelStore.Accounts at haccounts
    rw [hstate] at haccounts
    exact haccounts.toLedger
  refine Machine.holds_of_guarded ?_ (fun s e h he => h.react he) run hrun
  refine ⟨rfl, ⟨state, hstate, hledger, ?_⟩, fun r hr => (nomatch hr), fun p hp => (nomatch hp),
    fun p hp => (nomatch hp), fun n i hni => (nomatch hni), fun cr hcr => (nomatch hcr)⟩
  refine ⟨Or.inl hcumulative.symm, fun p hp => (nomatch hp), fun ack hack => (nomatch hack), ?_⟩
  show session.cumulative.toNat = state.cumulative.toNat + 0
  rw [hcumulative, Nat.add_zero]

variable {server sign} {start : Nat} {s : Exchange}

theorem InStep.chargesOnce (h : InStep server sign channelId start s) :
    ∃ state, s.server.store channelId = some state ∧ s.ChargesOnce state ∧
      (s.Quiet → s.session.cumulative = state.cumulative) := by
  obtain ⟨state, hstate, hledger, hbalanced⟩ := h.balanced
  refine ⟨state, hstate, fun ack hack => ?_, fun hquiet => ?_⟩
  · obtain ⟨d, hd, hid, hamount⟩ := hbalanced.acknowledged ack hack
    obtain ⟨d', hd'⟩ := List.length_eq_one_iff.mp (hledger.committed_once hd)
    rw [hid] at hd'
    have hmem : d ∈ charges state ack.1.deliveryId :=
      List.mem_filter.mpr ⟨hd, decide_eq_true hid⟩
    unfold charges at hmem ⊢
    rw [hd'] at hmem ⊢
    obtain rfl := List.mem_singleton.mp hmem
    exact ⟨d, rfl, hamount⟩
  · rcases hbalanced.watermark with heq | ⟨directive, amount, hcommitting, -⟩
    · exact heq.symm
    · have hnone : s.directive = none := hquiet
      rw [Committing, hnone] at hcommitting
      cases hcommitting.1

/-- A request that was answered is answered again when it arrives. -/
theorem InStep.replays (h : InStep server sign channelId start s) {n : Nat}
    {payload : CommitPayload} {receipt : CommitReceipt} (hanswered : s.Answered n payload receipt) :
    payload ∈ s.sent ∧
      Replays server payload receipt s.server.calls.length (s.react server sign (.receive n)) := by
  obtain ⟨hsent, j, hfinished⟩ := hanswered
  have hmem := List.mem_of_getElem? hsent
  have hshown : s.server.store.ShownAt server.ed payload receipt := by
    rcases h.serves _ (List.mem_of_getElem? hfinished) with
      ⟨hspares, -⟩ | ⟨payload', -, hc, -, hcorrect⟩
    · exact absurd (h.channel payload hmem) hspares
    · cases hc
      exact hcorrect receipt rfl
  have hreact : (s.react server sign (.receive n)).server =
      ⟨s.server.store, s.server.calls ++
        [(.processCommit payload, server.program (.processCommit payload))]⟩ := by
    simp only [Exchange.react, hsent]
    rfl
  refine ⟨hmem, ?_, ?_⟩
  · rw [hreact]
    exact hshown
  · rw [hreact]
    refine ⟨_, List.getElem?_concat_length, every_map (server.processCommit_commitsFor payload), ?_⟩
    refine correct_map.mpr ((processCommit_replays server hshown).mono fun r _ hr => ?_)
    rw [hr]
    rfl

end Run

/-- **Charging exactly once.**  Whatever requests and responses are lost: an acknowledged delivery
is charged once, a retry after a lost response replays the receipt and changes nothing, and with
no commit outstanding the watermarks are the same. -/
theorem charges_exactly_once (server : SessionServer) (sign : List UInt8 → Signature)
    (setup : List SessionServer.Event) (session : ActiveSession) (state : ChannelState)
    (run : List Event)
    (hstate : (server.machine.exec setup).store session.channelId.toBase58 = some state)
    (hcumulative : session.cumulative = state.cumulative)
    (hrun : (machine server sign session (server.machine.exec setup).store).Guarded Undisturbed run) :
    let M := machine server sign session (server.machine.exec setup).store
    (∃ state', (M.exec run).server.store session.channelId.toBase58 = some state' ∧
      (M.exec run).ChargesOnce state' ∧
      ((M.exec run).Quiet → (M.exec run).session.cumulative = state'.cumulative)) ∧
    (M.exec run).session.cumulative.toNat = state.cumulative.toNat + (M.exec run).acknowledgedTotal ∧
    RetriesReplay M run := by
  intro M
  have hstep := inStep_of_run server sign setup session state hstate hcumulative
  refine ⟨(hstep run hrun).chargesOnce, ?_, ?_⟩
  · obtain ⟨_, -, -, hbalanced⟩ := (hstep run hrun).balanced
    exact hbalanced.total
  intro n before payload receipt hreceive hanswered
  have hbefore := (List.suffix_cons (.receive n) before).trans hreceive
  obtain ⟨hmem, hreplays⟩ := (hstep before (hrun.suffix hbefore)).replays hanswered
  -- from the moment the retry arrives, its call goes on replaying
  have hlater : ∀ after, .receive n :: before <:+ after → after <:+ run →
      payload ∈ (M.exec after).sent ∧
        Replays server payload receipt (M.exec before).server.calls.length (M.exec after) := by
    intro after
    induction after with
    | nil => intro h; simp [List.suffix_nil] at h
    | cons e after ih =>
      intro h hrest
      rcases List.suffix_cons_iff.mp h with heq | h
      · obtain ⟨rfl, rfl⟩ := List.cons.inj heq
        exact ⟨sent_react server sign (M.exec before) (.receive n) payload hmem, hreplays⟩
      · have hafter := (List.suffix_cons e after).trans hrest
        obtain ⟨hsent, hreplays'⟩ := ih h hafter
        have hin := hstep after (hrun.suffix hafter)
        have hchannel := hin.channel payload hsent
        rw [← hchannel] at hin
        exact ⟨sent_react server sign (M.exec after) e payload hsent,
          hreplays'.react hin hsent (hrun e after hrest)⟩
  intro after hafter hrest
  obtain ⟨-, hreplays'⟩ := hlater after hafter hrest
  refine ⟨fun x hx => ?_, fun r hr => ?_⟩
  · show ((M.exec after).react server sign (.server (.step _ x))).server.store = _
    rcases (M.exec after).server_cases server sign (.server (.step _ x)) with
      ⟨added, hs⟩ | ⟨i, y, c, op, next, he, hi, hs⟩
    · rw [hs]
    · cases he
      rw [hs]
      exact hreplays'.quiet ⟨next, hi⟩ x
  · obtain ⟨c, hfinished⟩ := Pool.finished_of_resultAt hr
    obtain ⟨q, hcall, -, hcorrect⟩ := hreplays'.answers
    obtain ⟨rfl, rfl⟩ := Prod.mk.inj (Option.some.inj (hcall.symm.trans hfinished))
    exact hcorrect

namespace Sample

/-- Open the channel and reserve a delivery of 10. -/
def setup : List SessionServer.Event :=
  List.reverse (
    [.start (.processOpen SessionServer.sampleOpen)] ++ SessionServer.steps 0 1 ++
    [.start (.beginDelivery {
      sessionId := "11111111111111111111111111111111", amount := 10, deliveryId := some "a" })] ++
    SessionServer.steps 1 1)

/-- The channel with the delivery reserved. -/
def reserved : ChannelState :=
  { SessionServer.openedState "11111111111111111111111111111111"
      "11111111111111111111111111111112" 100 none with
    nextDeliverySequence := 1
    pendingDeliveries := [
      { deliveryId := "a", amount := 10, sequence := 1, expiresAt := DEFAULT_SESSION_EXPIRES_AT }] }

def directive : MeteringDirective where
  deliveryId := "a"
  sessionId := "11111111111111111111111111111111"
  amount := "10"
  currency := "USDC"
  sequence := 1
  expiresAt := DEFAULT_SESSION_EXPIRES_AT
  commitUrl := none
  proof := none

def session : ActiveSession where
  channelId := .replicate 32 0
  cumulative := 0
  nonce := 0
  expiresAt := 1

/-- The signatures of the stand-in scheme for the signer of the channel. -/
def checksum (message : List UInt8) : Signature := ⟨List.replicate 63 0 ++ [1 + message.sum], rfl⟩

/-- The call at a position performs its next operations. -/
def steps (position count : Nat) : List Event :=
  (SessionServer.steps position count).map .server

/-- The first response is lost, and the retry is answered. -/
def retried : List Event :=
  List.reverse (
    [.commit directive, .sign none, .receive 0] ++ steps 0 4 ++ [.lose "timed out"] ++
    [.commit directive, .sign none, .receive 1] ++ steps 1 2 ++ [.respond 1])

theorem retried_charges_once : ∃ state',
    ((machine SessionServer.sampleServer checksum session
      (SessionServer.sampleServer.machine.exec setup).store).exec retried).server.store
        session.channelId.toBase58 = some state' ∧
    ((machine SessionServer.sampleServer checksum session
      (SessionServer.sampleServer.machine.exec setup).store).exec retried).ChargesOnce state' ∧
    (((machine SessionServer.sampleServer checksum session
      (SessionServer.sampleServer.machine.exec setup).store).exec retried).Quiet →
      ((machine SessionServer.sampleServer checksum session
        (SessionServer.sampleServer.machine.exec setup).store).exec retried).session.cumulative =
        state'.cumulative) :=
  (charges_exactly_once SessionServer.sampleServer checksum setup session reserved retried
    (by decide +kernel) (by decide) (by decide +kernel)).1

end Sample

end Exchange
end MppSdk
