import MppSdk.SessionClient

/-! # Metered streams

`client/http_stream.rs`: the events of a stream set the directive in force and the final
amount, and `ack` commits what they add up to.  The amount of a usage event is not held
against the directive, and a directive replaces another without dropping the amount that
was reported before it; `neverOverpays_iff` says for which streams a client still pays no
more than it was quoted. -/

namespace MppSdk
open Script

/-! ## Events -/

/-- `SseEvent`. -/
structure SseEvent where
  event : Option String := none
  data : String
  id : Option String := none
  retry : Option UInt64 := none
deriving DecidableEq

/-- `MeteringUsage`: the final usage of a streaming response. -/
structure MeteringUsage where
  deliveryId : String
  amount : String
deriving DecidableEq

/-- `MeteredSseEvent`. -/
inductive MeteredSseEvent (T : Type) : Type
  | metering (directive : MeteringDirective)
  | usage (usage : MeteringUsage)
  | message (message : T)
  | done
  | other (event : SseEvent)

/-- `serde_json::from_str`, at the types a stream is read as. -/
structure StreamCodec (T : Type) where
  directive : String → Except String MeteringDirective
  usage : String → Except String MeteringUsage
  message : String → Except String T

section Stream
variable {T : Type} (codec : StreamCodec T)

/-- `parse_metered_sse_event`. -/
def parseMeteredSseEvent (event : SseEvent) : RustResult Error (MeteredSseEvent T) :=
  let metering := do
    let directive ← replied (fun e : String => .other s!"invalid mpp.metering event: {e}")
      (codec.directive event.data)
    return .metering directive
  let usage := do
    let usage ← replied (fun e : String => .other s!"invalid mpp.usage event: {e}")
      (codec.usage event.data)
    return .usage usage
  match event.event.getD "message" with
  | "mpp.metering" => metering
  | "metering" => metering
  | "mpp.usage" => usage
  | "usage" => usage
  | "done" => return .done
  | "message" =>
      if trim event.data = "[DONE]" then return .done
      else do
        let message ← replied (fun e : String => .other s!"invalid SSE message event: {e}")
          (codec.message event.data)
        return .message message
  | _ => return .other event

/-! ## The state of a stream -/

/-- `MeteredStreamState`. -/
structure MeteredStreamState where
  directive : Option MeteringDirective := none
  finalAmount : Option UInt64 := none
  done : Bool := false

namespace MeteredStreamState
variable (state : MeteredStreamState)

/-- `apply_event`: the state after the event, and the message it carries. -/
def applyEvent (event : SseEvent) : RustResult Error (MeteredStreamState × Option T) := do
  match ← parseMeteredSseEvent codec event with
  | .metering directive => return ({ state with directive := some directive }, none)
  | .usage usage =>
      rejectIf (∃ directive ∈ state.directive, usage.deliveryId ≠ directive.deliveryId) (.other
        (s!"usage delivery {usage.deliveryId} does not match directive " ++
          (state.directive.elim "" (·.deliveryId))))
      let amount ← okOrElse (parseU64 usage.amount)
        (.other s!"invalid metering usage amount: {usage.amount}")
      return ({ state with finalAmount := some amount }, none)
  | .message message => return (state, some message)
  | .done => return ({ state with done := true }, none)
  | .other _ => return (state, none)

/-- The state after `accept_event`; an event that fails leaves it as it was, and the
application may go on. -/
def accept (event : SseEvent) : MeteredStreamState :=
  match state.applyEvent codec event with
  | .ok (state, _) => state
  | .error _ => state

/-- `directive_for_commit`. -/
def directiveForCommit : RustResult Error MeteringDirective := do
  let directive ← okOrElse state.directive (.other "stream did not include mpp.metering event")
  match state.finalAmount with
  | some amount => return { directive with amount := toString amount }
  | none => return directive

/-- `ack`. -/
def ack (session : ActiveSession) : ClientM (CommitReceipt × ActiveSession) := do
  let directive ← state.directiveForCommit
  session.commitDirective directive

end MeteredStreamState

/-- The state of a `MeteredSseSession` after some events. -/
def streamState (events : List SseEvent) : MeteredStreamState :=
  events.foldl (fun state event => state.accept codec event) {}

/-! ## What a client was quoted -/

/-- What the events said: the directive in force and the usage event that counts. -/
structure Quoted where
  directive : Option MeteringDirective := none
  usage : Option MeteringUsage := none

/-- A usage event counts if its amount can be read and no other delivery is in force. -/
def Quoted.Counts (quoted : Quoted) (usage : MeteringUsage) : Prop :=
  (∀ directive ∈ quoted.directive, usage.deliveryId = directive.deliveryId) ∧
    (parseU64 usage.amount).isSome

instance (quoted : Quoted) (usage : MeteringUsage) : Decidable (quoted.Counts usage) :=
  inferInstanceAs (Decidable (_ ∧ _))

/-- One event more. -/
def Quoted.next (quoted : Quoted) (event : SseEvent) : Quoted :=
  match parseMeteredSseEvent codec event with
  | .ok (.metering directive) => { quoted with directive := some directive }
  | .ok (.usage usage) => if quoted.Counts usage then { quoted with usage := some usage } else quoted
  | _ => quoted

/-- What the events of a stream said. -/
def quotedBy (events : List SseEvent) : Quoted := events.foldl (Quoted.next codec) {}

/-- Whenever `ack` commits, what the client signs for is at most what the directive in force
reserved, and a usage event that set the amount was for its delivery. -/
def NeverOverpays (session : ActiveSession) (events : List SseEvent) : Prop :=
  ∀ xs receipt session', (alone clientHandler ((streamState codec events).ack session).run xs ()).2 =
      .ok (receipt, session') →
    ∃ directive ∈ (quotedBy codec events).directive,
      (∃ reserved, parseU64 directive.amount = some reserved ∧
        session'.cumulative.toNat - session.cumulative.toNat ≤ reserved.toNat) ∧
      ∀ usage ∈ (quotedBy codec events).usage, usage.deliveryId = directive.deliveryId

/-- The usage event that counts is for the delivery in force and within its reserved amount,
unless its amount would not be committed at all. -/
def KeepsToQuote (session : ActiveSession) (events : List SseEvent) : Prop :=
  ∀ directive ∈ (quotedBy codec events).directive, ∀ usage ∈ (quotedBy codec events).usage,
    ∀ amount, parseU64 usage.amount = some amount → ¬ session.Refuses directive amount →
      usage.deliveryId = directive.deliveryId ∧
        ∃ reserved, parseU64 directive.amount = some reserved ∧ amount ≤ reserved

/-! ## The state is what was quoted -/

/-- The state holds the directive in force and the amount of the usage event that counts. -/
structure Tracks (state : MeteredStreamState) (quoted : Quoted) : Prop where
  directive : state.directive = quoted.directive
  finalAmount : state.finalAmount = quoted.usage.bind fun usage => parseU64 usage.amount
  readable : ∀ usage ∈ quoted.usage, (parseU64 usage.amount).isSome

variable {codec} {state : MeteredStreamState} {quoted : Quoted}

theorem accept_of_usage {event : SseEvent} {usage : MeteringUsage}
    (hparse : parseMeteredSseEvent codec event = .ok (.usage usage)) {amount : UInt64}
    (hdelivery : ∀ directive ∈ state.directive, usage.deliveryId = directive.deliveryId)
    (hamount : parseU64 usage.amount = some amount) :
    state.accept codec event = { state with finalAmount := some amount } := by
  have hmatch : ¬ ∃ directive ∈ state.directive, usage.deliveryId ≠ directive.deliveryId := by
    rintro ⟨directive, hd, hne⟩
    exact hne (hdelivery directive hd)
  unfold MeteredStreamState.accept MeteredStreamState.applyEvent
  rw [hparse]
  simp only [Bind.bind, Except.bind, rejectIf_neg hmatch, hamount, okOrElse]
  rfl

theorem accept_of_usage_not {event : SseEvent} {usage : MeteringUsage}
    (hparse : parseMeteredSseEvent codec event = .ok (.usage usage))
    (h : ¬ ((∀ directive ∈ state.directive, usage.deliveryId = directive.deliveryId) ∧
      (parseU64 usage.amount).isSome)) : state.accept codec event = state := by
  unfold MeteredStreamState.accept MeteredStreamState.applyEvent
  rw [hparse]
  by_cases hmatch : ∃ directive ∈ state.directive, usage.deliveryId ≠ directive.deliveryId
  · simp only [Bind.bind, Except.bind, rejectIf_pos hmatch]
  · have hdelivery : ∀ directive ∈ state.directive, usage.deliveryId = directive.deliveryId := by
      intro directive hd
      exact not_not.mp fun hne => hmatch ⟨directive, hd, hne⟩
    have hamount : parseU64 usage.amount = none := by
      cases hp : parseU64 usage.amount with
      | none => rfl
      | some amount => exact absurd ⟨hdelivery, by rw [hp]; rfl⟩ h
    simp only [Bind.bind, Except.bind, rejectIf_neg hmatch, hamount, okOrElse]

/-- One event more. -/
theorem Tracks.next (h : Tracks state quoted) (event : SseEvent) :
    Tracks (state.accept codec event) (quoted.next codec event) := by
  rcases hparse : parseMeteredSseEvent codec event with e | parsed
  · have hstate : state.accept codec event = state := by
      unfold MeteredStreamState.accept MeteredStreamState.applyEvent
      rw [hparse]
      rfl
    rw [hstate, Quoted.next, hparse]
    exact h
  cases parsed with
  | metering directive =>
    have hstate : state.accept codec event = { state with directive := some directive } := by
      unfold MeteredStreamState.accept MeteredStreamState.applyEvent
      rw [hparse]
      rfl
    rw [hstate, Quoted.next, hparse]
    exact ⟨rfl, h.finalAmount, h.readable⟩
  | usage usage =>
    by_cases hcounts : quoted.Counts usage
    · obtain ⟨hdelivery, hreadable⟩ := hcounts
      obtain ⟨amount, hamount⟩ := Option.isSome_iff_exists.mp hreadable
      have hquoted : quoted.next codec event = { quoted with usage := some usage } := by
        rw [Quoted.next, hparse]
        exact if_pos ⟨hdelivery, hreadable⟩
      rw [accept_of_usage hparse (h.directive ▸ hdelivery) hamount, hquoted]
      refine ⟨h.directive, hamount.symm, ?_⟩
      rintro _ ⟨⟩
      exact hreadable
    · have hquoted : quoted.next codec event = quoted := by
        rw [Quoted.next, hparse]
        exact if_neg hcounts
      have hnot : ¬ ((∀ directive ∈ state.directive, usage.deliveryId = directive.deliveryId) ∧
          (parseU64 usage.amount).isSome) := by
        rw [h.directive]
        exact hcounts
      rw [accept_of_usage_not hparse hnot, hquoted]
      exact h
  | message _ | done | other _ =>
    have hstate : (state.accept codec event).directive = state.directive ∧
        (state.accept codec event).finalAmount = state.finalAmount := by
      unfold MeteredStreamState.accept MeteredStreamState.applyEvent
      rw [hparse]
      exact ⟨rfl, rfl⟩
    rw [Quoted.next, hparse]
    exact ⟨hstate.1.trans h.directive, hstate.2.trans h.finalAmount, h.readable⟩

/-- After any events the state is what they said. -/
theorem tracks_streamState (events : List SseEvent) :
    Tracks (streamState codec events) (quotedBy codec events) := by
  have hrun : ∀ (events : List SseEvent) {state : MeteredStreamState} {quoted : Quoted},
      Tracks state quoted → Tracks (events.foldl (fun state event => state.accept codec event) state)
        (events.foldl (Quoted.next codec) quoted) := by
    intro events
    induction events with
    | nil => exact fun h => h
    | cons event events ih => exact fun h => ih (h.next event)
  exact hrun events ⟨rfl, rfl, fun usage h => nomatch h⟩

/-! ## Acknowledging a stream -/

theorem directiveForCommit_eq_ok {directive : MeteringDirective} :
    state.directiveForCommit = .ok directive ↔ ∃ reserving ∈ state.directive,
      directive = match state.finalAmount with
        | some amount => { reserving with amount := toString amount }
        | none => reserving := by
  unfold MeteredStreamState.directiveForCommit
  rw [bind_eq_ok]
  simp only [okOrElse_eq_ok]
  refine exists_congr fun reserving => and_congr_right fun _ => ?_
  rcases state.finalAmount with _ | amount
  · exact ⟨fun h => (Except.ok.inj h).symm, fun h => congrArg Except.ok h.symm⟩
  · exact ⟨fun h => (Except.ok.inj h).symm, fun h => congrArg Except.ok h.symm⟩

/-- **What `ack` returns**: a receipt if the stream has a directive, and the amount that is
in the end committed under it is one the session takes. -/
theorem ack_eq_ok {session : ActiveSession} {xs : Nat → ClientInput} {receipt : CommitReceipt}
    {session' : ActiveSession} :
    (alone clientHandler (state.ack session).run xs ()).2 = .ok (receipt, session') ↔
      ∃ directive ∈ state.directive, ∃ amount,
        (state.finalAmount.or (parseU64 directive.amount)) = some amount ∧
        ¬ session.Refuses directive amount ∧ (∃ sig, (xs 0).signature = .ok sig) ∧
        (xs 1).receipt = .ok receipt ∧ session' = session.advanced amount := by
  rcases hdirective : state.directiveForCommit with e | directive
  · have hack : (state.ack session).run = .done (.error e) := by
      simp only [MeteredStreamState.ack, hdirective, run_bind, run_liftExcept, done_bind]
    rw [hack]
    constructor
    · intro h
      cases h
    · rintro ⟨directive, hd, -⟩
      have hok := directiveForCommit_eq_ok.mpr ⟨directive, hd, rfl⟩
      rw [hdirective] at hok
      cases hok
  · have hack : (state.ack session).run = (session.commitDirective directive).run := by
      simp only [MeteredStreamState.ack, hdirective, run_bind, run_liftExcept, done_bind]
    rw [hack, ActiveSession.commitDirective_eq_ok]
    obtain ⟨reserving, hreserving, rfl⟩ := directiveForCommit_eq_ok.mp hdirective
    have hsame : ∀ directive ∈ state.directive, directive = reserving := by
      intro directive hd
      exact Option.some.inj (hd.symm.trans hreserving)
    rcases hfinal : state.finalAmount with _ | final
    · simp only [Option.none_or]
      constructor
      · rintro ⟨amount, hamount, hrest⟩
        exact ⟨reserving, hreserving, amount, hamount, hrest⟩
      · rintro ⟨directive, hd, amount, hamount, hrest⟩
        obtain rfl := hsame directive hd
        exact ⟨amount, hamount, hrest⟩
    · simp only [Option.some_or, parseU64_toString]
      constructor
      · rintro ⟨amount, hamount, hrest⟩
        exact ⟨reserving, hreserving, amount, hamount, hrest⟩
      · rintro ⟨directive, hd, amount, hamount, hrest⟩
        obtain rfl := hsame directive hd
        exact ⟨amount, hamount, hrest⟩

/-- What a commit that is not refused adds to the watermark. -/
theorem cumulative_advanced {session : ActiveSession} {directive : MeteringDirective}
    {amount : UInt64} (h : ¬ session.Refuses directive amount) :
    (session.advanced amount).cumulative.toNat - session.cumulative.toNat = amount.toNat := by
  have hfits : session.cumulative.toNat + amount.toNat < 2 ^ 64 :=
    Nat.lt_of_not_le fun hle => h (Or.inr (Or.inr hle))
  show (session.cumulative + amount).toNat - _ = _
  rw [UInt64.toNat_add, Nat.mod_eq_of_lt hfits]
  omega

/-- **Overpayment**, for the streams that have none: a client never signs for more than it
was quoted exactly if the usage event that counts keeps to the quote. -/
theorem neverOverpays_iff (codec : StreamCodec T) (session : ActiveSession)
    (events : List SseEvent) :
    NeverOverpays codec session events ↔ KeepsToQuote codec session events := by
  have htracks : Tracks (streamState codec events) (quotedBy codec events) :=
    tracks_streamState events
  obtain ⟨hdirective, hfinal, hreadable⟩ := htracks
  constructor
  · intro h directive hd usage hu amount hamount hnot
    -- a signer and a transport that answer
    let receipt : CommitReceipt := ⟨directive.deliveryId, directive.sessionId, "", "", .committed⟩
    let x : ClientInput := ⟨.ok ⟨List.replicate 64 0, rfl⟩, .ok receipt⟩
    have hack : (alone clientHandler ((streamState codec events).ack session).run (fun _ => x)
        ()).2 = .ok (receipt, session.advanced amount) := by
      refine ack_eq_ok.mpr ⟨directive, hdirective ▸ hd, amount, ?_, hnot, ⟨_, rfl⟩, rfl, rfl⟩
      rw [hfinal, show (quotedBy codec events).usage = some usage from hu, Option.bind_some,
        hamount, Option.some_or]
    obtain ⟨directive', hd', ⟨reserved, hreserved, hle⟩, hdelivery⟩ := h _ _ _ hack
    obtain rfl : directive' = directive := Option.some.inj (hd'.symm.trans hd)
    rw [cumulative_advanced hnot] at hle
    exact ⟨hdelivery usage hu, reserved, hreserved, UInt64.le_iff_toNat_le.mpr hle⟩
  · intro h xs receipt session' hack
    obtain ⟨directive, hd, amount, hamount, hnot, -, -, rfl⟩ := ack_eq_ok.mp hack
    rw [hdirective] at hd
    refine ⟨directive, hd, ?_⟩
    rw [cumulative_advanced hnot]
    rcases husage : (quotedBy codec events).usage with _ | usage
    · rw [hfinal, husage, Option.bind_none, Option.none_or] at hamount
      exact ⟨⟨amount, hamount, Nat.le_refl _⟩, fun usage hu => nomatch hu⟩
    · obtain ⟨final, hfinal'⟩ := Option.isSome_iff_exists.mp (hreadable usage husage)
      rw [hfinal, husage, Option.bind_some, hfinal', Option.some_or] at hamount
      obtain rfl := Option.some.inj hamount
      obtain ⟨hdelivery, reserved, hreserved, hle⟩ := h directive hd usage husage final hfinal' hnot
      refine ⟨⟨reserved, hreserved, UInt64.le_iff_toNat_le.mp hle⟩, ?_⟩
      rintro _ ⟨⟩
      exact hdelivery

end Stream

namespace MeteredSample

def session : ActiveSession where
  channelId := .replicate 32 0
  cumulative := 0
  nonce := 0
  expiresAt := 4102444800

/-- A directive that reserves 1000 of the session. -/
def directive : MeteringDirective where
  deliveryId := "stream-1"
  sessionId := "11111111111111111111111111111111"
  amount := "1000"
  currency := "USDC"
  sequence := 1
  expiresAt := 4102444800
  commitUrl := none
  proof := none

def usage : MeteringUsage where
  deliveryId := "stream-1"
  amount := "5000"

/-- Data texts stand for what they are read as. -/
def codec : StreamCodec Unit where
  directive text := if text = "reserve 1000" then .ok directive else .error "no directive"
  usage text := if text = "use 5000" then .ok usage else .error "no usage"
  message _ := .ok ()

/-- The directive, and a usage of five times what it reserves. -/
def events : List SseEvent :=
  [{ event := some "mpp.metering", data := "reserve 1000" },
    { event := some "mpp.usage", data := "use 5000" }, { event := some "done", data := "" }]

/-- A client pays 5000 for what was quoted at 1000. -/
theorem stream_overpays : ¬ NeverOverpays codec session events := by
  intro h
  let receipt : CommitReceipt := ⟨"stream-1", directive.sessionId, "5000", "5000", .committed⟩
  let x : ClientInput := ⟨.ok ⟨List.replicate 64 0, rfl⟩, .ok receipt⟩
  have hstate : (streamState codec events).directive = some directive ∧
      (streamState codec events).finalAmount = some 5000 := by decide +kernel
  have hquoted : (quotedBy codec events).directive = some directive := by decide +kernel
  have hnot : ¬ session.Refuses directive 5000 := by
    rw [ActiveSession.Refuses, not_or, not_or]
    decide +kernel
  have hack : (alone clientHandler ((streamState codec events).ack session).run (fun _ => x)
      ()).2 = .ok (receipt, session.advanced 5000) := by
    refine ack_eq_ok.mpr ⟨directive, hstate.1, 5000, ?_, hnot, ⟨_, rfl⟩, rfl, rfl⟩
    rw [hstate.2, Option.some_or]
  obtain ⟨directive', hd', ⟨reserved, hreserved, hle⟩, -⟩ := h _ _ _ hack
  obtain rfl : directive' = directive := Option.some.inj (hd'.symm.trans hquoted)
  have hreserved' : parseU64 directive.amount = some 1000 := by decide +kernel
  rw [hreserved'] at hreserved
  obtain rfl := Option.some.inj hreserved
  exact absurd hle (by decide)

end MeteredSample
end MppSdk
