import Mathlib.Logic.Function.Basic
import MppSdk.SessionTypes
import MppSdk.TsSessionClient

/-! # The session fetch client

`client/SessionFetch.ts`: requests that open a session when they are answered with 402, and
commits of a metered amount, at most one an interval.  The open session, the recorded target,
the timer and the queue of commits are fields of one object that every call reads and writes
between its awaits.

The client keeps every session it has opened, each with what was recorded and what was
committed for it, so that a law about them can be stated. -/

namespace MppSdk
namespace Ts
open Script

/-! ## Requests -/

/-- `FetchInit`. -/
structure FetchInit where
  method : Option String := none
  headers : List (String × String) := []
  body : Option Json := none

/-- `PreparedFetchRequest`, its input known by its URL. -/
structure PreparedFetchRequest where
  init : Option FetchInit := none
  input : String

/-- A response, and what its body is read as. -/
structure Response (α : Type) where
  status : Nat
  text : String
  json : Except JsError α

/-- `response.ok`. -/
def Response.ok {α : Type} (response : Response α) : Prop :=
  200 ≤ response.status ∧ response.status ≤ 299

instance {α : Type} (response : Response α) : Decidable response.ok :=
  inferInstanceAs (Decidable (_ ∧ _))

/-- `withAuthorization`. -/
def withAuthorization (init : Option FetchInit) (authorization : String) : FetchInit :=
  let init := init.getD {}
  { init with
    headers := init.headers.filter (·.1.toLower ≠ "authorization") ++
      [("authorization", authorization)] }

/-- `formatAmount`. -/
def formatAmount (value : AmountLike) (name : String) : Thrown String := do
  let amount ← parseAmount value name
  return toString amount

/-! ## Sessions that were opened -/

/-- `SessionOpenResult`; a session is an object, known by its identity. -/
structure SessionOpenResult where
  payload : Json
  session : Nat
  source : Option String := none

/-- `SessionFetchOpenState`. -/
structure SessionFetchOpenState extends SessionOpenResult where
  authorization : String
  challenge : Json
  commitUrl : String

/-- A session that was opened, what was recorded for it since and what was committed on it. -/
structure Opening extends SessionFetchOpenState where
  recorded : List Nat := []
  committed : List Nat := []

/-- The payload of the credential. -/
inductive SessionAction : Type
  | opening (payload : Json)
  | commit (deliveryId : String) (voucher : SignedVoucher)

/-- The parameters of the client; how a URL is resolved and a credential written is not its own. -/
structure SessionFetchClient where
  liveCommitIntervalMs : Int := 1000
  prepareRequest : PreparedFetchRequest → PreparedFetchRequest := id
  selectChallenge : Response Json → Thrown (Option Json)
  resolveUrl : String → String → Thrown String
  serializeCredential : Json → SessionAction → Option String → String

/-- `RecordOptions`. -/
structure RecordOptions where
  deltaAmount : Option AmountLike := none
  force : Bool := false

/-- The fields of the client; `commitQueue` holds the commits that wait for their turn, and
`openings` ends with the session that is open. -/
structure FetchState where
  commitFailure : Option (Failure JsError) := none
  commitQueue : List Nat := []
  committing : Bool := false
  lastCommitQueuedAt : Int := 0
  lastQueuedCumulative : Nat := 0
  openings : List Opening := []
  sessions : Nat → ActiveSession
  targetCumulative : Option Nat := none
  trailingCommitTimer : Bool := false

namespace FetchState
variable (s : FetchState)

/-- `throwCommitFailure`. -/
def throwCommitFailure : Thrown Unit :=
  match s.commitFailure with
  | some failure => .error failure
  | none => return ()

/-- `requireOpen`. -/
def requireOpen : Thrown Opening :=
  okOrElse s.openings.getLast? { message := "session has not been opened yet" }

/-- The watermark of a session. -/
def cumulative (opened : SessionOpenResult) : Nat := (s.sessions opened.session).cumulative

/-- `queueCommit`. -/
def queueCommit (target : Nat) : FetchState :=
  if target ≤ s.lastQueuedCumulative then s
  else { s with lastQueuedCumulative := target, commitQueue := s.commitQueue ++ [target] }

/-- `clearTrailingCommit`. -/
def clearTrailingCommit : FetchState := { s with trailingCommitTimer := false }

/-- `scheduleTrailingCommit`. -/
def scheduleTrailingCommit : FetchState := { s with trailingCommitTimer := true }

/-- The callback of the timer. -/
def trailingCommit (now : Int) : FetchState :=
  if s.trailingCommitTimer then
    let s := s.clearTrailingCommit
    match s.targetCumulative with
    | none => s
    | some target => { s with lastCommitQueuedAt := now }.queueCommit target
  else s

/-- An opening, changed. -/
def modifyOpening (i : Nat) (f : Opening → Opening) : FetchState :=
  { s with openings := s.openings.modify i f }

/-- The target that `recordCumulative` sets, for the session that is open. -/
def recordTarget (target : Nat) : FetchState :=
  let s := s.modifyOpening (s.openings.length - 1) fun o => { o with recorded := target :: o.recorded }
  { s with targetCumulative := some (match s.targetCumulative with
      | none => target
      | some highest => if target > highest then target else highest) }

/-- The first checks of `recordCumulative`. -/
def recordable (cumulativeAmount : AmountLike) : Thrown (Opening × Nat) := do
  let _ ← s.throwCommitFailure
  let opened ← s.requireOpen
  let target ← parseAmount cumulativeAmount "cumulativeAmount"
  return (opened, target)

/-- The end of `recordCumulative`: a commit now, or when the timer fires. -/
def commitOrSchedule (client : SessionFetchClient) (target : Nat) (force : Bool) (now : Int) :
    FetchState :=
  if force ∨ now - s.lastCommitQueuedAt ≥ client.liveCommitIntervalMs then
    { s.clearTrailingCommit with lastCommitQueuedAt := now }.queueCommit target
  else s.scheduleTrailingCommit

/-- `recordCumulative`; it throws at a delta it cannot read, the target being set. -/
def recordCumulative (client : SessionFetchClient) (cumulativeAmount : AmountLike)
    (options : RecordOptions) (now : Int) : FetchState × Thrown Unit :=
  match s.recordable cumulativeAmount with
  | .error e => (s, .error e)
  | .ok (opened, target) =>
      let current := s.cumulative opened.toSessionOpenResult
      if target ≤ current then (s, .ok ())
      else
        let s := s.recordTarget target
        let delta := options.deltaAmount.getD (.bigint (target - current : Nat))
        match formatAmount delta "deltaAmount" with
        | .error e => (s, .error e)
        | .ok _ => (s.commitOrSchedule client target options.force now, .ok ())

/-- `flush` up to the commits it waits for. -/
def flush : FetchState × Thrown Unit :=
  match s.throwCommitFailure with
  | .error e => (s, .error e)
  | .ok _ =>
      match s.targetCumulative with
      | none => (s, .ok ())
      | some target => (s.clearTrailingCommit.queueCommit target, .ok ())

/-- A commit whose turn has come, with the session that is open. -/
structure Turn where
  target : Nat
  opening : Nat
  opened : Thrown Opening
  current : Nat

/-- The next commit of the queue begins, unless another is under way. -/
def takeCommit : FetchState × Option Turn :=
  match s.committing, s.commitQueue with
  | false, target :: commitQueue =>
      ({ s with committing := true, commitQueue }, some {
        target
        opening := s.openings.length - 1
        opened := s.requireOpen
        current := s.openings.getLast?.elim 0 fun o => s.cumulative o.toSessionOpenResult })
  | _, _ => (s, none)

/-- A commit has ended. -/
def settle (outcome : Thrown (Option CommitReceipt)) : FetchState :=
  { s with
    committing := false
    commitFailure := match outcome with
      | .ok _ => s.commitFailure
      | .error e => some e }

end FetchState

/-! ## The client -/

/-- What a call asks of the fields of the client and of its surroundings. -/
inductive FetchOp : Type
  | throwCommitFailure
  | fetch (request : PreparedFetchRequest)
  | opener (challenge : Json)
  | opened (opened : SessionFetchOpenState)
  | resync (opened : SessionOpenResult)
  | recordCumulative (cumulativeAmount : AmountLike) (options : RecordOptions)
  | flush
  | commitQueue
  | trailingCommit
  | takeCommit
  | defaultDeliveryId
  | reserveDelivery (request : PreparedFetchRequest)
  | session (session : Nat)
  | signMessages (message : List UInt8)
  | requireOpen
  | commitDelivery (opening target : Nat) (request : PreparedFetchRequest)
  | recordVoucher (session : Nat) (voucher : SignedVoucher)
  | settle (outcome : Thrown (Option CommitReceipt))

/-- The answers. -/
def FetchOp.Answer : FetchOp → Type
  | .throwCommitFailure => Thrown Unit
  | .fetch _ => Except JsError (Response Json)
  | .opener _ => Except JsError SessionOpenResult
  | .opened _ => Unit
  | .resync _ => Unit
  | .recordCumulative _ _ => Thrown Unit
  | .flush => Thrown Unit
  | .commitQueue => Option CommitReceipt
  | .trailingCommit => Unit
  | .takeCommit => Option FetchState.Turn
  | .defaultDeliveryId => String
  | .reserveDelivery _ => Except JsError (Response MeteringDirective)
  | .session _ => ActiveSession
  | .signMessages _ => Signed
  | .requireOpen => Thrown Opening
  | .commitDelivery _ _ _ => Except JsError (Response CommitReceipt)
  | .recordVoucher _ _ => Thrown Unit
  | .settle _ => Unit

/-- The interface of the client. -/
abbrev fetchInterface : Interface := ⟨FetchOp, FetchOp.Answer⟩

/-- What comes from outside at an operation. -/
structure FetchInput where
  now : Int
  fetch : Except JsError (Response Json)
  opener : Except JsError SessionOpenResult
  commitQueue : Option CommitReceipt
  defaultDeliveryId : String
  reserveDelivery : Except JsError (Response MeteringDirective)
  signed : Signed
  commitDelivery : Except JsError (Response CommitReceipt)

/-- What an operation does to the fields of the client. -/
def fetchHandler (client : SessionFetchClient) : Handler fetchInterface FetchState FetchInput
  | .throwCommitFailure, _, s => (s, s.throwCommitFailure)
  | .fetch _, x, s => (s, x.fetch)
  | .opener _, x, s => (s, x.opener)
  | .opened opened, _, s =>
      ({ s with openings := s.openings ++ [{ toSessionFetchOpenState := opened }] }, ())
  | .resync opened, _, s => ({ s with lastQueuedCumulative := s.cumulative opened }, ())
  | .recordCumulative cumulativeAmount options, x, s =>
      s.recordCumulative client cumulativeAmount options x.now
  | .flush, _, s => s.flush
  | .commitQueue, x, s => (s, x.commitQueue)
  | .trailingCommit, x, s => (s.trailingCommit x.now, ())
  | .takeCommit, _, s => s.takeCommit
  | .defaultDeliveryId, x, s => (s, x.defaultDeliveryId)
  | .reserveDelivery _, x, s => (s, x.reserveDelivery)
  | .session session, _, s => (s, s.sessions session)
  | .signMessages _, x, s => (s, x.signed)
  | .requireOpen, _, s => (s, s.requireOpen)
  | .commitDelivery opening target _, x, s =>
      (s.modifyOpening opening fun o => { o with committed := target :: o.committed },
        x.commitDelivery)
  | .recordVoucher session voucher, _, s =>
      let o := (s.sessions session).recordVoucher voucher
      ({ s with sessions := Function.update s.sessions session o.1 }, o.2)
  | .settle outcome, _, s => (s.settle outcome, ())

/-- A program of the client. -/
abbrev FetchM : Type → Type := ExceptT (Failure JsError) (Script fetchInterface)

namespace SessionFetchClient

/-- Perform one operation. -/
abbrev ask (op : FetchOp) : FetchM op.Answer := liftM (perform (F := fetchInterface) op)

variable (client : SessionFetchClient)

/-- `serializeSessionCredential`; an empty source is left out. -/
def serializeSessionCredential (challenge : Json) (payload : SessionAction)
    (source : Option String) : String :=
  client.serializeCredential challenge payload (truthy source)

/-- A response that is `ok`, as its body is read. -/
def okResponse {α : Type} (what : String) (answer : Except JsError (Response α)) : Thrown α := do
  let response ← orThrow answer
  throwIf (¬ response.ok) s!"{what} returned {response.status}: {response.text}"
  orThrow response.json

/-- `fetchWithSession` from the challenge on. -/
def paidRetry (request : PreparedFetchRequest) (challenge : Json) : FetchM (Response Json) := do
  let answer ← ask (.opener challenge)
  let opened ← orThrow answer
  let authorization :=
    client.serializeSessionCredential challenge (.opening opened.payload) opened.source
  let _ ← ask (.opened {
    toSessionOpenResult := opened
    authorization
    challenge
    commitUrl := request.input })
  let retry := client.prepareRequest { request with init := withAuthorization request.init authorization }
  let answer ← ask (.fetch retry)
  let retryResponse ← orThrow answer
  if retryResponse.ok then
    let _ ← ask (.resync opened)
    return retryResponse
  else
    return retryResponse

/-- `fetchWithSession`. -/
def fetchWithSession (request : PreparedFetchRequest) : FetchM (Response Json) := do
  let failure : Thrown Unit ← ask .throwCommitFailure
  let _ ← failure
  let answer ← ask (.fetch (client.prepareRequest request))
  let response ← orThrow answer
  if response.status ≠ 402 then
    return response
  else
    let challenge ← client.selectChallenge response
    match challenge with
    | none => return response
    | some challenge => client.paidRetry request challenge

/-- `flush`. -/
def flush : FetchM (Option CommitReceipt) := do
  let queued : Thrown Unit ← ask .flush
  let _ ← queued
  let receipt ← ask .commitQueue
  let failure : Thrown Unit ← ask .throwCommitFailure
  let _ ← failure
  return receipt

/-- `recordCumulative`. -/
def recordCumulative (cumulativeAmount : AmountLike) (options : RecordOptions) : FetchM Unit := do
  let recorded : Thrown Unit ← ask (.recordCumulative cumulativeAmount options)
  let _ ← recorded
  return ()

/-- `commitCumulative`. -/
def commitCumulative (cumulativeAmount : AmountLike) : FetchM (Option CommitReceipt) := do
  let _ ← recordCumulative cumulativeAmount { force := true }
  flush

/-- The headers of a request of the client. -/
def headers (authorization : Option String) : List (String × String) :=
  [("accept", "application/json")] ++ authorization.toList.map (("authorization", ·)) ++
    [("content-type", "application/json")]

/-- `reserveDelivery`. -/
def reserveDelivery (amount commitUrl deliveryId channelId : String) : FetchM MeteringDirective := do
  let url ← client.resolveUrl "/__402/session/deliveries" commitUrl
  let answer ← ask (.reserveDelivery {
    input := url
    init := some {
      method := some "POST"
      headers := headers none
      body := some (.obj [("amount", .str amount), ("commitUrl", .str commitUrl),
        ("deliveryId", .str deliveryId), ("sessionId", .str channelId)]) } })
  okResponse "delivery reservation" answer

/-- The URL a delivery is committed at. -/
def commitUrl (directive : MeteringDirective) : FetchM String :=
  match directive.commitUrl with
  | some url => return url
  | none => do
      let answer : Thrown Opening ← ask .requireOpen
      let opened ← answer
      return opened.commitUrl

/-- `commitDelivery`. -/
def commitDelivery (opening target : Nat) (amount authorization : String)
    (directive : MeteringDirective) : FetchM CommitReceipt := do
  let url ← commitUrl directive
  let answer ← ask (.commitDelivery opening target {
    input := url
    init := some {
      method := some "POST"
      headers := headers (some authorization)
      body := some (.obj [("amount", .str amount), ("deliveryId", .str directive.deliveryId)]) } })
  okResponse "session commit" answer

/-- `commitTarget`. -/
def commitTarget (turn : FetchState.Turn) : FetchM (Option CommitReceipt) := do
  let opened ← turn.opened
  if turn.target ≤ turn.current then
    return none
  else
    let amount := toString (turn.target - turn.current)
    let deliveryId ← ask .defaultDeliveryId
    let reserved ← ask (.session opened.session)
    let directive ← client.reserveDelivery amount opened.commitUrl deliveryId reserved.channelId
    let session ← ask (.session opened.session)
    let voucher ← session.prepareVoucher (fun bytes => ask (.signMessages bytes)) (.bigint turn.target)
    let authorization := client.serializeSessionCredential opened.challenge
      (.commit directive.deliveryId voucher) opened.source
    let receipt ← commitDelivery turn.opening turn.target amount authorization directive
    let recorded : Thrown Unit ← ask (.recordVoucher opened.session voucher)
    let _ ← recorded
    return some receipt

/-- The callbacks of the queue: a commit, and what its failure leaves. -/
def nextCommit : Script fetchInterface Unit :=
  perform (F := fetchInterface) .takeCommit >>= fun turn =>
    match (turn : Option FetchState.Turn) with
    | none => .done ()
    | some turn => (client.commitTarget turn).run >>= fun outcome =>
        perform (F := fetchInterface) (.settle outcome)

/-- A call of the app, a timer that fires, or the queue going on. -/
inductive Task : Type
  | fetch (request : PreparedFetchRequest)
  | recordCumulative (cumulativeAmount : AmountLike) (options : RecordOptions)
  | commitCumulative (cumulativeAmount : AmountLike)
  | flush
  | trailingCommit
  | nextCommit

/-- What a task ends in. -/
inductive Outcome : Type
  | response (r : Thrown (Response Json))
  | receipt (r : Thrown (Option CommitReceipt))
  | ended (r : Thrown Unit)

/-- The program of a task. -/
def task : Task → Script fetchInterface Outcome
  | .fetch request => (client.fetchWithSession request).run >>= fun r => .done (.response r)
  | .recordCumulative cumulativeAmount options =>
      (recordCumulative cumulativeAmount options).run >>= fun r => .done (.ended r)
  | .commitCumulative cumulativeAmount =>
      (commitCumulative cumulativeAmount).run >>= fun r => .done (.receipt r)
  | .flush => flush.run >>= fun r => .done (.receipt r)
  | .trailingCommit =>
      perform (F := fetchInterface) .trailingCommit >>= fun _ => .done (.ended (.ok ()))
  | .nextCommit => client.nextCommit >>= fun _ => .done (.ended (.ok ()))

/-- The client, and the tasks so far. -/
abbrev Tasks : Type := Pool fetchInterface FetchState Task Outcome

/-- A task begins, or one that is pending goes on. -/
abbrev Event : Type := Pool.Event Task FetchInput

/-- Every interleaving of tasks, over sessions that are yet to be opened. -/
def machine (sessions : Nat → ActiveSession) : Machine Tasks Event :=
  Pool.machine (fetchHandler client) client.task { sessions }

instance decidableGuarded {C : FetchOp → FetchState → Prop} [∀ op s, Decidable (C op s)]
    (sessions : Nat → ActiveSession) (run : List Event) :
    Decidable ((client.machine sessions).Guarded (Pool.Guard C) run) :=
  have : ∀ (p : Tasks) (e : Event), Decidable (Pool.Guard C p e) :=
    fun p e => Pool.decidableGuard p e
  Machine.decidableGuarded run

end SessionFetchClient

/-! ## What the client is to keep -/

namespace FetchState

/-- What is committed on an opened session is within what was recorded for it. -/
def WithinRecorded (s : FetchState) : Prop :=
  ∀ o ∈ s.openings, ∀ n ∈ o.committed, ∃ m ∈ o.recorded, n ≤ m

instance (s : FetchState) : Decidable s.WithinRecorded :=
  inferInstanceAs (Decidable (∀ o ∈ s.openings, ∀ n ∈ o.committed, ∃ m ∈ o.recorded, n ≤ m))

/-- The amounts that may yet be committed: the queue, and a target that is still to be queued. -/
def pending (s : FetchState) : List Nat :=
  s.commitQueue ++ s.targetCumulative.toList.filter (s.lastQueuedCumulative < ·)

/-- The amount is recorded for the session that is open, or within its watermark. -/
def Covers (s : FetchState) (n : Nat) : Prop :=
  ∃ o ∈ s.openings.getLast?, n ≤ s.cumulative o.toSessionOpenResult ∨ ∃ m ∈ o.recorded, n ≤ m

instance (s : FetchState) (n : Nat) : Decidable (s.Covers n) :=
  inferInstanceAs (Decidable (∃ o ∈ s.openings.getLast?, _ ∨ _))

/-- No amount of another session is carried over: a session is opened with a watermark no less
than the amounts that may yet be committed, and the retry resumes from a watermark no less than
the target, unless that is the open session's own. -/
def CarriesNothing : FetchOp → FetchState → Prop
  | .opened opened, s => ∀ n ∈ s.pending, n ≤ s.cumulative opened.toSessionOpenResult
  | .resync opened, s => ∀ n ∈ s.targetCumulative, n ≤ s.cumulative opened ∨ s.Covers n
  | _, _ => True

instance (s : FetchState) : ∀ op, Decidable (CarriesNothing op s)
  | .opened opened =>
      inferInstanceAs (Decidable (∀ n ∈ s.pending, n ≤ s.cumulative opened.toSessionOpenResult))
  | .resync opened =>
      inferInstanceAs (Decidable (∀ n ∈ s.targetCumulative, n ≤ s.cumulative opened ∨ s.Covers n))
  | .throwCommitFailure | .fetch _ | .opener _ | .recordCumulative _ _ | .flush | .commitQueue
  | .trailingCommit | .takeCommit | .defaultDeliveryId | .reserveDelivery _ | .session _
  | .signMessages _ | .requireOpen | .commitDelivery _ _ _ | .recordVoucher _ _ | .settle _ =>
      .isTrue trivial

end FetchState
end Ts
end MppSdk
