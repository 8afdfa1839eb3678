import MppSdk.Interleaving
import MppSdk.SessionUpdates

/-! # The session server

`server/session.rs`: each operation as a script over the channel store.  A script is cut
where the code awaits the store, reads the clock or asks the RPC node; the closure of an
`update_channel` runs under the lock, in one operation.  `effect_cases` says once what
an operation does to the store, and `program_issues` what the server ever asks. -/

namespace MppSdk
open Script

/-! ## The surroundings -/

/-- What the session server asks of its surroundings. -/
inductive SessionOp : Type
  | getChannel (channelId : String)
  | putChannel (channelId : String) (state : ChannelState)
  | updateChannel (channelId : String) (updater : Updater)
  | markFinalized (channelId : String)
  | unixTime
  | signatureStatus (signature : Signature)

/-- `get_signature_status`: an RPC error, or the status of the transaction if it is known. -/
abbrev StatusReply : Type := Except String (Option (Except String Unit))

/-- The answers.  Reads and inserts of the in-memory store do not fail. -/
def SessionOp.Answer : SessionOp → Type
  | .getChannel _ => Option ChannelState
  | .putChannel _ _ => Unit
  | .updateChannel _ _ => Updated
  | .markFinalized _ => RustResult StoreError Unit
  | .unixTime => UInt64
  | .signatureStatus _ => StatusReply

/-- The interface of the session server. -/
abbrev sessionInterface : Interface := ⟨SessionOp, SessionOp.Answer⟩

/-- What comes from outside at an operation: the seconds since the epoch and the RPC
node's reply. -/
structure SessionInput where
  unixSecs : UInt64
  signatureStatus : StatusReply

/-- `unix_now_i64`. -/
def SessionInput.now (x : SessionInput) : Int64 := x.unixSecs.toInt64

/-- What an operation does to the store. -/
def sessionHandler (ed : Ed25519) : Handler sessionInterface ChannelStore SessionInput
  | .getChannel channelId, _, store => (store, store channelId)
  | .putChannel channelId state, _, store => (store.insert channelId state, ())
  | .updateChannel channelId updater, x, store =>
      store.updateChannel channelId (updater.apply ed x.now)
  | .markFinalized channelId, _, store => store.markFinalized channelId
  | .unixTime, x, store => (store, x.unixSecs)
  | .signatureStatus _, x, store => (store, x.signatureStatus)

/-- A program of the session server. -/
abbrev SessionM : Type → Type := ExceptT (Failure Error) (Script sessionInterface)

/-- Perform one operation. -/
abbrev ask (op : SessionOp) : SessionM op.Answer := liftM (perform (F := sessionInterface) op)

/-- `store_err`. -/
def storeErr (e : StoreError) : Error := .other e.text

/-- The session server: its configuration, and the signature scheme and hash it calls. -/
structure SessionServer where
  config : SessionConfig
  ed : Ed25519
  blake3 : List UInt8 → Hash

namespace SessionServer
variable (server : SessionServer)

/-! ## The operations -/

/-- `supports_mode` of `process_open`. -/
def supportsMode (mode : SessionMode) : Bool :=
  if server.config.modes.isEmpty then mode = .push else server.config.modes.contains mode

/-- The answer of the RPC node in `verify_open_signature`. -/
def openStatus (sigStr : String) : StatusReply → RustResult Error Unit
  | .error e => .error (.error (.other s!"RPC error verifying open tx: {e}"))
  | .ok (some (.ok ())) => .ok ()
  | .ok (some (.error e)) => .error (.error (.other s!"open tx was rejected on-chain: {e}"))
  | .ok none => .error (.error (.other
      s!"open tx '{sigStr}' not found — not yet confirmed or does not exist"))

/-- `verify_open_signature`. -/
def verifyOpenSignature (sigStr : String) : SessionM Unit := do
  let sig ← okOrElse (Bytes.fromBase58 64 sigStr)
    (Error.other s!"invalid open tx signature '{sigStr}'")
  let reply ← ask (.signatureStatus sig)
  openStatus sigStr reply

/-- The state of a channel that was just opened. -/
def openedState (channelId authorizedSigner : String) (deposit : UInt64)
    (operator : Option String) : ChannelState :=
  { channelId
    authorizedSigner
    deposit
    cumulative := 0
    finalized := false
    highestVoucherSignature := none
    highestVoucherExpiresAt := none
    closeRequestedAt := none
    operator
    nextDeliverySequence := 0
    pendingDeliveries := []
    committedDeliveries := [] }

/-- The on-chain check of `process_open`: a push open, when an RPC url is configured. -/
def confirmOpen (payload : OpenPayload) : SessionM Unit :=
  if payload.mode = .push ∧ server.config.rpcUrl.isSome then
    verifyOpenSignature payload.signature
  else
    return ()

/-- `process_open`. -/
def processOpen (payload : OpenPayload) : SessionM ChannelState := do
  rejectIf (server.supportsMode payload.mode = false)
    (Error.other s!"Session mode {payload.mode.debug} is not supported by this challenge")
  let sessionId ← payload.sessionId
  let deposit ← payload.depositAmount
  rejectIf (deposit = 0) (Error.other "Deposit must be greater than zero")
  rejectIf (deposit > server.config.maxCap)
    (Error.other s!"Deposit {deposit} exceeds max cap {server.config.maxCap}")
  server.confirmOpen payload
  let state := openedState sessionId payload.authorizedSigner deposit
    (payload.owner.or payload.payer)
  ask (.putChannel sessionId state)
  return state

/-- `verify_voucher`. -/
def verifyVoucher (payload : VoucherPayload) : SessionM UInt64 := do
  let voucher := payload.voucher
  let channelId := voucher.data.channelId
  let newCumulative ← okOrElse (parseU64 voucher.data.cumulative)
    (Error.other "Invalid cumulative in voucher")
  let snapshot ← ask (.getChannel channelId)
  let state ← okOrElse snapshot (Error.other s!"Channel {channelId} not found")
  rejectIf (state.finalized = true) (Error.other "Channel is already finalized")
  rejectIf (state.closeRequestedAt.isSome = true)
    (Error.other "Channel close is pending — no further vouchers accepted")
  if newCumulative = state.cumulative ∧
      state.highestVoucherSignature = some voucher.signature then
    let now ← ask .unixTime
    verifySignature server.ed now.toInt64 voucher state.authorizedSigner
    return newCumulative
  else
    rejectIf (newCumulative ≤ state.cumulative)
      (Error.other
        s!"Voucher cumulative {newCumulative} must exceed watermark {state.cumulative}")
    rejectIf (newCumulative > state.deposit)
      (Error.other s!"Voucher cumulative {newCumulative} exceeds deposit {state.deposit}")
    let delta := newCumulative - state.cumulative
    let min := server.config.minVoucherDelta
    rejectIf (min > 0 ∧ delta < min)
      (Error.other s!"Voucher delta {delta} is below minimum {min}")
    let now ← ask .unixTime
    verifySignature server.ed now.toInt64 voucher state.authorizedSigner
    let updated ← ask (.updateChannel channelId (.voucher {
      newCumulative
      sig := voucher.signature
      expiresAt := voucher.data.expiresAt }))
    let newState ← mapErr storeErr updated
    return newState.1.cumulative

/-- `process_topup`. -/
def processTopup (payload : TopUpPayload) : SessionM ChannelState := do
  let newDeposit ← okOrElse (parseU64 payload.newDeposit) (Error.other "Invalid new_deposit")
  let updated ← ask (.updateChannel payload.channelId (.topup {
    cid := payload.channelId
    newDeposit
    maxCap := server.config.maxCap }))
  let newState ← mapErr storeErr updated
  return newState.1

/-- `begin_delivery`. -/
def beginDelivery (request : DeliveryRequest) : SessionM MeteringDirective := do
  rejectIf (request.amount = 0) (Error.other "Delivery amount must be greater than zero")
  let updated ← ask (.updateChannel request.sessionId (.delivery {
    sessionId := request.sessionId
    amount := request.amount
    currency := server.config.currency
    commitUrl := request.commitUrl
    proof := request.proof
    requestedDeliveryId := request.deliveryId
    expiresAt := request.expiresAt.getD DEFAULT_SESSION_EXPIRES_AT }))
  let newState ← mapErr storeErr updated
  okOrElse newState.2.directiveOut
    (Error.other "Delivery reservation did not produce directive")

/-- The receipt of a commit from its outcome. -/
def commitReceipt (deliveryId sessionId : String) (amount cumulative : UInt64)
    (status : CommitStatus) : CommitReceipt :=
  { deliveryId, sessionId, amount := toString amount, cumulative := toString cumulative, status }

/-- `process_commit`. -/
def processCommit (payload : CommitPayload) : SessionM CommitReceipt := do
  let voucher := payload.voucher
  let channelId := voucher.data.channelId
  let newCumulative ← okOrElse (parseU64 voucher.data.cumulative)
    (Error.other "Invalid cumulative in commit voucher")
  let snapshot ← ask (.getChannel channelId)
  let state ← okOrElse snapshot (Error.other s!"Channel {channelId} not found")
  match state.committedDeliveries.find? (·.deliveryId = payload.deliveryId) with
  | some committed =>
      rejectIf (¬ (committed.cumulative = newCumulative ∧
          committed.voucherSignature = voucher.signature))
        (Error.other
          s!"Delivery {payload.deliveryId} was already committed with different voucher")
      let now ← ask .unixTime
      verifySignature server.ed now.toInt64 voucher state.authorizedSigner
      return commitReceipt payload.deliveryId channelId committed.amount committed.cumulative
        .replayed
  | none =>
      let pending ← okOrElse
        (state.pendingDeliveries.find? (·.deliveryId = payload.deliveryId))
        (Error.other s!"Delivery {payload.deliveryId} not found")
      let now ← ask .unixTime
      rejectIf (pending.expiresAt ≤ now.toInt64)
        (Error.other s!"Delivery {payload.deliveryId} has expired")
      rejectIf (newCumulative ≤ state.cumulative)
        (Error.other
          s!"Commit cumulative {newCumulative} must exceed watermark {state.cumulative}")
      -- `verify_signature` reads the clock again; the closure keeps the first reading
      let signatureNow ← ask .unixTime
      verifySignature server.ed signatureNow.toInt64 voucher state.authorizedSigner
      let updated ← ask (.updateChannel channelId (.commit {
        channelId
        deliveryId := payload.deliveryId
        newCumulative
        signature := voucher.signature
        expiresAt := voucher.data.expiresAt
        now := now.toInt64 }))
      let newState ← mapErr storeErr updated
      let outcome ← okOrElse newState.2.commitOutcome
        (Error.other "Commit did not produce a receipt")
      return commitReceipt payload.deliveryId channelId outcome.1 outcome.2.1 outcome.2.2

/-- The parameters for a stored channel, once its id and the recipient are keys. -/
def settlementOf (channelId recipient : Pubkey) (state : ChannelState) : FinalizeParams :=
  { channelId
    authorizedSigner := (parsePubkey state.authorizedSigner).toOption
    payer := state.operator.bind fun payer => (parsePubkey payer).toOption
    mint := (expectedPaymentChannelMint server.config).toOption
    programId := server.config.programId.getD defaultProgramId
    settled := state.cumulative
    voucherSignature := state.highestVoucherSignature
    voucherExpiresAt := state.highestVoucherExpiresAt
    recipient
    splits := server.config.splits
    distributionHash := MppSdk.distributionHash server.blake3 server.config.splits }

/-- `finalize_params`. -/
def finalizeParams (channelId : String) : SessionM FinalizeParams := do
  let snapshot ← ask (.getChannel channelId)
  let state ← okOrElse snapshot (Error.other s!"Channel {channelId} not found")
  let channelPubkey ← parsePubkey channelId
  let recipientPubkey ← parsePubkey server.config.recipient
  return server.settlementOf channelPubkey recipientPubkey state

/-- `process_close`. -/
def processClose (payload : ClosePayload) : SessionM FinalizeParams := do
  let now ← ask .unixTime
  let updated ← ask (.updateChannel payload.channelId (.close {
    now
    voucherOpt := payload.voucher }))
  let _ ← mapErr storeErr updated
  server.finalizeParams payload.channelId

/-- `mark_finalized`. -/
def markFinalized (channelId : String) : SessionM Unit := do
  let marked ← ask (.markFinalized channelId)
  mapErr storeErr marked

/-! ## Calls -/

/-- A call of the session server. -/
inductive Call : Type
  | processOpen (payload : OpenPayload)
  | verifyVoucher (payload : VoucherPayload)
  | processTopup (payload : TopUpPayload)
  | beginDelivery (request : DeliveryRequest)
  | processCommit (payload : CommitPayload)
  | processClose (payload : ClosePayload)
  | finalizeParams (channelId : String)
  | markFinalized (channelId : String)

/-- What a call returns when it succeeds. -/
inductive Reply : Type
  | opened (state : ChannelState)
  | accepted (cumulative : UInt64)
  | toppedUp (state : ChannelState)
  | reserved (directive : MeteringDirective)
  | committed (receipt : CommitReceipt)
  | closing (params : FinalizeParams)
  | finalized

/-- The program of a call. -/
def program : Call → Script sessionInterface (RustResult Error Reply)
  | .processOpen payload => (Reply.opened <$> server.processOpen payload).run
  | .verifyVoucher payload => (Reply.accepted <$> server.verifyVoucher payload).run
  | .processTopup payload => (Reply.toppedUp <$> server.processTopup payload).run
  | .beginDelivery request => (Reply.reserved <$> server.beginDelivery request).run
  | .processCommit payload => (Reply.committed <$> server.processCommit payload).run
  | .processClose payload => (Reply.closing <$> server.processClose payload).run
  | .finalizeParams channelId => (Reply.closing <$> server.finalizeParams channelId).run
  | .markFinalized channelId =>
      ((fun _ => Reply.finalized) <$> SessionServer.markFinalized channelId).run

/-- The store and the calls on it. -/
abbrev Sessions : Type :=
  Pool sessionInterface ChannelStore Call (RustResult Error Reply)

/-- A call begins, or one in progress performs its next operation. -/
abbrev Event : Type := Pool.Event Call SessionInput

/-- Every interleaving of calls on an empty store. -/
def machine : Machine Sessions Event :=
  Pool.machine (sessionHandler server.ed) server.program (fun _ => none)

instance decidableGuarded {C : SessionOp → ChannelStore → Prop}
    [∀ op store, Decidable (C op store)] (run : List Event) :
    Decidable (server.machine.Guarded (Pool.Guard C) run) :=
  have : ∀ (p : Sessions) (e : Event), Decidable (Pool.Guard C p e) :=
    fun p e => Pool.decidableGuard p e
  Machine.decidableGuarded run

/-! ## A server for closed runs -/

/-- The default configuration with a recipient, and the stand-in signature scheme. -/
def sampleServer : SessionServer where
  config := { recipient := "11111111111111111111111111111111" }
  ed := checksumScheme
  blake3 _ := .replicate 32 0

/-- The open of the sample channel, with a deposit of 100. -/
def sampleOpen : OpenPayload where
  mode := .push
  channelId := some "11111111111111111111111111111111"
  deposit := some "100"
  authorizedSigner := "11111111111111111111111111111112"
  signature := ""

/-- The voucher of the sample channel for 100. -/
def voucher100 : SignedVoucher where
  data := { channelId := "11111111111111111111111111111111", cumulative := "100", expiresAt := 1 }
  signature := "1111111111111111111111111111111111111111111111111111111111111112m"

/-- The call at a position performs its next operations, all at one time. -/
def steps (position count : Nat) (unixSecs : UInt64 := 0) : List Event :=
  List.replicate count (.step position ⟨unixSecs, .ok none⟩)

end SessionServer
end MppSdk
