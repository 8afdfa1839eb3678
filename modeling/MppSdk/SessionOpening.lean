import MppSdk.PaymentChannels
import MppSdk.SessionServer
import MppSdk.SessionWire

/-! # Opening a payment channel

Both derivations of a channel's parameters: the client's, from the request of a challenge
(`client/payment_channels.rs`), and the server's, from its configuration
(`server/session.rs`). -/

namespace MppSdk

/-! ## The server -/

namespace SessionServer
variable (server : SessionServer)

/-- `build_challenge_request`. -/
def buildChallengeRequest (cap : UInt64) : SessionRequest :=
  let effectiveCap := min cap server.config.maxCap
  { cap := toString effectiveCap
    currency := server.config.currency
    decimals := some server.config.decimals
    network := some server.config.network
    operator := server.config.operator
    recipient := server.config.recipient
    splits := server.config.splits.map fun s => { recipient := s.recipient.toBase58, bps := s.bps }
    programId := server.config.programId.map (·.toBase58)
    minVoucherDelta :=
      if server.config.minVoucherDelta > 0 then some (toString server.config.minVoucherDelta)
      else none
    -- clients assume `Push` when the modes are absent
    modes := if server.config.modes = [.push] then [] else server.config.modes
    pullVoucherStrategy :=
      if server.config.modes.contains .pull then server.config.pullVoucherStrategy else none }

/-- `parse_payload_pubkey`. -/
def parsePayloadPubkey (value : Option String) (field : String) : RustResult Error Pubkey := do
  let value ← okOrElse value (.other s!"payment-channel open missing {field}")
  parsePubkeyField value field

/-- `payment_channel_open_params`. -/
def paymentChannelOpenParams (find : FindProgramAddress) (payload : OpenPayload) :
    RustResult Error OpenChannelParams := do
  let payer ← parsePayloadPubkey payload.payer "payer"
  let payee ← parsePayloadPubkey payload.payee "payee"
  let mint ← parsePayloadPubkey payload.mint "mint"
  let authorizedSigner ← parsePubkeyField payload.authorizedSigner "authorizedSigner"
  let salt ← okOrElse payload.salt (.other "payment-channel open missing salt")
  let gracePeriod ← okOrElse payload.gracePeriod
    (.other "payment-channel open missing gracePeriod")
  let deposit ← payload.depositAmount
  let tokenProgram ← parsePubkeyField
    (defaultTokenProgramForCurrency server.config.currency (some server.config.network))
    "token program"
  let programId := server.config.programId.getD defaultProgramId
  let expectedPayee ← parsePubkeyField server.config.recipient "recipient"
  let expectedMint ← expectedPaymentChannelMint server.config
  rejectIf (payee ≠ expectedPayee)
    (Error.other "payment-channel open payee does not match challenge recipient")
  rejectIf (mint ≠ expectedMint)
    (Error.other "payment-channel open mint does not match challenge currency")
  let recipients := server.config.splits.map fun split =>
    { recipient := split.recipient, bps := split.bps }
  let params : OpenChannelParams := {
    payer, payee, mint, authorizedSigner, salt, deposit, gracePeriod, recipients, tokenProgram
    programId }
  let expectedChannel := (deriveChannelAddresses find params).channel
  let channel ← parsePayloadPubkey payload.channelId "channelId"
  rejectIf (channel ≠ expectedChannel)
    (Error.other "payment-channel open channelId does not match derived channel PDA")
  return params

/-- `payment_channel_open_instruction`. -/
def paymentChannelOpenInstruction (find : FindProgramAddress) (payload : OpenPayload) :
    RustResult Error Instruction := do
  let params ← server.paymentChannelOpenParams find payload
  return buildOpenInstruction find params

end SessionServer

/-! ## The client -/

/-- `DEFAULT_GRACE_PERIOD_SECONDS`. -/
def DEFAULT_GRACE_PERIOD_SECONDS : UInt32 := 900

/-- `PaymentChannelOpen`. -/
structure PaymentChannelOpen where
  channelId : Pubkey
  payer : Pubkey
  payee : Pubkey
  mint : Pubkey
  authorizedSigner : Pubkey
  salt : UInt64
  deposit : UInt64
  gracePeriod : UInt32
  recipients : List Distribution
  tokenProgram : Pubkey
  programId : Pubkey
deriving DecidableEq

/-- `PaymentChannelOpenOptions`. -/
structure PaymentChannelOpenOptions where
  deposit : Option UInt64 := none
  gracePeriod : Option UInt32 := none
  programId : Option Pubkey := none
  recipients : Option (List Distribution) := none
  salt : Option UInt64 := none
  tokenProgram : Option Pubkey := none

/-- `DerivePaymentChannelOpenParams`. -/
structure DerivePaymentChannelOpenParams where
  request : SessionRequest
  payer : Pubkey
  authorizedSigner : Pubkey
  options : PaymentChannelOpenOptions := {}

/-- `OpenPayload::payment_channel_with_mode`. -/
def OpenPayload.paymentChannelWithMode (mode : SessionMode)
    (channelId deposit payer payee mint : String) (salt : UInt64) (gracePeriod : UInt32)
    (authorizedSigner signature : String) : OpenPayload where
  mode
  channelId := some channelId
  deposit := some deposit
  payer := some payer
  payee := some payee
  mint := some mint
  salt := some salt
  gracePeriod := some gracePeriod
  authorizedSigner
  signature

namespace PaymentChannelOpen

/-- `open_channel_params`. -/
def openChannelParams (opened : PaymentChannelOpen) : OpenChannelParams where
  payer := opened.payer
  payee := opened.payee
  mint := opened.mint
  authorizedSigner := opened.authorizedSigner
  salt := opened.salt
  deposit := opened.deposit
  gracePeriod := opened.gracePeriod
  recipients := opened.recipients
  tokenProgram := opened.tokenProgram
  programId := opened.programId

/-- `open_payload`. -/
def openPayload (opened : PaymentChannelOpen) (mode : SessionMode) (signature : String) :
    OpenPayload :=
  .paymentChannelWithMode mode opened.channelId.toBase58 (toString opened.deposit)
    opened.payer.toBase58 opened.payee.toBase58 opened.mint.toBase58 opened.salt
    opened.gracePeriod opened.authorizedSigner.toBase58 signature

end PaymentChannelOpen

namespace SessionRequest

/-- `parse_pubkey` of the client. -/
def parsePubkey (value label : String) : RustResult Error Pubkey :=
  okOrElse (Bytes.fromBase58 32 value) (.other s!"invalid {label}")

/-- `parse_u64_string`. -/
def parseU64String (value label : String) : RustResult Error UInt64 :=
  okOrElse (parseU64 value) (.other s!"invalid {label}")

/-- `parse_splits`. -/
def parseSplits (request : SessionRequest) : RustResult Error (List Distribution) :=
  request.splits.mapM fun split => do
    let recipient ← parsePubkey split.recipient "split recipient"
    return { recipient, bps := split.bps }

end SessionRequest

/-- `derive_payment_channel_open`; `uniqueSalt` is the salt that `unique_salt` draws. -/
def derivePaymentChannelOpen (find : FindProgramAddress) (uniqueSalt : UInt64)
    (params : DerivePaymentChannelOpenParams) : RustResult Error PaymentChannelOpen := do
  let request := params.request
  let network := request.network
  let resolved ← okOrElse (resolveStablecoinMint request.currency network)
    (.other "session payment channels require an SPL token")
  let mint ← SessionRequest.parsePubkey resolved "mint"
  let payee ← SessionRequest.parsePubkey request.recipient "recipient"
  let deposit ← match params.options.deposit with
    | some deposit => .ok deposit
    | none => SessionRequest.parseU64String request.cap "session cap"
  let gracePeriod := params.options.gracePeriod.getD DEFAULT_GRACE_PERIOD_SECONDS
  let programId ← match params.options.programId with
    | some programId => .ok programId
    | none => match request.programId with
      | some value => SessionRequest.parsePubkey value "programId"
      | none => .ok defaultProgramId
  let tokenProgram ← match params.options.tokenProgram with
    | some tokenProgram => .ok tokenProgram
    | none =>
        let value := defaultTokenProgramForCurrency request.currency network
        SessionRequest.parsePubkey value "token program"
  let recipients ← match params.options.recipients with
    | some recipients => .ok recipients
    | none => request.parseSplits
  let salt := params.options.salt.getD uniqueSalt
  let openParams : OpenChannelParams := {
    payer := params.payer, payee, mint, authorizedSigner := params.authorizedSigner, salt
    deposit, gracePeriod, recipients, tokenProgram, programId }
  let channelId := (deriveChannelAddresses find openParams).channel
  return {
    channelId
    payer := openParams.payer
    payee := openParams.payee
    mint := openParams.mint
    authorizedSigner := openParams.authorizedSigner
    salt := openParams.salt
    deposit := openParams.deposit
    gracePeriod := openParams.gracePeriod
    recipients := openParams.recipients
    tokenProgram := openParams.tokenProgram
    programId := openParams.programId }

end MppSdk
