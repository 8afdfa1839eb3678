import MppSdk.ChallengeBinding
import MppSdk.Credentials

/-! # Routes that are paid for

`charge_with_options` of `server/charge.rs` and the extractor of `server/axum.rs`: every request
on a route gets a challenge for the price of the route.  A request with a credential is verified
against that price, whatever its own challenge says; one without, or with one that fails, is
answered with the challenge. -/

namespace MppSdk
open Script

/-! ## Requests in JSON -/

/-- The fields of a `Split` in JSON. -/
def Split.jsonFields (split : Split) : List (String × Option Json) :=
  [("recipient", some (.str split.recipient)), ("amount", some (.str split.amount)),
    ("ataCreationRequired", split.ataCreationRequired.map .bool),
    ("label", split.label.map .str), ("memo", split.memo.map .str)]

/-- `Split` to JSON. -/
def Split.toJson (split : Split) : Json := .object split.jsonFields

/-- The fields of a `ChargeRequest` in JSON. -/
def ChargeRequest.jsonFields (request : ChargeRequest) : List (String × Option Json) :=
  [("amount", some (.str request.amount)), ("currency", some (.str request.currency)),
    ("recipient", request.recipient.map .str), ("description", request.description.map .str),
    ("externalId", request.externalId.map .str), ("methodDetails", request.methodDetails)]

/-- `ChargeRequest` to JSON. -/
def ChargeRequest.toJson (request : ChargeRequest) : Json := .object request.jsonFields

/-! ## Charging -/

/-- `ChargeOptions`. -/
structure ChargeOptions where
  description : Option String := none
  externalId : Option String := none
  expires : Option String := none
  feePayer : Bool := false
  splits : List Split := []

/-- `Error`, as far as a charge has it. -/
inductive ChargeError : Type
  | invalidConfig (message : String)
  | other (e : Error)
deriving DecidableEq

/-- `Display` of an error. -/
def ChargeError.text : ChargeError → String
  | .invalidConfig message => s!"Invalid configuration: {message}"
  | .other e => e.text

/-- `Mpp`, with what it needs to charge. -/
structure ChargingMpp extends Mpp where
  decimals : UInt8
  feePayer : Bool

namespace ChargingMpp
variable (server : ChargingMpp) (canonicalize : Json → Option String)

/-- `validate_charge_options`. -/
def validateChargeOptions (options : ChargeOptions) : RustResult ChargeError Unit :=
  if options.splits.all (·.ataCreationRequired ≠ some true) then .ok ()
  else do
    rejectIf (Mpp.eqIgnoreAsciiCase server.currency "SOL")
      (.invalidConfig "ataCreationRequired requires an SPL token currency")
    rejectIf (resolveStablecoinMint server.currency (some server.network) ≠ some server.currency)
      (.invalidConfig "ataCreationRequired requires currency to be an SPL token mint address")
    let _mint ← okOrElse (Bytes.fromBase58 32 server.currency)
      (.invalidConfig "ataCreationRequired requires a valid SPL token mint address: ")
    return ()

/-- The fee is paid by the server. -/
def sponsors (options : ChargeOptions) : Bool := options.feePayer || server.feePayer

/-- The method details of `charge_with_options`; `blockhash` is what the node has answered. -/
def detailFields (options : ChargeOptions) (blockhash : Option String) :
    List (String × Option Json) :=
  [("network", some (.str server.network)),
    ("decimals", some (.unsigned server.decimals.toUInt64)),
    ("feePayer", if server.sponsors options then some (.bool true) else none),
    ("feePayerKey", if server.sponsors options then
      server.feePayerSigner.map fun signer => .str signer.toBase58 else none),
    ("tokenProgram", if toUppercase server.currency ≠ "SOL" then
      some (.str (defaultTokenProgramForCurrency server.currency (some server.network)))
      else none),
    ("splits", Json.nonEmpty Split.toJson options.splits),
    ("recentBlockhash", blockhash.map .str)]

/-- The request of `charge_with_options`. -/
def chargeRequest (amount : String) (options : ChargeOptions) (blockhash : Option String) :
    RustResult ChargeError ChargeRequest := do
  server.validateChargeOptions options
  let baseUnits ← mapErr ChargeError.other (parseUnits amount server.decimals)
  return {
    amount := baseUnits
    currency := server.currency
    recipient := some server.recipient
    description := options.description
    externalId := options.externalId
    methodDetails := some (.object (server.detailFields options blockhash)) }

/-- The end of `charge_with_options`, which reads the clock. -/
def challengeFor (request : ChargeRequest) (options : ChargeOptions) (now : Int) :
    RustResult ChargeError PaymentChallenge :=
  okOrElse (server.chargeChallengeWithOptions (canonicalize ∘ ChargeRequest.toJson) now request
    options.expires options.description) (.other (.other "Canonical JSON failed: "))

/-- `charge_with_options`, at the time `now`. -/
def chargeWithOptions (amount : String) (options : ChargeOptions) (blockhash : Option String)
    (now : Int) : RustResult ChargeError PaymentChallenge := do
  let request ← server.chargeRequest amount options blockhash
  server.challengeFor canonicalize request options now

end ChargingMpp

/-! ## The extractor -/

/-- `ChargeConfig`: the price of a route. -/
structure ChargeConfig where
  amount : String
  description : Option String := none

/-- The options of a route. -/
def ChargeConfig.options (route : ChargeConfig) : ChargeOptions :=
  { description := route.description }

/-- `MppChargeRejection`. -/
inductive MppChargeRejection : Type
  | challenge (challenge : PaymentChallenge)
  | verificationFailed (challenge : PaymentChallenge)
  | internalError (message : String)

/-- A request as it arrives at a route.  The node is asked for a blockhash before all else. -/
structure Arrival where
  route : ChargeConfig
  authorization : Option (List UInt8)
  blockhash : Option String

/-- A program of the extractor. -/
abbrev GateM : Type → Type := ExceptT (Failure MppChargeRejection) (Script chargeInterface)

/-- `HeaderValue::to_str`: visible ASCII. -/
def toStr (bytes : List UInt8) : Option (List Char) :=
  if bytes.all fun b => (32 ≤ b ∧ b < 127) ∨ b = 9 then
    some (bytes.map fun b => Char.ofNat b.toNat) else none

/-- The header, if it can be read and begins with the scheme. -/
def paymentHeader (authorization : Option (List UInt8)) : Option (List Char) :=
  (authorization.bind toStr).filter ("Payment ".toList.isPrefixOf ·)

namespace ChargingMpp
variable (server : ChargingMpp) (canonicalize : Json → Option String)

/-- The error of a charge. -/
def charged {α : Type} : RustResult ChargeError α → RustResult MppChargeRejection α :=
  mapErr fun e => .internalError s!"charge failed: {e.text}"

/-- The challenge of a route. -/
def offer (arrival : Arrival) : GateM PaymentChallenge := do
  let request ← charged
    (server.chargeRequest arrival.route.amount arrival.route.options arrival.blockhash)
  let now ← liftM (perform (F := chargeInterface) .now)
  charged (server.challengeFor canonicalize request arrival.route.options now)

/-- A verification, of which the extractor only knows whether it failed. -/
def elseOffer {α : Type} (challenge : PaymentChallenge) (verification : ChargeM α) : GateM α :=
  ExceptT.mk (verification.run >>= fun r =>
    pure (mapErr (fun _ => .verificationFailed challenge) r))

/-- The request with the challenge of its route. -/
def admission (challenge : PaymentChallenge) (authorization : Option (List UInt8)) :
    GateM Receipt := do
  let authStr ← okOrElse (paymentHeader authorization) (MppChargeRejection.challenge challenge)
  let credential ← mapErr (fun _ => MppChargeRejection.challenge challenge)
    (parseAuthorization server.crates authStr)
  let expected ← okOrElse (decodeRequest server.crates challenge.request)
    (MppChargeRejection.internalError "failed to decode expected request: ")
  elseOffer challenge
    (server.verifyCredentialWithExpected credential.toPaymentCredential expected)

/-- `from_request_parts`. -/
def fromRequestParts (arrival : Arrival) : GateM Receipt := do
  let challenge ← server.offer canonicalize arrival
  server.admission challenge arrival.authorization

/-- The result of a request. -/
abbrev Passage : Type := RustResult MppChargeRejection Receipt

/-- Requests that arrive in any order, on any routes. -/
abbrev Gate : Type := Pool chargeInterface ReplayStore Arrival Passage

/-- The program of a request. -/
def gateProgram (arrival : Arrival) : Script chargeInterface Passage :=
  (server.fromRequestParts canonicalize arrival).run

/-- The machine of all interleavings of requests. -/
def gate (store : ReplayStore) : Machine Gate (Pool.Event Arrival ChargeInput) :=
  Pool.machine chargeHandler (server.gateProgram canonicalize) store

end ChargingMpp

/-! ## Responses -/

/-- A response; the names of its headers are in lower case. -/
structure Response where
  status : Nat
  headers : List (String × List Char) := []
  body : String := ""

/-- A character that a header may have: no control character but the tab. -/
def HeaderChar (ch : Char) : Prop := (32 ≤ ch.toNat ∧ ch.toNat ≠ 127) ∨ ch = '\t'

instance (ch : Char) : Decidable (HeaderChar ch) := inferInstanceAs (Decidable (_ ∨ _))

instance (text : List Char) : Decidable (∀ ch ∈ text, HeaderChar ch) := List.decidableBAll _ _

namespace Response

/-- `HeaderValue::from_str`. -/
def headerValue (text : List Char) : Option (List Char) :=
  if ∀ ch ∈ text, HeaderChar ch then some text else none

/-- `HeaderMap::insert`. -/
def insert (response : Response) (name : String) (value : List Char) : Response :=
  { response with headers := (name, value) :: response.headers.filter (·.1 ≠ name) }

end Response

/-- `PaymentRequired::into_response`; `toText` is `serde_json::to_string`. -/
def paymentRequired (toText : PaymentChallenge → Option String) (challenge : PaymentChallenge) :
    RustResult Error Response :=
  match formatWwwAuthenticate challenge with
  | .error (.error e) => .ok { status := 500, body := s!"Failed to format challenge: {e.text}" }
  | .error (.panic message) => .error (.panic message)
  | .ok wwwAuth =>
      let response : Response := { status := 402, body := (toText challenge).getD "{}" }
      let response := match Response.headerValue wwwAuth with
        | some value => response.insert "www-authenticate" value
        | none => response
      .ok ((response.insert "content-type" "application/json".toList).insert "cache-control"
        "no-store".toList)

/-- `MppChargeRejection::into_response`. -/
def MppChargeRejection.intoResponse (toText : PaymentChallenge → Option String) :
    MppChargeRejection → RustResult Error Response
  | .challenge offered | .verificationFailed offered => paymentRequired toText offered
  | .internalError message => .ok { status := 500, body := message }

/-- `WithReceipt::into_response`. -/
def withReceipt (crates : Crates) (canonicalize : Json → Option String) (receipt : Receipt)
    (body : Response) : Response :=
  match (formatReceipt crates canonicalize receipt).toOption.bind Response.headerValue with
  | some value => body.insert "payment-receipt" value
  | none => body

end MppSdk
