import MppSdk.Interleaving
import MppSdk.OnChain

/-! # The charge server

`Mpp` of `server/charge.rs`: a credential is checked against the challenge it echoes, its
payment is settled (pull) or looked up (push), and its transaction signature is consumed
in the replay store.  A verification is a script, cut where the code reads the clock, asks
the signer or the RPC node, or awaits the store. -/

namespace MppSdk
open Script

/-! ## Challenges -/

/-- `ChallengeEcho`: the challenge as the client sends it back. -/
structure ChallengeEcho where
  id : String
  realm : String
  method : String
  intent : String
  request : String
  expires : Option String := none
  digest : Option String := none
  opaqueData : Option String := none
deriving DecidableEq

/-- `PaymentCredential`. -/
structure PaymentCredential where
  challenge : ChallengeEcho
  payload : Json

/-- `Receipt`; a receipt of this server always says success. -/
structure Receipt where
  method : String
  timestamp : String
  reference : String
  challengeId : String
deriving DecidableEq

/-- What the server takes from its crates. -/
structure Crates where
  /-- HMAC-SHA256 of a key and a message. -/
  hmacSha256 : List UInt8 → List UInt8 → List UInt8
  /-- `URL_SAFE_NO_PAD`. -/
  base64UrlEncode : List UInt8 → String
  base64UrlDecode : String → Option (List UInt8)
  /-- `STANDARD.decode`. -/
  base64Decode : String → Option (List UInt8)
  /-- `serde_json::from_slice`. -/
  parseJson : List UInt8 → Option Json
  /-- An RFC 3339 timestamp, in nanoseconds since the epoch, and back. -/
  parseRfc3339 : String → Option Int
  formatRfc3339 : Int → Option String
  findProgramAddress : FindProgramAddress

/-- `compute_challenge_id`. -/
def computeChallengeId (crates : Crates) (secretKey realm method intent request : String)
    (expires digest opaqueData : Option String) : String :=
  let hmacInput := String.intercalate "|" [realm, method, intent, request, expires.getD "",
    digest.getD "", opaqueData.getD ""]
  crates.base64UrlEncode (crates.hmacSha256 (utf8 secretKey) (utf8 hmacInput))

/-- `base64url_decode`: both alphabets, with or without padding. -/
def base64urlDecode (crates : Crates) (input : String) : Option (List UInt8) :=
  crates.base64UrlDecode (String.ofList ((input.toList.filter (· ≠ '=')).map fun c =>
    if c = '+' then '-' else if c = '/' then '_' else c))

/-- `Base64UrlJson::decode::<ChargeRequest>`. -/
def decodeRequest (crates : Crates) (raw : String) : Option ChargeRequest := do
  let bytes ← base64urlDecode crates raw
  let value ← crates.parseJson bytes
  ChargeRequest.ofJson value

/-! ## The surroundings -/

/-- The result of a simulation: its error, if any, and its logs. -/
structure Simulation where
  err : Option String
  logs : List String

/-- What the charge server asks of its surroundings. -/
inductive ChargeOp : Type
  | now
  | signMessage (message : List UInt8)
  | simulateTransaction (tx : VersionedTransaction)
  | diagnoseBalances (tx : VersionedTransaction) (request : ChargeRequest)
      (details : MethodDetails)
  | sendTransaction (tx : VersionedTransaction)
  | confirmTransaction (signature : Signature)
  | getTransaction (signature : Signature)
  | putIfAbsent (key : String)

/-- The answers; `Except String` where the other side may fail with a text. -/
def ChargeOp.Answer : ChargeOp → Type
  | .now => Int
  | .signMessage _ => Except String Signature
  | .simulateTransaction _ => Except String Simulation
  | .diagnoseBalances _ _ _ => String
  | .sendTransaction _ => Except String Signature
  | .confirmTransaction _ => Except String Bool
  | .getTransaction _ => Except String ConfirmedTransaction
  | .putIfAbsent _ => Except String Bool

/-- The interface of the charge server. -/
abbrev chargeInterface : Interface := ⟨ChargeOp, ChargeOp.Answer⟩

/-- What comes from outside at an operation.  `storeError` is a failure of the store. -/
structure ChargeInput where
  now : Int := 0
  signMessage : Except String Signature := .error ""
  simulateTransaction : Except String Simulation := .error ""
  diagnoseBalances : String := ""
  sendTransaction : Except String Signature := .error ""
  confirmTransaction : Except String Bool := .error ""
  getTransaction : Except String ConfirmedTransaction := .error ""
  storeError : Option String := none

/-- The keys of the replay store. -/
abbrev ReplayStore : Type := List String

/-- What an operation does to the store: `put_if_absent` is the only one that writes. -/
def chargeHandler : Handler chargeInterface ReplayStore ChargeInput
  | .now, x, store => (store, x.now)
  | .signMessage _, x, store => (store, x.signMessage)
  | .simulateTransaction _, x, store => (store, x.simulateTransaction)
  | .diagnoseBalances _ _ _, x, store => (store, x.diagnoseBalances)
  | .sendTransaction _, x, store => (store, x.sendTransaction)
  | .confirmTransaction _, x, store => (store, x.confirmTransaction)
  | .getTransaction _, x, store => (store, x.getTransaction)
  | .putIfAbsent key, x, store =>
      match x.storeError with
      | some e => (store, .error e)
      | none => if key ∈ store then (store, .ok false) else (key :: store, .ok true)

/-- A program of the charge server. -/
abbrev ChargeM : Type → Type := ExceptT (Failure VerificationError) (Script chargeInterface)

namespace ChargeM

/-- Perform one operation. -/
abbrev ask (op : ChargeOp) : ChargeM op.Answer := liftM (perform (F := chargeInterface) op)

/-- `return Err(e)`. -/
abbrev fail {α : Type} (e : VerificationError) : ChargeM α :=
  liftM (Except.error (Failure.error e) : Verified α)

end ChargeM

/-- An answer of the other side, its error mapped. -/
def mapReply {α : Type} (f : String → VerificationError) : Except String α → Verified α
  | .ok a => .ok a
  | .error e => .error (.error (f e))

/-- `SIMULATION_MAX_ATTEMPTS`. -/
def SIMULATION_MAX_ATTEMPTS : Nat := 3

/-- `SURFPOOL_BLOCKHASH_PREFIX`. -/
def SURFPOOL_BLOCKHASH_PREFIX : String := "SURFNETxSAFEHASH"

/-- `LOCALNET_NETWORK`. -/
def LOCALNET_NETWORK : String := "localnet"

/-- `METHOD_NAME`. -/
def METHOD_NAME : String := "solana"

/-- `starts_with`. -/
def startsWith (s p : String) : Bool := p.toList.isPrefixOf s.toList

/-- `check_network_blockhash`. -/
def checkNetworkBlockhash (network blockhash : String) : Verified Unit :=
  if ¬ startsWith blockhash SURFPOOL_BLOCKHASH_PREFIX then .ok ()
  else if network = LOCALNET_NETWORK then .ok ()
  else .error (.error (.wrongNetwork
    (s!"Signed against localnet but the server expects {network}. " ++
      s!"Switch your client RPC to {network} and re-sign.")))

/-- `recent_blockhash`. -/
def VersionedMessage.recentBlockhash (message : VersionedMessage) : Hash :=
  message.body.recentBlockhash

/-- `Mpp`: what a verification reads of the server. -/
structure Mpp where
  secretKey : String
  realm : String
  recipient : String
  currency : String
  network : String
  feePayerSigner : Option Pubkey
  crates : Crates

namespace Mpp
variable (server : Mpp)
open ChargeM

/-! ## Settlement -/

/-- The bytes of a pull payload as a transaction, tried as a legacy one first. -/
def decodeTransaction (transactionB64 : String) : Verified VersionedTransaction := do
  let bytes ← okOrElse (server.crates.base64Decode transactionB64)
    (.invalidPayload "Invalid base64 transaction")
  okOrElse (VersionedTransaction.decode bytes) (.invalidPayload "Invalid transaction")

/-- The signing step of `verify_pull`. -/
def coSign (tx : VersionedTransaction) (details : MethodDetails) :
    ChargeM VersionedTransaction :=
  if details.feePayer.getD false = false then return tx
  else do
    let signer ← okOrElse server.feePayerSigner
      (VerificationError.new "Fee payer enabled but no signer configured")
    let reply ← ask (.signMessage tx.message.serialize)
    let sig ← mapReply (fun e => .new s!"Fee payer signing failed: {e}") reply
    let accountKeys := tx.message.staticAccountKeys
    let idx ← okOrElse (accountKeys.idxOf? signer)
      (VerificationError.invalidPayload "Fee payer not found in transaction accounts")
    rejectIf (idx ≥ tx.signatures.length ∨ accountKeys[idx]? ≠ some signer)
      (VerificationError.invalidPayload "Fee payer is not a required signer in the transaction")
    return { tx with signatures := tx.signatures.set idx sig }

/-- The text contains one of the words. -/
def mentions (words : List String) (s : String) : Bool :=
  words.any fun word => s.toList.tails.any (word.toList.isPrefixOf ·)

/-- The error of a failed simulation. -/
def simulationFailed (err : String) (logs : List String) (balanceDetail : String) : String :=
  let logs := logs.filter (mentions ["Error", "error", "failed"])
  let logDetail := if logs.isEmpty then "" else " — " ++ String.intercalate "; " logs
  s!"Simulation failed: {err}{logDetail}{balanceDetail}"

/-- The simulation loop of `verify_pull`, with the attempts that are left. -/
def simulate (tx : VersionedTransaction) (request : ChargeRequest) (details : MethodDetails) :
    Nat → ChargeM Unit
  | 0 => fail (.networkError "Simulation did not complete")
  | left + 1 => do
      let reply ← ask (.simulateTransaction tx)
      match reply with
      | .error err =>
          if 0 < left then simulate tx request details left
          else fail (.networkError s!"Simulation RPC error: {err}")
      | .ok sim =>
          match sim.err with
          | none => return ()
          | some err =>
              if 0 < left then simulate tx request details left
              else do
                let balanceDetail ← ask (.diagnoseBalances tx request details)
                fail (.transactionFailed (simulationFailed err sim.logs balanceDetail))

/-- The polling loop of `verify_pull`, with the polls that are left. -/
def awaitConfirmation (signature : Signature) : Nat → ChargeM String
  | 0 => fail (.networkError "Transaction not confirmed within timeout")
  | left + 1 => do
      let reply ← ask (.confirmTransaction signature)
      match reply with
      | .ok true => return signature.toBase58
      | _ => awaitConfirmation signature left

/-- `verify_pull`. -/
def verifyPull (transactionB64 : String) (request : ChargeRequest) (details : MethodDetails) :
    ChargeM String := do
  let tx ← server.decodeTransaction transactionB64
  checkNetworkBlockhash server.network tx.message.recentBlockhash.toBase58
  verifyPreBroadcast server.crates.findProgramAddress tx request details
  let tx ← server.coSign tx details
  simulate tx request details SIMULATION_MAX_ATTEMPTS
  let reply ← ask (.sendTransaction tx)
  let signature ← mapReply (fun e => .networkError s!"Broadcast failed: {e}") reply
  awaitConfirmation signature 30

/-- `verify_push`, with `verify_on_chain`. -/
def verifyPush (signatureStr : String) (request : ChargeRequest) (details : MethodDetails) :
    ChargeM String := do
  let signature ← okOrElse (Bytes.fromBase58 64 signatureStr)
    (VerificationError.invalidPayload "Invalid signature")
  let reply ← ask (.getTransaction signature)
  let tx ← mapReply (fun e =>
    if mentions ["not found"] e then .notFound "Transaction not found or not yet confirmed"
    else .networkError s!"RPC error: {e}") reply
  verifyConfirmed server.crates.findProgramAddress tx request details
  return signatureStr

/-! ## Verification -/

/-- The HMAC check of `verify`. -/
def verifyChallengeId (challenge : ChallengeEcho) : Verified Unit :=
  rejectIf (challenge.id ≠ computeChallengeId server.crates server.secretKey server.realm
      challenge.method challenge.intent challenge.request challenge.expires challenge.digest
      challenge.opaqueData)
    (.credentialMismatch "Challenge ID mismatch — not issued by this server")

/-- The expiry check of `verify`. -/
def verifyExpiry (challenge : ChallengeEcho) : ChargeM Unit :=
  match challenge.expires with
  | none => return ()
  | some expires => do
      let expiresAt ← okOrElse (server.crates.parseRfc3339 expires)
        (VerificationError.new "Invalid expires timestamp in challenge")
      let now ← ask .now
      rejectIf (expiresAt ≤ (show Int from now))
        (VerificationError.expired s!"Challenge expired at {expires}")

/-- `eq_ignore_ascii_case`. -/
def eqIgnoreAsciiCase (s t : String) : Bool := s.toLower = t.toLower

/-- `verify_pinned_fields`. -/
def verifyPinnedFields (challenge : ChallengeEcho) (request : ChargeRequest) :
    Verified Unit := do
  rejectIf (challenge.method ≠ METHOD_NAME) (.credentialMismatch
    (s!"Credential method '{challenge.method}' does not match this server " ++
      s!"(expected '{METHOD_NAME}')"))
  rejectIf (¬ eqIgnoreAsciiCase challenge.intent "charge") (.credentialMismatch
    s!"Credential intent '{challenge.intent}' is not a charge")
  rejectIf (challenge.realm ≠ server.realm) (.credentialMismatch
    (s!"Credential realm '{challenge.realm}' does not match this server " ++
      s!"(expected '{server.realm}')"))
  rejectIf (request.currency ≠ server.currency) (.credentialMismatch
    (s!"Credential currency '{request.currency}' does not match this server " ++
      s!"(expected '{server.currency}')"))
  rejectIf (request.recipient ≠ some server.recipient)
    (.credentialMismatch "Credential recipient does not match this server")

/-- The settlement of `verify`: the signature of the payment. -/
def settle (payload : CredentialPayload) (request : ChargeRequest) (details : MethodDetails) :
    ChargeM String :=
  match payload with
  | .transaction transaction => server.verifyPull transaction request details
  | .signature signature => server.verifyPush signature request details

/-- `consumed_key`. -/
def consumedKey (signatureStr : String) : String := "solana-charge:consumed:" ++ signatureStr

/-- The end of `verify`: the signature is consumed, at most once. -/
def consume (signatureStr challengeId : String) : ChargeM Receipt := do
  let reply ← ask (.putIfAbsent (consumedKey signatureStr))
  let inserted ← mapReply (fun e => .new s!"Store error: {e}") reply
  rejectIf (inserted = false)
    (VerificationError.signatureConsumed "Transaction signature already consumed")
  let now ← ask .now
  return {
    method := METHOD_NAME
    timestamp := (server.crates.formatRfc3339 now).getD "1970-01-01T00:00:00Z"
    reference := signatureStr
    challengeId }

/-- The method details of a request; none are empty details. -/
def methodDetailsOf (request : ChargeRequest) : Verified MethodDetails :=
  match request.methodDetails with
  | none => .ok {}
  | some value => okOrElse (MethodDetails.ofJson value) (.invalidPayload "Invalid method details")

/-- The checks of `verify` that come before the settlement: the payload and the method
details. -/
def checkCredential (credential : PaymentCredential) (request : ChargeRequest) :
    ChargeM (CredentialPayload × MethodDetails) := do
  server.verifyChallengeId credential.challenge
  server.verifyExpiry credential.challenge
  server.verifyPinnedFields credential.challenge request
  let payload ← okOrElse (CredentialPayload.ofJson credential.payload)
    (VerificationError.invalidPayload "Invalid credential payload")
  let details ← methodDetailsOf request
  return (payload, details)

/-- `verify`. -/
def verify (credential : PaymentCredential) (request : ChargeRequest) : ChargeM Receipt := do
  let (payload, details) ← server.checkCredential credential request
  let signatureStr ← server.settle payload request details
  server.consume signatureStr credential.challenge.id

/-- The request a credential carries. -/
def echoedRequest (credential : PaymentCredential) : Verified ChargeRequest :=
  okOrElse (decodeRequest server.crates credential.challenge.request)
    (.new "Failed to decode request")

/-- `verify_credential`. -/
def verifyCredential (credential : PaymentCredential) : ChargeM Receipt := do
  let request ← server.echoedRequest credential
  server.verify credential request

/-- `verify_credential_with_expected`. -/
def verifyCredentialWithExpected (credential : PaymentCredential) (expected : ChargeRequest) :
    ChargeM Receipt := do
  let request ← server.echoedRequest credential
  rejectIf (request.amount ≠ expected.amount) (VerificationError.credentialMismatch
    (s!"Amount mismatch: credential has {request.amount} " ++
      s!"but endpoint expects {expected.amount}"))
  rejectIf (request.currency ≠ expected.currency) (VerificationError.credentialMismatch
    (s!"Currency mismatch: credential has {request.currency} " ++
      s!"but endpoint expects {expected.currency}"))
  rejectIf (request.recipient ≠ expected.recipient)
    (VerificationError.credentialMismatch "Recipient mismatch")
  server.verify credential expected

/-! ## Any number of verifications -/

/-- A call of the server. -/
inductive Call : Type
  | verifyCredential (credential : PaymentCredential)
  | verifyCredentialWithExpected (credential : PaymentCredential) (expected : ChargeRequest)

/-- The result of a call. -/
abbrev Outcome : Type := RustResult VerificationError Receipt

/-- The program of a call. -/
def program : Call → Script chargeInterface Outcome
  | .verifyCredential credential => (server.verifyCredential credential).run
  | .verifyCredentialWithExpected credential expected =>
      (server.verifyCredentialWithExpected credential expected).run

/-- Calls that race for the replay store. -/
abbrev Verifications : Type := Pool chargeInterface ReplayStore Call Outcome

/-- The machine of all interleavings of calls, from what the store holds at first. -/
def machine (store : ReplayStore) : Machine Verifications (Pool.Event Call ChargeInput) :=
  Pool.machine chargeHandler server.program store

end Mpp
end MppSdk
