import MppSdk.Interleaving
import MppSdk.TsOnChain

/-! # The TypeScript charge server

`verify` of `server/Charge.ts`: a signed transaction is checked, co-signed, broadcast and
checked again when it is confirmed (`verifyTransaction`), or the signature of a confirmed
one is looked up (`verifySignature`).  A verification is a script, cut where the code
awaits. -/

namespace MppSdk
namespace Ts
open Script

/-! ## Credentials -/

/-- The payload of a credential. -/
structure Payload where
  signature : Option String := none
  transaction : Option String := none
  type : Option String := none
deriving DecidableEq

/-- The challenge a credential carries. -/
structure Challenge where
  id : Option String := none
  request : ChallengeRequest
deriving DecidableEq

/-- `CredentialPayload`. -/
structure CredentialPayload where
  challenge : Challenge
  payload : Payload
deriving DecidableEq

/-- `Receipt`; a receipt of this server is of the method `solana` and says success. -/
structure Receipt where
  challengeId : Option String
  reference : String
  externalId : Option String
  timestamp : String
deriving DecidableEq

/-- What `resolvePayloadType` returns. -/
inductive PayloadType : Type
  | signature
  | transaction
deriving DecidableEq

/-- `resolvePayloadType`. -/
def resolvePayloadType (payload : Payload) : Thrown PayloadType :=
  if payload.type = some "signature" then .ok .signature
  else if payload.type = some "transaction" then .ok .transaction
  else error "Missing or invalid payload type: must be \"transaction\" or \"signature\""

/-! ## The surroundings -/

/-- What the server awaits. -/
inductive ChargeOp : Type
  | signTransactions (tx : Transaction)
  | simulateTransaction (base64Tx : String)
  | sendTransaction (base64Tx : String)
  | getSignatureStatuses (signature : String)
  | setTimeout (ms : Nat)
  | getTransaction (signature : String)
  | get (key : String)
  | put (key : String)

/-- What is awaited, or the text of the error that is thrown.  A signer returns for each
transaction the signatures of some addresses, and an RPC node a JSON value. -/
def ChargeOp.Reply : ChargeOp → Type
  | .signTransactions _ => Except String (List (List (String × List UInt8)))
  | .simulateTransaction _ => Except String Json
  | .sendTransaction _ => Except String Json
  | .getSignatureStatuses _ => Except String Json
  | .setTimeout _ => Unit
  | .getTransaction _ => Except String Json
  | .get _ => Except String Bool
  | .put _ => Except String Unit

/-- The interface of the server: the code goes on with the reply, at a time of the clock. -/
abbrev chargeInterface : Interface := ⟨ChargeOp, fun op => op.Reply × Int⟩

/-- What comes from outside at an operation.  `storeError` is a failure of the store. -/
structure ChargeInput where
  now : Int := 0
  signatures : Except String (List (List (String × List UInt8))) := .error ""
  rpc : Except String Json := .error ""
  storeError : Option String := none

/-- The keys of the store that are set. -/
abbrev Store : Type := List String

/-- What an operation does to the store: `put` sets a key whether or not it was set. -/
def chargeHandler : Handler chargeInterface Store ChargeInput
  | .signTransactions _, x, store => (store, x.signatures, x.now)
  | .simulateTransaction _, x, store => (store, x.rpc, x.now)
  | .sendTransaction _, x, store => (store, x.rpc, x.now)
  | .getSignatureStatuses _, x, store => (store, x.rpc, x.now)
  | .setTimeout _, x, store => (store, (), x.now)
  | .getTransaction _, x, store => (store, x.rpc, x.now)
  | .get key, x, store =>
      match x.storeError with
      | some e => (store, .error e, x.now)
      | none => (store, .ok (decide (key ∈ store)), x.now)
  | .put key, x, store =>
      match x.storeError with
      | some e => (store, .error e, x.now)
      | none => (key :: store, .ok (), x.now)

/-- A program of the server. -/
abbrev ChargeM : Type → Type := ExceptT (Failure JsError) (Script chargeInterface)

/-- `throw new Error(message)`. -/
abbrev ChargeM.fail {α : Type} (message : String) : ChargeM α := liftM (error message : Thrown α)

/-- `await` one operation. -/
abbrev ask (op : ChargeOp) : ChargeM (op.Reply × Int) := liftM (perform (F := chargeInterface) op)

/-- What the parameters of `charge` and the libraries give a verification.  `rounds` is a
number of polling rounds that no clock lets the server reach. -/
structure Server where
  recipient : String
  network : String
  signer : Option String
  kit : Kit
  engine : Engine
  rounds : Nat

/-! ## RPC helpers -/

namespace Server
variable (server : Server)

/-- The `result` of a reply, unless it says that there was an error. -/
def rpcResult (reply : Except String Json) : Thrown (Option Json) := do
  let data ← rethrow "" reply
  let err ← prop (some data) "error"
  if isTrue server.engine err then
    let message := textOf server.engine (← prop err "message")
    error s!"RPC error: {message}"
  return data.get "result"

/-- `fetchTransaction`. -/
def fetchTransaction (reply : Except String Json) : Thrown (Option Json) := do
  match ← server.rpcResult reply with
  | some .null => return none
  | result => return result

/-- `simulateTransaction`. -/
def simulateTransaction (reply : Except String Json) : Thrown Unit := do
  let simErr := optProp (optProp (← server.rpcResult reply) "value") "err"
  match simErr with
  | none => return ()
  | some err =>
      let detail := server.engine.stringify err
      throwIf (isTrue server.engine simErr) s!"Transaction simulation failed: {detail}"

/-- `broadcastTransaction`. -/
def broadcastTransaction (reply : Except String Json) : Thrown String := do
  let result ← server.rpcResult reply
  throwIf (¬ isTrue server.engine result) "No signature returned from sendTransaction"
  return textOf server.engine result

/-- `data.result?.value?.[0]`; a character in the place of a status would have no field. -/
def firstStatus (data : Json) : Thrown (Option Json) := do
  match optProp (← prop (some data) "result") "value" with
  | some (.arr statuses) => return statuses.head?
  | some (.obj fields) => return Json.field fields "0"
  | _ => return none

/-- The body of the loop of `waitForConfirmation`: whether the transaction is confirmed. -/
def isConfirmed (reply : Except String Json) : Thrown Bool := do
  let status ← firstStatus (← rethrow "" reply)
  if isTrue server.engine status then
    match optProp status "err" with
    | none => pure ()
    | some err =>
        let detail := server.engine.stringify err
        throwIf (isTrue server.engine (some err)) s!"Transaction failed: {detail}"
  let confirmation := optProp status "confirmationStatus"
  return isTrue server.engine status ∧
    (isText confirmation "confirmed" ∨ isText confirmation "finalized")

/-- `waitForConfirmation`, with the rounds that are left and the time. -/
def waitForConfirmation (signature : String) (start : Int) : Nat → Int → ChargeM Unit
  | 0, _ => .fail "Transaction confirmation timeout"
  | rounds + 1, now =>
      if now - start < 30000 then do
        let (reply, _) ← ask (.getSignatureStatuses signature)
        if ← server.isConfirmed reply then return ()
        else do
          let (_, now) ← ask (.setTimeout 2000)
          waitForConfirmation signature start rounds now
      else .fail "Transaction confirmation timeout"

/-! ## Settlement -/

/-- `SURFPOOL_BLOCKHASH_PREFIX`. -/
def SURFPOOL_BLOCKHASH_PREFIX : String := "SURFNETxSAFEHASH"

/-- `LOCALNET_NETWORK`. -/
def LOCALNET_NETWORK : String := "localnet"

/-- `checkNetworkBlockhash`. -/
def checkNetworkBlockhash (network blockhashB58 : String) : Thrown Unit :=
  if ¬ SURFPOOL_BLOCKHASH_PREFIX.toList.isPrefixOf blockhashB58.toList then .ok ()
  else if network = LOCALNET_NETWORK then .ok ()
  else .error (.error
    { message := s!"Signed against localnet but the server expects {network}. " ++
        s!"Switch your client RPC to {network} and re-sign."
      code := some "wrong-network" })

/-- `extractRecentBlockhash`. -/
def extractRecentBlockhash (clientTxBase64 : String) : Option String :=
  match server.kit.messageOf clientTxBase64 with
  | .ok message => some message.lifetimeToken
  | .error _ => none

/-- The checks of `verifyTransaction` on the transaction as the client sent it. -/
def checkTransaction (clientTxBase64 : String) (challenge : ChallengeRequest) : Thrown Unit := do
  match server.extractRecentBlockhash clientTxBase64 with
  | some recentBlockhash => checkNetworkBlockhash server.network recentBlockhash
  | none => pure ()
  verifyBase64TransactionPreBroadcast server.kit clientTxBase64 challenge

/-- `coSignBase64Transaction`. -/
def coSignBase64Transaction (signer clientTxBase64 : String) : ChargeM String := do
  let decoded ← rethrow "" (server.kit.transactionOf clientTxBase64)
  throwIf ((decoded.signatures.lookup signer).isNone)
    s!"Signer {signer} is not an expected signer for this transaction"
  let (reply, _) ← ask (.signTransactions decoded)
  let signatureMap ← defined (← rethrow "" reply).head?
  let signature ← okOrElse (signatureMap.lookup signer)
    (JsError.mk s!"Signer {signer} did not return a signature" none)
  rethrow "" (server.kit.wireTransaction { decoded with
    signatures := decoded.signatures.map fun entry =>
      if entry.1 = signer then (signer, some signature) else entry })

/-- The transaction to send: the client's, co-signed if the server has a signer. -/
def transactionToSend (clientTxBase64 : String) : ChargeM String :=
  match server.signer with
  | some signer => server.coSignBase64Transaction signer clientTxBase64
  | none => return clientTxBase64

/-- The checks on a fetched transaction, of `verifyOnChain` and `verifySignature`. -/
def checkConfirmed (reply : Except String Json) (challenge : ChallengeRequest) : Thrown Unit := do
  let tx ← okOrElse ((← server.fetchTransaction reply).filter fun tx =>
      isTrue server.engine (some tx))
    { message := "Transaction not found or not yet confirmed" }
  throwIf (isTrue server.engine (optProp (tx.get "meta") "err")) "Transaction failed on-chain"
  let message ← prop (tx.get "transaction") "message"
  let instructions ← prop message "instructions"
  verifyInstructions server.engine server.kit.findProgramAddress instructions challenge
    server.recipient

/-- `solana-charge:consumed:${signature}`. -/
def consumedKey (signature : String) : String := "solana-charge:consumed:" ++ signature

/-- The end of a verification: the signature is marked, and its receipt is returned. -/
def markConsumed (credential : CredentialPayload) (signature : String) : ChargeM Receipt := do
  let (reply, now) ← ask (.put (consumedKey signature))
  rethrow "" reply
  return {
    challengeId := truthy credential.challenge.id
    reference := signature
    externalId := truthy credential.challenge.request.externalId
    timestamp := server.engine.isoString now }

/-- What `verifyTransaction` does before it marks the signature. -/
def settleTransaction (credential : CredentialPayload) : ChargeM String := do
  let challenge := credential.challenge.request
  let clientTxBase64 ← okOrElse (truthy credential.payload.transaction)
    (JsError.mk "Missing transaction data in credential payload" none)
  server.checkTransaction clientTxBase64 challenge
  let txToSend ← server.transactionToSend clientTxBase64
  let (reply, _) ← ask (.simulateTransaction txToSend)
  server.simulateTransaction reply
  let (reply, start) ← ask (.sendTransaction txToSend)
  let signature ← server.broadcastTransaction reply
  server.waitForConfirmation signature start server.rounds start
  let (reply, _) ← ask (.getTransaction signature)
  server.checkConfirmed reply challenge
  return signature

/-- `verifyTransaction`. -/
def verifyTransaction (credential : CredentialPayload) : ChargeM Receipt := do
  let signature ← server.settleTransaction credential
  server.markConsumed credential signature

/-- What `verifySignature` does before it marks the signature. -/
def lookUpSignature (credential : CredentialPayload) : ChargeM String := do
  let challenge := credential.challenge.request
  let signature ← okOrElse (truthy credential.payload.signature)
    (JsError.mk "Missing signature in credential payload" none)
  let (reply, _) ← ask (.get (consumedKey signature))
  let consumed ← rethrow "" reply
  throwIf (consumed = true) "Transaction signature already consumed"
  let (reply, _) ← ask (.getTransaction signature)
  server.checkConfirmed reply challenge
  return signature

/-- `verifySignature`. -/
def verifySignature (credential : CredentialPayload) : ChargeM Receipt := do
  let signature ← server.lookUpSignature credential
  server.markConsumed credential signature

/-- `verify`. -/
def verify (credential : CredentialPayload) : ChargeM Receipt := do
  let payloadType ← resolvePayloadType credential.payload
  throwIf (payloadType = .signature ∧
      credential.challenge.request.methodDetails.feePayer.getD false = true)
    "type=\"signature\" credentials cannot be used with fee sponsorship (feePayer: true)"
  match payloadType with
  | .transaction => server.verifyTransaction credential
  | .signature => server.verifySignature credential

/-! ## Any number of verifications -/

/-- The result of a call. -/
abbrev Outcome : Type := Thrown Receipt

/-- The program of a call. -/
def program (credential : CredentialPayload) : Script chargeInterface Outcome :=
  (server.verify credential).run

/-- Calls that race for the store. -/
abbrev Verifications : Type := Pool chargeInterface Store CredentialPayload Outcome

/-- The machine of all interleavings of calls, from what the store holds at first. -/
def machine (store : Store) : Machine Verifications (Pool.Event CredentialPayload ChargeInput) :=
  Pool.machine chargeHandler server.program store

end Server
end Ts
end MppSdk
