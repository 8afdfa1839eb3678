import Mathlib
import MppSdk.Interleaving
import MppSdk.PyTypes
import MppSdk.PreBroadcast

/-! # The Python charge server

`verify_credential` of `server/mpp.py`.  A transaction is checked, marked in the store under
the first 64 characters of its base64 text, sent and looked up; a signature is marked under its
own text and its transaction looked up; on an exception the mark is deleted.  A verification is
a script, cut where the code awaits the store or the RPC client. -/

namespace MppSdk
namespace Py
open Script

/-! ## Instructions of a transaction -/

/-- `_build_expected_transfers`. -/
def buildExpectedTransfers (request : ChargeRequest) (details : MethodDetails) :
    Raises (List (String × Int)) := do
  let parse (s : String) : Raises Int := okOrElse (int s.toList) { message := "invalid literal for int()" }
  let totalAmount ← parse request.amount
  let amounts ← details.splits.mapM fun split => parse split.amount
  let primaryAmount := totalAmount - amounts.sum
  raiseIf (primaryAmount ≤ 0) "splits-exceed-amount"
    "splits consume the entire amount — primary recipient must receive a positive amount"
  return (request.recipient, primaryAmount) :: (details.splits.map (·.recipient)).zip amounts

/-- The index of the first element that satisfies the condition. -/
def nextIndex (condition : Json → Raises Bool) (i : Nat) : List Json → Raises (Option Nat)
  | [] => .ok none
  | v :: vs => do
      if ← condition v then return some i
      nextIndex condition (i + 1) vs

/-- `[instruction for instruction in instructions if condition(instruction)]`. -/
def select (condition : Json → Raises Bool) (instructions : List Json) : Raises (List Json) :=
  instructions.filterMapM fun v => do return if ← condition v then some v else none

/-- `(transfer.get("parsed") or {}).get("type") == kind`. -/
def isParsedAs (kind : String) (instruction : Json) : Raises Bool := do
  let parsed ← getKey instruction "parsed"
  return isText (← getKey (orEmpty parsed) "type") kind

/-- `(transfer.get("parsed") or {}).get("info") or {}`. -/
def parsedInfo (transfer : Json) : Raises Json := do
  let parsed ← getKey transfer "parsed"
  return orEmpty (← getKey (orEmpty parsed) "info")

/-- The loop over the expected transfers: each takes the first transfer that matches it. -/
def takeTransfers (condition : String × Int → Json → Raises Bool) (kind : String)
    (transfers : List Json) (expected : List (String × Int)) : Raises (List Json) :=
  expected.foldlM (fun transfers want => do
    match ← nextIndex (condition want) 0 transfers with
    | some index => return transfers.eraseIdx index
    | none => paymentError "no-transfer" s!"no matching {kind} transfer for {want.1}") transfers

/-- `_verify_parsed_sol_transfers`. -/
def verifyParsedSolTransfers (instructions : List Json) (request : ChargeRequest)
    (details : MethodDetails) : Raises Unit := do
  let expected ← buildExpectedTransfers request details
  let transfers ← select (fun instruction => do
    if isText (← getKey instruction "program") "system" then isParsedAs "transfer" instruction
    else return false) instructions
  let _rest ← takeTransfers (fun (recipient, amount) transfer => do
    if isText (← getKey (← parsedInfo transfer) "destination") recipient then
      return str? (← getKey (← parsedInfo transfer) "lamports") = some (toString amount)
    else return false) "SOL" transfers expected

section Tokens
variable (find : FindProgramAddress)

/-- `_verify_ata_owner`. -/
def verifyAtaOwner (ataAddress : Json) (expectedOwner mint tokenProgram : String) : Bool :=
  match Bytes.fromBase58 32 expectedOwner, Bytes.fromBase58 32 mint,
      Bytes.fromBase58 32 tokenProgram with
  | some owner, some mint, some tokenProgram =>
      isText ataAddress (associatedTokenAddress find owner tokenProgram mint).toBase58
  | _, _, _ => false

/-- `_verify_parsed_spl_transfers`. -/
def verifyParsedSplTransfers (instructions : List Json) (request : ChargeRequest)
    (details : MethodDetails) : Raises Unit := do
  let expected ← buildExpectedTransfers request details
  let programId := if details.tokenProgram ≠ "" then details.tokenProgram
    else defaultTokenProgramForCurrency request.currency details.network
  let mint := resolveMint request.currency details.network
  let transfers ← select (fun instruction => do
    if isText (← getKey instruction "programId") programId then
      isParsedAs "transferChecked" instruction
    else return false) instructions
  let _rest ← takeTransfers (fun (recipient, amount) transfer => do
    if isText (← getKey (← parsedInfo transfer) "mint") mint then
      let tokenAmount ← getKey (← parsedInfo transfer) "tokenAmount"
      if str? (← getKey (orEmpty tokenAmount) "amount") = some (toString amount) then
        let destination ← getKey (← parsedInfo transfer) "destination"
        return verifyAtaOwner find destination recipient mint programId
      else return false
    else return false) "token" transfers expected

end Tokens

/-- `_parsed_program_id`. -/
def parsedProgramId (instruction : Json) : Raises String := do
  let programId ← getKey instruction "programId"
  let programId ← if isTrue programId then .ok programId else getKey instruction "program_id"
  match programId with
  | .str s => return s
  | _ => return if isText (← getKey instruction "program") "spl-memo" then programs.MEMO_PROGRAM
      else ""

/-- `_parsed_memo_text`. -/
def parsedMemoText (instruction : Json) : Raises (Option String) := do
  match ← getKey instruction "parsed" with
  | .str s => return some s
  | .obj fields => match Json.field fields "info" with
    | some (.obj info) =>
        let text (key : String) : Option String := (Json.field info key).bind Json.asStr
        return (text "memo").or (text "data")
    | _ => return none
  | _ => return none

/-- `_expected_memos`. -/
def expectedMemos (request : ChargeRequest) (details : MethodDetails) : List (String × String) :=
  (if request.externalId = "" then [] else [("externalId", request.externalId)]) ++
    (details.splits.filter fun split => split.memo ≠ "").map fun split => ("split", split.memo)

/-- Whether the instruction at an index is a memo that no expected one has matched. -/
def isUnmatchedMemo (matched : List Nat) (instruction : Json) (index : Nat) : Raises Bool := do
  if index ∈ matched then return false
  else return (← parsedProgramId instruction) = programs.MEMO_PROGRAM

/-- `_verify_parsed_memo_instructions`. -/
def verifyParsedMemoInstructions (instructions : List Json) (request : ChargeRequest)
    (details : MethodDetails) : Raises Unit := do
  let matched ← (expectedMemos request details).foldlM (fun matched want => do
    raiseIf ((utf8 want.2).length > 566) "invalid-payload" "memo cannot exceed 566 bytes"
    let found ← scan (fun instruction index => do
      if ← isUnmatchedMemo matched instruction index then
        return if (← parsedMemoText instruction) = some want.2 then some index else none
      else return none) 0 instructions
    match found with
    | some index => return index :: matched
    | none =>
        paymentError "invalid-payload" <|
          ("No memo instruction found for " ++ want.1 ++ " memo \"" ++ want.2 ++ "\"")) []
  instructions.zipIdx.forM fun (instruction, index) => do
    if ← isUnmatchedMemo matched instruction index then
      paymentError "invalid-payload" "unexpected Memo Program instruction in payment transaction"

/-- The checks on the instructions of a transaction, local or confirmed. -/
def verifyInstructions (find : FindProgramAddress) (instructions : List Json)
    (request : ChargeRequest) (details : MethodDetails) : Raises Unit := do
  if isNativeSol request.currency then verifyParsedSolTransfers instructions request details
  else verifyParsedSplTransfers find instructions request details
  verifyParsedMemoInstructions instructions request details

/-! ## The transaction of a credential -/

/-- `int.from_bytes(data, "little")`. -/
def fromBytesLittle (data : List UInt8) : Nat := data.foldr (fun b n => b.toNat + 256 * n) 0

/-- `account_keys[int(index)]`. -/
def accountKey (accountKeys : List String) (index : UInt8) (message : String) : Raises String :=
  okOrElse accountKeys[index.toNat]? { code := some "invalid-payload", message }

/-- What `_decode_legacy_payment_instructions` makes of one instruction, if anything. -/
def decodePaymentInstruction (accountKeys : List String) (instruction : CompiledInstruction) :
    Raises (Option Json) := do
  let programId ← accountKey accountKeys instruction.programIdIndex
    "transaction instruction references an unknown program"
  let data := instruction.data
  if programId = programs.SYSTEM_PROGRAM then
    if data.length < 12 then return none
    match instruction.accounts with
    | _ :: destinationIndex :: _ =>
        if fromBytesLittle (data.take 4) ≠ 2 then return none
        let destination ← accountKey accountKeys destinationIndex
          "transaction transfer references an unknown account"
        return some (.obj [("program", .str "system"), ("parsed", .obj [("type", .str "transfer"),
          ("info", .obj [("destination", .str destination),
            ("lamports", .str (toString (fromBytesLittle ((data.drop 4).take 8))))])])])
    | _ => return none
  else if programId = programs.TOKEN_PROGRAM ∨ programId = programs.TOKEN_2022_PROGRAM then
    if data.length < 10 then return none
    match instruction.accounts with
    | _ :: mintIndex :: destinationIndex :: _ =>
        if data.head? ≠ some 12 then return none
        let message := "transaction token transfer references an unknown account"
        let mint ← accountKey accountKeys mintIndex message
        let destination ← accountKey accountKeys destinationIndex message
        let amount := toString (fromBytesLittle ((data.drop 1).take 8))
        return some (.obj [("programId", .str programId),
          ("parsed", .obj [("type", .str "transferChecked"),
            ("info", .obj [("destination", .str destination), ("mint", .str mint),
              ("tokenAmount", .obj [("amount", .str amount)])])])])
    | _ => return none
  else if programId = programs.MEMO_PROGRAM then
    match String.fromUTF8? ⟨data.toArray⟩ with
    | some memo => return some (.obj [("programId", .str programs.MEMO_PROGRAM), ("parsed", .str memo)])
    | none => paymentError "invalid-payload" "memo instruction is not valid UTF-8"
  else return none

/-- `_decode_legacy_payment_instructions`. -/
def decodeLegacyPaymentInstructions (transactionB64 : String) : Raises (List Json) := do
  let raw ← b64decode transactionB64
  let tx ← okOrElse (VersionedTransaction.deserializeLegacy raw)
    { code := some "invalid-payload-type"
      message := "unsupported transaction shape for pre-broadcast verification" }
  let accountKeys := tx.message.body.accountKeys.map (·.toBase58)
  tx.message.body.instructions.filterMapM (decodePaymentInstruction accountKeys)

/-- `_verify_local_transaction_intent`. -/
def verifyLocalTransactionIntent (find : FindProgramAddress) (transactionB64 : String)
    (request : ChargeRequest) (details : MethodDetails) : Raises Unit := do
  let instructions ← decodeLegacyPaymentInstructions transactionB64
  verifyInstructions find instructions request details

/-- `_extract_recent_blockhash`. -/
def extractRecentBlockhash (transactionB64 : String) : Raises String := do
  let raw ← b64decode transactionB64
  let tx ← okOrElse (VersionedTransaction.decode raw) { message := "failed to deserialize" }
  return tx.message.body.recentBlockhash.toBase58

/-! ## The surroundings -/

/-- The operations a verification awaits; the clock is read before the first of them. -/
inductive ChargeOp : Type
  | now
  | putIfAbsent (key : String)
  | delete (key : String)
  | sendRawTransaction (rawTx : List UInt8)
  | confirmTransaction (sig : Signature)
  | getTransaction (sig : Signature)

/-- The answers: the text of the value of a sent transaction, the value of the statuses, and
the value of a transaction with the time at which it is there. -/
def ChargeOp.Answer : ChargeOp → Type
  | .now => Int
  | .putIfAbsent _ => Raises Bool
  | .delete _ => Raises Unit
  | .sendRawTransaction _ => Raises String
  | .confirmTransaction _ => Raises Json
  | .getTransaction _ => Raises Json × Int

/-- The interface of the server. -/
abbrev chargeInterface : Interface := ⟨ChargeOp, ChargeOp.Answer⟩

/-- What comes from outside at an operation.  `storeError` is an exception of the store. -/
structure ChargeInput where
  now : Int := 0
  sendRawTransaction : Raises String := exception ""
  confirmTransaction : Raises Json := exception ""
  getTransaction : Raises Json := exception ""
  storeError : Option (Failure PyError) := none

/-- The keys of the store. -/
abbrev Store : Type := List String

/-- What an operation does to the store. -/
def chargeHandler : Handler chargeInterface Store ChargeInput
  | .now, x, store => (store, x.now)
  | .putIfAbsent key, x, store =>
      match x.storeError with
      | some e => (store, .error e)
      | none => if key ∈ store then (store, .ok false) else (key :: store, .ok true)
  | .delete key, x, store =>
      match x.storeError with
      | some e => (store, .error e)
      | none => (store.filter (· ≠ key), .ok ())
  | .sendRawTransaction _, x, store => (store, x.sendRawTransaction)
  | .confirmTransaction _, x, store => (store, x.confirmTransaction)
  | .getTransaction _, x, store => (store, x.getTransaction, x.now)

/-- A program of the server. -/
abbrev ChargeM : Type → Type := ExceptT (Failure PyError) (Script chargeInterface)

/-- Await one operation. -/
abbrev ask (op : ChargeOp) : ChargeM op.Answer := liftM (perform (F := chargeInterface) op)

/-- Await an operation that may raise. -/
abbrev await {α : Type} (answer : ChargeM (Raises α)) : ChargeM α := do liftM (← answer)

/-- `try: body except Exception: cleanup; raise`. -/
def exceptException {α : Type} (body : ChargeM α) (cleanup : ChargeM Unit) : ChargeM α :=
  ExceptT.mk (body.run >>= fun
    | .error (.error e) => (cleanup >>= fun _ => liftM (.error (.error e) : Raises α)).run
    | r => done r)

/-- What the server takes from its libraries. -/
structure Libraries where
  /-- HMAC-SHA256 of a key and a message. -/
  hmacSha256 : List UInt8 → List UInt8 → List UInt8
  /-- `urlsafe_b64encode` without its padding. -/
  base64UrlEncode : List UInt8 → String
  /-- `json.loads`. -/
  parseJson : List UInt8 → Option Json
  /-- `datetime.fromisoformat` of a time with a zone, and the text of a time. -/
  fromIsoFormat : String → Option Int
  isoFormat : Int → String
  findProgramAddress : FindProgramAddress

/-- `Mpp`: what a verification reads of the server. -/
structure Mpp where
  secretKey : String
  realm : String
  recipient : String
  currency : String
  network : String
  hasRpc : Bool := true
  libraries : Libraries

/-! ## Verification -/

namespace Mpp
variable (m : Mpp)

/-- `compute_challenge_id`. -/
def computeChallengeId (challenge : ChallengeEcho) : String :=
  m.libraries.base64UrlEncode (m.libraries.hmacSha256 (utf8 m.secretKey) (utf8
    (String.intercalate "|" [challenge.realm, challenge.method, challenge.intent,
      challenge.request, challenge.expires, challenge.digest, challenge.opaqueData.getD ""])))

/-- `is_expired`. -/
def isExpired (challenge : ChallengeEcho) (now : Int) : Bool :=
  if challenge.expires = "" then false
  else match m.libraries.fromIsoFormat (challenge.expires.replace "Z" "+00:00") with
    | some expiresAt => expiresAt ≤ now
    | none => true

/-- `_verify_pinned_fields`. -/
def verifyPinnedFields (challenge : ChallengeEcho) (request : ChargeRequest) : Raises Unit := do
  raiseIf (challenge.method ≠ "solana") "challenge-mismatch"
    s!"credential method '{challenge.method}' does not match this server (expected 'solana')"
  raiseIf (challenge.intent.toLower ≠ "charge") "challenge-mismatch"
    s!"credential intent '{challenge.intent}' is not a charge"
  raiseIf (challenge.realm ≠ m.realm) "challenge-mismatch"
    s!"credential realm '{challenge.realm}' does not match this server (expected '{m.realm}')"
  raiseIf (request.currency ≠ m.currency) "challenge-mismatch"
    s!"credential currency '{request.currency}' does not match this server (expected '{m.currency}')"
  raiseIf (request.recipient ≠ m.recipient) "recipient-mismatch"
    "credential recipient does not match this server"

/-- `_verify_challenge_and_decode`, with the clock that `is_expired` reads. -/
def verifyChallengeAndDecode (credential : PaymentCredential) (now : Int) :
    Raises (ChargeRequest × MethodDetails × CredentialPayload) := do
  raiseIf (credential.challenge.id ≠ m.computeChallengeId credential.challenge)
    "challenge-mismatch" "challenge ID mismatch"
  raiseIf (m.isExpired credential.challenge now) "challenge-expired"
    s!"challenge expired at {credential.challenge.expires}"
  let bytes ← base64UrlDecode credential.challenge.request
  let data ← okOrElse (m.libraries.parseJson bytes) { message := "Expecting value" }
  let request ← ChargeRequest.fromDict data
  m.verifyPinnedFields credential.challenge request
  let details ← if isTrue request.methodDetails then MethodDetails.fromDict request.methodDetails
    else .ok {}
  let payload ← CredentialPayload.fromDict credential.payload
  return (request, details, payload)

/-- What `_verify_transaction` checks before it marks the transaction. -/
def checkTransaction (request : ChargeRequest) (details : MethodDetails)
    (payload : CredentialPayload) : Raises Unit := do
  raiseIf (payload.transaction = "") "missing-transaction"
    "missing transaction data in credential payload"
  raiseIf (m.hasRpc = false) "invalid-config" "rpc client is required for transaction verification"
  raiseIf (details.feePayer = true) "invalid-payload-type"
    "type=\"transaction\" with fee sponsorship is not yet supported in python"
  let blockhashB58 ← match extractRecentBlockhash payload.transaction with
    | .ok blockhashB58 => .ok blockhashB58
    | .error (.error _) =>
        paymentError "invalid-payload-type" "could not decode transaction to read blockhash"
    | .error (.panic message) => .error (.panic message)
  checkNetworkBlockhash m.network blockhashB58
  verifyLocalTransactionIntent m.libraries.findProgramAddress payload.transaction request details

/-- What `_verify_signature` checks before it marks the signature. -/
def checkSignature (payload : CredentialPayload) : Raises Unit := do
  raiseIf (payload.signature = "") "missing-signature" "missing signature in credential payload"
  raiseIf (m.hasRpc = false) "invalid-config" "rpc client is required for signature verification"

/-- `_CONSUMED_PREFIX`. -/
def CONSUMED_PREFIX : String := "solana-charge:consumed:"

/-- The key under which a payment is marked: of a transaction only the first 64 characters
count. -/
def consumedKey (payload : CredentialPayload) : String :=
  if payload.type = "transaction" then
    CONSUMED_PREFIX ++ String.ofList (payload.transaction.toList.take 64)
  else CONSUMED_PREFIX ++ payload.signature

/-- The use of `put_if_absent`. -/
def markConsumed (key : String) : ChargeM Unit := do
  let inserted ← await (ask (.putIfAbsent key))
  raiseIf (inserted = false) "signature-consumed" "transaction signature already consumed"

/-- `Signature.from_string`. -/
def signatureFromString (s : String) : Raises Signature :=
  okOrElse (Bytes.fromBase58 64 s) { message := "failed to decode string to signature" }

/-- `_status_ok`. -/
def statusOk (data : Json) : Raises Bool :=
  match data with
  | .arr entries => do
      let found ← nextIndex (fun entry => do
        if isTrue entry then return match ← getKey entry "err" with
          | .null => true
          | _ => false
        else return false) 0 entries
      return found.isSome
  | .null => return false
  | _ => return true

/-- `_transaction_dict`. -/
def transactionDict : Json → Option Json
  | .obj fields => if (Json.field fields "transaction").isSome then some (.obj fields) else none
  | _ => none

/-- `_verify_confirmed_transaction`. -/
def verifyConfirmedTransaction (tx : Json) (request : ChargeRequest) (details : MethodDetails) :
    Raises Unit := do
  let metadata := orEmpty (← getKey tx "meta")
  let failed := match ← getKey metadata "err" with
    | .null => false
    | _ => true
  raiseIf (failed = true) "transaction-failed" "transaction failed on-chain"
  let transaction := orEmpty (← getKey tx "transaction")
  let message := orEmpty (← getKey transaction "message")
  let instructions ← getKey message "instructions"
  let instructions ← if isTrue instructions then iterate instructions else .ok []
  verifyInstructions m.libraries.findProgramAddress instructions request details

/-- The transaction of a signature is looked up and verified, and a receipt made. -/
def lookUp (credential : PaymentCredential) (request : ChargeRequest) (details : MethodDetails)
    (reference : String) (sig : Signature) : ChargeM Receipt := do
  let (response, now) ← ask (.getTransaction sig)
  let value ← response
  let tx ← okOrElse (transactionDict value)
    (PyError.mk (some "transaction-not-found") "transaction not found or not yet confirmed")
  m.verifyConfirmedTransaction tx request details
  return {
    method := "solana"
    timestamp := m.libraries.isoFormat now
    reference
    challengeId := credential.challenge.id
    externalId := request.externalId }

/-- The body of `_verify_transaction` after the transaction is marked. -/
def sendAndLookUp (credential : PaymentCredential) (request : ChargeRequest)
    (details : MethodDetails) (payload : CredentialPayload) : ChargeM Receipt := do
  let rawTx ← b64decode payload.transaction
  let signature ← await (ask (.sendRawTransaction rawTx))
  let sig ← signatureFromString signature
  let statuses ← await (ask (.confirmTransaction sig))
  let confirmed ← statusOk statuses
  raiseIf (confirmed = false) "transaction-not-found" "transaction not confirmed"
  m.lookUp credential request details signature sig

/-- `_verify_transaction`. -/
def verifyTransaction (credential : PaymentCredential) (request : ChargeRequest)
    (details : MethodDetails) (payload : CredentialPayload) : ChargeM Receipt := do
  m.checkTransaction request details payload
  let key := consumedKey payload
  markConsumed key
  exceptException (m.sendAndLookUp credential request details payload) (await (ask (.delete key)))

/-- `_verify_signature`. -/
def verifySignature (credential : PaymentCredential) (request : ChargeRequest)
    (details : MethodDetails) (payload : CredentialPayload) : ChargeM Receipt := do
  m.checkSignature payload
  let key := consumedKey payload
  markConsumed key
  exceptException (do
    let sig ← signatureFromString payload.signature
    m.lookUp credential request details payload.signature sig) (await (ask (.delete key)))

/-- `_verify_payload`. -/
def verifyPayload (credential : PaymentCredential) (request : ChargeRequest)
    (details : MethodDetails) (payload : CredentialPayload) : ChargeM Receipt :=
  if payload.type = "transaction" then m.verifyTransaction credential request details payload
  else if payload.type = "signature" then do
    raiseIf (details.feePayer = true) "invalid-payload-type"
      "type=\"signature\" credentials cannot be used with fee sponsorship"
    m.verifySignature credential request details payload
  else liftM (paymentError "invalid-payload-type" "missing or invalid payload type" : Raises Receipt)

/-- `verify_credential`. -/
def verifyCredential (credential : PaymentCredential) : ChargeM Receipt := do
  let now ← ask .now
  let (request, details, payload) ← m.verifyChallengeAndDecode credential (show Int from now)
  m.verifyPayload credential request details payload

end Mpp
end Py
end MppSdk
