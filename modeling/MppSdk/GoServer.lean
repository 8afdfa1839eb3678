import MppSdk.GoTypes
import MppSdk.Interleaving
import MppSdk.PreBroadcast

/-! # The Go charge server

`VerifyCredential` of `go/server/server.go`: a transaction is signed, marked in the store,
simulated, sent and only checked when it is confirmed; a signature is marked and its
transaction looked up.  A verification is a script, cut where the code reads the clock, asks
the signer or the RPC node, or uses the store. -/

namespace MppSdk
namespace Go
open Script

/-! ## The transfers of a charge -/

/-- `SplitAmounts`: the amount left for the recipient; the sum of the splits wraps. -/
def splitAmounts (libraries : Libraries) (total : UInt64) (splits : List Split) :
    Result UInt64 := do
  rejectIf (splits.length > 8)
    { code := some "too-many-splits", message := "splits exceed maximum of 8 entries" }
  let splitTotal ← splits.foldlM (fun splitTotal split => do
    let amount ← okOrElse (sscanUint64 split.amount)
      (GoError.mk none ("invalid split amount " ++ libraries.quote split.amount))
    return splitTotal + amount) (0 : UInt64)
  rejectIf (total ≤ splitTotal)
    { code := some "splits-exceed-amount", message := "splits consume the entire amount" }
  return total - splitTotal

/-- `PublicKeyFromBase58`. -/
def publicKey (s : String) : Result Pubkey :=
  okOrElse (Bytes.fromBase58 32 s) { message := "decode: invalid public key" }

/-- `MustPublicKeyFromBase58`. -/
def mustPublicKey (s : String) : Result Pubkey :=
  match Bytes.fromBase58 32 s with
  | some key => .ok key
  | none => .error (.panic "decode: invalid public key")

/-- `buildExpectedTransfers`: recipients and amounts, the primary first. -/
def buildExpectedTransfers (libraries : Libraries) (amount : UInt64) (recipient : Pubkey)
    (details : MethodDetails) : Result (List (Pubkey × UInt64)) := do
  let primaryAmount ← splitAmounts libraries amount details.splits
  let splits ← details.splits.mapM fun split => do
    let splitAmount ← parseAmount split.amount
    let splitRecipient ← publicKey split.recipient
    return (splitRecipient, splitAmount)
  return (recipient, primaryAmount) :: splits

/-- `buildExpectedMemos`. -/
def buildExpectedMemos (externalID : String) (splits : List Split) : List (String × String) :=
  (if externalID = "" then [] else [("externalId", externalID)]) ++
    (splits.filter fun split => split.memo ≠ "").map fun split => ("split", split.memo)

section Match
variable (libraries : Libraries) (message : VersionedMessage) (matched : List Nat)

/-- `tx.Message.AccountKeys[compiled.ProgramIDIndex]`. -/
def programID (compiled : CompiledInstruction) : Result Pubkey :=
  match message.staticAccountKeys[compiled.programIdIndex.toNat]? with
  | some key => .ok key
  | none => .error (.panic "index out of range")

/-- The inner loop body for native SOL. -/
def solTransferAt (want : Pubkey × UInt64) (compiled : CompiledInstruction) (index : Nat) :
    Result (Option Nat) :=
  continueIf (index ∈ matched) do
    let programID ← programID message compiled
    continueIf (programID ≠ programs.systemKey) do
      let accounts ← orReturn (libraries.resolveAccounts message compiled)
      continueIf (libraries.systemTransfer accounts compiled.data ≠ some want) <|
        return some index

/-- The inner loop body for a token; `ata` is the account of the recipient. -/
def tokenTransferAt (mint expectedProgram ata : Pubkey) (amount : UInt64)
    (compiled : CompiledInstruction) (index : Nat) : Result (Option Nat) :=
  continueIf (index ∈ matched) do
    let programID ← programID message compiled
    continueIf (programID ≠ expectedProgram) do
      let accounts ← orReturn (libraries.resolveAccounts message compiled)
      continueIf (libraries.transferChecked expectedProgram accounts compiled.data ≠
          some (mint, ata, amount)) <|
        return some index

/-- The inner loop body of `verifyMemoInstructions`. -/
def memoAt (value : String) (compiled : CompiledInstruction) (index : Nat) :
    Result (Option Nat) :=
  continueIf (index ∈ matched) do
    let programID ← programID message compiled
    continueIf (¬ (programID = programs.memoKey ∧ compiled.data = utf8 value)) <|
      return some index

/-- `verifyMemoInstructions`: the expected memos, and then no other. -/
def verifyMemoInstructions (externalID : String) (splits : List Split) : Result Unit := do
  let matched ← (buildExpectedMemos externalID splits).foldlM (fun matched want => do
    rejectIf ((utf8 want.2).length > 566)
      { code := some "invalid-payload-type", message := "memo cannot exceed 566 bytes" }
    match ← scan (memoAt message matched want.2) 0 message.instructions with
    | some index => return index :: matched
    | none =>
        newError "invalid-payload-type" (s!"no memo instruction found for {want.1} memo " ++ libraries.quote want.2)) matched
  message.instructions.zipIdx.forM fun (compiled, index) => do
    if index ∉ matched then
      let programID ← programID message compiled
      rejectIf (programID = programs.memoKey)
        { code := some "invalid-payload-type"
          message := "unexpected Memo Program instruction in payment transaction" }

end Match

/-- The token program of `verifyTransfersAgainstChallenge`. -/
def expectedTokenProgram (currency : String) (details : MethodDetails) : Pubkey :=
  let tokenProgram :=
    if details.tokenProgram = "" ∧ stablecoinSymbol currency ≠ "" then
      defaultTokenProgramForCurrency currency details.network
    else details.tokenProgram
  if tokenProgram = programs.TOKEN_2022_PROGRAM then programs.token2022Key
  else programs.tokenKey

/-- `verifyTransfersAgainstChallenge`: the transfers and the memos are there.  It looks at no
other instruction and at no source. -/
def verifyTransfersAgainstChallenge (libraries : Libraries) (message : VersionedMessage)
    (amount : UInt64) (currency : String) (recipient : Pubkey) (externalID : String)
    (details : MethodDetails) : Result Unit := do
  let expected ← buildExpectedTransfers libraries amount recipient details
  if isNativeSOL currency then
    let matched ← expected.foldlM (fun matched want => do
      match ← scan (solTransferAt libraries message matched want) 0 message.instructions with
      | some index => return index :: matched
      | none =>
          newError "no-transfer-instruction"
            s!"no matching SOL transfer for {want.1.toBase58}") []
    verifyMemoInstructions libraries message matched externalID details.splits
  else
    let mint ← mustPublicKey (resolveMint currency details.network)
    let expectedProgram := expectedTokenProgram currency details
    let tokenExpected ← expected.mapM fun want => do
      let ata ← orReturn (libraries.findProgramAddress
        [want.1.toList, expectedProgram.toList, mint.toList] programs.associatedTokenKey)
      return (want.1, ata, want.2)
    let matched ← tokenExpected.foldlM (fun matched (want, ata, amount) => do
      match ← scan (tokenTransferAt libraries message matched mint expectedProgram ata amount) 0
          message.instructions with
      | some index => return index :: matched
      | none =>
          newError "no-transfer-instruction"
            s!"no matching token transfer for {want.toBase58}") []
    verifyMemoInstructions libraries message matched externalID details.splits

/-! ## Credentials -/

/-- `ChallengeEcho`; `opaqueRaw` is empty without an `Opaque`. -/
structure ChallengeEcho where
  id : String
  realm : String
  method : String
  intent : String
  request : String
  expires : String := ""
  digest : String := ""
  opaqueRaw : String := ""
deriving DecidableEq

/-- `PaymentCredential`. -/
structure PaymentCredential where
  challenge : ChallengeEcho
  payload : Option Json := none

/-- `Receipt`; a receipt of this server is of the method `solana` and says success. -/
structure Receipt where
  timestamp : String
  reference : String
  challengeID : String
  externalID : String
deriving DecidableEq

/-- `ComputeChallengeID`. -/
def computeChallengeID (libraries : Libraries)
    (secretKey realm method intent request expires digest opaqueRaw : String) : String :=
  libraries.base64UrlEncode (libraries.hmacSha256 (utf8 secretKey) (utf8
    (String.intercalate "|" [realm, method, intent, request, expires, digest, opaqueRaw])))

/-- `Base64URLDecode`. -/
def base64URLDecode (libraries : Libraries) (input : String) : Except String (List UInt8) :=
  libraries.base64UrlDecode (String.ofList ((input.toList.filter (· ≠ '=')).map fun c =>
    if c = '+' then '-' else if c = '/' then '_' else c))

/-! ## The surroundings -/

/-- A status of `GetSignatureStatuses`. -/
structure SignatureStatus where
  err : Option String := none
  confirmationStatus : String := ""
  confirmations : Option Nat := none

/-- What the server asks of its surroundings. -/
inductive ChargeOp : Type
  | now
  | sign (message : VersionedMessage)
  | putIfAbsent (key : String)
  | delete (key : String)
  | simulateTransaction (tx : VersionedTransaction)
  | sendTransaction (tx : VersionedTransaction)
  | signatureStatus (signature : Signature)
  | tick
  | getTransaction (signature : Signature)

/-- The answers; `tick` waits for the ticker, or for the end of the context. -/
def ChargeOp.Answer : ChargeOp → Type
  | .now => Int
  | .sign _ => Except String Signature
  | .putIfAbsent _ => Except String Bool
  | .delete _ => Unit
  | .simulateTransaction _ => Except String (Option String)
  | .sendTransaction _ => Except String Signature
  | .signatureStatus _ => Except String (Option SignatureStatus)
  | .tick => Except String Unit
  | .getTransaction _ => Except String (VersionedTransaction × Option String)

/-- The interface of the server. -/
abbrev chargeInterface : Interface := ⟨ChargeOp, ChargeOp.Answer⟩

/-- What comes from outside at an operation.  `storeError` is a failure of the store. -/
structure ChargeInput where
  now : Int := 0
  sign : Except String Signature := .error ""
  simulateTransaction : Except String (Option String) := .error ""
  sendTransaction : Except String Signature := .error ""
  signatureStatus : Except String (Option SignatureStatus) := .error ""
  tick : Except String Unit := .error ""
  getTransaction : Except String (VersionedTransaction × Option String) := .error ""
  storeError : Option String := none

/-- The keys of the store. -/
abbrev Store : Type := List String

/-- What an operation does to the store; the error of a `Delete` is dropped. -/
def chargeHandler : Handler chargeInterface Store ChargeInput
  | .now, x, store => (store, x.now)
  | .sign _, x, store => (store, x.sign)
  | .putIfAbsent key, x, store =>
      match x.storeError with
      | some e => (store, .error e)
      | none => if key ∈ store then (store, .ok false) else (key :: store, .ok true)
  | .delete key, x, store =>
      match x.storeError with
      | some _ => (store, ())
      | none => (store.filter (· ≠ key), ())
  | .simulateTransaction _, x, store => (store, x.simulateTransaction)
  | .sendTransaction _, x, store => (store, x.sendTransaction)
  | .signatureStatus _, x, store => (store, x.signatureStatus)
  | .tick, x, store => (store, x.tick)
  | .getTransaction _, x, store => (store, x.getTransaction)

/-- A program of the server. -/
abbrev ChargeM : Type → Type := ExceptT (Failure GoError) (Script chargeInterface)

/-- Perform one operation. -/
abbrev ask (op : ChargeOp) : ChargeM op.Answer := liftM (perform (F := chargeInterface) op)

/-- Return an error. -/
abbrev fail {α : Type} (code message : String) : ChargeM α :=
  liftM (newError code message : Result α)

/-- `defer`: what is done when the body returns an error or panics. -/
def onFailure {α : Type} (cleanup : ChargeM Unit) (body : ChargeM α) : ChargeM α :=
  ExceptT.mk (body.run >>= fun
    | .ok a => done (.ok a)
    | .error e => cleanup.run >>= fun _ => done (.error e))

/-! ## Verification -/

/-- `Mpp`: what a verification reads of the server.  `rounds` is a number of polls that the
context never lets the server reach. -/
structure Mpp where
  secretKey : String
  realm : String
  recipient : Pubkey
  currency : String
  network : String
  feePayerSigner : Option Pubkey
  libraries : Libraries
  rounds : Nat

namespace Mpp
variable (m : Mpp)

/-- `CheckNetworkBlockhash`. -/
def checkNetworkBlockhash (network blockhashB58 : String) : Result Unit :=
  if ¬ "SURFNETxSAFEHASH".toList.isPrefixOf blockhashB58.toList then .ok ()
  else if network = "localnet" then .ok ()
  else newError "wrong-network"
    (s!"Signed against localnet but the server expects {network}. " ++
      s!"Switch your client RPC to {network} and re-sign.")

/-- `verifyPinnedFields`. -/
def verifyPinnedFields (challenge : ChallengeEcho) (request : ChargeRequest) : Result Unit := do
  let quote := m.libraries.quote
  rejectIf (challenge.method ≠ "solana")
    { code := some "challenge-mismatch"
      message := "credential method " ++ quote challenge.method ++
        " does not match this server (expected " ++ quote "solana" ++ ")" }
  rejectIf (¬ equalFold challenge.intent "charge")
    { code := some "challenge-mismatch"
      message := "credential intent " ++ quote challenge.intent ++ " is not a charge" }
  rejectIf (challenge.realm ≠ m.realm)
    { code := some "challenge-mismatch"
      message := "credential realm " ++ quote challenge.realm ++
        " does not match this server (expected " ++ quote m.realm ++ ")" }
  rejectIf (request.currency ≠ m.currency)
    { code := some "challenge-mismatch"
      message := "credential currency " ++ quote request.currency ++
        " does not match this server (expected " ++ quote m.currency ++ ")" }
  rejectIf (request.recipient ≠ m.recipient.toBase58)
    { code := some "recipient-mismatch"
      message := "credential recipient does not match this server" }

/-- `challenge.Verify`. -/
def verifyChallengeID (challenge : ChallengeEcho) : Result Unit :=
  rejectIf (challenge.id ≠ computeChallengeID m.libraries m.secretKey challenge.realm
      challenge.method challenge.intent challenge.request challenge.expires challenge.digest
      challenge.opaqueRaw)
    { code := some "challenge-mismatch", message := "challenge ID mismatch" }

/-- `IsExpired`. -/
def isExpired (challenge : ChallengeEcho) (now : Int) : Bool :=
  if challenge.expires.toList.all isSpace then false
  else match m.libraries.parseRfc3339 challenge.expires with
    | none => true
    | some expiresAt => expiresAt ≤ now

/-- `challenge.Request.Decode`. -/
def decodeRequest (challenge : ChallengeEcho) : Result ChargeRequest := do
  let payload ← orReturn (base64URLDecode m.libraries challenge.request)
  let value ← okOrElse (m.libraries.parseJson payload)
    (GoError.mk none "invalid character in JSON text")
  okOrElse (ChargeRequest.ofJson value) { message := "json: cannot unmarshal ChargeRequest" }

/-- `decodeMethodDetails`. -/
def decodeMethodDetails (value : Option Json) : Result MethodDetails :=
  match value with
  | none => .ok {}
  | some value => okOrElse (MethodDetails.ofJson (m.libraries.remarshal value))
      { message := "json: cannot unmarshal MethodDetails" }

/-- `PayloadAs`. -/
def payloadAs (credential : PaymentCredential) : Result CredentialPayload :=
  match credential.payload with
  | none => .ok {}
  | some value => okOrElse (CredentialPayload.ofJson value)
      { message := "json: cannot unmarshal CredentialPayload" }

/-- `verifyChallengeAndDecode` after the clock is read. -/
def checkAndDecode (credential : PaymentCredential) (now : Int) :
    Result (ChargeRequest × MethodDetails × CredentialPayload) := do
  rejectIf (m.isExpired credential.challenge now)
    { code := some "challenge-expired"
      message := s!"challenge expired at {credential.challenge.expires}" }
  let request ← m.decodeRequest credential.challenge
  m.verifyPinnedFields credential.challenge request
  let details ← m.decodeMethodDetails request.methodDetails
  let payload ← payloadAs credential
  return (request, details, payload)

/-- `verifyChallengeAndDecode`. -/
def verifyChallengeAndDecode (credential : PaymentCredential) :
    ChargeM (ChargeRequest × MethodDetails × CredentialPayload) := do
  m.verifyChallengeID credential.challenge
  let now ← ask .now
  m.checkAndDecode credential (show Int from now)

/-- What `verifyTransaction` does before it asks the signer. -/
def decodeTransaction (payload : CredentialPayload) : Result VersionedTransaction := do
  rejectIf (payload.transaction = "")
    { code := some "missing-transaction"
      message := "missing transaction data in credential payload" }
  let wire ← orReturn (m.libraries.base64Decode payload.transaction)
  let tx ← orReturn (m.libraries.unmarshalTransaction wire)
  checkNetworkBlockhash m.network tx.message.body.recentBlockhash.toBase58
  return tx

/-- `SignTransaction`. -/
def signTransaction (tx : VersionedTransaction) (signer : Pubkey) :
    ChargeM VersionedTransaction := do
  let _message ← orReturn (m.libraries.marshalMessage tx.message)
  let signature ← orReturn (← ask (.sign tx.message))
  let signers := m.libraries.signers tx.message
  let signatures :=
    if tx.signatures.length = signers.length then tx.signatures
    else List.replicate signers.length ⟨List.replicate 64 0, List.length_replicate⟩
  let index ← okOrElse (signers.idxOf? signer)
    (GoError.mk none s!"signer {signer.toBase58} is not required by transaction")
  return { tx with signatures := signatures.set index signature }

/-- The transaction that is simulated and sent: the client's, signed if there is a signer. -/
def transactionToSend (tx : VersionedTransaction) : ChargeM VersionedTransaction :=
  match m.feePayerSigner with
  | some signer => m.signTransaction tx signer
  | none => return tx

/-- The signature under which a transaction is marked. -/
def primarySignature (tx : VersionedTransaction) : Result Signature :=
  okOrElse (tx.signatures.head?.filter fun signature => signature.toList.any (· ≠ 0))
    { code := some "missing-signature"
      message := "transaction is missing a primary signature" }

/-- `consumedPrefix` and a signature. -/
def consumedKey (signature : String) : String := "solana-charge:consumed:" ++ signature

/-- The use of `PutIfAbsent`. -/
def markConsumed (key : String) : ChargeM Unit := do
  let inserted ← orReturn (← ask (.putIfAbsent key))
  rejectIf (inserted = false)
    (GoError.mk (some "signature-consumed") "transaction signature already consumed")

/-- `SimulateTransaction`, its error wrapped. -/
def simulateTransaction (tx : VersionedTransaction) : ChargeM Unit := do
  match ← ask (.simulateTransaction tx) with
  | .error err => fail "simulation-failed" s!"simulate transaction: {err}"
  | .ok (some err) =>
      fail "simulation-failed" s!"simulate transaction: simulation failed: {err}"
  | .ok none => return ()

/-- `SendTransaction`, its error wrapped. -/
def sendTransaction (tx : VersionedTransaction) : ChargeM Signature := do
  match ← ask (.sendTransaction tx) with
  | .error err => fail "rpc-error" s!"send transaction: {err}"
  | .ok signature => return signature

/-- Whether a status ends the polling, and the error that it ends with. -/
def settled (status : SignatureStatus) : Option (Option String) :=
  match status.err with
  | some err => some (some err)
  | none =>
      if status.confirmationStatus = "confirmed" ∨ status.confirmationStatus = "finalized" ∨
          status.confirmations = none then some none
      else none

/-- What a poll ends with, if it ends the polling. -/
def pollResult (reply : Except String (Option SignatureStatus)) : Option (Option String) :=
  (reply.toOption.bind id).bind settled

/-- `WaitForConfirmation`, with the polls that are left; its error is wrapped. -/
def waitForConfirmation (signature : Signature) : Nat → ChargeM Unit
  | 0 => fail "transaction-failed" "confirm transaction: context deadline exceeded"
  | rounds + 1 => do
      let reply ← ask (.signatureStatus signature)
      match pollResult reply with
      | some (some err) =>
          fail "transaction-failed" s!"confirm transaction: transaction failed on-chain: {err}"
      | some none => return ()
      | none => do
          match ← ask .tick with
          | .error err => fail "transaction-failed" s!"confirm transaction: {err}"
          | .ok () => waitForConfirmation signature rounds

/-- `verifyOnChain`. -/
def verifyOnChain (signature : Signature) (request : ChargeRequest) (details : MethodDetails) :
    ChargeM Unit := do
  match ← ask (.getTransaction signature) with
  | .error err =>
      fail "transaction-not-found" s!"transaction not found or not yet confirmed: {err}"
  | .ok (_, some err) => fail "transaction-failed" s!"transaction failed on-chain: {err}"
  | .ok (tx, none) => do
      let amount ← parseAmount request.amount
      verifyTransfersAgainstChallenge m.libraries tx.message amount request.currency m.recipient
        request.externalID details

/-- `successReceipt`. -/
def successReceipt (reference challengeID externalID : String) : ChargeM Receipt := do
  let now ← ask .now
  return { timestamp := m.libraries.formatRfc3339 now, reference, challengeID, externalID }

/-- The part of `verifyTransaction` in which the mark is deleted on a failure. -/
def sendAndVerify (tx : VersionedTransaction) (request : ChargeRequest)
    (details : MethodDetails) : ChargeM Signature := do
  simulateTransaction tx
  let signature ← sendTransaction tx
  waitForConfirmation signature m.rounds
  m.verifyOnChain signature request details
  return signature

/-- `verifyTransaction`. -/
def verifyTransaction (credential : PaymentCredential) (request : ChargeRequest)
    (details : MethodDetails) (payload : CredentialPayload) : ChargeM Receipt := do
  let tx ← m.decodeTransaction payload
  let tx ← m.transactionToSend tx
  let primary ← primarySignature tx
  let key := consumedKey primary.toBase58
  markConsumed key
  let signature ← onFailure (ask (.delete key)) (m.sendAndVerify tx request details)
  m.successReceipt signature.toBase58 credential.challenge.id request.externalID

/-- The body of `verifySignature` after the signature is marked. -/
def checkSignature (request : ChargeRequest) (details : MethodDetails)
    (payload : CredentialPayload) : ChargeM Unit := do
  let signature ← okOrElse (Bytes.fromBase58 64 payload.signature)
    (GoError.mk none "decode: invalid signature")
  m.verifyOnChain signature request details

/-- `verifySignature`.  It deletes the mark on an error, and leaves it on a panic. -/
def verifySignature (credential : PaymentCredential) (request : ChargeRequest)
    (details : MethodDetails) (payload : CredentialPayload) : ChargeM Receipt := do
  rejectIf (payload.signature = "")
    (GoError.mk (some "missing-signature") "missing signature in credential payload")
  let key := consumedKey payload.signature
  markConsumed key
  ExceptT.mk ((m.checkSignature request details payload).run >>= fun
    | .error (.error e) => (ask (.delete key)).run >>= fun _ => done (.error (.error e))
    | r => done r)
  m.successReceipt payload.signature credential.challenge.id request.externalID

/-- `verifyPayload`. -/
def verifyPayload (credential : PaymentCredential) (request : ChargeRequest)
    (details : MethodDetails) (payload : CredentialPayload) : ChargeM Receipt :=
  if payload.type = "transaction" then m.verifyTransaction credential request details payload
  else if payload.type = "signature" then do
    rejectIf (details.feePayer = some true)
      (GoError.mk (some "invalid-payload-type")
        "type=\"signature\" credentials cannot be used with fee sponsorship")
    m.verifySignature credential request details payload
  else fail "invalid-payload-type" "missing or invalid payload type"

/-- `VerifyCredential`. -/
def verifyCredential (credential : PaymentCredential) : ChargeM Receipt := do
  let (request, details, payload) ← m.verifyChallengeAndDecode credential
  m.verifyPayload credential request details payload

end Mpp
end Go
end MppSdk
