import MppSdk.Interleaving
import MppSdk.LuaCrypto
import MppSdk.LuaExpires
import MppSdk.LuaHeaders
import MppSdk.LuaJsonRoundTrip
import MppSdk.LuaVerify

/-! # The charge server in Lua

`server/init.lua` with `protocol/core/challenge.lua` and `store.lua`: a credential is checked
against the challenge it echoes, its payment is verified, and its reference is put into the
store.  A verification is a script, cut where the code reads the clock, calls a hook or uses the
store. -/

namespace MppSdk
namespace Lua
namespace Server
open Lua.Json Script

/-! ## Challenges, `protocol/core/challenge.lua` -/

/-- A challenge as a table, its request and its opaque data in their raw form.  What a client
sends back can lack any field. -/
structure Echo where
  id : Option Str := none
  realm : Option Str := none
  method : Option Str := none
  intent : Option Str := none
  request : Option Str := none
  expires : Option Str := none
  digest : Option Str := none
  opaqueRaw : Option Str := none
  deriving DecidableEq

/-- The message of `compute_challenge_id`. -/
def Echo.message (echo : Echo) : Str :=
  [byte '|'].intercalate [echo.realm.getD [], echo.method.getD [], echo.intent.getD [],
    echo.request.getD [], echo.expires.getD [], echo.digest.getD [], echo.opaqueRaw.getD []]

/-- `compute_challenge_id` of the fields of a challenge. -/
def Echo.computeId (echo : Echo) (secretKey : Str) : Str :=
  Crypto.hmacSha256Base64url secretKey echo.message

/-- `verify` of a challenge. -/
def Echo.verify (echo : Echo) (secretKey : Str) : Bool := echo.id = some (echo.computeId secretKey)

/-- The payload of a credential, of which these fields are read. -/
structure Payload where
  type : Option Str := none
  signature : Option Str := none
  transaction : Option Str := none
  deriving DecidableEq

/-- A credential. -/
structure Credential where
  challenge : Echo
  payload : Option Payload
  deriving DecidableEq

/-- A receipt. -/
structure Receipt where
  method : Str
  timestamp : Str
  reference : Str
  challengeId : Option Str
  externalId : Option Value
  status : Str

/-! ## Values of any type -/

/-- `value[name]`, for a name that the string library does not have. -/
def field (name : String) : Value → Throws (Option Value)
  | .null | .string _ => pure none
  | .table _ fields => pure (fields.lookup (lit name))
  | .boolean _ => error (lit "attempt to index a boolean value")
  | .number _ => error (lit "attempt to index a number value")

/-- Neither `nil` nor `false`. -/
def truthy : Option Value → Bool
  | none | some (.boolean false) => false
  | _ => true

/-- `value or {}`. -/
def orEmpty : Option Value → Value
  | none | some (.boolean false) => .table [] []
  | some value => value

/-- `==`.  A table that has been decoded is no other table. -/
def rawEqual : Option Value → Option Value → Bool
  | none, none => true
  | some .null, some .null => true
  | some (.boolean a), some (.boolean b) => a = b
  | some (.number a), some (.number b) => a = b ∧ a ≠ .nan
  | some (.string a), some (.string b) => a = b
  | _, _ => false

/-- `tostring`; the address of a table is left out. -/
def shown : Option Value → Str
  | none => lit "nil"
  | some .null | some (.table _ _) => lit "table"
  | some (.boolean b) => if b then lit "true" else lit "false"
  | some (.number (.finite q)) => ascii (format14g q)
  | some (.number .huge) => lit "inf"
  | some (.number .minusHuge) => lit "-inf"
  | some (.number .nan) => lit "nan"
  | some (.string s) => s

/-- `tostring` of what is a string or `nil`. -/
def shownText (value : Option Str) : Str := value.getD (lit "nil")

/-- `if c then error(message) end`. -/
def throwIf (c : Prop) [Decidable c] (message : Str) : Throws Unit :=
  if c then error message else pure ()

/-! ## The store, `store.lua` -/

/-- `MemoryStore`: encoded values by their keys. -/
structure MemoryStore where
  data : List (Str × Str) := []
  deriving DecidableEq

namespace MemoryStore

def get (store : MemoryStore) (key : Str) : Throws (Option Value) :=
  match store.data.lookup key with
  | none => pure none
  | some text => some <$> decode text

def put (store : MemoryStore) (key : Str) (value : Value) : Throws MemoryStore := do
  return ⟨(key, ← encode value) :: store.data⟩

def delete (store : MemoryStore) (key : Str) : MemoryStore :=
  ⟨store.data.filter fun entry => entry.1 ≠ key⟩

def putIfAbsent (store : MemoryStore) (key : Str) (value : Value) :
    Throws (MemoryStore × Bool) := do
  if (store.data.lookup key).isSome then return (store, false)
  return (⟨(key, ← encode value) :: store.data⟩, true)

end MemoryStore

/-! ## The surroundings -/

/-- What the server asks of its surroundings.  Of the store it only uses `put_if_absent`, and
what `fetch_token_account` says of the accounts is one answer. -/
inductive ServerOp : Type
  | osTime
  | osDate
  | fetchTransaction (signature : Str)
  | sendTransaction (transaction : Str)
  | awaitTransaction (signature : Str)
  | tokenAccounts
  | putIfAbsent (key : Str)

/-- The answers; a hook can raise an error. -/
def ServerOp.Answer : ServerOp → Type
  | .osTime => ℤ
  | .osDate => Str
  | .fetchTransaction _ => Throws (Option Verify.Tx)
  | .sendTransaction _ => Throws (Option Str)
  | .awaitTransaction _ => Throws (Option Verify.Tx)
  | .tokenAccounts => Option String → Option Verify.TokenAccount
  | .putIfAbsent _ => Throws Bool

/-- The interface of the server. -/
abbrev serverInterface : Interface := ⟨ServerOp, ServerOp.Answer⟩

/-- What comes from outside at an operation. -/
structure ServerInput where
  osTime : ℤ := 0
  osDate : Str := []
  fetchTransaction : Throws (Option Verify.Tx) := .ok none
  sendTransaction : Throws (Option Str) := .ok none
  awaitTransaction : Throws (Option Verify.Tx) := .ok none
  tokenAccounts : Option String → Option Verify.TokenAccount := fun _ => none

/-- What an operation does to the store. -/
def serverHandler : Handler serverInterface MemoryStore ServerInput
  | .osTime, x, store => (store, x.osTime)
  | .osDate, x, store => (store, x.osDate)
  | .fetchTransaction _, x, store => (store, x.fetchTransaction)
  | .sendTransaction _, x, store => (store, x.sendTransaction)
  | .awaitTransaction _, x, store => (store, x.awaitTransaction)
  | .tokenAccounts, x, store => (store, x.tokenAccounts)
  | .putIfAbsent key, _, store =>
      match store.putIfAbsent key (.boolean true) with
      | .ok (after, inserted) => (after, .ok inserted)
      | .error message => (store, .error message)

/-- A program of the server. -/
abbrev ServerM : Type → Type := ExceptT Str (Script serverInterface)

/-- Perform one operation. -/
abbrev ask (op : ServerOp) : ServerM op.Answer := liftM (perform (F := serverInterface) op)

/-! ## Payments, `server/solana_verify.lua` -/

/-- What `verify_payment` is given. -/
structure Context where
  payload : Payload
  request : Value
  methodDetails : Value
  credential : Credential

/-- What `verify_payment` returns. -/
structure VerifyResult where
  reference : Option Str := none
  replayKey : Option Str := none
  timestamp : Option Str := none
  status : Option Str := none

/-- The hooks that are given. -/
structure VerifierHooks where
  fetchTransaction : Bool
  sendTransaction : Bool
  awaitTransaction : Bool
  fetchTokenAccount : Bool
  deriving DecidableEq

/-- The value is not a text where the verifier is given one. -/
def notText {α : Type} : Throws α := error (lit "request field is not a text")

/-- A string of bytes as a text. -/
def text? (s : Str) : Option String := String.fromUTF8? ⟨s.toArray⟩

/-- A text as a string of bytes. -/
def bytes (text : String) : Str := text.toUTF8.toList

/-- A field that is a text or absent. -/
def readText (name : String) (value : Value) : Throws (Option String) := do
  match ← field name value with
  | none => return none
  | some (.string s) =>
      match text? s with
      | some text => return some text
      | none => notText
  | some _ => notText

/-- A field that is a text. -/
def readPresent (name : String) (value : Value) : Throws String := do
  match ← readText name value with
  | some text => return text
  | none => notText

/-- A split of the request. -/
def readSplit (value : Value) : Throws Verify.Split := do
  let recipient ← readPresent "recipient" value
  let amount ← readPresent "amount" value
  let memo ← readText "memo" value
  return { recipient, amount, memo }

/-- The splits of the method details. -/
def readSplits (details : Value) : Throws (Option (List Verify.Split)) := do
  match ← field "splits" details with
  | none => return none
  | some (.table items _) => return some (← items.mapM readSplit)
  | some _ => notText

/-- The method details. -/
def readDetails (value : Value) : Throws Verify.MethodDetails := do
  let network ← readText "network" value
  let tokenProgram ← readText "tokenProgram" value
  let splits ← readSplits value
  return { network, tokenProgram, splits }

/-- The request as the verifier reads it. -/
def readRequest (value : Value) : Throws Verify.Request := do
  let amount ← readPresent "amount" value
  let currency ← readPresent "currency" value
  let recipient ← readPresent "recipient" value
  let externalId ← readText "externalId" value
  let methodDetails ← match ← field "methodDetails" value with
    | none => pure none
    | some details => some <$> readDetails details
  return { amount, currency, recipient, externalId, methodDetails }

/-- A message of the verifier. -/
def raised {α : Type} : Result α → Throws α
  | .ok a => .ok a
  | .error message => .error (bytes message)

/-- `verify_confirmed_transaction` on what a hook has returned. -/
def confirm (hooks : VerifierHooks) (reference : Str) (tx : Option Verify.Tx)
    (context : Context) : ServerM VerifyResult := do
  let accounts ← ask .tokenAccounts
  let request ← readRequest context.request
  let details ← readDetails context.methodDetails
  let hooks : Verify.Hooks := ⟨if hooks.fetchTokenAccount then some accounts else none⟩
  let _ ← raised (Verify.verifyConfirmedTransaction "" tx request details hooks)
  return { reference := some reference }

/-- `verify_signature`. -/
def verifySignature (hooks : VerifierHooks) (context : Context) : ServerM VerifyResult := do
  let signature := context.payload.signature.getD []
  throwIf (signature = []) (lit "missing signature in credential payload")
  throwIf (¬ hooks.fetchTransaction) (lit "fetch_transaction callback is required")
  let reply ← ask (.fetchTransaction signature)
  let tx ← (show Throws (Option Verify.Tx) from reply)
  confirm hooks signature tx context

/-- `verify_transaction`. -/
def verifyTransaction (hooks : VerifierHooks) (context : Context) : ServerM VerifyResult := do
  let transaction := context.payload.transaction.getD []
  throwIf (transaction = []) (lit "missing transaction in credential payload")
  throwIf (¬ hooks.sendTransaction) (lit "send_transaction callback is required")
  throwIf (¬ hooks.awaitTransaction) (lit "await_transaction callback is required")
  let reply ← ask (.sendTransaction transaction)
  let sent ← (show Throws (Option Str) from reply)
  let signature := sent.getD []
  throwIf (signature = []) (lit "send_transaction returned an empty signature")
  let reply ← ask (.awaitTransaction signature)
  let tx ← (show Throws (Option Verify.Tx) from reply)
  confirm hooks signature tx context

/-- `new_signature_verifier`. -/
def newSignatureVerifier (hooks : VerifierHooks) (context : Context) : ServerM VerifyResult :=
  if context.payload.type = some (lit "transaction") then verifyTransaction hooks context
  else verifySignature hooks context

end Server

/-! ## The server, `server/init.lua` -/

/-- The server; its store is the one of the surroundings. -/
structure Server where
  secretKey : Str
  realm : Str
  recipient : Str
  currency : Str
  decimals : Nat
  network : Str
  feePayer : Bool
  feePayerKey : Option Str
  recentBlockhash : Option Str
  verifyPayment : Option (Server.Context → Server.ServerM Server.VerifyResult)

namespace Server
open Lua.Json Script

/-- `CONSUMED_PREFIX`. -/
def CONSUMED_PREFIX : Str := lit "solana-charge:consumed:"

/-- `is_charge_intent`. -/
def isChargeIntent (name : Option Str) : Bool := Headers.lower (name.getD []) = lit "charge"

/-- What a server is made of. -/
structure Config where
  recipient : Option Str := none
  secretKey : Option Str := none
  realm : Option Str := none
  currency : Option Str := none
  decimals : Option Nat := none
  network : Option Str := none
  feePayer : Bool := false
  feePayerKey : Option Str := none
  recentBlockhash : Option Str := none
  verifyPayment : Option (Context → ServerM VerifyResult) := none
  verifierHooks : Option VerifierHooks := none

/-- `new`, with the variable `MPP_SECRET_KEY` of the environment. -/
def new (config : Config) (environmentKey : Option Str) : Throws Server := do
  let recipient := config.recipient.getD []
  throwIf (recipient = []) (lit "recipient is required")
  let secretKey := (config.secretKey.or environmentKey).getD []
  throwIf (secretKey = []) (lit "missing secret key")
  return {
    secretKey
    realm := config.realm.getD (lit "MPP Payment")
    recipient
    currency := config.currency.getD (lit "USDC")
    decimals := config.decimals.getD 6
    network := config.network.getD (lit "mainnet-beta")
    feePayer := config.feePayer
    feePayerKey := config.feePayerKey
    recentBlockhash := config.recentBlockhash
    verifyPayment := config.verifyPayment.or (config.verifierHooks.map newSignatureVerifier) }

/-- The server with the verifier of these hooks. -/
def withHooks (server : Server) (hooks : VerifierHooks) : Server :=
  { server with verifyPayment := some (newSignatureVerifier hooks) }

variable (server : Server)

/-- `_verify_pinned_fields`. -/
def verifyPinnedFields (echoed : Echo) (request : Value) : Throws Unit := do
  throwIf (echoed.method ≠ some (lit "solana")) (lit "credential method '" ++
    shownText echoed.method ++ lit "' does not match this server (expected 'solana')")
  throwIf (¬ isChargeIntent echoed.intent)
    (lit "credential intent '" ++ shownText echoed.intent ++ lit "' is not a charge")
  throwIf (echoed.realm ≠ some server.realm) (lit "credential realm '" ++
    shownText echoed.realm ++ lit "' does not match this server (expected '" ++ server.realm ++
    lit "')")
  let currency ← field "currency" request
  throwIf (¬ rawEqual currency (some (.string server.currency))) (lit "credential currency '" ++
    shown currency ++ lit "' does not match this server (expected '" ++ server.currency ++
    lit "')")
  let recipient ← field "recipient" request
  throwIf (¬ rawEqual recipient (some (.string server.recipient)))
    (lit "credential recipient does not match this server")

/-- `decode` of a request, its error raised. -/
def decodeRequest (raw : Option Str) : Throws Value := do
  match raw with
  | none => error (lit "attempt to index a nil value (local 'input')")
  | some raw =>
      let payload ← Base64url.decode raw
      match ← decode payload with
      | .boolean false => error (lit "nil")
      | request => return request

/-- `now_epoch or os.time()`. -/
def currentEpoch (nowEpoch : Option ℚ) : ServerM ℚ :=
  match nowEpoch with
  | some now => return now
  | none => do
      let now ← ask .osTime
      return (show ℤ from now)

/-- The checks of the payload in `_verify_challenge_and_decode`. -/
def checkPayload (payload : Payload) (methodDetails : Value) : Throws Unit := do
  throwIf (payload.type ≠ some (lit "transaction") ∧ payload.type ≠ some (lit "signature"))
    (lit "missing or invalid payload type")
  if payload.type = some (lit "signature") then
    let feePayer ← field "feePayer" methodDetails
    throwIf (truthy feePayer)
      (lit "type=\"signature\" credentials cannot be used with fee sponsorship")

/-- `_verify_challenge_and_decode`; the method details are read again later. -/
def verifyChallengeAndDecode (credential : Credential) (nowEpoch : Option ℚ) :
    ServerM (Value × Payload) := do
  let echoed := credential.challenge
  throwIf (¬ echoed.verify server.secretKey) (lit "challenge ID mismatch")
  let now ← currentEpoch nowEpoch
  throwIf (Expires.isExpired echoed.expires now)
    (lit "challenge expired at " ++ shownText echoed.expires)
  let request ← decodeRequest echoed.request
  server.verifyPinnedFields echoed request
  let methodDetails ← field "methodDetails" request
  let payload := credential.payload.getD {}
  checkPayload payload (orEmpty methodDetails)
  return (request, payload)

/-- `result.timestamp or os.date(..)`. -/
def timestampOf (result : VerifyResult) : ServerM Str :=
  match result.timestamp with
  | some timestamp => return timestamp
  | none => ask .osDate

/-- The end of `_finalize_verification`: the reference is put into the store. -/
def consume (credential : Credential) (request : Value) (reference : Str)
    (result : VerifyResult) : ServerM Receipt := do
  let replayKey := result.replayKey.getD (CONSUMED_PREFIX ++ reference)
  let reply ← ask (.putIfAbsent replayKey)
  let inserted ← (show Throws Bool from reply)
  throwIf (inserted = false) (lit "payment already consumed")
  let timestamp ← timestampOf result
  let externalId ← field "externalId" request
  return {
    method := lit "solana"
    timestamp
    reference
    challengeId := credential.challenge.id
    externalId
    status := result.status.getD (lit "success") }

/-- The call of `verify_payment`. -/
def pay (context : Context) : ServerM VerifyResult :=
  match server.verifyPayment with
  | none => liftM (error (lit "verify_payment callback is required") : Throws VerifyResult)
  | some verifyPayment => verifyPayment context

/-- `_finalize_verification`. -/
def finalizeVerification (credential : Credential) (request : Value) (payload : Payload) :
    ServerM Receipt := do
  let methodDetails ← field "methodDetails" request
  let result ← server.pay { payload, request, methodDetails := orEmpty methodDetails, credential }
  let reference := ((result.reference.or payload.signature).or payload.transaction).getD []
  throwIf (reference = []) (lit "verification result must include a reference")
  consume credential request reference result

/-- `verify_credential`. -/
def verifyCredential (credential : Credential) (nowEpoch : Option ℚ) : ServerM Receipt := do
  let (request, payload) ← server.verifyChallengeAndDecode credential nowEpoch
  server.finalizeVerification credential request payload

/-- The comparison of a credential with what the route expects. -/
def compareExpected (request expected : Value) : Throws Unit := do
  let amount ← field "amount" request
  let expectedAmount ← field "amount" expected
  throwIf (¬ rawEqual amount expectedAmount) (lit "amount mismatch: credential has " ++
    shown amount ++ lit " but endpoint expects " ++ shown expectedAmount)
  let currency ← field "currency" request
  let expectedCurrency ← field "currency" expected
  throwIf (¬ rawEqual currency expectedCurrency) (lit "currency mismatch: credential has " ++
    shown currency ++ lit " but endpoint expects " ++ shown expectedCurrency)
  let recipient ← field "recipient" request
  let expectedRecipient ← field "recipient" expected
  throwIf (¬ rawEqual recipient expectedRecipient)
    (lit "recipient mismatch: credential was issued for a different recipient")

/-- The value is a table. -/
def isTable : Value → Bool
  | .null | .table _ _ => true
  | _ => false

/-- `verify_credential_with_expected`. -/
def verifyCredentialWithExpected (credential : Credential) (expected : Value)
    (nowEpoch : Option ℚ) : ServerM Receipt := do
  throwIf (¬ isTable expected) (lit "expected request table is required")
  let (request, payload) ← server.verifyChallengeAndDecode credential nowEpoch
  compareExpected request expected
  server.finalizeVerification credential expected payload

/-! ## Any number of calls -/

/-- The calls of the server's two verifications. -/
inductive Call : Type
  | verifyCredential (credential : Credential) (nowEpoch : Option ℚ)
  | verifyCredentialWithExpected (credential : Credential) (expected : Value)
      (nowEpoch : Option ℚ)

/-- What a call comes to. -/
abbrev Outcome : Type := Except Str Receipt

/-- The script of a call. -/
def program : Call → Script serverInterface Outcome
  | .verifyCredential credential nowEpoch => (server.verifyCredential credential nowEpoch).run
  | .verifyCredentialWithExpected credential expected nowEpoch =>
      (server.verifyCredentialWithExpected credential expected nowEpoch).run

/-- Any number of calls over one store. -/
def machine (store : MemoryStore) :
    Machine (Pool serverInterface MemoryStore Call Outcome) (Pool.Event Call ServerInput) :=
  Pool.machine serverHandler server.program store

end Server
end Lua
end MppSdk
