import MppSdk.Json
import MppSdk.Solana

/-! # Charge requests and verification errors

`protocol/intents/charge.rs`, the charge part of `protocol/solana.rs` and the error type
of `server/charge.rs`.  The text a third-party parser adds to an error is left out. -/

namespace MppSdk

/-- A payment split. -/
structure Split where
  recipient : String
  amount : String
  ataCreationRequired : Option Bool := none
  label : Option String := none
  memo : Option String := none
deriving DecidableEq

/-- `MethodDetails`. -/
structure MethodDetails where
  network : Option String := none
  decimals : Option UInt8 := none
  tokenProgram : Option String := none
  feePayer : Option Bool := none
  feePayerKey : Option String := none
  splits : Option (List Split) := none
  recentBlockhash : Option String := none
deriving DecidableEq

/-- `Split` from JSON. -/
def Split.ofJson : Json → Option Split
  | .obj fields => do
      return {
        recipient := ← Json.required Json.asStr fields "recipient"
        amount := ← Json.required Json.asStr fields "amount"
        ataCreationRequired := ← Json.optional Json.asBool fields "ataCreationRequired"
        label := ← Json.optional Json.asStr fields "label"
        memo := ← Json.optional Json.asStr fields "memo" }
  | _ => none

/-- `MethodDetails` from JSON. -/
def MethodDetails.ofJson : Json → Option MethodDetails
  | .obj fields => do
      return {
        network := ← Json.optional Json.asStr fields "network"
        decimals := ← Json.optional Json.asU8 fields "decimals"
        tokenProgram := ← Json.optional Json.asStr fields "tokenProgram"
        feePayer := ← Json.optional Json.asBool fields "feePayer"
        feePayerKey := ← Json.optional Json.asStr fields "feePayerKey"
        splits := ← Json.optional (Json.asVec Split.ofJson) fields "splits"
        recentBlockhash := ← Json.optional Json.asStr fields "recentBlockhash" }
  | _ => none

/-- `method_details.splits.as_deref().unwrap_or(&[])`. -/
def MethodDetails.splitList (details : MethodDetails) : List Split := details.splits.getD []

/-- `ChargeRequest`. -/
structure ChargeRequest where
  amount : String
  currency : String
  recipient : Option String := none
  description : Option String := none
  externalId : Option String := none
  methodDetails : Option Json := none

/-- `ChargeRequest` from JSON. -/
def ChargeRequest.ofJson : Json → Option ChargeRequest
  | .obj fields => do
      return {
        amount := ← Json.required Json.asStr fields "amount"
        currency := ← Json.required Json.asStr fields "currency"
        recipient := ← Json.optional Json.asStr fields "recipient"
        description := ← Json.optional Json.asStr fields "description"
        externalId := ← Json.optional Json.asStr fields "externalId"
        methodDetails := ← Json.optional some fields "methodDetails" }
  | _ => none

/-- `CredentialPayload`: a signed transaction to broadcast (pull), or the signature of one
that is confirmed (push). -/
inductive CredentialPayload : Type
  | transaction (transaction : String)
  | signature (signature : String)
deriving DecidableEq

/-- `CredentialPayload` from JSON; `type` says which. -/
def CredentialPayload.ofJson : Json → Option CredentialPayload
  | .obj fields =>
      match Json.required Json.asStr fields "type" with
      | some "transaction" =>
          (Json.required Json.asStr fields "transaction").map .transaction
      | some "signature" => (Json.required Json.asStr fields "signature").map .signature
      | _ => none
  | _ => none

/-- `VerificationError`, with the fields of a problem report. -/
structure VerificationError where
  message : String
  code : Option String
  retryable : Bool
  typeUri : String
  title : String
  status : UInt16
deriving DecidableEq, Repr

namespace VerificationError

/-- `new`. -/
def new (message : String) : VerificationError where
  message
  code := none
  retryable := false
  typeUri := "tag:paymentauth.org,2024:verification-failed"
  title := "Payment Verification Error"
  status := 402

/-- `with_code`. -/
def withCode (message code title typeUri : String) : VerificationError where
  message
  code := some code
  retryable := false
  typeUri
  title
  status := 402

/-- `expired`. -/
def expired (msg : String) : VerificationError :=
  withCode msg "payment-expired" "Payment Challenge Expired"
    "tag:paymentauth.org,2024:payment-expired"

/-- `invalid_amount`. -/
def invalidAmount (msg : String) : VerificationError :=
  withCode msg "verification-failed" "Verification Failed"
    "tag:paymentauth.org,2024:verification-failed"

/-- `invalid_recipient`. -/
def invalidRecipient (msg : String) : VerificationError :=
  withCode msg "verification-failed" "Verification Failed"
    "tag:paymentauth.org,2024:verification-failed"

/-- `transaction_failed`. -/
def transactionFailed (msg : String) : VerificationError :=
  withCode msg "verification-failed" "Transaction Failed"
    "tag:paymentauth.org,2024:verification-failed"

/-- `not_found`. -/
def notFound (msg : String) : VerificationError :=
  withCode msg "verification-failed" "Transaction Not Found"
    "tag:paymentauth.org,2024:verification-failed"

/-- `network_error`: the only error a client may retry. -/
def networkError (msg : String) : VerificationError :=
  { withCode msg "verification-failed" "Network Error"
      "tag:paymentauth.org,2024:verification-failed" with retryable := true }

/-- `credential_mismatch`. -/
def credentialMismatch (msg : String) : VerificationError :=
  withCode msg "malformed-credential" "Malformed Credential"
    "tag:paymentauth.org,2024:malformed-credential"

/-- `invalid_payload`. -/
def invalidPayload (msg : String) : VerificationError :=
  withCode msg "malformed-credential" "Invalid Payload"
    "tag:paymentauth.org,2024:malformed-credential"

/-- `wrong_network`. -/
def wrongNetwork (msg : String) : VerificationError :=
  withCode msg "wrong-network" "Wrong Network" "tag:paymentauth.org,2024:wrong-network"

/-- `signature_consumed`. -/
def signatureConsumed (msg : String) : VerificationError :=
  withCode msg "signature-consumed" "Signature Already Consumed"
    "tag:paymentauth.org,2024:signature-consumed"

/-- `too_many_splits`. -/
def tooManySplits (msg : String) : VerificationError :=
  withCode msg "verification-failed" "Too Many Splits"
    "tag:paymentauth.org,2024:verification-failed"

end VerificationError

/-- A computation of the charge server. -/
abbrev Verified : Type → Type := RustResult VerificationError

/-- `Pubkey::from_str`, its error mapped to `e`. -/
def parseKey (s : String) (e : VerificationError) : Verified Pubkey :=
  okOrElse (Bytes.fromBase58 32 s) e

@[simp] theorem parseKey_eq_ok {s : String} {e : VerificationError} {key : Pubkey} :
    parseKey s e = .ok key ↔ s = key.toBase58 := by
  rw [parseKey, okOrElse_eq_ok, Bytes.fromBase58_eq_some]

/-- The bytes of a string. -/
def utf8 (s : String) : List UInt8 := s.toUTF8.data.toList

theorem utf8_injective : Function.Injective utf8 := by
  intro s t h
  apply String.toByteArray_inj.mp
  have hdata : s.toUTF8.data = t.toUTF8.data := Array.toList_inj.mp h
  exact ByteArray.ext hdata

/-! ## The expected memos -/

/-- A text that is there and not empty. -/
def nonEmpty : Option String → Option String := Option.filter (fun s => s ≠ "")

/-- `expected_memos`: the external id and the memos of the splits, each with a label. -/
def expectedMemos (externalId : Option String) (splits : List Split) : List (String × String) :=
  (nonEmpty externalId).toList.map (fun memo => ("externalId", memo)) ++
    splits.filterMap (fun split => (nonEmpty split.memo).map fun memo => ("split", memo))

end MppSdk
