import MppSdk.SessionServer
import MppSdk.TsSessionClient

/-! # Concurrent acks

`client/SessionConsumer.ts` over the session server: `commitDirective` reads the watermark of
the session, awaits the signer and the transport, and records the voucher.  Any number of
calls may be pending; the machine of all interleavings is that of the scripts.

Nothing keeps a call from reading the watermark while another is pending, and the server
then charges it less than its amount. -/

namespace MppSdk
namespace Ts
open Script

/-! ## The consumer -/

/-- `CommitPayload`. -/
structure CommitPayload where
  deliveryId : String
  voucher : SignedVoucher
deriving DecidableEq

/-- The payload as the endpoint of the session server reads it: the expiry as an `i64`, the
nonce as a `u64`. -/
def CommitPayload.received (payload : CommitPayload) : Option MppSdk.CommitPayload :=
  let data := payload.voucher.data
  if data.expiresAt < 2 ^ 63 ∧ ∀ nonce ∈ data.nonce, nonce < 2 ^ 64 then
    some {
      deliveryId := payload.deliveryId
      voucher := {
        data := {
          channelId := data.channelId
          cumulative := data.cumulativeAmount
          expiresAt := Int64.ofNat data.expiresAt
          nonce := data.nonce.map UInt64.ofNat }
        signature := payload.voucher.signature } }
  else none

/-- What a call asks of its surroundings.  The request and the response may be lost; what the
endpoint runs in between is its own. -/
inductive ConsumerOp : Type
  | session
  | signMessages (message : List UInt8)
  | request (payload : CommitPayload)
  | server (op : SessionOp)
  | response
  | recordVoucher (voucher : SignedVoucher)

/-- The answers; a response that refuses has a status and a text. -/
def ConsumerOp.Answer : ConsumerOp → Type
  | .session => ActiveSession
  | .signMessages _ => Signed
  | .request _ => Except JsError Unit
  | .server op => op.Answer
  | .response => Except JsError (Nat × String)
  | .recordVoucher _ => Thrown Unit

/-- The interface of the consumer. -/
abbrev consumerInterface : Interface := ⟨ConsumerOp, ConsumerOp.Answer⟩

/-- What comes from outside at an operation. -/
structure ConsumerInput where
  signed : Signed
  request : Except JsError Unit
  response : Except JsError (Nat × String)
  server : SessionInput

/-- The session of the client and the store of the server. -/
structure Parties where
  session : ActiveSession
  store : ChannelStore

/-- What an operation does to the two parties. -/
def consumerHandler (ed : Ed25519) : Handler consumerInterface Parties ConsumerInput
  | .session, _, s => (s, s.session)
  | .signMessages _, x, s => (s, x.signed)
  | .request _, x, s => (s, x.request)
  | .server op, x, s =>
      let o := sessionHandler ed op x.server s.store
      ({ s with store := o.1 }, o.2)
  | .response, x, s => (s, x.response)
  | .recordVoucher voucher, _, s =>
      let o := s.session.recordVoucher voucher
      ({ s with session := o.1 }, o.2)

/-- A program of the consumer. -/
abbrev ConsumerM : Type → Type := ExceptT (Failure JsError) (Script consumerInterface)

namespace SessionConsumer

/-- Perform one operation. -/
abbrev ask (op : ConsumerOp) : ConsumerM op.Answer :=
  liftM (perform (F := consumerInterface) op)

/-- Operations of the server, made by its endpoint. -/
abbrev serve {α : Type} : Script sessionInterface α → Script consumerInterface α :=
  embed ConsumerOp.server fun _ x => x

/-- `validateDirective`. -/
def validateDirective (session : ActiveSession) (directive : MeteringDirective) : Thrown Unit := do
  throwIf (directive.sessionId ≠ session.channelId)
    (s!"metered delivery session {directive.sessionId} does not match active session " ++
      session.channelId)
  throwIf (¬ IsDigits directive.amount) s!"invalid metering amount: {directive.amount}"

/-- The endpoint of the session server: it refuses what it cannot read and what
`process_commit` refuses. -/
def endpoint (server : SessionServer) (payload : CommitPayload) :
    Script consumerInterface (Option CommitReceipt) :=
  match payload.received with
  | none => .done none
  | some received => serve (server.processCommit received).run >>= fun r => .done r.toOption

/-- The receipt, if the endpoint returned one. -/
def receiptOf (response : Except JsError (Nat × String)) (receipt : Option CommitReceipt) :
    Thrown CommitReceipt := do
  let refusal ← orThrow response
  okOrElse receipt { message := s!"commit endpoint returned {refusal.1}: {refusal.2}" }

/-- `transport.commit`. -/
def commit (server : SessionServer) (payload : CommitPayload) : ConsumerM CommitReceipt := do
  let sent ← ask (.request payload)
  let _ ← orThrow sent
  let receipt ← ExceptT.lift (endpoint server payload)
  let response ← ask .response
  receiptOf response receipt

/-- `commitDirective`; up to the call of the signer it runs at once. -/
def commitDirective (server : SessionServer) (directive : MeteringDirective) :
    ConsumerM CommitReceipt := do
  let session ← ask .session
  validateDirective session directive
  let amount ← bigInt directive.amount
  throwIf (amount ≤ 0) "metered delivery amount must be greater than zero"
  let voucher ← session.prepareIncrement (fun bytes => ask (.signMessages bytes)) (.bigint amount)
  let payload : CommitPayload := { deliveryId := directive.deliveryId, voucher }
  let receipt ← commit server payload
  let recorded : Thrown Unit ← ask (.recordVoucher voucher)
  let _ ← recorded
  return receipt

/-- The parties, and the calls made so far. -/
abbrev Acks : Type :=
  Pool consumerInterface Parties MeteringDirective (Thrown CommitReceipt)

/-- A call is made, or one that is pending goes on. -/
abbrev Event : Type := Pool.Event MeteringDirective ConsumerInput

/-- Every interleaving of calls. -/
def machine (server : SessionServer) (parties : Parties) : Machine Acks Event :=
  Pool.machine (consumerHandler server.ed)
    (fun directive => (commitDirective server directive).run) parties

/-! ## What the calls are to do -/

/-- The call has read the watermark and is pending. -/
def UnderWay : Script consumerInterface (Thrown CommitReceipt) → Prop
  | .done _ => False
  | .call .session _ => False
  | .call _ _ => True

instance : DecidablePred UnderWay
  | .done _ => .isFalse id
  | .call .session _ => .isFalse id
  | .call (.signMessages _) _ => .isTrue trivial
  | .call (.request _) _ => .isTrue trivial
  | .call (.server _) _ => .isTrue trivial
  | .call .response _ => .isTrue trivial
  | .call (.recordVoucher _) _ => .isTrue trivial

/-- The call is about to read the watermark. -/
def AtRead : Option (MeteringDirective × Script consumerInterface (Thrown CommitReceipt)) → Prop
  | some (_, .call .session _) => True
  | _ => False

instance : DecidablePred AtRead
  | none => .isFalse id
  | some (_, .done _) => .isFalse id
  | some (_, .call .session _) => .isTrue trivial
  | some (_, .call (.signMessages _) _) => .isFalse id
  | some (_, .call (.request _) _) => .isFalse id
  | some (_, .call (.server _) _) => .isFalse id
  | some (_, .call .response _) => .isFalse id
  | some (_, .call (.recordVoucher _) _) => .isFalse id

/-- A call that reads the watermark does so while no other is pending. -/
def Serial (p : Acks) : Event → Prop
  | .start _ => True
  | .step i _ => AtRead p.calls[i]? → ∀ call ∈ p.calls, ¬ UnderWay call.2

instance (p : Acks) : DecidablePred (Serial p)
  | .start _ => .isTrue trivial
  | .step i _ =>
      inferInstanceAs (Decidable (AtRead p.calls[i]? → ∀ call ∈ p.calls, ¬ UnderWay call.2))

/-- The call has resolved. -/
def HasResolved : Script consumerInterface (Thrown CommitReceipt) → Prop
  | .done (.ok _) => True
  | _ => False

instance : DecidablePred HasResolved
  | .done (.ok _) => .isTrue trivial
  | .done (.error _) => .isFalse id
  | .call _ _ => .isFalse id

/-- Every call has resolved. -/
def Resolved (p : Acks) : Prop := ∀ call ∈ p.calls, HasResolved call.2

instance (p : Acks) : Decidable (Resolved p) :=
  inferInstanceAs (Decidable (∀ call ∈ p.calls, HasResolved call.2))

/-- The amount of a directive. -/
def amountOf (directive : MeteringDirective) : Nat := ((parseBigInt directive.amount).getD 0).toNat

/-- The watermark of the channel has risen from `start` by all the amounts, and the delivery of
each call is committed once. -/
def ChargesEvery (channelId : String) (start : UInt64) (p : Acks) : Prop :=
  ∃ state ∈ p.store.store channelId,
    state.cumulative.toNat = start.toNat + (p.calls.map fun call => amountOf call.1).sum ∧
    ∀ call ∈ p.calls, (state.committedDeliveries.filter
      (·.deliveryId = call.1.deliveryId)).length = 1

instance (channelId : String) (start : UInt64) (p : Acks) :
    Decidable (ChargesEvery channelId start p) :=
  inferInstanceAs (Decidable (∃ state ∈ p.store.store channelId, _ ∧ _))

end SessionConsumer
end Ts
end MppSdk
