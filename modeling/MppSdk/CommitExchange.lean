import MppSdk.SessionClient
import MppSdk.SessionServer

/-! # A consumer and the session server over a transport that loses messages

The consumer commits one directive at a time, and again until it has a receipt.  A request that
it hands to the transport reaches the server late or never; there it is a call of
`process_commit` among all others.  The response reaches the attempt that waits for it, or is
lost.  The consumer tells neither loss from the other. -/

namespace MppSdk
open Script

/-- What is left of a `commit_directive`. -/
abbrev Attempt : Type := Script clientInterface (RustResult Error (CommitReceipt × ActiveSession))

/-- The consumer, the requests it has handed to the transport, the call that each one that
arrived became, and the server. -/
structure Exchange where
  session : ActiveSession
  directive : Option MeteringDirective := none
  attempt : Option Attempt := none
  acknowledged : List (MeteringDirective × CommitReceipt) := []
  sent : List CommitPayload := []
  received : List (Nat × Nat) := []
  server : SessionServer.Sessions

namespace Exchange

/-- The consumer begins an attempt, its signer answers, the transport delivers a request or a
response or gives up, or the server goes on. -/
inductive Event
  | commit (directive : MeteringDirective)
  | sign (failure : Option String)
  | receive (n : Nat)
  | respond (i : Nat)
  | lose (message : String)
  | server (e : SessionServer.Event)

/-- The attempt goes on: it hands its request to the transport, or it ends. -/
def resume (s : Exchange) : Attempt → Exchange
  | .done (.ok (receipt, session)) =>
      { s with
        session
        directive := none
        attempt := none
        acknowledged := s.acknowledged ++ s.directive.toList.map (·, receipt) }
  | .done (.error _) => { s with attempt := none }
  | .call (.commit directive payload) next =>
      { s with attempt := some (.call (.commit directive payload) next), sent := s.sent ++ [payload] }
  | .call (.signMessage message) next =>
      { s with attempt := some (.call (.signMessage message) next) }

/-- A result of the server as the transport returns it. -/
def transported : RustResult Error SessionServer.Reply → Except Error CommitReceipt
  | .ok (.committed receipt) => .ok receipt
  | .ok _ => .error (.other "not a receipt")
  | .error (.error e) => .error e
  | .error (.panic message) => .error (.other message)

variable (server : SessionServer) (sign : List UInt8 → Signature)

/-- What an event does; an attempt begins when there is none, and for the directive that is not
yet acknowledged, if there is one. -/
def react (s : Exchange) : Event → Exchange
  | .commit directive =>
      if s.attempt.isNone ∧ (s.directive = none ∨ s.directive = some directive) then
        { s with directive := some directive }.resume (s.session.commitDirective directive).run
      else s
  | .sign failure =>
      match s.attempt with
      | some (.call (.signMessage message) next) =>
          s.resume (next (match failure with
            | none => .ok (sign message)
            | some e => .error e))
      | _ => s
  | .receive n =>
      match s.sent[n]? with
      | some payload =>
          { s with
            received := (n, s.server.calls.length) :: s.received
            server := s.server.react (sessionHandler server.ed) server.program
              (.start (.processCommit payload)) }
      | none => s
  | .respond i =>
      match s.attempt, s.server.resultAt i with
      | some (.call (.commit _ _) next), some outcome =>
          if (s.sent.length - 1, i) ∈ s.received then s.resume (next (transported outcome)) else s
      | _, _ => s
  | .lose message =>
      match s.attempt with
      | some (.call (.commit _ _) next) => s.resume (next (.error (.other message)))
      | _ => s
  | .server e => { s with server := s.server.react (sessionHandler server.ed) server.program e }

/-- Every order of losses, attempts and calls, from a session and the store of the server. -/
def machine (session : ActiveSession) (store : ChannelStore) : Machine Exchange Event where
  init := { session, server := ⟨store, []⟩ }
  step := react server sign

/-- No commit is outstanding: the consumer has a receipt for all it has begun. -/
def Quiet (s : Exchange) : Prop := s.directive = none

instance (s : Exchange) : Decidable s.Quiet := inferInstanceAs (Decidable (_ = none))

/-- The call uses no voucher on the channel and neither opens nor closes it. -/
def Spares (channelId : String) : SessionServer.Call → Prop
  | .processOpen payload => payload.sessionId ≠ .ok channelId
  | .verifyVoucher payload => payload.voucher.data.channelId ≠ channelId
  | .processCommit payload => payload.voucher.data.channelId ≠ channelId
  | .processClose payload => payload.channelId ≠ channelId
  | .markFinalized id => id ≠ channelId
  | .processTopup _ | .beginDelivery _ | .finalizeParams _ => True

instance (channelId : String) : DecidablePred (Spares channelId)
  | .processOpen _ => inferInstanceAs (Decidable (_ ≠ _))
  | .verifyVoucher _ => inferInstanceAs (Decidable (_ ≠ _))
  | .processCommit _ => inferInstanceAs (Decidable (_ ≠ _))
  | .processClose _ => inferInstanceAs (Decidable (_ ≠ _))
  | .markFinalized _ => inferInstanceAs (Decidable (_ ≠ _))
  | .processTopup _ | .beginDelivery _ | .finalizeParams _ => .isTrue trivial

/-- Nobody else uses the session, and its vouchers do not expire. -/
def Undisturbed (s : Exchange) : Event → Prop
  | .server (.start c) => Spares s.session.channelId.toBase58 c
  | .server (.step _ x) => x.now < s.session.expiresAt
  | _ => True

instance (s : Exchange) : DecidablePred (Undisturbed s)
  | .server (.start _) => inferInstanceAs (Decidable (Spares _ _))
  | .server (.step _ x) => inferInstanceAs (Decidable (x.now < s.session.expiresAt))
  | .commit _ | .sign _ | .receive _ | .respond _ | .lose _ => .isTrue trivial

/-- The deliveries of the channel that are committed under this id. -/
def charges (state : ChannelState) (deliveryId : String) : List CommittedDelivery :=
  state.committedDeliveries.filter (·.deliveryId = deliveryId)

/-- What the consumer has acknowledged, in all. -/
def acknowledgedTotal (s : Exchange) : Nat :=
  (s.acknowledged.map fun ack => ((parseU64 ack.1.amount).getD 0).toNat).sum

/-- A delivery that is acknowledged is committed once, at the amount of its directive. -/
def ChargesOnce (s : Exchange) (state : ChannelState) : Prop :=
  ∀ ack ∈ s.acknowledged, ∃ d, charges state ack.1.deliveryId = [d] ∧
    parseU64 ack.1.amount = some d.amount

/-- The request was answered with the receipt before: it is sent again because the response was
lost. -/
def Answered (s : Exchange) (n : Nat) (payload : CommitPayload) (receipt : CommitReceipt) : Prop :=
  s.sent[n]? = some payload ∧
    ∃ j, s.server.Finished j (.processCommit payload) (.ok (.committed receipt))

/-- Once a response was lost, the call that a retry becomes leaves the store of the server as it
is, and it returns the receipt again, replayed. -/
def RetriesReplay (M : Machine Exchange Event) (run : List Event) : Prop :=
  ∀ n before payload receipt, .receive n :: before <:+ run →
    (M.exec before).Answered n payload receipt →
    ∀ after, .receive n :: before <:+ after → after <:+ run →
      (∀ x, .server (.step (M.exec before).server.calls.length x) :: after <:+ run →
        (M.exec (.server (.step (M.exec before).server.calls.length x) :: after)).server.store =
          (M.exec after).server.store) ∧
      ∀ r, (M.exec after).server.resultAt (M.exec before).server.calls.length = some r →
        r = .ok (.committed { receipt with status := .replayed })

end Exchange
end MppSdk
