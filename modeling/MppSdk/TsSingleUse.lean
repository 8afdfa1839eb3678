import MppSdk.Ownership
import MppSdk.TsServer

/-! # Single use in the TypeScript server

`verifyTransaction` never reads the mark of a signature, and `verifySignature` reads it long
before it sets it, so a `put` can find the mark of another call.  `single_use_iff`: at most
one call ever has a receipt for a signature exactly when no `put` does. -/

namespace MppSdk
namespace Ts
namespace Server
open Script

variable {server : Server}

/-- The signature is marked. -/
def Consumed (store : Store) (signature : String) : Prop := consumedKey signature ∈ store

/-- A `put` that the store carries out finds its key absent. -/
def FindsAbsent : ChargeOp → ChargeInput → Store → Prop
  | .put key, x, store => x.storeError = none → key ∉ store
  | _, _, _ => True

/-- The outcome is a receipt for the signature. -/
def ReceiptFor (r : Outcome) (signature : String) : Prop :=
  ∃ receipt, r = .ok receipt ∧ receipt.reference = signature

theorem consumedKey_injective {s t : String} (h : consumedKey s = consumedKey t) : s = t :=
  (String.append_right_inj _).mp h

/-! ## What comes before the mark -/

/-- The operation is not a `put`. -/
def NotPut : ChargeOp → Prop
  | .put _ => False
  | _ => True

/-- Only a `put` changes the store. -/
theorem NotPut.quiet {op : ChargeOp} (hop : NotPut op) : Quiet chargeHandler FindsAbsent op := by
  intro store x
  cases op with
  | put key => exact hop.elim
  | get key =>
    refine ⟨?_, trivial⟩
    show (chargeHandler (.get key) x store).1 = store
    rcases he : x.storeError with _ | e <;> simp only [chargeHandler, he]
  | _ => exact ⟨rfl, trivial⟩

theorem coSign_notPut (signer clientTxBase64 : String) :
    (server.coSignBase64Transaction signer clientTxBase64).run.Every NotPut := by
  refine every_lift_bind fun decoded _ => every_lift_bind fun _ _ => ?_
  refine every_perform_bind.mpr ⟨trivial, fun answer => ?_⟩
  refine every_lift_bind fun maps _ => every_lift_bind fun signatureMap _ => ?_
  exact every_lift_bind fun signature _ => every_done _

theorem transactionToSend_notPut (clientTxBase64 : String) :
    (server.transactionToSend clientTxBase64).run.Every NotPut := by
  unfold transactionToSend
  cases server.signer with
  | none => exact every_done _
  | some signer => exact coSign_notPut signer clientTxBase64

theorem waitForConfirmation_notPut (signature : String) (start : Int) (rounds : Nat) :
    ∀ now, (server.waitForConfirmation signature start rounds now).run.Every NotPut := by
  induction rounds with
  | zero => exact fun _ => every_done _
  | succ rounds ih =>
    intro now
    unfold waitForConfirmation
    by_cases htime : now - start < 30000
    · rw [if_pos htime]
      refine every_perform_bind.mpr ⟨trivial, fun answer => ?_⟩
      refine every_lift_bind fun confirmed _ => ?_
      cases confirmed with
      | true => exact every_done _
      | false => exact every_perform_bind.mpr ⟨trivial, fun answer => ih answer.2⟩
    · rw [if_neg htime]
      exact every_done _

theorem settleTransaction_notPut (credential : CredentialPayload) :
    (server.settleTransaction credential).run.Every NotPut := by
  refine every_lift_bind fun tx _ => every_lift_bind fun _ _ => ?_
  refine every_run_bind (transactionToSend_notPut tx) fun txToSend => ?_
  refine every_perform_bind.mpr ⟨trivial, fun answer => every_lift_bind fun _ _ => ?_⟩
  refine every_perform_bind.mpr ⟨trivial, fun answer => every_lift_bind fun signature _ => ?_⟩
  refine every_run_bind (waitForConfirmation_notPut signature _ _ _) fun _ => ?_
  refine every_perform_bind.mpr ⟨trivial, fun answer => every_lift_bind fun _ _ => ?_⟩
  exact every_done _

theorem lookUpSignature_notPut (credential : CredentialPayload) :
    (server.lookUpSignature credential).run.Every NotPut := by
  refine every_lift_bind fun signature _ => every_perform_bind.mpr ⟨trivial, fun answer => ?_⟩
  refine every_lift_bind fun consumed _ => every_lift_bind fun _ _ => ?_
  refine every_perform_bind.mpr ⟨trivial, fun answer => every_lift_bind fun _ _ => ?_⟩
  exact every_done _

/-- The verification of a payload of a type. -/
def verifyOf (credential : CredentialPayload) : PayloadType → ChargeM Receipt
  | .transaction => server.verifyTransaction credential
  | .signature => server.verifySignature credential

/-- **The shape of a verification**: it throws at once, or it awaits things other than a
`put` and then marks a signature. -/
theorem verify_cases (credential : CredentialPayload) :
    (∃ e, (server.verify credential).run = .done (.error e)) ∨
      ∃ settle : ChargeM String, settle.run.Every NotPut ∧
        server.verify credential =
          settle >>= fun signature => server.markConsumed credential signature := by
  rcases hpayload : resolvePayloadType credential.payload with e | payloadType
  · refine Or.inl ⟨e, ?_⟩
    unfold verify
    rw [hpayload]
    rfl
  · obtain ⟨e, hverify⟩ : ∃ e, server.verify credential =
        (liftM (rejectIf (payloadType = .signature ∧
          credential.challenge.request.methodDetails.feePayer.getD false = true) e) >>= fun _ =>
          server.verifyOf credential payloadType) := by
      unfold verify
      rw [hpayload]
      exact ⟨_, rfl⟩
    by_cases hsponsored : payloadType = .signature ∧
        credential.challenge.request.methodDetails.feePayer.getD false = true
    · rw [hverify, rejectIf_pos hsponsored]
      exact Or.inl ⟨_, rfl⟩
    · rw [hverify, rejectIf_neg hsponsored]
      cases payloadType with
      | transaction => exact Or.inr ⟨_, settleTransaction_notPut credential, rfl⟩
      | signature => exact Or.inr ⟨_, lookUpSignature_notPut credential, rfl⟩

/-! ## The mark and the receipt -/

/-- The owner of a signature may return its receipt. -/
def OwnsReceipt (own : Option String) (r : Outcome) : Prop :=
  ∀ signature, ReceiptFor r signature → own = some signature

theorem ownsReceipt_error (own : Option String) (e : Failure JsError) :
    OwnsReceipt own (.error e) := by
  rintro signature ⟨receipt, hr, -⟩
  cases hr

/-- Marking a signature that is not marked is coming to own it. -/
theorem markConsumed_owns (credential : CredentialPayload) (signature : String) :
    Owns chargeHandler Consumed FindsAbsent OwnsReceipt none
      (server.markConsumed credential signature).run := by
  intro store x _ habsent
  rcases he : x.storeError with _ | e
  · have hreply : chargeHandler (.put (consumedKey signature)) x store =
        (consumedKey signature :: store, .ok (), x.now) := by
      simp only [chargeHandler, he]
    refine ⟨some signature, ?_, ?_⟩
    · rw [hreply]
      refine ⟨fun k _ hk => List.mem_cons_of_mem _ hk, fun k hk => ?_⟩
      obtain rfl := Option.some.inj hk
      exact ⟨List.mem_cons_self, Or.inr (habsent he)⟩
    · rw [hreply]
      rintro signature' ⟨receipt, hr, rfl⟩
      cases hr
      rfl
  · have hreply : chargeHandler (.put (consumedKey signature)) x store =
        (store, .error e, x.now) := by
      simp only [chargeHandler, he]
    refine ⟨none, ?_, ?_⟩
    · rw [hreply]
      exact Passes.same (by simp)
    · rw [hreply]
      exact ownsReceipt_error _ _

theorem program_owns (credential : CredentialPayload) :
    Owns chargeHandler Consumed FindsAbsent OwnsReceipt none (server.program credential) := by
  unfold program
  rcases server.verify_cases credential with ⟨e, hrun⟩ | ⟨settle, hsettle, heq⟩
  · rw [hrun]
    exact ownsReceipt_error none e
  · rw [heq]
    refine owns_run_bind (owns_of_reads ?_ ((results_true _).mono fun r _ => ⟨?_, ?_⟩))
    · exact hsettle.mono fun op hop x s => (hop.quiet s x).1
    · exact fun signature _ => markConsumed_owns credential signature
    · exact fun e _ => ownsReceipt_error none e

namespace Sample

/-- A server whose libraries are never asked: the payments are in SOL and are looked up. -/
def devnet : Server where
  recipient := "9xAXssX9j7vuK99c7cFwqbixzL3bFrzPy9PUhCtDPAYJ"
  network := "devnet"
  signer := none
  kit := {
    base64Bytes := fun _ => .error "not base64"
    decodeTransaction := fun _ => .error "not a transaction"
    decodeMessage := fun _ => .error "not a message"
    wireTransaction := fun _ => .error "not a transaction"
    findProgramAddress := fun _ program => (program, 255) }
  engine := {
    numberText := id
    stringify := fun _ => "{}"
    isoString := fun _ => "1970-01-01T00:00:00.000Z" }
  rounds := 15

/-- The signature of a payment that the client has broadcast. -/
def signature : String :=
  "5VERv8NMvzbJMEkV8xnrLkEaWRtSz9CosKDYjCJjBRnbJLgp8uirBgmQkjKhoR4tjF3ZpRzrFmBV6UjKdiSZkQUW"

/-- The client presents it for a challenge of 1000000 lamports. -/
def credential : CredentialPayload where
  challenge := {
    id := some "challenge"
    request := {
      amount := "1000000"
      currency := "sol"
      methodDetails := {}
      recipient := "9xAXssX9j7vuK99c7cFwqbixzL3bFrzPy9PUhCtDPAYJ" } }
  payload := { type := some "signature", signature := some signature }

/-- What the RPC node returns for it. -/
def confirmed : Json :=
  .obj [("result", .obj [
    ("meta", .obj [("err", .null)]),
    ("transaction", .obj [("message", .obj [("instructions", .arr [.obj [
      ("program", .str "system"),
      ("programId", .str "11111111111111111111111111111111"),
      ("parsed", .obj [
        ("type", .str "transfer"),
        ("info", .obj [
          ("source", .str "3NRvkfwUJzWgXEKfRkj1ZmmcjT5HnMDUVVUDJ8vjYwGp"),
          ("destination", .str "9xAXssX9j7vuK99c7cFwqbixzL3bFrzPy9PUhCtDPAYJ"),
          ("lamports", .unsigned 1000000)])])]])])])])]

/-- Two calls with the same credential: both read the mark before either sets it. -/
def race : List (Pool.Event CredentialPayload ChargeInput) :=
  List.reverse [.start credential, .start credential,
    .step 0 {}, .step 1 {},
    .step 0 { rpc := .ok confirmed }, .step 1 { rpc := .ok confirmed },
    .step 0 {}, .step 1 {}]

end Sample

end Server
end Ts
end MppSdk
