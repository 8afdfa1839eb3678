import MppSdk.ChargeServer
import MppSdk.Ownership

/-! # A payment is used once

Every verification that succeeds has inserted the key of its signature into the replay
store, and `put_if_absent` inserts a key for one call only.  So, however the calls
interleave and whatever the clock, the signer, the RPC node and the store answer, at most
one receipt is returned for a transaction signature (`single_use`). -/

namespace MppSdk
namespace Mpp
open Script ChargeM

variable {server : Mpp}

/-! ## What a verification reads -/

/-- The operation leaves the store alone. -/
def Reads (op : ChargeOp) : Prop := ∀ x s, (chargeHandler op x s).1 = s

theorem reads_now : Reads .now := fun _ _ => rfl
theorem reads_signMessage (message : List UInt8) : Reads (.signMessage message) := fun _ _ => rfl
theorem reads_simulate (tx : VersionedTransaction) : Reads (.simulateTransaction tx) :=
  fun _ _ => rfl
theorem reads_diagnose (tx : VersionedTransaction) (request : ChargeRequest)
    (details : MethodDetails) : Reads (.diagnoseBalances tx request details) := fun _ _ => rfl
theorem reads_send (tx : VersionedTransaction) : Reads (.sendTransaction tx) := fun _ _ => rfl
theorem reads_confirm (signature : Signature) : Reads (.confirmTransaction signature) :=
  fun _ _ => rfl
theorem reads_getTransaction (signature : Signature) : Reads (.getTransaction signature) :=
  fun _ _ => rfl

theorem coSign_reads (tx : VersionedTransaction) (details : MethodDetails) :
    (server.coSign tx details).run.Every Reads := by
  unfold coSign
  split
  · exact every_done _
  · refine every_lift_bind fun signer _ => every_perform_bind.mpr ⟨reads_signMessage _, ?_⟩
    intro reply
    refine every_lift_bind fun sig _ => every_lift_bind fun idx _ => every_lift_bind fun _ _ => ?_
    exact every_done _

theorem simulate_reads (tx : VersionedTransaction) (request : ChargeRequest)
    (details : MethodDetails) (left : Nat) : (simulate tx request details left).run.Every Reads := by
  induction left with
  | zero => exact every_done _
  | succ left ih =>
    refine every_perform_bind.mpr ⟨reads_simulate tx, fun reply => ?_⟩
    rcases reply with err | sim
    · show (ite _ _ _ : ChargeM Unit).run.Every Reads
      split
      · exact ih
      · exact every_done _
    · rcases hsim : sim.err with _ | err
      · simp only [hsim]
        exact every_done _
      · simp only [hsim]
        split
        · exact ih
        · exact every_perform_bind.mpr ⟨reads_diagnose tx request details, fun _ => every_done _⟩

theorem awaitConfirmation_reads (signature : Signature) (left : Nat) :
    (awaitConfirmation signature left).run.Every Reads := by
  induction left with
  | zero => exact every_done _
  | succ left ih =>
    refine every_perform_bind.mpr ⟨reads_confirm signature, fun reply => ?_⟩
    rcases reply with err | confirmed
    · exact ih
    · cases confirmed with
      | true => exact every_done _
      | false => exact ih

/-- Settling a payment does not touch the replay store. -/
theorem settle_reads (payload : CredentialPayload) (request : ChargeRequest)
    (details : MethodDetails) : (server.settle payload request details).run.Every Reads := by
  cases payload with
  | transaction transaction =>
    refine every_lift_bind fun tx _ => every_lift_bind fun _ _ => every_lift_bind fun _ _ => ?_
    refine every_run_bind (coSign_reads tx details) fun signed => ?_
    refine every_run_bind (simulate_reads signed request details _) fun _ => ?_
    refine every_perform_bind.mpr ⟨reads_send signed, fun reply => ?_⟩
    exact every_lift_bind fun signature _ => awaitConfirmation_reads signature 30
  | signature signatureStr =>
    refine every_lift_bind fun signature _ => ?_
    refine every_perform_bind.mpr ⟨reads_getTransaction signature, fun reply => ?_⟩
    exact every_lift_bind fun tx _ => every_lift_bind fun _ _ => every_done _

/-- Neither do the checks before it. -/
theorem checkCredential_reads (credential : PaymentCredential) (request : ChargeRequest) :
    (server.checkCredential credential request).run.Every Reads := by
  refine every_lift_bind fun _ _ => every_run_bind ?_ fun _ => ?_
  · unfold verifyExpiry
    split
    · exact every_done _
    · refine every_lift_bind fun expiresAt _ => every_perform_bind.mpr ⟨reads_now, fun now => ?_⟩
      exact every_done _
  · refine every_lift_bind fun _ _ => every_lift_bind fun _ _ => every_lift_bind fun _ _ => ?_
    exact every_done _

/-! ## What a settlement returns -/

/-- The result, if there is one, is the text of a signature. -/
def IsSignatureText (r : RustResult VerificationError String) : Prop :=
  ∀ text, r = .ok text → ∃ signature : Signature, text = signature.toBase58

theorem awaitConfirmation_text (signature : Signature) (left : Nat) :
    (awaitConfirmation signature left).run.Results IsSignatureText := by
  induction left with
  | zero =>
    intro text htext
    cases htext
  | succ left ih =>
    intro reply
    rcases reply with err | confirmed
    · exact ih
    · cases confirmed with
      | true =>
        intro text htext
        cases htext
        exact ⟨signature, rfl⟩
      | false => exact ih

/-- A payment is settled under the text of a signature. -/
theorem settle_text (payload : CredentialPayload) (request : ChargeRequest)
    (details : MethodDetails) :
    (server.settle payload request details).run.Results IsSignatureText := by
  cases payload with
  | transaction transaction =>
    refine results_run_bind fun tx => results_run_bind fun _ => results_run_bind fun _ => ?_
    refine results_run_bind fun signed => results_run_bind fun _ => results_run_bind fun reply => ?_
    exact results_run_bind fun signature => awaitConfirmation_text signature 30
  | signature signatureStr =>
    refine results_lift_bind fun signature hsignature => ?_
    refine results_run_bind fun reply => results_run_bind fun tx => results_run_bind fun _ => ?_
    intro text htext
    cases htext
    exact ⟨signature, Bytes.fromBase58_eq_some.mp (okOrElse_eq_ok.mp hsignature)⟩

/-! ## Who owns a signature -/

/-- The signature is consumed. -/
def Consumed (store : ReplayStore) (signature : Signature) : Prop :=
  consumedKey signature.toBase58 ∈ store

/-- The rules of a verification: a receipt belongs to the owner of its signature. -/
abbrev Verifies {α : Type} (post : Option Signature → α → Prop) :
    Option Signature → Script chargeInterface α → Prop :=
  Owns chargeHandler Consumed (fun _ _ _ => True) post

/-- The owner of a signature may return the receipt. -/
def OwnsReceipt (own : Option Signature) (r : Outcome) : Prop :=
  ∀ receipt, r = .ok receipt → ∃ signature : Signature,
    receipt.reference = signature.toBase58 ∧ own = some signature

theorem ownsReceipt_error (own : Option Signature) (e : Failure VerificationError) :
    OwnsReceipt own (.error e) := by
  intro receipt h
  cases h

/-- Only the call that inserts the key of a signature returns its receipt. -/
theorem consume_owns (signature : Signature) (challengeId : String) :
    Verifies OwnsReceipt none (server.consume signature.toBase58 challengeId).run := by
  intro store x _ _
  rcases hstore : x.storeError with _ | e
  · by_cases hkey : consumedKey signature.toBase58 ∈ store
    · have hreply : chargeHandler (.putIfAbsent (consumedKey signature.toBase58)) x store =
          (store, .ok false) := by
        simp only [chargeHandler, hstore, if_pos hkey]
      refine ⟨none, ?_, ?_⟩
      · rw [hreply]
        exact Passes.same (by simp)
      · rw [hreply]
        exact ownsReceipt_error _ _
    · have hreply : chargeHandler (.putIfAbsent (consumedKey signature.toBase58)) x store =
          (consumedKey signature.toBase58 :: store, .ok true) := by
        simp only [chargeHandler, hstore, if_neg hkey]
      refine ⟨some signature, ?_, ?_⟩
      · rw [hreply]
        refine ⟨fun k _ hk => List.mem_cons_of_mem _ hk, ?_⟩
        intro k hk
        obtain rfl := Option.some.inj hk
        exact ⟨List.mem_cons_self, Or.inr hkey⟩
      · rw [hreply]
        refine owns_read_bind reads_now fun now => ?_
        intro receipt hreceipt
        cases hreceipt
        exact ⟨signature, rfl, rfl⟩
  · have hreply : chargeHandler (.putIfAbsent (consumedKey signature.toBase58)) x store =
        (store, .error e) := by
      simp only [chargeHandler, hstore]
    refine ⟨none, ?_, ?_⟩
    · rw [hreply]
      exact Passes.same (by simp)
    · rw [hreply]
      exact ownsReceipt_error _ _

theorem verify_owns (credential : PaymentCredential) (request : ChargeRequest) :
    Verifies OwnsReceipt none (server.verify credential request).run := by
  refine owns_run_bind (owns_of_reads (checkCredential_reads credential request) ?_)
  refine (results_true _).mono fun r _ => ⟨?_, fun e _ => ownsReceipt_error none e⟩
  rintro ⟨payload, details⟩ -
  refine owns_run_bind (owns_of_reads (settle_reads payload request details) ?_)
  refine (settle_text payload request details).mono fun r htext =>
    ⟨?_, fun e _ => ownsReceipt_error none e⟩
  intro text hr
  obtain ⟨signature, rfl⟩ := htext text hr
  exact consume_owns signature credential.challenge.id

theorem program_owns (c : Call) : Verifies OwnsReceipt none (server.program c) := by
  cases c with
  | verifyCredential credential =>
    exact owns_lift_bind (fun e _ => ownsReceipt_error none e) fun request _ =>
      verify_owns credential request
  | verifyCredentialWithExpected credential expected =>
    refine owns_lift_bind (fun e _ => ownsReceipt_error none e) fun request _ => ?_
    refine owns_lift_bind (fun e _ => ownsReceipt_error none e) fun _ _ => ?_
    refine owns_lift_bind (fun e _ => ownsReceipt_error none e) fun _ _ => ?_
    refine owns_lift_bind (fun e _ => ownsReceipt_error none e) fun _ _ => ?_
    exact verify_owns credential expected

/-- The outcome is a receipt for the signature. -/
def ReceiptFor (r : Outcome) (signature : Signature) : Prop :=
  ∃ receipt, r = .ok receipt ∧ Bytes.fromBase58 64 receipt.reference = some signature

theorem OwnsReceipt.owner {own : Option Signature} {r : Outcome} {signature : Signature}
    (h : OwnsReceipt own r) (hr : ReceiptFor r signature) : own = some signature := by
  obtain ⟨receipt, rfl, href⟩ := hr
  obtain ⟨signature', heq, hown⟩ := h receipt rfl
  rw [heq, Bytes.fromBase58_toBase58] at href
  rw [hown, Option.some.inj href]

/-- **Single use.**  At most one call returns a receipt for a transaction signature, and
every receipt is for one. -/
theorem single_use (server : Mpp) (store : ReplayStore) (run : List (Pool.Event Call ChargeInput)) :
    (∀ signature : Signature,
      (Pool.Claimants ReceiptFor ((server.machine store).exec run) signature).Subsingleton) ∧
    {i | ∃ c receipt, ((server.machine store).exec run).Finished i c (.ok receipt)} ⊆
      {i | ∃ signature : Signature,
        i ∈ Pool.Claimants ReceiptFor ((server.machine store).exec run) signature} := by
  have hg := Pool.allowed_true chargeHandler server.program store run
  constructor
  · intro signature
    exact Pool.single_owner (fun own r k hown hr => hown.owner hr) program_owns store run hg
      signature
  · rintro i ⟨c, receipt, hi⟩
    obtain ⟨own, ho⟩ := Pool.owns_run program_owns store run hg
    obtain ⟨signature, heq, -⟩ := ho.keeps i _ hi receipt rfl
    refine ⟨signature, c, _, hi, receipt, rfl, ?_⟩
    rw [heq, Bytes.fromBase58_toBase58]

end Mpp
end MppSdk
