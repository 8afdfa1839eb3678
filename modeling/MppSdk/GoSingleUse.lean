import MppSdk.GoFeePayer
import MppSdk.Ownership

/-! # Single use in the Go server

A verification marks its signature before it verifies anything and deletes the mark when it
fails, so a mark is not there for good.  It belongs to the one call that has set it: only
this call deletes it, and only before it fails.  `single_use_with_rollback`: whatever the order of the
calls, at most one has a receipt for a signature, and the mark of a signature that has a
receipt is never deleted. -/

namespace MppSdk
namespace Go
namespace Mpp
open Script

variable {m : Mpp}

/-- What a verification returns. -/
abbrev Outcome : Type := Except (Failure GoError) Receipt

/-- The script of a call of `VerifyCredential`. -/
def program (m : Mpp) (credential : PaymentCredential) : Script chargeInterface Outcome :=
  (m.verifyCredential credential).run

/-- Any number of calls over one store. -/
def machine (m : Mpp) (store : Store) :
    Machine (Pool chargeInterface Store PaymentCredential Outcome)
      (Pool.Event PaymentCredential ChargeInput) :=
  Pool.machine chargeHandler m.program store

/-- Sending a transaction returns its first signature. -/
def SendsFirst : ChargeOp → ChargeInput → Store → Prop
  | .sendTransaction tx, x, _ =>
      ∀ signature, x.sendTransaction = .ok signature → tx.signatures.head? = some signature
  | _, _, _ => True

instance (op : ChargeOp) (x : ChargeInput) (store : Store) : Decidable (SendsFirst op x store) :=
  match op with
  | .sendTransaction tx =>
      match hx : x.sendTransaction with
      | .ok signature => decidable_of_iff (tx.signatures.head? = some signature)
          ⟨fun h _ hs => h.trans (congrArg some (Except.ok.inj (hx.symm.trans hs))), fun h => h _ hx⟩
      | .error _ => .isTrue fun _ hs => nomatch hx.symm.trans hs
  | .now | .sign _ | .putIfAbsent _ | .delete _ | .simulateTransaction _ | .signatureStatus _
  | .tick | .getTransaction _ => .isTrue trivial

instance decidableGuarded (m : Mpp) (store : Store)
    (run : List (Pool.Event PaymentCredential ChargeInput)) :
    Decidable ((m.machine store).Guarded (Pool.Allowed SendsFirst) run) :=
  have (p : Pool chargeInterface Store PaymentCredential Outcome)
      (e : Pool.Event PaymentCredential ChargeInput) : Decidable (Pool.Allowed SendsFirst p e) :=
    Pool.decidableAllowed p e
  Machine.decidableGuarded run

/-- A text is marked as the signature of a payment. -/
def Consumed (store : Store) (signature : String) : Prop := consumedKey signature ∈ store

theorem consumedKey_injective {s t : String} (h : consumedKey s = consumedKey t) : s = t :=
  (String.append_right_inj _).mp h

/-! ## What a verification reads -/

/-- The operation leaves the store alone. -/
def Reads (op : ChargeOp) : Prop := ∀ x s, (chargeHandler op x s).1 = s

theorem verifyChallengeAndDecode_reads (credential : PaymentCredential) :
    (m.verifyChallengeAndDecode credential).run.Every Reads :=
  every_lift_bind fun _ _ => every_perform_bind.mpr ⟨fun _ _ => rfl, fun _ => every_done _⟩

theorem signTransaction_reads (tx : VersionedTransaction) (signer : Pubkey) :
    (m.signTransaction tx signer).run.Every Reads := by
  refine every_lift_bind fun _ _ => every_perform_bind.mpr ⟨fun _ _ => rfl, fun reply => ?_⟩
  exact every_lift_bind fun signature _ => every_lift_bind fun index _ => every_done _

theorem transactionToSend_reads (tx : VersionedTransaction) :
    (m.transactionToSend tx).run.Every Reads := by
  unfold transactionToSend
  split
  · exact signTransaction_reads tx _
  · exact every_done _

theorem simulateTransaction_reads (tx : VersionedTransaction) :
    (simulateTransaction tx).run.Every Reads := by
  refine every_perform_bind.mpr ⟨fun _ _ => rfl, fun reply => ?_⟩
  rcases reply with err | (_ | err) <;> exact every_done _

theorem waitForConfirmation_reads (signature : Signature) (rounds : Nat) :
    (waitForConfirmation signature rounds).run.Every Reads := by
  induction rounds with
  | zero => exact every_done _
  | succ rounds ih =>
    refine every_perform_bind.mpr ⟨fun _ _ => rfl, fun reply => ?_⟩
    rcases pollResult reply with _ | (_ | err)
    · refine every_perform_bind.mpr ⟨fun _ _ => rfl, fun ticked => ?_⟩
      rcases ticked with err | _
      · exact every_done _
      · exact ih
    · exact every_done _
    · exact every_done _

theorem verifyOnChain_reads (signature : Signature) (request : ChargeRequest)
    (details : MethodDetails) : (m.verifyOnChain signature request details).run.Every Reads := by
  refine every_perform_bind.mpr ⟨fun _ _ => rfl, fun reply => ?_⟩
  rcases reply with err | ⟨tx, _ | err⟩
  · exact every_done _
  · exact every_lift_bind fun amount _ => every_done _
  · exact every_done _

theorem checkSignature_reads (request : ChargeRequest) (details : MethodDetails)
    (payload : CredentialPayload) :
    (m.checkSignature request details payload).run.Every Reads :=
  every_lift_bind fun signature _ => verifyOnChain_reads signature request details

/-! ## Who owns a mark -/

/-- The rules of a verification: a mark belongs to the call that has set it. -/
abbrev Verifies {α : Type} (post : Option String → α → Prop) :
    Option String → Script chargeInterface α → Prop :=
  Owns chargeHandler Consumed SendsFirst post

/-- A receipt belongs to the owner of the mark of its signature. -/
def OwnsReceipt (own : Option String) (r : Outcome) : Prop :=
  ∀ receipt, r = .ok receipt →
    own = some receipt.reference ∧ ∃ signature : Signature,
      receipt.reference = signature.toBase58

theorem ownsReceipt_error (own : Option String) (e : Failure GoError) :
    OwnsReceipt own (.error e) := by
  intro receipt h
  cases h

/-- What only reads and fails as it may keeps the rules. -/
theorem reads_owns {α : Type} {x : ChargeM α} {own : Option String}
    {f : α → ChargeM Receipt} (hreads : x.run.Every Reads)
    (hf : ∀ a, Verifies OwnsReceipt own (f a).run) : Verifies OwnsReceipt own (x >>= f).run := by
  refine owns_run_bind (owns_of_reads hreads ((results_true _).mono fun r _ => ?_))
  exact ⟨fun a _ => hf a, fun e _ => ownsReceipt_error own e⟩

/-- A call comes to own the mark that it sets. -/
theorem markConsumed_owns (text : String) {f : Unit → ChargeM Receipt}
    (hf : Verifies OwnsReceipt (some text) (f ()).run) :
    Verifies OwnsReceipt none (markConsumed (consumedKey text) >>= f).run := by
  intro store x _ _
  rcases hstore : x.storeError with _ | e
  · by_cases hkey : consumedKey text ∈ store
    · have hreply : chargeHandler (.putIfAbsent (consumedKey text)) x store =
          (store, .ok false) := by
        simp only [chargeHandler, hstore, if_pos hkey]
      refine ⟨none, ?_, ?_⟩
      · rw [hreply]
        exact Passes.same (by simp)
      · rw [hreply]
        exact ownsReceipt_error _ _
    · have hreply : chargeHandler (.putIfAbsent (consumedKey text)) x store =
          (consumedKey text :: store, .ok true) := by
        simp only [chargeHandler, hstore, if_neg hkey]
      refine ⟨some text, ?_, ?_⟩
      · rw [hreply]
        refine ⟨fun k _ hk => List.mem_cons_of_mem _ hk, ?_⟩
        intro k hk
        obtain rfl := Option.some.inj hk
        exact ⟨List.mem_cons_self, Or.inr hkey⟩
      · rw [hreply]
        exact hf
  · have hreply : chargeHandler (.putIfAbsent (consumedKey text)) x store =
        (store, .error e) := by
      simp only [chargeHandler, hstore]
    refine ⟨none, ?_, ?_⟩
    · rw [hreply]
      exact Passes.same (by simp)
    · rw [hreply]
      exact ownsReceipt_error _ _

/-- The owner of a mark may delete it before it fails: no other mark is lost. -/
theorem delete_owns {α : Type} {post : Option String → Except (Failure GoError) α → Prop}
    (text : String) {e : Failure GoError} (hpost : post none (.error e)) :
    Verifies post (some text)
      ((ask (.delete (consumedKey text))).run >>= fun _ => done (.error e)) := by
  intro store x _ _
  refine ⟨none, ⟨fun k hother hk => ?_, fun k hk => nomatch hk⟩, hpost⟩
  rcases hstore : x.storeError with _ | err
  · have hne : consumedKey k ≠ consumedKey text := fun heq =>
      hother (congrArg some (consumedKey_injective heq).symm)
    simpa [chargeHandler, hstore, Consumed, hne] using hk
  · simpa [chargeHandler, hstore] using hk

/-! ## Verifications -/

/-- The owner of the mark of `text` has the signature that sending returned. -/
def Sent (text : String) (own : Option String) (r : Except (Failure GoError) Signature) : Prop :=
  own = some text ∧ ∀ signature, r = .ok signature → signature.toBase58 = text

theorem sent_error (text : String) (e : Failure GoError) : Sent text (some text) (.error e) :=
  ⟨rfl, fun _ h => nomatch h⟩

theorem sendTransaction_owns {tx : VersionedTransaction} {primary : Signature}
    (hprimary : tx.signatures.head? = some primary) :
    Verifies (Sent primary.toBase58) (some primary.toBase58) (sendTransaction tx).run := by
  refine owns_answer_bind (fun _ _ => rfl) fun x store hA => ?_
  rcases hreply : (chargeHandler (.sendTransaction tx) x store).2 with err | signature
  · exact sent_error _ _
  · refine ⟨rfl, fun s hs => ?_⟩
    cases hs
    rw [Option.some.inj (hprimary.symm.trans (hA signature hreply))]

/-- While the transaction is simulated, sent and verified, the call keeps its mark. -/
theorem sendAndVerify_owns {tx : VersionedTransaction} {primary : Signature}
    (hprimary : tx.signatures.head? = some primary) (request : ChargeRequest)
    (details : MethodDetails) :
    Verifies (Sent primary.toBase58) (some primary.toBase58)
      (m.sendAndVerify tx request details).run := by
  refine owns_run_bind (owns_of_reads (simulateTransaction_reads tx) ?_)
  refine (results_true _).mono fun r _ => ⟨fun _ _ => ?_, fun e _ => sent_error _ e⟩
  refine owns_run_bind ((sendTransaction_owns hprimary).mono fun own r hsent => ?_)
  obtain ⟨rfl, hsent⟩ := hsent
  refine ⟨fun signature hr => ?_, fun e _ => sent_error _ e⟩
  refine owns_run_bind (owns_of_reads (waitForConfirmation_reads signature _) ?_)
  refine (results_true _).mono fun r _ => ⟨fun _ _ => ?_, fun e _ => sent_error _ e⟩
  refine owns_run_bind (owns_of_reads (verifyOnChain_reads signature request details) ?_)
  refine (results_true _).mono fun r' _ => ⟨fun _ _ => ?_, fun e _ => sent_error _ e⟩
  refine ⟨rfl, fun s hs => ?_⟩
  cases hs
  exact hsent signature hr

/-- The receipt of a signature is its owner's. -/
theorem successReceipt_owns (signature : Signature) (challengeID externalID : String) :
    Verifies OwnsReceipt (some signature.toBase58)
      (m.successReceipt signature.toBase58 challengeID externalID).run := by
  refine owns_read_bind (fun _ _ => rfl) fun now => ?_
  intro receipt hreceipt
  cases hreceipt
  exact ⟨rfl, signature, rfl⟩

theorem primarySignature_eq_ok {tx : VersionedTransaction} {primary : Signature}
    (h : primarySignature tx = .ok primary) : tx.signatures.head? = some primary := by
  rw [primarySignature, okOrElse_eq_ok, Option.filter_eq_some_iff] at h
  exact h.1

theorem verifyTransaction_owns (credential : PaymentCredential) (request : ChargeRequest)
    (details : MethodDetails) (payload : CredentialPayload) :
    Verifies OwnsReceipt none (m.verifyTransaction credential request details payload).run := by
  refine owns_lift_bind (fun e _ => ownsReceipt_error none e) fun decoded _ => ?_
  refine reads_owns (transactionToSend_reads decoded) fun tx => ?_
  refine owns_lift_bind (fun e _ => ownsReceipt_error none e) fun primary hprimary => ?_
  have hprimary := primarySignature_eq_ok hprimary
  refine markConsumed_owns primary.toBase58 ?_
  refine owns_run_bind ?_
  -- the mark is deleted only after a failure, and then there is no receipt
  refine owns_bind.mpr ((sendAndVerify_owns hprimary request details).mono fun own r hsent => ?_)
  obtain ⟨rfl, hsent⟩ := hsent
  rcases r with e | signature
  · exact delete_owns primary.toBase58 ⟨fun _ h => (nomatch h), fun _ _ => ownsReceipt_error _ _⟩
  · refine ⟨fun s hs => ?_, fun e he => nomatch he⟩
    cases hs
    rw [hsent signature rfl]
    exact successReceipt_owns primary _ _

theorem checkSignature_ok {request : ChargeRequest} {details : MethodDetails}
    {payload : CredentialPayload} :
    (m.checkSignature request details payload).run.Results fun r => ∀ u, r = .ok u →
      ∃ signature : Signature, payload.signature = signature.toBase58 := by
  refine results_lift_bind fun signature hsignature => ?_
  refine (results_true _).mono fun r _ u _ => ?_
  exact ⟨signature, Bytes.fromBase58_eq_some.mp (okOrElse_eq_ok.mp hsignature)⟩

theorem verifySignature_owns (credential : PaymentCredential) (request : ChargeRequest)
    (details : MethodDetails) (payload : CredentialPayload) :
    Verifies OwnsReceipt none (m.verifySignature credential request details payload).run := by
  refine owns_lift_bind (fun e _ => ownsReceipt_error none e) fun _ _ => ?_
  refine markConsumed_owns payload.signature ?_
  refine owns_run_bind (owns_bind.mpr ?_)
  refine owns_of_reads (checkSignature_reads request details payload) ?_
  refine checkSignature_ok.mono fun r htext => ?_
  rcases r with (e | p) | u
  · exact delete_owns payload.signature
      ⟨fun _ h => (nomatch h), fun _ _ => ownsReceipt_error _ _⟩
  · exact ⟨fun _ h => (nomatch h), fun _ _ => ownsReceipt_error _ _⟩
  · refine ⟨fun _ _ => ?_, fun _ h => nomatch h⟩
    obtain ⟨signature, htext⟩ := htext u rfl
    rw [htext]
    exact successReceipt_owns signature _ _

theorem verifyPayload_owns (credential : PaymentCredential) (request : ChargeRequest)
    (details : MethodDetails) (payload : CredentialPayload) :
    Verifies OwnsReceipt none (m.verifyPayload credential request details payload).run := by
  unfold verifyPayload
  by_cases htransaction : payload.type = "transaction"
  · rw [if_pos htransaction]
    exact verifyTransaction_owns credential request details payload
  · rw [if_neg htransaction]
    by_cases hsignature : payload.type = "signature"
    · rw [if_pos hsignature]
      refine owns_lift_bind (fun e _ => ownsReceipt_error none e) fun _ _ => ?_
      exact verifySignature_owns credential request details payload
    · rw [if_neg hsignature]
      exact ownsReceipt_error none _

/-- Every call keeps the rules. -/
theorem program_owns (credential : PaymentCredential) :
    Verifies OwnsReceipt none (m.program credential) :=
  reads_owns (verifyChallengeAndDecode_reads credential) fun ⟨request, details, payload⟩ =>
    verifyPayload_owns credential request details payload

/-! ## Single use -/

/-- The outcome is a receipt for the signature. -/
def ReceiptFor (r : Outcome) (signature : String) : Prop :=
  ∃ receipt, r = .ok receipt ∧ receipt.reference = signature

theorem OwnsReceipt.owner {own : Option String} {r : Outcome} {signature : String}
    (h : OwnsReceipt own r) (hr : ReceiptFor r signature) : own = some signature := by
  obtain ⟨receipt, rfl, rfl⟩ := hr
  exact (h receipt rfl).1

/-- **Single use with rollback.**  At most one call has a receipt for a signature, every
receipt is for a signature, and the mark of a signature that has a receipt is there ever
after. -/
theorem single_use_with_rollback (m : Mpp) (store : Store) (run : List (Pool.Event PaymentCredential ChargeInput))
    (hg : (m.machine store).Guarded (Pool.Allowed SendsFirst) run) :
    (∀ text, (Pool.Claimants ReceiptFor ((m.machine store).exec run) text).Subsingleton) ∧
    (∀ i c receipt, ((m.machine store).exec run).Finished i c (.ok receipt) →
      ∃ signature : Signature, receipt.reference = signature.toBase58) ∧
    ∀ before, before <:+ run → ∀ text i,
      i ∈ Pool.Claimants ReceiptFor ((m.machine store).exec before) text →
        Consumed ((m.machine store).exec run).store text := by
  have hclaims : ∀ own (r : Outcome) text, OwnsReceipt own r → ReceiptFor r text →
      own = some text := fun own r text h hr => h.owner hr
  refine ⟨fun text => ?_, fun i c receipt hi => ?_, fun before hb text i hi => ?_⟩
  · exact Pool.single_owner hclaims program_owns store run hg text
  · obtain ⟨own, ho⟩ := Pool.owns_run program_owns store run hg
    exact (ho.keeps i _ hi receipt rfl).2
  · exact Pool.claimed_marked hclaims program_owns store hb hg hi

namespace Sample

/-- A payment of 1000 lamports to key 2. -/
def payment : VersionedTransaction where
  signatures := [⟨List.replicate 64 7, rfl⟩]
  message := .legacy ⟨1, 0, 1⟩ {
    accountKeys := [key 1, key 2, programs.systemKey]
    recentBlockhash := key 9
    instructions := [⟨2, [0, 1], [2, 0, 0, 0, 232, 3, 0, 0, 0, 0, 0, 0]⟩] }

/-- A server without a signer, and libraries that know this payment. -/
def paidServer : Mpp :=
  { server with
    feePayerSigner := none
    libraries := { libraries with
      unmarshalTransaction := fun _ => .ok payment
      resolveAccounts := fun _ _ => .ok [key 1, key 2]
      systemTransfer := fun _ _ => some (key 2, 1000) } }

/-- An RPC node on which the payment goes through. -/
def paid : ChargeInput where
  simulateTransaction := .ok none
  sendTransaction := .ok ⟨List.replicate 64 7, rfl⟩
  signatureStatus := .ok (some { confirmationStatus := "confirmed" })
  getTransaction := .ok (payment, none)

/-- Two calls with the same payment: the second comes while the first is at work. -/
def paidTwice : List (Pool.Event PaymentCredential ChargeInput) :=
  List.reverse ([.start credential, .start credential, .step 0 paid, .step 0 paid, .step 0 paid,
    .step 1 paid, .step 1 paid] ++ List.replicate 4 (.step 0 paid))

end Sample

theorem paidTwice_single :
    (∀ text, (Pool.Claimants ReceiptFor ((Sample.paidServer.machine []).exec Sample.paidTwice)
      text).Subsingleton) ∧
    (∀ i c receipt, ((Sample.paidServer.machine []).exec Sample.paidTwice).Finished i c
        (.ok receipt) →
      ∃ signature : Signature, receipt.reference = signature.toBase58) ∧
    ∀ before, before <:+ Sample.paidTwice → ∀ text i,
      i ∈ Pool.Claimants ReceiptFor ((Sample.paidServer.machine []).exec before) text →
        Consumed ((Sample.paidServer.machine []).exec Sample.paidTwice).store text :=
  single_use_with_rollback Sample.paidServer [] Sample.paidTwice (by decide +kernel)

end Mpp
end Go
end MppSdk
