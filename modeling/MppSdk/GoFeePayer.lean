import MppSdk.GoServer
import MppSdk.InstructionEffects

/-! # What the Go server signs

`verifyTransaction` of the Go server asks its fee-payer signer, and sends the transaction,
before it looks at any instruction.  `signs_called_for_iff`: it keeps to what the challenge
calls for exactly when the transactions that reach the signer do so by themselves. -/

namespace MppSdk
namespace Go
namespace Mpp
open Script Sponsorship

variable {m : Mpp}

/-! ## What a challenge calls for -/

/-- The token of a charge. -/
def chargeToken (request : ChargeRequest) (details : MethodDetails) : Option (Token Pubkey) :=
  if isNativeSOL request.currency then none
  else (Bytes.fromBase58 32 (resolveMint request.currency details.network)).map fun mint =>
    { mint
      programs := [expectedTokenProgram request.currency details]
      decimals := details.decimals }

/-- The payments of a charge; there are none if its amounts, its recipients or its mint
cannot be read. -/
def payouts (m : Mpp) (request : ChargeRequest) (details : MethodDetails) :
    List (Pubkey × UInt64) :=
  if isNativeSOL request.currency ∨ (chargeToken request details).isSome then
    (do
      let amount ← parseAmount request.amount
      buildExpectedTransfers m.libraries amount m.recipient details).toOption.getD []
  else []

/-- What a charge calls for: its payments and memos, the token accounts of those it pays,
and any compute budget. -/
def chargeTerms (m : Mpp) (request : ChargeRequest) (details : MethodDetails)
    (feePayer : Pubkey) : Terms Pubkey where
  sponsor := feePayer
  token := chargeToken request details
  payouts := (m.payouts request details).map fun payout => (payout.1, payout.2.toNat)
  memos := (buildExpectedMemos request.externalID details.splits).map fun memo => utf8 memo.2
  owners := (m.payouts request details).map Prod.fst
  maxUnits := 2 ^ 32
  maxPrice := 2 ^ 64

/-- The token account of an owner; one that cannot be derived is the system program here. -/
def tokenAccount (m : Mpp) : AddressOf Pubkey := fun owner program mint =>
  (m.libraries.findProgramAddress [owner.toList, program.toList, mint.toList]
    programs.associatedTokenKey).toOption.getD programs.systemKey

/-- The payer of the fees: the server's signer, or else the first account. -/
def feePayerOf (m : Mpp) (message : VersionedMessage) : Option Pubkey :=
  m.feePayerSigner.or message.staticAccountKeys.head?

/-- Every instruction is one the challenge calls for, and none moves funds of the fee
payer. -/
def CalledFor (m : Mpp) (request : ChargeRequest) (details : MethodDetails)
    (message : VersionedMessage) : Prop :=
  ∃ feePayer ∈ m.feePayerOf message, ∀ ix ∈ message.instructions,
    (m.chargeTerms request details feePayer).Allows m.tokenAccount
      (ix.effect message.staticAccountKeys)

/-- What is signed or sent is what the challenge calls for. -/
def KeepsTo (m : Mpp) (request : ChargeRequest) (details : MethodDetails) : ChargeOp → Prop
  | .sign message => m.CalledFor request details message
  | .sendTransaction tx => m.CalledFor request details tx.message
  | _ => True

/-! ## Which transactions reach the signer -/

/-- The request and the details a credential carries. -/
def requested (m : Mpp) (credential : PaymentCredential) :
    Result (ChargeRequest × MethodDetails) := do
  let request ← m.decodeRequest credential.challenge
  let details ← m.decodeMethodDetails request.methodDetails
  return (request, details)

/-- The transaction passes what is checked before the signing step, at some time; and
without a signer it has a primary signature. -/
def Submits (m : Mpp) (credential : PaymentCredential) (tx : VersionedTransaction) : Prop :=
  m.verifyChallengeID credential.challenge = .ok () ∧
    (∃ now request details payload,
      m.checkAndDecode credential now = .ok (request, details, payload) ∧
        payload.type = "transaction" ∧ m.decodeTransaction payload = .ok tx) ∧
    if m.feePayerSigner.isSome then ∃ payload, m.libraries.marshalMessage tx.message = .ok payload
    else ∃ signature, primarySignature tx = .ok signature

/-- What is checked is what is requested. -/
theorem requested_of_check {credential : PaymentCredential} {now : Int} {request : ChargeRequest}
    {details : MethodDetails} {payload : CredentialPayload}
    (h : m.checkAndDecode credential now = .ok (request, details, payload)) :
    m.requested credential = .ok (request, details) := by
  simp only [checkAndDecode, bind_eq_ok] at h
  obtain ⟨-, -, request', hrequest, -, -, details', hdetails, payload', -, heq⟩ := h
  cases heq
  simp only [requested, bind_eq_ok]
  exact ⟨request, hrequest, details, hdetails, rfl⟩

/-! ## The operations of a verification -/

section Every
variable {A : ChargeOp → Prop}

theorem onFailure_every {α : Type} {cleanup : ChargeM Unit} {body : ChargeM α}
    (hbody : body.run.Every A) (hcleanup : cleanup.run.Every A) :
    (onFailure cleanup body).run.Every A := by
  refine every_bind (fun r => ?_) hbody
  rcases r with e | a
  · exact every_bind (fun _ => every_done _) hcleanup
  · exact every_done _

/-- The operations that neither sign nor send satisfy the condition. -/
def Free (A : ChargeOp → Prop) : Prop :=
  ∀ op, (∀ message, op ≠ .sign message) → (∀ tx, op ≠ .sendTransaction tx) → A op

theorem keepsTo_free (m : Mpp) (request : ChargeRequest) (details : MethodDetails) :
    Free (m.KeepsTo request details) := by
  intro op hsign hsend
  cases op with
  | sign message => exact absurd rfl (hsign message)
  | sendTransaction tx => exact absurd rfl (hsend tx)
  | _ => trivial

variable (hfree : Free A)
include hfree

theorem markConsumed_every (key : String) : (markConsumed key).run.Every A := by
  refine every_perform_bind.mpr ⟨hfree _ (by simp) (by simp), fun reply => ?_⟩
  exact every_lift_bind fun inserted _ => every_done _

theorem simulate_every (tx : VersionedTransaction) : (simulateTransaction tx).run.Every A := by
  refine every_perform_bind.mpr ⟨hfree _ (by simp) (by simp), fun reply => ?_⟩
  rcases reply with e | _ | e <;> exact every_done _

theorem waitForConfirmation_every (signature : Signature) (rounds : Nat) :
    (waitForConfirmation signature rounds).run.Every A := by
  induction rounds with
  | zero => exact every_done _
  | succ rounds ih =>
    refine every_perform_bind.mpr ⟨hfree _ (by simp) (by simp), fun reply => ?_⟩
    rcases hpoll : pollResult reply with _ | _ | err
    · simp only [hpoll]
      refine every_perform_bind.mpr ⟨hfree _ (by simp) (by simp), fun tick => ?_⟩
      rcases tick with e | _
      · exact every_done _
      · exact ih
    · simp only [hpoll]
      exact every_done _
    · simp only [hpoll]
      exact every_done _

theorem verifyOnChain_every (signature : Signature) (request : ChargeRequest)
    (details : MethodDetails) : (m.verifyOnChain signature request details).run.Every A := by
  refine every_perform_bind.mpr ⟨hfree _ (by simp) (by simp), fun reply => ?_⟩
  rcases reply with e | ⟨tx, _ | err⟩
  · exact every_done _
  · exact every_lift_bind fun amount _ => every_done _
  · exact every_done _

theorem successReceipt_every (reference challengeID externalID : String) :
    (m.successReceipt reference challengeID externalID).run.Every A :=
  every_perform_bind.mpr ⟨hfree _ (by simp) (by simp), fun _ => every_done _⟩

/-- Looking a signature up neither signs nor sends. -/
theorem verifySignature_every (credential : PaymentCredential) (request : ChargeRequest)
    (details : MethodDetails) (payload : CredentialPayload) :
    (m.verifySignature credential request details payload).run.Every A := by
  refine every_lift_bind fun _ _ => every_run_bind (markConsumed_every hfree _) fun _ => ?_
  refine every_run_bind ?_ fun _ => successReceipt_every hfree _ _ _
  refine every_bind (fun r => ?_) (every_lift_bind fun signature _ =>
    verifyOnChain_every hfree signature request details)
  rcases r with (e | e) | _
  · exact every_bind (fun _ => every_done _)
      (every_perform_bind.mpr ⟨hfree _ (by simp) (by simp), fun _ => every_done _⟩)
  · exact every_done _
  · exact every_done _

/-- After the transaction is marked, all that matters is what is sent. -/
theorem sendAndVerify_every {tx : VersionedTransaction} (hsend : A (.sendTransaction tx))
    (request : ChargeRequest) (details : MethodDetails) :
    (m.sendAndVerify tx request details).run.Every A := by
  refine every_run_bind (simulate_every hfree tx) fun _ => every_run_bind ?_ fun signature => ?_
  · refine every_perform_bind.mpr ⟨hsend, fun reply => ?_⟩
    rcases reply with e | signature <;> exact every_done _
  · refine every_run_bind (waitForConfirmation_every hfree signature _) fun _ => ?_
    exact every_run_bind (verifyOnChain_every hfree signature request details) fun _ =>
      every_done _

end Every

/-! ## The exact condition -/

section Exact
variable {credential : PaymentCredential} {A : ChargeOp → Prop}

/-- What is sent has the message of the transaction that came in. -/
theorem transactionToSend_results (tx : VersionedTransaction) :
    (m.transactionToSend tx).run.Results fun r => ∀ signed, r = .ok signed →
      signed.message = tx.message ∧ (m.feePayerSigner = none → signed = tx) ∧
        (m.feePayerSigner.isSome →
          ∃ payload, m.libraries.marshalMessage tx.message = .ok payload) := by
  unfold transactionToSend
  rcases m.feePayerSigner with _ | signer
  · intro signed h
    cases h
    exact ⟨rfl, fun _ => rfl, fun h => (nomatch h)⟩
  · refine results_lift_bind fun payload hpayload => results_run_bind fun reply => ?_
    refine results_run_bind fun signature => results_run_bind fun index => ?_
    intro signed h
    cases h
    exact ⟨rfl, fun h => (nomatch h), fun _ => ⟨payload, orReturn_eq_ok.mp hpayload⟩⟩

/-- The signer is asked for the message of a transaction whose message has bytes. -/
theorem transactionToSend_every {tx : VersionedTransaction}
    (hsign : m.feePayerSigner.isSome →
      (∃ payload, m.libraries.marshalMessage tx.message = .ok payload) → A (.sign tx.message)) :
    (m.transactionToSend tx).run.Every A := by
  unfold transactionToSend
  rcases hsigner : m.feePayerSigner with _ | signer
  · exact every_done _
  · refine every_lift_bind fun payload hpayload => ?_
    have hmarshal := orReturn_eq_ok.mp hpayload
    refine every_perform_bind.mpr ⟨hsign (by rw [hsigner]; rfl) ⟨payload, hmarshal⟩, ?_⟩
    intro reply
    exact every_lift_bind fun signature _ => every_lift_bind fun index _ => every_done _

/-- A verification comes down to what is done after the challenge is checked. -/
theorem verifyCredential_every :
    (m.verifyCredential credential).run.Every A ↔
      (m.verifyChallengeID credential.challenge = .ok () → A .now ∧
        ∀ now request details payload,
          m.checkAndDecode credential now = .ok (request, details, payload) →
          (m.verifyPayload credential request details payload).run.Every A) := by
  unfold verifyCredential verifyChallengeAndDecode
  rcases hid : m.verifyChallengeID credential.challenge with e | u
  · exact ⟨fun _ h => (nomatch h), fun _ => every_done _⟩
  · have hnow : ∀ now : Int, (((do
        let r ← (liftM (m.checkAndDecode credential now) : ChargeM _)
        m.verifyPayload credential r.1 r.2.1 r.2.2) : ChargeM Receipt).run.Every A) ↔
        ∀ request details payload,
          m.checkAndDecode credential now = .ok (request, details, payload) →
          (m.verifyPayload credential request details payload).run.Every A := by
      intro now
      rcases hcheck : m.checkAndDecode credential now with e | ⟨request, details, payload⟩
      · exact ⟨fun _ _ _ _ h => (nomatch h), fun _ => every_done _⟩
      · constructor
        · intro h request' details' payload' heq
          cases heq
          exact h
        · intro h
          exact h request details payload rfl
    constructor
    · intro h _
      exact ⟨h.1, fun now => (hnow now).mp (h.2 now)⟩
    · intro h
      obtain ⟨hA, h⟩ := h rfl
      exact ⟨hA, fun now => (hnow now).mpr (h now)⟩

/-- A transaction is verified within the challenge if it is called for, should it reach the
signer or be sent. -/
theorem verifyTransaction_every {request : ChargeRequest} {details : MethodDetails}
    {payload : CredentialPayload}
    (h : ∀ tx, m.decodeTransaction payload = .ok tx →
      (if m.feePayerSigner.isSome then
        ∃ payload, m.libraries.marshalMessage tx.message = .ok payload
      else ∃ signature, primarySignature tx = .ok signature) →
      m.CalledFor request details tx.message) :
    (m.verifyTransaction credential request details payload).run.Every
      (m.KeepsTo request details) := by
  refine every_lift_bind fun tx htx => ?_
  refine every_run_bind_results (transactionToSend_every fun hsigner hpayload => ?_)
    (transactionToSend_results tx) ?_
  · exact h tx htx (by rwa [if_pos hsigner])
  · rintro signed ⟨hmessage, hsame, hpayload⟩
    refine every_lift_bind fun primary hprimary => ?_
    have hfree := m.keepsTo_free request details
    refine every_run_bind (markConsumed_every hfree _) fun _ => ?_
    refine every_run_bind (onFailure_every (sendAndVerify_every hfree ?_ request details)
      (every_perform_bind.mpr ⟨trivial, fun _ => every_done _⟩)) fun signature =>
        successReceipt_every hfree _ _ _
    show m.CalledFor request details signed.message
    rw [hmessage]
    refine h tx htx ?_
    by_cases hsigner : m.feePayerSigner.isSome
    · rw [if_pos hsigner]
      exact hpayload hsigner
    · rw [if_neg hsigner]
      have hnone : m.feePayerSigner = none := Option.not_isSome_iff_eq_none.mp hsigner
      obtain rfl := hsame hnone
      exact ⟨primary, hprimary⟩

/-- A transaction that reaches the signer, or is sent without one, is called for if its
verification keeps within the challenge. -/
theorem calledFor_of_every {request : ChargeRequest} {details : MethodDetails}
    {payload : CredentialPayload} {tx : VersionedTransaction}
    (htx : m.decodeTransaction payload = .ok tx)
    (hreach : if m.feePayerSigner.isSome then
        ∃ payload, m.libraries.marshalMessage tx.message = .ok payload
      else ∃ signature, primarySignature tx = .ok signature)
    (h : (m.verifyTransaction credential request details payload).run.Every
      (m.KeepsTo request details)) :
    m.CalledFor request details tx.message := by
  have h := (every_lift_ok htx).mp h
  rcases hsigner : m.feePayerSigner with _ | signer
  · obtain ⟨primary, hprimary⟩ : ∃ signature, primarySignature tx = .ok signature := by
      simpa only [hsigner, Option.isSome_none, Bool.false_eq_true, if_false] using hreach
    have hsend : m.transactionToSend tx = pure tx := by rw [transactionToSend, hsigner]
    rw [hsend] at h
    have h := (every_lift_ok hprimary).mp h
    -- the store inserts the key, and the simulation succeeds
    have h : (onFailure (ask (.delete (consumedKey primary.toBase58)))
        (m.sendAndVerify tx request details) >>= fun signature => m.successReceipt
          signature.toBase58 credential.challenge.id request.externalID).run.Every
        (m.KeepsTo request details) := h.2 (.ok true)
    rw [run_bind] at h
    have h : (m.sendAndVerify tx request details).run.Every (m.KeepsTo request details) :=
      h.of_bind.of_bind
    exact (h.2 (.ok none)).1
  · obtain ⟨bytes, hbytes⟩ : ∃ payload, m.libraries.marshalMessage tx.message = .ok payload := by
      simpa only [hsigner, Option.isSome_some, if_true] using hreach
    have hsend : m.transactionToSend tx = m.signTransaction tx signer := by
      rw [transactionToSend, hsigner]
    rw [hsend, run_bind] at h
    have h := (every_lift_ok (orReturn_eq_ok.mpr hbytes)).mp h.of_bind
    exact h.1

/-- With this credential, if its request is sponsored, the server signs and sends only what
the challenge calls for. -/
def KeepsToChallenge (m : Mpp) (credential : PaymentCredential) : Prop :=
  ∀ request details, m.requested credential = .ok (request, details) →
    details.feePayer = some true →
    (m.verifyCredential credential).run.Every (m.KeepsTo request details)

/-- **Exact condition for the safety of the signer.**  The server keeps to a sponsored
challenge exactly when every transaction that gets past the checks of the challenge does so
by itself. -/
theorem keepsToChallenge_iff (m : Mpp) (credential : PaymentCredential) :
    m.KeepsToChallenge credential ↔
      ∀ request details, m.requested credential = .ok (request, details) →
        details.feePayer = some true →
        ∀ tx, m.Submits credential tx → m.CalledFor request details tx.message := by
  refine forall_congr' fun request => forall_congr' fun details => ?_
  refine forall_congr' fun hrequested => forall_congr' fun _ => ?_
  rw [verifyCredential_every]
  constructor
  · rintro h tx ⟨hid, ⟨now, request', details', payload, hcheck, htype, htx⟩, hreach⟩
    cases hrequested.symm.trans (requested_of_check hcheck)
    have h := (h hid).2 now request details payload hcheck
    rw [verifyPayload, if_pos htype] at h
    exact calledFor_of_every htx hreach h
  · intro h hid
    refine ⟨trivial, fun now request' details' payload hcheck => ?_⟩
    cases hrequested.symm.trans (requested_of_check hcheck)
    unfold verifyPayload
    by_cases htype : payload.type = "transaction"
    · rw [if_pos htype]
      refine verifyTransaction_every fun tx htx hreach => ?_
      exact h tx ⟨hid, ⟨now, request, details, payload, hcheck, htype, htx⟩, hreach⟩
    · rw [if_neg htype]
      by_cases hsignature : payload.type = "signature"
      · rw [if_pos hsignature]
        refine every_lift_bind fun _ _ => ?_
        exact verifySignature_every (m.keepsTo_free request details) _ _ _ _
      · rw [if_neg hsignature]
        exact every_done _

end Exact

/-! ## A fee payer that is drained -/

namespace Sample

/-- The key whose 32 bytes are `b`. -/
def key (b : UInt8) : Pubkey := .replicate 32 b

/-- The server pays the fees with key 1; a client sends all of its lamports to key 3. -/
def drain : VersionedTransaction where
  signatures := [.replicate 64 0]
  message := .legacy ⟨1, 0, 1⟩ {
    accountKeys := [key 1, key 3, programs.systemKey]
    recentBlockhash := key 9
    instructions := [⟨2, [0, 1], [2, 0, 0, 0, 0, 202, 154, 59, 0, 0, 0, 0]⟩] }

/-- The request of the challenge: 1000 lamports for key 2, with the fees paid. -/
def request : Json :=
  .obj [("amount", .str "1000"), ("currency", .str "sol"), ("recipient", .str (key 2).toBase58),
    ("methodDetails", .obj [("network", .str "devnet"), ("feePayer", .bool true),
      ("feePayerKey", .str (key 1).toBase58)])]

/-- Libraries that know this challenge and this transaction. -/
def libraries : Libraries where
  hmacSha256 := fun _ _ => []
  base64UrlEncode := fun _ => "id"
  base64UrlDecode := fun _ => .ok []
  base64Decode := fun _ => .ok []
  parseJson := fun _ => some request
  remarshal := id
  quote := id
  parseRfc3339 := fun _ => none
  formatRfc3339 := fun _ => ""
  unmarshalTransaction := fun _ => .ok drain
  marshalMessage := fun message => .ok message.serialize
  signers := fun _ => [key 1]
  resolveAccounts := fun _ _ => .ok [key 1, key 3]
  systemTransfer := fun _ _ => some (key 3, 1000000000)
  transferChecked := fun _ _ _ => none
  findProgramAddress := fun _ program => .ok program

def server : Mpp where
  secretKey := "secret"
  realm := "realm"
  recipient := key 2
  currency := "sol"
  network := "devnet"
  feePayerSigner := some (key 1)
  libraries
  rounds := 150

def credential : PaymentCredential where
  challenge := {
    id := "id"
    realm := "realm"
    method := "solana"
    intent := "charge"
    request := "request" }
  payload := some (.obj [("type", .str "transaction"), ("transaction", .str "drain")])

end Sample

/-- The server signs away its own lamports. -/
theorem drain_not_keepsToChallenge : ¬ Sample.server.KeepsToChallenge Sample.credential := by
  intro h
  obtain ⟨request, details, payload, hcheck, hfee, htype, htx⟩ :
      ∃ request details payload,
        Sample.server.checkAndDecode Sample.credential 0 = .ok (request, details, payload) ∧
          details.feePayer = some true ∧ payload.type = "transaction" ∧
          Sample.server.decodeTransaction payload = .ok Sample.drain :=
    ⟨_, _, _, rfl, rfl, rfl, by decide +kernel⟩
  have hevery := h request details (requested_of_check hcheck) hfee
  have hpayload := (verifyCredential_every.mp hevery (by decide +kernel)).2 0 request details payload
    hcheck
  rw [verifyPayload, if_pos htype] at hpayload
  obtain ⟨feePayer, hpayer, hallowed⟩ := calledFor_of_every htx ⟨_, rfl⟩ hpayload
  obtain rfl : Sample.key 1 = feePayer := Option.some.inj hpayer
  have hallowed := hallowed _ List.mem_cons_self
  have heffect : CompiledInstruction.effect Sample.drain.message.staticAccountKeys
      ⟨2, [0, 1], [2, 0, 0, 0, 0, 202, 154, 59, 0, 0, 0, 0]⟩ =
        .transfer (Sample.key 1) (Sample.key 3) 1000000000 := by
    decide +kernel
  rw [heffect] at hallowed
  exact hallowed.2.2 rfl

end Mpp
end Go
end MppSdk
