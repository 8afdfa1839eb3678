import MppSdk.Answers
import MppSdk.PaymentGate
import MppSdk.SingleUse

/-! # Who gets through

Whatever the order of the requests on all routes of a server, a transaction gets at most one of
them through (`admitted_once`), and each that gets through has paid the price of its own route
(`admitted_paid`). -/

namespace MppSdk
open Script

namespace Mpp
variable {server : Mpp}

/-! ## What a verification has been told -/

/-- The challenge does not expire, or the clock has shown a time before it does. -/
def Alive (server : Mpp) (challenge : ChallengeEcho) (log : Log chargeInterface) : Prop :=
  ∀ expires, challenge.expires = some expires → ∃ expiresAt now : Int,
    server.crates.parseRfc3339 expires = some expiresAt ∧ ⟨.now, now⟩ ∈ log ∧ now < expiresAt

/-- The payload has settled the request under the reference: the transaction of the signature has
been looked up and passes, or the transaction itself passes, and it has been simulated, sent and
confirmed with signatures of the server's own. -/
def Settles (server : Mpp) (payload : CredentialPayload) (request : ChargeRequest)
    (details : MethodDetails) (log : Log chargeInterface) (reference : String) : Prop :=
  match payload with
  | .signature text => reference = text ∧ ∃ signature tx,
      Bytes.fromBase58 64 text = some signature ∧
      ⟨.getTransaction signature, .ok tx⟩ ∈ log ∧
      verifyConfirmed server.crates.findProgramAddress tx request details = .ok ()
  | .transaction text => ∃ tx signatures logs signature, server.decodeTransaction text = .ok tx ∧
      verifyPreBroadcast server.crates.findProgramAddress tx request details = .ok () ∧
      ⟨.simulateTransaction { tx with signatures }, .ok ⟨none, logs⟩⟩ ∈ log ∧
      ⟨.sendTransaction { tx with signatures }, .ok signature⟩ ∈ log ∧
      ⟨.confirmTransaction signature, .ok true⟩ ∈ log ∧ reference = signature.toBase58

/-- Why a verification returns a receipt. -/
structure Justifies (server : Mpp) (credential : PaymentCredential) (request : ChargeRequest)
    (log : Log chargeInterface) (receipt : Receipt) : Prop where
  issued : server.verifyChallengeId credential.challenge = .ok ()
  alive : server.Alive credential.challenge log
  pinned : server.verifyPinnedFields credential.challenge request = .ok ()
  challenge : receipt.challengeId = credential.challenge.id
  settled : ∃ payload details, CredentialPayload.ofJson credential.payload = some payload ∧
    methodDetailsOf request = .ok details ∧
    server.Settles payload request details log receipt.reference
  consumed : ⟨.putIfAbsent (consumedKey receipt.reference), .ok true⟩ ∈ log

theorem Alive.grows {challenge : ChallengeEcho} {log log' : Log chargeInterface}
    (h : server.Alive challenge log) (hlog : log ⊆ log') : server.Alive challenge log' := by
  intro expires hexpires
  obtain ⟨expiresAt, now, hparse, htold, hlt⟩ := h expires hexpires
  exact ⟨expiresAt, now, hparse, hlog htold, hlt⟩

theorem Settles.grows {payload : CredentialPayload} {request : ChargeRequest}
    {details : MethodDetails} {log log' : Log chargeInterface} {reference : String}
    (h : server.Settles payload request details log reference) (hlog : log ⊆ log') :
    server.Settles payload request details log' reference := by
  cases payload with
  | signature text =>
    obtain ⟨heq, signature, tx, hsignature, htold, hverified⟩ := h
    exact ⟨heq, signature, tx, hsignature, hlog htold, hverified⟩
  | transaction text =>
    obtain ⟨tx, signatures, logs, signature, hdecode, hverified, hsimulated, hsent, hconfirmed,
      heq⟩ := h
    exact ⟨tx, signatures, logs, signature, hdecode, hverified, hlog hsimulated, hlog hsent,
      hlog hconfirmed, heq⟩

theorem mapReply_eq_ok {α : Type} {f : String → VerificationError} {reply : Except String α}
    {a : α} (h : mapReply f reply = .ok a) : reply = .ok a := by
  cases reply with
  | ok b => exact congrArg Except.ok (Except.ok.inj h)
  | error e => cases h

theorem returns_fail {α : Type} {post : Log chargeInterface → α → Prop}
    {log : Log chargeInterface} (e : VerificationError) : Returns post log (ChargeM.fail e) :=
  returns_lift fun a ha => by cases ha

theorem coSign_returns (tx : VersionedTransaction) (details : MethodDetails)
    (log : Log chargeInterface) :
    Returns (fun _ signed => ∃ signatures, signed = { tx with signatures }) log
      (server.coSign tx details) := by
  unfold coSign
  split
  · exact returns_pure ⟨tx.signatures, rfl⟩
  · refine returns_lift_bind fun signer _ => returns_perform_bind.mpr fun reply => ?_
    refine returns_lift_bind fun sig _ => returns_lift_bind fun idx _ => ?_
    exact returns_lift_bind fun _ _ => returns_pure ⟨_, rfl⟩

theorem simulate_returns (tx : VersionedTransaction) (request : ChargeRequest)
    (details : MethodDetails) (left : Nat) : ∀ log : Log chargeInterface,
    Returns (fun log _ => ∃ logs, ⟨.simulateTransaction tx, .ok ⟨none, logs⟩⟩ ∈ log) log
      (simulate tx request details left) := by
  induction left with
  | zero => exact fun log => returns_fail _
  | succ left ih =>
    intro log
    refine returns_perform_bind.mpr fun reply => ?_
    rcases reply with err | ⟨err, logs⟩
    · show Returns _ _ (ite _ _ _ : ChargeM Unit)
      split
      · exact ih _
      · exact returns_fail _
    · rcases err with _ | err
      · exact returns_pure ⟨logs, List.mem_cons_self⟩
      · show Returns _ _ (ite _ _ _ : ChargeM Unit)
        split
        · exact ih _
        · exact returns_perform_bind.mpr fun _ => returns_fail _

theorem awaitConfirmation_returns (signature : Signature) (left : Nat) :
    ∀ log : Log chargeInterface, Returns (fun log text => text = signature.toBase58 ∧
      ⟨.confirmTransaction signature, .ok true⟩ ∈ log) log (awaitConfirmation signature left) := by
  induction left with
  | zero => exact fun log => returns_fail _
  | succ left ih =>
    intro log
    refine returns_perform_bind.mpr fun reply => ?_
    rcases reply with err | confirmed
    · exact ih _
    · cases confirmed with
      | true => exact returns_pure ⟨rfl, List.mem_cons_self⟩
      | false => exact ih _

theorem settle_returns (payload : CredentialPayload) (request : ChargeRequest)
    (details : MethodDetails) (log : Log chargeInterface) :
    Returns (server.Settles payload request details) log
      (server.settle payload request details) := by
  cases payload with
  | signature text =>
    refine returns_lift_bind fun signature hsignature => returns_perform_bind.mpr fun reply => ?_
    refine returns_lift_bind fun tx htx => returns_lift_bind fun _ hverified => ?_
    obtain rfl := mapReply_eq_ok htx
    exact returns_pure ⟨rfl, signature, tx, okOrElse_eq_ok.mp hsignature, List.mem_cons_self,
      hverified⟩
  | transaction text =>
    refine returns_lift_bind fun tx hdecode => returns_lift_bind fun _ _ => ?_
    refine returns_lift_bind fun _ hverified => ?_
    -- what is simulated and sent is the transaction with the server's signature
    refine returns_bind ((coSign_returns tx details log).mono ?_)
    rintro log _ ⟨signatures, rfl⟩
    refine returns_bind ((simulate_returns _ request details _ log).mono ?_)
    rintro log _ ⟨logs, hsimulated⟩
    refine returns_perform_bind.mpr fun reply => returns_lift_bind fun signature hsent => ?_
    obtain rfl := mapReply_eq_ok hsent
    refine (Returns.frame (P := fun log =>
      ⟨.simulateTransaction { tx with signatures }, .ok ⟨none, logs⟩⟩ ∈ log ∧
      ⟨.sendTransaction { tx with signatures }, .ok signature⟩ ∈ log)
      (awaitConfirmation_returns signature 30 _)
      ⟨List.mem_cons_of_mem _ hsimulated, List.mem_cons_self⟩
      fun _ _ hlog h => ⟨hlog h.1, hlog h.2⟩).mono ?_
    rintro log text ⟨⟨hsimulated, hsent⟩, rfl, hconfirmed⟩
    exact ⟨tx, signatures, logs, signature, hdecode, hverified, hsimulated, hsent, hconfirmed, rfl⟩

theorem verifyExpiry_returns (challenge : ChallengeEcho) (log : Log chargeInterface) :
    Returns (fun log _ => server.Alive challenge log) log (server.verifyExpiry challenge) := by
  unfold verifyExpiry
  split
  · rename_i hnone
    refine returns_pure fun expires hexpires => ?_
    rw [hnone] at hexpires
    cases hexpires
  · rename_i text htext
    refine returns_lift_bind fun expiresAt hparse => returns_perform_bind.mpr fun now => ?_
    refine returns_lift fun _ hlate expires hexpires => ?_
    obtain rfl := Option.some.inj (htext.symm.trans hexpires)
    have hlt : ¬ expiresAt ≤ (show Int from now) := rejectIf_eq_ok.mp hlate
    exact ⟨expiresAt, now, okOrElse_eq_ok.mp hparse, List.mem_cons_self, not_le.mp hlt⟩

theorem checkCredential_returns (credential : PaymentCredential) (request : ChargeRequest)
    (log : Log chargeInterface) :
    Returns (fun log checked => server.verifyChallengeId credential.challenge = .ok () ∧
      server.Alive credential.challenge log ∧
      server.verifyPinnedFields credential.challenge request = .ok () ∧
      CredentialPayload.ofJson credential.payload = some checked.1 ∧
      methodDetailsOf request = .ok checked.2) log
      (server.checkCredential credential request) := by
  refine returns_lift_bind fun _ hissued => returns_bind ?_
  refine (verifyExpiry_returns credential.challenge log).mono fun log _ halive => ?_
  refine returns_lift_bind fun _ hpinned => returns_lift_bind fun payload hpayload => ?_
  refine returns_lift_bind fun details hdetails => returns_pure ?_
  exact ⟨hissued, halive, hpinned, okOrElse_eq_ok.mp hpayload, hdetails⟩

theorem consume_returns (signatureStr challengeId : String) (log : Log chargeInterface) :
    Returns (fun log receipt => receipt.reference = signatureStr ∧
      receipt.challengeId = challengeId ∧
      ⟨.putIfAbsent (consumedKey signatureStr), .ok true⟩ ∈ log) log
      (server.consume signatureStr challengeId) := by
  refine returns_perform_bind.mpr fun reply => returns_lift_bind fun inserted hreply => ?_
  refine returns_lift_bind fun _ hinserted => returns_perform_bind.mpr fun now => returns_pure ?_
  obtain rfl := mapReply_eq_ok hreply
  obtain rfl := Bool.eq_true_of_not_eq_false (rejectIf_eq_ok.mp hinserted)
  exact ⟨rfl, rfl, List.mem_cons_of_mem _ List.mem_cons_self⟩

/-- A receipt has its reasons. -/
theorem verify_returns (credential : PaymentCredential) (request : ChargeRequest)
    (log : Log chargeInterface) :
    Returns (server.Justifies credential request) log (server.verify credential request) := by
  refine returns_bind ((checkCredential_returns credential request log).mono ?_)
  rintro log ⟨payload, details⟩ ⟨hissued, halive, hpinned, hpayload, hdetails⟩
  refine returns_bind ((Returns.frame (settle_returns payload request details log) halive
    fun _ _ hlog h => h.grows hlog).mono ?_)
  rintro log reference ⟨halive, hsettled⟩
  refine (Returns.frame (P := fun log => server.Alive credential.challenge log ∧
    server.Settles payload request details log reference)
    (consume_returns reference credential.challenge.id log) ⟨halive, hsettled⟩
    fun _ _ hlog h => ⟨h.1.grows hlog, h.2.grows hlog⟩).mono ?_
  rintro log receipt ⟨⟨halive, hsettled⟩, rfl, hchallenge, hconsumed⟩
  exact ⟨hissued, halive, hpinned, hchallenge, ⟨payload, details, hpayload, hdetails, hsettled⟩,
    hconsumed⟩

theorem verifyCredentialWithExpected_returns (credential : PaymentCredential)
    (expected : ChargeRequest) (log : Log chargeInterface) :
    Returns (fun log receipt => ∃ claimed,
      decodeRequest server.crates credential.challenge.request = some claimed ∧
      claimed.amount = expected.amount ∧ claimed.currency = expected.currency ∧
      claimed.recipient = expected.recipient ∧ server.Justifies credential expected log receipt) log
      (server.verifyCredentialWithExpected credential expected) := by
  refine returns_lift_bind fun claimed hclaimed => returns_lift_bind fun _ hamount => ?_
  refine returns_lift_bind fun _ hcurrency => returns_lift_bind fun _ hrecipient => ?_
  refine (verify_returns credential expected log).mono fun log receipt hjustifies => ?_
  exact ⟨claimed, okOrElse_eq_ok.mp hclaimed, not_not.mp (rejectIf_eq_ok.mp hamount),
    not_not.mp (rejectIf_eq_ok.mp hcurrency), not_not.mp (rejectIf_eq_ok.mp hrecipient), hjustifies⟩

end Mpp

namespace ChargingMpp
variable {server : ChargingMpp} {canonicalize : Json → Option String}

/-! ## Once -/

/-- The owner of a signature gets through. -/
def OwnsPassage (own : Option Signature) (r : Passage) : Prop :=
  ∀ receipt, r = .ok receipt → ∃ signature : Signature,
    receipt.reference = signature.toBase58 ∧ own = some signature

theorem ownsPassage_error (own : Option Signature) (e : Failure MppChargeRejection) :
    OwnsPassage own (.error e) := by
  intro receipt h
  cases h

theorem gateProgram_owns (server : ChargingMpp) (canonicalize : Json → Option String)
    (arrival : Arrival) :
    Mpp.Verifies OwnsPassage none (server.gateProgram canonicalize arrival) := by
  have hreads : (server.offer canonicalize arrival).run.Every Mpp.Reads := by
    refine every_lift_bind fun request _ => every_perform_bind.mpr ⟨Mpp.reads_now, fun now => ?_⟩
    cases charged (server.challengeFor canonicalize request arrival.route.options now) with
    | ok challenge => exact every_done _
    | error e => exact every_done _
  -- the offer is made before anything is consumed
  refine owns_run_bind (owns_of_reads hreads ((results_true _).mono fun r _ =>
    ⟨fun challenge _ => ?_, fun e _ => ownsPassage_error none e⟩))
  refine owns_lift_bind (fun e _ => ownsPassage_error none e) fun authStr _ => ?_
  refine owns_lift_bind (fun e _ => ownsPassage_error none e) fun credential _ => ?_
  refine owns_lift_bind (fun e _ => ownsPassage_error none e) fun expected _ => ?_
  refine owns_bind.mpr ((@Mpp.program_owns server.toMpp
    (.verifyCredentialWithExpected credential.toPaymentCredential expected)).mono
      fun own r hr receipt hreceipt => hr receipt (mapErr_eq_ok.mp hreceipt))

/-- The request gets through with the signature. -/
def PassesWith (r : Passage) (signature : Signature) : Prop :=
  ∃ receipt, r = .ok receipt ∧ Bytes.fromBase58 64 receipt.reference = some signature

/-- **A payment opens one door.**  At most one request gets through with a transaction
signature, on whatever route, and each that gets through does so with one. -/
theorem admitted_once (server : ChargingMpp) (canonicalize : Json → Option String)
    (store : ReplayStore) (run : List (Pool.Event Arrival ChargeInput)) :
    (∀ signature, (Pool.Claimants PassesWith ((server.gate canonicalize store).exec run)
      signature).Subsingleton) ∧
    {i | ∃ arrival receipt,
        ((server.gate canonicalize store).exec run).Finished i arrival (.ok receipt)} ⊆
      {i | ∃ signature,
        i ∈ Pool.Claimants PassesWith ((server.gate canonicalize store).exec run) signature} := by
  have hg := Pool.allowed_true chargeHandler (server.gateProgram canonicalize) store run
  obtain ⟨own, ho⟩ := Pool.owns_run (gateProgram_owns server canonicalize) store run hg
  refine ⟨fun signature => ho.claimants_subsingleton ?_ signature, ?_⟩
  -- base58 is read back, so that the texts of two receipts are one only for one signature
  · rintro own r signature hown ⟨receipt, rfl, href⟩
    obtain ⟨signature', heq, rfl⟩ := hown receipt rfl
    rw [heq, Bytes.fromBase58_toBase58] at href
    rw [Option.some.inj href]
  · rintro i ⟨arrival, receipt, hi⟩
    obtain ⟨signature, heq, -⟩ := ho.keeps i _ hi receipt rfl
    refine ⟨signature, arrival, _, hi, receipt, rfl, ?_⟩
    rw [heq, Bytes.fromBase58_toBase58]

/-! ## For its own price -/

/-- Why a request gets through: its credential is for a challenge of the server whose request has
the amount, the currency and the recipient of the request that the route makes at that time, and
what has been settled is the latter. -/
def Admits (server : ChargingMpp) (canonicalize : Json → Option String) (arrival : Arrival)
    (log : Log chargeInterface) (receipt : Receipt) : Prop :=
  ∃ (now : Int) (text : List Char) (credential : SourcedCredential)
      (challenge : PaymentChallenge) (claimed expected : ChargeRequest),
    ⟨.now, now⟩ ∈ log ∧
    server.chargeWithOptions canonicalize arrival.route.amount arrival.route.options
      arrival.blockhash now = .ok challenge ∧
    decodeRequest server.crates challenge.request = some expected ∧
    paymentHeader arrival.authorization = some text ∧
    parseAuthorization server.crates text = .ok credential ∧
    decodeRequest server.crates credential.challenge.request = some claimed ∧
    claimed.amount = expected.amount ∧
    claimed.currency = expected.currency ∧ expected.currency = server.currency ∧
    claimed.recipient = expected.recipient ∧ expected.recipient = some server.recipient ∧
    server.Justifies credential.toPaymentCredential expected log receipt

/-- The currency and the recipient that pass the pinned checks. -/
theorem pinned_of_justifies {server : Mpp} {credential : PaymentCredential}
    {request : ChargeRequest} {log : Log chargeInterface} {receipt : Receipt}
    (h : server.Justifies credential request log receipt) :
    request.currency = server.currency ∧ request.recipient = some server.recipient := by
  have hpinned := h.pinned
  simp only [Mpp.verifyPinnedFields, bind_eq_ok, rejectIf_eq_ok, ne_eq, not_not] at hpinned
  obtain ⟨-, -, -, -, -, -, -, hcurrency, hrecipient⟩ := hpinned
  exact ⟨hcurrency, hrecipient⟩

theorem elseOffer_returns {α : Type} {post : Log chargeInterface → α → Prop}
    {challenge : PaymentChallenge} {verification : ChargeM α} {log : Log chargeInterface}
    (h : Returns post log verification) : Returns post log (elseOffer challenge verification) :=
  earns_bind.mpr (Earns.mono (fun _ _ hr a ha => hr a (mapErr_eq_ok.mp ha)) h)

theorem gateProgram_earns (server : ChargingMpp) (canonicalize : Json → Option String)
    (arrival : Arrival) :
    Earns (Justified (Admits server canonicalize arrival)) []
      (server.gateProgram canonicalize arrival) := by
  refine returns_bind (returns_lift_bind fun request hrequest => returns_perform_bind.mpr ?_)
  refine fun now => returns_lift fun challenge hchallenge => ?_
  refine returns_lift_bind fun text htext => returns_lift_bind fun credential hcredential => ?_
  refine returns_lift_bind fun expected hexpected => ?_
  -- the time of the offer stays among the answers while the credential is verified
  refine (Returns.frame (P := fun log : Log chargeInterface => ⟨ChargeOp.now, now⟩ ∈ log)
    (elseOffer_returns (Mpp.verifyCredentialWithExpected_returns _ expected _))
    List.mem_cons_self fun _ _ hlog h => hlog h).mono ?_
  rintro log receipt ⟨hnow, claimed, hclaimed, hamount, hcurrency, hrecipient, hjustifies⟩
  obtain ⟨hserver, hserver'⟩ := pinned_of_justifies hjustifies
  refine ⟨now, text, credential, challenge, claimed, expected, hnow, ?_,
    okOrElse_eq_ok.mp hexpected, okOrElse_eq_ok.mp htext, mapErr_eq_ok.mp hcredential, hclaimed,
    hamount, hcurrency, hserver, hrecipient, hserver', hjustifies⟩
  exact bind_eq_ok.mpr ⟨request, mapErr_eq_ok.mp hrequest, mapErr_eq_ok.mp hchallenge⟩

/-- **Everyone has paid.**  In every run on all routes, a request that gets through has had its
credential checked and its payment settled for the request of its own route, on the answers it
was given in that run. -/
theorem admitted_paid (server : ChargingMpp) (canonicalize : Json → Option String)
    (store : ReplayStore) (run : List (Pool.Event Arrival ChargeInput)) :
    {p : Nat × Arrival × Receipt |
        ((server.gate canonicalize store).exec run).Finished p.1 p.2.1 (.ok p.2.2)} ⊆
      {p : Nat × Arrival × Receipt | ∃ log : Log chargeInterface,
        (∀ entry ∈ log, Pool.Answered chargeHandler (server.gateProgram canonicalize) store run p.1
          entry.1 entry.2) ∧
        Admits server canonicalize p.2.1 log p.2.2} := by
  rintro ⟨i, arrival, receipt⟩ hi
  obtain ⟨log, hlog, hpost⟩ := Pool.earned_run (gateProgram_earns server canonicalize) store run hi
  exact ⟨log, hlog, hpost receipt rfl⟩

end ChargingMpp
end MppSdk
