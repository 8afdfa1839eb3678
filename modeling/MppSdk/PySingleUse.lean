import MppSdk.Ownership
import MppSdk.PyServer

/-! # Single use in the Python server

A verification owns the key under which it has marked its payment until it fails.  But the key
is made of the text of the credential: the signature itself, or the first characters of the
base64 text of the transaction.  One payment can be marked under two keys, and then two
calls have a receipt for it (`Sample.paid_twice`).  Where the payments of a run are
marked alike, at most one call has a receipt for a signature (`single_use_of_keys`). -/

namespace MppSdk
namespace Py
namespace Mpp
open Script

variable {m : Mpp}

/-- What a verification returns. -/
abbrev Outcome : Type := Except (Failure PyError) Receipt

/-- The script of a call of `verify_credential`. -/
def program (m : Mpp) (credential : PaymentCredential) : Script chargeInterface Outcome :=
  (m.verifyCredential credential).run

/-- Any number of calls over one store. -/
def machine (m : Mpp) (store : Store) :
    Machine (Pool chargeInterface Store PaymentCredential Outcome)
      (Pool.Event PaymentCredential ChargeInput) :=
  Pool.machine chargeHandler m.program store

/-- Sending the same bytes returns the same signature. -/
def Sends (signatureOf : List UInt8 → String) : ChargeOp → ChargeInput → Store → Prop
  | .sendRawTransaction rawTx, x, _ =>
      ∀ signature, x.sendRawTransaction = .ok signature → signature = signatureOf rawTx
  | _, _, _ => True

instance (signatureOf : List UInt8 → String) (op : ChargeOp) (x : ChargeInput) (store : Store) :
    Decidable (Sends signatureOf op x store) :=
  match op with
  | .sendRawTransaction rawTx =>
      match hx : x.sendRawTransaction with
      | .ok signature => decidable_of_iff (signature = signatureOf rawTx)
          ⟨fun h _ hs => (Except.ok.inj (hs.symm.trans hx)).trans h, fun h => h _ hx⟩
      | .error _ => .isTrue fun _ hs => nomatch hx.symm.trans hs
  | .now | .putIfAbsent _ | .delete _ | .confirmTransaction _ | .getTransaction _ => .isTrue trivial

instance decidableGuarded (m : Mpp) (store : Store) (signatureOf : List UInt8 → String)
    (run : List (Pool.Event PaymentCredential ChargeInput)) :
    Decidable ((m.machine store).Guarded (Pool.Allowed (Sends signatureOf)) run) :=
  have (p : Pool chargeInterface Store PaymentCredential Outcome)
      (e : Pool.Event PaymentCredential ChargeInput) :
      Decidable (Pool.Allowed (Sends signatureOf) p e) := Pool.decidableAllowed p e
  Machine.decidableGuarded run

/-- The signature of the payment that a payload carries. -/
def payment (signatureOf : List UInt8 → String) (payload : CredentialPayload) : Option String :=
  if payload.type = "transaction" then
    match b64decode payload.transaction with
    | .ok rawTx => some (signatureOf rawTx)
    | .error _ => none
  else some payload.signature

/-- Two credentials with the same payment are marked under the same key. -/
def MarkedAlike (signatureOf : List UInt8 → String) (c d : PaymentCredential) : Prop :=
  ∀ p q signature, CredentialPayload.fromDict c.payload = .ok p →
    CredentialPayload.fromDict d.payload = .ok q → payment signatureOf p = some signature →
    payment signatureOf q = some signature → consumedKey p = consumedKey q

/-! ## Who owns a mark -/

section Keys
variable (signatureOf : List UInt8 → String) (keyOf : String → String)

/-- The payment of the credential is marked under the key that is given for its signature. -/
def KeyedBy (credential : PaymentCredential) : Prop :=
  ∀ payload signature, CredentialPayload.fromDict credential.payload = .ok payload →
    payment signatureOf payload = some signature → consumedKey payload = keyOf signature

/-- The rules of a verification: a key belongs to the call that has marked it. -/
abbrev Verifies {α : Type} (post : Option String → α → Prop) :
    Option String → Script chargeInterface α → Prop :=
  Owns chargeHandler (fun store key => key ∈ store) (Sends signatureOf) post

/-- A receipt belongs to the owner of the key of its signature. -/
def OwnsReceipt (own : Option String) (r : Outcome) : Prop :=
  ∀ receipt, r = .ok receipt → own = some (keyOf receipt.reference)

/-- The owner of a key keeps it, and a receipt is for a signature with this key. -/
def Keeps (key : String) (own : Option String) (r : Outcome) : Prop :=
  own = some key ∧ ∀ receipt, r = .ok receipt → keyOf receipt.reference = key

variable {signatureOf keyOf}

theorem ownsReceipt_error (own : Option String) (e : Failure PyError) :
    OwnsReceipt keyOf own (.error e) := fun _ h => nomatch h

theorem keeps_error (key : String) (e : Failure PyError) : Keeps keyOf key (some key) (.error e) :=
  ⟨rfl, fun _ h => nomatch h⟩

section Await
variable {own : Option String} {post : Option String → Outcome → Prop}

theorem sendRawTransaction_owns {rawTx : List UInt8} {f : String → ChargeM Receipt}
    (herr : ∀ e, post own (.error e))
    (hf : Verifies signatureOf post own (f (signatureOf rawTx)).run) :
    Verifies signatureOf post own (await (ask (.sendRawTransaction rawTx)) >>= f).run := by
  intro store x hown hA
  refine ⟨own, Passes.same hown, ?_⟩
  rcases hreply : (chargeHandler (.sendRawTransaction rawTx) x store).2 with e | signature
  · exact herr e
  · obtain rfl : signature = signatureOf rawTx := hA signature hreply
    exact hf

theorem confirmTransaction_owns {sig : Signature} {f : Json → ChargeM Receipt}
    (herr : ∀ e, post own (.error e)) (hf : ∀ statuses, Verifies signatureOf post own (f statuses).run) :
    Verifies signatureOf post own (await (ask (.confirmTransaction sig)) >>= f).run := by
  intro store x hown hA
  refine ⟨own, Passes.same hown, ?_⟩
  rcases (chargeHandler (.confirmTransaction sig) x store).2 with e | statuses
  · exact herr e
  · exact hf statuses

end Await

/-- A call comes to own the key that it marks. -/
theorem markConsumed_owns (key : String) {f : Unit → ChargeM Receipt}
    (hf : Verifies signatureOf (OwnsReceipt keyOf) (some key) (f ()).run) :
    Verifies signatureOf (OwnsReceipt keyOf) none (markConsumed key >>= f).run := by
  intro store x _ _
  rcases hstore : x.storeError with _ | e
  · by_cases hkey : key ∈ store
    · have hreply : chargeHandler (.putIfAbsent key) x store = (store, .ok false) := by
        simp only [chargeHandler, hstore, if_pos hkey]
      refine ⟨none, ?_, ?_⟩
      · rw [hreply]
        exact Passes.same (by simp)
      · rw [hreply]
        exact ownsReceipt_error _ _
    · have hreply : chargeHandler (.putIfAbsent key) x store = (key :: store, .ok true) := by
        simp only [chargeHandler, hstore, if_neg hkey]
      refine ⟨some key, ?_, ?_⟩
      · rw [hreply]
        refine ⟨fun k _ hk => List.mem_cons_of_mem _ hk, ?_⟩
        intro k hk
        obtain rfl := Option.some.inj hk
        exact ⟨List.mem_cons_self, Or.inr hkey⟩
      · rw [hreply]
        exact hf
  · have hreply : chargeHandler (.putIfAbsent key) x store = (store, .error e) := by
      simp only [chargeHandler, hstore]
    refine ⟨none, ?_, ?_⟩
    · rw [hreply]
      exact Passes.same (by simp)
    · rw [hreply]
      exact ownsReceipt_error _ _

/-- The owner of a key may delete it before it fails: no other key is lost. -/
theorem delete_owns (key : String) (e : Failure PyError) :
    Verifies signatureOf (OwnsReceipt keyOf) (some key)
      (await (ask (.delete key)) >>= fun _ => (liftM (.error e : Raises Receipt))).run := by
  intro store x _ _
  refine ⟨none, ⟨fun k hother hk => ?_, fun k hk => nomatch hk⟩, ?_⟩
  · rcases hstore : x.storeError with _ | err
    · have hne : k ≠ key := fun heq => hother (congrArg some heq.symm)
      simpa [chargeHandler, hstore, hne] using hk
    · simpa [chargeHandler, hstore] using hk
  · rcases (chargeHandler (.delete key) x store).2 with err | _
    · exact ownsReceipt_error _ _
    · exact ownsReceipt_error _ _

/-- The body keeps the key; when it raises, the key is deleted and there is no receipt. -/
theorem exceptException_owns {key : String} {body : ChargeM Receipt}
    (hbody : Verifies signatureOf (Keeps keyOf key) (some key) body.run) :
    Verifies signatureOf (OwnsReceipt keyOf) (some key)
      (exceptException body (await (ask (.delete key)))).run := by
  refine owns_bind.mpr (hbody.mono fun own r hkeeps => ?_)
  obtain ⟨rfl, hreference⟩ := hkeeps
  rcases r with (e | message) | receipt
  · exact delete_owns key (.error e)
  · exact ownsReceipt_error _ _
  · intro receipt' hreceipt
    rw [hreference receipt' hreceipt]

/-! ## Verifications -/

theorem lookUp_owns (credential : PaymentCredential) (request : ChargeRequest)
    (details : MethodDetails) {reference key : String} (sig : Signature)
    (hkey : keyOf reference = key) :
    Verifies signatureOf (Keeps keyOf key) (some key)
      (m.lookUp credential request details reference sig).run := by
  refine owns_read_bind (fun _ _ => rfl) fun answer => ?_
  refine owns_lift_bind (fun e _ => keeps_error key e) fun value _ => ?_
  refine owns_lift_bind (fun e _ => keeps_error key e) fun tx _ => ?_
  refine owns_lift_bind (fun e _ => keeps_error key e) fun _ _ => ?_
  refine ⟨rfl, fun receipt hreceipt => ?_⟩
  cases hreceipt
  exact hkey

theorem sendAndLookUp_owns (credential : PaymentCredential) (request : ChargeRequest)
    (details : MethodDetails) {payload : CredentialPayload} {key : String}
    (hkey : ∀ rawTx, b64decode payload.transaction = .ok rawTx → keyOf (signatureOf rawTx) = key) :
    Verifies signatureOf (Keeps keyOf key) (some key)
      (m.sendAndLookUp credential request details payload).run := by
  refine owns_lift_bind (fun e _ => keeps_error key e) fun rawTx hraw => ?_
  refine sendRawTransaction_owns (keeps_error key) ?_
  refine owns_lift_bind (fun e _ => keeps_error key e) fun sig _ => ?_
  refine confirmTransaction_owns (keeps_error key) fun statuses => ?_
  refine owns_lift_bind (fun e _ => keeps_error key e) fun confirmed _ => ?_
  refine owns_lift_bind (fun e _ => keeps_error key e) fun _ _ => ?_
  exact lookUp_owns credential request details sig (hkey rawTx hraw)

/-- The key of a payment that is marked. -/
theorem KeyedBy.key_eq {credential : PaymentCredential} {payload : CredentialPayload}
    (hkeyed : KeyedBy signatureOf keyOf credential)
    (hpayload : CredentialPayload.fromDict credential.payload = .ok payload) {signature : String}
    (hpayment : payment signatureOf payload = some signature) :
    keyOf signature = consumedKey payload := (hkeyed payload signature hpayload hpayment).symm

theorem verifyTransaction_owns {credential : PaymentCredential} (request : ChargeRequest)
    (details : MethodDetails) {payload : CredentialPayload}
    (hkeyed : KeyedBy signatureOf keyOf credential)
    (hpayload : CredentialPayload.fromDict credential.payload = .ok payload)
    (htype : payload.type = "transaction") :
    Verifies signatureOf (OwnsReceipt keyOf) none
      (m.verifyTransaction credential request details payload).run := by
  refine owns_lift_bind (fun e _ => ownsReceipt_error none e) fun _ _ => ?_
  refine markConsumed_owns _ (exceptException_owns ?_)
  refine sendAndLookUp_owns credential request details fun rawTx hraw => ?_
  refine hkeyed.key_eq hpayload ?_
  rw [payment, if_pos htype, hraw]

theorem verifySignature_owns {credential : PaymentCredential} (request : ChargeRequest)
    (details : MethodDetails) {payload : CredentialPayload}
    (hkeyed : KeyedBy signatureOf keyOf credential)
    (hpayload : CredentialPayload.fromDict credential.payload = .ok payload)
    (htype : payload.type ≠ "transaction") :
    Verifies signatureOf (OwnsReceipt keyOf) none
      (m.verifySignature credential request details payload).run := by
  refine owns_lift_bind (fun e _ => ownsReceipt_error none e) fun _ _ => ?_
  refine markConsumed_owns _ (exceptException_owns ?_)
  refine owns_lift_bind (fun e _ => keeps_error _ e) fun sig _ => ?_
  refine lookUp_owns credential request details sig (hkeyed.key_eq hpayload ?_)
  rw [payment, if_neg htype]

theorem payload_of_decoded {credential : PaymentCredential} {now : Int} {request : ChargeRequest}
    {details : MethodDetails} {payload : CredentialPayload}
    (h : m.verifyChallengeAndDecode credential now = .ok (request, details, payload)) :
    CredentialPayload.fromDict credential.payload = .ok payload := by
  simp only [verifyChallengeAndDecode, bind_eq_ok] at h
  obtain ⟨_, -, _, -, _, -, _, -, _, -, _, -, h⟩ := h
  split at h <;> simp only [bind_eq_ok, ok_bind] at h
  · obtain ⟨_, -, _, hpayload, hresult⟩ := h
    cases hresult
    exact hpayload
  · obtain ⟨_, hpayload, hresult⟩ := h
    cases hresult
    exact hpayload

/-- A call with a keyed payment keeps the rules. -/
theorem program_owns {credential : PaymentCredential}
    (hkeyed : KeyedBy signatureOf keyOf credential) :
    Verifies signatureOf (OwnsReceipt keyOf) none (m.program credential) := by
  refine owns_read_bind (fun _ _ => rfl) fun now => ?_
  refine owns_lift_bind (fun e _ => ownsReceipt_error none e) fun ⟨request, details, payload⟩ h => ?_
  have hpayload := payload_of_decoded h
  show Verifies _ _ _ (m.verifyPayload credential request details payload).run
  unfold verifyPayload
  by_cases htransaction : payload.type = "transaction"
  · rw [if_pos htransaction]
    exact verifyTransaction_owns request details hkeyed hpayload htransaction
  · rw [if_neg htransaction]
    by_cases hsignature : payload.type = "signature"
    · rw [if_pos hsignature]
      refine owns_lift_bind (fun e _ => ownsReceipt_error none e) fun _ _ => ?_
      exact verifySignature_owns request details hkeyed hpayload htransaction
    · rw [if_neg hsignature]
      exact ownsReceipt_error none _

end Keys

/-! ## Single use -/

/-- The outcome is a receipt for the signature. -/
def ReceiptFor (r : Outcome) (signature : String) : Prop :=
  ∃ receipt, r = .ok receipt ∧ receipt.reference = signature

/-- Credentials that are marked alike have one key for each signature. -/
theorem exists_keyOf (signatureOf : List UInt8 → String) (credentials : Set PaymentCredential)
    (h : ∀ c ∈ credentials, ∀ d ∈ credentials, MarkedAlike signatureOf c d) :
    ∃ keyOf, ∀ c ∈ credentials, KeyedBy signatureOf keyOf c := by
  classical
  -- the key of a signature is the one of some credential that pays with it
  let Pays (signature : String) (key : String) : Prop := ∃ c ∈ credentials, ∃ p,
    CredentialPayload.fromDict c.payload = .ok p ∧ payment signatureOf p = some signature ∧
      consumedKey p = key
  refine ⟨fun signature => if hpays : ∃ key, Pays signature key then hpays.choose else "", ?_⟩
  intro c hc p signature hp hpayment
  have hpays : ∃ key, Pays signature key := ⟨_, c, hc, p, hp, hpayment, rfl⟩
  obtain ⟨d, hd, q, hq, hpayment', hkey⟩ := hpays.choose_spec
  show consumedKey p = dite _ _ _
  rw [dif_pos hpays, ← hkey]
  exact h c hc d hd p q signature hp hq hpayment hpayment'

/-- **Single use of payments that are marked alike.**  Whatever the order of the calls, at most
one has a receipt for a signature, if any two credentials of the run with the same payment
are marked under the same key. -/
theorem single_use_of_keys (m : Mpp) (store : Store) (signatureOf : List UInt8 → String)
    (run : List (Pool.Event PaymentCredential ChargeInput))
    (hg : (m.machine store).Guarded (Pool.Allowed (Sends signatureOf)) run)
    (hkeys : ∀ c d, .start c ∈ run → .start d ∈ run → MarkedAlike signatureOf c d)
    (signature : String) :
    (Pool.Claimants ReceiptFor ((m.machine store).exec run) signature).Subsingleton := by
  let started : Set PaymentCredential := {c | Pool.Event.start c ∈ run}
  obtain ⟨keyOf, hkeyOf⟩ := exists_keyOf signatureOf started fun c hc d hd => hkeys c d hc hd
  have hprogram : ∀ c, c ∈ started →
      Verifies signatureOf (OwnsReceipt keyOf) none (m.program c) :=
    fun c hc => program_owns (hkeyOf c hc)
  obtain ⟨own, ho⟩ := Pool.owns_run_of hprogram store run (fun _ hc => hc) hg
  -- a receipt for the signature claims the key of the signature
  let claims (r : Outcome) (key : String) : Prop :=
    ∃ receipt, r = .ok receipt ∧ keyOf receipt.reference = key
  have hsingle : (Pool.Claimants claims ((m.machine store).exec run)
      (keyOf signature)).Subsingleton := by
    refine ho.claimants_subsingleton (fun own r key howns hclaims => ?_) _
    obtain ⟨receipt, hr, rfl⟩ := hclaims
    exact howns receipt hr
  refine hsingle.anti ?_
  rintro i ⟨c, r, hi, receipt, hr, rfl⟩
  exact ⟨c, r, hi, receipt, hr, rfl⟩

namespace Sample

/-- The key whose bytes are all two. -/
def recipient : String := "8qbHbw2BbbTHBW1sbeqakYXVKRQM8Ne7pLK7m6CVfeR"

/-- A signature of 64 bytes. -/
def signature : String :=
  "99eUso3aSbE9tqGSTXzo3TLfKb9RkMTURrHKQ1K7Zh3BbeqPevr5E1iCbpTjqHuTFLtfxTTD5ekfVuZFzQyEQf8"

/-- A transaction with this signature that pays 1000 lamports to the recipient, in base64. -/
def transaction : String :=
  "AQcHBwcHBwcHBwcHBwcHBwcHBwcHBwcHBwcHBwcHBwcHBwcHBwcHBwcHBwcHBwcHBwcHBwcHBwcHBwcHBwcHBwcBAAED" ++
  "AQEBAQEBAQEBAQEBAQEBAQEBAQEBAQEBAQEBAQEBAQECAgICAgICAgICAgICAgICAgICAgICAgICAgICAgICAgAAAAAA" ++
  "AAAAAAAAAAAAAAAAAAAAAAAAAAAAAAAAAAAACQkJCQkJCQkJCQkJCQkJCQkJCQkJCQkJCQkJCQkJCQkBAgIAAQwCAAAA" ++
  "6AMAAAAAAAA="

/-- A server that asks for 1000 lamports, whatever the challenge. -/
def server : Mpp where
  secretKey := "secret"
  realm := "api"
  recipient
  currency := "SOL"
  network := "devnet"
  libraries := {
    hmacSha256 := fun _ _ => []
    base64UrlEncode := fun _ => "id"
    parseJson := fun _ => some (.obj [("amount", .str "1000"), ("currency", .str "SOL"),
      ("recipient", .str recipient)])
    fromIsoFormat := fun _ => none
    isoFormat := fun _ => ""
    findProgramAddress := fun _ program => (program, 255) }

/-- A credential with some payload. -/
def credential (payload : Json) : PaymentCredential :=
  ⟨⟨"id", "api", "solana", "charge", "", "", "", none⟩, payload⟩

/-- The payment as a transaction. -/
def asTransaction : PaymentCredential :=
  credential (.obj [("type", .str "transaction"), ("transaction", .str transaction)])

/-- The payment as a signature. -/
def asSignature : PaymentCredential :=
  credential (.obj [("type", .str "signature"), ("signature", .str signature)])

/-- An RPC node on which the payment goes through. -/
def paid : ChargeInput where
  sendRawTransaction := .ok signature
  confirmTransaction := .ok (.arr [.obj [("err", .null)]])
  getTransaction := .ok (.obj [
    ("meta", .obj [("err", .null)]),
    ("transaction", .obj [("message", .obj [("instructions", .arr [
      .obj [("program", .str "system"), ("parsed", .obj [("type", .str "transfer"),
        ("info", .obj [("destination", .str recipient), ("lamports", .unsigned 1000)])])]])])])])

/-- Two calls with the same credential: the second comes while the first is at work. -/
def sameTwice : List (Pool.Event PaymentCredential ChargeInput) :=
  List.reverse ([.start asTransaction, .start asTransaction, .step 0 paid, .step 0 paid,
    .step 1 paid, .step 1 paid] ++ List.replicate 3 (.step 0 paid))

/-- A call with the transaction, and then one with its signature. -/
def bothWays : List (Pool.Event PaymentCredential ChargeInput) :=
  List.reverse ([.start asTransaction] ++ List.replicate 5 (.step 0 paid) ++
    [.start asSignature] ++ List.replicate 3 (.step 1 paid))

theorem markedAlike_self (signatureOf : List UInt8 → String) (c : PaymentCredential) :
    MarkedAlike signatureOf c c := by
  intro p q _ hp hq _ _
  rw [Except.ok.inj (hp.symm.trans hq)]

end Sample

open Sample in
theorem sameTwice_single :
    (Pool.Claimants ReceiptFor ((server.machine []).exec sameTwice) signature).Subsingleton := by
  refine single_use_of_keys server [] (fun _ => signature) sameTwice (by decide +kernel) ?_ signature
  have hstart : ∀ c, Pool.Event.start c ∈ sameTwice → c = asTransaction := by
    intro c hc
    simpa [sameTwice] using hc
  intro c d hc hd
  rw [hstart c hc, hstart d hd]
  exact markedAlike_self _ _

open Sample in
/-- The same payment has two receipts when it comes as a transaction and as a signature. -/
theorem bothWays_double :
    (server.machine []).Guarded (Pool.Allowed (Sends fun _ => signature)) bothWays ∧
      ¬ (Pool.Claimants ReceiptFor ((server.machine []).exec bothWays) signature).Subsingleton := by
  have hrun : (server.machine []).Guarded (Pool.Allowed (Sends fun _ => signature)) bothWays ∧
      ((server.machine []).exec bothWays).resultAt 0 =
        some (.ok ⟨"solana", "", signature, "id", ""⟩) ∧
      ((server.machine []).exec bothWays).resultAt 1 =
        some (.ok ⟨"solana", "", signature, "id", ""⟩) := by
    decide +kernel
  refine ⟨hrun.1, fun hsingle => ?_⟩
  have hreceipt (i : Nat) (hi : ((server.machine []).exec bothWays).resultAt i =
      some (.ok ⟨"solana", "", signature, "id", ""⟩)) :
      i ∈ Pool.Claimants ReceiptFor ((server.machine []).exec bothWays) signature := by
    obtain ⟨c, hfinished⟩ := Pool.finished_of_resultAt hi
    exact ⟨c, _, hfinished, _, rfl, rfl⟩
  have hfirst := hreceipt 0 hrun.2.1
  have hsecond := hreceipt 1 hrun.2.2
  exact absurd (hsingle hfirst hsecond) (by decide)

end Mpp
end Py
end MppSdk
