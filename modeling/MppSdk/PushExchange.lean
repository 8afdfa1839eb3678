import MppSdk.HonouredOffers

/-! # Paying and getting through

The whole exchange of a payment that the client has sent itself: a credential for an old offer with
the signature of the transaction goes to a route that makes another offer.  It gets through exactly
when both ask for the same, the offer has not expired, the node shows a transaction that pays what
the route asks for, and the signature is new (`push_exchange`). -/

namespace MppSdk
open Script Json

namespace ChargingMpp
variable {server : ChargingMpp} {canonicalize : Json → Option String}

/-- What the surroundings answer to a request with a signature, one after the other: the time, the
transaction, whether the store works, and the time of the receipt. -/
abbrev Answers : Type := Nat → ChargeInput

/-- The transaction of the signature settles the request in time, and for the first time. -/
def Pays (server : ChargingMpp) (text : String) (expiresAt : Int) (request : ChargeRequest)
    (details : MethodDetails) (answers : Answers) (store : ReplayStore) : Prop :=
  (answers 0).now < expiresAt ∧ ∃ signature tx, Bytes.fromBase58 64 text = some signature ∧
    (answers 1).getTransaction = .ok tx ∧
    verifyConfirmed server.crates.findProgramAddress tx request details = .ok () ∧
    (answers 2).storeError = none ∧ Mpp.consumedKey text ∉ store

/-- The receipt of a signature. -/
def receiptOf (server : ChargingMpp) (text challengeId : String) (answers : Answers) : Receipt where
  method := METHOD_NAME
  timestamp := (server.crates.formatRfc3339 (answers 3).now).getD "1970-01-01T00:00:00Z"
  reference := text
  challengeId

/-- A verification that fails leaves the store alone. -/
def Fails {ε α : Type} (store : ReplayStore) (result : ReplayStore × RustResult ε α) : Prop :=
  result.1 = store ∧ ∀ a, result.2 ≠ .ok a

/-- If it is paid for, a request gets a receipt and its key is in the store from then on; if not, it
fails and leaves the store alone. -/
def Exchanged {ε : Type} (server : ChargingMpp) (text challengeId : String) (answers : Answers)
    (store : ReplayStore) (paid : Prop) (result : ReplayStore × RustResult ε Receipt) : Prop :=
  result = (Mpp.consumedKey text :: store, .ok (server.receiptOf text challengeId answers)) ∧ paid ∨
    Fails store result ∧ ¬ paid

/-- The error when the node does not show a transaction. -/
def notShown (e : String) : VerificationError :=
  if Mpp.mentions ["not found"] e then .notFound "Transaction not found or not yet confirmed"
  else .networkError s!"RPC error: {e}"

/-- What follows a transaction that has been looked up. -/
theorem verifyPush_bind {α : Type} (text : String) (request : ChargeRequest)
    (details : MethodDetails) (f : String → ChargeM α) :
    (server.verifyPush text request details >>= f) =
      ((liftM (okOrElse (Bytes.fromBase58 64 text)
          (VerificationError.invalidPayload "Invalid signature")) : ChargeM Signature) >>=
        fun signature => ChargeM.ask (.getTransaction signature) >>= fun reply =>
          (liftM (mapReply notShown reply) : ChargeM ConfirmedTransaction) >>= fun tx =>
            (liftM (verifyConfirmed server.crates.findProgramAddress tx request details) :
              ChargeM Unit) >>= fun _ => f text) := by
  have hverified : ∀ r : Verified Unit,
      (((liftM r : ChargeM Unit) >>= fun _ => pure text) >>= f) =
        ((liftM r : ChargeM Unit) >>= fun _ => f text) := by
    intro r
    cases r <;> rfl
  have hshown : ∀ r : Verified ConfirmedTransaction,
      (((liftM r : ChargeM ConfirmedTransaction) >>= fun tx =>
        (liftM (verifyConfirmed server.crates.findProgramAddress tx request details) :
          ChargeM Unit) >>= fun _ => pure text) >>= f) =
        ((liftM r : ChargeM ConfirmedTransaction) >>= fun tx =>
          (liftM (verifyConfirmed server.crates.findProgramAddress tx request details) :
            ChargeM Unit) >>= fun _ => f text) := by
    intro r
    cases r with
    | error e => rfl
    | ok tx => exact hverified _
  -- the two sides are the same calls, once each check is known to pass or to fail
  rw [Mpp.verifyPush]
  cases okOrElse (Bytes.fromBase58 64 text)
      (VerificationError.invalidPayload "Invalid signature") with
  | error e => rfl
  | ok signature =>
    exact congrArg (Script.call (F := chargeInterface) (ChargeOp.getTransaction signature))
      (funext fun reply => hshown _)

/-- An operation that is handled by itself. -/
theorem alone_perform_bind {F : Interface} {Store Input ε α : Type} {h : Handler F Store Input}
    (op : F.Op) (f : F.Answer op → ExceptT ε (Script F) α) (xs : Nat → Input) (store : Store) :
    alone h ((liftM (perform op) : ExceptT ε (Script F) (F.Answer op)) >>= f).run xs store =
      alone h (f (h op (xs 0) store).2).run (fun n => xs (n + 1)) (h op (xs 0) store).1 := rfl

/-- A key is consumed if the store works and does not have it. -/
theorem consume_alone (text challengeId : String) (answers : Answers) (store : ReplayStore) :
    server.Exchanged text challengeId answers store
      ((answers 2).storeError = none ∧ Mpp.consumedKey text ∉ store)
      (alone chargeHandler (server.consume text challengeId).run (fun n => answers (n + 2))
        store) := by
  rw [Mpp.consume, alone_perform_bind]
  cases hstore : (answers 2).storeError with
  | some e =>
    have hreply : chargeHandler (.putIfAbsent (Mpp.consumedKey text)) (answers (0 + 2)) store =
        (store, .error e) := by
      simp only [chargeHandler, Nat.zero_add, hstore]
    rw [hreply]
    exact Or.inr ⟨⟨rfl, fun a ha => by cases ha⟩, fun hnone => by cases hnone.1⟩
  | none =>
    by_cases hkey : Mpp.consumedKey text ∈ store
    · have hreply : chargeHandler (.putIfAbsent (Mpp.consumedKey text)) (answers (0 + 2)) store =
          (store, .ok false) := by
        simp only [chargeHandler, Nat.zero_add, hstore, if_pos hkey]
      rw [hreply]
      exact Or.inr ⟨⟨rfl, fun a ha => by cases ha⟩, fun hnew => hnew.2 hkey⟩
    · have hreply : chargeHandler (.putIfAbsent (Mpp.consumedKey text)) (answers (0 + 2)) store =
          (Mpp.consumedKey text :: store, .ok true) := by
        simp only [chargeHandler, Nat.zero_add, hstore, if_neg hkey]
      rw [hreply]
      exact Or.inl ⟨rfl, rfl, hkey⟩

/-- **The end of a verification** with a signature. -/
theorem settleFor_alone (text expires : String) (expiresAt : Int) (challengeId : String)
    (request : ChargeRequest) (details : MethodDetails) (answers : Answers) (store : ReplayStore) :
    server.Exchanged text challengeId answers store
      (server.Pays text expiresAt request details answers store)
      (alone chargeHandler (server.settleFor (.signature text) expires expiresAt challengeId request
        details).run answers store) := by
  have hfail : ∀ e : Failure VerificationError,
      Fails store ((store, .error e) : ReplayStore × RustResult VerificationError Receipt) :=
    fun e => ⟨rfl, fun a ha => by cases ha⟩
  rw [settleFor, alone_perform_bind]
  by_cases hlate : expiresAt ≤ (answers 0).now
  · refine Or.inr ⟨?_, fun hpays => absurd hpays.1 (not_lt.mpr hlate)⟩
    have hrejected : rejectIf (expiresAt ≤ (show Int from (chargeHandler .now (answers 0) store).2))
        (VerificationError.expired s!"Challenge expired at {expires}") = _ := rejectIf_pos hlate
    rw [alone_lift_bind, hrejected]
    exact hfail _
  have haccepted : rejectIf (expiresAt ≤ (show Int from (chargeHandler .now (answers 0) store).2))
      (VerificationError.expired s!"Challenge expired at {expires}") = _ := rejectIf_neg hlate
  rw [alone_lift_bind, haccepted]
  show server.Exchanged text challengeId answers store _
    (alone chargeHandler (server.verifyPush text request details >>= _).run _ _)
  rw [verifyPush_bind, alone_lift_bind]
  cases hsignature : Bytes.fromBase58 64 text with
  | none =>
    refine Or.inr ⟨hfail _, ?_⟩
    rintro ⟨-, signature, tx, hsome, -⟩
    rw [hsignature] at hsome
    cases hsome
  | some signature =>
    show server.Exchanged text challengeId answers store _
      (alone chargeHandler (ChargeM.ask (.getTransaction signature) >>= _).run _ _)
    rw [alone_perform_bind, alone_lift_bind]
    generalize hreply : (chargeHandler (ChargeOp.getTransaction signature) _ _).2 = reply
    have htold : (answers 1).getTransaction = reply := hreply
    cases reply with
    | error e =>
      refine Or.inr ⟨hfail _, ?_⟩
      rintro ⟨-, _, tx, -, htx, -⟩
      rw [htold] at htx
      cases htx
    | ok tx =>
      show server.Exchanged text challengeId answers store _ (alone chargeHandler
        ((liftM (verifyConfirmed _ tx request details) : ChargeM Unit) >>= _).run _ _)
      rw [alone_lift_bind]
      cases hverified : verifyConfirmed server.crates.findProgramAddress tx request details with
      | error e =>
        refine Or.inr ⟨hfail _, ?_⟩
        rintro ⟨-, _, tx', -, htx, hok, -⟩
        obtain rfl := Except.ok.inj (htold.symm.trans htx)
        rw [hverified] at hok
        cases hok
      | ok u =>
        rcases server.consume_alone text challengeId answers store with
          ⟨heq, hstore, hnew⟩ | ⟨hfails, hnot⟩
        · exact Or.inl ⟨heq, not_le.mp hlate, signature, tx, hsignature, htold, hverified, hstore,
            hnew⟩
        · refine Or.inr ⟨hfails, ?_⟩
          rintro ⟨-, _, tx', -, -, -, hstore, hnew⟩
          exact hnot ⟨hstore, hnew⟩

theorem Exchanged.elseOffer {text challengeId : String} {answers : Answers} {store : ReplayStore}
    {paid : Prop} {verification : ChargeM Receipt}
    (h : server.Exchanged text challengeId answers store paid
      (alone chargeHandler verification.run answers store)) (challenge : PaymentChallenge) :
    server.Exchanged text challengeId answers store paid
      (alone chargeHandler (elseOffer challenge verification).run answers store) := by
  have halone : alone chargeHandler (ChargingMpp.elseOffer challenge verification).run answers
      store = ((alone chargeHandler verification.run answers store).1,
        mapErr (fun _ => .verificationFailed challenge)
          (alone chargeHandler verification.run answers store).2) :=
    alone_map chargeHandler verification.run answers store
  rw [halone]
  rcases h with ⟨heq, hpaid⟩ | ⟨⟨hstore, hfails⟩, hnot⟩
  · rw [heq]
    exact Or.inl ⟨rfl, hpaid⟩
  · exact Or.inr ⟨⟨hstore, fun a ha => hfails a (mapErr_eq_ok.mp ha)⟩, hnot⟩

/-- **Who pays gets through, and nobody else.**  A client sends a credential for an old offer, with
the signature of a transaction, to a route that makes another one. -/
theorem push_exchange (c : Carriage) (old current : Offer server canonicalize)
    (source : Option String) (payload : Json) (text : String) (expiresAt : Int)
    (texts : String × String × String) (hurl : server.crates.UrlSafe)
    (hbool : ∀ b, c.carry (bool b) = bool b)
    (hold : Travels server.crates canonicalize c old.request.toJson texts.1)
    (hcurrent : Travels server.crates canonicalize c current.request.toJson texts.2.1)
    (hcredential : Travels server.crates canonicalize c (old.credential source payload).toJson
      texts.2.2)
    (hshort : (utf8 texts.2.2).length ≤ 12288)
    (hpayload : CredentialPayload.ofJson (c.carry payload) = some (.signature text))
    (hexpires : server.crates.parseRfc3339 old.expires = some expiresAt) :
    ∃ header, formatAuthorization server.crates canonicalize (old.credential source payload) =
        .ok header ∧
      ∀ (answers : Answers) (store : ReplayStore),
        server.Exchanged text old.challenge.id answers store
          (old.request.amount = current.request.amount ∧
            server.Pays text expiresAt (current.arrived c) current.details answers store)
          (alone chargeHandler (server.admission current.challenge (some (headerBytes header))).run
            answers store) := by
  obtain ⟨header, hheader, hadmission⟩ := admission_offer c old current source payload
    (.signature text) expiresAt texts hurl hbool hold hcurrent hcredential hshort hpayload hexpires
  refine ⟨header, hheader, fun answers store => ?_⟩
  rw [hadmission]
  by_cases hamount : old.request.amount = current.request.amount
  · rw [if_pos hamount]
    refine (Exchanged.elseOffer (server.settleFor_alone text old.expires expiresAt old.challenge.id
      (current.arrived c) current.details answers store) current.challenge).imp ?_ ?_
    · exact fun h => ⟨h.1, hamount, h.2⟩
    · exact fun h => ⟨h.1, fun hpaid => h.2 hpaid.2⟩
  · rw [if_neg hamount]
    exact Or.inr ⟨⟨rfl, fun a ha => by cases ha⟩, fun hpaid => hamount hpaid.1⟩

end ChargingMpp

namespace OfferSample

open ChargingMpp

/-- The sample's old offer, paid with the signature `1`, exchanged under the new one. -/
theorem exchanged : ∃ header,
    formatAuthorization crates canonicalize (old.credential none payload) = .ok header ∧
      ∀ (answers : Answers) (store : ReplayStore),
        server.Exchanged "1" old.challenge.id answers store
          (old.request.amount = current.request.amount ∧
            server.Pays "1" 1893456300000000000 (current.arrived .direct) current.details answers
              store)
          (alone chargeHandler (server.admission current.challenge (some (headerBytes header))).run
            answers store) :=
  push_exchange .direct old current none payload "1" 1893456300000000000
    (oldText, currentText, credentialText) ⟨rfl, rfl⟩ (fun _ => rfl) old_travels current_travels
    credential_travels (by decide +kernel) rfl rfl

end OfferSample
end MppSdk
