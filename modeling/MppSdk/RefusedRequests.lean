import Mathlib.Data.Bool.AllAny
import MppSdk.HonouredOffers
import MppSdk.PaymentGateRuns

/-! # Refused requests

A request that does not get through is told why: it has an offer of its own route, made at a time
that the clock has shown it, unless the route cannot make one (`refused_offered`).  The response
carries the offer in a header that is read back, unless the realm or the expiry has a character
that no header may have (`refusal_response`). -/

namespace MppSdk
open Script

namespace ChargingMpp
variable {server : ChargingMpp} {canonicalize : Json → Option String}

/-! ## Every refusal is an offer -/

/-- The challenge is the offer of the route, at a time that the clock has shown. -/
def Offers (server : ChargingMpp) (canonicalize : Json → Option String) (arrival : Arrival)
    (log : Log chargeInterface) (challenge : PaymentChallenge) : Prop :=
  ∃ now : Int, ⟨.now, now⟩ ∈ log ∧ server.chargeWithOptions canonicalize arrival.route.amount
    arrival.route.options arrival.blockhash now = .ok challenge

/-- The credential of a request, if it has one that can be read. -/
def presented (server : ChargingMpp) (arrival : Arrival) : Option SourcedCredential := do
  let text ← paymentHeader arrival.authorization
  (parseAuthorization server.crates text).toOption

/-- Why a request is refused: it has no credential, or one that failed; or the route cannot
charge. -/
def Refuses (server : ChargingMpp) (canonicalize : Json → Option String) (arrival : Arrival)
    (log : Log chargeInterface) : MppChargeRejection → Prop
  | .challenge offered => server.Offers canonicalize arrival log offered ∧
      server.presented arrival = none
  | .verificationFailed offered => server.Offers canonicalize arrival log offered ∧
      (server.presented arrival).isSome
  | .internalError _ =>
      (∀ now challenge, server.chargeWithOptions canonicalize arrival.route.amount
        arrival.route.options arrival.blockhash now ≠ .ok challenge) ∨
      ∃ offered, server.Offers canonicalize arrival log offered ∧
        decodeRequest server.crates offered.request = none

/-- The rejections that a result may be. -/
def RefusedFor (server : ChargingMpp) (canonicalize : Json → Option String) (arrival : Arrival)
    (log : Log chargeInterface) (r : Passage) : Prop :=
  ∀ rejection, r = .error (.error rejection) → server.Refuses canonicalize arrival log rejection

/-- An error that is mapped comes from one. -/
theorem mapErr_eq_error {ε ε' α : Type} {f : ε → ε'} {r : RustResult ε α} {e' : ε'}
    (h : mapErr f r = .error (.error e')) : ∃ e, r = .error (.error e) ∧ f e = e' := by
  rcases r with (e | message) | a
  · cases h
    exact ⟨e, rfl, rfl⟩
  · cases h
  · cases h

theorem okOrElse_eq_error {ε α : Type} {o : Option α} {e : ε} {failure : Failure ε}
    (h : okOrElse o e = .error failure) : o = none ∧ failure = .error e := by
  cases o with
  | none => exact ⟨rfl, (Except.error.inj h).symm⟩
  | some a => cases h

/-- Whether the end of a charge fails does not depend on the time. -/
theorem exists_challengeFor_eq {request : ChargeRequest} {options : ChargeOptions} {now' : Int}
    {challenge : PaymentChallenge} (now : Int)
    (h : server.challengeFor canonicalize request options now' = .ok challenge) :
    ∃ challenge', server.challengeFor canonicalize request options now = .ok challenge' := by
  have hsome := okOrElse_eq_ok.mp h
  simp only [Mpp.chargeChallengeWithOptions, Option.bind_eq_bind, Option.bind_eq_some_iff] at hsome
  obtain ⟨text, htext, -⟩ := hsome
  simp only [challengeFor, Mpp.chargeChallengeWithOptions, Option.bind_eq_bind, htext,
    Option.bind_some]
  exact ⟨_, rfl⟩

theorem elseOffer_refused {arrival : Arrival} {offered : PaymentChallenge}
    {verification : ChargeM Receipt} {log : Log chargeInterface}
    (hoffers : server.Offers canonicalize arrival log offered)
    (hpresented : (server.presented arrival).isSome) :
    Earns (server.RefusedFor canonicalize arrival) log (elseOffer offered verification).run := by
  refine earns_bind.mpr ((earns_grows verification.run log).mono fun log' r hlog => ?_)
  intro rejection hrejection
  obtain ⟨e, -, rfl⟩ := mapErr_eq_error hrejection
  obtain ⟨now, hnow, hcharge⟩ := hoffers
  exact ⟨⟨now, hlog hnow, hcharge⟩, hpresented⟩

theorem gateProgram_refuses (server : ChargingMpp) (canonicalize : Json → Option String)
    (arrival : Arrival) :
    Earns (server.RefusedFor canonicalize arrival) []
      (server.gateProgram canonicalize arrival) := by
  rw [gateProgram, fromRequestParts, run_bind, earns_bind]
  refine earns_lift_bind ?_ fun request hrequest => ?_
  · rintro e he rejection hrejection
    obtain rfl := Except.error.inj hrejection
    obtain ⟨failed, hfailed, rfl⟩ := mapErr_eq_error he
    refine Or.inl fun now challenge hcharge => ?_
    obtain ⟨request, hrequest, -⟩ := bind_eq_ok.mp hcharge
    rw [hfailed] at hrequest
    cases hrequest
  have hcharged := mapErr_eq_ok.mp hrequest
  intro now
  show Earns _ _
    (done (charged (server.challengeFor canonicalize request arrival.route.options now)))
  rcases hoffer : charged (server.challengeFor canonicalize request arrival.route.options now)
    with e | offered
  · intro rejection hrejection
    obtain rfl := Except.error.inj hrejection
    obtain ⟨failed, hfailed, rfl⟩ := mapErr_eq_error hoffer
    refine Or.inl fun now' challenge hcharge => ?_
    obtain ⟨request', hrequest', hchallenge⟩ := bind_eq_ok.mp hcharge
    obtain rfl := Except.ok.inj (hcharged.symm.trans hrequest')
    obtain ⟨challenge', hchallenge'⟩ := exists_challengeFor_eq now hchallenge
    rw [hfailed] at hchallenge'
    cases hchallenge'
  have hoffers : server.Offers canonicalize arrival [⟨.now, now⟩] offered :=
    ⟨now, List.mem_cons_self, bind_eq_ok.mpr ⟨request, hcharged, mapErr_eq_ok.mp hoffer⟩⟩
  refine earns_lift_bind ?_ fun text htext => earns_lift_bind ?_ fun credential hcredential =>
    earns_lift_bind ?_ fun expected _ => elseOffer_refused hoffers ?_
  · rintro e he rejection hrejection
    obtain ⟨hnone, rfl⟩ := okOrElse_eq_error he
    cases hrejection
    refine ⟨hoffers, ?_⟩
    rw [presented, hnone]
    rfl
  · rintro e he rejection hrejection
    obtain rfl := Except.error.inj hrejection
    obtain ⟨failed, hfailed, rfl⟩ := mapErr_eq_error he
    refine ⟨hoffers, ?_⟩
    rw [presented, okOrElse_eq_ok.mp htext, Option.bind_eq_bind, Option.bind_some, hfailed]
    rfl
  · rintro e he rejection hrejection
    obtain ⟨hnone, rfl⟩ := okOrElse_eq_error he
    cases hrejection
    exact Or.inr ⟨offered, hoffers, hnone⟩
  · rw [presented, okOrElse_eq_ok.mp htext, Option.bind_eq_bind, Option.bind_some,
      mapErr_eq_ok.mp hcredential]
    rfl

/-- **A refusal is an offer.**  In every run, a request that is refused has been offered what its
own route charges at a time the clock has shown it, unless the route cannot charge at all. -/
theorem refused_offered (server : ChargingMpp) (canonicalize : Json → Option String)
    (store : ReplayStore) (run : List (Pool.Event Arrival ChargeInput)) :
    {p : Nat × Arrival × MppChargeRejection |
        ((server.gate canonicalize store).exec run).Finished p.1 p.2.1 (.error (.error p.2.2))} ⊆
      {p : Nat × Arrival × MppChargeRejection | ∃ log : Log chargeInterface,
        (∀ entry ∈ log, Pool.Answered chargeHandler (server.gateProgram canonicalize) store run p.1
          entry.1 entry.2) ∧
        server.Refuses canonicalize p.2.1 log p.2.2} := by
  rintro ⟨i, arrival, rejection⟩ hi
  obtain ⟨log, hlog, hpost⟩ :=
    Pool.earned_run (gateProgram_refuses server canonicalize) store run hi
  exact ⟨log, hlog, hpost rejection rfl⟩

/-! ## The response -/

/-- A text that a header may have. -/
def Sendable (text : String) : Prop := ∀ ch ∈ text.toList, HeaderChar ch

instance (text : String) : Decidable (Sendable text) :=
  inferInstanceAs (Decidable (∀ ch ∈ text.toList, HeaderChar ch))

theorem Sendable.writable {text : String} (h : Sendable text) : Writable text :=
  ⟨fun hmem => absurd (h _ hmem) (by decide), fun hmem => absurd (h _ hmem) (by decide)⟩

theorem headerChar_alphabet : ∀ ch ∈ Base64Url.alphabet, HeaderChar ch :=
  List.all_iff_forall_prop.mp (by decide)

theorem sendable_encode (bytes : List UInt8) : Sendable (Base64Url.encode bytes) := fun ch hch =>
  headerChar_alphabet ch (Base64Url.mem_alphabet_of_mem_encode hch)

theorem forall_mem_escaped {text : String} :
    (∀ ch ∈ escaped text, HeaderChar ch) ↔ Sendable text := by
  constructor
  · intro h ch hch
    refine h ch (List.mem_flatMap.mpr ⟨ch, hch, ?_⟩)
    unfold escapeChar
    by_cases hbackslash : ch = '\\'
    · rw [if_pos hbackslash, hbackslash]
      exact List.mem_cons_self
    · rw [if_neg hbackslash]
      by_cases hquote : ch = '"'
      · rw [if_pos hquote, hquote]
        exact List.mem_cons_of_mem _ List.mem_cons_self
      · rw [if_neg hquote]
        exact List.mem_cons_self
  · intro h ch hch
    obtain ⟨d, hd, hch⟩ := List.mem_flatMap.mp hch
    unfold escapeChar at hch
    split at hch
    · obtain rfl : ch = '\\' := by simpa using hch
      decide
    · split at hch
      · rcases List.mem_cons.mp hch with rfl | hch
        · decide
        · obtain rfl := List.mem_singleton.mp hch
          decide
      · obtain rfl := List.mem_singleton.mp hch
        exact h ch hd

theorem forall_mem_intercalate {P : Char → Prop} {gap : List Char} (hgap : ∀ ch ∈ gap, P ch)
    (parts : List (List Char)) :
    (∀ ch ∈ gap.intercalate parts, P ch) ↔ ∀ part ∈ parts, ∀ ch ∈ part, P ch := by
  induction parts with
  | nil => simp
  | cons part parts ih =>
    by_cases hnil : parts = []
    · subst hnil
      simp
    · rw [List.intercalate_cons_of_ne_nil hnil, List.forall_mem_append, List.forall_mem_append, ih,
        List.forall_mem_cons]
      exact ⟨fun h => ⟨h.1.1, h.2⟩, fun h => ⟨⟨h.1, hgap⟩, h.2⟩⟩

/-- A header may have the text of a challenge if it may have each of its values. -/
theorem forall_mem_challengeText (challenge : PaymentChallenge) :
    (∀ ch ∈ challengeText challenge, HeaderChar ch) ↔
      ∀ param ∈ challenge.params, Sendable param.2 := by
  have hnames : ∀ param ∈ challenge.params, Sendable param.1 := by
    have hknown : ∀ param ∈ challenge.params, param.1 ∈ ["id", "realm", "method", "intent",
        "request", "expires", "digest", "opaque"] := by
      simp [PaymentChallenge.params, or_imp, forall_and]
    have hsendable : ∀ name ∈ ["id", "realm", "method", "intent", "request", "expires", "digest",
        "opaque"], Sendable name := by decide
    exact fun param hparam => hsendable _ (hknown param hparam)
  have hscheme : ∀ ch ∈ PAYMENT_SCHEME ++ [' '], HeaderChar ch :=
    List.all_iff_forall_prop.mp (by decide)
  have hgap : ∀ ch ∈ [',', ' '], HeaderChar ch := List.all_iff_forall_prop.mp (by decide)
  rw [challengeText, List.append_cons, List.forall_mem_append, and_iff_right hscheme,
    forall_mem_intercalate hgap, List.forall_mem_map]
  refine forall₂_congr fun param hparam => ?_
  have hbefore : ∀ ch ∈ param.1.toList ++ ['='] ++ ['"'], HeaderChar ch := by
    rw [List.append_assoc, List.forall_mem_append]
    exact ⟨hnames param hparam, List.all_iff_forall_prop.mp (by decide)⟩
  have hafter : ∀ ch ∈ ['"'], HeaderChar ch := List.all_iff_forall_prop.mp (by decide)
  rw [paramText, List.append_cons, List.append_cons, List.forall_mem_append, and_iff_right hbefore,
    List.forall_mem_append, and_iff_left hafter, forall_mem_escaped]

/-- One value with a line end is enough for a challenge not to be written. -/
theorem formatWwwAuthenticate_error {challenge : PaymentChallenge}
    (h : ¬ ∀ param ∈ challenge.params, Writable param.2) : formatWwwAuthenticate challenge =
      .error (.error (Error.other "Header value contains invalid CRLF characters")) := by
  have hparams : ∀ params : List (String × String), (¬ ∀ param ∈ params, Writable param.2) →
      params.mapM formatParam =
        .error (.error (Error.other "Header value contains invalid CRLF characters")) := by
    intro params hparams
    induction params with
    | nil => exact absurd (fun param hparam => absurd hparam List.not_mem_nil) hparams
    | cons param params ih =>
      rw [List.mapM_cons]
      by_cases hparam : Writable param.2
      · rw [ih fun hrest => hparams (List.forall_mem_cons.mpr ⟨hparam, hrest⟩), formatParam,
          escapeQuotedValue_eq hparam]
        rfl
      · have hends : '\r' ∈ param.2.toList ∨ '\n' ∈ param.2.toList := by
          by_contra hnone
          exact hparam (not_or.mp hnone)
        rw [formatParam, escapeQuotedValue, if_pos hends]
        rfl
  rw [formatWwwAuthenticate, hparams challenge.params h]
  rfl

/-- What holds of every value of an offer, the realm and the expiry apart. -/
theorem Offer.forall_params (offer : Offer server canonicalize) (hurl : server.crates.UrlSafe)
    {text : String} (hwritten : canonicalize offer.request.toJson = some text)
    {P : String → Prop} (hencoded : ∀ bytes, P (Base64Url.encode bytes)) (hmethod : P "solana")
    (hintent : P "charge") :
    (∀ param ∈ offer.challenge.params, P param.2) ↔ P server.realm ∧ P offer.expires := by
  have hmethod' : P METHOD_NAME.toLower := by
    rw [show METHOD_NAME.toLower = "solana" by decide +kernel]
    exact hmethod
  have hintent' : P "charge".toLower := by
    rw [show "charge".toLower = "charge" by decide +kernel]
    exact hintent
  have hid : P (computeChallengeId server.crates server.secretKey server.realm METHOD_NAME.toLower
      "charge".toLower (server.crates.base64UrlEncode (utf8 text)) (some offer.expires) none
      none) := by
    rw [computeChallengeId, hurl.encode]
    exact hencoded _
  have hrequest : P (server.crates.base64UrlEncode (utf8 text)) := by
    rw [hurl.encode]
    exact hencoded _
  rw [offer.challenge_eq hwritten]
  simp only [PaymentChallenge.params, PaymentChallenge.withSecretKeyFull, Option.toList_some,
    Option.toList_none, List.map_cons, List.map_nil, List.append_nil, List.forall_mem_append,
    List.forall_mem_cons, List.not_mem_nil, false_implies, implies_true, and_true]
  exact ⟨fun h => ⟨h.1.2.1, h.2⟩, fun h => ⟨⟨hid, h.1, hmethod', hintent', hrequest⟩, h.2⟩⟩

/-- An offer can be read, if its values can be written. -/
theorem Offer.wellFormed (offer : Offer server canonicalize) {c : Json.Carriage} {text : String}
    (hurl : server.crates.UrlSafe)
    (hhmac : ∀ key message, server.crates.hmacSha256 key message ≠ [])
    (h : Travels server.crates canonicalize c offer.request.toJson text)
    (hwritable : ∀ param ∈ offer.challenge.params, Writable param.2) :
    offer.challenge.WellFormed server.crates := by
  have hchallenge := offer.challenge_eq h.written
  refine ⟨?_, ?_, ?_, ⟨utf8 text, c.carry offer.request.toJson, ?_, h.read⟩, hwritable⟩
  · rw [hchallenge]
    show server.crates.base64UrlEncode _ ≠ ""
    rw [hurl.encode]
    exact Base64Url.encode_ne_empty (hhmac _ _)
  · rw [hchallenge]
    show isValidMethod METHOD_NAME.toLower = true
    decide +kernel
  · rw [hchallenge]
    show "charge".toLower.toLower = "charge".toLower
    decide +kernel
  · rw [hchallenge]
    show base64urlDecode server.crates (server.crates.base64UrlEncode (utf8 text)) =
      some (utf8 text)
    rw [hurl.encode, base64urlDecode_tokenOf hurl]

/-- The names of the headers of a response with a challenge. -/
theorem paymentRequired_eq (toText : PaymentChallenge → Option String)
    {challenge : PaymentChallenge}
    (hformat : formatWwwAuthenticate challenge = .ok (challengeText challenge)) :
    ∃ response, paymentRequired toText challenge = .ok response ∧ response.status = 402 ∧
      response.headers.lookup "www-authenticate" =
        Response.headerValue (challengeText challenge) := by
  simp only [paymentRequired, hformat]
  generalize Response.headerValue (challengeText challenge) = value
  cases value with
  | none => exact ⟨_, rfl, rfl, rfl⟩
  | some value => exact ⟨_, rfl, rfl, rfl⟩

/-- **The response of a refusal** is 402, unless the realm or the expiry has a line end; and it
has the challenge, which is read back as it was offered, unless one of them has another control
character. -/
theorem refusal_response (toText : PaymentChallenge → Option String)
    (offer : Offer server canonicalize) (c : Json.Carriage) (text : String)
    (hurl : server.crates.UrlSafe)
    (hhmac : ∀ key message, server.crates.hmacSha256 key message ≠ [])
    (h : Travels server.crates canonicalize c offer.request.toJson text) :
    ∃ response, paymentRequired toText offer.challenge = .ok response ∧
      response.status = (if Writable server.realm ∧ Writable offer.expires then 402 else 500) ∧
      ((response.headers.lookup "www-authenticate").isSome ↔
        Sendable server.realm ∧ Sendable offer.expires) ∧
      ∀ header ∈ response.headers.lookup "www-authenticate",
        ∃ read, parseWwwAuthenticateAll server.crates [header] = [.ok read] ∧
          read.toEcho = offer.challenge.toEcho := by
  by_cases hwritable : Writable server.realm ∧ Writable offer.expires
  · have hall : ∀ param ∈ offer.challenge.params, Writable param.2 :=
      (offer.forall_params hurl h.written (fun bytes => (sendable_encode bytes).writable)
        (by decide) (by decide)).mpr hwritable
    have hformat : formatWwwAuthenticate offer.challenge = .ok (challengeText offer.challenge) := by
      rw [formatWwwAuthenticate, mapM_formatParam hall]
      rfl
    -- names, quotes and gaps are visible, and a backslash is one too
    have hsendable : (∀ ch ∈ challengeText offer.challenge, HeaderChar ch) ↔
        Sendable server.realm ∧ Sendable offer.expires :=
      (forall_mem_challengeText offer.challenge).trans
        (offer.forall_params hurl h.written sendable_encode (by decide) (by decide))
    obtain ⟨response, hresponse, hstatus, hheader⟩ := paymentRequired_eq toText hformat
    refine ⟨response, hresponse, ?_, ?_, fun header hmem => ?_⟩
    · rw [hstatus, if_pos hwritable]
    · rw [hheader, ← hsendable, Response.headerValue]
      by_cases hchars : ∀ ch ∈ challengeText offer.challenge, HeaderChar ch
      · rw [if_pos hchars]
        exact iff_of_true rfl hchars
      · rw [if_neg hchars]
        exact iff_of_false (by decide) hchars
    · have hvalue : header = challengeText offer.challenge := by
        rw [hheader, Response.headerValue] at hmem
        split at hmem
        · exact (Option.some.inj hmem).symm
        · cases hmem
      refine ⟨{ offer.challenge with description := none }, ?_, rfl⟩
      have hsplit := splitPaymentChallengeValues_header [offer.challenge]
      rw [headerText, List.map_singleton, List.intercalate_singleton] at hsplit
      rw [hvalue, parseWwwAuthenticateAll, List.flatMap_singleton, hsplit, List.map_singleton,
        parseWwwAuthenticate_challengeText (offer.wellFormed hurl hhmac h hall)]
  -- a line end: there is no header at all
  · have hformat := formatWwwAuthenticate_error fun hall => hwritable ((offer.forall_params hurl
      h.written (fun bytes => (sendable_encode bytes).writable) (by decide) (by decide)).mp hall)
    have hnot : ¬ (Sendable server.realm ∧ Sendable offer.expires) := fun hsendable =>
      hwritable ⟨hsendable.1.writable, hsendable.2.writable⟩
    rw [paymentRequired, hformat]
    refine ⟨_, rfl, ?_, iff_of_false (by decide) hnot, fun header hmem => ?_⟩
    · rw [if_neg hwritable]
    · cases hmem

end ChargingMpp

namespace OfferSample
open ChargingMpp

theorem hmac_ne_nil (key message : List UInt8) : server.crates.hmacSha256 key message ≠ [] := by
  show (if message = oldInput then oldDigest else currentDigest) ≠ []
  split
  · decide
  · decide

/-- The old offer is read back from the response it is sent in. -/
theorem refused : ∃ response, paymentRequired (fun _ => none) old.challenge = .ok response ∧
    response.status = 402 ∧ ∃ header read,
      response.headers.lookup "www-authenticate" = some header ∧
      parseWwwAuthenticateAll crates [header] = [.ok read] ∧
      read.toEcho = old.challenge.toEcho := by
  obtain ⟨response, hresponse, hstatus, hsome, hread⟩ := ChargingMpp.refusal_response
    (fun _ => none) old .direct oldText ⟨rfl, rfl⟩ hmac_ne_nil old_travels
  have hsendable : Sendable server.realm ∧ Sendable old.expires := by decide +kernel
  obtain ⟨header, hheader⟩ := Option.isSome_iff_exists.mp (hsome.mpr hsendable)
  obtain ⟨read, hparse, hecho⟩ := hread header hheader
  refine ⟨response, hresponse, ?_, header, read, hheader, hparse, hecho⟩
  rw [hstatus, if_pos ⟨hsendable.1.writable, hsendable.2.writable⟩]

end OfferSample
end MppSdk
