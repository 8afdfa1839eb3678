import Mathlib.Data.Bool.AllAny
import MppSdk.PaymentGate

/-! # Offers are honoured

A credential for a challenge that the server has offered on one route is taken on every route that
asks for the same base units, until the challenge expires, and all that is left to do is to settle
the payment as that route has it (`offer_honoured`).  On any other route it fails. -/

namespace MppSdk
open Script Json

/-! ## Requests that arrive -/

section Survival
variable {c : Carriage}

theorem survives_bool (hbool : ∀ b, c.carry (bool b) = bool b) : Survives c bool asBool where
  read_carry b := by rw [hbool]; rfl
  read_null := rfl

theorem Split.survives (hbool : ∀ b, c.carry (bool b) = bool b) :
    Survives c Split.toJson Split.ofJson where
  read_carry split := by
    have hnames : (split.jsonFields.map Prod.fst).Nodup := by simp [jsonFields]
    obtain ⟨arrived, hobj, harrived⟩ := c.carry_object hnames
    have hrecipient : required asStr arrived "recipient" = some split.recipient :=
      harrived.required_eq (survives_str c) rfl
    have hamount : required asStr arrived "amount" = some split.amount :=
      harrived.required_eq (survives_str c) rfl
    have hata : optional asBool arrived "ataCreationRequired" = some split.ataCreationRequired :=
      harrived.optional_eq (survives_bool hbool) rfl
    have hlabel : optional asStr arrived "label" = some split.label :=
      harrived.optional_eq (survives_str c) rfl
    have hmemo : optional asStr arrived "memo" = some split.memo :=
      harrived.optional_eq (survives_str c) rfl
    rw [toJson, hobj]
    simp only [ofJson, hrecipient, hamount, hata, hlabel, hmemo]
    rfl
  read_null := rfl

/-- A vector that is left out when it is empty, read as one that is optional. -/
theorem Carriage.Arrived.vec_eq {α : Type} {write : α → Json} {read : Json → Option α}
    {fields : List (String × Option Json)} {arrived : List (String × Json)} {key : String}
    {items : List α} (harrived : c.Arrived fields arrived) (h : Survives c write read)
    (hkey : fields.lookup key = some (Json.nonEmpty write items)) :
    optional (asVec read) arrived key = some (if items.isEmpty then none else some items) := by
  have hwritten : Json.nonEmpty write items =
      (if items.isEmpty then none else some items).map fun items => arr (items.map write) := by
    cases items <;> rfl
  exact harrived.optional_eq h.asVec (hkey.trans (congrArg some hwritten))

/-- A request arrives with its method details as they arrive. -/
theorem ChargeRequest.ofJson_carry (request : ChargeRequest)
    (hdetails : ∀ details ∈ request.methodDetails, c.carry details ≠ null) :
    ChargeRequest.ofJson (c.carry request.toJson) =
      some { request with methodDetails := request.methodDetails.map c.carry } := by
  have hnames : (request.jsonFields.map Prod.fst).Nodup := by simp [jsonFields]
  obtain ⟨arrived, hobj, harrived⟩ := c.carry_object hnames
  have hamount : required asStr arrived "amount" = some request.amount :=
    harrived.required_eq (survives_str c) rfl
  have hcurrency : required asStr arrived "currency" = some request.currency :=
    harrived.required_eq (survives_str c) rfl
  have hrecipient : optional asStr arrived "recipient" = some request.recipient :=
    harrived.optional_eq (survives_str c) rfl
  have hdescription : optional asStr arrived "description" = some request.description :=
    harrived.optional_eq (survives_str c) rfl
  have hexternal : optional asStr arrived "externalId" = some request.externalId :=
    harrived.optional_eq (survives_str c) rfl
  have hmethod : optional some arrived "methodDetails" =
      some (request.methodDetails.map c.carry) := by
    have hfield : field arrived "methodDetails" = request.methodDetails.map c.carry := by
      have hlookup : request.jsonFields.lookup "methodDetails" = some request.methodDetails := rfl
      rw [harrived, hlookup, Option.join_some]
    cases hd : request.methodDetails with
    | none =>
      rw [hd] at hfield
      unfold Json.optional
      rw [hfield]
      rfl
    | some details =>
      rw [hd] at hfield
      exact optional_of_ne_null hfield (hdetails details hd)
  rw [toJson, hobj]
  simp only [ofJson, hamount, hcurrency, hrecipient, hdescription, hexternal, hmethod]
  rfl

end Survival

namespace ChargingMpp
variable {server : ChargingMpp} {canonicalize : Json → Option String} {c : Carriage}

/-- The method details of a charge. -/
def methodDetails (server : ChargingMpp) (options : ChargeOptions) (blockhash : Option String) :
    MethodDetails where
  network := some server.network
  decimals := some server.decimals
  tokenProgram := if toUppercase server.currency ≠ "SOL" then
    some (defaultTokenProgramForCurrency server.currency (some server.network)) else none
  feePayer := if server.sponsors options then some true else none
  feePayerKey := if server.sponsors options then
    server.feePayerSigner.map (·.toBase58) else none
  splits := if options.splits.isEmpty then none else some options.splits
  recentBlockhash := blockhash

theorem nodup_detailFields (options : ChargeOptions) (blockhash : Option String) :
    ((server.detailFields options blockhash).map Prod.fst).Nodup := by
  simp [detailFields]

/-- The method details are read back. -/
theorem ofJson_carry_details (hbool : ∀ b, c.carry (bool b) = bool b) (options : ChargeOptions)
    (blockhash : Option String) :
    MethodDetails.ofJson (c.carry (object (server.detailFields options blockhash))) =
      some (server.methodDetails options blockhash) := by
  obtain ⟨arrived, hobj, harrived⟩ :=
    c.carry_object (server.nodup_detailFields options blockhash)
  have hnetwork : optional asStr arrived "network" = some (some server.network) :=
    harrived.optional_eq (survives_str c) rfl
  have hdecimals : optional asU8 arrived "decimals" = some (some server.decimals) :=
    harrived.optional_eq (survives_u8 c) rfl
  have hprogram : optional asStr arrived "tokenProgram" =
      some (server.methodDetails options blockhash).tokenProgram := by
    refine harrived.optional_eq (survives_str c) ?_
    show some (ite _ _ _) = some (Option.map _ (ite _ _ _))
    split <;> rfl
  have hfeePayer : optional asBool arrived "feePayer" =
      some (server.methodDetails options blockhash).feePayer := by
    refine harrived.optional_eq (survives_bool hbool) ?_
    show some (ite _ _ _) = some (Option.map _ (ite _ _ _))
    split <;> rfl
  have hkey : optional asStr arrived "feePayerKey" =
      some (server.methodDetails options blockhash).feePayerKey := by
    refine harrived.optional_eq (survives_str c) ?_
    show some (ite _ _ _) = some (Option.map _ (ite _ _ _))
    split
    · rw [Option.map_map]
      rfl
    · rfl
  have hsplits : optional (asVec Split.ofJson) arrived "splits" =
      some (server.methodDetails options blockhash).splits :=
    Carriage.Arrived.vec_eq harrived (Split.survives hbool) rfl
  have hblockhash : optional asStr arrived "recentBlockhash" = some blockhash :=
    harrived.optional_eq (survives_str c) rfl
  rw [hobj]
  simp only [MethodDetails.ofJson, hnetwork, hdecimals, hprogram, hfeePayer, hkey, hsplits,
    hblockhash]
  rfl

/-! ## Offers -/

/-- A challenge that the server has offered, with the request it is for. -/
structure Offer (server : ChargingMpp) (canonicalize : Json → Option String) where
  amount : String
  options : ChargeOptions
  blockhash : Option String
  now : Int
  request : ChargeRequest
  challenge : PaymentChallenge
  charged : server.chargeRequest amount options blockhash = .ok request
  offered : server.challengeFor canonicalize request options now = .ok challenge

namespace Offer
variable (offer : Offer server canonicalize)

/-- The method details. -/
def details : MethodDetails := server.methodDetails offer.options offer.blockhash

/-- The request as it arrives. -/
def arrived (c : Carriage) : ChargeRequest :=
  { offer.request with methodDetails := offer.request.methodDetails.map c.carry }

/-- The time it expires, as it is written. -/
def expires : String :=
  offer.options.expires.getD (expiresMinutes server.crates offer.now 5)

theorem request_eq : ∃ units, parseUnits offer.amount server.decimals = .ok units ∧
    offer.request = {
      amount := units
      currency := server.currency
      recipient := some server.recipient
      description := offer.options.description
      externalId := offer.options.externalId
      methodDetails := some (object (server.detailFields offer.options offer.blockhash)) } := by
  obtain ⟨_, -, hunits⟩ := bind_eq_ok.mp offer.charged
  obtain ⟨units, hparse, hrequest⟩ := bind_eq_ok.mp hunits
  exact ⟨units, mapErr_eq_ok.mp hparse, (Except.ok.inj hrequest).symm⟩

theorem challenge_eq {text : String} (h : canonicalize offer.request.toJson = some text) :
    offer.challenge = .withSecretKeyFull server.crates server.secretKey server.realm METHOD_NAME
      "charge" (server.crates.base64UrlEncode (utf8 text)) (some offer.expires) none
      offer.options.description none := by
  have hoffered := okOrElse_eq_ok.mp offer.offered
  simp only [Mpp.chargeChallengeWithOptions, Function.comp_apply, h, Option.bind_eq_bind,
    Option.bind_some, Option.pure_def, Option.some.injEq] at hoffered
  exact hoffered.symm

/-- The request of an offer is read back. -/
theorem decode_request (hurl : server.crates.UrlSafe) (hbool : ∀ b, c.carry (bool b) = bool b)
    {text : String} (h : Travels server.crates canonicalize c offer.request.toJson text) :
    decodeRequest server.crates offer.challenge.request = some (offer.arrived c) := by
  have hrequest : offer.challenge.request = Base64Url.encode (utf8 text) := by
    rw [offer.challenge_eq h.written, ← hurl.encode]
    rfl
  obtain ⟨units, -, heq⟩ := offer.request_eq
  have hdetails : ∀ details ∈ offer.request.methodDetails, c.carry details ≠ null := by
    intro details hmem hnull
    rw [heq] at hmem
    obtain rfl := Option.some.inj hmem
    have hread := server.ofJson_carry_details hbool offer.options offer.blockhash
    rw [hnull] at hread
    cases hread
  simp only [decodeRequest, Option.bind_eq_bind, hrequest, base64urlDecode_tokenOf hurl, h.read,
    Option.bind_some, ChargeRequest.ofJson_carry offer.request hdetails]
  rfl

theorem methodDetails_arrived (hbool : ∀ b, c.carry (bool b) = bool b) :
    Mpp.methodDetailsOf (offer.arrived c) = .ok offer.details := by
  obtain ⟨units, -, heq⟩ := offer.request_eq
  have hmethod : (offer.arrived c).methodDetails =
      some (c.carry (object (server.detailFields offer.options offer.blockhash))) := by
    rw [arrived, heq]
    rfl
  simp only [Mpp.methodDetailsOf, hmethod, server.ofJson_carry_details hbool, okOrElse]
  rfl

end Offer

/-! ## Credentials for offers -/

/-- What is left of a verification when a credential has passed all checks but the clock. -/
def settleFor (server : ChargingMpp) (payload : CredentialPayload) (expires : String)
    (expiresAt : Int) (challengeId : String) (request : ChargeRequest) (details : MethodDetails) :
    ChargeM Receipt := do
  let now ← ChargeM.ask .now
  rejectIf (expiresAt ≤ (show Int from now))
    (VerificationError.expired s!"Challenge expired at {expires}")
  let signatureStr ← server.settle payload request details
  server.consume signatureStr challengeId

theorem lift_ok_bind {F : Interface} {ε α β : Type} {r : Except ε α} {a : α}
    {f : α → ExceptT ε (Script F) β} (h : r = .ok a) :
    ((liftM r : ExceptT ε (Script F) α) >>= f) = f a := by
  subst h
  rfl

theorem lift_error_bind {F : Interface} {ε α β : Type} {r : Except ε α} {e : ε}
    {f : α → ExceptT ε (Script F) β} (h : r = .error e) :
    ((liftM r : ExceptT ε (Script F) α) >>= f) = liftM (Except.error e : Except ε β) := by
  subst h
  rfl

/-- The checks of a credential for an offer, as a request with the same terms is settled. -/
theorem verify_offer (old : Offer server canonicalize) {text : String}
    (hwritten : canonicalize old.request.toJson = some text) {payload : Json}
    {p : CredentialPayload} (hpayload : CredentialPayload.ofJson payload = some p)
    {expiresAt : Int} (hexpires : server.crates.parseRfc3339 old.expires = some expiresAt)
    {request : ChargeRequest} {details : MethodDetails}
    (hcurrency : request.currency = server.currency)
    (hrecipient : request.recipient = some server.recipient)
    (hdetails : Mpp.methodDetailsOf request = .ok details) :
    server.verify ⟨old.challenge.toEcho, payload⟩ request =
      server.settleFor p old.expires expiresAt old.challenge.id request details := by
  have hchallenge := old.challenge_eq hwritten
  have hid : server.verifyChallengeId old.challenge.toEcho = .ok () := by
    rw [hchallenge]
    exact rejectIf_neg (not_not.mpr rfl)
  have hpinned : server.verifyPinnedFields old.challenge.toEcho request = .ok () := by
    have hmethod : old.challenge.toEcho.method = METHOD_NAME := by
      rw [hchallenge]
      show METHOD_NAME.toLower = METHOD_NAME
      decide +kernel
    have hintent : Mpp.eqIgnoreAsciiCase old.challenge.toEcho.intent "charge" := by
      rw [hchallenge]
      show Mpp.eqIgnoreAsciiCase "charge".toLower "charge" = true
      decide +kernel
    have hrealm : old.challenge.toEcho.realm = server.realm := by
      rw [hchallenge]
      rfl
    simp only [Mpp.verifyPinnedFields, rejectIf_neg (not_not.mpr hmethod),
      rejectIf_neg (not_not.mpr hintent), rejectIf_neg (not_not.mpr hrealm),
      rejectIf_neg (not_not.mpr hcurrency), rejectIf_neg (not_not.mpr hrecipient), ok_bind]
  have hecho : old.challenge.toEcho.expires = some old.expires := by
    rw [hchallenge]
    rfl
  have hexpiresAt : okOrElse (server.crates.parseRfc3339 old.expires)
      (VerificationError.new "Invalid expires timestamp in challenge") = .ok expiresAt :=
    okOrElse_eq_ok.mpr hexpires
  have hparsed : okOrElse (CredentialPayload.ofJson payload)
      (VerificationError.invalidPayload "Invalid credential payload") = .ok p :=
    okOrElse_eq_ok.mpr hpayload
  rw [Mpp.verify, Mpp.checkCredential, lift_ok_bind hid, lift_ok_bind hpinned,
    lift_ok_bind hparsed, lift_ok_bind hdetails]
  simp only [Mpp.verifyExpiry, hecho]
  rw [lift_ok_bind hexpiresAt]
  -- the checks after the expiry do not fail any more
  have hrest : ∀ r : Verified Unit, (((liftM r : ChargeM Unit) >>= fun _ => pure (p, details)) >>=
      fun checked : CredentialPayload × MethodDetails =>
        server.settle checked.1 request checked.2 >>= fun signatureStr =>
          server.consume signatureStr old.challenge.id) =
      ((liftM r : ChargeM Unit) >>= fun _ => server.settle p request details >>=
        fun signatureStr => server.consume signatureStr old.challenge.id) := by
    intro r
    cases r <;> rfl
  exact congrArg (Script.call (F := chargeInterface) ChargeOp.now) (funext fun now => hrest _)

/-- With the request of an offer of the same amount. -/
theorem verifyCredentialWithExpected_offer (hurl : server.crates.UrlSafe)
    (hbool : ∀ b, c.carry (bool b) = bool b) (old current : Offer server canonicalize)
    {text : String} (h : Travels server.crates canonicalize c old.request.toJson text)
    {payload : Json} {p : CredentialPayload} (hpayload : CredentialPayload.ofJson payload = some p)
    {expiresAt : Int} (hexpires : server.crates.parseRfc3339 old.expires = some expiresAt) :
    elseOffer current.challenge
        (server.verifyCredentialWithExpected ⟨old.challenge.toEcho, payload⟩ (current.arrived c)) =
      if old.request.amount = current.request.amount then
        elseOffer current.challenge (server.settleFor p old.expires expiresAt old.challenge.id
          (current.arrived c) current.details)
      else liftM (Except.error (.error (.verificationFailed current.challenge)) :
        RustResult MppChargeRejection Receipt) := by
  have hecho : server.echoedRequest ⟨old.challenge.toEcho, payload⟩ = .ok (old.arrived c) :=
    okOrElse_eq_ok.mpr (old.decode_request hurl hbool h)
  obtain ⟨units, -, hold⟩ := old.request_eq
  obtain ⟨units', -, hcurrent⟩ := current.request_eq
  -- both requests are of one server, and can only differ in the amount
  have hcurrency : (current.arrived c).currency = server.currency := by
    rw [Offer.arrived, hcurrent]
  have hrecipient : (current.arrived c).recipient = some server.recipient := by
    rw [Offer.arrived, hcurrent]
  have hcurrencies : (old.arrived c).currency = (current.arrived c).currency := by
    rw [hcurrency, Offer.arrived, hold]
  have hrecipients : (old.arrived c).recipient = (current.arrived c).recipient := by
    rw [hrecipient, Offer.arrived, hold]
  rw [Mpp.verifyCredentialWithExpected, lift_ok_bind hecho]
  by_cases hamount : (old.arrived c).amount = (current.arrived c).amount
  · rw [if_pos (show old.request.amount = current.request.amount from hamount),
      lift_ok_bind (rejectIf_neg (not_not.mpr hamount)),
      lift_ok_bind (rejectIf_neg (not_not.mpr hcurrencies)),
      lift_ok_bind (rejectIf_neg (not_not.mpr hrecipients)),
      verify_offer old h.written hpayload hexpires hcurrency hrecipient
        (current.methodDetails_arrived hbool)]
  · rw [if_neg (show old.request.amount ≠ current.request.amount from hamount),
      lift_error_bind (rejectIf_pos hamount)]
    rfl

/-! ## The header -/

/-- What a client sends for an offer. -/
def Offer.credential (offer : Offer server canonicalize) (source : Option String) (payload : Json) :
    SourcedCredential where
  challenge := offer.challenge.toEcho
  payload
  source

/-- A header of ASCII characters, as bytes. -/
abbrev headerBytes (text : List Char) : List UInt8 := text.map Char.toUInt8

/-- The character is visible ASCII. -/
def Visible (ch : Char) : Prop :=
  (32 ≤ ch.toUInt8 ∧ ch.toUInt8 < 127) ∧ Char.ofNat ch.toUInt8.toNat = ch

instance (ch : Char) : Decidable (Visible ch) := inferInstanceAs (Decidable (_ ∧ _))

theorem toStr_headerBytes {text : List Char} (h : ∀ ch ∈ text, Visible ch) :
    toStr (headerBytes text) = some text := by
  have hall : (headerBytes text).all fun b => (32 ≤ b ∧ b < 127) ∨ b = 9 := by
    refine List.all_eq_true.mpr fun b hb => ?_
    obtain ⟨ch, hch, rfl⟩ := List.mem_map.mp hb
    exact decide_eq_true (Or.inl (h ch hch).1)
  rw [toStr, if_pos hall, headerBytes, List.map_map]
  exact congrArg some ((List.map_congr_left fun ch hch => (h ch hch).2).trans (List.map_id _))

theorem visible_scheme : ∀ ch ∈ "Payment ".toList, Visible ch :=
  List.all_iff_forall_prop.mp (by decide)

theorem visible_alphabet : ∀ ch ∈ Base64Url.alphabet, Visible ch :=
  List.all_iff_forall_prop.mp (by decide)

/-- The header of a credential is seen. -/
theorem paymentHeader_token (bytes : List UInt8) :
    paymentHeader (some (headerBytes ("Payment ".toList ++ tokenOf bytes))) =
      some ("Payment ".toList ++ tokenOf bytes) := by
  have hvisible : ∀ ch ∈ "Payment ".toList ++ tokenOf bytes, Visible ch := by
    intro ch hch
    rcases List.mem_append.mp hch with hscheme | htoken
    · exact visible_scheme ch hscheme
    · exact visible_alphabet ch (Base64Url.mem_alphabet_of_mem_encode htoken)
  have hprefix : "Payment ".toList.isPrefixOf ("Payment ".toList ++ tokenOf bytes) = true :=
    List.isPrefixOf_iff_prefix.mpr (List.prefix_append _ _)
  rw [paymentHeader, Option.bind_some, toStr_headerBytes hvisible, Option.filter_some,
    if_pos hprefix]

/-- A credential for an offer, with the header it travels in. -/
theorem admission_offer (c : Carriage) (old current : Offer server canonicalize)
    (source : Option String) (payload : Json) (p : CredentialPayload) (expiresAt : Int)
    (texts : String × String × String) (hurl : server.crates.UrlSafe)
    (hbool : ∀ b, c.carry (bool b) = bool b)
    (hold : Travels server.crates canonicalize c old.request.toJson texts.1)
    (hcurrent : Travels server.crates canonicalize c current.request.toJson texts.2.1)
    (hcredential : Travels server.crates canonicalize c (old.credential source payload).toJson
      texts.2.2)
    (hshort : (utf8 texts.2.2).length ≤ 12288)
    (hpayload : CredentialPayload.ofJson (c.carry payload) = some p)
    (hexpires : server.crates.parseRfc3339 old.expires = some expiresAt) :
    ∃ header, formatAuthorization server.crates canonicalize (old.credential source payload) =
        .ok header ∧
      server.admission current.challenge (some (headerBytes header)) =
        if old.request.amount = current.request.amount then
          elseOffer current.challenge (server.settleFor p old.expires expiresAt old.challenge.id
            (current.arrived c) current.details)
        else liftM (Except.error (.error (.verificationFailed current.challenge)) :
          RustResult MppChargeRejection Receipt) := by
  refine ⟨_, formatAuthorization_eq hurl hcredential, ?_⟩
  have hparse : parseAuthorization server.crates
      ("Payment ".toList ++ tokenOf (utf8 texts.2.2)) =
        .ok { old.credential source payload with payload := c.carry payload } := by
    have halone := parseAuthorization_token hurl hcredential [] [] (by simp) (by simp)
    rw [List.nil_append, List.intercalate_singleton, if_neg (Nat.not_lt.mpr hshort)] at halone
    exact halone
  rw [admission, lift_ok_bind (okOrElse_eq_ok.mpr (paymentHeader_token _)),
    lift_ok_bind (mapErr_eq_ok.mpr hparse),
    lift_ok_bind (okOrElse_eq_ok.mpr (current.decode_request hurl hbool hcurrent))]
  exact verifyCredentialWithExpected_offer hurl hbool old current hold hpayload hexpires

/-- **Offers are honoured.**  A client sends a credential for an old offer to a route that makes
another one.  If both ask for the same base units, all that is left is to read the clock, to settle
the payment as this route has it and to consume it; if they do not, the credential fails. -/
theorem offer_honoured (c : Carriage) (old current : Offer server canonicalize)
    (source : Option String) (payload : Json) (p : CredentialPayload) (expiresAt : Int)
    (texts : String × String × String) (hurl : server.crates.UrlSafe)
    (hbool : ∀ b, c.carry (bool b) = bool b)
    (hold : Travels server.crates canonicalize c old.request.toJson texts.1)
    (hcurrent : Travels server.crates canonicalize c current.request.toJson texts.2.1)
    (hcredential : Travels server.crates canonicalize c (old.credential source payload).toJson
      texts.2.2)
    (hshort : (utf8 texts.2.2).length ≤ 12288)
    (hpayload : CredentialPayload.ofJson (c.carry payload) = some p)
    (hexpires : server.crates.parseRfc3339 old.expires = some expiresAt) :
    ∃ header, formatAuthorization server.crates canonicalize (old.credential source payload) =
        .ok header ∧
      server.admission current.challenge (some (headerBytes header)) =
        if old.request.amount = current.request.amount then
          elseOffer current.challenge (server.settleFor p old.expires expiresAt old.challenge.id
            (current.arrived c) current.details)
        else liftM (Except.error (.error (.verificationFailed current.challenge)) :
          RustResult MppChargeRejection Receipt) := by
  exact admission_offer c old current source payload p expiresAt texts hurl hbool hold hcurrent
    hcredential hshort hpayload hexpires

end ChargingMpp

namespace OfferSample
open ChargingMpp

/-- The request of an old offer, of a new one and a credential for the old one, in canonical
JSON. -/
def oldText : String := "\x7b\"amount\":\"500000000\",\"currency\":\"SOL\",\"methodDetails\":" ++
  "\x7b\"decimals\":9,\"network\":\"localnet\"\x7d,\"recipient\":" ++
  "\"8qbHbw2BbbTHBW1sbeqakYXVKRQM8Ne7pLK7m6CVfeR\"\x7d"

def currentText : String := "\x7b\"amount\":\"500000000\",\"currency\":\"SOL\"," ++
  "\"description\":\"Tea\",\"methodDetails\":\x7b\"decimals\":9,\"network\":\"localnet\"\x7d," ++
  "\"recipient\":\"8qbHbw2BbbTHBW1sbeqakYXVKRQM8Ne7pLK7m6CVfeR\"\x7d"

def credentialText : String := "\x7b\"challenge\":\x7b\"expires\":\"2030-01-01T00:05:00Z\"," ++
  "\"id\":\"NuopCK8bPUXyTIoz98qYkhJ2nou8gWuGIpGL9xnx4Ec\",\"intent\":\"charge\"," ++
  "\"method\":\"solana\",\"realm\":\"MPP Payment\",\"request\":" ++
  "\"eyJhbW91bnQiOiI1MDAwMDAwMDAiLCJjdXJyZW5jeSI6IlNPTCIsIm1ldGhvZERldGFpbHMiOnsiZGVjaW1hbHMi" ++
  "OjksIm5ldHdvcmsiOiJsb2NhbG5ldCJ9LCJyZWNpcGllbnQiOiI4cWJIYncyQmJiVEhCVzFzYmVxYWtZWFZLUlFNOE5l" ++
  "N3BMSzdtNkNWZmVSIn0\"\x7d,\"payload\":\x7b\"signature\":\"1\",\"type\":\"signature\"\x7d\x7d"

/-- The id input of the old offer, and the HMAC-SHA256 of the two. -/
def oldInput : List UInt8 := utf8 ("MPP Payment|solana|charge|" ++
  Base64Url.encode (utf8 oldText) ++ "|2030-01-01T00:05:00Z||")

def oldDigest : List UInt8 :=
  [54, 234, 41, 8, 175, 27, 61, 69, 242, 76, 138, 51, 247, 202, 152, 146, 18, 118, 158, 139, 188,
    129, 107, 134, 34, 145, 139, 247, 25, 241, 224, 71]

def currentDigest : List UInt8 :=
  [53, 180, 55, 125, 78, 16, 98, 136, 225, 72, 15, 154, 212, 206, 145, 212, 137, 85, 255, 172, 13,
    170, 207, 62, 136, 244, 83, 39, 181, 177, 78, 165]

/-- What the texts are the JSON of. -/
def requestOf (description : Option String) : ChargeRequest where
  amount := "500000000"
  currency := "SOL"
  recipient := some "8qbHbw2BbbTHBW1sbeqakYXVKRQM8Ne7pLK7m6CVfeR"
  description
  methodDetails := some (.obj [("network", .str "localnet"), ("decimals", .unsigned 9)])

def challengeOf (text : String) (digest : List UInt8) (description : Option String) :
    PaymentChallenge where
  id := Base64Url.encode digest
  realm := "MPP Payment"
  method := "solana"
  intent := "charge"
  request := Base64Url.encode (utf8 text)
  expires := some "2030-01-01T00:05:00Z"
  description

def payload : Json := .obj [("signature", .str "1"), ("type", .str "signature")]

def credential : SourcedCredential where
  challenge := (challengeOf oldText oldDigest none).toEcho
  payload

/-- The crates, as they behave on the sample. -/
def crates : Crates where
  hmacSha256 := fun _ message => if message = oldInput then oldDigest else currentDigest
  base64UrlEncode := Base64Url.encode
  base64UrlDecode := Base64Url.decode
  base64Decode := fun _ => none
  parseJson := fun bytes =>
    if bytes = utf8 oldText then some (requestOf none).toJson
    else if bytes = utf8 currentText then some (requestOf (some "Tea")).toJson
    else if bytes = utf8 credentialText then some credential.toJson else none
  parseRfc3339 := fun text =>
    if text = "2030-01-01T00:05:00Z" then some 1893456300000000000 else none
  formatRfc3339 := fun time =>
    if time = 1893456300000000000 then some "2030-01-01T00:05:00Z" else none
  findProgramAddress := fun _ program => (program, 255)

/-- The canonical JSON of the sample, which its fields tell apart. -/
def canonicalize : Json → Option String
  | .obj fields =>
      if (fields.lookup "challenge").isSome then some credentialText
      else if (fields.lookup "description").isSome then some currentText
      else some oldText
  | _ => none

def server : ChargingMpp where
  secretKey := "secret"
  realm := "MPP Payment"
  recipient := "8qbHbw2BbbTHBW1sbeqakYXVKRQM8Ne7pLK7m6CVfeR"
  currency := "SOL"
  network := "localnet"
  feePayerSigner := none
  crates
  decimals := 9
  feePayer := false

theorem old_charged : server.chargeRequest "0.5" {} none = .ok (requestOf none) := by rfl

theorem old_offered : server.challengeFor canonicalize (requestOf none) {} 1893456000000000000 =
    .ok (challengeOf oldText oldDigest none) :=
  okOrElse_eq_ok.mpr (by decide +kernel)

/-- Half a SOL, for anything. -/
def old : Offer server canonicalize where
  amount := "0.5"
  options := {}
  blockhash := none
  now := 1893456000000000000
  request := requestOf none
  challenge := challengeOf oldText oldDigest none
  charged := old_charged
  offered := old_offered

theorem current_charged : server.chargeRequest "0.500" { description := some "Tea" } none =
    .ok (requestOf (some "Tea")) := by rfl

theorem current_offered : server.challengeFor canonicalize (requestOf (some "Tea"))
    { description := some "Tea" } 1893456000000000000 =
      .ok (challengeOf currentText currentDigest (some "Tea")) :=
  okOrElse_eq_ok.mpr (by decide +kernel)

/-- Half a SOL, for tea. -/
def current : Offer server canonicalize where
  amount := "0.500"
  options := { description := some "Tea" }
  blockhash := none
  now := 1893456000000000000
  request := requestOf (some "Tea")
  challenge := challengeOf currentText currentDigest (some "Tea")
  charged := current_charged
  offered := current_offered

theorem texts_differ : utf8 currentText ≠ utf8 oldText ∧ utf8 credentialText ≠ utf8 oldText ∧
    utf8 credentialText ≠ utf8 currentText := by
  refine ⟨fun h => ?_, fun h => ?_, fun h => ?_⟩
  · exact absurd (utf8_injective h) (by decide)
  · exact absurd (utf8_injective h) (by decide)
  · exact absurd (utf8_injective h) (by decide)

theorem parseJson_eq (bytes : List UInt8) : crates.parseJson bytes =
    if bytes = utf8 oldText then some (requestOf none).toJson
    else if bytes = utf8 currentText then some (requestOf (some "Tea")).toJson
    else if bytes = utf8 credentialText then some credential.toJson else none := rfl

theorem old_travels : Travels crates canonicalize .direct (requestOf none).toJson oldText where
  written := rfl
  present := by decide
  read := by rw [parseJson_eq, if_pos rfl]; rfl

theorem current_travels :
    Travels crates canonicalize .direct (requestOf (some "Tea")).toJson currentText where
  written := rfl
  present := by decide
  read := by rw [parseJson_eq, if_neg texts_differ.1, if_pos rfl]; rfl

theorem credential_travels :
    Travels crates canonicalize .direct credential.toJson credentialText where
  written := rfl
  present := by decide
  read := by rw [parseJson_eq, if_neg texts_differ.2.1, if_neg texts_differ.2.2, if_pos rfl]; rfl

/-- The credential for the old offer is taken for the new one. -/
theorem honoured : ∃ header,
    formatAuthorization crates canonicalize (old.credential none payload) = .ok header ∧
      server.admission current.challenge (some (headerBytes header)) =
        elseOffer current.challenge (server.settleFor (.signature "1") "2030-01-01T00:05:00Z"
          1893456300000000000 old.challenge.id (current.arrived .direct) current.details) := by
  obtain ⟨header, hheader, hadmission⟩ := offer_honoured .direct old current none payload
    (.signature "1") 1893456300000000000 (oldText, currentText, credentialText) ⟨rfl, rfl⟩
    (fun _ => rfl) old_travels current_travels credential_travels (by decide +kernel) rfl rfl
  exact ⟨header, hheader, hadmission.trans (if_pos rfl)⟩

end OfferSample
end MppSdk
