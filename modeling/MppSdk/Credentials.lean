import Mathlib.Data.Bool.AllAny
import MppSdk.Headers
import MppSdk.JsonCarriage
import MppSdk.ParseUnits

/-! # Credentials and receipts as headers

A credential is sent as canonical JSON in base64url after the scheme `Payment`, and a receipt
without the scheme.  The server finds the scheme among others in the header, and reads nothing
from a token of more than 16 KiB: what it reads of all others is what was sent
(`credential_read_back`, `receipt_read_back`). -/

namespace Base64Url

/-- `URL_SAFE_NO_PAD.decode`, which takes only what `encode` writes. -/
def decode (text : String) : Option (List UInt8) :=
  let bytes := decodeDigits (text.toList.map alphabet.idxOf)
  if encode bytes = text then some bytes else none

theorem decode_encode (bytes : List UInt8) : decode (encode bytes) = some bytes := by
  have hbytes : decodeDigits ((encode bytes).toList.map alphabet.idxOf) = bytes := by
    have hdigits : ((encodeDigits bytes).map char).map alphabet.idxOf = encodeDigits bytes := by
      rw [List.map_map]
      exact (List.map_congr_left fun d hd => idxOf_char d (lt_of_mem_encodeDigits bytes d hd)).trans
        (List.map_id _)
    rw [encode, String.toList_ofList, hdigits, decodeDigits_encodeDigits]
  simp only [decode, hbytes, if_true]

theorem length_encode (bytes : List UInt8) :
    (encode bytes).toList.length = (4 * bytes.length + 2) / 3 := by
  rw [encode, String.toList_ofList, List.length_map]
  induction bytes using encodeDigits.induct with
  | case1 a b c rest ih =>
    simp only [encodeDigits, List.length_cons, ih]
    omega
  | case2 a b => simp [encodeDigits]
  | case3 a => simp [encodeDigits]
  | case4 => simp [encodeDigits]

theorem encode_ne_empty {bytes : List UInt8} (h : bytes ≠ []) : encode bytes ≠ "" := by
  intro hempty
  have hlength := length_encode bytes
  rw [hempty, String.toList_empty, List.length_nil] at hlength
  have hpos := List.length_pos_iff.mpr h
  omega

/-- The alphabet has nothing of what stands around a token. -/
theorem alphabet_plain : ∀ c ∈ alphabet, c ≠ ',' ∧ c ≠ '=' ∧ c ≠ '+' ∧ c ≠ '/' ∧
    MppSdk.isWhitespace c = false ∧ c.utf8Size = 1 :=
  List.all_iff_forall_prop.mp (by decide)

end Base64Url

namespace MppSdk
open Json

/-- `MAX_TOKEN_LEN`. -/
def MAX_TOKEN_LEN : Nat := 16 * 1024

/-- `PaymentCredential` with its source, which the server does not read. -/
structure SourcedCredential extends PaymentCredential where
  source : Option String := none

/-! ## The JSON of the types -/

/-- `ChallengeEcho` to JSON. -/
def ChallengeEcho.jsonFields (echo : ChallengeEcho) : List (String × Option Json) :=
  [("id", some (.str echo.id)), ("realm", some (.str echo.realm)),
    ("method", some (.str echo.method)), ("intent", some (.str echo.intent)),
    ("request", some (.str echo.request)), ("expires", echo.expires.map .str),
    ("digest", echo.digest.map .str), ("opaque", echo.opaqueData.map .str)]

/-- `ChallengeEcho` to JSON. -/
def ChallengeEcho.toJson (echo : ChallengeEcho) : Json := object echo.jsonFields

/-- `ChallengeEcho` from JSON. -/
def ChallengeEcho.ofJson : Json → Option ChallengeEcho
  | .obj fields => do
      return {
        id := ← required asStr fields "id"
        realm := ← required asStr fields "realm"
        method := ← required asStr fields "method"
        intent := ← required asStr fields "intent"
        request := ← required asStr fields "request"
        expires := ← optional asStr fields "expires"
        digest := ← optional asStr fields "digest"
        opaqueData := ← optional asStr fields "opaque" }
  | _ => none

/-- The fields of `PaymentCredential` in JSON. -/
def SourcedCredential.jsonFields (credential : SourcedCredential) : List (String × Option Json) :=
  [("challenge", some credential.challenge.toJson), ("source", credential.source.map .str),
    ("payload", some credential.payload)]

/-- `PaymentCredential` to JSON. -/
def SourcedCredential.toJson (credential : SourcedCredential) : Json := object credential.jsonFields

/-- `PaymentCredential` from JSON. -/
def SourcedCredential.ofJson : Json → Option SourcedCredential
  | .obj fields => do
      return {
        challenge := ← required ChallengeEcho.ofJson fields "challenge"
        source := ← optional asStr fields "source"
        payload := ← required some fields "payload" }
  | _ => none

/-- The fields of `Receipt` in JSON. -/
def Receipt.jsonFields (receipt : Receipt) : List (String × Option Json) :=
  [("status", some (.str "success")), ("method", some (.str receipt.method)),
    ("timestamp", some (.str receipt.timestamp)), ("reference", some (.str receipt.reference)),
    ("challengeId", some (.str receipt.challengeId))]

/-- `Receipt` to JSON. -/
def Receipt.toJson (receipt : Receipt) : Json := object receipt.jsonFields

/-- `Receipt` from JSON; there is one status. -/
def Receipt.ofJson : Json → Option Receipt
  | .obj fields => do
      let status ← required asStr fields "status"
      guard (status = "success")
      return {
        method := ← required asStr fields "method"
        timestamp := ← required asStr fields "timestamp"
        reference := ← required asStr fields "reference"
        challengeId := ← required asStr fields "challengeId" }
  | _ => none

/-! ## The headers -/

/-- The text is the one of the scheme and a space, in any case. -/
def startsPayment (part : List Char) : Bool := eqIgnoreCase (part.take 8) "payment ".toList

/-- `extract_payment_scheme`. -/
def extractPaymentScheme (header : List Char) : Option (List Char) :=
  ((header.splitOn ',').map (trimMatches isWhitespace)).find? startsPayment

section Headers
variable (crates : Crates) (canonicalize : Json → Option String)

/-- The bytes of a token, if it is not too long. -/
def decodeToken (what : String) (token : List Char) : RustResult Error (List UInt8) := do
  rejectIf (MAX_TOKEN_LEN < byteLength token)
    (Error.other s!"{what} exceeds maximum length of {MAX_TOKEN_LEN} bytes")
  okOrElse (base64urlDecode crates (String.ofList token)) (Error.other "Invalid base64url: ")

/-- `parse_authorization`. -/
def parseAuthorization (header : List Char) : RustResult Error SourcedCredential := do
  let paymentPart ← okOrElse (extractPaymentScheme header)
    (Error.other "Expected 'Payment' scheme")
  let decoded ← decodeToken crates "Token" (trimMatches isWhitespace (paymentPart.drop 8))
  okOrElse ((crates.parseJson decoded).bind SourcedCredential.ofJson)
    (Error.other "Invalid credential JSON: ")

/-- `format_authorization`; `canonicalize` is `serde_json_canonicalizer::to_string`. -/
def formatAuthorization (credential : SourcedCredential) : RustResult Error (List Char) := do
  let json ← okOrElse (canonicalize credential.toJson) (Error.other "JCS serialization failed: ")
  return "Payment ".toList ++ (crates.base64UrlEncode (utf8 json)).toList

/-- `parse_receipt`. -/
def parseReceipt (header : List Char) : RustResult Error Receipt := do
  let decoded ← decodeToken crates "Receipt" (trimMatches isWhitespace header)
  okOrElse ((crates.parseJson decoded).bind Receipt.ofJson) (Error.other "Invalid receipt JSON: ")

/-- `format_receipt`. -/
def formatReceipt (receipt : Receipt) : RustResult Error (List Char) := do
  let json ← okOrElse (canonicalize receipt.toJson) (Error.other "JCS serialization failed: ")
  return (crates.base64UrlEncode (utf8 json)).toList

end Headers

/-! ## JSON that arrives -/

section Survival
variable (c : Carriage)

theorem ChallengeEcho.survives : Survives c ChallengeEcho.toJson ChallengeEcho.ofJson where
  read_carry echo := by
    have hnames : (echo.jsonFields.map Prod.fst).Nodup := by simp [jsonFields]
    obtain ⟨arrived, hobj, harrived⟩ := c.carry_object hnames
    have hid : required asStr arrived "id" = some echo.id :=
      harrived.required_eq (survives_str c) rfl
    have hrealm : required asStr arrived "realm" = some echo.realm :=
      harrived.required_eq (survives_str c) rfl
    have hmethod : required asStr arrived "method" = some echo.method :=
      harrived.required_eq (survives_str c) rfl
    have hintent : required asStr arrived "intent" = some echo.intent :=
      harrived.required_eq (survives_str c) rfl
    have hrequest : required asStr arrived "request" = some echo.request :=
      harrived.required_eq (survives_str c) rfl
    have hexpires : optional asStr arrived "expires" = some echo.expires :=
      harrived.optional_eq (survives_str c) rfl
    have hdigest : optional asStr arrived "digest" = some echo.digest :=
      harrived.optional_eq (survives_str c) rfl
    have hopaque : optional asStr arrived "opaque" = some echo.opaqueData :=
      harrived.optional_eq (survives_str c) rfl
    rw [toJson, hobj]
    simp only [ofJson, hid, hrealm, hmethod, hintent, hrequest, hexpires, hdigest, hopaque]
    rfl
  read_null := rfl

/-- A credential arrives with its payload as that arrives. -/
theorem SourcedCredential.ofJson_carry (credential : SourcedCredential) :
    ofJson (c.carry credential.toJson) =
      some { credential with payload := c.carry credential.payload } := by
  have hnames : (credential.jsonFields.map Prod.fst).Nodup := by simp [jsonFields]
  obtain ⟨arrived, hobj, harrived⟩ := c.carry_object hnames
  have hchallenge : required ChallengeEcho.ofJson arrived "challenge" = some credential.challenge :=
    harrived.required_eq (ChallengeEcho.survives c) rfl
  have hsource : optional asStr arrived "source" = some credential.source :=
    harrived.optional_eq (survives_str c) rfl
  have hpayload : required some arrived "payload" = some (c.carry credential.payload) := by
    rw [required, harrived]
    rfl
  rw [toJson, hobj]
  simp only [ofJson, hchallenge, hsource, hpayload]
  rfl

theorem Receipt.ofJson_carry (receipt : Receipt) :
    ofJson (c.carry receipt.toJson) = some receipt := by
  have hnames : (receipt.jsonFields.map Prod.fst).Nodup := by simp [jsonFields]
  obtain ⟨arrived, hobj, harrived⟩ := c.carry_object hnames
  have hstatus : required asStr arrived "status" = some "success" :=
    harrived.required_eq (survives_str c) rfl
  have hmethod : required asStr arrived "method" = some receipt.method :=
    harrived.required_eq (survives_str c) rfl
  have htimestamp : required asStr arrived "timestamp" = some receipt.timestamp :=
    harrived.required_eq (survives_str c) rfl
  have hreference : required asStr arrived "reference" = some receipt.reference :=
    harrived.required_eq (survives_str c) rfl
  have hid : required asStr arrived "challengeId" = some receipt.challengeId :=
    harrived.required_eq (survives_str c) rfl
  rw [toJson, hobj]
  simp only [ofJson, hstatus, hmethod, htimestamp, hreference, hid]
  rfl

end Survival

/-! ## Tokens -/

/-- The crate writes and reads base64url without padding. -/
structure Crates.UrlSafe (crates : Crates) : Prop where
  encode : crates.base64UrlEncode = Base64Url.encode
  decode : crates.base64UrlDecode = Base64Url.decode

section Tokens
variable {crates : Crates}

/-- The token of some bytes. -/
abbrev tokenOf (bytes : List UInt8) : List Char := (Base64Url.encode bytes).toList

theorem tokenOf_plain {bytes : List UInt8} : ∀ c ∈ tokenOf bytes, c ≠ ',' ∧ c ≠ '=' ∧ c ≠ '+' ∧
    c ≠ '/' ∧ isWhitespace c = false ∧ c.utf8Size = 1 := fun c hc =>
  Base64Url.alphabet_plain c (Base64Url.mem_alphabet_of_mem_encode hc)

theorem trimMatches_tokenOf (bytes : List UInt8) :
    trimMatches isWhitespace (tokenOf bytes) = tokenOf bytes := by
  refine trimMatches_eq_self (fun c hc => ?_) fun c hc => ?_
  · exact (tokenOf_plain c (List.mem_of_mem_head? hc)).2.2.2.2.1
  · exact (tokenOf_plain c (List.mem_of_getLast? hc)).2.2.2.2.1

theorem byteLength_tokenOf (bytes : List UInt8) :
    byteLength (tokenOf bytes) = (4 * bytes.length + 2) / 3 := by
  have hone : (tokenOf bytes).map Char.utf8Size = (tokenOf bytes).map fun _ => 1 :=
    List.map_congr_left fun c hc => (tokenOf_plain c hc).2.2.2.2.2
  rw [byteLength, hone, ← Base64Url.length_encode]
  simp

theorem base64urlDecode_tokenOf (h : crates.UrlSafe) (bytes : List UInt8) :
    base64urlDecode crates (Base64Url.encode bytes) = some bytes := by
  have hkeep : (tokenOf bytes).filter (· ≠ '=') = tokenOf bytes :=
    List.filter_eq_self.mpr fun c hc => decide_eq_true (tokenOf_plain c hc).2.1
  have hmap : ((tokenOf bytes).map fun c => if c = '+' then '-' else if c = '/' then '_' else c) =
      tokenOf bytes := by
    refine (List.map_congr_left fun c hc => ?_).trans (List.map_id _)
    obtain ⟨-, -, hplus, hslash, -⟩ := tokenOf_plain c hc
    rw [if_neg hplus, if_neg hslash]
    rfl
  rw [base64urlDecode, hkeep, hmap, String.ofList_toList, h.decode, Base64Url.decode_encode]

/-- **What is read of a token**: all of it, unless it stands for more than 12 KiB. -/
theorem decodeToken_tokenOf (h : crates.UrlSafe) (what : String) (bytes : List UInt8) :
    decodeToken crates what (tokenOf bytes) =
      if 12288 < bytes.length then
        .error (.error (Error.other s!"{what} exceeds maximum length of {MAX_TOKEN_LEN} bytes"))
      else .ok bytes := by
  have hlength : MAX_TOKEN_LEN < byteLength (tokenOf bytes) ↔ 12288 < bytes.length := by
    rw [byteLength_tokenOf, MAX_TOKEN_LEN]
    omega
  by_cases hlong : 12288 < bytes.length
  · rw [decodeToken, rejectIf_pos (hlength.mpr hlong), if_pos hlong]
    rfl
  · rw [decodeToken, rejectIf_neg (hlong ∘ hlength.mp), if_neg hlong, String.ofList_toList,
      base64urlDecode_tokenOf h]
    rfl

theorem startsPayment_token (token : List Char) :
    startsPayment ("Payment ".toList ++ token) = true := by
  have htake : ("Payment ".toList ++ token).take 8 = "Payment ".toList := List.take_left' rfl
  rw [startsPayment, htake]
  decide

/-- The scheme is found behind other schemes, whatever follows it. -/
theorem extractPaymentScheme_token {bytes : List UInt8} (hbytes : bytes ≠ [])
    {before after : List (List Char)} (hbefore : ∀ part ∈ before, ',' ∉ part ∧
      startsPayment (trimMatches isWhitespace part) = false)
    (hafter : ∀ part ∈ after, ',' ∉ part) :
    extractPaymentScheme ([','].intercalate (before ++ ("Payment ".toList ++ tokenOf bytes) ::
      after)) = some ("Payment ".toList ++ tokenOf bytes) := by
  have htoken : ',' ∉ "Payment ".toList ++ tokenOf bytes := by
    intro hmem
    rcases List.mem_append.mp hmem with hscheme | htoken
    · exact absurd hscheme (by decide)
    · exact (tokenOf_plain ',' htoken).1 rfl
  -- no part has a comma, so that the header is split where it was joined
  have hsplit : ([','].intercalate (before ++ ("Payment ".toList ++ tokenOf bytes) ::
      after)).splitOn ',' = before ++ ("Payment ".toList ++ tokenOf bytes) :: after := by
    refine List.splitOn_intercalate ',' (fun part hpart => ?_) (by simp)
    rcases List.mem_append.mp hpart with hpart | hpart
    · exact (hbefore part hpart).1
    · rcases List.mem_cons.mp hpart with rfl | hpart
      · exact htoken
      · exact hafter part hpart
  have hnonempty : tokenOf bytes ≠ [] := fun hnil =>
    Base64Url.encode_ne_empty hbytes (String.toList_eq_nil_iff.mp hnil)
  have htrim : trimMatches isWhitespace ("Payment ".toList ++ tokenOf bytes) =
      "Payment ".toList ++ tokenOf bytes := by
    refine trimMatches_eq_self (fun c hc => ?_) fun c hc => ?_
    · obtain rfl : 'P' = c := Option.some.inj hc
      rfl
    · rw [List.getLast?_append_of_ne_nil _ hnonempty] at hc
      exact (tokenOf_plain c (List.mem_of_getLast? hc)).2.2.2.2.1
  have hnone : (before.map (trimMatches isWhitespace)).find? startsPayment = none := by
    refine List.find?_eq_none.mpr fun part hpart => ?_
    obtain ⟨part, hmem, rfl⟩ := List.mem_map.mp hpart
    rw [(hbefore part hmem).2]
    exact Bool.false_ne_true
  rw [extractPaymentScheme, hsplit, List.map_append, List.map_cons, htrim, List.find?_append,
    hnone, List.find?_cons_of_pos (startsPayment_token _)]
  rfl

end Tokens

/-! ## Round trips -/

section RoundTrips
variable {crates : Crates} {canonicalize : Json → Option String}

theorem utf8_ne_nil {text : String} (h : text ≠ "") : utf8 text ≠ [] := fun hnil =>
  h (utf8_injective hnil)

/-- The JSON is written as the text, which is not empty and is read as what it carries. -/
structure Travels (crates : Crates) (canonicalize : Json → Option String) (c : Carriage)
    (json : Json) (text : String) : Prop where
  written : canonicalize json = some text
  present : text ≠ ""
  read : crates.parseJson (utf8 text) = some (c.carry json)

/-- The header of a credential. -/
theorem formatAuthorization_eq {c : Carriage} {credential : SourcedCredential} {text : String}
    (hurl : crates.UrlSafe) (h : Travels crates canonicalize c credential.toJson text) :
    formatAuthorization crates canonicalize credential =
      .ok ("Payment ".toList ++ tokenOf (utf8 text)) := by
  rw [formatAuthorization, h.written, hurl.encode]
  rfl

/-- That header, read back. -/
theorem parseAuthorization_token {c : Carriage} {credential : SourcedCredential} {text : String}
    (hurl : crates.UrlSafe) (h : Travels crates canonicalize c credential.toJson text)
    (before after : List (List Char)) (hbefore : ∀ part ∈ before, ',' ∉ part ∧
      startsPayment (trimMatches isWhitespace part) = false) (hafter : ∀ part ∈ after, ',' ∉ part) :
    parseAuthorization crates
        ([','].intercalate (before ++ ("Payment ".toList ++ tokenOf (utf8 text)) :: after)) =
      if 12288 < (utf8 text).length then
        .error (.error (Error.other "Token exceeds maximum length of 16384 bytes"))
      else .ok { credential with payload := c.carry credential.payload } := by
  have hdrop : ("Payment ".toList ++ tokenOf (utf8 text)).drop 8 = tokenOf (utf8 text) :=
    List.drop_left' rfl
  rw [parseAuthorization, extractPaymentScheme_token (utf8_ne_nil h.present) hbefore hafter]
  simp only [okOrElse, ok_bind, hdrop, trimMatches_tokenOf, decodeToken_tokenOf hurl]
  by_cases hlong : 12288 < (utf8 text).length
  · rw [if_pos hlong, if_pos hlong]
    rfl
  · rw [if_neg hlong, if_neg hlong, ok_bind, h.read, Option.bind_some,
      SourcedCredential.ofJson_carry]

/-- **A credential is read back** from among other schemes, with the payload as it arrives,
unless its JSON has more than 12 KiB. -/
theorem credential_read_back (c : Carriage) (credential : SourcedCredential) (text : String)
    (hurl : crates.UrlSafe) (h : Travels crates canonicalize c credential.toJson text) :
    ∃ header, formatAuthorization crates canonicalize credential = .ok header ∧
      ∀ before after : List (List Char), (∀ part ∈ before, ',' ∉ part ∧
          startsPayment (trimMatches isWhitespace part) = false) → (∀ part ∈ after, ',' ∉ part) →
        parseAuthorization crates ([','].intercalate (before ++ header :: after)) =
          if 12288 < (utf8 text).length then
            .error (.error (Error.other "Token exceeds maximum length of 16384 bytes"))
          else .ok { credential with payload := c.carry credential.payload } :=
  ⟨_, formatAuthorization_eq hurl h, parseAuthorization_token hurl h⟩

/-- **A receipt is read back**, unless its JSON has more than 12 KiB. -/
theorem receipt_read_back (c : Carriage) (receipt : Receipt) (text : String)
    (hurl : crates.UrlSafe) (h : Travels crates canonicalize c receipt.toJson text) :
    ∃ header, formatReceipt crates canonicalize receipt = .ok header ∧
      parseReceipt crates header =
        if 12288 < (utf8 text).length then
          .error (.error (Error.other "Receipt exceeds maximum length of 16384 bytes"))
        else .ok receipt := by
  refine ⟨tokenOf (utf8 text), ?_, ?_⟩
  · rw [formatReceipt, h.written, hurl.encode]
    rfl
  · rw [parseReceipt, trimMatches_tokenOf, decodeToken_tokenOf hurl]
    by_cases hlong : 12288 < (utf8 text).length
    · rw [if_pos hlong, if_pos hlong]
      rfl
    · rw [if_neg hlong, if_neg hlong, ok_bind, h.read, Option.bind_some, Receipt.ofJson_carry]
      rfl

end RoundTrips

namespace CredentialSample

/-- A credential, and its canonical JSON. -/
def credential : SourcedCredential where
  challenge :=
    { id := "id", realm := "api", method := "solana", intent := "charge", request := "e30" }
  payload := .obj [("signature", .str "1"), ("type", .str "signature")]

def text : String := "\x7b\"challenge\":\x7b\"id\":\"id\",\"intent\":\"charge\",\"method\":" ++
  "\"solana\",\"realm\":\"api\",\"request\":\"e30\"\x7d,\"payload\":" ++
  "\x7b\"signature\":\"1\",\"type\":\"signature\"\x7d\x7d"

/-- Crates that know its JSON. -/
def crates : Crates where
  hmacSha256 := fun _ _ => []
  base64UrlEncode := Base64Url.encode
  base64UrlDecode := Base64Url.decode
  base64Decode := fun _ => none
  parseJson := fun bytes => if bytes = utf8 text then some credential.toJson else none
  parseRfc3339 := fun _ => none
  formatRfc3339 := fun _ => none
  findProgramAddress := fun _ program => (program, 255)

theorem urlSafe : crates.UrlSafe := ⟨rfl, rfl⟩

theorem travels : Travels crates (fun _ => some text) .direct credential.toJson text where
  written := rfl
  present := by decide
  read := by
    show (if utf8 text = utf8 text then some credential.toJson else none) = some credential.toJson
    exact if_pos rfl

theorem read_back : ∃ header, formatAuthorization crates (fun _ => some text) credential =
      .ok header ∧
    ∀ before after : List (List Char), (∀ part ∈ before, ',' ∉ part ∧
        startsPayment (trimMatches isWhitespace part) = false) → (∀ part ∈ after, ',' ∉ part) →
      parseAuthorization crates ([','].intercalate (before ++ header :: after)) =
        if 12288 < (utf8 text).length then
          .error (.error (Error.other "Token exceeds maximum length of 16384 bytes"))
        else .ok credential :=
  credential_read_back .direct credential text urlSafe travels

end CredentialSample

end MppSdk
