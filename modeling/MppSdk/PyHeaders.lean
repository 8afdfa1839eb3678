import MppSdk.Headers
import MppSdk.PyTypes

/-! # The Python headers

`_headers.py`: a `WWW-Authenticate` value is cut where a scheme of letters stands behind a comma
and in front of a blank, outside of quotes; the pieces whose scheme is `Payment` are read, and
those that cannot be read are left out. -/

namespace MppSdk
namespace Py

/-- `PaymentChallenge`. -/
structure PaymentChallenge where
  id : String
  realm : String
  method : String
  intent : String
  request : String
  expires : String := ""
  description : String := ""
  digest : String := ""
  opaqueData : Option String := none
deriving DecidableEq, Repr

/-! ## Writing -/

/-- `_escape_quoted_value`. -/
def escapeQuotedValue (s : String) : Raises (List Char) :=
  if '\r' ∈ s.toList ∨ '\n' ∈ s.toList then
    exception "Header value contains invalid CRLF characters"
  else
    let replaced := s.toList.flatMap fun c => if c = '\\' then ['\\', '\\'] else [c]
    .ok (replaced.flatMap fun c => if c = '"' then ['\\', '"'] else [c])

/-- The parameters of a challenge in a header: an empty text is left out. -/
def PaymentChallenge.params (challenge : PaymentChallenge) : List (String × String) :=
  [("id", challenge.id), ("realm", challenge.realm), ("method", challenge.method),
      ("intent", challenge.intent), ("request", challenge.request)] ++
    (if challenge.expires ≠ "" then [("expires", challenge.expires)] else []) ++
    (if challenge.digest ≠ "" then [("digest", challenge.digest)] else []) ++
    challenge.opaqueData.toList.map (fun opaqueData => ("opaque", opaqueData))

/-- A parameter with its value in quotes. -/
def formatParam (param : String × String) : Raises (List Char) := do
  let value ← escapeQuotedValue param.2
  return param.1.toList ++ '=' :: '"' :: (value ++ ['"'])

/-- `format_www_authenticate`. -/
def formatWwwAuthenticate (challenge : PaymentChallenge) : Raises (List Char) := do
  let parts ← challenge.params.mapM formatParam
  return PAYMENT_SCHEME ++ ' ' :: [',', ' '].intercalate parts

/-! ## Cutting a header -/

/-- A space or a tab. -/
def isBlank (c : Char) : Bool := c = ' ' ∨ c = '\t'

section Cutting
variable (letters : Char → Bool)

/-- `str.isalpha` of one character; `letters` are those that are not ASCII. -/
def isAlpha (c : Char) : Bool := if c.toNat < 128 then c.isAlpha else letters c

/-- `_auth_scheme_starts_at`, with the characters before the index, the last one first, and
those from it on. -/
def authSchemeStartsAt (before rest : List Char) : Bool :=
  (rest.head?).any (isAlpha letters) ∧
    ((rest.dropWhile (isAlpha letters)).head?).any isBlank ∧
    (before = [] ∨ (before.dropWhile isBlank).head? = some ',')

/-- `_find_challenge_starts`; in a scheme that has just started no character is looked at. -/
def findChallengeStarts (before : List Char) (inQuote escaped inScheme : Bool) :
    List Char → List Nat
  | [] => []
  | c :: rest =>
      -- the inner loop runs to the blank behind the scheme
      if inScheme ∧ ¬ isBlank c then findChallengeStarts (c :: before) inQuote escaped true rest
      else if escaped then findChallengeStarts (c :: before) inQuote false false rest
      else if c = '\\' ∧ inQuote then findChallengeStarts (c :: before) inQuote true false rest
      else if c = '"' then findChallengeStarts (c :: before) (!inQuote) false false rest
      else if ¬ inQuote ∧ authSchemeStartsAt letters before (c :: rest) then
        before.length :: findChallengeStarts (c :: before) inQuote false true rest
      else findChallengeStarts (c :: before) inQuote false false rest

/-- `_scheme_starts_at`. -/
def schemeStartsAt (header : List Char) (index : Nat) (scheme : List Char) : Bool :=
  eqIgnoreCase ((header.drop index).take scheme.length) scheme ∧
    authSchemeStartsAt letters (header.take index).reverse (header.drop index)

/-- The text of a challenge without the space around it and the comma behind it. -/
def trimChallenge (text : List Char) : List Char :=
  let challenge := trimMatches isSpace text
  -- one comma is cut off, and the space in front of it
  if challenge.getLast? = some ',' then
    (challenge.dropLast.reverse.dropWhile isSpace).reverse
  else challenge

/-- `_extract_challenges`. -/
def extractChallenges (header scheme : List Char) : List (List Char) :=
  let allStarts := findChallengeStarts letters [] false false false header
  let selectedStarts := allStarts.filter fun start => schemeStartsAt letters header start scheme
  (selectedStarts.map fun start =>
    let followingStarts := allStarts.filter fun candidate => start < candidate
    let stop := followingStarts.head?.getD header.length
    trimChallenge ((header.take stop).drop start)).filter (· ≠ [])

end Cutting

/-! ## Reading -/

/-- `_strip_payment_scheme`. -/
def stripPaymentScheme (header : List Char) : Option (List Char) :=
  let header := header.dropWhile isSpace
  if header.length < PAYMENT_SCHEME.length then none
  else if eqIgnoreCase (header.take PAYMENT_SCHEME.length) PAYMENT_SCHEME then
    some (header.drop PAYMENT_SCHEME.length)
  else none

/-- A character of a value that is not in quotes. -/
def isValueChar (c : Char) : Bool := ¬ isBlank c ∧ c ≠ ','

/-- The value after an equals sign; the loop over one in quotes is that of the Rust reader. -/
def readValue : List Char → List Char × List Char
  | '"' :: rest => readQuoted rest
  | rest => (rest.takeWhile isValueChar, rest.dropWhile isValueChar)

theorem readValue_length (cs : List Char) : (readValue cs).2.length ≤ cs.length := by
  unfold readValue
  split
  · next rest => exact (readQuoted_length rest).trans (Nat.le_succ _)
  · exact (List.dropWhile_suffix _).length_le

/-- A character of a parameter's name. -/
def isKeyChar (c : Char) : Bool := c ≠ '=' ∧ ¬ isBlank c

/-- What may stand between parameters. -/
def isGap (c : Char) : Bool := isBlank c ∨ c = ','

/-- `_parse_auth_params`, with the parameters that have been read. -/
def parseAuthParams (params : List (String × String)) (cs : List Char) :
    Raises (List (String × String)) :=
  match hstart : cs.dropWhile isGap with
  | [] => .ok params
  | c :: tail =>
      match hkey : (c :: tail).dropWhile isKeyChar with
      | [] => .ok params
      | d :: after =>
          if hequals : d = '=' then
            -- a name at the very end has no value
            if after = [] then .ok params
            else
              let key := String.ofList ((c :: tail).takeWhile isKeyChar)
              if key ∈ params.map Prod.fst then exception s!"Duplicate parameter: {key}"
              else
                parseAuthParams (params ++ [(key, String.ofList (readValue after).1)])
                  (readValue after).2
          -- no name: the word has already run past its commas, up to a blank
          else parseAuthParams params ((d :: after).dropWhile isValueChar)
termination_by cs.length
decreasing_by
  · have hle : (c :: tail).length ≤ cs.length := hstart ▸ (List.dropWhile_suffix isGap).length_le
    have hafter : (d :: after).length ≤ (c :: tail).length :=
      hkey ▸ (List.dropWhile_suffix isKeyChar).length_le
    have hvalue := readValue_length after
    simp only [List.length_cons] at hle hafter ⊢
    omega
  · have hle : (c :: tail).length ≤ cs.length := hstart ▸ (List.dropWhile_suffix isGap).length_le
    -- the name has a character: the first one is no gap and no equals sign
    have hgap : isGap c = false := by
      have h := List.head?_dropWhile_not isGap cs
      rw [hstart] at h
      simpa using h
    have hname : isKeyChar c = true := by
      by_contra hnot
      rw [List.dropWhile_cons_of_neg hnot] at hkey
      obtain ⟨rfl, -⟩ := List.cons.inj hkey
      simp [isKeyChar, isGap, hequals] at hnot hgap
      exact absurd hnot (by simp [hgap.1])
    rw [List.dropWhile_cons_of_pos hname] at hkey
    have hrest : (d :: after).length ≤ tail.length :=
      hkey ▸ (List.dropWhile_suffix isKeyChar).length_le
    have hskip := (List.dropWhile_suffix (l := d :: after) isValueChar).length_le
    simp only [List.length_cons] at hle hrest hskip
    omega

/-- `_require_param`. -/
def requireParam (params : List (String × String)) (key : String) : Raises String :=
  okOrElse (params.lookup key) { message := s!"Missing '{key}' field" }

/-- The method is a word of lower-case ASCII letters. -/
def isValidMethod (method : String) : Bool := method ≠ "" ∧ method.toList.all Char.isLower

/-- `raise ParseError(f"{text}: {exc}") from exc`. -/
def orParseError {α : Type} (text : String) (x : Raises α) : Raises α :=
  mapErr (fun exc => { message := text ++ ": " ++ exc.message }) x

section Reading
variable (loads : List UInt8 → Raises Json)

/-- The challenge of the parameters that were read; `loads` is `json.loads`. -/
def challengeOf (params : List (String × String)) : Raises PaymentChallenge := do
  let id ← requireParam params "id"
  rejectIf (id = "") { message := "Empty 'id' parameter" }
  let realm ← requireParam params "realm"
  let method ← requireParam params "method"
  rejectIf (¬ isValidMethod method)
    { message := "Invalid method: \"" ++ method ++ "\". Must be lowercase ASCII." }
  let intent ← requireParam params "intent"
  let request ← requireParam params "request"
  let requestBytes ← orParseError "Invalid JSON in request field" (base64UrlDecode request)
  let _value ← orParseError "Invalid JSON in request field" (loads requestBytes)
  return {
    id
    realm
    method
    intent
    request
    expires := (params.lookup "expires").getD ""
    description := (params.lookup "description").getD ""
    digest := (params.lookup "digest").getD ""
    opaqueData := params.lookup "opaque" }

/-- `parse_www_authenticate`. -/
def parseWwwAuthenticate (header : List Char) : Raises PaymentChallenge := do
  let rest ← okOrElse (stripPaymentScheme header) { message := "Expected 'Payment' scheme" }
  rejectIf (¬ (rest.head?).any isBlank) { message := "Expected space after 'Payment' scheme" }
  let params ← parseAuthParams [] (rest.dropWhile isSpace)
  challengeOf loads params

/-- `parse_www_authenticate_all`; every exception of a challenge is a `ParseError`. -/
def parseWwwAuthenticateAll (letters : Char → Bool) (headers : List (List Char)) :
    List PaymentChallenge :=
  headers.flatMap fun header => (extractChallenges letters header PAYMENT_SCHEME).filterMap
    fun challenge => (parseWwwAuthenticate loads challenge).toOption

end Reading

end Py
end MppSdk
