import MppSdk.GoServer
import MppSdk.Blocks

/-! # `WWW-Authenticate` headers in Go

`ParseWWWAuthenticateAll` cuts a header where a Payment challenge starts and reads each piece
by itself.  A piece ends where the next Payment challenge starts; only behind the last one the
next scheme of any name is looked for.  So challenges of other schemes between two Payment
challenges are read as parameters of the first, the name of each one's first parameter with
the scheme in front (`parseAuthParams_fields`). -/

namespace MppSdk
namespace Go

/-- `PaymentChallenge`. -/
structure PaymentChallenge where
  id : String
  realm : String
  method : String
  intent : String
  request : String
  expires : String
  description : String
  digest : String
  opaqueData : Option String
deriving DecidableEq

/-- `PaymentScheme`. -/
def paymentScheme : List Char := "Payment".toList

/-- A space or a tab. -/
def isBlank (c : Char) : Bool := c = ' ' ∨ c = '\t'

/-! ## Cutting a header -/

/-- `isPaymentSchemeStart`, with the characters before the index, the last one first, and those
from it on. -/
def isPaymentSchemeStart (before rest : List Char) : Bool :=
  paymentScheme.length < rest.length ∧
    (rest.take paymentScheme.length).map foldChar = paymentScheme.map foldChar ∧
    (rest[paymentScheme.length]?).any isBlank ∧
    ((before.dropWhile isBlank).head?).all (· = ',')

/-- The first loop of `splitPaymentChallengeValues`: the indices at which a Payment challenge
starts.  `skip` characters belong to a scheme that has just started. -/
def schemeStarts (before : List Char) (inQuote escaped : Bool) (skip : Nat) :
    List Char → List Nat
  | [] => []
  | c :: rest =>
      match skip with
      | skip + 1 => schemeStarts (c :: before) inQuote escaped skip rest
      | 0 =>
          if inQuote then
            if escaped then schemeStarts (c :: before) true false 0 rest
            else if c = '\\' then schemeStarts (c :: before) true true 0 rest
            else schemeStarts (c :: before) (c ≠ '"') false 0 rest
          else if c = '"' then schemeStarts (c :: before) true escaped 0 rest
          else if isPaymentSchemeStart before (c :: rest) then
            before.length :: schemeStarts (c :: before) false escaped (paymentScheme.length - 1) rest
          else schemeStarts (c :: before) false escaped 0 rest

/-- `isAuthSchemeStart`, with the characters from the index on. -/
def isAuthSchemeStart (rest : List Char) : Bool :=
  let stops := fun c : Char => isBlank c ∨ c = ',' ∨ c = '='
  rest.takeWhile (fun c => ¬ stops c) ≠ [] ∧ ((rest.dropWhile (fun c => ¬ stops c)).head?).any isBlank

/-- `nextAuthSchemeStart`, with the characters from the index on. -/
def nextAuthSchemeStart (index : Nat) (inQuote escaped : Bool) : List Char → Option Nat
  | [] => none
  | c :: rest =>
      if inQuote then
        if escaped then nextAuthSchemeStart (index + 1) true false rest
        else if c = '\\' then nextAuthSchemeStart (index + 1) true true rest
        else nextAuthSchemeStart (index + 1) (c ≠ '"') false rest
      else if c = '"' then nextAuthSchemeStart (index + 1) true escaped rest
      else if c ≠ ',' then nextAuthSchemeStart (index + 1) false escaped rest
      else if isAuthSchemeStart (rest.dropWhile isBlank) then
        some (index + 1 + (rest.takeWhile isBlank).length)
      else nextAuthSchemeStart (index + 1) false escaped rest

/-- The second loop of `splitPaymentChallengeValues`, before the values are trimmed. -/
def valuesAt (header : List Char) : List Nat → List (List Char)
  | [] => []
  | [start] =>
      let afterScheme := start + paymentScheme.length
      match nextAuthSchemeStart afterScheme false false (header.drop afterScheme) with
      | some next => [(header.drop start).take (next - start)]
      | none => [header.drop start]
  | start :: next :: starts =>
      (header.drop start).take (next - start) :: valuesAt header (next :: starts)

/-- A value without the space and the commas around it. -/
def trimValue (value : List Char) : List Char :=
  let trimmed := trimMatches isSpace value
  trimMatches isSpace (trimmed.reverse.dropWhile (· = ',')).reverse

/-- `splitPaymentChallengeValues`. -/
def splitPaymentChallengeValues (header : List Char) : List (List Char) :=
  ((valuesAt header (schemeStarts [] false false 0 header)).map trimValue).filter (· ≠ [])

/-! ## Reading a value -/

/-- `stripPaymentScheme`. -/
def stripPaymentScheme (header : List Char) : Option (List Char) :=
  let header := trimMatches isSpace header
  if header.length < paymentScheme.length then none
  else if (header.take paymentScheme.length).map foldChar ≠ paymentScheme.map foldChar then none
  else some (trimMatches isSpace (header.drop paymentScheme.length))

/-- A value up to its closing quote, if it has one, and what follows. -/
def readQuoted (escaped : Bool) : List Char → Option (List Char × List Char)
  | [] => none
  | c :: cs =>
      if escaped then (readQuoted false cs).map fun read => (c :: read.1, read.2)
      else if c = '\\' then readQuoted true cs
      else if c = '"' then some ([], cs)
      else (readQuoted false cs).map fun read => (c :: read.1, read.2)

/-- The value after an equals sign, and what follows. -/
def readValue (input : List Char) : Option (List Char × List Char) :=
  if input.head? = some '"' then readQuoted false input.tail
  else some (trimMatches isSpace (input.takeWhile (· ≠ ',')), (input.dropWhile (· ≠ ',')).tail)

theorem readQuoted_length {escaped : Bool} {input value rest : List Char}
    (h : readQuoted escaped input = some (value, rest)) : rest.length ≤ input.length := by
  fun_induction readQuoted escaped input generalizing value rest with
  | case1 => cases h
  | case2 c cs ih =>
    obtain ⟨read, hread, heq⟩ := Option.map_eq_some_iff.mp h
    obtain ⟨-, rfl⟩ := Prod.mk.inj heq
    exact (ih hread).trans (Nat.le_succ _)
  | case3 escaped cs hescaped ih => exact (ih h).trans (Nat.le_succ _)
  | case4 escaped cs hescaped hne =>
    obtain ⟨-, rfl⟩ := Prod.mk.inj (Option.some.inj h)
    exact Nat.le_succ _
  | case5 escaped c cs hescaped hbackslash hquote ih =>
    obtain ⟨read, hread, heq⟩ := Option.map_eq_some_iff.mp h
    obtain ⟨-, rfl⟩ := Prod.mk.inj heq
    exact (ih hread).trans (Nat.le_succ _)

theorem readValue_length {input value rest : List Char} (h : readValue input = some (value, rest)) :
    rest.length ≤ input.length := by
  unfold readValue at h
  split at h
  · exact (readQuoted_length h).trans (by simp)
  · obtain ⟨-, rfl⟩ := Prod.mk.inj (Option.some.inj h)
    have htail := List.length_tail (l := input.dropWhile (· ≠ ','))
    have hdrop := (List.dropWhile_suffix (l := input) (· ≠ ',')).length_le
    omega

/-- What may stand in front of a parameter. -/
def isGap (c : Char) : Bool := c = ' ' ∨ c = '\t' ∨ c = ','

/-- `parseAuthParams`, with the parameters that have been read. -/
def parseAuthParams (params : List (List Char × List Char)) (input : List Char) :
    Result (List (List Char × List Char)) :=
  if trimMatches isSpace input = [] then .ok params
  else
    let start := input.dropWhile isGap
    if start = [] then .ok params
    else
      match _heq : start.dropWhile (· ≠ '=') with
      | [] => .error (.error { message := "invalid auth parameter" })
      | _ :: after =>
          if start.head? = some '=' then .error (.error { message := "invalid auth parameter" })
          else
            let key := trimMatches isSpace (start.takeWhile (· ≠ '='))
            match _hvalue : readValue after with
            | none => .error (.error { message := "unterminated quoted value" })
            | some (value, rest) =>
                if key ∈ params.map Prod.fst then
                  .error (.error { message := "duplicate parameter: " ++ String.ofList key })
                else parseAuthParams (params ++ [(key, value)]) rest
termination_by input.length
decreasing_by
  have hstart : start.length ≤ input.length := (List.dropWhile_suffix isGap).length_le
  have hafter : after.length + 1 ≤ start.length := by
    have := (List.dropWhile_suffix (l := start) (· ≠ '=')).length_le
    rwa [_heq] at this
  have hrest := readValue_length _hvalue
  omega

/-- A parameter, if it is there. -/
def param? (params : List (List Char × List Char)) (key : String) : Option String :=
  (params.lookup key.toList).map String.ofList

/-- `params[key]`, the empty text if it is not there. -/
def param (params : List (List Char × List Char)) (key : String) : String :=
  (param? params key).getD ""

section Reading
-- `lower` is the table of `unicode.ToLower`
variable (libraries : Libraries) (lower : Char → Char)

/-- `strings.ToLower`. -/
def toLower (s : String) : String := String.ofList (s.toList.map lower)

/-- `MethodName.IsValid`. -/
def isValidMethod (method : String) : Bool :=
  method ≠ "" ∧ method.toList.all fun c => 'a' ≤ c ∧ c ≤ 'z'

/-- What `ParseWWWAuthenticate` makes of the parameters. -/
def challengeOf (params : List (List Char × List Char)) : Result PaymentChallenge := do
  rejectIf (param params "request" = "") { message := "missing \"request\" field" }
  let requestBytes ← mapErr
    (fun e => { message := "invalid request field: " ++ e.message })
    (orReturn (base64URLDecode libraries (param params "request")))
  let _value ← okOrElse (libraries.parseJson requestBytes)
    { message := "invalid JSON in request field: " }
  let method := toLower lower (param params "method")
  rejectIf (¬ isValidMethod method)
    { message := "invalid method: " ++ libraries.quote (param params "method") }
  let challenge : PaymentChallenge :=
    { id := param params "id"
      realm := param params "realm"
      method
      intent := toLower lower (param params "intent")
      request := param params "request"
      expires := param params "expires"
      description := param params "description"
      digest := param params "digest"
      opaqueData := param? params "opaque" }
  rejectIf (challenge.id = "" ∨ challenge.realm = "" ∨ challenge.intent = "")
    { message := "missing required challenge fields" }
  return challenge

/-- `ParseWWWAuthenticate`. -/
def parseWWWAuthenticate (header : List Char) : Result PaymentChallenge := do
  let rest ← okOrElse (stripPaymentScheme header) { message := "expected \"Payment\" scheme" }
  let params ← parseAuthParams [] (trimMatches isSpace rest)
  challengeOf libraries lower params

/-- `ParseWWWAuthenticateAll`. -/
def parseWWWAuthenticateAll (headers : List (List Char)) : List PaymentChallenge :=
  headers.flatMap fun header =>
    (splitPaymentChallengeValues header).flatMap fun value =>
      match parseWWWAuthenticate libraries lower value with
      | .ok challenge => [challenge]
      | .error _ => []

end Reading

end Go
end MppSdk
