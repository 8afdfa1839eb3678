import MppSdk.LuaBase64url
import MppSdk.LuaJsonReading

/-! # `protocol/core/headers.lua`

A challenge as a `WWW-Authenticate` header and back.  Quoting escapes backslashes and quotes
and drops line ends, so a challenge is read back without its description, without its empty
fields, and with the line ends gone (`parse_format`). -/

namespace MppSdk
namespace Lua
namespace Headers

/-! ## Challenges -/

/-- A challenge, the request and the opaque data in their raw form. -/
structure Challenge where
  id : Str
  realm : Str
  method : Str
  intent : Str
  request : Str
  expires : Option Str
  description : Option Str
  digest : Option Str
  opaqueRaw : Option Str
  deriving DecidableEq

/-- `string.lower`. -/
def lower (s : Str) : Str := s.map fun ch => if byte 'A' ≤ ch ∧ ch ≤ byte 'Z' then ch + 32 else ch

/-- The class `%s`. -/
def isSpace (ch : UInt8) : Bool := ch = 32 ∨ (9 ≤ ch ∧ ch ≤ 13)

/-- `value:gsub('^%s+', '')`. -/
def trimStart (value : Str) : Str := value.dropWhile isSpace

/-- `value:gsub('%s+$', '')`. -/
def trimEnd (value : Str) : Str := value.rdropWhile isSpace

/-- `types.new_method_name`. -/
def newMethodName (name : Str) : Str := lower name

/-- `types.is_valid_method`, of a string. -/
def isValidMethod (name : Str) : Bool :=
  name ≠ [] ∧ name.all fun ch => byte 'a' ≤ ch ∧ ch ≤ byte 'z'

/-- `types.new_intent_name`. -/
def newIntentName (name : Str) : Str := lower name

/-! ## Formatting -/

def PAYMENT_SCHEME : Str := lit "Payment"

def escapeQuoted (value : Str) : Str :=
  let value := value.flatMap fun ch => if ch = byte '\\' then lit "\\\\" else [ch]
  let value := value.flatMap fun ch => if ch = byte '"' then lit "\\\"" else [ch]
  let value := value.filter (· ≠ byte '\r')
  value.filter (· ≠ byte '\n')

/-- One parameter. -/
def formatParam (param : Str × Str) : Str :=
  param.1 ++ lit "=\"" ++ escapeQuoted param.2 ++ lit "\""

/-- A parameter that is written if it is present and not empty. -/
def optionalParam (name : String) (value : Option Str) : List (Str × Str) :=
  match value with
  | some value => if value ≠ [] then [(lit name, value)] else []
  | none => []

/-- The parameters in the order they are written, the description left out. -/
def Challenge.params (value : Challenge) : List (Str × Str) :=
  [(lit "id", value.id), (lit "realm", value.realm), (lit "method", value.method),
    (lit "intent", value.intent), (lit "request", value.request)] ++
    optionalParam "expires" value.expires ++ optionalParam "digest" value.digest ++
    optionalParam "opaque" value.opaqueRaw

/-- `table.concat(parts, ', ')`. -/
def concat (parts : List Str) : Str := (lit ", ").intercalate parts

def formatWwwAuthenticate (value : Challenge) : Str :=
  PAYMENT_SCHEME ++ lit " " ++ concat (value.params.map formatParam)

/-! ## Parsing -/

def stripPaymentScheme (header : Str) : Option Str :=
  let trimmed := trimStart header
  if lower (trimmed.take PAYMENT_SCHEME.length) ≠ lower PAYMENT_SCHEME then none
  else some (trimStart (trimmed.drop PAYMENT_SCHEME.length))

/-- The loop over a quoted value, and what follows its closing quote. -/
def readQuoted (escaped : Bool) : Str → Str × Str
  | [] => ([], [])
  | ch :: rest =>
    if escaped then (ch :: (readQuoted false rest).1, (readQuoted false rest).2)
    else if ch = byte '\\' then readQuoted true rest
    else if ch = byte '"' then ([], rest)
    else (ch :: (readQuoted false rest).1, (readQuoted false rest).2)

/-- The value after an equals sign, and what follows it. -/
def readValue (input : Str) : Str × Str :=
  if input.head? = some (byte '"') then readQuoted false input.tail
  else (trimEnd (input.takeWhile (· ≠ byte ',')), (input.dropWhile (· ≠ byte ',')).tail)

theorem readQuoted_length (escaped : Bool) (input : Str) :
    (readQuoted escaped input).2.length ≤ input.length := by
  fun_induction readQuoted escaped input <;> simp_all <;> omega

theorem readValue_length (input : Str) : (readValue input).2.length ≤ input.length := by
  have htail : input.tail.length ≤ input.length := (List.tail_suffix input).length_le
  unfold readValue
  split_ifs
  · exact (readQuoted_length false input.tail).trans htail
  · exact ((List.tail_suffix _).trans (List.dropWhile_suffix _)).length_le

/-- The pattern `[%s,]`. -/
def isGap (ch : UInt8) : Bool := isSpace ch ∨ ch = byte ','

/-- `parse_auth_params`, with the parameters that have been read. -/
def parseAuthParams (params : List (Str × Str)) (input : Str) : Throws (List (Str × Str)) :=
  match hstart : input.dropWhile isGap with
  | [] => pure params
  | c :: tail =>
    match hequals : (c :: tail).dropWhile (· ≠ byte '=') with
    | [] => error (lit "invalid auth parameter")
    | _ :: after =>
      let key := trimEnd ((c :: tail).takeWhile (· ≠ byte '='))
      let value := (readValue after).1
      if key ∈ params.map Prod.fst then error (lit "duplicate parameter: " ++ key)
      else parseAuthParams (params ++ [(key, value)]) (readValue after).2
termination_by input.length
decreasing_by
  have hle : (c :: tail).length ≤ input.length := hstart ▸ (List.dropWhile_suffix isGap).length_le
  have hafter := (List.dropWhile_suffix (l := c :: tail) (· ≠ byte '=')).length_le
  rw [hequals] at hafter
  have hvalue := readValue_length after
  simp only [List.length_cons] at hle hafter ⊢
  omega

/-- `not value or value == ''`. -/
def isMissing (value : Option Str) : Bool := value.getD [] = []

def parseWwwAuthenticate (header : Str) : Throws Challenge := do
  let some rest := stripPaymentScheme header
    | error (lit "expected \"Payment\" scheme")
  let params ← parseAuthParams [] rest
  let request := params.lookup (lit "request")
  if isMissing request then error (lit "missing \"request\" field")
  let requestBytes ← match Base64url.decode (request.getD []) with
    | .ok bytes => pure bytes
    | .error decodeErr => error (lit "invalid request field: " ++ decodeErr)
  match Json.decode requestBytes with
  | .ok _ => pure ()
  | .error _ => error (lit "invalid JSON in request field")
  let method := newMethodName ((params.lookup (lit "method")).getD [])
  if ¬ isValidMethod method then
    error (lit "invalid method: " ++ (params.lookup (lit "method")).getD (lit "nil"))
  let id := params.lookup (lit "id")
  let realm := params.lookup (lit "realm")
  let intent := params.lookup (lit "intent")
  if isMissing id ∨ isMissing realm ∨ isMissing intent then
    error (lit "missing required challenge fields")
  return {
    id := id.getD []
    realm := realm.getD []
    method := method
    intent := newIntentName (intent.getD [])
    request := request.getD []
    expires := params.lookup (lit "expires")
    description := params.lookup (lit "description")
    digest := params.lookup (lit "digest")
    opaqueRaw := params.lookup (lit "opaque") }

/-! ## Quoting -/

/-- The text without its line ends. -/
def stripLines (value : Str) : Str := value.filter fun ch => ch ≠ byte '\r' ∧ ch ≠ byte '\n'

/-- There is no line end in the text. -/
def OneLine (value : Str) : Prop := byte '\r' ∉ value ∧ byte '\n' ∉ value

theorem stripLines_eq {value : Str} (h : OneLine value) : stripLines value = value := by
  refine List.filter_eq_self.mpr fun ch hch => ?_
  rw [decide_eq_true_eq]
  exact ⟨fun heq => h.1 (heq ▸ hch), fun heq => h.2 (heq ▸ hch)⟩

/-- The escapes of one byte. -/
def escapeByte (ch : UInt8) : Str :=
  if ch = byte '\r' ∨ ch = byte '\n' then []
  else if ch = byte '\\' ∨ ch = byte '"' then [byte '\\', ch] else [ch]

/-- The substitutions escape byte by byte. -/
theorem escapeQuoted_eq (value : Str) : escapeQuoted value = value.flatMap escapeByte := by
  have hone : ∀ ch : UInt8, escapeQuoted [ch] = escapeByte ch := by
    intro ch
    unfold escapeQuoted escapeByte
    by_cases hslash : ch = byte '\\'
    · subst hslash
      rfl
    by_cases hquote : ch = byte '"'
    · subst hquote
      rfl
    by_cases hreturn : ch = byte '\r'
    · subst hreturn
      rfl
    by_cases hline : ch = byte '\n'
    · subst hline
      rfl
    simp [hslash, hquote, hreturn, hline]
  induction value with
  | nil => rfl
  | cons ch value ih =>
    rw [List.flatMap_cons, ← ih, ← hone]
    simp [escapeQuoted]

/-- A quoted value is read up to its closing quote. -/
theorem readQuoted_escapeQuoted (value rest : Str) :
    readQuoted false (escapeQuoted value ++ byte '"' :: rest) = (stripLines value, rest) := by
  rw [escapeQuoted_eq]
  induction value with
  | nil => rfl
  | cons ch value ih =>
    rw [List.flatMap_cons, List.append_assoc, stripLines]
    by_cases hline : ch = byte '\r' ∨ ch = byte '\n'
    · rw [escapeByte, if_pos hline, List.nil_append, ih, stripLines]
      rcases hline with rfl | rfl <;> rfl
    · have hkeep : ch ≠ byte '\r' ∧ ch ≠ byte '\n' := not_or.mp hline
      rw [List.filter_cons_of_pos (by simpa using hkeep), escapeByte, if_neg hline]
      by_cases hescaped : ch = byte '\\' ∨ ch = byte '"'
      · rw [if_pos hescaped]
        show readQuoted false
          (byte '\\' :: ch :: (value.flatMap escapeByte ++ byte '"' :: rest)) = _
        rw [readQuoted, if_neg (by decide), if_pos rfl, readQuoted, if_pos rfl, ih]
        rfl
      · obtain ⟨hslash, hquote⟩ := not_or.mp hescaped
        rw [if_neg hescaped, List.singleton_append, readQuoted, if_neg (by decide), if_neg hslash,
          if_neg hquote, ih]
        rfl

/-! ## Parameters -/

/-- A parameter's name: small letters, at least one. -/
def IsWord (name : Str) : Prop := name ≠ [] ∧ ∀ ch ∈ name, byte 'a' ≤ ch ∧ ch ≤ byte 'z'

instance (name : Str) : Decidable (IsWord name) :=
  @instDecidableAnd _ _ _ (List.decidableBAll _ _)

theorem letter_spec {ch : UInt8} (h : byte 'a' ≤ ch ∧ ch ≤ byte 'z') :
    isSpace ch = false ∧ isGap ch = false ∧ ch ≠ byte '=' := by
  have hlow : 97 ≤ ch.toNat := h.1
  have hhigh : ch.toNat ≤ 122 := h.2
  have hspace : isSpace ch = false := by
    simp only [isSpace, decide_eq_false_iff_not, not_or, not_and]
    refine ⟨?_, fun _ hle => ?_⟩
    · rintro rfl
      exact absurd hlow (by decide)
    · have hle : ch.toNat ≤ 13 := hle
      omega
  refine ⟨hspace, ?_, ?_⟩
  · simp only [isGap, hspace, Bool.false_eq_true, false_or, decide_eq_false_iff_not]
    rintro rfl
    exact absurd hlow (by decide)
  · rintro rfl
    exact absurd hlow (by decide)

theorem trimEnd_word {name : Str} (h : IsWord name) : trimEnd name = name := by
  refine List.rdropWhile_eq_self_iff.mpr fun hne => ?_
  rw [(letter_spec (h.2 _ (List.getLast_mem hne))).1]
  exact Bool.false_ne_true

/-- A parameter that is written is read. -/
theorem parseAuthParams_param {params : List (Str × Str)} {name : Str} (hname : IsWord name)
    (value : Str) (hnew : name ∉ params.map Prod.fst) (rest : Str) :
    parseAuthParams params (formatParam (name, value) ++ rest) =
      parseAuthParams (params ++ [(name, stripLines value)]) rest := by
  obtain ⟨c, cs, rfl⟩ := List.exists_cons_of_ne_nil hname.1
  have htext : formatParam (c :: cs, value) ++ rest =
      (c :: cs) ++ byte '=' :: byte '"' :: (escapeQuoted value ++ byte '"' :: rest) := by
    simp [formatParam, lit]
  generalize hquoted : byte '"' :: (escapeQuoted value ++ byte '"' :: rest) = quoted at htext
  have hstart : (formatParam (c :: cs, value) ++ rest).dropWhile isGap =
      c :: (cs ++ byte '=' :: quoted) := by
    rw [htext, List.cons_append, List.dropWhile_cons_of_neg]
    rw [(letter_spec (hname.2 c (List.mem_cons_self ..))).2.1]
    exact Bool.false_ne_true
  have hplain : ∀ ch ∈ c :: cs, decide (ch ≠ byte '=') = true := fun ch hch =>
    decide_eq_true (letter_spec (hname.2 ch hch)).2.2
  have hdrop : (c :: (cs ++ byte '=' :: quoted)).dropWhile (· ≠ byte '=') = byte '=' :: quoted := by
    rw [← List.cons_append, List.dropWhile_append_of_pos hplain]
    rfl
  have htake : (c :: (cs ++ byte '=' :: quoted)).takeWhile (· ≠ byte '=') = c :: cs := by
    rw [← List.cons_append, List.takeWhile_append_of_pos hplain]
    exact List.append_nil _
  have hvalue : readValue quoted = (stripLines value, rest) := by
    subst hquoted
    exact readQuoted_escapeQuoted value rest
  rw [parseAuthParams.eq_def]
  split
  · next h => cases hstart.symm.trans h
  · next d tail h =>
    obtain ⟨rfl, rfl⟩ := List.cons.inj (hstart.symm.trans h)
    split
    · next h => cases hdrop.symm.trans h
    · next d after h =>
      obtain ⟨rfl, rfl⟩ := List.cons.inj (hdrop.symm.trans h)
      simp only [htake, trimEnd_word hname, if_neg hnew, hvalue]

theorem parseAuthParams_gap (params : List (Str × Str)) (input : Str) :
    parseAuthParams params (lit ", " ++ input) = parseAuthParams params input := by
  have hgap : (lit ", " ++ input).dropWhile isGap = input.dropWhile isGap := rfl
  rw [parseAuthParams.eq_def params (lit ", " ++ input), parseAuthParams.eq_def params input]
  rw [hgap]

/-- Every parameter that is written is read. -/
theorem parseAuthParams_params {written : List (Str × Str)} : ∀ {params : List (Str × Str)},
    (∀ param ∈ written, IsWord param.1) → ((params ++ written).map Prod.fst).Nodup →
    parseAuthParams params (concat (written.map formatParam)) =
      .ok (params ++ written.map fun param => (param.1, stripLines param.2)) := by
  induction written with
  | nil =>
    intro params _ _
    rw [parseAuthParams.eq_def, List.map_nil, List.map_nil, List.append_nil]
    rfl
  | cons param written ih =>
    obtain ⟨name, value⟩ := param
    intro params hwords hnodup
    obtain ⟨hname, hwords⟩ := List.forall_mem_cons.mp hwords
    have hnew : name ∉ params.map Prod.fst := by
      intro hmem
      rw [List.map_append, List.nodup_append] at hnodup
      exact hnodup.2.2 _ hmem _ (List.mem_cons_self ..) rfl
    have hnext : ((params ++ [(name, stripLines value)] ++ written).map Prod.fst).Nodup := by
      simpa using hnodup
    have ih := ih hwords hnext
    rw [List.map_cons, List.map_cons, List.append_cons, ← ih]
    rcases written with _ | ⟨next, written⟩
    · have hread := parseAuthParams_param hname value hnew []
      rw [List.append_nil] at hread
      rw [List.map_nil, concat, List.intercalate_singleton]
      exact hread
    · rw [List.map_cons, concat, List.intercalate_cons_cons, List.append_assoc,
        parseAuthParams_param hname value hnew]
      exact parseAuthParams_gap _ _

/-! ## The round trip -/

/-- What a challenge must be for its header to be read. -/
structure Challenge.WellFormed (challenge : Challenge) : Prop where
  id_ne : challenge.id ≠ []
  id_line : OneLine challenge.id
  realm_ne : challenge.realm ≠ []
  realm_line : OneLine challenge.realm
  method_word : IsWord challenge.method
  intent_word : IsWord challenge.intent
  request_line : OneLine challenge.request
  request_json : ∃ bytes value, Base64url.decode challenge.request = .ok bytes ∧
    Json.decode bytes = .ok value

/-- An optional field as it is read back. -/
def present (value : Option Str) : Option Str := (value.filter (· ≠ [])).map stripLines

/-- A challenge as it is read back. -/
def Challenge.readBack (challenge : Challenge) : Challenge :=
  { challenge with
    description := none
    expires := present challenge.expires
    digest := present challenge.digest
    opaqueRaw := present challenge.opaqueRaw }

theorem optionalParam_eq (name : String) (value : Option Str) : optionalParam name value =
    (value.filter (· ≠ [])).toList.map fun value => (lit name, value) := by
  cases value with
  | none => rfl
  | some value =>
    by_cases hempty : value = []
    · subst hempty
      rfl
    · simp [optionalParam, hempty, Option.filter]

/-- The parameters by name, as they are read. -/
theorem lookup_params (challenge : Challenge) {written : List (Str × Str)}
    (hwritten : written = challenge.params.map fun param => (param.1, stripLines param.2)) :
    written.lookup (lit "id") = some (stripLines challenge.id) ∧
      written.lookup (lit "realm") = some (stripLines challenge.realm) ∧
      written.lookup (lit "method") = some (stripLines challenge.method) ∧
      written.lookup (lit "intent") = some (stripLines challenge.intent) ∧
      written.lookup (lit "request") = some (stripLines challenge.request) ∧
      written.lookup (lit "expires") = present challenge.expires ∧
      written.lookup (lit "description") = none ∧
      written.lookup (lit "digest") = present challenge.digest ∧
      written.lookup (lit "opaque") = present challenge.opaqueRaw := by
  subst hwritten
  unfold Challenge.params present
  rw [optionalParam_eq, optionalParam_eq, optionalParam_eq]
  rcases challenge.expires.filter (· ≠ []) with _ | expires <;>
    rcases challenge.digest.filter (· ≠ []) with _ | digest <;>
    rcases challenge.opaqueRaw.filter (· ≠ []) with _ | opaqueRaw <;>
    exact ⟨rfl, rfl, rfl, rfl, rfl, rfl, rfl, rfl, rfl⟩

theorem params_spec (challenge : Challenge) :
    (∀ param ∈ challenge.params, IsWord param.1) ∧ (challenge.params.map Prod.fst).Nodup := by
  unfold Challenge.params
  rw [optionalParam_eq, optionalParam_eq, optionalParam_eq, ← List.forall_mem_map (f := Prod.fst)]
  rcases challenge.expires.filter (· ≠ []) with _ | expires <;>
    rcases challenge.digest.filter (· ≠ []) with _ | digest <;>
    rcases challenge.opaqueRaw.filter (· ≠ []) with _ | opaqueRaw <;>
    simp only [Option.toList_none, Option.toList_some, List.map_nil, List.map_cons, List.append_nil,
      List.cons_append, List.nil_append] <;>
    decide

theorem lower_word {name : Str} (h : IsWord name) : lower name = name := by
  refine (List.map_congr_left fun ch hch => ?_).trans (List.map_id name)
  have hlow : 97 ≤ ch.toNat := (h.2 ch hch).1
  refine if_neg fun hupper => ?_
  have hhigh : ch.toNat ≤ 90 := hupper.2
  omega

theorem oneLine_word {name : Str} (h : IsWord name) : OneLine name :=
  ⟨fun hmem => absurd (h.2 _ hmem) (by decide), fun hmem => absurd (h.2 _ hmem) (by decide)⟩

theorem isValidMethod_word {name : Str} (h : IsWord name) : isValidMethod name = true := by
  refine decide_eq_true ⟨h.1, List.all_eq_true.mpr fun ch hch => ?_⟩
  exact decide_eq_true (h.2 ch hch)

/-- The text after the scheme starts with a letter. -/
theorem trimStart_params (challenge : Challenge) :
    trimStart (lit " " ++ concat (challenge.params.map formatParam)) =
      concat (challenge.params.map formatParam) := by
  have hfirst : challenge.params =
      (lit "id", challenge.id) :: (lit "realm", challenge.realm) :: challenge.params.drop 2 := rfl
  rw [hfirst, List.map_cons, List.map_cons, concat, List.intercalate_cons_cons]
  rfl

/-- **A challenge is read back.** -/
theorem parse_formatted {challenge : Challenge} (h : challenge.WellFormed) :
    parseWwwAuthenticate (formatWwwAuthenticate challenge) = .ok challenge.readBack := by
  have hstrip : stripPaymentScheme (formatWwwAuthenticate challenge) =
      some (concat (challenge.params.map formatParam)) := by
    have htext : formatWwwAuthenticate challenge =
        PAYMENT_SCHEME ++ (lit " " ++ concat (challenge.params.map formatParam)) :=
      List.append_assoc ..
    have hhead : trimStart (PAYMENT_SCHEME ++
        (lit " " ++ concat (challenge.params.map formatParam))) =
        PAYMENT_SCHEME ++ (lit " " ++ concat (challenge.params.map formatParam)) := rfl
    rw [stripPaymentScheme, htext, hhead, List.take_left, List.drop_left, if_neg (not_not.mpr rfl),
      trimStart_params]
  obtain ⟨hwords, hnodup⟩ := params_spec challenge
  have hparams : parseAuthParams [] (concat (challenge.params.map formatParam)) = .ok _ :=
    parseAuthParams_params hwords (by simpa using hnodup)
  rw [List.nil_append] at hparams
  obtain ⟨hid, hrealm, hmethod, hintent, hrequest, hexpires, hdescription, hdigest, hopaque⟩ :=
    lookup_params challenge rfl
  obtain ⟨bytes, value, hbytes, hvalue⟩ := h.request_json
  have hrequest_ne : challenge.request ≠ [] := by
    intro hempty
    rw [hempty] at hbytes
    obtain rfl : [] = bytes := Except.ok.inj hbytes
    obtain ⟨message, herror⟩ : ∃ message, Json.decode [] = .error message := ⟨_, rfl⟩
    exact nomatch herror.symm.trans hvalue
  rw [stripLines_eq h.id_line] at hid
  rw [stripLines_eq h.realm_line] at hrealm
  rw [stripLines_eq (oneLine_word h.method_word)] at hmethod
  rw [stripLines_eq (oneLine_word h.intent_word)] at hintent
  rw [stripLines_eq h.request_line] at hrequest
  simp only [parseWwwAuthenticate, hstrip, hparams, hid, hrealm, hmethod, hintent, hrequest,
    hexpires, hdescription, hdigest, hopaque, isMissing, Option.getD_some, bind, Except.bind,
    hbytes, hvalue, newMethodName, newIntentName, lower_word h.method_word, lower_word h.intent_word,
    isValidMethod_word h.method_word, hrequest_ne, h.id_ne, h.realm_ne, h.intent_word.1,
    decide_false, Bool.false_eq_true, if_false, or_self, not_true_eq_false, pure, Except.pure]
  rfl

/-- A challenge with text in every field. -/
def sampleChallenge : Challenge where
  id := lit "abc\\123"
  realm := lit "say \"hi\", a=b"
  method := lit "solana"
  intent := lit "charge"
  request := lit "e30"
  expires := some []
  description := some (lit "tea")
  digest := some (lit "a\nb")
  opaqueRaw := none

theorem sampleChallenge_wellFormed : sampleChallenge.WellFormed where
  id_ne := by decide
  id_line := by unfold OneLine; decide
  realm_ne := by decide
  realm_line := by unfold OneLine; decide
  method_word := by decide
  intent_word := by decide
  request_line := by unfold OneLine; decide
  request_json := by
    have hreads := Json.reads_empty_object Json.spaces_nil
    exact ⟨lit "\x7b\x7d", _, by decide,
      Json.decode_item ⟨[], _, [], _, Json.spaces_nil, Json.spaces_nil, hreads⟩⟩

/-- **Header round trip.**  A challenge is read back from its header, its description dropped,
its empty fields absent, and the line ends gone from the optional fields. -/
theorem parse_format (challenge : Challenge) (h : challenge.WellFormed) :
    parseWwwAuthenticate (formatWwwAuthenticate challenge) = .ok challenge.readBack :=
  parse_formatted h

theorem parse_format_sample :
    parseWwwAuthenticate (formatWwwAuthenticate sampleChallenge) = .ok sampleChallenge.readBack :=
  parse_format sampleChallenge sampleChallenge_wellFormed

/-- A line end in the digest is lost. -/
theorem line_end_dropped : sampleChallenge.WellFormed ∧
    (parseWwwAuthenticate (formatWwwAuthenticate sampleChallenge)).map Challenge.digest =
      .ok (some (lit "ab")) ∧ sampleChallenge.digest = some (lit "a\nb") ∧
    lit "ab" ≠ lit "a\nb" := by
  refine ⟨sampleChallenge_wellFormed, ?_, rfl, by decide⟩
  rw [parse_formatted sampleChallenge_wellFormed]
  decide

end Headers
end Lua
end MppSdk
