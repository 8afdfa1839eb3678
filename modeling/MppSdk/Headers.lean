import MppSdk.ChallengeBinding
import MppSdk.Voucher

/-! # `WWW-Authenticate` headers

A challenge is written as a list of quoted parameters after the scheme `Payment`, and several
challenges may share a header.  The reader first cuts the header where a scheme starts outside
of quotes and then reads each piece by itself.  `parse_format_all`: the challenges that are
written into one header are read back from it, whatever their values hold. -/

namespace MppSdk

/-- `PAYMENT_SCHEME`. -/
def PAYMENT_SCHEME : List Char := "Payment".toList

/-- `u8::is_ascii_whitespace`. -/
def isAsciiWhitespace (c : Char) : Bool := c ∈ [' ', '\t', '\n', '\x0c', '\r']

/-- `eq_ignore_ascii_case`. -/
def eqIgnoreCase (cs ds : List Char) : Bool := cs.map Char.toLower = ds.map Char.toLower

/-! ## Writing -/

/-- `escape_quoted_value`. -/
def escapeQuotedValue (s : String) : RustResult Error (List Char) :=
  if '\r' ∈ s.toList ∨ '\n' ∈ s.toList then
    .error (.error (Error.other "Header value contains invalid CRLF characters"))
  else
    let escaped := s.toList.flatMap fun c => if c = '\\' then ['\\', '\\'] else [c]
    .ok (escaped.flatMap fun c => if c = '"' then ['\\', '"'] else [c])

/-- The parameters of a challenge in a header; its description is not one. -/
def PaymentChallenge.params (challenge : PaymentChallenge) : List (String × String) :=
  [("id", challenge.id), ("realm", challenge.realm), ("method", challenge.method),
      ("intent", challenge.intent), ("request", challenge.request)] ++
    challenge.expires.toList.map (fun expires => ("expires", expires)) ++
    challenge.digest.toList.map (fun digest => ("digest", digest)) ++
    challenge.opaqueData.toList.map (fun opaqueData => ("opaque", opaqueData))

/-- A parameter with its value in quotes. -/
def formatParam (param : String × String) : RustResult Error (List Char) := do
  let value ← escapeQuotedValue param.2
  return param.1.toList ++ '=' :: '"' :: (value ++ ['"'])

/-- `format_www_authenticate`. -/
def formatWwwAuthenticate (challenge : PaymentChallenge) : RustResult Error (List Char) := do
  let parts ← challenge.params.mapM formatParam
  return PAYMENT_SCHEME ++ ' ' :: [',', ' '].intercalate parts

/-! ## Cutting a header -/

/-- `is_payment_scheme_start`, with the characters before the position, the last one first,
and those from it on. -/
def isPaymentSchemeStart (before rest : List Char) : Bool :=
  PAYMENT_SCHEME.length < rest.length ∧
    eqIgnoreCase (rest.take PAYMENT_SCHEME.length) PAYMENT_SCHEME ∧
    (rest[PAYMENT_SCHEME.length]?).any isAsciiWhitespace ∧
    ((before.dropWhile isAsciiWhitespace).head?).all (· = ',')

/-- The loop of `split_payment_challenge_values`: the positions at which a scheme starts.
`skip` characters belong to a scheme that has just started. -/
def schemeStarts (before : List Char) (inQuote escaped : Bool) (skip : Nat) :
    List Char → List Nat
  | [] => []
  | c :: rest =>
      match skip with
      | skip + 1 => schemeStarts (c :: before) inQuote escaped skip rest
      | 0 =>
          if inQuote then
            if escaped then schemeStarts (c :: before) true false 0 rest
            else if c = '\\' then schemeStarts (c :: before) true true 0 rest
            else schemeStarts (c :: before) (c ≠ '"') false 0 rest
          else if c = '"' then schemeStarts (c :: before) true escaped 0 rest
          else if isPaymentSchemeStart before (c :: rest) then
            before.length :: schemeStarts (c :: before) false escaped (PAYMENT_SCHEME.length - 1) rest
          else schemeStarts (c :: before) false escaped 0 rest

/-- The pieces of a header from each start to the next one. -/
def piecesAt (header : List Char) : List Nat → List (List Char)
  | [] => []
  | [start] => [header.drop start]
  | start :: next :: starts =>
      (header.drop start).take (next - start) :: piecesAt header (next :: starts)

/-- A piece without the space and the commas around it. -/
def trimPiece (piece : List Char) : List Char :=
  let trimmed := trimMatches isWhitespace piece
  trimMatches isWhitespace (trimmed.reverse.dropWhile (· = ',')).reverse

/-- `split_payment_challenge_values`. -/
def splitPaymentChallengeValues (header : List Char) : List (List Char) :=
  ((piecesAt header (schemeStarts [] false false 0 header)).map trimPiece).filter (· ≠ [])

/-! ## Reading -/

/-- `strip_payment_scheme`. -/
def stripPaymentScheme (header : List Char) : Option (List Char) :=
  let header := header.dropWhile isWhitespace
  if eqIgnoreCase (header.take PAYMENT_SCHEME.length) PAYMENT_SCHEME then
    some (header.drop PAYMENT_SCHEME.length)
  else none

/-- The inner loop of `parse_auth_params`: a value up to its closing quote, or to the end. -/
def readQuoted : List Char → List Char × List Char
  | [] => ([], [])
  | '"' :: rest => ([], rest)
  | '\\' :: c :: rest => (c :: (readQuoted rest).1, (readQuoted rest).2)
  | c :: rest => (c :: (readQuoted rest).1, (readQuoted rest).2)

/-- The value after an equals sign. -/
def readValue : List Char → List Char × List Char
  | '"' :: rest => readQuoted rest
  | rest =>
      (rest.takeWhile fun c => ¬ isWhitespace c ∧ c ≠ ',',
        rest.dropWhile fun c => ¬ isWhitespace c ∧ c ≠ ',')

theorem readQuoted_length (cs : List Char) : (readQuoted cs).2.length ≤ cs.length := by
  fun_induction readQuoted cs with
  | case1 => simp
  | case2 rest => simp
  | case3 c rest ih => simp only [List.length_cons]; omega
  | case4 c rest _ _ ih => simp only [List.length_cons]; omega

theorem readValue_length (cs : List Char) : (readValue cs).2.length ≤ cs.length := by
  unfold readValue
  split
  · next rest => exact (readQuoted_length rest).trans (Nat.le_succ _)
  · exact (List.dropWhile_suffix _).length_le

/-- A character of a parameter's name. -/
def isKeyChar (c : Char) : Bool := c ≠ '=' ∧ ¬ isWhitespace c

/-- What may stand between parameters. -/
def isGap (c : Char) : Bool := isWhitespace c ∨ c = ','

/-- `parse_auth_params`, with the parameters that have been read. -/
def parseAuthParams (params : List (String × String)) (cs : List Char) :
    RustResult Error (List (String × String)) :=
  match hstart : cs.dropWhile isGap with
  | [] => .ok params
  | c :: tail =>
      match hkey : (c :: tail).dropWhile isKeyChar with
      | [] => .ok params
      | d :: after =>
          if hequals : d = '=' then
            if after = [] then .ok params
            else
              let key := String.ofList ((c :: tail).takeWhile isKeyChar)
              if key ∈ params.map Prod.fst then
                .error (.error (Error.other s!"Duplicate parameter: {key}"))
              else
                parseAuthParams (params ++ [(key, String.ofList (readValue after).1)])
                  (readValue after).2
          else parseAuthParams params ((d :: after).dropWhile fun c => ¬ isWhitespace c ∧ c ≠ ',')
termination_by cs.length
decreasing_by
  · have hle : (c :: tail).length ≤ cs.length := hstart ▸ (List.dropWhile_suffix isGap).length_le
    have hafter : (d :: after).length ≤ (c :: tail).length :=
      hkey ▸ (List.dropWhile_suffix isKeyChar).length_le
    have hvalue := readValue_length after
    simp only [List.length_cons] at hle hafter ⊢
    omega
  · have hle : (c :: tail).length ≤ cs.length := hstart ▸ (List.dropWhile_suffix isGap).length_le
    -- the name has a character: the first one is no gap and no equals sign
    have hgap : isGap c = false := by
      have h := List.head?_dropWhile_not isGap cs
      rw [hstart] at h
      simpa using h
    have hname : isKeyChar c = true := by
      by_contra hnot
      rw [List.dropWhile_cons_of_neg hnot] at hkey
      obtain ⟨rfl, -⟩ := List.cons.inj hkey
      simp [isKeyChar, isGap, hequals] at hnot hgap
      exact absurd hnot (by simp [hgap.1])
    rw [List.dropWhile_cons_of_pos hname] at hkey
    have hrest : (d :: after).length ≤ tail.length :=
      hkey ▸ (List.dropWhile_suffix isKeyChar).length_le
    have hskip := (List.dropWhile_suffix (l := d :: after)
      fun c => ¬ isWhitespace c ∧ c ≠ ',').length_le
    simp only [List.length_cons] at hle hrest hskip
    omega

/-- `require_param`. -/
def requireParam (params : List (String × String)) (key : String) : RustResult Error String :=
  okOrElse (params.lookup key) (Error.other s!"Missing '{key}' field")

/-- `MethodName::is_valid`. -/
def isValidMethod (name : String) : Bool := name ≠ "" ∧ name.toList.all Char.isLower

/-- `parse_www_authenticate`. -/
def parseWwwAuthenticate (crates : Crates) (header : List Char) :
    RustResult Error PaymentChallenge := do
  let rest ← okOrElse (stripPaymentScheme header) (Error.other "Expected 'Payment' scheme")
  let paramsStr ← okOrElse (match rest with
    | c :: params => if c = ' ' ∨ c = '\t' then some params else none
    | [] => none) (Error.other "Expected space after 'Payment' scheme")
  let params ← parseAuthParams [] (paramsStr.dropWhile isWhitespace)
  let id ← requireParam params "id"
  rejectIf (id = "") (Error.other "Empty 'id' parameter")
  let realm ← requireParam params "realm"
  let method ← requireParam params "method"
  rejectIf (¬ isValidMethod method)
    (Error.other s!"Invalid method: \"{method}\". Must be lowercase ASCII.")
  let intent ← requireParam params "intent"
  let request ← requireParam params "request"
  let requestBytes ← okOrElse (base64urlDecode crates request) (Error.other "Invalid base64url: ")
  let _value ← okOrElse (crates.parseJson requestBytes)
    (Error.other "Invalid JSON in request field: ")
  return {
    id
    realm
    method := method.toLower
    intent := intent.toLower
    request
    expires := params.lookup "expires"
    description := params.lookup "description"
    digest := params.lookup "digest"
    opaqueData := params.lookup "opaque" }

/-- `parse_www_authenticate_all`. -/
def parseWwwAuthenticateAll (crates : Crates) (headers : List (List Char)) :
    List (RustResult Error PaymentChallenge) :=
  (headers.flatMap splitPaymentChallengeValues).map (parseWwwAuthenticate crates)

/-! ## What is written -/

/-- A character of a value inside quotes. -/
def escapeChar (c : Char) : List Char :=
  if c = '\\' then ['\\', '\\'] else if c = '"' then ['\\', '"'] else [c]

/-- A value inside quotes. -/
def escaped (s : String) : List Char := s.toList.flatMap escapeChar

/-- A parameter as it is written. -/
def paramText (param : String × String) : List Char :=
  param.1.toList ++ '=' :: '"' :: (escaped param.2 ++ ['"'])

/-- The value can be written: it has no line end. -/
def Writable (s : String) : Prop := '\r' ∉ s.toList ∧ '\n' ∉ s.toList

instance (s : String) : Decidable (Writable s) := inferInstanceAs (Decidable (_ ∧ _))

theorem escapeQuotedValue_eq {s : String} (h : Writable s) : escapeQuotedValue s = .ok (escaped s) := by
  have hfree : ¬ ('\r' ∈ s.toList ∨ '\n' ∈ s.toList) := not_or.mpr h
  rw [escapeQuotedValue, if_neg hfree]
  refine congrArg Except.ok ((List.flatMap_assoc ..).trans (List.flatMap_congr fun c _ => ?_))
  unfold escapeChar
  by_cases hbackslash : c = '\\'
  · rw [if_pos hbackslash, if_pos hbackslash]
    rfl
  · rw [if_neg hbackslash, if_neg hbackslash, List.flatMap_singleton]

theorem mapM_formatParam {params : List (String × String)} (h : ∀ param ∈ params, Writable param.2) :
    params.mapM formatParam = .ok (params.map paramText) := by
  induction params with
  | nil => rfl
  | cons param params ih =>
    obtain ⟨hparam, hparams⟩ := List.forall_mem_cons.mp h
    rw [List.mapM_cons, ih hparams, formatParam, escapeQuotedValue_eq hparam]
    rfl

/-- **Unescaping undoes escaping.** -/
theorem readQuoted_escaped (s : String) (rest : List Char) :
    readQuoted (escaped s ++ '"' :: rest) = (s.toList, rest) := by
  unfold escaped
  induction s.toList with
  | nil => rfl
  | cons c cs ih =>
    rw [List.flatMap_cons, List.append_assoc]
    by_cases hbackslash : c = '\\'
    · subst hbackslash
      exact Prod.ext (congrArg (List.cons _) (Prod.ext_iff.mp ih).1) (Prod.ext_iff.mp ih).2
    · by_cases hquote : c = '"'
      · subst hquote
        exact Prod.ext (congrArg (List.cons _) (Prod.ext_iff.mp ih).1) (Prod.ext_iff.mp ih).2
      · rw [escapeChar, if_neg hbackslash, if_neg hquote, List.singleton_append]
        rw [readQuoted.eq_def]
        split
        · next h => cases h
        · next h => exact absurd (List.cons.inj h).1 hquote
        · next h => exact absurd (List.cons.inj h).1 hbackslash
        · next h =>
          obtain ⟨rfl, rfl⟩ := List.cons.inj h
          rw [ih]

/-! ## No scheme starts inside a challenge -/

/-- Outside of quotes, the text is passed without a start and ends outside of quotes. -/
def Passed (before text : List Char) : Prop :=
  ∀ rest, schemeStarts before false false 0 (text ++ rest) =
    schemeStarts (text.reverse ++ before) false false 0 rest

theorem Passed.append {before text text' : List Char} (h : Passed before text)
    (h' : Passed (text.reverse ++ before) text') : Passed before (text ++ text') := by
  intro rest
  rw [List.append_assoc, h, h', List.reverse_append, List.append_assoc]

theorem passed_char {before : List Char} {c : Char} (hquote : c ≠ '"')
    (hstart : ∀ rest, isPaymentSchemeStart before (c :: rest) = false) : Passed before [c] := by
  intro rest
  simp [schemeStarts, hquote, hstart]

/-- A scheme starts with the letter P. -/
theorem passed_of_ne {before : List Char} {c : Char} (hquote : c ≠ '"') (hp : c.toLower ≠ 'p') :
    Passed before [c] := by
  refine passed_char hquote fun rest => ?_
  have hne : eqIgnoreCase ((c :: rest).take PAYMENT_SCHEME.length) PAYMENT_SCHEME = false := by
    refine decide_eq_false fun h => hp ?_
    exact (List.cons.inj h).1
  simp [isPaymentSchemeStart, hne]

/-- A scheme starts after a comma, if it is not the first. -/
theorem passed_after {before : List Char} {b c : Char} (hquote : c ≠ '"')
    (hspace : isAsciiWhitespace b = false) (hcomma : b ≠ ',') : Passed (b :: before) [c] := by
  refine passed_char hquote fun rest => ?_
  simp [isPaymentSchemeStart, hspace, hcomma]

/-- The letters of a name. -/
def IsWord (name : String) : Prop :=
  ∃ c cs, name.toList = c :: cs ∧ c ≠ 'p' ∧ ∀ d ∈ c :: cs, d.isLower

theorem isLower_plain {c : Char} (h : c.isLower) :
    c ≠ '"' ∧ c ≠ ',' ∧ c ≠ '=' ∧ isAsciiWhitespace c = false ∧ isWhitespace c = false ∧
      c.toLower = c := by
  have hrange : 'a'.val.toNat ≤ c.val.toNat ∧ c.val.toNat ≤ 'z'.val.toNat := by
    have hbounds : (decide ('a'.val ≤ c.val) && decide (c.val ≤ 'z'.val)) = true := h
    simpa only [UInt32.le_iff_toNat_le, Bool.and_eq_true, decide_eq_true_eq] using hbounds
  obtain ⟨hlow, hhigh⟩ : 97 ≤ c.toNat ∧ c.toNat ≤ 122 := hrange
  have hne : ∀ d : Char, d.toNat < 97 → c ≠ d := by
    rintro d hd rfl
    omega
  refine ⟨hne _ (by decide), hne _ (by decide), hne _ (by decide), ?_, ?_, ?_⟩
  · refine decide_eq_false fun hmem => ?_
    simp only [List.mem_cons, List.not_mem_nil, or_false] at hmem
    rcases hmem with h | h | h | h | h <;> exact hne _ (by decide) h
  · simp only [isWhitespace, decide_eq_false_iff_not, List.mem_cons, List.not_mem_nil, or_false]
    omega
  · refine dif_neg fun hupper => ?_
    simp only [UInt32.le_iff_toNat_le, ge_iff_le] at hupper
    exact absurd (hlow.trans hupper.2) (by decide)

theorem passed_letters {b : Char} (hb : b.isLower) : ∀ {before cs : List Char},
    (∀ d ∈ cs, d.isLower) → Passed (b :: before) cs := by
  intro before cs hcs
  induction cs generalizing b before with
  | nil => exact fun rest => rfl
  | cons c cs ih =>
    obtain ⟨hc, hcs⟩ := List.forall_mem_cons.mp hcs
    have hplain := isLower_plain hb
    have hfirst : Passed (b :: before) [c] :=
      passed_after (isLower_plain hc).1 hplain.2.2.2.1 hplain.2.1
    exact hfirst.append (ih hc hcs)

/-- Inside quotes nothing starts. -/
theorem schemeStarts_escaped (s : String) (before rest : List Char) :
    schemeStarts before true false 0 (escaped s ++ '"' :: rest) =
      schemeStarts ('"' :: ((escaped s).reverse ++ before)) false false 0 rest := by
  unfold escaped
  induction s.toList generalizing before with
  | nil => simp [schemeStarts]
  | cons c cs ih =>
    rw [List.flatMap_cons, List.append_assoc, List.reverse_append, List.append_assoc, ← ih]
    by_cases hbackslash : c = '\\'
    · subst hbackslash
      simp [escapeChar, schemeStarts]
    · by_cases hquote : c = '"'
      · subst hquote
        simp [escapeChar, schemeStarts]
      · simp [escapeChar, schemeStarts, hbackslash, hquote]

theorem passed_quoted (s : String) (before : List Char) :
    Passed before ('"' :: (escaped s ++ ['"'])) := by
  intro rest
  rw [List.cons_append, List.append_assoc, List.singleton_append, List.reverse_cons,
    List.reverse_append]
  simp only [schemeStarts, if_true, if_false, Bool.false_eq_true]
  rw [schemeStarts_escaped]
  simp

theorem passed_param {param : String × String} (hname : IsWord param.1) (before : List Char) :
    Passed before (paramText param) := by
  obtain ⟨c, cs, hchars, hp, hlower⟩ := hname
  obtain ⟨hc, hcs⟩ := List.forall_mem_cons.mp hlower
  have hplain := isLower_plain hc
  have hfirst : Passed before [c] := passed_of_ne hplain.1 (by rwa [hplain.2.2.2.2.2])
  have hword : Passed before (c :: cs) := hfirst.append (passed_letters hc hcs)
  have hequals : Passed ((c :: cs).reverse ++ before) ['='] := passed_of_ne (by decide) (by decide)
  have hquoted := passed_quoted param.2 (['='].reverse ++ ((c :: cs).reverse ++ before))
  rw [paramText, hchars]
  exact hword.append (hequals.append hquoted)

theorem passed_gap (before : List Char) : Passed before [',', ' '] := by
  have hcomma : Passed before [','] := passed_of_ne (by decide) (by decide)
  have hspace : Passed ([','].reverse ++ before) [' '] := passed_of_ne (by decide) (by decide)
  exact hcomma.append hspace

theorem passed_params {params : List (String × String)} (h : ∀ param ∈ params, IsWord param.1)
    (before : List Char) : Passed before ([',', ' '].intercalate (params.map paramText)) := by
  induction params generalizing before with
  | nil => exact fun rest => rfl
  | cons param params ih =>
    obtain ⟨hparam, hparams⟩ := List.forall_mem_cons.mp h
    rcases params with _ | ⟨next, params⟩
    · simpa using passed_param hparam before
    · rw [List.map_cons, List.map_cons, List.intercalate_cons_cons, ← List.map_cons]
      exact ((passed_param hparam before).append (passed_gap _)).append (ih hparams _)

/-! ## Cutting what is written -/

/-- A challenge as it is written. -/
def challengeText (challenge : PaymentChallenge) : List Char :=
  PAYMENT_SCHEME ++ ' ' :: [',', ' '].intercalate (challenge.params.map paramText)

/-- A header of several challenges. -/
def headerText (challenges : List PaymentChallenge) : List Char :=
  [',', ' '].intercalate (challenges.map challengeText)

theorem params_isWord (challenge : PaymentChallenge) : ∀ param ∈ challenge.params, IsWord param.1 := by
  have hnames : ∀ param ∈ challenge.params, param.1 ∈ ["id", "realm", "method", "intent", "request",
      "expires", "digest", "opaque"] := by
    simp [PaymentChallenge.params, or_imp, forall_and]
  have hwords : ∀ name ∈ ["id", "realm", "method", "intent", "request", "expires", "digest",
      "opaque"], IsWord name := by
    simp only [List.forall_mem_cons, List.not_mem_nil, false_implies, implies_true, and_true]
    refine ⟨?_, ?_, ?_, ?_, ?_, ?_, ?_, ?_⟩ <;>
      exact ⟨_, _, rfl, by decide, List.all_eq_true.mp (by decide)⟩
  exact fun param hparam => hwords _ (hnames param hparam)

theorem schemeStarts_scheme {before : List Char} (rest : List Char)
    (hbefore : ((before.dropWhile isAsciiWhitespace).head?).all (· = ',')) :
    schemeStarts before false false 0 (PAYMENT_SCHEME ++ ' ' :: rest) =
      before.length :: schemeStarts ((PAYMENT_SCHEME ++ [' ']).reverse ++ before) false false 0 rest := by
  have hstart : isPaymentSchemeStart before (PAYMENT_SCHEME ++ ' ' :: rest) = true := by
    have hlength : PAYMENT_SCHEME.length < (PAYMENT_SCHEME ++ ' ' :: rest).length := by simp
    have hscheme : eqIgnoreCase ((PAYMENT_SCHEME ++ ' ' :: rest).take PAYMENT_SCHEME.length)
        PAYMENT_SCHEME = true := by
      rw [List.take_left]
      rfl
    have hspace : ((PAYMENT_SCHEME ++ ' ' :: rest)[PAYMENT_SCHEME.length]?).any isAsciiWhitespace := by
      rw [List.getElem?_append_right (Nat.le_refl _), Nat.sub_self]
      rfl
    exact decide_eq_true ⟨hlength, hscheme, hspace, hbefore⟩
  have hP : PAYMENT_SCHEME = ['P', 'a', 'y', 'm', 'e', 'n', 't'] := rfl
  rw [hP] at hstart ⊢
  have hspace : Passed (['P', 'a', 'y', 'm', 'e', 'n', 't'].reverse ++ before) [' '] :=
    passed_of_ne (by decide) (by decide)
  rw [List.reverse_append, List.append_assoc, ← hspace rest]
  have hstart : isPaymentSchemeStart before ('P' :: (['a', 'y', 'm', 'e', 'n', 't'] ++ ' ' :: rest)) =
      true := hstart
  rw [List.cons_append, schemeStarts.eq_def]
  simp only [Bool.false_eq_true, if_false]
  rw [if_neg (by decide), if_pos hstart]
  rfl

/-- A challenge has one start, and the header goes on outside of quotes. -/
theorem schemeStarts_challenge {before : List Char} (challenge : PaymentChallenge) (rest : List Char)
    (hbefore : ((before.dropWhile isAsciiWhitespace).head?).all (· = ',')) :
    schemeStarts before false false 0 (challengeText challenge ++ rest) =
      before.length :: schemeStarts ((challengeText challenge).reverse ++ before) false false 0 rest := by
  have hparams := passed_params (params_isWord challenge)
    ((PAYMENT_SCHEME ++ [' ']).reverse ++ before) rest
  rw [challengeText, List.append_assoc, List.cons_append, schemeStarts_scheme _ hbefore, hparams]
  simp

/-- The pieces of a header, before they are trimmed. -/
def pieces : List PaymentChallenge → List (List Char)
  | [] => []
  | [challenge] => [challengeText challenge]
  | challenge :: next :: challenges =>
      (challengeText challenge ++ [',', ' ']) :: pieces (next :: challenges)

theorem piecesAt_header (challenges : List PaymentChallenge) : ∀ (challenge : PaymentChallenge)
    (before : List Char), ((before.dropWhile isAsciiWhitespace).head?).all (· = ',') →
    piecesAt (before.reverse ++ headerText (challenge :: challenges))
        (schemeStarts before false false 0 (headerText (challenge :: challenges))) =
      pieces (challenge :: challenges) := by
  induction challenges with
  | nil =>
    intro challenge before hbefore
    have hstarts := schemeStarts_challenge challenge [] hbefore
    rw [List.append_nil] at hstarts
    simp only [headerText, List.map_cons, List.map_nil, List.intercalate_singleton, hstarts,
      schemeStarts, piecesAt, pieces, List.drop_left' List.length_reverse]
  | cons next challenges ih =>
    intro challenge before hbefore
    have hheader : headerText (challenge :: next :: challenges) =
        challengeText challenge ++ ([',', ' '] ++ headerText (next :: challenges)) := by
      simp [headerText, List.intercalate_cons_cons]
    have hgap := passed_gap ((challengeText challenge).reverse ++ before)
      (headerText (next :: challenges))
    -- the next challenge starts after a comma and a space
    have hafter : (((([',', ' '].reverse ++ ((challengeText challenge).reverse ++ before)).dropWhile
        isAsciiWhitespace).head?).all (· = ',')) := rfl
    have hrest := ih next _ hafter
    obtain ⟨rest, hnext⟩ : ∃ rest, headerText (next :: challenges) = challengeText next ++ rest := by
      rcases challenges with _ | ⟨c, cs⟩
      · exact ⟨[], by simp [headerText]⟩
      · exact ⟨_, by rw [headerText, List.map_cons, List.map_cons, List.intercalate_cons_cons,
          List.append_assoc]⟩
    have hstarts := schemeStarts_challenge next rest hafter
    rw [← hnext] at hstarts
    have hheaders : ([',', ' '].reverse ++ ((challengeText challenge).reverse ++ before)).reverse ++
        headerText (next :: challenges) =
        before.reverse ++ (challengeText challenge ++ ([',', ' '] ++ headerText (next :: challenges))) := by
      simp
    have hlength : (challengeText challenge ++ [',', ' ']).length =
        ([',', ' '].reverse ++ ((challengeText challenge).reverse ++ before)).length -
          before.length := by
      simp only [List.length_append, List.length_reverse]
      omega
    have htake : (challengeText challenge ++ ([',', ' '] ++ headerText (next :: challenges))).take
        (([',', ' '].reverse ++ ((challengeText challenge).reverse ++ before)).length - before.length) =
          challengeText challenge ++ [',', ' '] :=
      (congrArg (List.take _) (List.append_assoc ..).symm).trans (List.take_left' hlength)
    rw [hheader, schemeStarts_challenge _ _ hbefore, hgap, hstarts, piecesAt, pieces, ← hrest, hstarts,
      hheaders, List.drop_left' List.length_reverse, htake]

/-- What is written ends with a quote. -/
theorem exists_challengeText_eq (challenge : PaymentChallenge) :
    ∃ cs, challengeText challenge = 'P' :: (cs ++ ['"']) := by
  have hlast : ∀ params : List (String × String), params ≠ [] →
      ∃ cs, [',', ' '].intercalate (params.map paramText) = cs ++ ['"'] := by
    intro params hne
    induction params with
    | nil => exact absurd rfl hne
    | cons param params ih =>
      have hparam : paramText param = (param.1.toList ++ '=' :: '"' :: escaped param.2) ++ ['"'] := by
        simp [paramText]
      rcases params with _ | ⟨next, params⟩
      · exact ⟨_, by rw [List.map_cons, List.map_nil, List.intercalate_singleton, hparam]⟩
      · obtain ⟨cs, hcs⟩ := ih (List.cons_ne_nil _ _)
        rw [List.map_cons] at hcs
        exact ⟨_, by rw [List.map_cons, List.map_cons, List.intercalate_cons_cons, hcs,
          ← List.append_assoc]⟩
  obtain ⟨cs, hcs⟩ := hlast challenge.params (by simp [PaymentChallenge.params])
  exact ⟨['a', 'y', 'm', 'e', 'n', 't', ' '] ++ cs, by rw [challengeText, hcs]; rfl⟩

theorem trimMatches_challengeText (challenge : PaymentChallenge) :
    trimMatches isWhitespace (challengeText challenge) = challengeText challenge := by
  obtain ⟨cs, hcs⟩ := exists_challengeText_eq challenge
  rw [hcs]
  refine trimMatches_eq_self (fun c hc => ?_) fun c hc => ?_
  · cases hc
    rfl
  · rw [← List.cons_append, List.getLast?_concat] at hc
    cases hc
    rfl

theorem trimPiece_challengeText (challenge : PaymentChallenge) :
    trimPiece (challengeText challenge) = challengeText challenge := by
  obtain ⟨cs, hcs⟩ := exists_challengeText_eq challenge
  have hcommas : ((challengeText challenge).reverse.dropWhile (· = ',')).reverse =
      challengeText challenge := by
    rw [hcs]
    simp
  rw [trimPiece, trimMatches_challengeText, hcommas, trimMatches_challengeText]

theorem trimPiece_gap (challenge : PaymentChallenge) :
    trimPiece (challengeText challenge ++ [',', ' ']) = challengeText challenge := by
  obtain ⟨cs, hcs⟩ := exists_challengeText_eq challenge
  have hspace : trimMatches isWhitespace (challengeText challenge ++ [',', ' ']) =
      challengeText challenge ++ [','] := by
    have hhead : (challengeText challenge ++ [',', ' ']).dropWhile isWhitespace =
        challengeText challenge ++ [',', ' '] := by
      rw [hcs]
      refine dropWhile_of_head fun c hc => ?_
      cases hc
      rfl
    have hend : ([',', ' '].reverse ++ (challengeText challenge).reverse).dropWhile isWhitespace =
        ',' :: (challengeText challenge).reverse := rfl
    rw [trimMatches, hhead, List.reverse_append, hend, List.reverse_cons, List.reverse_reverse]
  have hcommas : ((challengeText challenge ++ [',']).reverse.dropWhile (· = ',')).reverse =
      challengeText challenge := by
    rw [hcs]
    simp
  rw [trimPiece, hspace, hcommas, trimMatches_challengeText]

/-- **The cut undoes the join.** -/
theorem splitPaymentChallengeValues_header (challenges : List PaymentChallenge) :
    splitPaymentChallengeValues (headerText challenges) = challenges.map challengeText := by
  have htrim : (pieces challenges).map trimPiece = challenges.map challengeText := by
    induction challenges with
    | nil => rfl
    | cons challenge challenges ih =>
      rcases challenges with _ | ⟨next, challenges⟩
      · rw [pieces, List.map_singleton, List.map_singleton, trimPiece_challengeText]
      · rw [pieces, List.map_cons, List.map_cons, trimPiece_gap, ih]
  have hpieces : piecesAt (headerText challenges) (schemeStarts [] false false 0 (headerText challenges)) =
      pieces challenges := by
    rcases challenges with _ | ⟨challenge, challenges⟩
    · rfl
    · exact piecesAt_header challenges challenge [] rfl
  rw [splitPaymentChallengeValues, hpieces, htrim, List.filter_eq_self]
  intro text htext
  obtain ⟨challenge, -, rfl⟩ := List.mem_map.mp htext
  obtain ⟨cs, hcs⟩ := exists_challengeText_eq challenge
  simp [hcs]

/-! ## Reading what is written -/

theorem parseAuthParams_gap (params : List (String × String)) (cs : List Char) :
    parseAuthParams params (',' :: ' ' :: cs) = parseAuthParams params cs := by
  rw [parseAuthParams.eq_def params (',' :: ' ' :: cs), parseAuthParams.eq_def params cs]
  rfl

/-- A parameter that is written is read. -/
theorem parseAuthParams_param {params : List (String × String)} {param : String × String}
    (hname : IsWord param.1) (hnew : param.1 ∉ params.map Prod.fst) (rest : List Char) :
    parseAuthParams params (paramText param ++ rest) = parseAuthParams (params ++ [param]) rest := by
  obtain ⟨c, cs, hchars, -, hlower⟩ := hname
  have hkeep : ∀ d ∈ c :: cs, isGap d = false ∧ isKeyChar d = true := by
    intro d hd
    obtain ⟨-, hcomma, hequals, -, hspace, -⟩ := isLower_plain (hlower d hd)
    simp [isGap, isKeyChar, hcomma, hequals, hspace]
  have htext : paramText param ++ rest =
      (c :: cs) ++ '=' :: '"' :: (escaped param.2 ++ '"' :: rest) := by
    simp [paramText, hchars]
  have hstart : (paramText param ++ rest).dropWhile isGap =
      c :: (cs ++ '=' :: '"' :: (escaped param.2 ++ '"' :: rest)) := by
    rw [htext, List.cons_append,
      List.dropWhile_cons_of_neg (by rw [(hkeep c List.mem_cons_self).1]; exact Bool.false_ne_true)]
  have hkey : (c :: (cs ++ '=' :: '"' :: (escaped param.2 ++ '"' :: rest))).dropWhile isKeyChar =
      '=' :: '"' :: (escaped param.2 ++ '"' :: rest) := by
    rw [← List.cons_append, List.dropWhile_append_of_pos fun d hd => (hkeep d hd).2]
    rfl
  have hword : String.ofList ((c :: (cs ++ '=' :: '"' :: (escaped param.2 ++ '"' :: rest))).takeWhile
      isKeyChar) = param.1 := by
    rw [← List.cons_append, List.takeWhile_append_of_pos fun d hd => (hkeep d hd).2, ← hchars]
    have hequals : ('=' :: '"' :: (escaped param.2 ++ '"' :: rest)).takeWhile isKeyChar = [] := rfl
    rw [hequals, List.append_nil, String.ofList_toList]
  have hvalue : readValue ('"' :: (escaped param.2 ++ '"' :: rest)) = (param.2.toList, rest) :=
    readQuoted_escaped param.2 rest
  rw [parseAuthParams.eq_def]
  split
  · next h => cases hstart.symm.trans h
  · next d tail h =>
    obtain ⟨rfl, rfl⟩ := List.cons.inj (hstart.symm.trans h)
    split
    · next h => cases hkey.symm.trans h
    · next d after h =>
      obtain ⟨rfl, rfl⟩ := List.cons.inj (hkey.symm.trans h)
      simp only [dif_pos, if_neg (List.cons_ne_nil _ _), hword, if_neg hnew, hvalue,
        String.ofList_toList]

theorem parseAuthParams_params {written : List (String × String)} : ∀ {params : List (String × String)},
    (∀ param ∈ written, IsWord param.1) → ((params ++ written).map Prod.fst).Nodup →
    parseAuthParams params ([',', ' '].intercalate (written.map paramText)) =
      .ok (params ++ written) := by
  induction written with
  | nil =>
    intro params _ _
    rw [parseAuthParams.eq_def, List.append_nil]
    rfl
  | cons param written ih =>
    intro params hwords hnodup
    obtain ⟨hparam, hwords⟩ := List.forall_mem_cons.mp hwords
    have hnew : param.1 ∉ params.map Prod.fst := by
      intro hmem
      rw [List.map_append, List.nodup_append] at hnodup
      exact hnodup.2.2 _ hmem _ List.mem_cons_self rfl
    have hnext : ((params ++ [param] ++ written).map Prod.fst).Nodup := by
      rwa [List.append_assoc]
    have ih := ih hwords hnext
    rcases written with _ | ⟨next, written⟩
    · have hread := parseAuthParams_param hparam hnew []
      rw [List.append_nil] at hread
      rw [List.map_singleton, List.intercalate_singleton, hread]
      exact ih.trans (by simp)
    · rw [List.map_cons, List.map_cons, List.intercalate_cons_cons, List.append_assoc,
        parseAuthParams_param hparam hnew, ← List.map_cons]
      exact (parseAuthParams_gap _ _).trans (ih.trans (by simp))

/-- What a challenge must be for its header to be read: it has an id, a method that is valid,
an intent in lower case, a request that decodes to JSON, and no line end in a value. -/
structure PaymentChallenge.WellFormed (crates : Crates) (challenge : PaymentChallenge) : Prop where
  id_ne : challenge.id ≠ ""
  method_valid : isValidMethod challenge.method = true
  intent_lower : challenge.intent.toLower = challenge.intent
  request_json : ∃ bytes value, base64urlDecode crates challenge.request = some bytes ∧
    crates.parseJson bytes = some value
  writable : ∀ param ∈ challenge.params, Writable param.2

theorem lookup_params (challenge : PaymentChallenge) :
    challenge.params.lookup "id" = some challenge.id ∧
      challenge.params.lookup "realm" = some challenge.realm ∧
      challenge.params.lookup "method" = some challenge.method ∧
      challenge.params.lookup "intent" = some challenge.intent ∧
      challenge.params.lookup "request" = some challenge.request ∧
      challenge.params.lookup "expires" = challenge.expires ∧
      challenge.params.lookup "description" = none ∧
      challenge.params.lookup "digest" = challenge.digest ∧
      challenge.params.lookup "opaque" = challenge.opaqueData := by
  obtain ⟨id, realm, method, intent, request, expires, description, digest, opaqueData⟩ := challenge
  rcases expires with _ | expires <;> rcases digest with _ | digest <;>
    rcases opaqueData with _ | opaqueData <;> exact ⟨rfl, rfl, rfl, rfl, rfl, rfl, rfl, rfl, rfl⟩

theorem nodup_params (challenge : PaymentChallenge) : (challenge.params.map Prod.fst).Nodup := by
  obtain ⟨id, realm, method, intent, request, expires, description, digest, opaqueData⟩ := challenge
  rcases expires with _ | expires <;> rcases digest with _ | digest <;>
    rcases opaqueData with _ | opaqueData <;> simp [PaymentChallenge.params]

/-- **A challenge is read back.** -/
theorem parseWwwAuthenticate_challengeText {crates : Crates} {challenge : PaymentChallenge}
    (h : challenge.WellFormed crates) :
    parseWwwAuthenticate crates (challengeText challenge) =
      .ok { challenge with description := none } := by
  have hscheme : stripPaymentScheme (challengeText challenge) =
      some (' ' :: [',', ' '].intercalate (challenge.params.map paramText)) := by
    have hhead : (challengeText challenge).dropWhile isWhitespace = challengeText challenge := by
      refine dropWhile_of_head fun c hc => ?_
      cases hc
      rfl
    rw [stripPaymentScheme, hhead, challengeText, List.take_left, List.drop_left]
    rfl
  have hspace : ([',', ' '].intercalate (challenge.params.map paramText)).dropWhile isWhitespace =
      [',', ' '].intercalate (challenge.params.map paramText) := by
    refine dropWhile_of_head fun c hc => ?_
    have hfirst : challenge.params =
        ("id", challenge.id) :: ("realm", challenge.realm) :: challenge.params.drop 2 := rfl
    have hhead : ([',', ' '].intercalate (challenge.params.map paramText)).head? = some 'i' := by
      rw [hfirst, List.map_cons, List.map_cons, List.intercalate_cons_cons, paramText,
        show "id".toList = ['i', 'd'] from rfl]
      rfl
    rw [hhead] at hc
    cases hc
    rfl
  have hparams : parseAuthParams [] ([',', ' '].intercalate (challenge.params.map paramText)) =
      .ok challenge.params :=
    parseAuthParams_params (params_isWord challenge) (by simpa using nodup_params challenge)
  obtain ⟨hid, hrealm, hmethod, hintent, hrequest, hexpires, hdescription, hdigest, hopaque⟩ :=
    lookup_params challenge
  obtain ⟨bytes, value, hbytes, hvalue⟩ := h.request_json
  have hlower : challenge.method.toLower = challenge.method := by
    have hall := (of_decide_eq_true h.method_valid).2
    rw [← String.toList_inj]
    show (challenge.method.map Char.toLower).toList = _
    rw [String.toList_map]
    refine (List.map_congr_left fun c hc => ?_).trans (List.map_id _)
    exact (isLower_plain (List.all_eq_true.mp hall c hc)).2.2.2.2.2
  simp only [parseWwwAuthenticate, hscheme, okOrElse, ok_bind, if_true, true_or, hspace, hparams,
    requireParam, hid, hrealm, hmethod, hintent, hrequest, rejectIf_neg h.id_ne, h.method_valid,
    rejectIf_neg (not_not.mpr trivial), hbytes, hvalue, hexpires, hdescription, hdigest, hopaque,
    h.intent_lower, hlower]
  rfl

/-- **Header list round trip.**  Challenges that are written into one header are read back
from it, in order, each without its description. -/
theorem parse_format_all (crates : Crates) (challenges : List PaymentChallenge)
    (h : ∀ challenge ∈ challenges, challenge.WellFormed crates) :
    ∃ rendered, challenges.mapM formatWwwAuthenticate = .ok rendered ∧
      parseWwwAuthenticateAll crates [[',', ' '].intercalate rendered] =
        challenges.map fun challenge => .ok { challenge with description := none } := by
  refine ⟨challenges.map challengeText, ?_, ?_⟩
  · induction challenges with
    | nil => rfl
    | cons challenge challenges ih =>
      obtain ⟨hchallenge, hchallenges⟩ := List.forall_mem_cons.mp h
      rw [List.mapM_cons, ih hchallenges, formatWwwAuthenticate, mapM_formatParam hchallenge.writable]
      rfl
  · rw [parseWwwAuthenticateAll, List.flatMap_singleton]
    have hsplit := splitPaymentChallengeValues_header challenges
    rw [headerText] at hsplit
    rw [hsplit, List.map_map]
    exact List.map_congr_left fun challenge hmem => parseWwwAuthenticate_challengeText (h challenge hmem)

namespace HeaderSample

/-- Values with everything that has a meaning in a header. -/
def challenges : List PaymentChallenge :=
  [{ id := "a, Payment id=\"b\\", realm := "\\\"", method := "solana", intent := "charge",
     request := "e30", description := some "dropped", opaqueData := some "" },
   { id := "2", realm := "", method := "solana", intent := "charge", request := "e30",
     expires := some ", Payment ", digest := some "=" }]

/-- Crates that know the request `{}`. -/
def crates : Crates where
  hmacSha256 := fun _ _ => []
  base64UrlEncode := fun _ => "e30"
  base64UrlDecode := fun s => if s = "e30" then some [123, 125] else none
  base64Decode := fun _ => none
  parseJson := fun bytes => if bytes = [123, 125] then some (.obj []) else none
  parseRfc3339 := fun _ => none
  formatRfc3339 := fun _ => none
  findProgramAddress := fun _ program => (program, 255)

theorem challenges_read_back : ∃ rendered, challenges.mapM formatWwwAuthenticate = .ok rendered ∧
    parseWwwAuthenticateAll crates [[',', ' '].intercalate rendered] =
      challenges.map fun challenge => .ok { challenge with description := none } := by
  refine parse_format_all crates challenges fun challenge hmem => ?_
  rcases List.mem_cons.mp hmem with rfl | hmem
  · exact ⟨by decide, by decide, by decide +kernel, ⟨[123, 125], .obj [], by decide, rfl⟩, by decide⟩
  · rcases List.mem_cons.mp hmem with rfl | hmem
    · exact ⟨by decide, by decide, by decide +kernel, ⟨[123, 125], .obj [], by decide, rfl⟩,
        by decide⟩
    · cases hmem

end HeaderSample
end MppSdk
