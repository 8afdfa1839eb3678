import Mathlib.Data.Bool.AllAny
import MppSdk.GoMixedSchemes
import MppSdk.Headers
import MppSdk.PyMixedSchemes

/-! # One header in three languages

A list of challenges that Rust writes into one header is read back by Rust, by Go and by Python:
each finds the same challenges in the same order, whatever quotes, commas and backslashes their
values have (`read_alike`). -/

namespace MppSdk

/-- Parts that are joined, each but the first behind the gap. -/
theorem intercalate_cons_eq_flatMap {α : Type} (gap part : List α) (parts : List (List α)) :
    gap.intercalate (part :: parts) = part ++ parts.flatMap fun next => gap ++ next := by
  induction parts generalizing part with
  | nil => simp
  | cons next parts ih =>
    rw [List.intercalate_cons_cons, ih next, List.flatMap_cons]
    simp only [List.append_assoc]

theorem params_eq_cons (challenge : PaymentChallenge) :
    challenge.params = ("id", challenge.id) :: challenge.params.tail := rfl

/-! ## Python -/

namespace Py

/-- The challenge in Python, where an absent field is an empty one. -/
def ofRust (challenge : MppSdk.PaymentChallenge) : PaymentChallenge where
  id := challenge.id
  realm := challenge.realm
  method := challenge.method
  intent := challenge.intent
  request := challenge.request
  expires := challenge.expires.getD ""
  digest := challenge.digest.getD ""
  opaqueData := challenge.opaqueData

/-- A challenge as Rust writes it, behind blanks. -/
def written (blank : List Char) (challenge : MppSdk.PaymentChallenge) : AuthChallenge where
  blank
  scheme := PAYMENT_SCHEME
  body := .quoted (writtenParam ("id", challenge.id)) (challenge.params.tail.map writtenParam)

/-- Challenges as Rust writes them into one header. -/
def writtenAll : List MppSdk.PaymentChallenge → List AuthChallenge
  | [] => []
  | challenge :: challenges => written [] challenge :: challenges.map (written [' '])

theorem written_text (blank : List Char) (challenge : MppSdk.PaymentChallenge) :
    (written blank challenge).text = challengeText challenge := by
  rw [challengeText, params_eq_cons, intercalate_paramText]
  rfl

theorem headerText_writtenAll (challenges : List MppSdk.PaymentChallenge) :
    headerText (writtenAll challenges) = MppSdk.headerText challenges := by
  cases challenges with
  | nil => rfl
  | cons challenge challenges =>
    rw [MppSdk.headerText, List.map_cons, intercalate_cons_eq_flatMap, List.flatMap_map]
    show (written [] challenge).text ++ tailText (challenges.map (written [' '])) = _
    rw [written_text, tailText, List.flatMap_map]
    refine congrArg _ (List.flatMap_congr fun next _ => ?_)
    rw [written_text]
    rfl

theorem isToken_params (challenge : MppSdk.PaymentChallenge) :
    ∀ param ∈ challenge.params, IsToken param.1.toList := by
  have hnames : ∀ param ∈ challenge.params, param.1 ∈ ["id", "realm", "method", "intent", "request",
      "expires", "digest", "opaque"] := by
    simp [MppSdk.PaymentChallenge.params, or_imp, forall_and]
  have htokens : ∀ name ∈ ["id", "realm", "method", "intent", "request", "expires", "digest",
      "opaque"], IsToken name.toList := by
    intro name hname
    simp only [List.mem_cons, List.not_mem_nil, or_false] at hname
    rcases hname with rfl | rfl | rfl | rfl | rfl | rfl | rfl | rfl <;> decide
  exact fun param hparam => htokens _ (hnames param hparam)

theorem written_wellFormed {blank : List Char} (hblank : ∀ b ∈ blank, isBlank b = true)
    (challenge : MppSdk.PaymentChallenge) : (written blank challenge).WellFormed where
  blank := hblank
  scheme := show IsToken PAYMENT_SCHEME by decide
  body := by
    have hnames := isToken_params challenge
    refine ⟨by simp [writtenParam], writtenParam_wellFormed (hnames _ List.mem_cons_self), ?_⟩
    intro p hp
    obtain ⟨param, hparam, rfl⟩ := List.mem_map.mp hp
    exact writtenParam_wellFormed (hnames param (List.mem_of_mem_tail hparam))

theorem writtenAll_wellFormed (challenges : List MppSdk.PaymentChallenge) :
    ∀ c ∈ writtenAll challenges, c.WellFormed ∧ c.IsPayment ∧ c.Seen := by
  have hone : ∀ blank : List Char, (∀ b ∈ blank, isBlank b = true) →
      ∀ challenge : MppSdk.PaymentChallenge, (written blank challenge).WellFormed ∧
        (written blank challenge).IsPayment ∧ (written blank challenge).Seen :=
    fun blank hblank challenge => ⟨written_wellFormed hblank challenge, rfl,
      seen_of_isPayment (c := written blank challenge) rfl rfl⟩
  cases challenges with
  | nil =>
    intro c hc
    cases hc
  | cons challenge challenges =>
    refine List.forall_mem_cons.mpr ⟨hone [] (List.forall_mem_nil _) challenge, ?_⟩
    intro c hc
    obtain ⟨next, -, rfl⟩ := List.mem_map.mp hc
    exact hone [' '] (List.all_iff_forall_prop.mp (by decide)) next

/-- Challenges that are all seen are each read by themselves. -/
theorem groups_of_seen {header : List AuthChallenge} (h : ∀ c ∈ header, c.Seen) :
    groups header = header.map fun c => (c, []) := by
  induction header with
  | nil => rfl
  | cons c header ih =>
    obtain ⟨hc, hheader⟩ := List.forall_mem_cons.mp h
    have hnone : header.takeWhile (fun d => ¬ d.Seen) = [] := by
      cases header with
      | nil => rfl
      | cons d header => simp [hheader d List.mem_cons_self]
    rw [groups_cons, if_pos hc, hnone, ih hheader]
    rfl

section Reading
variable {loads : List UInt8 → Raises Json} {letters : Char → Bool}

theorem parseWwwAuthenticate_challengeText {challenge : MppSdk.PaymentChallenge}
    (hid : challenge.id ≠ "") (hmethod : isValidMethod challenge.method = true)
    (hrequest : ∃ bytes value, base64UrlDecode challenge.request = .ok bytes ∧
      loads bytes = .ok value) :
    parseWwwAuthenticate loads (challengeText challenge) = .ok (ofRust challenge) := by
  have hgroup : challengeText challenge = groupText (written [] challenge) [] := by
    rw [groupText, show tailText [] = [] from rfl, List.append_nil, written_text]
  have hfields : (writtenParam ("id", challenge.id) :: challenge.params.tail.map writtenParam).map
      AuthParam.field ++ swallowedFields [] = challenge.params := by
    rw [List.map_cons, List.map_map, show swallowedFields [] = [] from rfl, List.append_nil,
      writtenParam_field]
    refine congrArg (("id", challenge.id) :: ·) ((List.map_congr_left fun param _ => ?_).trans
      (List.map_id _))
    exact writtenParam_field param
  have hcollect : collect [] challenge.params = .ok challenge.params :=
    (@collect_eq_ok challenge.params [] _ List.nodup_nil).mpr ⟨nodup_params challenge, rfl⟩
  obtain ⟨hid', hrealm, hmethod', hintent, hrequest', hexpires, hdescription, hdigest, hopaque⟩ :=
    MppSdk.lookup_params challenge
  obtain ⟨bytes, value, hbytes, hvalue⟩ := hrequest
  rw [hgroup, parseWwwAuthenticate_groupText
    (written_wellFormed (List.forall_mem_nil _) challenge) rfl rfl (by simp), hfields, hcollect,
    ok_bind]
  simp only [challengeOf, requireParam, hid', hrealm, hmethod', hintent, hrequest', okOrElse,
    ok_bind, rejectIf_neg hid, hmethod, not_true_eq_false, rejectIf_neg not_false, hbytes, hvalue,
    orParseError, mapErr, hexpires, hdescription, hdigest, hopaque]
  rfl

theorem parseWwwAuthenticateAll_headerText {challenges : List MppSdk.PaymentChallenge}
    (h : ∀ challenge ∈ challenges, challenge.id ≠ "" ∧ isValidMethod challenge.method = true ∧
      ∃ bytes value, base64UrlDecode challenge.request = .ok bytes ∧ loads bytes = .ok value) :
    parseWwwAuthenticateAll loads letters [MppSdk.headerText challenges] =
      challenges.map ofRust := by
  have hall := writtenAll_wellFormed challenges
  -- every challenge is a group of its own, as none is swallowed by the one before
  have hfilter : (groups (writtenAll challenges)).filter (fun g => g.1.IsPayment) =
      (writtenAll challenges).map fun c => (c, []) := by
    rw [groups_of_seen fun c hc => (hall c hc).2.2]
    refine List.filter_eq_self.mpr fun g hg => ?_
    obtain ⟨c, hc, rfl⟩ := List.mem_map.mp hg
    exact decide_eq_true (hall c hc).2.1
  have hread : ∀ blank, ∀ challenge ∈ challenges,
      (parseWwwAuthenticate loads (groupText (written blank challenge) [])).toOption.toList =
        [ofRust challenge] := by
    intro blank challenge hmem
    obtain ⟨hid, hmethod, hrequest⟩ := h challenge hmem
    rw [groupText, show tailText [] = [] from rfl, List.append_nil, written_text,
      parseWwwAuthenticate_challengeText hid hmethod hrequest]
    rfl
  rw [← headerText_writtenAll, parseWwwAuthenticateAll_header fun c hc => (hall c hc).1, hfilter,
    List.flatMap_map]
  cases challenges with
  | nil => rfl
  | cons challenge challenges =>
    rw [writtenAll, List.flatMap_cons, hread [] challenge List.mem_cons_self, List.flatMap_map,
      List.flatMap_congr fun next hnext => hread [' '] next (List.mem_cons_of_mem _ hnext),
      List.map_cons]
    refine congrArg (ofRust challenge :: ·) ?_
    exact List.map_eq_flatMap.symm

end Reading

end Py

/-! ## Go -/

namespace Go

/-- The challenge in Go, where an absent field is an empty one. -/
def ofRust (challenge : MppSdk.PaymentChallenge) : PaymentChallenge where
  id := challenge.id
  realm := challenge.realm
  method := challenge.method
  intent := challenge.intent
  request := challenge.request
  expires := challenge.expires.getD ""
  description := ""
  digest := challenge.digest.getD ""
  opaqueData := challenge.opaqueData

/-- A parameter as Rust writes it, behind a space. -/
def writtenParam (param : String × String) : AuthParam where
  blank := [' ']
  name := param.1.toList
  value := .quoted (param.2.toList.map fun c => (c, c = '\\' ∨ c = '"'))

/-- A challenge as Rust writes it, behind blanks. -/
def written (blank : List Char) (challenge : MppSdk.PaymentChallenge) : AuthChallenge where
  blank
  scheme := paymentScheme
  first := writtenParam ("id", challenge.id)
  rest := challenge.params.tail.map writtenParam

/-- Challenges as Rust writes them into one header. -/
def writtenAll : List MppSdk.PaymentChallenge → List AuthChallenge
  | [] => []
  | challenge :: challenges => written [] challenge :: challenges.map (written [' '])

theorem writtenParam_text (param : String × String) :
    (writtenParam param).text = ' ' :: paramText param := by
  have hchars : (param.2.toList.map fun c => (c, decide (c = '\\' ∨ c = '"'))).flatMap
      AuthValue.quotedChar = escaped param.2 := by
    rw [List.flatMap_map, escaped]
    refine List.flatMap_congr fun c _ => ?_
    unfold AuthValue.quotedChar escapeChar
    by_cases hbackslash : c = '\\'
    · simp [hbackslash]
    · by_cases hquote : c = '"'
      · simp [hquote]
      · simp [hbackslash, hquote]
  rw [AuthParam.text, writtenParam, AuthValue.text, hchars]
  rfl

theorem written_text (blank : List Char) (challenge : MppSdk.PaymentChallenge) :
    (written blank challenge).text = challengeText challenge := by
  rw [challengeText, params_eq_cons, List.map_cons, intercalate_cons_eq_flatMap, List.flatMap_map,
    AuthChallenge.text, written, writtenParam_text, List.flatMap_map]
  refine congrArg (fun rest => paymentScheme ++ (' ' :: paramText ("id", challenge.id) ++ rest)) ?_
  refine List.flatMap_congr fun param _ => ?_
  rw [writtenParam_text]
  rfl

theorem headerText_writtenAll (challenges : List MppSdk.PaymentChallenge) :
    headerText (writtenAll challenges) = MppSdk.headerText challenges := by
  cases challenges with
  | nil => rfl
  | cons challenge challenges =>
    rw [MppSdk.headerText, List.map_cons, intercalate_cons_eq_flatMap, List.flatMap_map]
    show (written [] challenge).text ++ tailText (challenges.map (written [' '])) = _
    rw [written_text, tailText, List.flatMap_map]
    refine congrArg _ (List.flatMap_congr fun next _ => ?_)
    rw [written_text]
    rfl

theorem writtenParam_wellFormed {param : String × String} (h : IsToken param.1.toList) :
    (writtenParam param).WellFormed where
  blank := List.forall_mem_singleton.mpr rfl
  name := h
  value := by
    intro c hc hplain
    obtain ⟨d, -, rfl⟩ := List.mem_map.mp hc
    have hnot : ¬ (d = '\\' ∨ d = '"') := of_decide_eq_false hplain
    exact ⟨fun hquote => hnot (Or.inr hquote), fun hbackslash => hnot (Or.inl hbackslash)⟩

theorem isToken_params (challenge : MppSdk.PaymentChallenge) :
    ∀ param ∈ challenge.params, IsToken param.1.toList := by
  have hnames : ∀ param ∈ challenge.params, param.1 ∈ ["id", "realm", "method", "intent", "request",
      "expires", "digest", "opaque"] := by
    simp [MppSdk.PaymentChallenge.params, or_imp, forall_and]
  have htokens : ∀ name ∈ ["id", "realm", "method", "intent", "request", "expires", "digest",
      "opaque"], IsToken name.toList := by
    intro name hname
    simp only [List.mem_cons, List.not_mem_nil, or_false] at hname
    rcases hname with rfl | rfl | rfl | rfl | rfl | rfl | rfl | rfl <;>
      exact ⟨by decide, List.all_iff_forall_prop.mp (by decide)⟩
  exact fun param hparam => htokens _ (hnames param hparam)

theorem written_wellFormed {blank : List Char} (hblank : ∀ b ∈ blank, isBlank b = true)
    (challenge : MppSdk.PaymentChallenge) : (written blank challenge).WellFormed where
  blank := hblank
  scheme := show IsToken paymentScheme from
    ⟨by decide, List.all_iff_forall_prop.mp (by decide)⟩
  gap := List.cons_ne_nil _ _
  first := writtenParam_wellFormed (isToken_params challenge _ List.mem_cons_self)
  rest := by
    intro p hp
    obtain ⟨param, hparam, rfl⟩ := List.mem_map.mp hp
    exact writtenParam_wellFormed (isToken_params challenge param (List.mem_of_mem_tail hparam))

theorem writtenAll_wellFormed (challenges : List MppSdk.PaymentChallenge) :
    ∀ c ∈ writtenAll challenges, c.WellFormed ∧ c.IsPayment := by
  cases challenges with
  | nil =>
    intro c hc
    cases hc
  | cons challenge challenges =>
    refine List.forall_mem_cons.mpr
      ⟨⟨written_wellFormed (List.forall_mem_nil _) challenge, rfl⟩, ?_⟩
    intro c hc
    obtain ⟨next, -, rfl⟩ := List.mem_map.mp hc
    exact ⟨written_wellFormed (List.all_iff_forall_prop.mp (by decide)) next, rfl⟩

/-- Payment challenges are each read by themselves. -/
theorem swallowed_of_payment {header : List AuthChallenge} (h : ∀ c ∈ header, c.IsPayment) :
    swallowed header = header.map fun c => (c, []) := by
  induction header with
  | nil => rfl
  | cons c header ih =>
    obtain ⟨hc, hheader⟩ := List.forall_mem_cons.mp h
    have hnone : header.takeWhile (fun d => ¬ d.IsPayment) = [] := by
      cases header with
      | nil => rfl
      | cons d header => simp [hheader d List.mem_cons_self]
    rw [swallowed, if_pos hc, hnone, ih hheader, ite_self]
    rfl

theorem fields_written (blank : List Char) (challenge : MppSdk.PaymentChallenge) :
    fields (valueParams (written blank challenge) []) =
      challenge.params.map fun param => (param.1.toList, param.2.toList) := by
  have hvalue : ∀ param : String × String,
      ((writtenParam param).name, (writtenParam param).value.value) =
        (param.1.toList, param.2.toList) := by
    intro param
    refine Prod.ext rfl ?_
    show (param.2.toList.map fun c => (c, decide (c = '\\' ∨ c = '"'))).map Prod.fst =
      param.2.toList
    rw [List.map_map]
    exact List.map_id _
  rw [params_eq_cons, List.map_cons, ← hvalue]
  refine congrArg (_ :: ·) ?_
  rw [List.flatMap_nil, List.append_nil, written, List.map_map]
  exact List.map_congr_left fun param _ => hvalue param

/-- A parameter is looked up as in Rust. -/
theorem param?_map (params : List (String × String)) (key : String) :
    param? (params.map fun param => (param.1.toList, param.2.toList)) key = params.lookup key := by
  rw [param?]
  induction params with
  | nil => rfl
  | cons param params ih =>
    have hkey : (key.toList == param.1.toList) = (key == param.1) := by
      rw [Bool.eq_iff_iff, beq_iff_eq, beq_iff_eq, String.toList_inj]
    rw [List.map_cons, List.lookup_cons, List.lookup_cons, hkey]
    cases key == param.1 with
    | true => exact congrArg some String.ofList_toList
    | false => exact ih

section Reading
variable {libraries : Libraries} {lower : Char → Char}

/-- What Go reads of a challenge that Rust has written. -/
theorem challengesOf_challengeText {challenge : MppSdk.PaymentChallenge}
    (hid : challenge.id ≠ "") (hrealm : challenge.realm ≠ "") (hintent : challenge.intent ≠ "")
    (hmethod : isValidMethod challenge.method = true)
    (hlowerMethod : toLower lower challenge.method = challenge.method)
    (hlowerIntent : toLower lower challenge.intent = challenge.intent)
    (hrequest : challenge.request ≠ "" ∧ ∃ bytes value,
      base64URLDecode libraries challenge.request = .ok bytes ∧
        libraries.parseJson bytes = some value) (blank : List Char)
    (hblank : ∀ b ∈ blank, isBlank b = true) :
    challengesOf libraries lower (valueText (written blank challenge) []) = [ofRust challenge] := by
  obtain ⟨hid', hrealm', hmethod', hintent', hrequest', hexpires, hdescription, hdigest, hopaque⟩ :=
    MppSdk.lookup_params challenge
  obtain ⟨hpresent, bytes, value, hbytes, hvalue⟩ := hrequest
  have hnodup : ((challenge.params.map fun param => (param.1.toList, param.2.toList)).map
      Prod.fst).Nodup := by
    have hinjective : Function.Injective String.toList := fun _ _ h => String.toList_inj.mp h
    have hnames := (nodup_params challenge).map hinjective
    rw [List.map_map] at hnames ⊢
    exact hnames
  rw [challengesOf_eq_singleton, parseWWWAuthenticate_valueText
    (written_wellFormed hblank challenge) rfl (by simp), fields_written]
  refine ⟨hnodup, ?_⟩
  have hfields : ¬ (challenge.id = "" ∨ challenge.realm = "" ∨ challenge.intent = "") :=
    not_or.mpr ⟨hid, not_or.mpr ⟨hrealm, hintent⟩⟩
  have hread : ∀ f : GoError → GoError,
      mapErr f (orReturn (base64URLDecode libraries challenge.request)) = .ok bytes := by
    intro f
    rw [hbytes]
    rfl
  simp only [challengeOf, param, param?_map, hid', hrealm', hmethod', hintent', hrequest', hexpires,
    hdescription, hdigest, hopaque, Option.getD_some, Option.getD_none, rejectIf_neg hpresent,
    ok_bind, hread, okOrElse, hvalue, hlowerMethod, hlowerIntent, hmethod, not_true_eq_false,
    rejectIf_neg not_false, rejectIf_neg hfields]
  rfl

theorem parseWWWAuthenticateAll_headerText {challenges : List MppSdk.PaymentChallenge}
    (h : ∀ challenge ∈ challenges, ∀ blank : List Char, (∀ b ∈ blank, isBlank b = true) →
      challengesOf libraries lower (valueText (written blank challenge) []) = [ofRust challenge]) :
    parseWWWAuthenticateAll libraries lower [MppSdk.headerText challenges] =
      challenges.map ofRust := by
  have hall := writtenAll_wellFormed challenges
  rw [← headerText_writtenAll, parseWWWAuthenticateAll_header fun c hc => (hall c hc).1,
    swallowed_of_payment fun c hc => (hall c hc).2, List.flatMap_map]
  cases challenges with
  | nil => rfl
  | cons challenge challenges =>
    rw [writtenAll, List.flatMap_cons, h challenge List.mem_cons_self [] (List.forall_mem_nil _),
      List.flatMap_map, List.flatMap_congr fun next hnext =>
        h next (List.mem_cons_of_mem _ hnext) [' ']
          (List.all_iff_forall_prop.mp (by decide)), List.map_cons]
    refine congrArg (ofRust challenge :: ·) ?_
    exact List.map_eq_flatMap.symm

end Reading

end Go

/-! ## All three -/

/-- What all three readers ask of a challenge: texts that are there and can be written, a method
of small letters, an intent that is not changed by making it lower case, and a request that each
decodes to JSON. -/
structure PaymentChallenge.Portable (crates : Crates) (libraries : Go.Libraries)
    (lower : Char → Char) (loads : List UInt8 → Py.Raises Json) (challenge : PaymentChallenge) :
    Prop where
  present : challenge.id ≠ "" ∧ challenge.realm ≠ "" ∧ challenge.intent ≠ "" ∧
    challenge.request ≠ ""
  writable : ∀ param ∈ challenge.params, Writable param.2
  method_valid : isValidMethod challenge.method = true
  intent_lower : challenge.intent.toLower = challenge.intent ∧
    Go.toLower lower challenge.intent = challenge.intent
  rust_json : ∃ bytes value, base64urlDecode crates challenge.request = some bytes ∧
    crates.parseJson bytes = some value
  go_json : ∃ bytes value, Go.base64URLDecode libraries challenge.request = .ok bytes ∧
    libraries.parseJson bytes = some value
  py_json : ∃ bytes value, Py.base64UrlDecode challenge.request = .ok bytes ∧
    loads bytes = .ok value

section Portable
variable {crates : Crates} {libraries : Go.Libraries} {lower : Char → Char}
  {loads : List UInt8 → Py.Raises Json} {letters : Char → Bool}

theorem PaymentChallenge.Portable.wellFormed {challenge : PaymentChallenge}
    (h : challenge.Portable crates libraries lower loads) : challenge.WellFormed crates where
  id_ne := h.present.1
  method_valid := h.method_valid
  intent_lower := h.intent_lower.1
  request_json := h.rust_json
  writable := h.writable

/-- The letters of a valid method. -/
theorem method_go {method : String} (hletters : ∀ c : Char, c.isLower → lower c = c)
    (h : isValidMethod method = true) :
    Go.isValidMethod method = true ∧ Go.toLower lower method = method := by
  obtain ⟨hne, hall⟩ := of_decide_eq_true h
  have hlower := List.all_eq_true.mp hall
  constructor
  · refine decide_eq_true ⟨hne, List.all_eq_true.mpr fun c hc => decide_eq_true ?_⟩
    have hbounds : (decide ('a'.val ≤ c.val) && decide (c.val ≤ 'z'.val)) = true := hlower c hc
    rw [Bool.and_eq_true, decide_eq_true_eq, decide_eq_true_eq] at hbounds
    exact hbounds
  · rw [Go.toLower, (List.map_congr_left fun c hc => hletters c (hlower c hc) :
      method.toList.map lower = method.toList.map id), List.map_id, String.ofList_toList]

/-- **One header, three readers.**  What Rust writes of a list of challenges is read back by Rust,
Go and Python, as the same list. -/
theorem read_alike (crates : Crates) (libraries : Go.Libraries) (lower : Char → Char)
    (loads : List UInt8 → Py.Raises Json) (letters : Char → Bool)
    (challenges : List PaymentChallenge) (hletters : ∀ c : Char, c.isLower → lower c = c)
    (h : ∀ challenge ∈ challenges, challenge.Portable crates libraries lower loads) :
    ∃ rendered, challenges.mapM formatWwwAuthenticate = .ok rendered ∧
      parseWwwAuthenticateAll crates [[',', ' '].intercalate rendered] =
        challenges.map (fun challenge => .ok { challenge with description := none }) ∧
      Go.parseWWWAuthenticateAll libraries lower [[',', ' '].intercalate rendered] =
        challenges.map Go.ofRust ∧
      Py.parseWwwAuthenticateAll loads letters [[',', ' '].intercalate rendered] =
        challenges.map Py.ofRust := by
  have hformat : ∀ rest : List PaymentChallenge, rest ⊆ challenges →
      rest.mapM formatWwwAuthenticate = .ok (rest.map challengeText) := by
    intro rest hrest
    induction rest with
    | nil => rfl
    | cons challenge rest ih =>
      obtain ⟨hmem, hrest⟩ := List.cons_subset.mp hrest
      rw [List.mapM_cons, ih hrest, formatWwwAuthenticate,
        mapM_formatParam (h challenge hmem).writable]
      rfl
  refine ⟨challenges.map challengeText, hformat challenges (List.Subset.refl _), ?_, ?_, ?_⟩
  · have hsplit := splitPaymentChallengeValues_header challenges
    rw [headerText] at hsplit
    rw [parseWwwAuthenticateAll, List.flatMap_singleton, hsplit, List.map_map]
    exact List.map_congr_left fun challenge hmem =>
      parseWwwAuthenticate_challengeText (h challenge hmem).wellFormed
  · refine Go.parseWWWAuthenticateAll_headerText fun challenge hmem blank hblank => ?_
    obtain ⟨hid, hrealm, hintent, hrequest⟩ := (h challenge hmem).present
    obtain ⟨hmethod, hlower⟩ := method_go hletters (h challenge hmem).method_valid
    exact Go.challengesOf_challengeText hid hrealm hintent hmethod hlower
      (h challenge hmem).intent_lower.2 ⟨hrequest, (h challenge hmem).go_json⟩ blank hblank
  · exact Py.parseWwwAuthenticateAll_headerText fun challenge hmem =>
      ⟨(h challenge hmem).present.1, (h challenge hmem).method_valid, (h challenge hmem).py_json⟩

end Portable

namespace HeaderSample

/-- Challenges with everything that has a meaning in a header. -/
def portable : List PaymentChallenge :=
  [{ id := "a, Payment id=\"b\\", realm := "\\\"", method := "solana", intent := "charge",
     request := "e30", description := some "dropped", opaqueData := some "" },
   { id := "2", realm := ", Bearer x=\"", method := "solana", intent := "charge", request := "e30",
     expires := some ", Payment ", digest := some "" }]

theorem portable_read : ∃ rendered, portable.mapM formatWwwAuthenticate = .ok rendered ∧
    parseWwwAuthenticateAll crates [[',', ' '].intercalate rendered] =
      portable.map (fun challenge => .ok { challenge with description := none }) ∧
    Go.parseWWWAuthenticateAll Go.MixedSample.libraries Char.toLower
        [[',', ' '].intercalate rendered] = portable.map Go.ofRust ∧
    Py.parseWwwAuthenticateAll Py.MixedSample.loads (fun _ => false)
        [[',', ' '].intercalate rendered] = portable.map Py.ofRust := by
  have hrust : ∃ bytes value, base64urlDecode crates "e30" = some bytes ∧
      crates.parseJson bytes = some value := ⟨[123, 125], .obj [], by decide, rfl⟩
  have hgo : ∃ bytes value, Go.base64URLDecode Go.MixedSample.libraries "e30" = .ok bytes ∧
      Go.MixedSample.libraries.parseJson bytes = some value := ⟨[123, 125], .obj [], rfl, rfl⟩
  have hpy : ∃ bytes value, Py.base64UrlDecode "e30" = .ok bytes ∧
      Py.MixedSample.loads bytes = .ok value := ⟨[123, 125], .obj [], by decide +kernel, rfl⟩
  refine read_alike crates Go.MixedSample.libraries Char.toLower Py.MixedSample.loads _ portable
    (fun c hc => (isLower_plain hc).2.2.2.2.2) fun challenge hmem => ?_
  rcases List.mem_cons.mp hmem with rfl | hmem
  · exact ⟨by decide, by decide, by decide, by decide +kernel, hrust, hgo, hpy⟩
  · obtain rfl := List.mem_singleton.mp hmem
    exact ⟨by decide, by decide, by decide, by decide +kernel, hrust, hgo, hpy⟩

end HeaderSample
end MppSdk
