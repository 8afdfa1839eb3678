import MppSdk.PyHeaders
import MppSdk.PyParseExact

/-! # Where the Python code cuts a header

The text of a header in which challenges of any schemes follow each other.  A challenge is seen
to start only if its scheme has nothing but letters and something follows it; any other one
stays in the piece of the challenge in front of it (`extractChallenges_header`). -/

namespace MppSdk
namespace Py

/-! ## The text of a header -/

/-- A character of a token. -/
def isTokenChar (c : Char) : Bool := c.isAlphanum ∨ c ∈ "!#$%&'*+-.^_`|~".toList

def IsToken (cs : List Char) : Prop := cs ≠ [] ∧ ∀ c ∈ cs, isTokenChar c = true

instance (cs : List Char) : Decidable (IsToken cs) :=
  @instDecidableAnd _ _ _ (List.decidableBAll _ _)

/-- A character of a token68 in front of its equals signs. -/
def isToken68Char (c : Char) : Bool := c.isAlphanum ∨ c ∈ "-._~+/".toList

/-- A character inside quotes, behind a backslash or not. -/
def quotedChar (c : Char × Bool) : List Char := if c.2 then ['\\', c.1] else [c.1]

/-- A parameter with its value in quotes, behind blanks. -/
structure AuthParam where
  blank : List Char
  name : List Char
  chars : List (Char × Bool)

namespace AuthParam

def text (p : AuthParam) : List Char :=
  p.blank ++ (p.name ++ '=' :: '"' :: (p.chars.flatMap quotedChar ++ ['"']))

/-- The name and the value that the parameter stands for. -/
def field (p : AuthParam) : String × String :=
  (String.ofList p.name, String.ofList (p.chars.map Prod.fst))

structure WellFormed (p : AuthParam) : Prop where
  blank : ∀ c ∈ p.blank, isBlank c = true
  name : IsToken p.name
  chars : ∀ c ∈ p.chars, c.2 = false → c.1 ≠ '"' ∧ c.1 ≠ '\\'

end AuthParam

/-- What stands behind a scheme. -/
inductive AuthBody
  | nothing
  | token68 (gap chars : List Char) (pads : Nat)
  | quoted (first : AuthParam) (rest : List AuthParam)

/-- The text of parameters behind another one. -/
def paramsText (params : List AuthParam) : List Char := params.flatMap fun p => ',' :: p.text

namespace AuthBody

def text : AuthBody → List Char
  | nothing => []
  | token68 gap chars pads => gap ++ (chars ++ List.replicate pads '=')
  | quoted first rest => first.text ++ paramsText rest

def WellFormed : AuthBody → Prop
  | nothing => True
  | token68 gap chars _ => gap ≠ [] ∧ (∀ c ∈ gap, isBlank c = true) ∧
      chars ≠ [] ∧ ∀ c ∈ chars, isToken68Char c = true
  | quoted first rest => first.blank ≠ [] ∧ first.WellFormed ∧ ∀ p ∈ rest, p.WellFormed

end AuthBody

/-- A challenge; `blank` stands behind the comma in front of it. -/
structure AuthChallenge where
  blank : List Char
  scheme : List Char
  body : AuthBody

namespace AuthChallenge

def text (c : AuthChallenge) : List Char := c.scheme ++ c.body.text

structure WellFormed (c : AuthChallenge) : Prop where
  blank : ∀ b ∈ c.blank, isBlank b = true
  scheme : IsToken c.scheme
  body : c.body.WellFormed

def IsPayment (c : AuthChallenge) : Prop := eqIgnoreCase c.scheme PAYMENT_SCHEME = true

instance (c : AuthChallenge) : Decidable c.IsPayment := inferInstanceAs (Decidable (_ = true))

/-- The challenge is seen to start. -/
def Seen (c : AuthChallenge) : Prop := c.scheme.all Char.isAlpha = true ∧ c.body.text ≠ []

instance (c : AuthChallenge) : Decidable c.Seen := inferInstanceAs (Decidable (_ ∧ _))

end AuthChallenge

/-- Challenges behind another one. -/
def tailText (header : List AuthChallenge) : List Char :=
  header.flatMap fun c => ',' :: (c.blank ++ c.text)

/-- A header: its challenges are joined by commas, and blanks may stand behind a comma. -/
def headerText : List AuthChallenge → List Char
  | [] => []
  | c :: header => c.text ++ tailText header

/-! ## Characters -/

theorem isTokenChar_spec {c : Char} (h : isTokenChar c = true) :
    isSpace c = false ∧ isBlank c = false ∧ c ≠ ',' ∧ c ≠ '=' ∧ c ≠ '"' ∧ c.toNat < 128 := by
  rcases of_decide_eq_true h with halnum | hmem
  · have hrange : (48 ≤ c.toNat ∧ c.toNat ≤ 57) ∨ (65 ≤ c.toNat ∧ c.toNat ≤ 90) ∨
        (97 ≤ c.toNat ∧ c.toNat ≤ 122) := by
      have hclass : (decide ('A'.val ≤ c.val ∧ c.val ≤ 'Z'.val) ||
          (decide ('a'.val ≤ c.val) && decide (c.val ≤ 'z'.val)) ||
          (decide ('0'.val ≤ c.val) && decide (c.val ≤ '9'.val))) = true := halnum
      simp only [Bool.or_eq_true, Bool.and_eq_true, decide_eq_true_eq] at hclass
      rcases hclass with (⟨hlow, hhigh⟩ | ⟨hlow, hhigh⟩) | ⟨hlow, hhigh⟩
      · exact Or.inr (Or.inl ⟨hlow, hhigh⟩)
      · exact Or.inr (Or.inr ⟨hlow, hhigh⟩)
      · exact Or.inl ⟨hlow, hhigh⟩
    have hne : ∀ d : Char, (d.toNat < 48 ∨ 57 < d.toNat) → (d.toNat < 65 ∨ 90 < d.toNat) →
        (d.toNat < 97 ∨ 122 < d.toNat) → c ≠ d := by
      rintro d h1 h2 h3 rfl
      omega
    refine ⟨?_, ?_, hne _ (by decide) (by decide) (by decide),
      hne _ (by decide) (by decide) (by decide), hne _ (by decide) (by decide) (by decide),
      by omega⟩
    · simp only [isSpace, decide_eq_false_iff_not, List.mem_cons, List.not_mem_nil, or_false]
      omega
    · refine decide_eq_false (not_or.mpr ⟨?_, ?_⟩)
      · exact hne _ (by decide) (by decide) (by decide)
      · exact hne _ (by decide) (by decide) (by decide)
  · have hall : ("!#$%&'*+-.^_`|~".toList.all fun d => decide (isSpace d = false ∧
        isBlank d = false ∧ d ≠ ',' ∧ d ≠ '=' ∧ d ≠ '"' ∧ d.toNat < 128)) = true := by decide
    exact of_decide_eq_true (List.all_eq_true.mp hall c hmem)

theorem isToken68Char_isTokenChar {c : Char} (h : isToken68Char c = true) :
    isTokenChar c = true ∨ c = '/' := by
  rcases of_decide_eq_true h with halnum | hmem
  · exact Or.inl (decide_eq_true (Or.inl halnum))
  · have hall : ("-._~+/".toList.all fun d => decide (isTokenChar d = true ∨ d = '/')) = true := by
      decide
    exact of_decide_eq_true (List.all_eq_true.mp hall c hmem)

/-- A character that stands in no parameter's way: no blank, comma, equals sign or quote. -/
def Plain (c : Char) : Prop :=
  isSpace c = false ∧ isBlank c = false ∧ c ≠ ',' ∧ c ≠ '=' ∧ c ≠ '"'

theorem isTokenChar_plain {c : Char} (h : isTokenChar c = true) : Plain c := by
  obtain ⟨hspace, hblank, hcomma, hequals, hquote, -⟩ := isTokenChar_spec h
  exact ⟨hspace, hblank, hcomma, hequals, hquote⟩

theorem isToken68Char_plain {c : Char} (h : isToken68Char c = true) : Plain c := by
  rcases isToken68Char_isTokenChar h with htoken | rfl
  · exact isTokenChar_plain htoken
  · exact ⟨by decide, by decide, by decide, by decide, by decide⟩

theorem blank_spec {c : Char} (h : isBlank c = true) :
    isSpace c = true ∧ isGap c = true ∧ c ≠ ',' ∧ c ≠ '"' ∧ c.toNat < 128 ∧ c.isAlpha = false := by
  rcases of_decide_eq_true h with rfl | rfl <;> decide

/-! ## Where a challenge is seen to start -/

/-- Something that is no comma stands in front, blanks left aside. -/
def Behind (before : List Char) : Prop :=
  ∃ b, (before.dropWhile isBlank).head? = some b ∧ b ≠ ','

theorem behind_cons {c : Char} (hblank : isBlank c = false) (hcomma : c ≠ ',')
    (before : List Char) : Behind (c :: before) := by
  refine ⟨c, ?_, hcomma⟩
  rw [List.dropWhile_cons_of_neg (by simp [hblank])]
  rfl

theorem Behind.cons {before : List Char} (h : Behind before) {c : Char} (hcomma : c ≠ ',') :
    Behind (c :: before) := by
  cases hblank : isBlank c with
  | false => exact behind_cons hblank hcomma before
  | true =>
    obtain ⟨b, hb, hne⟩ := h
    exact ⟨b, by rw [List.dropWhile_cons_of_pos hblank, hb], hne⟩

/-- A challenge may start: nothing or a comma is in front of it. -/
def MayStart (before : List Char) : Prop :=
  before = [] ∨ (before.dropWhile isBlank).head? = some ','

theorem mayStart_blanks {blanks : List Char} (h : ∀ c ∈ blanks, isBlank c = true)
    (before : List Char) : MayStart (blanks.reverse ++ ',' :: before) := by
  refine Or.inr ?_
  rw [List.dropWhile_append_of_pos fun c hc => h c (List.mem_reverse.mp hc)]
  rfl

section Starts
variable {l : Char → Bool}

theorem Behind.not_start {before : List Char} (h : Behind before) (rest : List Char) :
    authSchemeStartsAt l before rest = false := by
  obtain ⟨b, hb, hcomma⟩ := h
  refine decide_eq_false ?_
  rintro ⟨-, -, rfl | hhead⟩
  · cases hb
  · exact hcomma (Option.some.inj (hb.symm.trans hhead))

/-- Outside of quotes, the text is passed without a start and ends outside of quotes. -/
def Passed (l : Char → Bool) (before text rest : List Char) : Prop :=
  findChallengeStarts l before false false false (text ++ rest) =
    findChallengeStarts l (text.reverse ++ before) false false false rest

theorem passed_nil (before rest : List Char) : Passed l before [] rest := rfl

theorem Passed.append {before text text' rest : List Char}
    (h : Passed l before text (text' ++ rest))
    (h' : Passed l (text.reverse ++ before) text' rest) :
    Passed l before (text ++ text') rest := by
  unfold Passed at h h' ⊢
  rw [List.append_assoc, h, h', List.reverse_append, List.append_assoc]

theorem passed_char {before rest : List Char} {c : Char} (hquote : c ≠ '"')
    (hstart : authSchemeStartsAt l before (c :: rest) = false) :
    Passed l before [c] rest := by
  simp [Passed, findChallengeStarts, hquote, hstart]

/-- Behind something no challenge starts. -/
theorem Behind.passed {cs : List Char} (hcs : ∀ c ∈ cs, c ≠ '"' ∧ c ≠ ',') (rest : List Char) :
    ∀ {before : List Char}, Behind before →
      Passed l before cs rest ∧ Behind (cs.reverse ++ before) := by
  induction cs with
  | nil => exact fun h => ⟨passed_nil _ _, h⟩
  | cons c cs ih =>
    intro before h
    obtain ⟨⟨hquote, hcomma⟩, hcs⟩ := List.forall_mem_cons.mp hcs
    obtain ⟨hpassed, hbehind⟩ := ih hcs (h.cons hcomma)
    rw [List.reverse_cons, List.append_assoc]
    exact ⟨(passed_char hquote (h.not_start _)).append hpassed, hbehind⟩

/-- Blanks and commas are passed. -/
theorem passed_gaps {cs : List Char} (h : ∀ c ∈ cs, isGap c = true) (rest : List Char) :
    ∀ before : List Char, Passed l before cs rest := by
  induction cs with
  | nil => exact fun before => passed_nil _ _
  | cons c cs ih =>
    intro before
    obtain ⟨hc, hcs⟩ := List.forall_mem_cons.mp h
    have hplain : c ≠ '"' ∧ isAlpha l c = false := by
      rcases of_decide_eq_true hc with hblank | rfl
      · obtain ⟨-, -, -, hquote, hascii, halpha⟩ := blank_spec hblank
        exact ⟨hquote, (if_pos hascii).trans halpha⟩
      · exact ⟨by decide, rfl⟩
    have hstart : authSchemeStartsAt l before (c :: (cs ++ rest)) = false := by
      refine decide_eq_false fun hstart => ?_
      have hhead : isAlpha l c = true := hstart.1
      exact Bool.false_ne_true (hplain.2.symm.trans hhead)
    exact (passed_char hplain.1 hstart).append (ih hcs _)

/-- The letters at the front of a token are all of it, or end at a character that is no blank. -/
theorem dropWhile_token {cs : List Char} (h : ∀ c ∈ cs, isTokenChar c = true) (rest : List Char) :
    cs.all Char.isAlpha = true ∧
        (cs ++ rest).dropWhile (isAlpha l) = rest.dropWhile (isAlpha l) ∨
      cs.all Char.isAlpha = false ∧
        (((cs ++ rest).dropWhile (isAlpha l)).head?).any isBlank = false := by
  induction cs with
  | nil => exact Or.inl ⟨rfl, rfl⟩
  | cons c cs ih =>
    obtain ⟨hc, hcs⟩ := List.forall_mem_cons.mp h
    obtain ⟨-, hblank, -, -, -, hascii⟩ := isTokenChar_spec hc
    have halpha : isAlpha l c = c.isAlpha := if_pos hascii
    rw [List.all_cons, List.cons_append]
    cases hletter : c.isAlpha with
    | true =>
      rw [List.dropWhile_cons_of_pos (halpha.trans hletter), Bool.true_and]
      exact ih hcs
    | false =>
      rw [List.dropWhile_cons_of_neg (by rw [halpha, hletter]; exact Bool.false_ne_true)]
      exact Or.inr ⟨rfl, hblank⟩

/-- A token starts nothing if it has other characters than letters, or no blank follows. -/
theorem not_start_token {token rest : List Char} (h : IsToken token)
    (hrest : token.all Char.isAlpha = true →
      ((rest.dropWhile (isAlpha l)).head?).any isBlank = false) (before : List Char) :
    authSchemeStartsAt l before (token ++ rest) = false := by
  refine decide_eq_false fun hstart => ?_
  have hblank := hstart.2.1
  rcases dropWhile_token h.2 rest with ⟨hall, hdrop⟩ | ⟨-, hhead⟩
  · rw [hdrop, hrest hall] at hblank
    cases hblank
  · rw [hhead] at hblank
    cases hblank

theorem passed_token {token before rest : List Char} (h : IsToken token)
    (hstart : authSchemeStartsAt l before (token ++ rest) = false) :
    Passed l before token rest ∧ Behind (token.reverse ++ before) := by
  obtain ⟨hne, hchars⟩ := h
  cases token with
  | nil => exact absurd rfl hne
  | cons c cs =>
    obtain ⟨hc, hcs⟩ := List.forall_mem_cons.mp hchars
    obtain ⟨-, hblank, hcomma, -, hquote⟩ := isTokenChar_plain hc
    have hplain : ∀ d ∈ cs, d ≠ '"' ∧ d ≠ ',' := fun d hd =>
      ⟨(isTokenChar_plain (hcs d hd)).2.2.2.2, (isTokenChar_plain (hcs d hd)).2.2.1⟩
    obtain ⟨hpassed, hbehind⟩ :=
      Behind.passed (l := l) hplain rest (behind_cons hblank hcomma before)
    rw [List.reverse_cons, List.append_assoc]
    exact ⟨(passed_char hquote hstart).append hpassed, hbehind⟩

/-- Inside quotes nothing starts. -/
theorem findChallengeStarts_quoted {chars : List (Char × Bool)}
    (h : ∀ c ∈ chars, c.2 = false → c.1 ≠ '"' ∧ c.1 ≠ '\\') : ∀ before rest : List Char,
    findChallengeStarts l before true false false (chars.flatMap quotedChar ++ '"' :: rest) =
      findChallengeStarts l ('"' :: ((chars.flatMap quotedChar).reverse ++ before)) false
        false false rest := by
  induction chars with
  | nil =>
    intro before rest
    simp [findChallengeStarts]
  | cons c chars ih =>
    intro before rest
    obtain ⟨hc, hchars⟩ := List.forall_mem_cons.mp h
    obtain ⟨c, escaped⟩ := c
    rw [List.flatMap_cons, List.append_assoc, List.reverse_append, List.append_assoc, ← ih hchars]
    cases escaped with
    | true => simp [quotedChar, findChallengeStarts]
    | false =>
      obtain ⟨hquote, hbackslash⟩ := hc rfl
      simp [quotedChar, findChallengeStarts, hquote, hbackslash]

/-- A parameter starts nothing: its letters are followed by an equals sign. -/
theorem passed_param {p : AuthParam} (h : p.WellFormed) (before rest : List Char) :
    Passed l before p.text rest ∧ Behind (p.text.reverse ++ before) := by
  -- in front of the name a challenge could start; behind it nothing can
  have hblank : Passed l before p.blank
      (p.name ++ '=' :: '"' :: (p.chars.flatMap quotedChar ++ ['"']) ++ rest) :=
    passed_gaps (fun c hc => (blank_spec (h.blank c hc)).2.1) _ before
  obtain ⟨hname, hbehind⟩ : Passed l (p.blank.reverse ++ before) p.name
      ('=' :: '"' :: (p.chars.flatMap quotedChar ++ ['"']) ++ rest) ∧
        Behind (p.name.reverse ++ (p.blank.reverse ++ before)) :=
    passed_token h.name (not_start_token h.name (fun _ => rfl) _)
  have hequals : Passed l (p.name.reverse ++ (p.blank.reverse ++ before)) ['=']
      ('"' :: (p.chars.flatMap quotedChar ++ ['"']) ++ rest) :=
    (Behind.passed (List.forall_mem_singleton.mpr ⟨by decide, by decide⟩) _ hbehind).1
  have hquoted : ∀ front : List Char, Passed l front
      ('"' :: (p.chars.flatMap quotedChar ++ ['"'])) rest := by
    intro front
    have hopen : findChallengeStarts l front false false false
        ('"' :: (p.chars.flatMap quotedChar ++ '"' :: rest)) =
        findChallengeStarts l ('"' :: front) true false false
          (p.chars.flatMap quotedChar ++ '"' :: rest) := by
      simp [findChallengeStarts]
    rw [Passed, List.cons_append, List.append_assoc, List.singleton_append, hopen,
      findChallengeStarts_quoted h.chars]
    simp
  refine ⟨hblank.append (hname.append (hequals.append (hquoted _))), ?_⟩
  have hend : p.text.reverse ++ before = '"' :: ((p.blank ++ (p.name ++ '=' :: '"' ::
      p.chars.flatMap quotedChar)).reverse ++ before) := by
    simp [AuthParam.text]
  rw [hend]
  exact behind_cons (by decide) (by decide) _

theorem passed_params {params : List AuthParam} (h : ∀ p ∈ params, p.WellFormed)
    (rest : List Char) : ∀ {before : List Char}, Behind before →
      Passed l before (paramsText params) rest ∧
        Behind ((paramsText params).reverse ++ before) := by
  induction params with
  | nil => exact fun hbefore => ⟨passed_nil _ _, hbefore⟩
  | cons p params ih =>
    intro before _
    obtain ⟨hp, hparams⟩ := List.forall_mem_cons.mp h
    have htext : paramsText (p :: params) = [','] ++ (p.text ++ paramsText params) := rfl
    have hcomma : Passed l before [','] ((p.text ++ paramsText params) ++ rest) :=
      passed_gaps (List.forall_mem_singleton.mpr (by decide)) _ before
    obtain ⟨hpassed, hbehind⟩ :=
      passed_param (l := l) hp ([','].reverse ++ before) (paramsText params ++ rest)
    obtain ⟨hrest, hend⟩ := ih hparams hbehind
    rw [htext, List.reverse_append, List.append_assoc, List.reverse_append, List.append_assoc]
    exact ⟨hcomma.append (hpassed.append hrest), hend⟩

theorem passed_body {body : AuthBody} (h : body.WellFormed) {before : List Char}
    (hbefore : Behind before) (rest : List Char) :
    Passed l before body.text rest ∧ Behind (body.text.reverse ++ before) := by
  cases body with
  | nothing => exact ⟨passed_nil _ _, hbefore⟩
  | token68 gap chars pads =>
    obtain ⟨-, hgap, -, hchars⟩ := h
    refine Behind.passed (fun c hc => ?_) rest hbefore
    rcases List.mem_append.mp hc with hc | hc
    · exact ⟨(blank_spec (hgap c hc)).2.2.2.1, (blank_spec (hgap c hc)).2.2.1⟩
    rcases List.mem_append.mp hc with hc | hc
    · have hplain := isToken68Char_plain (hchars c hc)
      exact ⟨hplain.2.2.2.2, hplain.2.2.1⟩
    · obtain rfl := List.eq_of_mem_replicate hc
      exact ⟨by decide, by decide⟩
  | quoted first params =>
    obtain ⟨-, hfirst, hparams⟩ := h
    obtain ⟨hpassed, hbehind⟩ :=
      passed_param (l := l) hfirst before (paramsText params ++ rest)
    obtain ⟨hrest, hend⟩ := passed_params (l := l) hparams rest hbehind
    rw [AuthBody.text, List.reverse_append, List.append_assoc]
    exact ⟨hpassed.append hrest, hend⟩

theorem findChallengeStarts_inScheme {cs : List Char} (h : ∀ c ∈ cs, isBlank c = false) {b : Char}
    (hb : isBlank b = true) (rest : List Char) : ∀ before : List Char,
    findChallengeStarts l before false false true (cs ++ b :: rest) =
      findChallengeStarts l (cs.reverse ++ before) false false false (b :: rest) := by
  induction cs with
  | nil =>
    intro before
    simp [findChallengeStarts, hb]
  | cons c cs ih =>
    intro before
    obtain ⟨hc, hcs⟩ := List.forall_mem_cons.mp h
    rw [List.reverse_cons, List.append_assoc, List.singleton_append, ← ih hcs (c :: before)]
    simp [findChallengeStarts, hc]

/-- Something behind a scheme starts with a blank. -/
theorem AuthBody.WellFormed.head {body : AuthBody} (h : body.WellFormed) :
    body.text = [] ∨ ∃ b more, body.text = b :: more ∧ isBlank b = true := by
  cases body with
  | nothing => exact Or.inl rfl
  | token68 gap chars pads =>
    obtain ⟨hne, hgap, -⟩ := h
    cases gap with
    | nil => exact absurd rfl hne
    | cons b gap => exact Or.inr ⟨b, _, rfl, hgap b List.mem_cons_self⟩
  | quoted first rest =>
    obtain ⟨hne, hfirst, -⟩ := h
    have hblank := hfirst.blank
    cases hb : first.blank with
    | nil => exact absurd hb hne
    | cons b blank =>
      rw [hb] at hblank
      refine Or.inr ⟨b, ?_, ?_, hblank b List.mem_cons_self⟩
      · exact blank ++ (first.name ++ '=' :: '"' :: (first.chars.flatMap quotedChar ++ ['"'])) ++
          paramsText rest
      · simp [AuthBody.text, AuthParam.text, hb]

/-- A challenge that is seen to start. -/
theorem authSchemeStartsAt_seen {c : AuthChallenge} (h : c.WellFormed) (hseen : c.Seen)
    {before : List Char} (hbefore : MayStart before) (rest : List Char) :
    authSchemeStartsAt l before (c.text ++ rest) = true := by
  obtain hnil | ⟨b, more, hbody, hb⟩ := h.body.head
  · exact absurd hnil hseen.2
  obtain ⟨-, -, -, -, hascii, halpha⟩ := blank_spec hb
  have hbalpha : isAlpha l b = false := (if_pos hascii).trans halpha
  have htext : c.text ++ rest = c.scheme ++ (c.body.text ++ rest) := List.append_assoc ..
  have hhead : ((c.text ++ rest).head?).any (isAlpha l) = true := by
    obtain ⟨s, ss, hscheme⟩ := List.exists_cons_of_ne_nil h.scheme.1
    have hall := hseen.1
    rw [hscheme] at hall
    have hascii := (isTokenChar_spec (h.scheme.2 s (hscheme ▸ List.mem_cons_self))).2.2.2.2.2
    rw [htext, hscheme]
    exact (if_pos hascii).trans (List.all_eq_true.mp hall s List.mem_cons_self)
  have hdrop : (((c.text ++ rest).dropWhile (isAlpha l)).head?).any isBlank = true := by
    rw [htext]
    rcases dropWhile_token (l := l) h.scheme.2 (c.body.text ++ rest) with
      ⟨-, hdrop⟩ | ⟨hnot, -⟩
    · rw [hdrop, hbody, List.cons_append, List.dropWhile_cons_of_neg (by simp [hbalpha])]
      exact hb
    · rw [hseen.1] at hnot
      cases hnot
  exact decide_eq_true ⟨hhead, hdrop, hbefore⟩

theorem findChallengeStarts_challenge {c : AuthChallenge} (h : c.WellFormed)
    {before rest : List Char} (hbefore : MayStart before)
    (hrest : rest = [] ∨ rest.head? = some ',') :
    findChallengeStarts l before false false false (c.text ++ rest) =
        (if c.Seen then [before.length] else []) ++
          findChallengeStarts l (c.text.reverse ++ before) false false false rest ∧
      Behind (c.text.reverse ++ before) := by
  have hrev : c.text.reverse ++ before = c.body.text.reverse ++ (c.scheme.reverse ++ before) := by
    rw [AuthChallenge.text, List.reverse_append, List.append_assoc]
  have htext : c.text ++ rest = c.scheme ++ (c.body.text ++ rest) := List.append_assoc ..
  by_cases hseen : c.Seen
  · have hstart := authSchemeStartsAt_seen (l := l) h hseen hbefore rest
    rw [hrev]
    rw [htext] at hstart ⊢
    obtain hnil | ⟨b, more, hbody, hb⟩ := h.body.head
    · exact absurd hnil hseen.2
    obtain ⟨s, ss, hscheme⟩ := List.exists_cons_of_ne_nil h.scheme.1
    have hchars := h.scheme.2
    rw [hscheme] at hchars hstart ⊢
    obtain ⟨hs, hss⟩ := List.forall_mem_cons.mp hchars
    obtain ⟨-, hblank, hcomma, -, hquote⟩ := isTokenChar_plain hs
    have hplain : ∀ d ∈ ss, d ≠ '"' ∧ d ≠ ',' := fun d hd =>
      ⟨(isTokenChar_plain (hss d hd)).2.2.2.2, (isTokenChar_plain (hss d hd)).2.2.1⟩
    -- the first letter is the start, and the others are skipped
    have hfind : findChallengeStarts l before false false false
        (s :: ss ++ (c.body.text ++ rest)) = before.length ::
          findChallengeStarts l (s :: before) false false true
            (ss ++ (c.body.text ++ rest)) := by
      rw [List.cons_append] at hstart ⊢
      simp [findChallengeStarts, hquote, hstart]
    have hletters : ∀ d ∈ ss, isBlank d = false := fun d hd => (isTokenChar_plain (hss d hd)).2.1
    have hskip := findChallengeStarts_inScheme (l := l) hletters hb (more ++ rest) (s :: before)
    have hbehind : Behind ((s :: ss).reverse ++ before) := by
      rw [List.reverse_cons, List.append_assoc]
      exact (Behind.passed (l := l) hplain [] (behind_cons hblank hcomma before)).2
    obtain ⟨hpassed, hend⟩ := passed_body (l := l) h.body hbehind rest
    refine ⟨?_, hend⟩
    rw [hfind, if_pos hseen, List.singleton_append, ← hpassed, hbody, List.cons_append, hskip,
      List.reverse_cons, List.append_assoc, List.singleton_append]
  · rw [hrev, htext]
    have hstart : authSchemeStartsAt l before (c.scheme ++ (c.body.text ++ rest)) = false := by
      refine not_start_token h.scheme (fun hall => ?_) before
      -- letters alone that are not seen carry nothing, so a comma follows, or the end
      have hnil : c.body.text = [] := by
        by_contra hne
        exact hseen ⟨hall, hne⟩
      rw [hnil, List.nil_append]
      cases rest with
      | nil => rfl
      | cons d rest =>
        obtain rfl : d = ',' := by simpa using hrest
        rfl
    obtain ⟨hscheme, hbehind⟩ := passed_token h.scheme hstart
    obtain ⟨hpassed, hend⟩ := passed_body (l := l) h.body hbehind rest
    refine ⟨?_, hend⟩
    rw [if_neg hseen, List.nil_append, ← hpassed]
    exact hscheme

/-- The positions at which the challenges behind `start` are seen to start. -/
def positions (start : Nat) : List AuthChallenge → List Nat
  | [] => []
  | c :: header =>
      let here := start + 1 + c.blank.length
      (if c.Seen then [here] else []) ++ positions (here + c.text.length) header

theorem tailText_cons (c : AuthChallenge) (header : List AuthChallenge) :
    tailText (c :: header) = (',' :: c.blank) ++ (c.text ++ tailText header) := by
  simp [tailText]

theorem tailText_append (header header' : List AuthChallenge) :
    tailText (header ++ header') = tailText header ++ tailText header' := List.flatMap_append

theorem tailText_head (header : List AuthChallenge) :
    tailText header = [] ∨ (tailText header).head? = some ',' := by
  cases header with
  | nil => exact Or.inl rfl
  | cons c header => exact Or.inr rfl

theorem findChallengeStarts_tail {header : List AuthChallenge} (h : ∀ c ∈ header, c.WellFormed) :
    ∀ {before : List Char}, Behind before →
      findChallengeStarts l before false false false (tailText header) =
        positions before.length header := by
  induction header with
  | nil => exact fun _ => rfl
  | cons c header ih =>
    intro before _
    obtain ⟨hc, hheader⟩ := List.forall_mem_cons.mp h
    have hgap : ∀ d ∈ ',' :: c.blank, isGap d = true :=
      List.forall_mem_cons.mpr ⟨by decide, fun d hd => (blank_spec (hc.blank d hd)).2.1⟩
    have hpassed : Passed l before (',' :: c.blank) (c.text ++ tailText header) :=
      passed_gaps hgap _ before
    have hmay : MayStart ((',' :: c.blank).reverse ++ before) := by
      rw [List.reverse_cons, List.append_assoc]
      exact mayStart_blanks hc.blank before
    obtain ⟨hfind, hbehind⟩ :=
      findChallengeStarts_challenge (l := l) hc hmay (tailText_head header)
    have hlength : ((',' :: c.blank).reverse ++ before).length =
        before.length + 1 + c.blank.length := by
      simp [Nat.add_comm, Nat.add_left_comm]
    have hnext : (c.text.reverse ++ ((',' :: c.blank).reverse ++ before)).length =
        before.length + 1 + c.blank.length + c.text.length := by
      rw [List.length_append, hlength, List.length_reverse, Nat.add_comm]
    rw [tailText_cons, hpassed, hfind, ih hheader hbehind, hnext, hlength]
    rfl

end Starts

/-! ## The pieces of a header -/

/-- The challenges that are seen to start, each with those behind it that are not. -/
def groups : List AuthChallenge → List (AuthChallenge × List AuthChallenge)
  | [] => []
  | c :: header =>
      if c.Seen then (c, header.takeWhile fun d => ¬ d.Seen) :: groups header else groups header

/-- The text that is read as one challenge. -/
def groupText (c : AuthChallenge) (others : List AuthChallenge) : List Char :=
  c.text ++ tailText others

theorem lt_of_mem_positions {header : List AuthChallenge} : ∀ {start : Nat},
    ∀ index ∈ positions start header, start < index := by
  induction header with
  | nil => exact fun _ h => nomatch h
  | cons c header ih =>
    intro start index hindex
    rcases List.mem_append.mp hindex with hmem | hmem
    · split_ifs at hmem
      · obtain rfl := List.mem_singleton.mp hmem
        omega
      · cases hmem
    · have := ih index hmem
      omega

theorem positions_append {others : List AuthChallenge} (h : ∀ c ∈ others, ¬ c.Seen)
    (header : List AuthChallenge) : ∀ start : Nat,
    positions start (others ++ header) = positions (start + (tailText others).length) header := by
  induction others with
  | nil => exact fun start => rfl
  | cons c others ih =>
    intro start
    obtain ⟨hc, hothers⟩ := List.forall_mem_cons.mp h
    have hlength : start + 1 + c.blank.length + c.text.length + (tailText others).length =
        start + (tailText (c :: others)).length := by
      rw [tailText_cons, List.length_append, List.length_cons, List.length_append]
      omega
    rw [List.cons_append, positions, if_neg hc, List.nil_append, ih hothers, hlength]

/-- What comes before the next challenge that is seen to start, if there is one. -/
theorem exists_next (header : List AuthChallenge) : ∃ others more,
    others = (header.takeWhile fun d => ¬ d.Seen) ∧ header = others ++ more ∧
      (∀ c ∈ others, ¬ c.Seen) ∧ (more = [] ∨ ∃ next rest, more = next :: rest ∧ next.Seen) := by
  refine ⟨_, header.dropWhile fun d => ¬ d.Seen, rfl, (List.takeWhile_append_dropWhile ..).symm,
    fun c hc => by simpa using List.mem_takeWhile_imp hc, ?_⟩
  cases hmore : header.dropWhile fun d => ¬ d.Seen with
  | nil => exact Or.inl rfl
  | cons next rest =>
    have hhead := List.head?_dropWhile_not (fun d : AuthChallenge => decide (¬ d.Seen)) header
    rw [hmore] at hhead
    exact Or.inr ⟨next, rest, rfl, by simpa using hhead⟩

/-- A text that starts without space and ends without space and comma. -/
structure Trimmed (text : List Char) : Prop where
  ne : text ≠ []
  head : ∀ c, text.head? = some c → isSpace c = false
  last : ∀ c, text.getLast? = some c → isSpace c = false ∧ c ≠ ','

theorem Trimmed.append {text text' : List Char} (h : Trimmed text) (hne : text' ≠ [])
    (h' : ∀ c, text'.getLast? = some c → isSpace c = false ∧ c ≠ ',') :
    Trimmed (text ++ text') where
  ne := by simp [h.ne]
  head := by
    intro c hc
    rw [List.head?_append_of_ne_nil _ h.ne] at hc
    exact h.head c hc
  last := by
    intro c hc
    rw [List.getLast?_append_of_ne_nil _ hne] at hc
    exact h' c hc

theorem trimmed_token {token : List Char} (h : IsToken token) : Trimmed token where
  ne := h.1
  head := fun c hc => (isTokenChar_plain (h.2 c (List.mem_of_head? hc))).1
  last := fun c hc =>
    ⟨(isTokenChar_plain (h.2 c (List.mem_of_getLast? hc))).1,
      (isTokenChar_plain (h.2 c (List.mem_of_getLast? hc))).2.2.1⟩

theorem param_last (p : AuthParam) : p.text.getLast? = some '"' := by
  have htext : p.text =
      (p.blank ++ (p.name ++ '=' :: '"' :: p.chars.flatMap quotedChar)) ++ ['"'] := by
    simp [AuthParam.text]
  rw [htext, List.getLast?_concat]

theorem params_last (first : AuthParam) (rest : List AuthParam) :
    (first.text ++ paramsText rest).getLast? = some '"' := by
  induction rest generalizing first with
  | nil => rw [paramsText, List.flatMap_nil, List.append_nil, param_last]
  | cons p rest ih =>
    have htext : first.text ++ paramsText (p :: rest) =
        (first.text ++ [',']) ++ (p.text ++ paramsText rest) := by
      simp [paramsText]
    have hne : p.text ++ paramsText rest ≠ [] := by
      intro hnil
      have := ih p
      rw [hnil] at this
      cases this
    rw [htext, List.getLast?_append_of_ne_nil _ hne, ih]

theorem trimmed_text {c : AuthChallenge} (h : c.WellFormed) : Trimmed c.text := by
  by_cases hnil : c.body.text = []
  · rw [AuthChallenge.text, hnil, List.append_nil]
    exact trimmed_token h.scheme
  refine (trimmed_token h.scheme).append hnil fun d hd => ?_
  have hbody := h.body
  cases hform : c.body with
  | nothing => exact absurd (by rw [hform]; rfl) hnil
  | token68 gap chars pads =>
    rw [hform] at hbody hd
    obtain ⟨-, -, hne, hchars⟩ := hbody
    have hmem : d ∈ chars ++ List.replicate pads '=' := by
      rw [AuthBody.text, List.getLast?_append_of_ne_nil _ (by simp [hne])] at hd
      exact List.mem_of_getLast? hd
    rcases List.mem_append.mp hmem with hmem | hmem
    · exact ⟨(isToken68Char_plain (hchars d hmem)).1, (isToken68Char_plain (hchars d hmem)).2.2.1⟩
    · obtain rfl := List.eq_of_mem_replicate hmem
      exact ⟨by decide, by decide⟩
  | quoted first rest =>
    rw [hform, AuthBody.text, params_last] at hd
    cases hd
    exact ⟨by decide, by decide⟩

theorem trimmed_groupText {others : List AuthChallenge} (h : ∀ c ∈ others, c.WellFormed) :
    ∀ {text : List Char}, Trimmed text → Trimmed (text ++ tailText others) := by
  induction others with
  | nil =>
    intro text htext
    rw [tailText, List.flatMap_nil, List.append_nil]
    exact htext
  | cons c others ih =>
    intro text htext
    obtain ⟨hc, hothers⟩ := List.forall_mem_cons.mp h
    have htail : text ++ tailText (c :: others) =
        (text ++ ((',' :: c.blank) ++ c.text)) ++ tailText others := by
      rw [tailText_cons]
      simp
    have hctext := trimmed_text hc
    rw [htail]
    refine ih hothers (htext.append (by simp) fun d hd => ?_)
    rw [List.getLast?_append_of_ne_nil _ hctext.ne] at hd
    exact hctext.last d hd

theorem trimChallenge_trimmed {text : List Char} (h : Trimmed text) :
    trimChallenge text = text := by
  have htrim : trimMatches isSpace text = text :=
    trimMatches_eq_self h.head fun c hc => (h.last c hc).1
  have hlast : text.getLast? ≠ some ',' := fun heq => (h.last _ heq).2 rfl
  rw [trimChallenge, htrim]
  exact if_neg hlast

theorem trimChallenge_comma {text blanks : List Char} (h : Trimmed text)
    (hblanks : ∀ c ∈ blanks, isBlank c = true) :
    trimChallenge (text ++ ',' :: blanks) = text := by
  have htrim : trimMatches isSpace (text ++ ',' :: blanks) = text ++ [','] := by
    have hbetween : trimMatches isSpace ([] ++ (text ++ [',']) ++ blanks) = text ++ [','] := by
      refine trimMatches_between (fun c hc => nomatch hc)
        (fun c hc => (blank_spec (hblanks c hc)).1) (by simp) (fun c hc => ?_) fun c hc => ?_
      · rw [List.head?_append_of_ne_nil _ h.ne] at hc
        exact h.head c hc
      · rw [List.getLast?_concat] at hc
        cases hc
        decide
    simpa using hbetween
  have hstrip : (text.reverse.dropWhile isSpace).reverse = text := by
    have hhead : text.reverse.dropWhile isSpace = text.reverse :=
      dropWhile_of_head fun c hc => (h.last c (List.getLast?_eq_head?_reverse ▸ hc)).1
    rw [hhead, List.reverse_reverse]
  rw [trimChallenge, htrim]
  rw [if_pos List.getLast?_concat, List.dropLast_concat, hstrip]

/-- The piece of a text that starts at `start`, and ends where the next one starts. -/
def pieceAt (text : List Char) (starts : List Nat) (start : Nat) : List Char :=
  trimChallenge ((text.take ((starts.filter fun candidate =>
    start < candidate).head?.getD text.length)).drop start)

theorem pieceAt_challenge {c : AuthChallenge} (hc : c.WellFormed) {header : List AuthChallenge}
    (h : ∀ d ∈ header, d.WellFormed) {front text : List Char} {starts done : List Nat}
    (htext : text = front ++ (c.text ++ tailText header))
    (hstarts : starts = done ++ front.length :: positions (front.length + c.text.length) header)
    (hdone : ∀ start ∈ done, start ≤ front.length) :
    pieceAt text starts front.length = groupText c (header.takeWhile fun d => ¬ d.Seen) := by
  have hfilter : (starts.filter fun candidate => front.length < candidate) =
      positions (front.length + c.text.length) header := by
    have hnone : (done.filter fun candidate => front.length < candidate) = [] :=
      List.filter_eq_nil_iff.mpr fun start hstart =>
        decide_eq_true_iff.not.mpr (Nat.not_lt.mpr (hdone start hstart))
    have hall : ((positions (front.length + c.text.length) header).filter fun candidate =>
        front.length < candidate) = positions (front.length + c.text.length) header :=
      List.filter_eq_self.mpr fun start hstart =>
        decide_eq_true (by have := lt_of_mem_positions start hstart; omega)
    rw [hstarts, List.filter_append, hnone, List.nil_append,
      List.filter_cons_of_neg (by simp), hall]
  -- the piece ends at the end of the text, or in front of the next start with its comma
  obtain ⟨others, more, hothers, hheader, hunseen, hmore⟩ := exists_next header
  rw [pieceAt, hfilter, ← hothers, hheader, positions_append hunseen]
  rw [hheader] at h htext
  obtain ⟨hwell, hrest⟩ := List.forall_mem_append.mp h
  have htrimmed : Trimmed (groupText c others) := trimmed_groupText hwell (trimmed_text hc)
  rcases hmore with rfl | ⟨next, rest, rfl, hnext⟩
  · have hwhole : text = front ++ groupText c others := by
      rw [htext, List.append_nil]
      rfl
    have hnone : (positions (front.length + c.text.length + (tailText others).length)
        []).head? = none := rfl
    rw [hnone, Option.getD_none, List.take_length, hwhole, List.drop_left]
    exact trimChallenge_trimmed htrimmed
  · have hwhole : text = (front ++ (groupText c others ++ ',' :: next.blank)) ++
        (next.text ++ tailText rest) := by
      rw [htext, tailText_append, tailText_cons, groupText]
      simp
    have hhead : (positions (front.length + c.text.length + (tailText others).length)
        (next :: rest)).head? =
        some (front ++ (groupText c others ++ ',' :: next.blank)).length := by
      rw [positions, if_pos hnext]
      simp only [List.singleton_append, List.head?_cons, groupText, List.length_append,
        List.length_cons]
      exact congrArg some (by omega)
    rw [hhead, Option.getD_some, hwhole, List.take_left, List.drop_left]
    exact trimChallenge_comma htrimmed (hrest next List.mem_cons_self).blank

/-- The scheme starts with the word `Payment`. -/
def AuthChallenge.Named (c : AuthChallenge) : Prop :=
  eqIgnoreCase (c.scheme.take PAYMENT_SCHEME.length) PAYMENT_SCHEME = true

instance (c : AuthChallenge) : Decidable c.Named := inferInstanceAs (Decidable (_ = true))

theorem eqIgnoreCase_take {scheme more : List Char} {b : Char} (hb : isBlank b = true) :
    eqIgnoreCase ((scheme ++ b :: more).take PAYMENT_SCHEME.length) PAYMENT_SCHEME =
      eqIgnoreCase (scheme.take PAYMENT_SCHEME.length) PAYMENT_SCHEME := by
  by_cases hle : PAYMENT_SCHEME.length ≤ scheme.length
  · rw [List.take_append_of_le_length hle]
  -- a shorter scheme is not the word, and neither is a text with a blank
  have hblank : b.toLower ∉ PAYMENT_SCHEME.map Char.toLower := by
    rcases of_decide_eq_true hb with rfl | rfl <;> decide
  have hmem : b ∈ (scheme ++ b :: more).take PAYMENT_SCHEME.length := by
    obtain ⟨k, hk⟩ := Nat.exists_eq_add_of_lt (Nat.not_le.mp hle)
    rw [hk, Nat.add_assoc, List.take_length_add_append]
    exact List.mem_append_right _ List.mem_cons_self
  have hleft : eqIgnoreCase ((scheme ++ b :: more).take PAYMENT_SCHEME.length) PAYMENT_SCHEME =
      false := decide_eq_false fun heq => hblank (heq ▸ List.mem_map_of_mem hmem)
  have hright : eqIgnoreCase (scheme.take PAYMENT_SCHEME.length) PAYMENT_SCHEME = false := by
    refine decide_eq_false fun heq => ?_
    have hlength := congrArg List.length heq
    rw [List.length_map, List.length_map, List.length_take] at hlength
    omega
  rw [hleft, hright]

section Pieces
variable {l : Char → Bool}

theorem schemeStartsAt_seen {c : AuthChallenge} (h : c.WellFormed) (hseen : c.Seen)
    {front rest text : List Char} (hfront : MayStart front.reverse)
    (htext : text = front ++ (c.text ++ rest)) :
    schemeStartsAt l text front.length PAYMENT_SCHEME = decide c.Named := by
  obtain hnil | ⟨b, more, hbody, hb⟩ := h.body.head
  · exact absurd hnil hseen.2
  have hname : eqIgnoreCase ((c.text ++ rest).take PAYMENT_SCHEME.length) PAYMENT_SCHEME =
      eqIgnoreCase (c.scheme.take PAYMENT_SCHEME.length) PAYMENT_SCHEME := by
    rw [AuthChallenge.text, hbody, List.append_assoc, List.cons_append]
    exact eqIgnoreCase_take hb
  have hstart := authSchemeStartsAt_seen (l := l) h hseen hfront rest
  rw [schemeStartsAt, htext, List.take_left, List.drop_left, hstart, hname]
  exact decide_eq_decide.mpr (and_iff_left rfl)

theorem groups_cons (c : AuthChallenge) (header : List AuthChallenge) :
    groups (c :: header) =
      (if c.Seen then [(c, header.takeWhile fun d => ¬ d.Seen)] else []) ++ groups header := by
  rw [groups]
  split_ifs <;> rfl

theorem piece_first {c : AuthChallenge} (hc : c.WellFormed) {header : List AuthChallenge}
    (h : ∀ d ∈ header, d.WellFormed) {front text : List Char} (hfront : MayStart front.reverse)
    {starts done : List Nat} (htext : text = front ++ (c.text ++ tailText header))
    (hstarts : starts = done ++ ((if c.Seen then [front.length] else []) ++
      positions (front.length + c.text.length) header))
    (hdone : ∀ start ∈ done, start ≤ front.length) :
    ((if c.Seen then [front.length] else []).filter fun start =>
        schemeStartsAt l text start PAYMENT_SCHEME).map (pieceAt text starts) =
      ((if c.Seen then [(c, header.takeWhile fun d => ¬ d.Seen)] else []).filter
        fun g => g.1.Named).map fun g => groupText g.1 g.2 := by
  by_cases hseen : c.Seen
  · rw [if_pos hseen] at hstarts
    rw [if_pos hseen, if_pos hseen]
    have hnamed := schemeStartsAt_seen (l := l) hc hseen hfront htext
    have hpiece := pieceAt_challenge hc h htext hstarts hdone
    by_cases hname : c.Named
    · simp [hnamed, hname, hpiece]
    · simp [hnamed, hname]
  · rw [if_neg hseen, if_neg hseen]
    rfl

/-- The pieces from a challenge on are the groups from it on. -/
theorem pieces_from {text : List Char} {starts : List Nat} {header : List AuthChallenge} :
    ∀ {c : AuthChallenge} {front : List Char} {done : List Nat}, c.WellFormed →
      (∀ d ∈ header, d.WellFormed) → MayStart front.reverse →
      text = front ++ (c.text ++ tailText header) →
      starts = done ++ ((if c.Seen then [front.length] else []) ++
        positions (front.length + c.text.length) header) →
      (∀ start ∈ done, start ≤ front.length) →
      (((if c.Seen then [front.length] else []) ++
          positions (front.length + c.text.length) header).filter fun start =>
        schemeStartsAt l text start PAYMENT_SCHEME).map (pieceAt text starts) =
        ((groups (c :: header)).filter fun g => g.1.Named).map fun g => groupText g.1 g.2 := by
  induction header with
  | nil =>
    intro c front done hc h hfront htext hstarts hdone
    have hfirst := piece_first (l := l) hc h hfront htext hstarts hdone
    rw [groups_cons, List.filter_append, List.map_append, hfirst, List.filter_append,
      List.map_append]
    rfl
  | cons d header ih =>
    intro c front done hc h hfront htext hstarts hdone
    have hfirst := piece_first (l := l) hc h hfront htext hstarts hdone
    obtain ⟨hd, hheader⟩ := List.forall_mem_cons.mp h
    have hlength : (front ++ (c.text ++ ',' :: d.blank)).length =
        front.length + c.text.length + 1 + d.blank.length := by
      simp only [List.length_append, List.length_cons]
      omega
    have hpositions : positions (front.length + c.text.length) (d :: header) =
        (if d.Seen then [(front ++ (c.text ++ ',' :: d.blank)).length] else []) ++
          positions ((front ++ (c.text ++ ',' :: d.blank)).length + d.text.length) header := by
      rw [hlength]
      rfl
    rw [groups_cons, List.filter_append, List.map_append, hfirst, List.filter_append,
      List.map_append, hpositions]
    refine congrArg (_ ++ ·) (@ih d _ (done ++ if c.Seen then [front.length] else []) hd hheader
      ?_ ?_ ?_ ?_)
    · have hreverse : (front ++ (c.text ++ ',' :: d.blank)).reverse =
          d.blank.reverse ++ ',' :: (front ++ c.text).reverse := by
        simp
      rw [hreverse]
      exact mayStart_blanks hd.blank _
    · rw [htext, tailText_cons]
      simp
    · rw [hstarts, hpositions, List.append_assoc]
    · intro start hstart
      rcases List.mem_append.mp hstart with hmem | hmem
      · have := hdone start hmem
        omega
      · split_ifs at hmem
        · obtain rfl := List.mem_singleton.mp hmem
          omega
        · cases hmem

theorem wellFormed_of_mem_groups {header : List AuthChallenge} (h : ∀ c ∈ header, c.WellFormed) :
    ∀ g ∈ groups header, g.1.WellFormed ∧ g.1.Seen ∧ ∀ d ∈ g.2, d.WellFormed := by
  induction header with
  | nil => exact fun g hg => nomatch hg
  | cons c header ih =>
    obtain ⟨hc, hheader⟩ := List.forall_mem_cons.mp h
    intro g hg
    rw [groups_cons] at hg
    rcases List.mem_append.mp hg with hmem | hmem
    · split_ifs at hmem with hseen
      · obtain rfl := List.mem_singleton.mp hmem
        exact ⟨hc, hseen, fun d hd => hheader d ((List.takeWhile_prefix _).mem hd)⟩
      · cases hmem
    · exact ih hheader g hmem

/-- **A header is cut** into its Payment challenges and whatever stands behind each of them
without being seen to start. -/
theorem extractChallenges_header {header : List AuthChallenge} (h : ∀ c ∈ header, c.WellFormed) :
    extractChallenges l (headerText header) PAYMENT_SCHEME =
      ((groups header).filter fun g => g.1.Named).map fun g => groupText g.1 g.2 := by
  cases header with
  | nil => rfl
  | cons c header =>
    obtain ⟨hc, hheader⟩ := List.forall_mem_cons.mp h
    have hempty : MayStart [] := Or.inl rfl
    obtain ⟨hfind, hbehind⟩ :=
      findChallengeStarts_challenge (l := l) hc hempty (tailText_head header)
    have hstarts : findChallengeStarts l [] false false false (headerText (c :: header)) =
        [] ++ ((if c.Seen then [([] : List Char).length] else []) ++
          positions (([] : List Char).length + c.text.length) header) := by
      rw [findChallengeStarts_tail hheader hbehind, List.append_nil, List.length_reverse] at hfind
      rw [headerText, hfind, List.nil_append, List.length_nil, Nat.zero_add]
    have hpieces := @pieces_from l (headerText (c :: header)) _ _ c [] [] hc hheader hempty rfl
      hstarts (fun start hstart => nomatch hstart)
    rw [List.nil_append] at hstarts
    rw [← hstarts] at hpieces
    have hall : extractChallenges l (headerText (c :: header)) PAYMENT_SCHEME =
        (((findChallengeStarts l [] false false false (headerText (c :: header))).filter
          fun start => schemeStartsAt l (headerText (c :: header)) start PAYMENT_SCHEME).map
            (pieceAt (headerText (c :: header)) (findChallengeStarts l [] false false false
              (headerText (c :: header))))).filter (· ≠ []) := rfl
    rw [hall, hpieces, List.filter_eq_self]
    intro text htext
    obtain ⟨g, hg, rfl⟩ := List.mem_map.mp htext
    obtain ⟨hfirst, -, hothers⟩ := wellFormed_of_mem_groups h g (List.mem_filter.mp hg).1
    exact decide_eq_true (trimmed_groupText hothers (trimmed_text hfirst)).ne

end Pieces

end Py
end MppSdk
