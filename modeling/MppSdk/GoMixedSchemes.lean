import MppSdk.GoFeePayer
import MppSdk.GoHeaders

/-! # Headers of several schemes in Go

A header is a list of challenges, each a scheme with at least one parameter.  The Payment
challenges among them are found whatever the others are, but the challenges between two of
them are read with the first (`splitPaymentChallengeValues_header`).  `mixedSchemes_iff` says
when that leaves the Payment challenges as they are alone. -/

namespace MppSdk
namespace Go

/-! ## Challenges -/

/-- A character of a name or of a value without quotes. -/
def IsTokenChar (c : Char) : Prop := isSpace c = false ∧ c ≠ ',' ∧ c ≠ '=' ∧ c ≠ '"'

instance (c : Char) : Decidable (IsTokenChar c) :=
  inferInstanceAs (Decidable (_ ∧ _ ∧ _ ∧ _))

theorem IsTokenChar.not_blank {c : Char} (h : IsTokenChar c) : isBlank c = false := by
  refine decide_eq_false fun hmem => ?_
  rcases hmem with rfl | rfl <;> exact absurd h.1 (by decide)

def IsToken (cs : List Char) : Prop := cs ≠ [] ∧ ∀ c ∈ cs, IsTokenChar c

/-- A value: in quotes, each character with whether it is escaped, or a token. -/
inductive AuthValue : Type
  | quoted (chars : List (Char × Bool))
  | token (cs : List Char)

namespace AuthValue

/-- A character in quotes. -/
def quotedChar (c : Char × Bool) : List Char := if c.2 then ['\\', c.1] else [c.1]

def text : AuthValue → List Char
  | quoted chars => '"' :: (chars.flatMap quotedChar ++ ['"'])
  | token cs => cs

def value : AuthValue → List Char
  | quoted chars => chars.map Prod.fst
  | token cs => cs

/-- Quotes and backslashes in quotes are escaped. -/
def WellFormed : AuthValue → Prop
  | quoted chars => ∀ c ∈ chars, c.2 = false → c.1 ≠ '"' ∧ c.1 ≠ '\\'
  | token cs => IsToken cs

end AuthValue

/-- A parameter, with the blanks in front of it. -/
structure AuthParam where
  blank : List Char
  name : List Char
  value : AuthValue

namespace AuthParam

def text (p : AuthParam) : List Char := p.blank ++ (p.name ++ '=' :: p.value.text)

structure WellFormed (p : AuthParam) : Prop where
  blank : ∀ c ∈ p.blank, isBlank c = true
  name : IsToken p.name
  value : p.value.WellFormed

end AuthParam

/-- A challenge, with the blanks in front of it. -/
structure AuthChallenge where
  blank : List Char
  scheme : List Char
  first : AuthParam
  rest : List AuthParam

namespace AuthChallenge

def text (c : AuthChallenge) : List Char :=
  c.scheme ++ (c.first.text ++ c.rest.flatMap fun p => ',' :: p.text)

/-- A scheme and its parameters, with a blank between them. -/
structure WellFormed (c : AuthChallenge) : Prop where
  blank : ∀ d ∈ c.blank, isBlank d = true
  scheme : IsToken c.scheme
  gap : c.first.blank ≠ []
  first : c.first.WellFormed
  rest : ∀ p ∈ c.rest, p.WellFormed

def IsPayment (c : AuthChallenge) : Prop :=
  c.scheme.map foldChar = paymentScheme.map foldChar

instance (c : AuthChallenge) : Decidable c.IsPayment := inferInstanceAs (Decidable (_ = _))

end AuthChallenge

/-- Challenges behind others. -/
def tailText (header : List AuthChallenge) : List Char :=
  header.flatMap fun c => ',' :: (c.blank ++ c.text)

/-- The text of a header. -/
def headerText : List AuthChallenge → List Char
  | [] => []
  | c :: header => c.blank ++ (c.text ++ tailText header)

/-! ## Where a Payment challenge starts -/

/-- Outside of quotes, the text is passed without a start and ends outside of quotes. -/
def Passed (before text : List Char) : Prop :=
  ∀ rest, schemeStarts before false false 0 (text ++ rest) =
    schemeStarts (text.reverse ++ before) false false 0 rest

theorem passed_nil (before : List Char) : Passed before [] := fun _ => rfl

theorem Passed.append {before text text' : List Char} (h : Passed before text)
    (h' : Passed (text.reverse ++ before) text') : Passed before (text ++ text') := by
  intro rest
  rw [List.append_assoc, h, h', List.reverse_append, List.append_assoc]

/-- A character that neither opens quotes nor starts a challenge is passed. -/
theorem schemeStarts_char {before rest : List Char} {c : Char} (hquote : c ≠ '"')
    (hstart : isPaymentSchemeStart before (c :: rest) = false) :
    schemeStarts before false false 0 (c :: rest) = schemeStarts (c :: before) false false 0 rest := by
  simp [schemeStarts, hquote, hstart]

theorem take_fold_of_start {before rest : List Char} (h : isPaymentSchemeStart before rest = true) :
    paymentScheme.length < rest.length ∧
      (rest.take paymentScheme.length).map foldChar = paymentScheme.map foldChar ∧
      (rest[paymentScheme.length]?).any isBlank = true ∧
      ((before.dropWhile isBlank).head?).all (· = ',') = true :=
  of_decide_eq_true h

/-- A scheme starts with the letter P. -/
theorem passed_of_ne {before : List Char} {c : Char} (hquote : c ≠ '"') (hp : foldChar c ≠ 'p') :
    Passed before [c] := by
  refine fun rest => schemeStarts_char hquote (Bool.eq_false_iff.mpr fun h => hp ?_)
  exact (List.cons.inj (take_fold_of_start h).2.1).1

theorem passed_blanks {blanks : List Char} (h : ∀ c ∈ blanks, isBlank c = true) :
    ∀ before : List Char, Passed before blanks := by
  induction blanks with
  | nil => exact passed_nil
  | cons c blanks ih =>
    intro before
    obtain ⟨hc, hblanks⟩ := List.forall_mem_cons.mp h
    have hfirst : Passed before [c] := by
      rcases of_decide_eq_true hc with rfl | rfl <;> exact passed_of_ne (by decide) (by decide)
    exact hfirst.append (ih hblanks _)

/-- A scheme starts behind a comma, if it is not the first. -/
theorem passed_behind {b : Char} (hb : isBlank b = false) (hcomma : b ≠ ',') {cs : List Char}
    (h : ∀ c ∈ cs, IsTokenChar c) : ∀ before : List Char, Passed (b :: before) cs := by
  induction cs generalizing b with
  | nil => exact fun before => passed_nil _
  | cons c cs ih =>
    intro before
    obtain ⟨htoken, hcs⟩ := List.forall_mem_cons.mp h
    have hc := htoken.2.1
    have hquote := htoken.2.2.2
    have hfirst : Passed (b :: before) [c] := by
      refine fun rest => schemeStarts_char hquote (Bool.eq_false_iff.mpr fun hstart => hcomma ?_)
      have := (take_fold_of_start hstart).2.2.2
      rw [List.dropWhile_cons_of_neg (by simp [hb])] at this
      simpa using this
    exact hfirst.append (ih htoken.not_blank hc hcs _)

/-- A token starts a Payment challenge only if it is that scheme and a blank follows. -/
theorem fold_of_start {before token rest : List Char} {d : Char} (htoken : IsToken token)
    (hd : foldChar d ∉ paymentScheme.map foldChar)
    (h : isPaymentSchemeStart before (token ++ d :: rest) = true) :
    token.map foldChar = paymentScheme.map foldChar ∧ isBlank d = true := by
  obtain ⟨-, hfold, hblank, -⟩ := take_fold_of_start h
  rcases Nat.lt_trichotomy token.length paymentScheme.length with hlt | heq | hgt
  · -- the character behind the token is part of the scheme
    have hmem : d ∈ (token ++ d :: rest).take paymentScheme.length := by
      obtain ⟨k, hk⟩ := Nat.exists_eq_add_of_lt hlt
      rw [hk, Nat.add_assoc, List.take_length_add_append]
      exact List.mem_append_right _ List.mem_cons_self
    exact absurd (hfold ▸ List.mem_map_of_mem hmem) hd
  · rw [← heq, List.take_left] at hfold
    rw [← heq, List.getElem?_append_right (Nat.le_refl _), Nat.sub_self] at hblank
    exact ⟨hfold, hblank⟩
  · -- a character of the token stands behind the scheme
    rw [List.getElem?_append_left hgt, List.getElem?_eq_getElem hgt] at hblank
    have htoken := (htoken.2 _ (List.getElem_mem hgt)).not_blank
    exact absurd hblank (by simpa using htoken)

theorem foldChar_blank {c : Char} (h : isBlank c = true) :
    foldChar c ∉ paymentScheme.map foldChar := by
  rcases of_decide_eq_true h with rfl | rfl <;> decide

theorem passed_cons {before text : List Char} {c : Char} (hquote : c ≠ '"')
    (hstart : ∀ rest, isPaymentSchemeStart before (c :: (text ++ rest)) = false)
    (htext : Passed (c :: before) text) : Passed before (c :: text) := by
  intro rest
  rw [List.cons_append, schemeStarts_char hquote (hstart rest), htext, List.reverse_cons,
    List.append_assoc]
  rfl

/-- The name of a parameter starts nothing. -/
theorem passed_name {name : List Char} (h : IsToken name) (before : List Char) :
    Passed before (name ++ ['=']) := by
  obtain ⟨hne, hchars⟩ := h
  cases name with
  | nil => exact absurd rfl hne
  | cons c cs =>
    obtain ⟨hc, hcs⟩ := List.forall_mem_cons.mp hchars
    refine passed_cons hc.2.2.2 (fun rest => Bool.eq_false_iff.mpr fun hstart => ?_)
      ((passed_behind hc.not_blank hc.2.1 hcs before).append (passed_of_ne (by decide) (by decide)))
    have htext : c :: (cs ++ ['='] ++ rest) = (c :: cs) ++ '=' :: rest := by simp
    have hstart := (congrArg (isPaymentSchemeStart before) htext).symm.trans hstart
    have hblank := (fold_of_start ⟨hne, hchars⟩ (by decide) hstart).2
    exact absurd hblank (by decide)

/-- Nor does another scheme with a blank behind it. -/
theorem passed_scheme {scheme : List Char} {b : Char} (h : IsToken scheme) (hb : isBlank b = true)
    (hother : scheme.map foldChar ≠ paymentScheme.map foldChar) (before : List Char) :
    Passed before (scheme ++ [b]) := by
  obtain ⟨hne, hchars⟩ := h
  cases scheme with
  | nil => exact absurd rfl hne
  | cons c cs =>
    obtain ⟨hc, hcs⟩ := List.forall_mem_cons.mp hchars
    have hblank : ∀ before : List Char, Passed before [b] :=
      passed_blanks (List.forall_mem_singleton.mpr hb)
    refine passed_cons hc.2.2.2 (fun rest => Bool.eq_false_iff.mpr fun hstart => ?_)
      ((passed_behind hc.not_blank hc.2.1 hcs before).append (hblank _))
    have htext : c :: (cs ++ [b] ++ rest) = (c :: cs) ++ b :: rest := by simp
    have hstart := (congrArg (isPaymentSchemeStart before) htext).symm.trans hstart
    exact hother (fold_of_start ⟨hne, hchars⟩ (foldChar_blank hb) hstart).1

/-- Inside quotes nothing starts. -/
theorem schemeStarts_quoted {chars : List (Char × Bool)}
    (h : ∀ c ∈ chars, c.2 = false → c.1 ≠ '"' ∧ c.1 ≠ '\\') : ∀ before rest : List Char,
    schemeStarts before true false 0 (chars.flatMap AuthValue.quotedChar ++ '"' :: rest) =
      schemeStarts ('"' :: ((chars.flatMap AuthValue.quotedChar).reverse ++ before)) false false 0
        rest := by
  induction chars with
  | nil =>
    intro before rest
    simp [schemeStarts]
  | cons c chars ih =>
    intro before rest
    obtain ⟨hc, hchars⟩ := List.forall_mem_cons.mp h
    obtain ⟨c, escaped⟩ := c
    rw [List.flatMap_cons, List.append_assoc, List.reverse_append, List.append_assoc,
      ← ih hchars]
    cases escaped with
    | true => simp [AuthValue.quotedChar, schemeStarts]
    | false =>
      obtain ⟨hquote, hbackslash⟩ := hc rfl
      simp [AuthValue.quotedChar, schemeStarts, hquote, hbackslash]

/-- The value of a parameter starts nothing. -/
theorem passed_value {value : AuthValue} (h : value.WellFormed) (before : List Char) :
    Passed ('=' :: before) value.text := by
  cases value with
  | quoted chars =>
    intro rest
    rw [AuthValue.text, List.cons_append, List.append_assoc, List.singleton_append]
    simp only [schemeStarts, Bool.false_eq_true, if_false, if_true]
    rw [schemeStarts_quoted h]
    simp
  | token cs => exact passed_behind (by decide) (by decide) h.2 before

theorem passed_param {p : AuthParam} (h : p.WellFormed) (before : List Char) :
    Passed before p.text := by
  have hname := passed_name h.name (p.blank.reverse ++ before)
  have hvalue : Passed ((p.name ++ ['=']).reverse ++ (p.blank.reverse ++ before)) p.value.text := by
    rw [List.reverse_append]
    exact passed_value h.value _
  have htext : p.text = p.blank ++ ((p.name ++ ['=']) ++ p.value.text) := by
    simp [AuthParam.text]
  rw [htext]
  exact (passed_blanks h.blank before).append (hname.append hvalue)

theorem passed_rest {params : List AuthParam} (h : ∀ p ∈ params, p.WellFormed) :
    ∀ before : List Char, Passed before (params.flatMap fun p => ',' :: p.text) := by
  induction params with
  | nil => exact passed_nil
  | cons p params ih =>
    intro before
    obtain ⟨hp, hparams⟩ := List.forall_mem_cons.mp h
    have hcomma : Passed before [','] := passed_of_ne (by decide) (by decide)
    exact (hcomma.append (passed_param hp _)).append (ih hparams _)

/-- The text of a challenge is its scheme, a blank and its parameters. -/
theorem AuthChallenge.WellFormed.exists_text {c : AuthChallenge} (h : c.WellFormed) :
    ∃ (b : Char) (first : AuthParam), isBlank b = true ∧ first.WellFormed ∧
      c.text = (c.scheme ++ [b]) ++ (first.text ++ c.rest.flatMap fun p => ',' :: p.text) := by
  cases hblank : c.first.blank with
  | nil => exact absurd hblank h.gap
  | cons b blanks =>
    have hblanks := h.first.blank
    rw [hblank] at hblanks
    obtain ⟨hb, hblanks⟩ := List.forall_mem_cons.mp hblanks
    refine ⟨b, { c.first with blank := blanks }, hb, ⟨hblanks, h.first.name, h.first.value⟩, ?_⟩
    simp [AuthChallenge.text, AuthParam.text, hblank]

/-- A challenge of another scheme is passed. -/
theorem passed_other {c : AuthChallenge} (h : c.WellFormed) (hother : ¬ c.IsPayment)
    (before : List Char) : Passed before c.text := by
  obtain ⟨b, first, hb, hfirst, htext⟩ := h.exists_text
  rw [htext]
  exact (passed_scheme h.scheme hb hother before).append
    ((passed_param hfirst _).append (passed_rest h.rest _))

theorem schemeStarts_skip (cs : List Char) : ∀ before rest : List Char,
    schemeStarts before false false cs.length (cs ++ rest) =
      schemeStarts (cs.reverse ++ before) false false 0 rest := by
  induction cs with
  | nil => exact fun before rest => rfl
  | cons c cs ih =>
    intro before rest
    rw [List.reverse_cons, List.append_assoc]
    exact ih (c :: before) rest

/-- A challenge may start: nothing or a comma is in front of it. -/
def Starts (before : List Char) : Prop := ((before.dropWhile isBlank).head?).all (· = ',') = true

theorem starts_blanks {blanks : List Char} (h : ∀ c ∈ blanks, isBlank c = true) (before : List Char) :
    Starts (blanks.reverse ++ ',' :: before) := by
  rw [Starts, List.dropWhile_append_of_pos fun c hc => h c (List.mem_reverse.mp hc)]
  rfl

theorem length_scheme {c : AuthChallenge} (hpayment : c.IsPayment) :
    c.scheme.length = paymentScheme.length := by
  have := congrArg List.length hpayment
  simpa only [List.length_map] using this

/-- A Payment challenge has one start, and the header goes on outside of quotes. -/
theorem schemeStarts_payment {c : AuthChallenge} (h : c.WellFormed) (hpayment : c.IsPayment)
    {before : List Char} (hbefore : Starts before) (rest : List Char) :
    schemeStarts before false false 0 (c.text ++ rest) =
      before.length :: schemeStarts (c.text.reverse ++ before) false false 0 rest := by
  obtain ⟨b, first, hb, hfirst, htext⟩ := h.exists_text
  have hlength := length_scheme hpayment
  have hparams : Passed ((c.scheme ++ [b]).reverse ++ before)
      (first.text ++ c.rest.flatMap fun p => ',' :: p.text) :=
    (passed_param hfirst _).append (passed_rest h.rest _)
  have hblank : Passed (c.scheme.reverse ++ before) [b] :=
    passed_blanks (List.forall_mem_singleton.mpr hb) _
  obtain ⟨s, scheme, hscheme⟩ : ∃ s scheme, c.scheme = s :: scheme := by
    cases hcs : c.scheme with
    | nil => exact absurd hcs h.scheme.1
    | cons s scheme => exact ⟨s, scheme, rfl⟩
  have hquote : s ≠ '"' := (h.scheme.2 s (hscheme ▸ List.mem_cons_self)).2.2.2
  have hstart : ∀ rest, isPaymentSchemeStart before (c.scheme ++ b :: rest) = true := by
    intro rest
    refine decide_eq_true ⟨?_, ?_, ?_, hbefore⟩
    · rw [← hlength, List.length_append, List.length_cons]
      omega
    · rw [← hlength, List.take_left]
      exact hpayment
    · rw [← hlength, List.getElem?_append_right (Nat.le_refl _), Nat.sub_self]
      exact hb
  have hskip : ∀ rest, schemeStarts before false false 0 (c.scheme ++ b :: rest) =
      before.length :: schemeStarts (c.scheme.reverse ++ before) false false 0 (b :: rest) := by
    intro rest
    have hstart := hstart rest
    have hrest : scheme.length = paymentScheme.length - 1 := by
      rw [← hlength, hscheme]
      rfl
    rw [hscheme, List.cons_append] at hstart ⊢
    rw [List.reverse_cons, List.append_assoc, schemeStarts]
    simp only [Bool.false_eq_true, if_false]
    rw [if_neg hquote, if_pos hstart, ← hrest]
    exact congrArg _ (schemeStarts_skip scheme (s :: before) (b :: rest))
  have hall : c.text ++ rest = c.scheme ++
      b :: ((first.text ++ c.rest.flatMap fun p => ',' :: p.text) ++ rest) := by
    simp [htext]
  have hb' := hblank ((first.text ++ c.rest.flatMap fun p => ',' :: p.text) ++ rest)
  have hreverse : c.text.reverse ++ before =
      (first.text ++ c.rest.flatMap fun p => ',' :: p.text).reverse ++
        ((c.scheme ++ [b]).reverse ++ before) := by
    simp [htext]
  rw [hall, hskip, hreverse, ← hparams rest]
  refine congrArg _ (hb'.trans ?_)
  simp

/-! ## Where the next challenge starts -/

/-- Outside of quotes, no challenge starts in the text, which ends outside of quotes. -/
def Crossed (text : List Char) : Prop :=
  ∀ index rest, nextAuthSchemeStart index false false (text ++ rest) =
    nextAuthSchemeStart (index + text.length) false false rest

theorem crossed_nil : Crossed [] := fun _ _ => rfl

theorem Crossed.append {text text' : List Char} (h : Crossed text) (h' : Crossed text') :
    Crossed (text ++ text') := by
  intro index rest
  rw [List.append_assoc, h, h', List.length_append, Nat.add_assoc]

theorem crossed_of_ne {c : Char} (hquote : c ≠ '"') (hcomma : c ≠ ',') : Crossed [c] := by
  intro index rest
  simp [nextAuthSchemeStart, hquote, hcomma]

theorem crossed_plain {cs : List Char} (h : ∀ c ∈ cs, c ≠ '"' ∧ c ≠ ',') : Crossed cs := by
  induction cs with
  | nil => exact crossed_nil
  | cons c cs ih =>
    obtain ⟨hc, hcs⟩ := List.forall_mem_cons.mp h
    exact (crossed_of_ne hc.1 hc.2).append (ih hcs)

theorem crossed_blanks {blanks : List Char} (h : ∀ c ∈ blanks, isBlank c = true) : Crossed blanks := by
  refine crossed_plain fun c hc => ?_
  rcases of_decide_eq_true (h c hc) with rfl | rfl <;> decide

theorem IsToken.crossed {cs : List Char} (h : IsToken cs) : Crossed cs :=
  crossed_plain fun c hc => ⟨(h.2 c hc).2.2.2, (h.2 c hc).2.1⟩

theorem nextAuthSchemeStart_quoted {chars : List (Char × Bool)}
    (h : ∀ c ∈ chars, c.2 = false → c.1 ≠ '"' ∧ c.1 ≠ '\\') : ∀ (index : Nat) (rest : List Char),
    nextAuthSchemeStart index true false (chars.flatMap AuthValue.quotedChar ++ '"' :: rest) =
      nextAuthSchemeStart (index + (chars.flatMap AuthValue.quotedChar).length + 1) false false
        rest := by
  induction chars with
  | nil =>
    intro index rest
    simp [nextAuthSchemeStart]
  | cons c chars ih =>
    intro index rest
    obtain ⟨hc, hchars⟩ := List.forall_mem_cons.mp h
    obtain ⟨c, escaped⟩ := c
    rw [List.flatMap_cons, List.append_assoc, List.length_append]
    cases escaped with
    | true =>
      simp only [AuthValue.quotedChar, if_true, List.cons_append, List.nil_append,
        nextAuthSchemeStart, Bool.false_eq_true, if_false]
      rw [ih hchars]
      congr 1
      simp only [List.length_cons, List.length_nil]
      omega
    | false =>
      obtain ⟨hquote, hbackslash⟩ := hc rfl
      simp only [AuthValue.quotedChar, if_true, List.cons_append, List.nil_append,
        nextAuthSchemeStart, Bool.false_eq_true, if_false, hbackslash, hquote, ne_eq,
        not_false_eq_true, decide_true]
      rw [ih hchars]
      congr 1
      simp only [List.length_cons, List.length_nil]
      omega

theorem crossed_value {value : AuthValue} (h : value.WellFormed) : Crossed value.text := by
  cases value with
  | quoted chars =>
    intro index rest
    rw [AuthValue.text, List.cons_append, List.append_assoc, List.singleton_append]
    simp only [nextAuthSchemeStart, Bool.false_eq_true, if_false, if_true]
    rw [nextAuthSchemeStart_quoted h]
    congr 1
    simp only [List.length_cons, List.length_append, List.length_nil]
    omega
  | token cs => exact IsToken.crossed h

theorem crossed_param {p : AuthParam} (h : p.WellFormed) : Crossed p.text := by
  have hequals : Crossed ['='] := crossed_of_ne (by decide) (by decide)
  exact (crossed_blanks h.blank).append (h.name.crossed.append (hequals.append (crossed_value h.value)))

theorem dropWhile_blanks {blanks token : List Char} (h : ∀ c ∈ blanks, isBlank c = true)
    (htoken : IsToken token) (rest : List Char) :
    (blanks ++ (token ++ rest)).dropWhile isBlank = token ++ rest ∧
      (blanks ++ (token ++ rest)).takeWhile isBlank = blanks := by
  cases token with
  | nil => exact absurd rfl htoken.1
  | cons c token =>
    have hc := (htoken.2 c List.mem_cons_self).not_blank
    rw [List.dropWhile_append_of_pos h, List.takeWhile_append_of_pos h, List.cons_append,
      List.dropWhile_cons_of_neg (by simp [hc]), List.takeWhile_cons_of_neg (by simp [hc])]
    exact ⟨rfl, List.append_nil _⟩

/-- What follows a token tells whether it is a scheme. -/
theorem isAuthSchemeStart_token {token : List Char} {d : Char} (h : IsToken token)
    (hd : isBlank d = true ∨ d = ',' ∨ d = '=') (rest : List Char) :
    isAuthSchemeStart (token ++ d :: rest) = isBlank d := by
  have hgoes : ∀ c ∈ token, decide (¬ (isBlank c = true ∨ c = ',' ∨ c = '=')) = true := by
    intro c hc
    have := h.2 c hc
    exact decide_eq_true fun hstop => hstop.elim (fun hb => by simp [this.not_blank] at hb)
      fun hs => hs.elim this.2.1 this.2.2.1
  have hstops : ¬ decide (¬ (isBlank d = true ∨ d = ',' ∨ d = '=')) = true :=
    fun hgo => of_decide_eq_true hgo hd
  unfold isAuthSchemeStart
  dsimp only
  rw [List.takeWhile_append_of_pos hgoes, List.dropWhile_append_of_pos hgoes,
    List.takeWhile_cons_of_neg (p := fun c => decide (¬ (isBlank c = true ∨ c = ',' ∨ c = '='))) hstops,
    List.dropWhile_cons_of_neg (p := fun c => decide (¬ (isBlank c = true ∨ c = ',' ∨ c = '='))) hstops]
  cases hb : isBlank d <;> simp [h.1, hb]

theorem crossed_next_param {p : AuthParam} (h : p.WellFormed) : Crossed (',' :: p.text) := by
  intro index rest
  have htext : p.text ++ rest = p.blank ++ (p.name ++ '=' :: (p.value.text ++ rest)) := by
    simp [AuthParam.text]
  have hnone : isAuthSchemeStart ((p.text ++ rest).dropWhile isBlank) = false := by
    rw [htext, (dropWhile_blanks h.blank h.name _).1, isAuthSchemeStart_token h.name (by simp)]
    decide
  have hcomma : nextAuthSchemeStart index false false (',' :: (p.text ++ rest)) =
      nextAuthSchemeStart (index + 1) false false (p.text ++ rest) := by
    rw [nextAuthSchemeStart]
    simp [hnone]
  rw [List.cons_append, hcomma, crossed_param h, List.length_cons]
  congr 1
  omega

theorem crossed_next_params {params : List AuthParam} (h : ∀ p ∈ params, p.WellFormed) :
    Crossed (params.flatMap fun p => ',' :: p.text) := by
  induction params with
  | nil => exact crossed_nil
  | cons p params ih =>
    obtain ⟨hp, hparams⟩ := List.forall_mem_cons.mp h
    exact (crossed_next_param hp).append (ih hparams)

/-- The next challenge starts behind its comma and blanks. -/
theorem nextAuthSchemeStart_challenge {c : AuthChallenge} (h : c.WellFormed) (index : Nat)
    (rest : List Char) :
    nextAuthSchemeStart index false false (',' :: (c.blank ++ (c.text ++ rest))) =
      some (index + 1 + c.blank.length) := by
  obtain ⟨b, first, hb, -, htext⟩ := h.exists_text
  have hall : c.blank ++ (c.text ++ rest) = c.blank ++ (c.scheme ++
      b :: ((first.text ++ c.rest.flatMap fun p => ',' :: p.text) ++ rest)) := by
    simp [htext]
  have hblanks := dropWhile_blanks h.blank h.scheme
    (b :: ((first.text ++ c.rest.flatMap fun p => ',' :: p.text) ++ rest))
  have hsome : isAuthSchemeStart ((c.blank ++ (c.text ++ rest)).dropWhile isBlank) = true := by
    rw [hall, hblanks.1, isAuthSchemeStart_token h.scheme (Or.inl hb)]
    exact hb
  have htake : (c.blank ++ (c.text ++ rest)).takeWhile isBlank = c.blank := by
    rw [hall, hblanks.2]
  rw [nextAuthSchemeStart]
  simp [hsome, htake]

/-! ## The values of a header -/

/-- The Payment challenges of a header, each with the challenges up to the next one; none are
read with the last. -/
def swallowed : List AuthChallenge → List (AuthChallenge × List AuthChallenge)
  | [] => []
  | c :: header =>
      if c.IsPayment then
        (c, if header.any (fun d => d.IsPayment) then header.takeWhile (fun d => ¬ d.IsPayment)
          else []) :: swallowed header
      else swallowed header

/-- What is read of a Payment challenge. -/
def valueText (c : AuthChallenge) (others : List AuthChallenge) : List Char :=
  c.text ++ tailText others

theorem value_ends {value : AuthValue} (h : value.WellFormed) :
    ∃ cs c, value.text = cs ++ [c] ∧ isSpace c = false ∧ c ≠ ',' := by
  cases value with
  | quoted chars => exact ⟨'"' :: chars.flatMap AuthValue.quotedChar, '"', rfl, by decide, by decide⟩
  | token cs =>
    obtain ⟨hne, hchars⟩ := h
    obtain ⟨cs, c, rfl⟩ : ∃ before last, cs = before ++ [last] :=
      ⟨_, _, (List.dropLast_concat_getLast hne).symm⟩
    have hc := hchars c (List.mem_append_right _ (List.mem_singleton_self c))
    exact ⟨cs, c, rfl, hc.1, hc.2.1⟩

theorem rest_ends {before : List Char} (hbefore : ∃ cs c, before = cs ++ [c] ∧ isSpace c = false ∧ c ≠ ',')
    {params : List AuthParam} (h : ∀ p ∈ params, p.WellFormed) :
    ∃ cs c, (before ++ params.flatMap fun p => ',' :: p.text) = cs ++ [c] ∧ isSpace c = false ∧
      c ≠ ',' := by
  induction params generalizing before with
  | nil => simpa using hbefore
  | cons p params ih =>
    obtain ⟨hp, hparams⟩ := List.forall_mem_cons.mp h
    obtain ⟨cs, c, hvalue, hspace, hcomma⟩ := value_ends hp.value
    rw [List.flatMap_cons, ← List.append_assoc]
    refine ih ⟨before ++ ',' :: (p.blank ++ (p.name ++ '=' :: cs)), c, ?_, hspace, hcomma⟩ hparams
    simp [AuthParam.text, hvalue]

theorem text_ends {c : AuthChallenge} (h : c.WellFormed) :
    ∃ cs d, c.text = cs ++ [d] ∧ isSpace d = false ∧ d ≠ ',' := by
  obtain ⟨cs, d, hvalue, hspace, hcomma⟩ := value_ends h.first.value
  have hfirst : ∃ cs d, c.scheme ++ c.first.text = cs ++ [d] ∧ isSpace d = false ∧ d ≠ ',' :=
    ⟨c.scheme ++ (c.first.blank ++ (c.first.name ++ '=' :: cs)), d, by
      simp [AuthParam.text, hvalue], hspace, hcomma⟩
  have hall := rest_ends hfirst h.rest
  rwa [List.append_assoc] at hall

theorem valueText_ends {c : AuthChallenge} {others : List AuthChallenge} (hc : c.WellFormed)
    (h : ∀ d ∈ others, d.WellFormed) :
    ∃ cs d, valueText c others = cs ++ [d] ∧ isSpace d = false ∧ d ≠ ',' := by
  unfold valueText
  have hends := text_ends hc
  generalize c.text = before at hends
  induction others generalizing before with
  | nil => simpa [tailText] using hends
  | cons d others ih =>
    obtain ⟨hd, hothers⟩ := List.forall_mem_cons.mp h
    obtain ⟨cs, last, htext, hspace, hcomma⟩ := text_ends hd
    have htail : before ++ tailText (d :: others) =
        (before ++ ',' :: (d.blank ++ d.text)) ++ tailText others := by
      simp [tailText]
    rw [htail]
    refine ih hothers _ ⟨before ++ ',' :: (d.blank ++ cs), last, ?_, hspace, hcomma⟩
    simp [htext]

theorem valueText_head {c : AuthChallenge} (hc : c.WellFormed) (others : List AuthChallenge)
    (more : List Char) : ∀ d, (valueText c others ++ more).head? = some d → isSpace d = false := by
  intro d hd
  cases hscheme : c.scheme with
  | nil => exact absurd hscheme hc.scheme.1
  | cons s scheme =>
    have hs := (hc.scheme.2 s (hscheme ▸ List.mem_cons_self)).1
    simp only [valueText, AuthChallenge.text, hscheme, List.cons_append, List.head?_cons,
      Option.some.injEq] at hd
    exact hd ▸ hs

theorem trimMatches_valueText {c : AuthChallenge} {others : List AuthChallenge} (hc : c.WellFormed)
    (h : ∀ d ∈ others, d.WellFormed) :
    trimMatches isSpace (valueText c others) = valueText c others := by
  refine trimMatches_eq_self (fun d hd => valueText_head hc others [] d (by simpa using hd)) ?_
  intro d hd
  obtain ⟨cs, last, htext, hspace, -⟩ := valueText_ends hc h
  rw [htext, List.getLast?_concat] at hd
  exact Option.some.inj hd ▸ hspace

theorem trimValue_valueText {c : AuthChallenge} {others : List AuthChallenge} (hc : c.WellFormed)
    (h : ∀ d ∈ others, d.WellFormed) : trimValue (valueText c others) = valueText c others := by
  obtain ⟨cs, last, htext, -, hcomma⟩ := valueText_ends hc h
  have hcommas : ((valueText c others).reverse.dropWhile (· = ',')).reverse = valueText c others := by
    rw [htext]
    simp [hcomma]
  rw [trimValue, trimMatches_valueText hc h]
  rw [hcommas, trimMatches_valueText hc h]

/-- The comma behind a value, and its blanks, are trimmed. -/
theorem trimValue_comma {c : AuthChallenge} {others : List AuthChallenge} (hc : c.WellFormed)
    (h : ∀ d ∈ others, d.WellFormed) {blanks : List Char} (hblanks : ∀ d ∈ blanks, isBlank d = true) :
    trimValue (valueText c others ++ ',' :: blanks) = valueText c others := by
  obtain ⟨cs, last, htext, -, hcomma⟩ := valueText_ends hc h
  have hspaces : ∀ d ∈ blanks.reverse, isSpace d = true := by
    intro d hd
    rcases of_decide_eq_true (hblanks d (List.mem_reverse.mp hd)) with rfl | rfl <;> decide
  have htrim : trimMatches isSpace (valueText c others ++ ',' :: blanks) = valueText c others ++ [','] := by
    rw [trimMatches, dropWhile_of_head (valueText_head hc others _), List.reverse_append,
      List.reverse_cons, List.append_assoc, List.dropWhile_append_of_pos hspaces]
    simp [isSpace]
  have hcommas : ((valueText c others ++ [',']).reverse.dropWhile (· = ',')).reverse =
      valueText c others := by
    rw [htext]
    simp [hcomma]
  rw [trimValue, htrim]
  rw [hcommas, trimMatches_valueText hc h]

theorem passed_tail {others : List AuthChallenge}
    (h : ∀ c ∈ others, c.WellFormed ∧ ¬ c.IsPayment) :
    ∀ before : List Char, Passed before (tailText others) := by
  induction others with
  | nil => exact passed_nil
  | cons c others ih =>
    intro before
    obtain ⟨⟨hc, hother⟩, hothers⟩ := List.forall_mem_cons.mp h
    have hcomma : Passed before [','] := passed_of_ne (by decide) (by decide)
    have hchallenge := (passed_blanks hc.blank ([','].reverse ++ before)).append (passed_other hc hother _)
    exact (hcomma.append hchallenge).append (ih hothers _)

theorem swallowed_append {others : List AuthChallenge} (h : ∀ c ∈ others, ¬ c.IsPayment)
    (header : List AuthChallenge) : swallowed (others ++ header) = swallowed header := by
  induction others with
  | nil => rfl
  | cons c others ih =>
    obtain ⟨hc, hothers⟩ := List.forall_mem_cons.mp h
    rw [List.cons_append, swallowed, if_neg hc, ih hothers]

/-- A Payment challenge and what is read with it, when another one follows. -/
theorem swallowed_cons_append {c next : AuthChallenge} (hc : c.IsPayment) (hnext : next.IsPayment)
    {others : List AuthChallenge} (h : ∀ d ∈ others, ¬ d.IsPayment) (header : List AuthChallenge) :
    swallowed (c :: (others ++ next :: header)) = (c, others) :: swallowed (next :: header) := by
  have hany : (others ++ next :: header).any (fun d => d.IsPayment) = true := by simp [hnext]
  have htake : (others ++ next :: header).takeWhile (fun d => ¬ d.IsPayment) = others := by
    rw [List.takeWhile_append_of_pos fun d hd => decide_eq_true (h d hd)]
    simp [hnext]
  rw [swallowed, if_pos hc, if_pos hany, htake, swallowed_append h]

theorem swallowed_last {c : AuthChallenge} (hc : c.IsPayment) {others : List AuthChallenge}
    (h : ∀ d ∈ others, ¬ d.IsPayment) : swallowed (c :: others) = [(c, [])] := by
  have hany : ¬ others.any (fun d => d.IsPayment) = true := by simpa using h
  have hrest : swallowed others = [] := by
    simpa [swallowed] using swallowed_append h []
  rw [swallowed, if_pos hc, if_neg hany, hrest]

/-- A list with a Payment challenge has a first one. -/
theorem exists_first {header : List AuthChallenge} (h : ¬ ∀ c ∈ header, ¬ c.IsPayment) :
    ∃ others next rest, header = others ++ next :: rest ∧ next.IsPayment ∧
      ∀ c ∈ others, ¬ c.IsPayment := by
  induction header with
  | nil => exact absurd (fun c hc => nomatch hc) h
  | cons c header ih =>
    by_cases hc : c.IsPayment
    · exact ⟨[], c, header, rfl, hc, fun d hd => nomatch hd⟩
    · obtain ⟨others, next, rest, rfl, hnext, hothers⟩ :=
        ih fun hall => h (List.forall_mem_cons.mpr ⟨hc, hall⟩)
      exact ⟨c :: others, next, rest, rfl, hnext, List.forall_mem_cons.mpr ⟨hc, hothers⟩⟩

/-- Behind the last Payment challenge the value ends where the next challenge starts. -/
theorem valuesAt_last {c : AuthChallenge} (hc : c.WellFormed) (hpayment : c.IsPayment)
    {others : List AuthChallenge} (h : ∀ d ∈ others, d.WellFormed) (before : List Char) :
    (valuesAt (before.reverse ++ (c.text ++ tailText others)) [before.length]).map trimValue =
      [c.text] := by
  have hlength := length_scheme hpayment
  have hdrop : (before.reverse ++ (c.text ++ tailText others)).drop before.length =
      c.text ++ tailText others := List.drop_left' List.length_reverse
  have hafter : (before.reverse ++ (c.text ++ tailText others)).drop
      (before.length + paymentScheme.length) =
      (c.first.text ++ c.rest.flatMap fun p => ',' :: p.text) ++ tailText others := by
    rw [← List.drop_drop, hdrop, AuthChallenge.text, List.append_assoc]
    exact List.drop_left' hlength
  have hcrossed : Crossed (c.first.text ++ c.rest.flatMap fun p => ',' :: p.text) :=
    (crossed_param hc.first).append (crossed_next_params hc.rest)
  have htext : valueText c [] = c.text := by simp [valueText, tailText]
  have hnone : ∀ d ∈ ([] : List AuthChallenge), d.WellFormed := fun d hd => nomatch hd
  rw [valuesAt, hafter, hdrop, hcrossed]
  cases others with
  | nil =>
    show [trimValue (c.text ++ [])] = _
    rw [List.append_nil, ← htext, trimValue_valueText hc hnone]
  | cons next others =>
    have hnext := h next List.mem_cons_self
    have htail : tailText (next :: others) = ',' :: (next.blank ++ (next.text ++ tailText others)) := by
      simp [tailText]
    have htake : (c.text ++ tailText (next :: others)).take (before.length + paymentScheme.length +
        (c.first.text ++ c.rest.flatMap fun p => ',' :: p.text).length + 1 + next.blank.length -
          before.length) = c.text ++ ',' :: next.blank := by
      have hsplit : c.text ++ tailText (next :: others) =
          (c.text ++ ',' :: next.blank) ++ (next.text ++ tailText others) := by
        rw [htail]
        simp
      rw [hsplit]
      refine List.take_left' ?_
      simp only [AuthChallenge.text, List.length_append, List.length_cons, hlength]
      omega
    rw [htail, nextAuthSchemeStart_challenge hnext, ← htail]
    show [trimValue ((c.text ++ tailText (next :: others)).take _)] = _
    rw [htake, ← htext, trimValue_comma hc hnone hnext.blank]

theorem valuesAt_payment (header : List AuthChallenge) (c : AuthChallenge) (before : List Char)
    (hc : c.WellFormed) (hpayment : c.IsPayment) (h : ∀ d ∈ header, d.WellFormed) :
    (valuesAt (before.reverse ++ (c.text ++ tailText header))
        (before.length :: schemeStarts (c.text.reverse ++ before) false false 0 (tailText header))).map
          trimValue =
      (swallowed (c :: header)).map fun s => valueText s.1 s.2 := by
  by_cases hnone : ∀ d ∈ header, ¬ d.IsPayment
  · have hstarts := passed_tail (fun d hd => ⟨h d hd, hnone d hd⟩) (c.text.reverse ++ before) []
    rw [List.append_nil] at hstarts
    rw [hstarts, swallowed_last hpayment hnone]
    show (valuesAt _ [before.length]).map trimValue = _
    rw [valuesAt_last hc hpayment h]
    simp [valueText, tailText]
  · obtain ⟨others, next, rest, rfl, hnext, hothers⟩ := exists_first hnone
    obtain ⟨hwell, hnextrest⟩ := List.forall_mem_append.mp h
    obtain ⟨hnextwell, hrest⟩ := List.forall_mem_cons.mp hnextrest
    -- the text up to the next Payment challenge
    let upto := c.text ++ (tailText others ++ ',' :: next.blank)
    have htext : c.text ++ tailText (others ++ next :: rest) =
        upto ++ (next.text ++ tailText rest) := by
      simp [upto, tailText]
    have hbefore : upto.reverse ++ before =
        next.blank.reverse ++ ',' :: ((tailText others).reverse ++ (c.text.reverse ++ before)) := by
      simp [upto]
    have hstart : Starts (upto.reverse ++ before) := by
      rw [hbefore]
      exact starts_blanks hnextwell.blank _
    have hcomma : Passed ((tailText others).reverse ++ (c.text.reverse ++ before)) [','] :=
      passed_of_ne (by decide) (by decide)
    have hpassed : Passed (c.text.reverse ++ before) (tailText others ++ ([','] ++ next.blank)) :=
      (passed_tail (fun d hd => ⟨hwell d hd, hothers d hd⟩) _).append
        (hcomma.append (passed_blanks hnextwell.blank _))
    have htail : tailText (others ++ next :: rest) =
        (tailText others ++ ([','] ++ next.blank)) ++ (next.text ++ tailText rest) := by
      simp [tailText]
    have hstarts : schemeStarts (c.text.reverse ++ before) false false 0
        (tailText (others ++ next :: rest)) =
        (upto.reverse ++ before).length ::
          schemeStarts (next.text.reverse ++ (upto.reverse ++ before)) false false 0 (tailText rest) := by
      have hreverse : (tailText others ++ ([','] ++ next.blank)).reverse ++ (c.text.reverse ++ before) =
          upto.reverse ++ before := by
        simp [upto]
      rw [htail, hpassed, hreverse, schemeStarts_payment hnextwell hnext hstart]
    have hheader : before.reverse ++ (c.text ++ tailText (others ++ next :: rest)) =
        (upto.reverse ++ before).reverse ++ (next.text ++ tailText rest) := by
      rw [htext]
      simp
    have hfirst : ((before.reverse ++ (c.text ++ tailText (others ++ next :: rest))).drop
        before.length).take ((upto.reverse ++ before).length - before.length) = upto := by
      rw [List.drop_left' List.length_reverse, htext]
      refine List.take_left' ?_
      simp
    have hvalue : upto = valueText c others ++ ',' :: next.blank := by
      simp [upto, valueText]
    rw [hstarts, valuesAt, hfirst, List.map_cons, hheader,
      valuesAt_payment rest next _ hnextwell hnext hrest,
      swallowed_cons_append hpayment hnext hothers, List.map_cons, hvalue,
      trimValue_comma hc hwell hnextwell.blank]
termination_by header.length
decreasing_by
  subst_vars
  simp only [List.length_append, List.length_cons]
  omega

/-- What is in front of the first Payment challenge is passed. -/
theorem exists_front {others : List AuthChallenge} (h : ∀ c ∈ others, c.WellFormed ∧ ¬ c.IsPayment)
    {next : AuthChallenge} (hnext : next.WellFormed) (rest : List AuthChallenge) :
    ∃ front, headerText (others ++ next :: rest) = front ++ (next.text ++ tailText rest) ∧
      Passed [] front ∧ Starts front.reverse := by
  cases others with
  | nil =>
    refine ⟨next.blank, rfl, passed_blanks hnext.blank [], ?_⟩
    have hdrop : next.blank.reverse.dropWhile isBlank = [] :=
      List.dropWhile_eq_nil_iff.mpr fun c hc => hnext.blank c (List.mem_reverse.mp hc)
    rw [Starts, hdrop]
    rfl
  | cons c others =>
    obtain ⟨⟨hc, hother⟩, hothers⟩ := List.forall_mem_cons.mp h
    refine ⟨c.blank ++ (c.text ++ (tailText others ++ ([','] ++ next.blank))), ?_, ?_, ?_⟩
    · simp [headerText, tailText]
    · have hcomma : ∀ before : List Char, Passed before [','] :=
        fun before => passed_of_ne (by decide) (by decide)
      exact (passed_blanks hc.blank []).append ((passed_other hc hother _).append
        ((passed_tail hothers _).append ((hcomma _).append (passed_blanks hnext.blank _))))
    · have hreverse : (c.blank ++ (c.text ++ (tailText others ++ ([','] ++ next.blank)))).reverse =
          next.blank.reverse ++ ',' :: (c.blank ++ (c.text ++ tailText others)).reverse := by
        simp
      rw [hreverse]
      exact starts_blanks hnext.blank _

theorem valueText_ne_nil {c : AuthChallenge} {others : List AuthChallenge} (hc : c.WellFormed)
    (h : ∀ d ∈ others, d.WellFormed) : valueText c others ≠ [] := by
  obtain ⟨cs, d, htext, -⟩ := valueText_ends hc h
  rw [htext]
  simp

theorem wellFormed_of_mem_swallowed {header : List AuthChallenge} (h : ∀ c ∈ header, c.WellFormed) :
    ∀ s ∈ swallowed header, s.1.WellFormed ∧ s.1.IsPayment ∧ ∀ c ∈ s.2, c.WellFormed := by
  induction header with
  | nil => exact fun s hs => nomatch hs
  | cons c header ih =>
    obtain ⟨hc, hheader⟩ := List.forall_mem_cons.mp h
    unfold swallowed
    split_ifs with hpayment hany
    · refine List.forall_mem_cons.mpr ⟨⟨hc, hpayment, fun d hd => ?_⟩, ih hheader⟩
      exact hheader d ((List.takeWhile_prefix _).subset hd)
    · exact List.forall_mem_cons.mpr ⟨⟨hc, hpayment, fun d hd => (nomatch hd)⟩, ih hheader⟩
    · exact ih hheader

/-- **The values of a header** are its Payment challenges, each with the challenges up to the
next one. -/
theorem splitPaymentChallengeValues_header {header : List AuthChallenge}
    (h : ∀ c ∈ header, c.WellFormed) :
    splitPaymentChallengeValues (headerText header) =
      (swallowed header).map fun s => valueText s.1 s.2 := by
  have hvalues : (valuesAt (headerText header)
      (schemeStarts [] false false 0 (headerText header))).map trimValue =
        (swallowed header).map fun s => valueText s.1 s.2 := by
    by_cases hnone : ∀ c ∈ header, ¬ c.IsPayment
    · have hswallowed : swallowed header = [] := by
        simpa [swallowed] using swallowed_append hnone []
      have hstarts : schemeStarts [] false false 0 (headerText header) = [] := by
        cases header with
        | nil => rfl
        | cons c header =>
          obtain ⟨hc, hheader⟩ := List.forall_mem_cons.mp h
          obtain ⟨hother, hothers⟩ := List.forall_mem_cons.mp hnone
          have hpassed := ((passed_blanks hc.blank []).append ((passed_other hc hother _).append
            (passed_tail (fun d hd => ⟨hheader d hd, hothers d hd⟩) _))) []
          rw [List.append_nil] at hpassed
          exact hpassed
      rw [hstarts, hswallowed]
      rfl
    · obtain ⟨others, next, rest, rfl, hnext, hothers⟩ := exists_first hnone
      obtain ⟨hwell, hnextrest⟩ := List.forall_mem_append.mp h
      obtain ⟨hnextwell, hrest⟩ := List.forall_mem_cons.mp hnextrest
      obtain ⟨front, htext, hpassed, hstart⟩ :=
        exists_front (fun c hc => ⟨hwell c hc, hothers c hc⟩) hnextwell rest
      have hpayment := valuesAt_payment rest next front.reverse hnextwell hnext hrest
      rw [List.reverse_reverse] at hpayment
      rw [htext, hpassed, List.append_nil, schemeStarts_payment hnextwell hnext hstart, hpayment,
        swallowed_append hothers]
  rw [splitPaymentChallengeValues, hvalues, List.filter_eq_self]
  intro text htext
  obtain ⟨s, hs, rfl⟩ := List.mem_map.mp htext
  obtain ⟨hc, -, hothers⟩ := wellFormed_of_mem_swallowed h s hs
  exact decide_eq_true (valueText_ne_nil hc hothers)

/-! ## The parameters of a value -/

/-- A parameter as it is read: its value is written as it should be, its name has no equals
sign, and no space or comma around it. -/
structure AuthParam.Readable (p : AuthParam) : Prop where
  blank : ∀ c ∈ p.blank, isBlank c = true
  name_ne : p.name ≠ []
  name_equals : '=' ∉ p.name
  name_head : ∀ c, p.name.head? = some c → isSpace c = false ∧ c ≠ ','
  name_last : ∀ c, p.name.getLast? = some c → isSpace c = false
  value : p.value.WellFormed

/-- The parameters that are read of a challenge behind another one. -/
def AuthChallenge.readParams (c : AuthChallenge) : List AuthParam :=
  { blank := c.blank
    name := c.scheme ++ (c.first.blank ++ c.first.name)
    value := c.first.value } :: c.rest

/-- The name and the value of each parameter. -/
def fields (params : List AuthParam) : List (List Char × List Char) :=
  params.map fun p => (p.name, p.value.value)

theorem tailText_readParams (others : List AuthChallenge) :
    tailText others = (others.flatMap AuthChallenge.readParams).flatMap fun p => ',' :: p.text := by
  induction others with
  | nil => rfl
  | cons c others ih =>
    have htail : tailText (c :: others) = ',' :: (c.blank ++ c.text) ++ tailText others := rfl
    rw [htail, ih, List.flatMap_cons, List.flatMap_append]
    simp [AuthChallenge.readParams, AuthChallenge.text, AuthParam.text]

theorem AuthParam.WellFormed.readable {p : AuthParam} (h : p.WellFormed) : p.Readable where
  blank := h.blank
  name_ne := h.name.1
  name_equals := fun hmem => (h.name.2 _ hmem).2.2.1 rfl
  name_head := fun c hc =>
    ⟨(h.name.2 c (List.mem_of_head? hc)).1, (h.name.2 c (List.mem_of_head? hc)).2.1⟩
  name_last := fun c hc => (h.name.2 c (List.mem_of_getLast? hc)).1
  value := h.value

theorem AuthChallenge.WellFormed.readable {c : AuthChallenge} (h : c.WellFormed) :
    ∀ p ∈ c.readParams, p.Readable := by
  refine List.forall_mem_cons.mpr ⟨?_, fun p hp => (h.rest p hp).readable⟩
  have hscheme := h.scheme
  have hfirst := h.first
  refine ⟨h.blank, by simp [hscheme.1], fun hmem => ?_, fun d hd => ?_, fun d hd => ?_, hfirst.value⟩
  · rcases List.mem_append.mp hmem with hmem | hmem
    · exact (hscheme.2 _ hmem).2.2.1 rfl
    rcases List.mem_append.mp hmem with hmem | hmem
    · exact absurd (hfirst.blank _ hmem) (by decide)
    · exact (hfirst.name.2 _ hmem).2.2.1 rfl
  · have hmem : d ∈ c.scheme := by
      cases hs : c.scheme with
      | nil => exact absurd hs hscheme.1
      | cons s scheme =>
        rw [hs] at hd
        obtain rfl : s = d := by simpa using hd
        exact List.mem_cons_self
    exact ⟨(hscheme.2 d hmem).1, (hscheme.2 d hmem).2.1⟩
  · have hmem : d ∈ c.first.name := by
      rw [List.getLast?_append_of_ne_nil _ (by simp [hfirst.name.1]),
        List.getLast?_append_of_ne_nil _ hfirst.name.1] at hd
      exact List.mem_of_getLast? hd
    exact (hfirst.name.2 d hmem).1

theorem readQuoted_text {chars : List (Char × Bool)}
    (h : ∀ c ∈ chars, c.2 = false → c.1 ≠ '"' ∧ c.1 ≠ '\\') (rest : List Char) :
    readQuoted false (chars.flatMap AuthValue.quotedChar ++ '"' :: rest) =
      some (chars.map Prod.fst, rest) := by
  induction chars with
  | nil => rfl
  | cons c chars ih =>
    obtain ⟨hc, hchars⟩ := List.forall_mem_cons.mp h
    obtain ⟨c, escaped⟩ := c
    rw [List.flatMap_cons, List.append_assoc]
    cases escaped with
    | true => simp [AuthValue.quotedChar, readQuoted, ih hchars]
    | false =>
      obtain ⟨hquote, hbackslash⟩ := hc rfl
      simp [AuthValue.quotedChar, readQuoted, hquote, hbackslash, ih hchars]

/-- Nothing follows, or a comma with something that is not space behind it. -/
def Follows (rest : List Char) : Prop :=
  rest = [] ∨ ∃ more, rest = ',' :: more ∧ trimMatches isSpace more ≠ []

/-- A value is read, and with one that has no quotes the comma behind it. -/
theorem readValue_text {value : AuthValue} (h : value.WellFormed) {rest : List Char}
    (hrest : Follows rest) : ∃ left, readValue (value.text ++ rest) = some (value.value, left) ∧
      (left = rest ∨ rest = ',' :: left) := by
  cases value with
  | quoted chars =>
    refine ⟨rest, ?_, Or.inl rfl⟩
    rw [AuthValue.text, List.cons_append, List.append_assoc, List.singleton_append]
    exact readQuoted_text h rest
  | token cs =>
    have hchars : ∀ c ∈ cs, decide (c ≠ ',') = true := fun c hc => decide_eq_true (h.2 c hc).2.1
    have hhead : (cs ++ rest).head? ≠ some '"' := by
      cases cs with
      | nil => exact absurd rfl h.1
      | cons c cs => exact fun heq => (h.2 c List.mem_cons_self).2.2.2 (Option.some.inj heq)
    have htrim : trimMatches isSpace cs = cs :=
      trimMatches_eq_self (fun c hc => (h.2 c (List.mem_of_head? hc)).1)
        fun c hc => (h.2 c (List.mem_of_getLast? hc)).1
    refine ⟨rest.tail, ?_, ?_⟩
    · show readValue (cs ++ rest) = some (cs, rest.tail)
      rw [readValue, if_neg hhead, List.takeWhile_append_of_pos hchars,
        List.dropWhile_append_of_pos hchars]
      rcases hrest with rfl | ⟨more, rfl, -⟩
      · simp [htrim]
      · simp [htrim]
    · rcases hrest with rfl | ⟨more, rfl, -⟩
      · exact Or.inl rfl
      · exact Or.inr rfl

theorem trimMatches_ne_nil {input : List Char} {c : Char} (hc : c ∈ input) (hspace : isSpace c = false) :
    trimMatches isSpace input ≠ [] := by
  intro h
  have := forall_of_trimMatches h c hc
  rw [hspace] at this
  cases this

theorem parseAuthParams_comma {params : List (List Char × List Char)} {input : List Char}
    (h : trimMatches isSpace input ≠ []) :
    parseAuthParams params (',' :: input) = parseAuthParams params input := by
  have hcomma : trimMatches isSpace (',' :: input) ≠ [] :=
    trimMatches_ne_nil List.mem_cons_self (by decide)
  have hgap : (',' :: input).dropWhile isGap = input.dropWhile isGap := rfl
  rw [parseAuthParams.eq_def params (',' :: input), parseAuthParams.eq_def params input,
    if_neg hcomma, if_neg h, hgap]

/-- A parameter is read, if it is a new one. -/
theorem parseAuthParams_param {params : List (List Char × List Char)} {p : AuthParam}
    (h : p.Readable) {rest : List Char} (hrest : Follows rest) :
    parseAuthParams params (p.text ++ rest) =
      if p.name ∈ params.map Prod.fst then
        .error (.error { message := "duplicate parameter: " ++ String.ofList p.name })
      else parseAuthParams (params ++ [(p.name, p.value.value)]) rest := by
  obtain ⟨c, name, hname⟩ : ∃ c name, p.name = c :: name := by
    cases hn : p.name with
    | nil => exact absurd hn h.name_ne
    | cons c name => exact ⟨c, name, rfl⟩
  have hhead := h.name_head c (by rw [hname]; rfl)
  have htext : p.text ++ rest = p.blank ++ (p.name ++ '=' :: (p.value.text ++ rest)) := by
    simp [AuthParam.text]
  have hsome : trimMatches isSpace (p.text ++ rest) ≠ [] := by
    refine trimMatches_ne_nil (c := c) ?_ hhead.1
    rw [htext, hname]
    simp
  have hblank : ∀ d ∈ p.blank, isGap d = true := by
    intro d hd
    rcases of_decide_eq_true (h.blank d hd) with rfl | rfl <;> decide
  have hstart : (p.text ++ rest).dropWhile isGap = p.name ++ '=' :: (p.value.text ++ rest) := by
    have hgap : isGap c = false := by
      refine decide_eq_false fun hmem => ?_
      rcases hmem with rfl | rfl | rfl
      · exact absurd hhead.1 (by decide)
      · exact absurd hhead.1 (by decide)
      · exact hhead.2 rfl
    rw [htext, List.dropWhile_append_of_pos hblank, hname, List.cons_append,
      List.dropWhile_cons_of_neg (by simp [hgap])]
  have hchars : ∀ d ∈ p.name, decide (d ≠ '=') = true :=
    fun d hd => decide_eq_true fun heq => h.name_equals (heq ▸ hd)
  have hdrop : (p.name ++ '=' :: (p.value.text ++ rest)).dropWhile (· ≠ '=') =
      '=' :: (p.value.text ++ rest) := by
    rw [List.dropWhile_append_of_pos hchars]
    rfl
  have htake : (p.name ++ '=' :: (p.value.text ++ rest)).takeWhile (· ≠ '=') = p.name := by
    rw [List.takeWhile_append_of_pos hchars]
    simp
  have hequals : (p.name ++ '=' :: (p.value.text ++ rest)).head? ≠ some '=' := by
    rw [hname]
    intro heq
    exact h.name_equals (by rw [hname, ← Option.some.inj heq]; exact List.mem_cons_self)
  have htrim : trimMatches isSpace p.name = p.name :=
    trimMatches_eq_self (fun d hd => (h.name_head d hd).1) h.name_last
  obtain ⟨left, hread, hleft⟩ := readValue_text h.value hrest
  have hnext : parseAuthParams (params ++ [(p.name, p.value.value)]) left =
      parseAuthParams (params ++ [(p.name, p.value.value)]) rest := by
    rcases hleft with rfl | hcomma
    · rfl
    · rcases hrest with rfl | ⟨more, rfl, hmore⟩
      · cases hcomma
      · obtain ⟨-, rfl⟩ := List.cons.inj hcomma
        exact (parseAuthParams_comma hmore).symm
  rw [parseAuthParams.eq_def, if_neg hsome]
  dsimp only
  rw [hstart, if_neg (by simp [hname])]
  split
  · next heq => rw [hdrop] at heq; cases heq
  · next heq =>
    rw [hdrop] at heq
    obtain ⟨-, rfl⟩ := List.cons.inj heq
    rw [if_neg hequals, htake, htrim]
    split
    · next heq => rw [hread] at heq; cases heq
    · next heq =>
      rw [hread] at heq
      obtain ⟨rfl, rfl⟩ := Prod.mk.inj (Option.some.inj heq)
      rw [hnext]

theorem follows_params {params : List AuthParam} (h : ∀ p ∈ params, p.Readable) :
    Follows (params.flatMap fun p => ',' :: p.text) := by
  cases params with
  | nil => exact Or.inl rfl
  | cons p params =>
    refine Or.inr ⟨p.text ++ params.flatMap fun p => ',' :: p.text, rfl, ?_⟩
    have hequals : '=' ∈ p.text ++ params.flatMap fun p => ',' :: p.text := by
      simp [AuthParam.text]
    exact trimMatches_ne_nil hequals (by decide)

theorem nodup_concat {read : List (List Char × List Char)} {field : List Char × List Char}
    (h : (read.map Prod.fst).Nodup) (hnew : field.1 ∉ read.map Prod.fst) :
    ((read ++ [field]).map Prod.fst).Nodup := by
  rw [List.map_append, List.map_singleton]
  exact List.nodup_append.mpr ⟨h, List.nodup_singleton _, fun a ha b hb heq =>
    hnew (List.mem_singleton.mp hb ▸ heq ▸ ha)⟩

theorem not_nodup_of_mem {read : List (List Char × List Char)} {p : AuthParam} {params : List AuthParam}
    (h : p.name ∈ read.map Prod.fst) : ¬ ((read ++ fields (p :: params)).map Prod.fst).Nodup := by
  intro hnodup
  rw [List.map_append] at hnodup
  exact (List.nodup_append.mp hnodup).2.2 _ h _ List.mem_cons_self rfl

/-- Parameters are read one after the other, if their names differ. -/
theorem parseAuthParams_params {params : List AuthParam} (h : ∀ p ∈ params, p.Readable) :
    ∀ {p : AuthParam} {read result : List (List Char × List Char)}, p.Readable →
      (read.map Prod.fst).Nodup →
      (parseAuthParams read (p.text ++ params.flatMap fun p => ',' :: p.text) = .ok result ↔
        ((read ++ fields (p :: params)).map Prod.fst).Nodup ∧ result = read ++ fields (p :: params)) := by
  induction params with
  | nil =>
    intro p read result hp hread
    rw [List.flatMap_nil, parseAuthParams_param hp (Or.inl rfl)]
    split_ifs with hmem
    · refine iff_of_false (fun heq => nomatch heq) fun hall => ?_
      exact not_nodup_of_mem hmem hall.1
    · have hend : parseAuthParams (read ++ [(p.name, p.value.value)]) [] =
          .ok (read ++ [(p.name, p.value.value)]) := by
        rw [parseAuthParams]
        exact if_pos rfl
      rw [hend]
      refine ⟨fun heq => ⟨nodup_concat hread hmem, (Except.ok.inj heq).symm⟩, fun hall => ?_⟩
      exact congrArg Except.ok hall.2.symm
  | cons next params ih =>
    intro p read result hp hread
    obtain ⟨hnext, hparams⟩ := List.forall_mem_cons.mp h
    rw [parseAuthParams_param hp (follows_params h)]
    split_ifs with hmem
    · refine iff_of_false (fun heq => nomatch heq) fun hall => ?_
      exact not_nodup_of_mem hmem hall.1
    · have hequals : '=' ∈ next.text ++ params.flatMap fun p => ',' :: p.text := by
        simp [AuthParam.text]
      have hcomma : parseAuthParams (read ++ [(p.name, p.value.value)])
          ((next :: params).flatMap fun p => ',' :: p.text) =
          parseAuthParams (read ++ [(p.name, p.value.value)])
            (next.text ++ params.flatMap fun p => ',' :: p.text) :=
        parseAuthParams_comma (trimMatches_ne_nil hequals (by decide))
      have hfields : (read ++ [(p.name, p.value.value)]) ++ fields (next :: params) =
          read ++ fields (p :: next :: params) := by
        simp [fields]
      rw [hcomma, ih hparams hnext (nodup_concat hread hmem), hfields]

/-! ## A value and its challenge -/

/-- The parameters of a value, without the blanks behind the scheme. -/
def valueParams (c : AuthChallenge) (others : List AuthChallenge) : List AuthParam :=
  { c.first with blank := [] } :: (c.rest ++ others.flatMap AuthChallenge.readParams)

theorem readable_valueParams {c : AuthChallenge} {others : List AuthChallenge} (hc : c.WellFormed)
    (h : ∀ d ∈ others, d.WellFormed) : ∀ p ∈ valueParams c others, p.Readable := by
  have hfirst : AuthParam.WellFormed { c.first with blank := [] } :=
    ⟨fun d hd => (nomatch hd), hc.first.name, hc.first.value⟩
  refine List.forall_mem_cons.mpr ⟨hfirst.readable, List.forall_mem_append.mpr
    ⟨fun p hp => (hc.rest p hp).readable, fun p hp => ?_⟩⟩
  obtain ⟨d, hd, hp⟩ := List.mem_flatMap.mp hp
  exact (h d hd).readable p hp

/-- A value is a Payment scheme with its parameters. -/
theorem stripPaymentScheme_valueText {c : AuthChallenge} {others : List AuthChallenge}
    (hc : c.WellFormed) (hpayment : c.IsPayment) (h : ∀ d ∈ others, d.WellFormed) :
    ∃ p params, valueParams c others = p :: params ∧
      stripPaymentScheme (valueText c others) =
        some (p.text ++ params.flatMap fun p => ',' :: p.text) ∧
      trimMatches isSpace (p.text ++ params.flatMap fun p => ',' :: p.text) =
        p.text ++ params.flatMap fun p => ',' :: p.text := by
  refine ⟨_, _, rfl, ?_⟩
  generalize hparams : ({ c.first with blank := [] } : AuthParam).text ++
    (c.rest ++ others.flatMap AuthChallenge.readParams).flatMap (fun p => ',' :: p.text) = text
  have hvalue : valueText c others = c.scheme ++ (c.first.blank ++ text) := by
    rw [← hparams, valueText, tailText_readParams, List.flatMap_append]
    simp [AuthChallenge.text, AuthParam.text]
  obtain ⟨d, name, hname⟩ : ∃ d name, c.first.name = d :: name := by
    cases hn : c.first.name with
    | nil => exact absurd hn hc.first.name.1
    | cons d name => exact ⟨d, name, rfl⟩
  obtain ⟨after, htext⟩ : ∃ after, text = d :: after := by
    rw [← hparams]
    simp [AuthParam.text, hname]
  have htrim : trimMatches isSpace text = text := by
    refine trimMatches_eq_self (fun e he => ?_) fun e he => ?_
    · rw [htext] at he
      obtain rfl : d = e := by simpa using he
      exact (hc.first.name.2 d (hname ▸ List.mem_cons_self)).1
    · obtain ⟨cs, last, hends, hspace, -⟩ := valueText_ends hc h
      have hlast : (valueText c others).getLast? = text.getLast? := by
        rw [hvalue, List.getLast?_append_of_ne_nil _ (by simp [htext]),
          List.getLast?_append_of_ne_nil _ (by simp [htext])]
      rw [← hlast, hends, List.getLast?_concat] at he
      exact Option.some.inj he ▸ hspace
  have hblanks : trimMatches isSpace (c.first.blank ++ text) = text := by
    have hspaces : ∀ e ∈ c.first.blank, isSpace e = true := by
      intro e he
      rcases of_decide_eq_true (hc.first.blank e he) with rfl | rfl <;> decide
    refine Eq.trans ?_ htrim
    rw [trimMatches, List.dropWhile_append_of_pos hspaces, trimMatches]
  have hlength := length_scheme hpayment
  have hlt : ¬ (valueText c others).length < paymentScheme.length := by
    rw [hvalue, List.length_append, hlength]
    omega
  have htake : ((valueText c others).take paymentScheme.length).map foldChar =
      paymentScheme.map foldChar := by
    rw [hvalue, ← hlength, List.take_left]
    exact hpayment
  have hdrop : (valueText c others).drop paymentScheme.length = c.first.blank ++ text := by
    rw [hvalue, ← hlength, List.drop_left]
  refine ⟨?_, htrim⟩
  rw [stripPaymentScheme, trimMatches_valueText hc h]
  rw [if_neg hlt, if_neg (not_not.mpr htake), hdrop, hblanks]

/-! ## Parameters of other challenges -/

section Lookup
variable {read more : List (List Char × List Char)} {key : String}

theorem param?_append : param? (read ++ more) key = (param? read key).or (param? more key) := by
  rw [param?, List.lookup_append, param?, param?]
  cases read.lookup key.toList <;> rfl

theorem mem_of_param? {fields : List (List Char × List Char)} {value : String}
    (h : param? fields key = some value) : key.toList ∈ fields.map Prod.fst := by
  obtain ⟨cs, hcs, -⟩ := Option.map_eq_some_iff.mp h
  obtain ⟨before, after, rfl, -⟩ := List.lookup_eq_some_iff.mp hcs
  simp

/-- A parameter that is there is not among the others. -/
theorem param?_more {value : String} (hnodup : ((read ++ more).map Prod.fst).Nodup)
    (h : param? read key = some value) : param? more key = none := by
  rw [List.map_append] at hnodup
  cases hmore : param? more key with
  | none => rfl
  | some other =>
    exact absurd rfl ((List.nodup_append.mp hnodup).2.2 _ (mem_of_param? h) _ (mem_of_param? hmore))

theorem param_append_of_ne (h : param read key ≠ "") : param (read ++ more) key = param read key := by
  unfold param at h ⊢
  rw [param?_append]
  cases hread : param? read key with
  | none => exact absurd (by rw [hread]; rfl) h
  | some value => rfl

theorem param?_append_eq_iff (hnodup : ((read ++ more).map Prod.fst).Nodup) :
    param? (read ++ more) key = param? read key ↔ param? more key = none := by
  rw [param?_append]
  cases hread : param? read key with
  | none => rfl
  | some value => exact iff_of_true rfl (param?_more hnodup hread)

theorem param_append_eq_iff (hnodup : ((read ++ more).map Prod.fst).Nodup) :
    param (read ++ more) key = param read key ↔ param more key = "" := by
  unfold param
  rw [param?_append]
  cases hread : param? read key with
  | none => rfl
  | some value =>
    rw [param?_more hnodup hread]
    exact iff_of_true rfl rfl

end Lookup

section Reading
variable {libraries : Libraries} {lower : Char → Char}

/-- The parameters change nothing: none is an optional one with a value, or an opaque one. -/
def Harmless (more : List (List Char × List Char)) : Prop :=
  param more "expires" = "" ∧ param more "description" = "" ∧ param more "digest" = "" ∧
    param? more "opaque" = none

theorem toLower_empty : toLower lower "" = "" := rfl

theorem challengeOf_append {read more : List (List Char × List Char)} {challenge : PaymentChallenge}
    (hnodup : ((read ++ more).map Prod.fst).Nodup)
    (h : challengeOf libraries lower read = .ok challenge) :
    challengeOf libraries lower (read ++ more) = .ok challenge ↔ Harmless more := by
  obtain ⟨_, hrequest, h⟩ := bind_eq_ok.mp h
  rw [rejectIf_eq_ok] at hrequest
  obtain ⟨bytes, hbytes, h⟩ := bind_eq_ok.mp h
  obtain ⟨json, hjson, h⟩ := bind_eq_ok.mp h
  obtain ⟨_, hmethod, h⟩ := bind_eq_ok.mp h
  rw [rejectIf_eq_ok, not_not] at hmethod
  obtain ⟨_, hfields, h⟩ := bind_eq_ok.mp h
  rw [rejectIf_eq_ok] at hfields
  obtain rfl := Except.ok.inj h
  obtain ⟨hid, hfields⟩ := not_or.mp hfields
  obtain ⟨hrealm, hintent⟩ := not_or.mp hfields
  have hintent' : param read "intent" ≠ "" := by
    intro hempty
    exact hintent (by rw [hempty]; rfl)
  have hmethod' : param read "method" ≠ "" := by
    intro hempty
    rw [hempty, toLower_empty] at hmethod
    exact absurd hmethod (by decide)
  have happend : challengeOf libraries lower (read ++ more) = .ok
      { id := param read "id"
        realm := param read "realm"
        method := toLower lower (param read "method")
        intent := toLower lower (param read "intent")
        request := param read "request"
        expires := param (read ++ more) "expires"
        description := param (read ++ more) "description"
        digest := param (read ++ more) "digest"
        opaqueData := param? (read ++ more) "opaque" } := by
    rw [challengeOf, param_append_of_ne hrequest, param_append_of_ne hmethod',
      param_append_of_ne hintent', param_append_of_ne hid, param_append_of_ne hrealm,
      rejectIf_neg hrequest, ok_bind, hbytes, ok_bind, hjson, ok_bind]
    dsimp only
    rw [rejectIf_neg (not_not.mpr hmethod), ok_bind, rejectIf_neg (not_or.mpr ⟨hid, not_or.mpr ⟨hrealm, hintent⟩⟩)]
    rfl
  rw [happend, Harmless, ← param_append_eq_iff hnodup, ← param_append_eq_iff hnodup,
    ← param_append_eq_iff hnodup, ← param?_append_eq_iff hnodup]
  constructor
  · intro heq
    obtain ⟨-, -, -, -, -, hexpires, hdescription, hdigest, hopaque⟩ :=
      PaymentChallenge.mk.inj (Except.ok.inj heq)
    exact ⟨hexpires, hdescription, hdigest, hopaque⟩
  · rintro ⟨hexpires, hdescription, hdigest, hopaque⟩
    rw [hexpires, hdescription, hdigest, hopaque]

end Reading

section Reading
variable {libraries : Libraries} {lower : Char → Char}

/-- **A value is read** as a challenge of its parameters, if their names differ. -/
theorem parseWWWAuthenticate_valueText {c : AuthChallenge} {others : List AuthChallenge}
    (hc : c.WellFormed) (hpayment : c.IsPayment) (h : ∀ d ∈ others, d.WellFormed)
    {challenge : PaymentChallenge} :
    parseWWWAuthenticate libraries lower (valueText c others) = .ok challenge ↔
      ((fields (valueParams c others)).map Prod.fst).Nodup ∧
        challengeOf libraries lower (fields (valueParams c others)) = .ok challenge := by
  obtain ⟨p, params, hparams, hstrip, htrim⟩ := stripPaymentScheme_valueText hc hpayment h
  have hreadable := readable_valueParams hc h
  rw [hparams] at hreadable ⊢
  obtain ⟨hp, hrest⟩ := List.forall_mem_cons.mp hreadable
  have hread := @parseAuthParams_params params hrest p [] 
  rw [parseWWWAuthenticate, hstrip]
  constructor
  · intro hok
    obtain ⟨rest, hrest', hok⟩ := bind_eq_ok.mp hok
    obtain rfl := Option.some.inj (okOrElse_eq_ok.mp hrest')
    obtain ⟨read, hparse, hok⟩ := bind_eq_ok.mp hok
    rw [htrim] at hparse
    obtain ⟨hnodup, rfl⟩ := (hread hp List.nodup_nil).mp hparse
    exact ⟨hnodup, hok⟩
  · rintro ⟨hnodup, hok⟩
    have hparse := (hread hp List.nodup_nil).mpr ⟨hnodup, rfl⟩
    refine bind_eq_ok.mpr ⟨_, okOrElse_eq_ok.mpr rfl, bind_eq_ok.mpr ⟨_, ?_, hok⟩⟩
    rw [htrim]
    exact hparse

/-- The challenge of a text, if it is one. -/
def challengesOf (libraries : Libraries) (lower : Char → Char) (text : List Char) :
    List PaymentChallenge :=
  match parseWWWAuthenticate libraries lower text with
  | .ok challenge => [challenge]
  | .error _ => []

theorem challengesOf_eq_singleton {text : List Char} {challenge : PaymentChallenge} :
    challengesOf libraries lower text = [challenge] ↔
      parseWWWAuthenticate libraries lower text = .ok challenge := by
  unfold challengesOf
  cases parseWWWAuthenticate libraries lower text with
  | ok other => simp
  | error e => simp

/-- The challenges that are read with a Payment challenge do it no harm: all names differ, with
the scheme in front of the first of each, and the parameters change nothing. -/
def Apart (c : AuthChallenge) (others : List AuthChallenge) : Prop :=
  ((fields (valueParams c others)).map Prod.fst).Nodup ∧
    Harmless (fields (others.flatMap AuthChallenge.readParams))

theorem fields_valueParams (c : AuthChallenge) (others : List AuthChallenge) :
    fields (valueParams c others) =
      fields (valueParams c []) ++ fields (others.flatMap AuthChallenge.readParams) := by
  simp [fields, valueParams]

/-- **A Payment challenge and those read with it.** -/
theorem challengesOf_valueText {c : AuthChallenge} {others : List AuthChallenge} (hc : c.WellFormed)
    (hpayment : c.IsPayment) (h : ∀ d ∈ others, d.WellFormed) {challenge : PaymentChallenge}
    (halone : parseWWWAuthenticate libraries lower c.text = .ok challenge) :
    challengesOf libraries lower (valueText c others) = [challenge] ↔ Apart c others := by
  have htext : c.text = valueText c [] := by simp [valueText, tailText]
  rw [htext, parseWWWAuthenticate_valueText hc hpayment (by simp)] at halone
  rw [challengesOf_eq_singleton, parseWWWAuthenticate_valueText hc hpayment h, Apart]
  refine and_congr_right fun hnodup => ?_
  rw [fields_valueParams] at hnodup ⊢
  exact challengeOf_append hnodup halone.2

theorem map_fst_swallowed (header : List AuthChallenge) :
    (swallowed header).map Prod.fst = header.filter fun c => c.IsPayment := by
  induction header with
  | nil => rfl
  | cons c header ih =>
    unfold swallowed
    split_ifs with hpayment
    all_goals simp [hpayment, ih]

theorem parseWWWAuthenticateAll_header {header : List AuthChallenge}
    (h : ∀ c ∈ header, c.WellFormed) :
    parseWWWAuthenticateAll libraries lower [headerText header] =
      (swallowed header).flatMap fun s => challengesOf libraries lower (valueText s.1 s.2) := by
  rw [parseWWWAuthenticateAll, List.flatMap_singleton, splitPaymentChallengeValues_header h,
    List.flatMap_map]
  rfl

/-- **Mixed schemes.**  Of a header of well-formed challenges, exactly the Payment challenges
are read, each as it is alone, when those that are read with each of them do it no harm. -/
theorem mixedSchemes_iff {header : List AuthChallenge} (h : ∀ c ∈ header, c.WellFormed)
    (hpayments : ∀ c ∈ header, c.IsPayment →
      ∃ challenge, parseWWWAuthenticate libraries lower c.text = .ok challenge) :
    parseWWWAuthenticateAll libraries lower [headerText header] =
        (header.filter fun c => c.IsPayment).flatMap
          (fun c => challengesOf libraries lower c.text) ↔
      ∀ s ∈ swallowed header, Apart s.1 s.2 := by
  have halone : (header.filter fun c => c.IsPayment).flatMap
      (fun c => challengesOf libraries lower c.text) =
      (swallowed header).flatMap fun s => challengesOf libraries lower s.1.text := by
    rw [← map_fst_swallowed, List.flatMap_map]
  have hmem : ∀ s ∈ swallowed header, ∃ challenge,
      parseWWWAuthenticate libraries lower s.1.text = .ok challenge := by
    intro s hs
    have hfirst : s.1 ∈ (swallowed header).map Prod.fst := List.mem_map_of_mem hs
    rw [map_fst_swallowed, List.mem_filter] at hfirst
    exact hpayments s.1 hfirst.1 (of_decide_eq_true hfirst.2)
  have hle : ∀ s ∈ swallowed header, (challengesOf libraries lower (valueText s.1 s.2)).length ≤
      (challengesOf libraries lower s.1.text).length := by
    intro s hs
    obtain ⟨challenge, hchallenge⟩ := hmem s hs
    rw [challengesOf_eq_singleton.mpr hchallenge, challengesOf]
    cases parseWWWAuthenticate libraries lower (valueText s.1 s.2) with
    | ok other => exact Nat.le_refl 1
    | error e => exact Nat.zero_le 1
  rw [parseWWWAuthenticateAll_header h, halone, eq_comm, flatMap_eq_iff hle]
  refine forall₂_congr fun s hs => ?_
  obtain ⟨challenge, hchallenge⟩ := hmem s hs
  obtain ⟨hc, hpayment, hothers⟩ := wellFormed_of_mem_swallowed h s hs
  rw [challengesOf_eq_singleton.mpr hchallenge, eq_comm]
  exact challengesOf_valueText hc hpayment hothers hchallenge

end Reading

namespace MixedSample

/-- A parameter in quotes, behind a space. -/
def quotedParam (param : String × String) : AuthParam where
  blank := [' ']
  name := param.1.toList
  value := .quoted (param.2.toList.map fun c => (c, false))

def challenge (scheme : String) (first : String × String) (rest : List (String × String)) :
    AuthChallenge where
  blank := [' ']
  scheme := scheme.toList
  first := quotedParam first
  rest := rest.map quotedParam

theorem isToken_of_all {s : String} (hne : s.toList ≠ [])
    (h : s.toList.all (fun c => decide (IsTokenChar c)) = true) : IsToken s.toList :=
  ⟨hne, fun c hc => of_decide_eq_true (List.all_eq_true.mp h c hc)⟩

/-- Names and values that can be written as they are. -/
def IsPlain (param : String × String) : Prop :=
  param.1.toList ≠ [] ∧ param.1.toList.all (fun c => decide (IsTokenChar c)) = true ∧
    param.2.toList.all (fun c => c ≠ '"' ∧ c ≠ '\\') = true

instance (param : String × String) : Decidable (IsPlain param) :=
  inferInstanceAs (Decidable (_ ∧ _ ∧ _))

theorem quotedParam_wellFormed {param : String × String} (h : IsPlain param) :
    (quotedParam param).WellFormed where
  blank := List.forall_mem_singleton.mpr rfl
  name := isToken_of_all h.1 h.2.1
  value := by
    intro c hc _
    obtain ⟨d, hd, rfl⟩ := List.mem_map.mp hc
    exact of_decide_eq_true (List.all_eq_true.mp h.2.2 d hd)

theorem challenge_wellFormed {scheme : String} {first : String × String}
    {rest : List (String × String)} (hne : scheme.toList ≠ [])
    (hscheme : scheme.toList.all (fun c => decide (IsTokenChar c)) = true) (hfirst : IsPlain first)
    (hrest : ∀ param ∈ rest, IsPlain param) : (challenge scheme first rest).WellFormed where
  blank := List.forall_mem_singleton.mpr rfl
  scheme := isToken_of_all hne hscheme
  gap := List.cons_ne_nil _ _
  first := quotedParam_wellFormed hfirst
  rest := by
    intro p hp
    obtain ⟨param, hparam, rfl⟩ := List.mem_map.mp hp
    exact quotedParam_wellFormed (hrest param hparam)

/-- A Payment challenge with this id. -/
def payment (id : String) : AuthChallenge :=
  challenge "Payment" ("id", id)
    [("realm", "api"), ("method", "solana"), ("intent", "charge"), ("request", "e30")]

theorem payment_wellFormed {id : String} (h : IsPlain ("id", id)) : (payment id).WellFormed :=
  challenge_wellFormed (by decide) (by decide) h (by decide)

def bearer : AuthChallenge := challenge "Bearer" ("realm", "other, Payment realm") []

theorem bearer_wellFormed : bearer.WellFormed :=
  challenge_wellFormed (by decide) (by decide) (by decide) (by decide)

def digest : AuthChallenge := challenge "Digest" ("username", "u") [("realm", "r")]

theorem digest_wellFormed : digest.WellFormed :=
  challenge_wellFormed (by decide) (by decide) (by decide) (by decide)

/-- Libraries that know the request `{}`. -/
def libraries : Libraries :=
  { Mpp.Sample.libraries with
    base64UrlDecode := fun s => if s = "e30" then .ok [123, 125] else .error "illegal base64 data"
    parseJson := fun bytes => if bytes = [123, 125] then some (.obj []) else none }

theorem payment_read {id : String} (h : IsPlain ("id", id))
    (hread : (challengeOf libraries Char.toLower (fields (valueParams (payment id) []))).isOk = true) :
    ∃ challenge, parseWWWAuthenticate libraries Char.toLower (payment id).text = .ok challenge := by
  have htext : (payment id).text = valueText (payment id) [] := by simp [valueText, tailText]
  have hnames : (fields (valueParams (payment id) [])).map Prod.fst =
      ["id".toList, "realm".toList, "method".toList, "intent".toList, "request".toList] := by
    simp [fields, valueParams, payment, challenge, quotedParam]
  cases hchallenge : challengeOf libraries Char.toLower (fields (valueParams (payment id) [])) with
  | error e =>
    rw [hchallenge] at hread
    cases hread
  | ok challenge =>
    refine ⟨challenge, ?_⟩
    rw [htext]
    refine (parseWWWAuthenticate_valueText (payment_wellFormed h) rfl (by simp)).mpr ⟨?_, hchallenge⟩
    rw [hnames]
    decide

theorem payments_read : ∀ c ∈ [payment "1", payment "2"],
    ∃ challenge, parseWWWAuthenticate libraries Char.toLower c.text = .ok challenge :=
  List.forall_mem_cons.mpr ⟨payment_read (by decide) (by decide),
    List.forall_mem_singleton.mpr (payment_read (by decide) (by decide))⟩

/-- A challenge with one parameter between two Payment challenges, and one behind them. -/
def harmless : List AuthChallenge := [payment "1", bearer, payment "2", digest]

theorem harmless_wellFormed : ∀ c ∈ harmless, c.WellFormed :=
  List.forall_mem_cons.mpr ⟨payment_wellFormed (by decide), List.forall_mem_cons.mpr
    ⟨bearer_wellFormed, List.forall_mem_cons.mpr ⟨payment_wellFormed (by decide),
      List.forall_mem_singleton.mpr digest_wellFormed⟩⟩⟩

theorem harmless_read :
    parseWWWAuthenticateAll libraries Char.toLower [headerText harmless] =
      (harmless.filter fun c => c.IsPayment).flatMap
        fun c => challengesOf libraries Char.toLower c.text := by
  have hswallowed : swallowed harmless = [(payment "1", [bearer]), (payment "2", [])] := rfl
  refine (mixedSchemes_iff harmless_wellFormed fun c hc hpayment => payments_read c ?_).mpr ?_
  · have hfilter : c ∈ harmless.filter fun c => c.IsPayment :=
      List.mem_filter.mpr ⟨hc, decide_eq_true hpayment⟩
    exact hfilter
  · rw [hswallowed]
    exact List.forall_mem_cons.mpr ⟨⟨by decide, by decide, by decide, by decide, by decide⟩,
      List.forall_mem_singleton.mpr ⟨by decide, by decide, by decide, by decide, by decide⟩⟩

/-- A challenge with a realm between two Payment challenges. -/
def harmful : List AuthChallenge := [payment "1", digest, payment "2"]

theorem harmful_wellFormed : ∀ c ∈ harmful, c.WellFormed :=
  List.forall_mem_cons.mpr ⟨payment_wellFormed (by decide), List.forall_mem_cons.mpr
    ⟨digest_wellFormed, List.forall_mem_singleton.mpr (payment_wellFormed (by decide))⟩⟩

/-- The first Payment challenge of such a header is dropped. -/
theorem harmful_drops : ¬ ∀ (libraries : Libraries) (lower : Char → Char)
    (header : List AuthChallenge), (∀ c ∈ header, c.WellFormed) →
    (∀ c ∈ header, c.IsPayment →
      ∃ challenge, parseWWWAuthenticate libraries lower c.text = .ok challenge) →
    parseWWWAuthenticateAll libraries lower [headerText header] =
      (header.filter fun c => c.IsPayment).flatMap
        fun c => challengesOf libraries lower c.text := by
  intro h
  have hswallowed : swallowed harmful = [(payment "1", [digest]), (payment "2", [])] := rfl
  have hfilter : (harmful.filter fun c => c.IsPayment) = [payment "1", payment "2"] := rfl
  obtain ⟨⟨one, hone⟩, two, htwo⟩ := And.intro
    (payments_read (payment "1") List.mem_cons_self)
    (payments_read (payment "2") (List.mem_cons_of_mem _ List.mem_cons_self))
  have hread : ∀ c ∈ harmful, c.IsPayment →
      ∃ challenge, parseWWWAuthenticate libraries Char.toLower c.text = .ok challenge := by
    intro c hc hpayment
    have hmem : c ∈ harmful.filter fun c => c.IsPayment :=
      List.mem_filter.mpr ⟨hc, decide_eq_true hpayment⟩
    exact payments_read c hmem
  -- the realm of the challenge between is a second one
  have hdropped : challengesOf libraries Char.toLower (valueText (payment "1") [digest]) = [] := by
    unfold challengesOf
    cases hparse : parseWWWAuthenticate libraries Char.toLower (valueText (payment "1") [digest]) with
    | error e => rfl
    | ok challenge =>
      have hnodup := ((parseWWWAuthenticate_valueText (payment_wellFormed (by decide)) rfl
        (List.forall_mem_singleton.mpr digest_wellFormed)).mp hparse).1
      exact absurd hnodup (by decide)
  have hall := h libraries Char.toLower harmful harmful_wellFormed hread
  have htext : valueText (payment "2") [] = (payment "2").text := by simp [valueText, tailText]
  rw [parseWWWAuthenticateAll_header harmful_wellFormed, hswallowed, hfilter] at hall
  simp only [List.flatMap_cons, List.flatMap_nil, hdropped, htext,
    challengesOf_eq_singleton.mpr hone, challengesOf_eq_singleton.mpr htwo] at hall
  cases hall

end MixedSample

end Go
end MppSdk
