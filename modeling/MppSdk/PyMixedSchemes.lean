import MppSdk.Blocks
import MppSdk.PyHeaderPieces

/-! # Headers of several schemes, read by the Python code

A challenge that is not seen to start is read as parameters of the challenge in front of it.
`parseWwwAuthenticateAll_iff`: exactly the Payment challenges are read when the others that are
read with them do them no harm. -/

namespace MppSdk
namespace Py

/-! ## The parameters of a piece -/

theorem parseAuthParams_gaps {gaps : List Char} (h : ∀ c ∈ gaps, isGap c = true)
    (params : List (String × String)) (rest : List Char) :
    parseAuthParams params (gaps ++ rest) = parseAuthParams params rest := by
  have hdrop : (gaps ++ rest).dropWhile isGap = rest.dropWhile isGap :=
    List.dropWhile_append_of_pos h
  rw [parseAuthParams.eq_def params (gaps ++ rest), parseAuthParams.eq_def params rest, hdrop]

/-- What is taken for a parameter's name up to an equals sign, a blank or the end. -/
structure Word (word : List Char) : Prop where
  ne : word ≠ []
  chars : ∀ c ∈ word, isKeyChar c = true
  head : ∀ c, word.head? = some c → isGap c = false

theorem plain_keyChar {c : Char} (h : Plain c) : isKeyChar c = true ∧ isGap c = false := by
  obtain ⟨-, hblank, hcomma, hequals, -⟩ := h
  simp [isKeyChar, isGap, hblank, hcomma, hequals]

theorem word_plain {cs : List Char} (hne : cs ≠ []) (h : ∀ c ∈ cs, Plain c) : Word cs where
  ne := hne
  chars := fun c hc => (plain_keyChar (h c hc)).1
  head := fun c hc => (plain_keyChar (h c (List.mem_of_head? hc))).2

theorem IsToken.word {cs : List Char} (h : IsToken cs) : Word cs :=
  word_plain h.1 fun c hc => isTokenChar_plain (h.2 c hc)

/-- A comma does not end a word. -/
theorem Word.comma {word cs : List Char} (h : Word word) (hcs : ∀ c ∈ cs, isKeyChar c = true) :
    Word (word ++ ',' :: cs) where
  ne := by simp
  chars := List.forall_mem_append.mpr ⟨h.chars, List.forall_mem_cons.mpr ⟨by decide, hcs⟩⟩
  head := by
    intro c hc
    rw [List.head?_append_of_ne_nil _ h.ne] at hc
    exact h.head c hc

theorem Word.start {word : List Char} (h : Word word) (rest : List Char) :
    ∃ c cs, word = c :: cs ∧ (word ++ rest).dropWhile isGap = c :: (cs ++ rest) ∧
      (c :: (cs ++ rest)).dropWhile isKeyChar = rest.dropWhile isKeyChar ∧
      (c :: (cs ++ rest)).takeWhile isKeyChar = word ++ rest.takeWhile isKeyChar := by
  obtain ⟨c, cs, rfl⟩ := List.exists_cons_of_ne_nil h.ne
  refine ⟨c, cs, rfl, ?_, ?_, ?_⟩
  · exact List.dropWhile_cons_of_neg (by rw [h.head c rfl]; exact Bool.false_ne_true)
  · rw [← List.cons_append, List.dropWhile_append_of_pos h.chars]
  · rw [← List.cons_append, List.takeWhile_append_of_pos h.chars]

/-- A word without an equals sign behind it is left out. -/
theorem parseAuthParams_junk {word : List Char} (h : Word word) {rest : List Char}
    (hrest : rest = [] ∨ ∃ b more, rest = b :: more ∧ isBlank b = true)
    (params : List (String × String)) :
    parseAuthParams params (word ++ rest) = parseAuthParams params rest := by
  obtain ⟨c, cs, -, hstart, hkey, -⟩ := h.start rest
  rw [parseAuthParams.eq_def params (word ++ rest)]
  split
  · next hnil => cases hstart.symm.trans hnil
  · next d tail hcons =>
    obtain ⟨rfl, rfl⟩ := List.cons.inj (hstart.symm.trans hcons)
    rcases hrest with rfl | ⟨b, more, rfl, hb⟩
    · split
      · next hend =>
        rw [parseAuthParams]
        rfl
      · next hmore => cases hkey.symm.trans hmore
    · have hblank : (b :: more).dropWhile isKeyChar = b :: more :=
        List.dropWhile_cons_of_neg (by simp [isKeyChar, hb])
      rw [hblank] at hkey
      split
      · next hend => cases hkey.symm.trans hend
      · next d after hmore =>
        obtain ⟨rfl, rfl⟩ := List.cons.inj (hkey.symm.trans hmore)
        have hne : b ≠ '=' := by
          rintro rfl
          cases hb
        rw [dif_neg hne, List.dropWhile_cons_of_neg (by simp [isValueChar, hb])]

/-- A name with a value behind it is read, if it is a new one. -/
theorem parseAuthParams_key {name : String} (h : Word name.toList) {after : List Char}
    (params : List (String × String)) :
    parseAuthParams params (name.toList ++ '=' :: after) =
      if after = [] then .ok params
      else if name ∈ params.map Prod.fst then exception s!"Duplicate parameter: {name}"
      else parseAuthParams (params ++ [(name, String.ofList (readValue after).1)])
        (readValue after).2 := by
  obtain ⟨c, cs, -, hstart, hkey, htake⟩ := h.start ('=' :: after)
  have hequals : ('=' :: after).dropWhile isKeyChar = '=' :: after := rfl
  have hnone : ('=' :: after).takeWhile isKeyChar = [] := rfl
  rw [hequals] at hkey
  rw [hnone, List.append_nil] at htake
  rw [parseAuthParams.eq_def]
  split
  · next hnil => cases hstart.symm.trans hnil
  · next d tail hcons =>
    obtain ⟨rfl, rfl⟩ := List.cons.inj (hstart.symm.trans hcons)
    split
    · next hend => cases hkey.symm.trans hend
    · next d more hmore =>
      obtain ⟨rfl, rfl⟩ := List.cons.inj (hkey.symm.trans hmore)
      rw [dif_pos rfl]
      dsimp only
      rw [htake, String.ofList_toList]

/-- The parameters with further ones behind them, if no name comes twice. -/
def collect (params : List (String × String)) :
    List (String × String) → Raises (List (String × String))
  | [] => .ok params
  | (name, value) :: fields =>
      if name ∈ params.map Prod.fst then exception s!"Duplicate parameter: {name}"
      else collect (params ++ [(name, value)]) fields

theorem collect_eq_ok {fields : List (String × String)} :
    ∀ {params result : List (String × String)}, (params.map Prod.fst).Nodup →
      (collect params fields = .ok result ↔
        ((params ++ fields).map Prod.fst).Nodup ∧ result = params ++ fields) := by
  induction fields with
  | nil =>
    intro params result hparams
    rw [List.append_nil]
    exact ⟨fun h => ⟨hparams, (Except.ok.inj h).symm⟩, fun h => congrArg Except.ok h.2.symm⟩
  | cons field fields ih =>
    obtain ⟨name, value⟩ := field
    intro params result hparams
    unfold collect
    have happend : params ++ (name, value) :: fields = (params ++ [(name, value)]) ++ fields := by
      simp
    by_cases hmem : name ∈ params.map Prod.fst
    · rw [if_pos hmem]
      refine iff_of_false (fun h => nomatch h) fun h => ?_
      have hnodup := h.1
      rw [List.map_append] at hnodup
      exact (List.nodup_append.mp hnodup).2.2 _ hmem _ List.mem_cons_self rfl
    · have hnext : ((params ++ [(name, value)]).map Prod.fst).Nodup := by
        rw [List.map_append, List.map_singleton]
        refine List.nodup_append.mpr ⟨hparams, List.nodup_singleton _, fun a ha b hb heq => ?_⟩
        obtain rfl := List.mem_singleton.mp hb
        exact hmem (heq ▸ ha)
      rw [if_neg hmem, happend, ih hnext]

/-- What is read behind a scheme; `last` says that nothing follows. -/
def AuthBody.fields (last : Bool) : AuthBody → List (String × String)
  | nothing => []
  | token68 _ chars pads =>
      if pads = 0 ∨ (pads = 1 ∧ last) then []
      else [(String.ofList chars, String.ofList (List.replicate (pads - 1) '='))]
  | quoted first rest => (first :: rest).map AuthParam.field

/-- What is read of challenges behind another one: their quoted parameters, and a token68 with
equals signs. -/
def swallowedFields : List AuthChallenge → List (String × String)
  | [] => []
  | c :: others => c.body.fields others.isEmpty ++ swallowedFields others

theorem readQuoted_text {chars : List (Char × Bool)}
    (h : ∀ c ∈ chars, c.2 = false → c.1 ≠ '"' ∧ c.1 ≠ '\\') (rest : List Char) :
    readQuoted (chars.flatMap quotedChar ++ '"' :: rest) = (chars.map Prod.fst, rest) := by
  induction chars with
  | nil => rfl
  | cons c chars ih =>
    obtain ⟨hc, hchars⟩ := List.forall_mem_cons.mp h
    obtain ⟨c, escaped⟩ := c
    rw [List.flatMap_cons, List.append_assoc]
    cases escaped with
    | true => simp [quotedChar, readQuoted, ih hchars]
    | false =>
      obtain ⟨hquote, hbackslash⟩ := hc rfl
      have hread : readQuoted (c :: (chars.flatMap quotedChar ++ '"' :: rest)) =
          (c :: (readQuoted (chars.flatMap quotedChar ++ '"' :: rest)).1,
            (readQuoted (chars.flatMap quotedChar ++ '"' :: rest)).2) := by
        rw [readQuoted.eq_def]
        split
        · next heq => cases heq
        · next heq => exact absurd (List.cons.inj heq).1 hquote
        · next heq => exact absurd (List.cons.inj heq).1 hbackslash
        · next heq =>
          obtain ⟨rfl, rfl⟩ := List.cons.inj heq
          rfl
      rw [quotedChar, if_neg (by simp), List.singleton_append, hread, ih hchars]
      rfl

section Reading
variable {params fields : List (String × String)} {rest : List Char}

theorem parseAuthParams_param {p : AuthParam} (h : p.WellFormed)
    (hrest : ∀ params, parseAuthParams params rest = collect params fields) :
    parseAuthParams params (p.text ++ rest) = collect params (p.field :: fields) := by
  have hname : (String.ofList p.name).toList = p.name := String.toList_ofList
  have htext : p.text ++ rest = p.blank ++ ((String.ofList p.name).toList ++
      '=' :: '"' :: (p.chars.flatMap quotedChar ++ '"' :: rest)) := by
    rw [hname]
    simp [AuthParam.text]
  have hvalue : readValue ('"' :: (p.chars.flatMap quotedChar ++ '"' :: rest)) =
      (p.chars.map Prod.fst, rest) := readQuoted_text h.chars rest
  rw [htext, parseAuthParams_gaps fun c hc => (blank_spec (h.blank c hc)).2.1,
    parseAuthParams_key (hname.symm ▸ h.name.word), if_neg (List.cons_ne_nil _ _), hvalue, hrest]
  rfl

theorem parseAuthParams_params {more : List AuthParam} (h : ∀ p ∈ more, p.WellFormed)
    (hrest : ∀ params, parseAuthParams params rest = collect params fields) :
    ∀ params, parseAuthParams params (paramsText more ++ rest) =
      collect params (more.map AuthParam.field ++ fields) := by
  induction more with
  | nil => exact hrest
  | cons p more ih =>
    intro params
    obtain ⟨hp, hmore⟩ := List.forall_mem_cons.mp h
    have htext : paramsText (p :: more) ++ rest =
        [','] ++ (p.text ++ (paramsText more ++ rest)) := by
      simp [paramsText]
    rw [htext, parseAuthParams_gaps (List.forall_mem_singleton.mpr (by decide))]
    exact parseAuthParams_param hp (ih hmore)

/-- A word in front of challenges is left out, whatever it runs into. -/
theorem parseAuthParams_word {others : List AuthChallenge} (h : ∀ c ∈ others, c.WellFormed) :
    ∀ {word : List Char}, Word word → parseAuthParams params (word ++ tailText others) =
      parseAuthParams params (tailText others) := by
  induction others with
  | nil => exact fun hword => parseAuthParams_junk hword (Or.inl rfl) params
  | cons c others ih =>
    intro word hword
    obtain ⟨hc, hothers⟩ := List.forall_mem_cons.mp h
    have hscheme := hc.scheme.word
    have hblanks : ∀ d ∈ c.blank, isGap d = true := fun d hd => (blank_spec (hc.blank d hd)).2.1
    -- a word in front of what stands behind the scheme
    have hbody : ∀ {word : List Char}, Word word →
        parseAuthParams params (word ++ (c.body.text ++ tailText others)) =
          parseAuthParams params (c.body.text ++ tailText others) := by
      intro word hword
      rcases hc.body.head with hnil | ⟨b, more, hmore, hb⟩
      · rw [hnil, List.nil_append]
        exact ih hothers hword
      · rw [hmore]
        exact parseAuthParams_junk hword (Or.inr ⟨b, _, List.cons_append, hb⟩) params
    have hright : parseAuthParams params (tailText (c :: others)) =
        parseAuthParams params (c.body.text ++ tailText others) := by
      rw [tailText_cons, parseAuthParams_gaps (List.forall_mem_cons.mpr ⟨by decide, hblanks⟩),
        AuthChallenge.text, List.append_assoc]
      exact hbody hscheme
    rw [hright, tailText_cons, AuthChallenge.text]
    cases hblank : c.blank with
    | nil =>
      -- the word runs through the comma and the scheme
      have htext : word ++ ([','] ++ ((c.scheme ++ c.body.text) ++ tailText others)) =
          (word ++ ',' :: c.scheme) ++ (c.body.text ++ tailText others) := by
        simp
      rw [htext]
      exact hbody (hword.comma hscheme.chars)
    | cons b blank =>
      -- it runs through the comma to the blank
      rw [hblank] at hblanks
      have hb : isBlank b = true := hc.blank b (hblank ▸ List.mem_cons_self)
      have htext : word ++ ((',' :: b :: blank) ++ ((c.scheme ++ c.body.text) ++ tailText others)) =
          (word ++ [',']) ++ ((b :: blank) ++ (c.scheme ++ (c.body.text ++ tailText others))) := by
        simp
      rw [htext, parseAuthParams_junk (hword.comma (List.forall_mem_nil _))
        (Or.inr ⟨b, _, List.cons_append, hb⟩), parseAuthParams_gaps hblanks, hbody hscheme]

/-- A token68 is read as a parameter if it has equals signs. -/
theorem parseAuthParams_token68 {chars : List Char} (hne : chars ≠ [])
    (hchars : ∀ c ∈ chars, isToken68Char c = true) (pads : Nat) {others : List AuthChallenge}
    (h : ∀ c ∈ others, c.WellFormed)
    (hrest : ∀ params, parseAuthParams params (tailText others) = collect params fields) :
    parseAuthParams params ((chars ++ List.replicate pads '=') ++ tailText others) =
      collect params ((AuthBody.token68 [] chars pads).fields others.isEmpty ++ fields) := by
  have hword : Word chars := word_plain hne fun c hc => isToken68Char_plain (hchars c hc)
  have hname : (String.ofList chars).toList = chars := String.toList_ofList
  cases pads with
  | zero =>
    rw [List.replicate_zero, List.append_nil, parseAuthParams_word h hword, hrest]
    rfl
  | succ pads =>
    have htext : (chars ++ List.replicate (pads + 1) '=') ++ tailText others =
        (String.ofList chars).toList ++ '=' :: (List.replicate pads '=' ++ tailText others) := by
      rw [hname, List.replicate_succ]
      simp
    rw [htext, parseAuthParams_key (hname.symm ▸ hword)]
    -- a single equals sign at the very end is a name without a value
    by_cases hend : pads = 0 ∧ others = []
    · obtain ⟨rfl, rfl⟩ := hend
      rw [if_pos (show List.replicate 0 '=' ++ tailText [] = [] from rfl)]
      have hnone := hrest params
      rw [show tailText [] = [] from rfl, parseAuthParams] at hnone
      exact hnone
    · have hmore : List.replicate pads '=' ++ tailText others ≠ [] := by
        intro hnil
        obtain ⟨hpads, htail⟩ := List.append_eq_nil_iff.mp hnil
        refine hend ⟨by simpa using hpads, ?_⟩
        cases others with
        | nil => rfl
        | cons c others => cases htail
      have hvalue : readValue (List.replicate pads '=' ++ tailText others) =
          (List.replicate pads '=', tailText others) := by
        have hstop : (tailText others).takeWhile isValueChar = [] ∧
            (tailText others).dropWhile isValueChar = tailText others := by
          cases others with
          | nil => exact ⟨rfl, rfl⟩
          | cons c others => exact ⟨rfl, rfl⟩
        have hequals : ∀ d ∈ List.replicate pads '=', isValueChar d = true := by
          intro d hd
          obtain rfl := List.eq_of_mem_replicate hd
          rfl
        have hquote : ∀ rest, List.replicate pads '=' ++ tailText others ≠ '"' :: rest := by
          intro rest heq
          cases pads with
          | zero =>
            cases others with
            | nil => cases heq
            | cons c others => cases heq
          | succ pads => cases heq
        unfold readValue
        split
        · next heq => exact absurd heq (hquote _)
        · rw [List.takeWhile_append_of_pos hequals, List.dropWhile_append_of_pos hequals, hstop.1,
            hstop.2, List.append_nil]
      have hfields : (AuthBody.token68 [] chars (pads + 1)).fields others.isEmpty =
          [(String.ofList chars, String.ofList (List.replicate pads '='))] := by
        refine if_neg ?_
        rintro (hzero | ⟨hone, hlast⟩)
        · cases hzero
        · exact hend ⟨Nat.succ.inj hone, List.isEmpty_iff.mp hlast⟩
      rw [if_neg hmore, hvalue, hfields, hrest]
      rfl

theorem parseAuthParams_body {body : AuthBody} (hbody : body.WellFormed)
    {others : List AuthChallenge} (h : ∀ c ∈ others, c.WellFormed)
    (hrest : ∀ params, parseAuthParams params (tailText others) = collect params fields) :
    parseAuthParams params (body.text ++ tailText others) =
      collect params (body.fields others.isEmpty ++ fields) := by
  cases body with
  | nothing => exact hrest params
  | token68 gap chars pads =>
    obtain ⟨-, hgap, hne, hchars⟩ := hbody
    rw [AuthBody.text, List.append_assoc,
      parseAuthParams_gaps fun c hc => (blank_spec (hgap c hc)).2.1]
    exact parseAuthParams_token68 hne hchars pads h hrest
  | quoted first more =>
    obtain ⟨-, hfirst, hmore⟩ := hbody
    rw [AuthBody.text, List.append_assoc]
    exact parseAuthParams_param hfirst (parseAuthParams_params hmore hrest)

/-- **The parameters of the challenges behind another one.** -/
theorem parseAuthParams_tail {others : List AuthChallenge} (h : ∀ c ∈ others, c.WellFormed) :
    ∀ params, parseAuthParams params (tailText others) =
      collect params (swallowedFields others) := by
  induction others with
  | nil =>
    intro params
    rw [show tailText [] = [] from rfl, parseAuthParams]
    rfl
  | cons c others ih =>
    intro params
    obtain ⟨hc, hothers⟩ := List.forall_mem_cons.mp h
    have hgap : ∀ d ∈ ',' :: c.blank, isGap d = true :=
      List.forall_mem_cons.mpr ⟨by decide, fun d hd => (blank_spec (hc.blank d hd)).2.1⟩
    have hscheme : parseAuthParams params (c.scheme ++ (c.body.text ++ tailText others)) =
        parseAuthParams params (c.body.text ++ tailText others) := by
      rcases hc.body.head with hnil | ⟨b, more, hmore, hb⟩
      · rw [hnil, List.nil_append]
        exact parseAuthParams_word hothers hc.scheme.word
      · rw [hmore]
        exact parseAuthParams_junk hc.scheme.word (Or.inr ⟨b, _, List.cons_append, hb⟩) params
    rw [tailText_cons, parseAuthParams_gaps hgap, AuthChallenge.text, List.append_assoc, hscheme]
    exact parseAuthParams_body hc.body hothers (ih hothers)

end Reading

/-! ## A piece and its challenge -/

section Challenge
variable {loads : List UInt8 → Raises Json}

/-- Without the blanks in front, the same is read. -/
theorem parseAuthParams_dropWhile {first : AuthParam} (h : first.WellFormed) (rest : List Char)
    (params : List (String × String)) :
    parseAuthParams params ((first.text ++ rest).dropWhile isSpace) =
      parseAuthParams params (first.text ++ rest) := by
  obtain ⟨c, name, hname⟩ := List.exists_cons_of_ne_nil h.name.1
  have hspace : isSpace c = false :=
    (isTokenChar_plain (h.name.2 c (hname ▸ List.mem_cons_self))).1
  obtain ⟨more, hmore⟩ : ∃ more, first.text ++ rest = first.blank ++ c :: more := by
    refine ⟨name ++ '=' :: '"' :: (first.chars.flatMap quotedChar ++ ['"']) ++ rest, ?_⟩
    simp [AuthParam.text, hname]
  rw [hmore, List.dropWhile_append_of_pos fun d hd => (blank_spec (h.blank d hd)).1,
    List.dropWhile_cons_of_neg (by simp [hspace]),
    parseAuthParams_gaps fun d hd => (blank_spec (h.blank d hd)).2.1]

theorem stripPaymentScheme_groupText {c : AuthChallenge} (hc : c.WellFormed)
    (others : List AuthChallenge) :
    stripPaymentScheme (groupText c others) =
      if eqIgnoreCase ((groupText c others).take PAYMENT_SCHEME.length) PAYMENT_SCHEME then
        some ((groupText c others).drop PAYMENT_SCHEME.length) else none := by
  have hhead : (groupText c others).dropWhile isSpace = groupText c others := by
    refine dropWhile_of_head fun d hd => ?_
    rw [groupText, List.head?_append_of_ne_nil _ (trimmed_text hc).ne] at hd
    exact (trimmed_text hc).head d hd
  rw [stripPaymentScheme, hhead]
  by_cases hlt : (groupText c others).length < PAYMENT_SCHEME.length
  · have hnot : eqIgnoreCase ((groupText c others).take PAYMENT_SCHEME.length) PAYMENT_SCHEME =
        false := by
      refine decide_eq_false fun heq => ?_
      have hlength := congrArg List.length heq
      rw [List.length_map, List.length_map, List.length_take] at hlength
      omega
    rw [hnot]
    exact if_pos hlt
  · exact if_neg hlt

/-- A scheme that is not `Payment` is not read, also if it starts with the word. -/
theorem parseWwwAuthenticate_other {c : AuthChallenge} (hc : c.WellFormed) (hseen : c.Seen)
    (hother : ¬ c.IsPayment) (others : List AuthChallenge) :
    (parseWwwAuthenticate loads (groupText c others)).toOption = none := by
  obtain hnil | ⟨b, more, hbody, hb⟩ := hc.body.head
  · exact absurd hnil hseen.2
  have htext : groupText c others = c.scheme ++ b :: (more ++ tailText others) := by
    rw [groupText, AuthChallenge.text, hbody]
    simp
  rw [parseWwwAuthenticate, stripPaymentScheme_groupText hc, htext, eqIgnoreCase_take hb]
  by_cases hnamed : c.Named
  · have hlength := congrArg List.length (of_decide_eq_true hnamed)
    rw [List.length_map, List.length_map, List.length_take] at hlength
    rcases Nat.lt_or_ge PAYMENT_SCHEME.length c.scheme.length with hlt | hge
    · -- a letter of the scheme stands behind the word
      have hhead : ((c.scheme ++ b :: (more ++ tailText others)).drop PAYMENT_SCHEME.length).head? =
          some c.scheme[PAYMENT_SCHEME.length] := by
        rw [List.head?_drop, List.getElem?_append_left hlt, List.getElem?_eq_getElem hlt]
      have hblank : isBlank c.scheme[PAYMENT_SCHEME.length] = false :=
        (isTokenChar_plain (hc.scheme.2 _ (List.getElem_mem hlt))).2.1
      have hreject : ¬ (((c.scheme ++ b :: (more ++ tailText others)).drop
          PAYMENT_SCHEME.length).head?).any isBlank = true := by
        rw [hhead, Option.any_some, hblank]
        exact Bool.false_ne_true
      have hname : eqIgnoreCase (c.scheme.take PAYMENT_SCHEME.length) PAYMENT_SCHEME = true :=
        hnamed
      rw [hname]
      simp only [if_true, okOrElse, ok_bind, rejectIf_pos hreject]
      rfl
    · refine absurd ?_ hother
      have htake : c.scheme.take PAYMENT_SCHEME.length = c.scheme := List.take_of_length_le hge
      have heq : eqIgnoreCase (c.scheme.take PAYMENT_SCHEME.length) PAYMENT_SCHEME = true := hnamed
      rwa [htake] at heq
  · have hnone : eqIgnoreCase (c.scheme.take PAYMENT_SCHEME.length) PAYMENT_SCHEME = false :=
      Bool.eq_false_iff.mpr hnamed
    rw [hnone]
    rfl

/-- **A Payment challenge is read** of its own parameters and those that are read with it. -/
theorem parseWwwAuthenticate_groupText {c : AuthChallenge} (hc : c.WellFormed)
    (hpayment : c.IsPayment) {first : AuthParam} {rest : List AuthParam}
    (hbody : c.body = .quoted first rest) {others : List AuthChallenge}
    (h : ∀ d ∈ others, d.WellFormed) :
    parseWwwAuthenticate loads (groupText c others) =
      collect [] ((first :: rest).map AuthParam.field ++ swallowedFields others) >>=
        challengeOf loads := by
  have hlength : c.scheme.length = PAYMENT_SCHEME.length := by
    have := congrArg List.length (of_decide_eq_true hpayment)
    rwa [List.length_map, List.length_map] at this
  have hwell := hc.body
  rw [hbody] at hwell
  obtain ⟨hne, hfirst, hrest⟩ := hwell
  have htext : groupText c others = c.scheme ++ (c.body.text ++ tailText others) := by
    rw [groupText, AuthChallenge.text, List.append_assoc]
  have htake : (groupText c others).take PAYMENT_SCHEME.length = c.scheme := by
    rw [htext, ← hlength, List.take_left]
  have hdrop : (groupText c others).drop PAYMENT_SCHEME.length =
      c.body.text ++ tailText others := by
    rw [htext, ← hlength, List.drop_left]
  have hblank : ((c.body.text ++ tailText others).head?).any isBlank = true := by
    obtain hnil | ⟨b, more, hmore, hb⟩ := hc.body.head
    · rw [hbody] at hnil
      have := params_last first rest
      rw [show first.text ++ paramsText rest = [] from hnil] at this
      cases this
    · rw [hmore]
      exact hb
  have hparams : parseAuthParams [] ((c.body.text ++ tailText others).dropWhile isSpace) =
      collect [] ((first :: rest).map AuthParam.field ++ swallowedFields others) := by
    rw [hbody, AuthBody.text, List.append_assoc, parseAuthParams_dropWhile hfirst]
    exact parseAuthParams_param hfirst (parseAuthParams_params hrest (parseAuthParams_tail h))
  have hscheme : eqIgnoreCase c.scheme PAYMENT_SCHEME = true := hpayment
  rw [parseWwwAuthenticate, stripPaymentScheme_groupText hc, htake, hscheme, hdrop]
  simp only [if_true, okOrElse, ok_bind, rejectIf_neg (not_not.mpr hblank), hparams]

/-- The parameters change nothing: none is an optional one with a value, or an opaque one. -/
def Harmless (more : List (String × String)) : Prop :=
  (more.lookup "expires").getD "" = "" ∧ (more.lookup "description").getD "" = "" ∧
    (more.lookup "digest").getD "" = "" ∧ more.lookup "opaque" = none

section Lookup
variable {read more : List (String × String)} {key : String}

theorem mem_of_lookup {fields : List (String × String)} {value : String}
    (h : fields.lookup key = some value) : key ∈ fields.map Prod.fst := by
  obtain ⟨before, after, rfl, -⟩ := List.lookup_eq_some_iff.mp h
  simp

theorem requireParam_append {value : String} (h : requireParam read key = .ok value) :
    requireParam (read ++ more) key = .ok value := by
  have hread : read.lookup key = some value := okOrElse_eq_ok.mp h
  refine okOrElse_eq_ok.mpr ?_
  rw [List.lookup_append, hread]
  rfl

/-- A parameter that is there is not among the others. -/
theorem lookup_more {value : String} (hnodup : ((read ++ more).map Prod.fst).Nodup)
    (h : read.lookup key = some value) : more.lookup key = none := by
  rw [List.map_append] at hnodup
  cases hmore : more.lookup key with
  | none => rfl
  | some other =>
    exact absurd rfl ((List.nodup_append.mp hnodup).2.2 _ (mem_of_lookup h) _ (mem_of_lookup hmore))

theorem lookup_append_eq_iff (hnodup : ((read ++ more).map Prod.fst).Nodup) :
    (read ++ more).lookup key = read.lookup key ↔ more.lookup key = none := by
  rw [List.lookup_append]
  cases hread : read.lookup key with
  | none => rfl
  | some value => exact iff_of_true rfl (lookup_more hnodup hread)

theorem getD_lookup_append_eq_iff (hnodup : ((read ++ more).map Prod.fst).Nodup) :
    ((read ++ more).lookup key).getD "" = (read.lookup key).getD "" ↔
      (more.lookup key).getD "" = "" := by
  rw [List.lookup_append]
  cases hread : read.lookup key with
  | none => rfl
  | some value =>
    rw [lookup_more hnodup hread]
    exact iff_of_true rfl rfl

end Lookup

theorem challengeOf_append {read more : List (String × String)} {challenge : PaymentChallenge}
    (hnodup : ((read ++ more).map Prod.fst).Nodup) (h : challengeOf loads read = .ok challenge) :
    challengeOf loads (read ++ more) = .ok challenge ↔ Harmless more := by
  obtain ⟨id, hid, h⟩ := bind_eq_ok.mp h
  obtain ⟨_, hidne, h⟩ := bind_eq_ok.mp h
  obtain ⟨realm, hrealm, h⟩ := bind_eq_ok.mp h
  obtain ⟨method, hmethod, h⟩ := bind_eq_ok.mp h
  obtain ⟨_, hvalid, h⟩ := bind_eq_ok.mp h
  obtain ⟨intent, hintent, h⟩ := bind_eq_ok.mp h
  obtain ⟨request, hrequest, h⟩ := bind_eq_ok.mp h
  obtain ⟨bytes, hbytes, h⟩ := bind_eq_ok.mp h
  obtain ⟨value, hvalue, h⟩ := bind_eq_ok.mp h
  obtain rfl := Except.ok.inj h
  have happend : challengeOf loads (read ++ more) = .ok
      { id, realm, method, intent, request
        expires := ((read ++ more).lookup "expires").getD ""
        description := ((read ++ more).lookup "description").getD ""
        digest := ((read ++ more).lookup "digest").getD ""
        opaqueData := (read ++ more).lookup "opaque" } := by
    simp only [challengeOf, requireParam_append hid, requireParam_append hrealm,
      requireParam_append hmethod, requireParam_append hintent, requireParam_append hrequest,
      ok_bind, hidne, hvalid, hbytes, hvalue]
    rfl
  rw [happend, Harmless, ← getD_lookup_append_eq_iff hnodup, ← getD_lookup_append_eq_iff hnodup,
    ← getD_lookup_append_eq_iff hnodup, ← lookup_append_eq_iff hnodup]
  constructor
  · intro heq
    obtain ⟨-, -, -, -, -, hexpires, hdescription, hdigest, hopaque⟩ :=
      PaymentChallenge.mk.inj (Except.ok.inj heq)
    exact ⟨hexpires, hdescription, hdigest, hopaque⟩
  · rintro ⟨hexpires, hdescription, hdigest, hopaque⟩
    rw [hexpires, hdescription, hdigest, hopaque]

end Challenge

/-! ## Payment challenges that are written -/

theorem escapeQuotedValue_eq {s : String} (h : Writable s) :
    escapeQuotedValue s = .ok (escaped s) := by
  have hlines : ¬ ('\r' ∈ s.toList ∨ '\n' ∈ s.toList) := not_or.mpr h
  have hescaped := MppSdk.escapeQuotedValue_eq h
  rw [MppSdk.escapeQuotedValue, if_neg hlines] at hescaped
  rw [escapeQuotedValue, if_neg hlines]
  exact congrArg Except.ok (Except.ok.inj hescaped)

theorem mapM_formatParam {params : List (String × String)}
    (h : ∀ param ∈ params, Writable param.2) :
    params.mapM formatParam = .ok (params.map paramText) := by
  induction params with
  | nil => rfl
  | cons param params ih =>
    obtain ⟨hparam, hparams⟩ := List.forall_mem_cons.mp h
    rw [List.mapM_cons, ih hparams, formatParam, escapeQuotedValue_eq hparam]
    rfl

/-- What is written has no line end in a value. -/
theorem writable_of_mapM {params : List (String × String)} {parts : List (List Char)}
    (h : params.mapM formatParam = .ok parts) : ∀ param ∈ params, Writable param.2 := by
  induction params generalizing parts with
  | nil => exact List.forall_mem_nil _
  | cons param params ih =>
    rw [List.mapM_cons] at h
    obtain ⟨part, hpart, h⟩ := bind_eq_ok.mp h
    obtain ⟨rest, hrest, -⟩ := bind_eq_ok.mp h
    obtain ⟨value, hvalue, -⟩ := bind_eq_ok.mp hpart
    refine List.forall_mem_cons.mpr ⟨?_, ih hrest⟩
    unfold escapeQuotedValue at hvalue
    split_ifs at hvalue with hlines
    · cases hvalue
    · exact not_or.mp hlines

/-- A parameter as it is written, behind a space. -/
def writtenParam (param : String × String) : AuthParam where
  blank := [' ']
  name := param.1.toList
  chars := param.2.toList.map fun c => (c, c = '\\' ∨ c = '"')

theorem writtenParam_text (param : String × String) :
    (writtenParam param).text = ' ' :: paramText param := by
  have hchars : (writtenParam param).chars.flatMap quotedChar = escaped param.2 := by
    rw [writtenParam, List.flatMap_map, escaped]
    refine List.flatMap_congr fun c _ => ?_
    unfold quotedChar escapeChar
    by_cases hbackslash : c = '\\'
    · simp [hbackslash]
    · by_cases hquote : c = '"'
      · simp [hquote]
      · simp [hbackslash, hquote]
  rw [AuthParam.text, hchars]
  rfl

theorem writtenParam_field (param : String × String) : (writtenParam param).field = param := by
  refine Prod.ext String.ofList_toList ?_
  have hchars : (writtenParam param).chars.map Prod.fst = param.2.toList := by
    rw [writtenParam, List.map_map]
    exact List.map_id _
  exact (congrArg String.ofList hchars).trans String.ofList_toList

theorem writtenParam_wellFormed {param : String × String} (h : IsToken param.1.toList) :
    (writtenParam param).WellFormed where
  blank := List.forall_mem_singleton.mpr (by decide)
  name := h
  chars := by
    intro c hc hplain
    obtain ⟨d, -, rfl⟩ := List.mem_map.mp hc
    have hnot : ¬ (d = '\\' ∨ d = '"') := of_decide_eq_false hplain
    exact ⟨fun hquote => hnot (Or.inr hquote), fun hbackslash => hnot (Or.inl hbackslash)⟩

theorem intercalate_paramText (first : String × String) (rest : List (String × String)) :
    ' ' :: [',', ' '].intercalate ((first :: rest).map paramText) =
      (writtenParam first).text ++ paramsText (rest.map writtenParam) := by
  induction rest generalizing first with
  | nil =>
    rw [List.map_singleton, List.intercalate_singleton, writtenParam_text]
    simp [paramsText]
  | cons next rest ih =>
    rw [List.map_cons, List.map_cons, List.intercalate_cons_cons, ← List.map_cons]
    have htail : paramsText ((next :: rest).map writtenParam) =
        ',' :: ((writtenParam next).text ++ paramsText (rest.map writtenParam)) := by
      simp [paramsText]
    rw [htail, ← ih next, writtenParam_text]
    simp

/-- A challenge as it is written. -/
def payment (challenge : PaymentChallenge) : AuthChallenge where
  blank := []
  scheme := PAYMENT_SCHEME
  body := .quoted (writtenParam ("id", challenge.id)) (challenge.params.tail.map writtenParam)

theorem params_spec (challenge : PaymentChallenge) :
    (∀ param ∈ challenge.params, IsToken param.1.toList) ∧
      (challenge.params.map Prod.fst).Nodup := by
  have hnames : ∀ name ∈ ["id", "realm", "method", "intent", "request", "expires", "digest",
      "opaque"], IsToken name.toList := by
    intro name hname
    simp only [List.mem_cons, List.not_mem_nil, or_false] at hname
    rcases hname with rfl | rfl | rfl | rfl | rfl | rfl | rfl | rfl <;> decide
  have hsub : (challenge.params.map Prod.fst).Sublist
      ["id", "realm", "method", "intent", "request", "expires", "digest", "opaque"] := by
    unfold PaymentChallenge.params
    split_ifs <;> rcases challenge.opaqueData with _ | opaqueData <;>
      simp [List.Sublist.refl]
  refine ⟨fun param hparam => hnames _ (hsub.subset (List.mem_map_of_mem hparam)), ?_⟩
  exact hsub.nodup (by decide)

theorem payment_wellFormed (challenge : PaymentChallenge) : (payment challenge).WellFormed where
  blank := fun c hc => nomatch hc
  scheme := show IsToken PAYMENT_SCHEME by decide
  body := by
    have hnames := (params_spec challenge).1
    refine ⟨by simp [writtenParam], writtenParam_wellFormed (hnames _ List.mem_cons_self), ?_⟩
    intro p hp
    obtain ⟨param, hparam, rfl⟩ := List.mem_map.mp hp
    exact writtenParam_wellFormed (hnames param (List.mem_of_mem_tail hparam))

/-- **What is written of a challenge**, if no value has a line end. -/
theorem formatWwwAuthenticate_eq {challenge : PaymentChallenge}
    (h : ∀ param ∈ challenge.params, Writable param.2) :
    formatWwwAuthenticate challenge = .ok (payment challenge).text := by
  have hparams : challenge.params = ("id", challenge.id) :: challenge.params.tail := rfl
  rw [formatWwwAuthenticate, mapM_formatParam h, ok_bind, hparams, intercalate_paramText]
  rfl

theorem eq_payment_text {challenge : PaymentChallenge} {text : List Char}
    (h : formatWwwAuthenticate challenge = .ok text) : text = (payment challenge).text := by
  obtain ⟨parts, hparts, -⟩ := bind_eq_ok.mp h
  exact Except.ok.inj (h.symm.trans (formatWwwAuthenticate_eq (writable_of_mapM hparts)))

/-- What a challenge must be for its header to be read: it has an id, a method of small letters
and a request that decodes to JSON. -/
structure PaymentChallenge.Valid (loads : List UInt8 → Raises Json)
    (challenge : PaymentChallenge) : Prop where
  id_ne : challenge.id ≠ ""
  method_valid : isValidMethod challenge.method = true
  request_json : ∃ bytes value, base64UrlDecode challenge.request = .ok bytes ∧
    loads bytes = .ok value

theorem lookup_params (challenge : PaymentChallenge) :
    challenge.params.lookup "id" = some challenge.id ∧
      challenge.params.lookup "realm" = some challenge.realm ∧
      challenge.params.lookup "method" = some challenge.method ∧
      challenge.params.lookup "intent" = some challenge.intent ∧
      challenge.params.lookup "request" = some challenge.request ∧
      (challenge.params.lookup "expires").getD "" = challenge.expires ∧
      challenge.params.lookup "description" = none ∧
      (challenge.params.lookup "digest").getD "" = challenge.digest ∧
      challenge.params.lookup "opaque" = challenge.opaqueData := by
  obtain ⟨id, realm, method, intent, request, expires, description, digest, opaqueData⟩ := challenge
  by_cases hexpires : expires = "" <;> by_cases hdigest : digest = "" <;>
    rcases opaqueData with _ | opaqueData <;>
    simp [PaymentChallenge.params, hexpires, hdigest, List.lookup_cons,
      List.lookup_nil]

section Header
variable {loads : List UInt8 → Raises Json} {letters : Char → Bool}

/-- **A challenge that is written is read back**, without its description. -/
theorem parseWwwAuthenticate_format {challenge : PaymentChallenge} (h : challenge.Valid loads)
    {text : List Char} (htext : formatWwwAuthenticate challenge = .ok text) :
    parseWwwAuthenticate loads text = .ok { challenge with description := "" } := by
  have hgroup : text = groupText (payment challenge) [] := by
    rw [eq_payment_text htext, groupText, show tailText [] = [] from rfl, List.append_nil]
  have hfields : (writtenParam ("id", challenge.id) :: challenge.params.tail.map writtenParam).map
      AuthParam.field ++ swallowedFields [] = challenge.params := by
    rw [List.map_cons, List.map_map, show swallowedFields [] = [] from rfl, List.append_nil,
      writtenParam_field]
    refine congrArg (("id", challenge.id) :: ·) ((List.map_congr_left fun param _ => ?_).trans
      (List.map_id _))
    exact writtenParam_field param
  have hcollect : collect [] challenge.params = .ok challenge.params :=
    (@collect_eq_ok challenge.params [] _ List.nodup_nil).mpr ⟨(params_spec challenge).2, rfl⟩
  obtain ⟨hid, hrealm, hmethod, hintent, hrequest, hexpires, hdescription, hdigest, hopaque⟩ :=
    lookup_params challenge
  obtain ⟨bytes, value, hbytes, hvalue⟩ := h.request_json
  rw [hgroup, parseWwwAuthenticate_groupText (payment_wellFormed challenge) rfl rfl (by simp),
    hfields, hcollect, ok_bind]
  simp only [challengeOf, requireParam, hid, hrealm, hmethod, hintent, hrequest, okOrElse, ok_bind,
    rejectIf_neg h.id_ne, h.method_valid, not_true_eq_false, rejectIf_neg not_false, hbytes, hvalue,
    orParseError, mapErr, hexpires, hdescription, hdigest, hopaque]
  rfl

/-- Only a challenge with quoted parameters has a quote in it. -/
theorem exists_quoted {c : AuthChallenge} (h : c.WellFormed) (hquote : '"' ∈ c.text) :
    ∃ first rest, c.body = .quoted first rest := by
  have hplain : ∀ {cs : List Char}, (∀ d ∈ cs, Plain d) → '"' ∉ cs := fun hall hmem =>
    (hall _ hmem).2.2.2.2 rfl
  have hscheme : '"' ∉ c.scheme := hplain fun d hd => isTokenChar_plain (h.scheme.2 d hd)
  have hbody : '"' ∈ c.body.text := (List.mem_append.mp hquote).resolve_left hscheme
  have hwell := h.body
  cases hform : c.body with
  | nothing =>
    rw [hform] at hbody
    cases hbody
  | token68 gap chars pads =>
    rw [hform] at hbody hwell
    obtain ⟨-, hgap, -, hchars⟩ := hwell
    rcases List.mem_append.mp hbody with hmem | hmem
    · exact absurd rfl (blank_spec (hgap _ hmem)).2.2.2.1
    rcases List.mem_append.mp hmem with hmem | hmem
    · exact absurd hmem (hplain fun d hd => isToken68Char_plain (hchars d hd))
    · exact absurd (List.eq_of_mem_replicate hmem) (by decide)
  | quoted first rest => exact ⟨first, rest, rfl⟩

theorem seen_of_isPayment {c : AuthChallenge} (hpayment : c.IsPayment) {first : AuthParam}
    {rest : List AuthParam} (hbody : c.body = .quoted first rest) : c.Seen := by
  refine ⟨List.all_eq_true.mpr fun d hd => ?_, ?_⟩
  · have hmem : d.toLower ∈ PAYMENT_SCHEME.map Char.toLower :=
      of_decide_eq_true hpayment ▸ List.mem_map_of_mem hd
    have hletters : (PAYMENT_SCHEME.map Char.toLower).all Char.isAlpha = true := by decide
    by_cases hupper : d.isUpper
    · show (d.isUpper || d.isLower) = true
      rw [hupper, Bool.true_or]
    · have hlower : d.toLower = d := by
        unfold Char.toLower
        exact dif_neg fun h => hupper (decide_eq_true h)
      exact List.all_eq_true.mp hletters d (hlower ▸ hmem)
  · intro hnil
    have hlast := params_last first rest
    rw [hbody] at hnil
    rw [show first.text ++ paramsText rest = [] from hnil] at hlast
    cases hlast

/-- The challenges that are read with a Payment challenge do it no harm: all names differ, and
the parameters change nothing. -/
def Apart (c : AuthChallenge) (others : List AuthChallenge) : Prop :=
  ((c.body.fields false ++ swallowedFields others).map Prod.fst).Nodup ∧
    Harmless (swallowedFields others)

/-- **A Payment challenge and those read with it.** -/
theorem parseWwwAuthenticate_eq_alone_iff {c : AuthChallenge} (hc : c.WellFormed)
    (hpayment : c.IsPayment) {first : AuthParam} {rest : List AuthParam}
    (hbody : c.body = .quoted first rest) {others : List AuthChallenge}
    (h : ∀ d ∈ others, d.WellFormed) {challenge : PaymentChallenge}
    (halone : parseWwwAuthenticate loads c.text = .ok challenge) :
    parseWwwAuthenticate loads (groupText c others) = .ok challenge ↔ Apart c others := by
  have hnil : (([] : List (String × String)).map Prod.fst).Nodup := List.nodup_nil
  have htext : c.text = groupText c [] := by
    rw [groupText, show tailText [] = [] from rfl, List.append_nil]
  have hfields : c.body.fields false = (first :: rest).map AuthParam.field := by
    rw [hbody]
    rfl
  rw [htext, parseWwwAuthenticate_groupText hc hpayment hbody (List.forall_mem_nil _)] at halone
  obtain ⟨read, hread, halone⟩ := bind_eq_ok.mp halone
  obtain ⟨-, rfl⟩ := (collect_eq_ok hnil).mp hread
  rw [show swallowedFields [] = [] from rfl, List.append_nil, List.nil_append] at halone
  rw [parseWwwAuthenticate_groupText hc hpayment hbody h, Apart, hfields]
  constructor
  · intro hok
    obtain ⟨read, hread, hok⟩ := bind_eq_ok.mp hok
    obtain ⟨hnodup, rfl⟩ := (collect_eq_ok hnil).mp hread
    rw [List.nil_append] at hnodup hok
    exact ⟨hnodup, (challengeOf_append hnodup halone).mp hok⟩
  · rintro ⟨hnodup, hharmless⟩
    exact bind_eq_ok.mpr ⟨_, (collect_eq_ok hnil).mpr ⟨hnodup, rfl⟩,
      (challengeOf_append hnodup halone).mpr hharmless⟩

/-- The Payment challenges of a header are at the front of their groups. -/
theorem map_fst_groups {header : List AuthChallenge}
    (h : ∀ c ∈ header, c.IsPayment → c.Seen) :
    ((groups header).filter fun g => g.1.IsPayment).map Prod.fst =
      header.filter fun c => c.IsPayment := by
  induction header with
  | nil => rfl
  | cons c header ih =>
    obtain ⟨hc, hheader⟩ := List.forall_mem_cons.mp h
    rw [groups_cons, List.filter_append, List.map_append, ih hheader, List.filter_cons]
    by_cases hpayment : c.IsPayment
    · simp [hpayment, hc hpayment]
    · by_cases hseen : c.Seen
      · simp [hpayment, hseen]
      · simp [hpayment, hseen]

theorem parseWwwAuthenticateAll_header {header : List AuthChallenge}
    (h : ∀ c ∈ header, c.WellFormed) :
    parseWwwAuthenticateAll loads letters [headerText header] =
      ((groups header).filter fun g => g.1.IsPayment).flatMap fun g =>
        (parseWwwAuthenticate loads (groupText g.1 g.2)).toOption.toList := by
  rw [parseWwwAuthenticateAll, List.flatMap_singleton, extractChallenges_header h,
    List.filterMap_map, List.filterMap_eq_flatMap_toList]
  have hgroups := wellFormed_of_mem_groups h
  generalize groups header = gs at hgroups
  induction gs with
  | nil => rfl
  | cons g gs ih =>
    obtain ⟨⟨hwell, hseen, -⟩, hgs⟩ := List.forall_mem_cons.mp hgroups
    rw [List.filter_cons, List.filter_cons]
    by_cases hpayment : g.1.IsPayment
    · have hnamed : g.1.Named := by
        have hlength := congrArg List.length (of_decide_eq_true hpayment)
        rw [List.length_map, List.length_map] at hlength
        rw [AuthChallenge.Named, ← hlength, List.take_length]
        exact hpayment
      rw [if_pos (decide_eq_true hnamed), if_pos (decide_eq_true hpayment), List.flatMap_cons,
        List.flatMap_cons, ih hgs]
      rfl
    · have hother : ¬ decide g.1.IsPayment = true := decide_eq_true_iff.not.mpr hpayment
      rw [if_neg hother]
      by_cases hnamed : g.1.Named
      · have hnone : (parseWwwAuthenticate loads (groupText g.1 g.2)).toOption = none :=
          parseWwwAuthenticate_other hwell hseen hpayment g.2
        rw [if_pos (decide_eq_true hnamed), List.flatMap_cons, ih hgs]
        simp [hnone]
      · rw [if_neg (decide_eq_true_iff.not.mpr hnamed), ih hgs]

/-- What is read of each, if all of it can be read. -/
theorem map_eq_map_ok {β : Type} {xs : List β} {read : β → Raises PaymentChallenge}
    (h : ∀ x ∈ xs, ∃ challenge, read x = .ok challenge) :
    xs.map read = (xs.flatMap fun x => (read x).toOption.toList).map Except.ok := by
  induction xs with
  | nil => rfl
  | cons x xs ih =>
    obtain ⟨⟨challenge, hx⟩, hxs⟩ := List.forall_mem_cons.mp h
    rw [List.map_cons, List.flatMap_cons, List.map_append, ih hxs, hx]
    rfl

/-- **Mixed schemes.**  Of a header of well-formed challenges, exactly the Payment challenges
are read, in order and each as it is alone, when those that are read with each of them do it no
harm. -/
theorem parseWwwAuthenticateAll_iff {header : List AuthChallenge}
    (h : ∀ c ∈ header, c.WellFormed)
    (hpayments : ∀ c ∈ header, c.IsPayment → ∃ challenge : PaymentChallenge,
      challenge.Valid loads ∧ formatWwwAuthenticate challenge = .ok c.text) :
    (parseWwwAuthenticateAll loads letters [headerText header]).map Except.ok =
        ((header.filter fun c => c.IsPayment).map fun c => parseWwwAuthenticate loads c.text) ↔
      ∀ g ∈ groups header, g.1.IsPayment → Apart g.1 g.2 := by
  have hquoted : ∀ c ∈ header, c.IsPayment → ∃ first rest, c.body = .quoted first rest := by
    intro c hc hpayment
    obtain ⟨challenge, -, hformat⟩ := hpayments c hc hpayment
    refine exists_quoted (h c hc) ?_
    rw [eq_payment_text hformat]
    simp [payment, AuthChallenge.text, AuthBody.text, writtenParam_text, paramText]
  have hseen : ∀ c ∈ header, c.IsPayment → c.Seen := by
    intro c hc hpayment
    obtain ⟨first, rest, hbody⟩ := hquoted c hc hpayment
    exact seen_of_isPayment hpayment hbody
  have halone : ∀ c ∈ header, c.IsPayment →
      ∃ challenge, parseWwwAuthenticate loads c.text = .ok challenge := by
    intro c hc hpayment
    obtain ⟨challenge, hvalid, hformat⟩ := hpayments c hc hpayment
    exact ⟨_, parseWwwAuthenticate_format hvalid hformat⟩
  have hfirst : ∀ g ∈ (groups header).filter (fun g => g.1.IsPayment),
      g.1 ∈ header ∧ g.1.IsPayment := by
    intro g hg
    have hmem : g.1 ∈ ((groups header).filter fun g => g.1.IsPayment).map Prod.fst :=
      List.mem_map_of_mem hg
    rw [map_fst_groups hseen, List.mem_filter] at hmem
    exact ⟨hmem.1, of_decide_eq_true hmem.2⟩
  have hread : ∀ g ∈ (groups header).filter (fun g => g.1.IsPayment),
      ∃ challenge, parseWwwAuthenticate loads g.1.text = .ok challenge :=
    fun g hg => halone g.1 (hfirst g hg).1 (hfirst g hg).2
  have hright : ((header.filter fun c => c.IsPayment).map fun c =>
      parseWwwAuthenticate loads c.text) =
      (((groups header).filter fun g => g.1.IsPayment).flatMap fun g =>
        (parseWwwAuthenticate loads g.1.text).toOption.toList).map Except.ok := by
    rw [← map_fst_groups hseen, List.map_map]
    exact map_eq_map_ok hread
  have hle : ∀ g ∈ (groups header).filter (fun g => g.1.IsPayment),
      (parseWwwAuthenticate loads (groupText g.1 g.2)).toOption.toList.length ≤
        (parseWwwAuthenticate loads g.1.text).toOption.toList.length := by
    intro g hg
    obtain ⟨challenge, hchallenge⟩ := hread g hg
    rw [hchallenge]
    exact Option.length_toList_le
  have hinj : Function.Injective
      (List.map (Except.ok (ε := Failure PyError) (α := PaymentChallenge))) :=
    List.map_injective_iff.mpr fun _ _ heq => Except.ok.inj heq
  rw [parseWwwAuthenticateAll_header h, hright, hinj.eq_iff, eq_comm, flatMap_eq_iff hle]
  have hgroup : ∀ g ∈ groups header, g.1.IsPayment →
      ((parseWwwAuthenticate loads g.1.text).toOption.toList =
        (parseWwwAuthenticate loads (groupText g.1 g.2)).toOption.toList ↔ Apart g.1 g.2) := by
    intro g hg hpayment
    have hmem : g ∈ (groups header).filter fun g => g.1.IsPayment :=
      List.mem_filter.mpr ⟨hg, decide_eq_true hpayment⟩
    obtain ⟨challenge, hchallenge⟩ := hread g hmem
    obtain ⟨first, rest, hbody⟩ := hquoted g.1 (hfirst g hmem).1 hpayment
    obtain ⟨hwell, -, hothers⟩ := wellFormed_of_mem_groups h g hg
    rw [← parseWwwAuthenticate_eq_alone_iff hwell hpayment hbody hothers hchallenge, hchallenge]
    cases parseWwwAuthenticate loads (groupText g.1 g.2) with
    | ok other => simp [Except.toOption, eq_comm]
    | error e => simp [Except.toOption]
  simp only [List.mem_filter, decide_eq_true_eq, and_imp]
  exact forall₃_congr hgroup

end Header

namespace MixedSample

def sample (id : String) : PaymentChallenge where
  id := id
  realm := "api"
  method := "solana"
  intent := "charge"
  request := "e30"

/-- A reader of JSON that knows `{}`. -/
def loads (bytes : List UInt8) : Raises Json :=
  if bytes = [123, 125] then .ok (.obj []) else exception "Expecting value"

theorem sample_valid {id : String} (h : id ≠ "") : (sample id).Valid loads where
  id_ne := h
  method_valid := show isValidMethod "solana" = true by decide
  request_json := ⟨[123, 125], .obj [],
    show base64UrlDecode "e30" = .ok [123, 125] by decide +kernel, rfl⟩

/-- The challenge with the blank behind a comma. -/
def written (id : String) : AuthChallenge := { payment (sample id) with blank := [' '] }

theorem written_wellFormed (id : String) : (written id).WellFormed where
  blank := List.forall_mem_singleton.mpr (by decide)
  scheme := (payment_wellFormed (sample id)).scheme
  body := (payment_wellFormed (sample id)).body

/-- A challenge of another scheme with one parameter. -/
def other (scheme : String) (param : String × String) : AuthChallenge where
  blank := [' ']
  scheme := scheme.toList
  body := .quoted (writtenParam param) []

theorem other_wellFormed {scheme : String} {param : String × String}
    (hscheme : IsToken scheme.toList) (hparam : IsToken param.1.toList) :
    (other scheme param).WellFormed where
  blank := List.forall_mem_singleton.mpr (by decide)
  scheme := hscheme
  body := ⟨by simp [writtenParam], writtenParam_wellFormed hparam, List.forall_mem_nil _⟩

/-- A challenge of another scheme that carries nothing. -/
def negotiate : AuthChallenge where
  blank := [' ']
  scheme := "Negotiate".toList
  body := .nothing

theorem negotiate_wellFormed : negotiate.WellFormed where
  blank := List.forall_mem_singleton.mpr (by decide)
  scheme := show IsToken "Negotiate".toList by decide
  body := trivial

/-- Both Payment challenges are followed by one that is read with them. -/
def harmless : List AuthChallenge :=
  [written "1", other "X-Foo" ("nonce", "n"), other "Bearer" ("realm", "r"), written "2", negotiate]

theorem harmless_wellFormed : ∀ c ∈ harmless, c.WellFormed :=
  List.forall_mem_cons.mpr ⟨written_wellFormed "1", List.forall_mem_cons.mpr
    ⟨other_wellFormed (by decide) (by decide), List.forall_mem_cons.mpr
      ⟨other_wellFormed (by decide) (by decide), List.forall_mem_cons.mpr
        ⟨written_wellFormed "2", List.forall_mem_singleton.mpr negotiate_wellFormed⟩⟩⟩⟩

theorem written_format {id : String} (h : Writable id) :
    formatWwwAuthenticate (sample id) = .ok (written id).text := by
  refine formatWwwAuthenticate_eq (List.forall_mem_cons.mpr ⟨h, ?_⟩)
  exact show ∀ param ∈ [("realm", "api"), ("method", "solana"), ("intent", "charge"),
    ("request", "e30")], Writable param.2 by decide

theorem apart_all_read :
    (parseWwwAuthenticateAll loads (fun _ => false) [headerText harmless]).map Except.ok =
      (harmless.filter fun c => c.IsPayment).map fun c => parseWwwAuthenticate loads c.text := by
  have hgroups : groups harmless = [(written "1", [other "X-Foo" ("nonce", "n")]),
      (other "Bearer" ("realm", "r"), []), (written "2", [negotiate])] := rfl
  have hfilter : (harmless.filter fun c => c.IsPayment) = [written "1", written "2"] := rfl
  refine (parseWwwAuthenticateAll_iff harmless_wellFormed fun c hc hpayment => ?_).mpr ?_
  · have hmem : c ∈ harmless.filter fun c => c.IsPayment :=
      List.mem_filter.mpr ⟨hc, decide_eq_true hpayment⟩
    rw [hfilter] at hmem
    rcases List.mem_cons.mp hmem with rfl | hmem
    · exact ⟨sample "1", sample_valid (by decide), written_format (by decide)⟩
    · obtain rfl := List.mem_singleton.mp hmem
      exact ⟨sample "2", sample_valid (by decide), written_format (by decide)⟩
  · rw [hgroups]
    refine List.forall_mem_cons.mpr ⟨fun _ => ?_, List.forall_mem_cons.mpr
      ⟨fun hpayment => ?_, List.forall_mem_singleton.mpr fun _ => ?_⟩⟩
    · exact ⟨by decide, by decide, by decide, by decide, by decide⟩
    · exact absurd hpayment (by decide)
    · exact ⟨by decide, by decide, by decide, by decide, by decide⟩

/-- A Payment challenge in front of one with a realm whose scheme has a hyphen. -/
def harmful : List AuthChallenge := [written "1", other "X-Foo" ("realm", "r")]

theorem harmful_wellFormed : ∀ c ∈ harmful, c.WellFormed :=
  List.forall_mem_cons.mpr ⟨written_wellFormed "1", List.forall_mem_singleton.mpr
    (other_wellFormed (by decide) (by decide))⟩

/-- The Payment challenge of such a header is dropped. -/
theorem hyphen_scheme_drops : ¬ ∀ (loads : List UInt8 → Raises Json) (letters : Char → Bool)
    (header : List AuthChallenge), (∀ c ∈ header, c.WellFormed) →
    (∀ c ∈ header, c.IsPayment → ∃ challenge : PaymentChallenge,
      challenge.Valid loads ∧ formatWwwAuthenticate challenge = .ok c.text) →
    (parseWwwAuthenticateAll loads letters [headerText header]).map Except.ok =
      (header.filter fun c => c.IsPayment).map fun c => parseWwwAuthenticate loads c.text := by
  intro h
  have hgroups : (groups harmful).filter (fun g => g.1.IsPayment) =
      [(written "1", [other "X-Foo" ("realm", "r")])] := rfl
  have hfilter : (harmful.filter fun c => c.IsPayment) = [written "1"] := rfl
  have hwritten : ∀ c ∈ harmful, c.IsPayment → ∃ challenge : PaymentChallenge,
      challenge.Valid loads ∧ formatWwwAuthenticate challenge = .ok c.text := by
    intro c hc hpayment
    have hmem : c ∈ harmful.filter fun c => c.IsPayment :=
      List.mem_filter.mpr ⟨hc, decide_eq_true hpayment⟩
    rw [hfilter] at hmem
    obtain rfl := List.mem_singleton.mp hmem
    exact ⟨sample "1", sample_valid (by decide), written_format (by decide)⟩
  have halone : parseWwwAuthenticate loads (written "1").text = .ok (sample "1") :=
    parseWwwAuthenticate_format (sample_valid (by decide)) (written_format (by decide))
  -- the realm of the other challenge is a second one
  have hdropped : parseWwwAuthenticate loads
      (groupText (written "1") [other "X-Foo" ("realm", "r")]) ≠ .ok (sample "1") := by
    intro hread
    have hnodup := ((parseWwwAuthenticate_eq_alone_iff (written_wellFormed "1") rfl rfl
      (List.forall_mem_singleton.mpr (other_wellFormed (by decide) (by decide)))
      halone).mp hread).1
    exact absurd hnodup (by decide)
  have hall := h loads (fun _ => false) harmful harmful_wellFormed hwritten
  rw [parseWwwAuthenticateAll_header harmful_wellFormed, hgroups, hfilter, List.map_singleton,
    halone, List.flatMap_singleton] at hall
  cases hread : parseWwwAuthenticate loads (groupText (written "1")
      [other "X-Foo" ("realm", "r")]) with
  | error e =>
    rw [hread] at hall
    cases hall
  | ok challenge =>
    rw [hread] at hall
    obtain rfl : challenge = sample "1" := by simpa [Except.toOption] using hall
    exact hdropped hread

end MixedSample

end Py
end MppSdk
