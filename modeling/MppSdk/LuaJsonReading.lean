import MppSdk.LuaJson

/-! # What the decoder reads

The texts that `json.lua` reads a value from, wherever they stand: literals, numerals, strings
made of the chunks of `Chunk`, and arrays and objects of such texts with spaces between. -/

namespace MppSdk
namespace Lua
namespace Json

open Json.Parser

/-! ## Spaces -/

/-- Every byte is whitespace. -/
def Spaces (ws : Str) : Prop := ∀ ch ∈ ws, Parser.isSpace ch = true

/-- The text does not start with whitespace. -/
def Dense (text : Str) : Prop := ∀ ch ∈ text.head?, Parser.isSpace ch = false

theorem spaces_nil : Spaces [] := nofun

theorem skipWs_spaces {ws rest : Str} (hws : Spaces ws) (hrest : Dense rest) (pos : Nat) :
    skipWs ⟨ws ++ rest, pos⟩ = ⟨rest, pos + ws.length⟩ := by
  have hhead : rest.takeWhile Parser.isSpace = [] ∧ rest.dropWhile Parser.isSpace = rest := by
    cases rest with
    | nil => exact ⟨rfl, rfl⟩
    | cons ch rest =>
      have hch : Parser.isSpace ch = false := hrest ch rfl
      simp [hch]
  simp only [skipWs]
  rw [List.takeWhile_append_of_pos hws, List.dropWhile_append_of_pos hws, hhead.1, hhead.2,
    List.append_nil]

theorem skipWs_dense {rest : Str} (hrest : Dense rest) (pos : Nat) :
    skipWs ⟨rest, pos⟩ = ⟨rest, pos⟩ := skipWs_spaces spaces_nil hrest pos

theorem skipWs_skipWs (p : Parser) : p.skipWs.skipWs = p.skipWs := by
  refine skipWs_dense (fun ch hch => ?_) _
  have hnot := List.head?_dropWhile_not Parser.isSpace p.rest
  rw [Option.mem_def.mp hch] at hnot
  simpa using hnot

/-- `parse_value` skips whitespace itself. -/
theorem parseValue_skipWs (fuel : Nat) (p : Parser) :
    parseValue fuel p.skipWs = parseValue fuel p := by
  cases fuel with
  | zero => rfl
  | succ fuel => simp only [parseValue, skipWs_skipWs]

theorem expect_append (text rest : Str) (pos : Nat) :
    expect text ⟨text ++ rest, pos⟩ = .ok ⟨rest, pos + text.length⟩ := by
  simp [expect, pure, Except.pure]

/-! ## Strings -/

/-- A part of a string literal and the bytes it stands for. -/
def Chunk (text bytes : Str) : Prop := ∀ rest pos out, ∃ pos',
  stringLoop (text ++ rest) pos out = stringLoop rest pos' (out ++ bytes)

theorem chunk_nil : Chunk [] [] := fun _ pos _ => ⟨pos, by simp⟩

theorem Chunk.append {text bytes text' bytes' : Str} (h : Chunk text bytes)
    (h' : Chunk text' bytes') : Chunk (text ++ text') (bytes ++ bytes') := by
  intro rest pos out
  obtain ⟨pos₁, h₁⟩ := h (text' ++ rest) pos out
  obtain ⟨pos₂, h₂⟩ := h' rest pos₁ (out ++ bytes)
  refine ⟨pos₂, ?_⟩
  rw [List.append_assoc, h₁, h₂, List.append_assoc]

theorem chunk_flatMap {α : Type} {text bytes : α → Str} {parts : List α}
    (h : ∀ part ∈ parts, Chunk (text part) (bytes part)) :
    Chunk (parts.flatMap text) (parts.flatMap bytes) := by
  induction parts with
  | nil => exact chunk_nil
  | cons part parts ih =>
    obtain ⟨hpart, hparts⟩ := List.forall_mem_cons.mp h
    exact hpart.append (ih hparts)

/-- A byte that stands for itself. -/
theorem chunk_byte {ch : UInt8} (hquote : ch ≠ byte '"') (hslash : ch ≠ byte '\\') :
    Chunk [ch] [ch] := by
  intro rest pos out
  refine ⟨pos + 1, ?_⟩
  rw [List.singleton_append]
  conv_lhs => unfold stringLoop
  rw [if_neg hquote, if_neg hslash]

/-- An escape of one character. -/
theorem chunk_escape (esc : UInt8) {ch : UInt8} (h : unescape esc = some ch) :
    Chunk [byte '\\', esc] [ch] := by
  intro rest pos out
  refine ⟨pos + 2, ?_⟩
  have hu : esc ≠ byte 'u' := by
    rintro rfl
    have hnone : unescape (byte 'u') = none := by decide
    exact nomatch hnone.symm.trans h
  show stringLoop (byte '\\' :: esc :: rest) pos out = _
  conv_lhs => unfold stringLoop
  rw [if_neg (by decide), if_pos rfl]
  dsimp only
  rw [if_neg hu, h]

/-- An escape of a code unit. -/
theorem chunk_unit {a b c d : UInt8} (h : [a, b, c, d].all isHex = true) :
    Chunk [byte '\\', byte 'u', a, b, c, d] (encodeUnit (hexValue [a, b, c, d])) := by
  intro rest pos out
  refine ⟨pos + 6, ?_⟩
  show stringLoop (byte '\\' :: byte 'u' :: a :: b :: c :: d :: rest) pos out = _
  conv_lhs => unfold stringLoop
  rw [if_neg (by decide), if_pos rfl]
  dsimp only
  rw [if_pos rfl, if_pos h]

/-- A string literal of a body. -/
def quoted (body : Str) : Str := byte '"' :: (body ++ [byte '"'])

theorem parseString_quoted {body bytes : Str} (h : Chunk body bytes) (rest : Str) (pos : Nat) :
    ∃ pos', parseString ⟨quoted body ++ rest, pos⟩ = .ok (bytes, ⟨rest, pos'⟩) := by
  obtain ⟨pos', hbody⟩ := h (byte '"' :: rest) (pos + 1) []
  refine ⟨pos' + 1, ?_⟩
  have hquote : quoted body ++ rest = lit "\"" ++ (body ++ byte '"' :: rest) := by
    simp [quoted, lit]
  rw [parseString, hquote, expect_append]
  refine hbody.trans ?_
  conv_lhs => unfold stringLoop
  rw [if_pos rfl, List.nil_append]
  rfl

/-! ## Values -/

/-- No numeral goes on into the text. -/
def Stops (rest : Str) : Prop := ∀ ch ∈ rest.head?, isNumeric ch = false

theorem stops_cons {ch : UInt8} (h : isNumeric ch = false) (rest : Str) : Stops (ch :: rest) := by
  rintro c ⟨⟩
  exact h

/-- The text is read as a value. -/
structure Reads (text : Str) (value : Value) : Prop where
  head : ∃ ch cs, text = ch :: cs ∧ Parser.isSpace ch = false ∧ ch ≠ byte ']'
  parse : ∀ fuel rest pos, text.length ≤ fuel → Stops rest →
    ∃ pos', parseValue fuel ⟨text ++ rest, pos⟩ = .ok (value, ⟨rest, pos'⟩)

variable {text : Str} {value : Value}

theorem Reads.dense (h : Reads text value) (rest : Str) : Dense (text ++ rest) := by
  obtain ⟨ch, cs, rfl, hspace, -⟩ := h.head
  rintro c ⟨⟩
  exact hspace

/-- A value is read after whitespace. -/
theorem Reads.spaces (h : Reads text value) {ws : Str} (hws : Spaces ws) {fuel : Nat} {rest : Str}
    (pos : Nat) (hfuel : text.length ≤ fuel) (hrest : Stops rest) :
    ∃ pos', parseValue fuel ⟨ws ++ (text ++ rest), pos⟩ = .ok (value, ⟨rest, pos'⟩) := by
  rw [← parseValue_skipWs, skipWs_spaces hws (h.dense rest)]
  exact h.parse fuel rest _ hfuel hrest

/-- How a text is read that starts with a given byte. -/
theorem Reads.of_head {ch : UInt8} {cs : Str} (hspace : Parser.isSpace ch = false)
    (hclose : ch ≠ byte ']')
    (h : ∀ fuel rest pos, cs.length ≤ fuel → Stops rest → ∃ pos',
      skipWs ⟨ch :: cs ++ rest, pos⟩ = ⟨ch :: cs ++ rest, pos⟩ →
        parseValue (fuel + 1) ⟨ch :: cs ++ rest, pos⟩ = .ok (value, ⟨rest, pos'⟩)) :
    Reads (ch :: cs) value where
  head := ⟨ch, cs, rfl, hspace, hclose⟩
  parse := by
    intro fuel rest pos hfuel hrest
    obtain ⟨fuel, rfl⟩ : ∃ k, fuel = k + 1 := ⟨fuel - 1, by rw [List.length_cons] at hfuel; omega⟩
    have hdense : Dense (ch :: cs ++ rest) := by
      rintro c ⟨⟩
      exact hspace
    obtain ⟨pos', hpos⟩ := h fuel rest pos (Nat.le_of_succ_le_succ hfuel) hrest
    exact ⟨pos', hpos (skipWs_dense hdense pos)⟩

theorem reads_null : Reads (lit "null") .null := by
  refine Reads.of_head (show Parser.isSpace (byte 'n') = false by rfl) (by decide)
    fun fuel rest pos _ _ => ⟨pos + 4, ?_⟩
  intro hskip
  conv_lhs => unfold parseValue
  dsimp only
  rw [hskip]
  have hexpect := expect_append (lit "null") rest pos
  exact (congrArg (· >>= fun self => pure (Value.null, self)) hexpect)

theorem reads_boolean (b : Bool) :
    Reads (if b then lit "true" else lit "false") (.boolean b) := by
  cases b with
  | true =>
    refine Reads.of_head (show Parser.isSpace (byte 't') = false by rfl) (by decide)
      fun fuel rest pos _ _ => ⟨pos + 4, ?_⟩
    intro hskip
    conv_lhs => unfold parseValue
    dsimp only
    rw [hskip]
    have hexpect := expect_append (lit "true") rest pos
    exact (congrArg (· >>= fun self => pure (Value.boolean true, self)) hexpect)
  | false =>
    refine Reads.of_head (show Parser.isSpace (byte 'f') = false by rfl) (by decide)
      fun fuel rest pos _ _ => ⟨pos + 5, ?_⟩
    intro hskip
    conv_lhs => unfold parseValue
    dsimp only
    rw [hskip]
    have hexpect := expect_append (lit "false") rest pos
    exact (congrArg (· >>= fun self => pure (Value.boolean false, self)) hexpect)

theorem reads_string {body bytes : Str} (h : Chunk body bytes) :
    Reads (quoted body) (.string bytes) := by
  refine Reads.of_head (show Parser.isSpace (byte '"') = false by rfl) (by decide)
    fun fuel rest pos _ _ => ?_
  obtain ⟨pos', hparse⟩ := parseString_quoted h rest pos
  refine ⟨pos', fun hskip => ?_⟩
  conv_lhs => unfold parseValue
  dsimp only
  rw [hskip]
  exact (congrArg (· >>= fun result => pure (Value.string result.1, result.2)) hparse)

/-! ## Numerals -/

theorem chars_ascii {cs : List Char} (h : ∀ c ∈ cs, c.toNat < 128) : chars (ascii cs) = cs := by
  rw [chars, ascii, List.map_map]
  refine (List.map_congr_left fun c hc => ?_).trans (List.map_id cs)
  have hlt := h c hc
  show Char.ofNat (Char.toUInt8 c).toNat = c
  have hbyte : (Char.toUInt8 c).toNat = c.toNat := by
    show c.toNat % 256 = c.toNat
    omega
  rw [hbyte, Char.ofNat_toNat]

/-- The characters of a numeral. -/
theorem Numeral.mem_text {n : Numeral} {c : Char} (hc : c ∈ n.text) :
    c.isDigit ∨ c = '-' ∨ c = '+' ∨ c = '.' ∨ c = 'e' ∨ c = 'E' := by
  simp only [Numeral.text, Numeral.exponentText, List.mem_append] at hc
  rcases hc with ((hc | hc) | hc) | hc
  · by_cases hneg : n.negative = true
    · rw [if_pos hneg] at hc
      exact Or.inr (Or.inl (List.mem_singleton.mp hc))
    · rw [if_neg hneg] at hc
      cases hc
  · exact Or.inl (n.whole_digits c hc)
  · rcases hfrac : n.fraction with _ | digits
    · rw [hfrac] at hc
      cases hc
    · rw [hfrac] at hc
      rcases List.mem_cons.mp hc with rfl | hc
      · simp
      · exact Or.inl (n.fraction_digits _ hfrac c hc)
  · rcases hexp : n.exponent with _ | ⟨mark, sign, digits⟩
    · rw [hexp] at hc
      cases hc
    · rw [hexp] at hc
      rcases List.mem_cons.mp hc with rfl | hc
      · rcases n.mark _ hexp with h | h <;> simp [show c = _ from h]
      · rcases List.mem_append.mp hc with hc | hc
        · have hsign := n.sign _ hexp c (Option.mem_toList.mp hc)
          tauto
        · exact Or.inl (n.exponent_digits _ hexp c hc)

theorem numeric_of_char {c : Char}
    (h : c.isDigit ∨ c = '-' ∨ c = '+' ∨ c = '.' ∨ c = 'e' ∨ c = 'E') :
    c.toNat < 128 ∧ isNumeric (byte c) = true := by
  rcases h with h | rfl | rfl | rfl | rfl | rfl
  · have hrange := Char.isDigit_iff_toNat.mp h
    obtain ⟨n, hn⟩ : ∃ n, n < 10 ∧ c = Nat.digitChar n :=
      ⟨_, (Decimal.digitChar_of_isDigit h).1, (Decimal.digitChar_of_isDigit h).2.symm⟩
    obtain ⟨hlt, rfl⟩ := hn
    revert hlt
    clear h hrange
    revert n
    decide
  all_goals exact ⟨by decide, by decide⟩

/-- A numeral starts with its sign or a digit. -/
theorem Numeral.exists_text (n : Numeral) : ∃ c cs, n.text = c :: cs ∧ (c = '-' ∨ c.isDigit) := by
  obtain ⟨d, ds, hwhole⟩ := List.exists_cons_of_ne_nil n.whole_ne
  by_cases hneg : n.negative = true
  · simp only [Numeral.text, if_pos hneg]
    exact ⟨'-', _, rfl, Or.inl rfl⟩
  · simp only [Numeral.text, if_neg hneg, hwhole]
    exact ⟨d, _, rfl, Or.inr (n.whole_digits d (hwhole ▸ List.mem_cons_self ..))⟩

theorem head_of_char {c : Char} (h : c = '-' ∨ c.isDigit) :
    Parser.isSpace (byte c) = false ∧ byte c ≠ byte ']' ∧ byte c ≠ byte '"' ∧ byte c ≠ byte '\x7b' ∧
      byte c ≠ byte '[' ∧ (byte c = byte '-' ∨ (byte '0' ≤ byte c ∧ byte c ≤ byte '9')) := by
  rcases h with rfl | h
  · decide
  · obtain ⟨n, hlt, rfl⟩ : ∃ n, n < 10 ∧ c = Nat.digitChar n :=
      ⟨_, (Decimal.digitChar_of_isDigit h).1, (Decimal.digitChar_of_isDigit h).2.symm⟩
    clear h
    revert n
    decide

theorem reads_numeral (n : Numeral) : Reads (ascii n.text) (.number (.ofRat n.value)) := by
  have htext : ∀ c ∈ n.text, c.toNat < 128 ∧ isNumeric (byte c) = true := fun c hc =>
    numeric_of_char (Numeral.mem_text hc)
  have hbytes : ∀ ch ∈ ascii n.text, isNumeric ch = true := by
    intro ch hch
    obtain ⟨c, hc, rfl⟩ := List.mem_map.mp hch
    exact (htext c hc).2
  obtain ⟨c, cs, hcs, hc⟩ := Numeral.exists_text n
  obtain ⟨hspace, hclose, hquote, hobject, harray, hnumber⟩ := head_of_char hc
  have hascii : ascii n.text = byte c :: ascii cs := by rw [hcs]; rfl
  rw [hascii] at hbytes ⊢
  refine Reads.of_head hspace hclose fun fuel rest pos _ hrest =>
    ⟨pos + (byte c :: ascii cs).length, fun hskip => ?_⟩
  conv_lhs => unfold parseValue
  dsimp only
  rw [hskip]
  simp only [peek, List.cons_append, List.head?_cons]
  rw [if_neg hquote, if_neg hobject, if_neg harray, if_pos hnumber]
  have hsplit : (byte c :: ascii cs ++ rest).takeWhile isNumeric = byte c :: ascii cs ∧
      (byte c :: ascii cs ++ rest).dropWhile isNumeric = rest := by
    rw [List.takeWhile_append_of_pos hbytes, List.dropWhile_append_of_pos hbytes]
    cases rest with
    | nil => simp
    | cons ch rest =>
      have hch : isNumeric ch = false := hrest ch rfl
      simp [hch]
  rw [List.cons_append] at hsplit
  simp only [parseNumber]
  rw [hsplit.1, hsplit.2, ← hascii, chars_ascii fun c hc => (htext c hc).1, n.tonumber_text]
  rfl

/-! ## Tables -/

theorem concat_singleton (part : Str) : concat [part] = part := by simp [concat]

theorem concat_cons_cons (part next : Str) (parts : List Str) :
    concat (part :: next :: parts) = part ++ byte ',' :: concat (next :: parts) := by
  simp [concat]

/-- What is joined is no longer than the whole. -/
theorem length_le_concat : ∀ parts : List Str, parts.length ≤ (concat parts).length + 1 ∧
    ∀ part ∈ parts, part.length ≤ (concat parts).length
  | [] => ⟨Nat.zero_le _, nofun⟩
  | [part] => by
    rw [concat_singleton]
    exact ⟨Nat.succ_le_succ (Nat.zero_le _), by simp⟩
  | part :: next :: parts => by
    obtain ⟨hcount, hmem⟩ := length_le_concat (next :: parts)
    simp only [concat_cons_cons, List.length_append, List.length_cons] at hcount ⊢
    refine ⟨by omega, fun p hp => ?_⟩
    rcases List.mem_cons.mp hp with rfl | hp
    · omega
    · have hle := hmem p hp
      omega

/-- A value's text between whitespace. -/
structure Item where
  before : Str
  text : Str
  after : Str
  value : Value
  before_spaces : Spaces before
  after_spaces : Spaces after
  reads : Reads text value

def Item.layout (item : Item) : Str := item.before ++ item.text ++ item.after

theorem Item.length_text_le (item : Item) : item.text.length ≤ item.layout.length := by
  simp only [Item.layout, List.length_append]
  omega

theorem numeric_of_space {ch : UInt8} (h : Parser.isSpace ch = true) : isNumeric ch = false := by
  simp only [Parser.isSpace, decide_eq_true_eq] at h
  rcases h with rfl | rfl | rfl | rfl <;> decide

/-- Whitespace before the byte that ends a value. -/
theorem stops_spaces {ws : Str} (hws : Spaces ws) {ch : UInt8} (hch : isNumeric ch = false)
    (rest : Str) : Stops (ws ++ ch :: rest) := by
  cases ws with
  | nil => exact stops_cons hch rest
  | cons c ws => exact stops_cons (numeric_of_space (hws c (List.mem_cons_self ..))) _

/-- A value is read up to the byte that follows its whitespace. -/
theorem Item.parse (item : Item) (ch : UInt8) {fuel : Nat} (hfuel : item.text.length ≤ fuel)
    (hnumeric : isNumeric ch = false) (hspace : Parser.isSpace ch = false) (rest : Str)
    (pos : Nat) :
    ∃ self pos', parseValue fuel ⟨item.layout ++ ch :: rest, pos⟩ = .ok (item.value, self) ∧
      self.skipWs = ⟨ch :: rest, pos'⟩ := by
  have hstops := stops_spaces item.after_spaces hnumeric rest
  obtain ⟨pos', hparse⟩ := item.reads.spaces item.before_spaces pos hfuel hstops
  refine ⟨_, _, ?_, skipWs_spaces item.after_spaces (show Dense (ch :: rest) from ?_) pos'⟩
  · rw [← hparse, Item.layout]
    simp only [List.append_assoc]
  · rintro c ⟨⟩
    exact hspace

theorem arrayLoop_skipWs {f : Parser → Throws (Value × Parser)} (hf : ∀ p, f p.skipWs = f p)
    (fuel : Nat) (out : List Value) (self : Parser) :
    arrayLoop f fuel out self.skipWs = arrayLoop f fuel out self := by
  cases fuel with
  | zero => rfl
  | succ fuel => simp only [arrayLoop, hf]

/-- The loop reads every item that is left. -/
theorem arrayLoop_items {fuel : Nat} : ∀ {items : List Item} (count : Nat), items ≠ [] →
    items.length ≤ count → (∀ item ∈ items, item.text.length ≤ fuel) →
    ∀ (rest : Str) (pos : Nat) (out : List Value), ∃ pos',
      arrayLoop (parseValue fuel) count out
        ⟨concat (items.map Item.layout) ++ byte ']' :: rest, pos⟩ =
          .ok (.table (out ++ items.map Item.value) [], ⟨rest, pos'⟩)
  | [], _, hne => absurd rfl hne
  | item :: items, 0, _ => fun hcount => absurd hcount (Nat.not_succ_le_zero _)
  | [item], count + 1, _ => by
    intro _ hfuel rest pos out
    obtain ⟨self, pos', hparse, hskip⟩ := item.parse (byte ']')
      (hfuel item (List.mem_cons_self ..)) (by decide) (by decide) rest pos
    refine ⟨pos' + 1, ?_⟩
    rw [List.map_singleton, concat_singleton, arrayLoop, hparse]
    simp only [bind, Except.bind, hskip]
    rfl
  | item :: next :: items, count + 1, _ => by
    intro hcount hfuel rest pos out
    obtain ⟨hitem, hitems⟩ := List.forall_mem_cons.mp hfuel
    obtain ⟨self, pos', hparse, hskip⟩ := item.parse (byte ',') hitem (by decide) (by decide)
      (concat ((next :: items).map Item.layout) ++ byte ']' :: rest) pos
    obtain ⟨pos₂, hloop⟩ := arrayLoop_items count (List.cons_ne_nil next items)
      (Nat.le_of_succ_le_succ hcount) hitems rest (pos' + 1) (out ++ [item.value])
    refine ⟨pos₂, ?_⟩
    have htext : concat ((item :: next :: items).map Item.layout) ++ byte ']' :: rest =
        item.layout ++ byte ',' :: (concat ((next :: items).map Item.layout) ++
          byte ']' :: rest) := by
      rw [List.map_cons, List.map_cons, concat_cons_cons, List.append_assoc, List.cons_append]
    have hvalues : out ++ (item :: next :: items).map Item.value =
        out ++ [item.value] ++ (next :: items).map Item.value := List.append_cons ..
    rw [htext, hvalues, arrayLoop, hparse]
    simp only [bind, Except.bind, hskip]
    exact (arrayLoop_skipWs (parseValue_skipWs fuel) _ _ _).trans hloop

theorem concat_cons (part : Str) (parts : List Str) :
    ∃ more, concat (part :: parts) = part ++ more := by
  cases parts with
  | nil => exact ⟨[], by rw [concat_singleton, List.append_nil]⟩
  | cons next parts => exact ⟨_, concat_cons_cons part next parts⟩

/-- A text read by `parse_array`. -/
theorem reads_of_parseArray {cs : Str} (h : ∀ fuel rest pos, cs.length ≤ fuel → ∃ pos',
    parseArray (parseValue fuel) fuel ⟨byte '[' :: (cs ++ rest), pos⟩ =
      .ok (value, ⟨rest, pos'⟩)) : Reads (byte '[' :: cs) value := by
  refine Reads.of_head rfl (by decide) fun fuel rest pos hfuel _ => ?_
  obtain ⟨pos', hparse⟩ := h fuel rest pos hfuel
  refine ⟨pos', fun hskip => ?_⟩
  conv_lhs => unfold parseValue
  dsimp only
  rw [hskip]
  exact hparse

theorem reads_empty_array {ws : Str} (hws : Spaces ws) :
    Reads (byte '[' :: (ws ++ [byte ']'])) (.table [] []) := by
  refine reads_of_parseArray fun fuel rest pos _ => ⟨pos + 1 + ws.length + 1, ?_⟩
  have hskip : skipWs ⟨ws ++ byte ']' :: rest, pos + 1⟩ = ⟨byte ']' :: rest, _⟩ :=
    skipWs_spaces hws (by rintro c ⟨⟩; rfl) _
  have hexpect := expect_append (lit "[") (ws ++ byte ']' :: rest) pos
  rw [List.append_assoc, List.singleton_append, parseArray]
  refine (congrArg (· >>= _) hexpect).trans ?_
  simp only [bind, Except.bind]
  rw [show pos + (lit "[").length = pos + 1 from rfl, hskip]
  rfl

/-- A text of at least one item. -/
theorem reads_array {items : List Item} (hne : items ≠ []) :
    Reads (byte '[' :: (concat (items.map Item.layout) ++ [byte ']']))
      (.table (items.map Item.value) []) := by
  refine reads_of_parseArray fun fuel rest pos hfuel => ?_
  rw [List.length_append, List.length_singleton] at hfuel
  obtain ⟨hcount, hparts⟩ := length_le_concat (items.map Item.layout)
  rw [List.length_map] at hcount
  have hfit : ∀ item ∈ items, item.text.length ≤ fuel := by
    intro item hitem
    have hle := hparts _ (List.mem_map_of_mem hitem)
    have htext := item.length_text_le
    omega
  obtain ⟨pos', hloop⟩ := arrayLoop_items fuel hne (by omega) hfit rest (pos + 1) []
  refine ⟨pos', ?_⟩
  have hexpect := expect_append (lit "[")
    (concat (items.map Item.layout) ++ byte ']' :: rest) pos
  -- the first item does not start with the bracket
  have hpeek : (skipWs ⟨concat (items.map Item.layout) ++ byte ']' :: rest, pos + 1⟩).peek ≠
      some (byte ']') := by
    obtain ⟨item, items, rfl⟩ := List.exists_cons_of_ne_nil hne
    obtain ⟨more, hmore⟩ := concat_cons item.layout (items.map Item.layout)
    rw [List.map_cons, hmore, Item.layout]
    simp only [List.append_assoc]
    rw [skipWs_spaces item.before_spaces (item.reads.dense _)]
    obtain ⟨ch, cs, htext, -, hclose⟩ := item.reads.head
    rw [htext]
    exact fun h => hclose (Option.some.inj h)
  rw [List.append_assoc, List.singleton_append, parseArray]
  refine (congrArg (· >>= _) hexpect).trans ?_
  simp only [bind, Except.bind]
  rw [show pos + (lit "[").length = pos + 1 from rfl, if_neg hpeek,
    arrayLoop_skipWs (parseValue_skipWs fuel)]
  exact hloop

/-! ## Objects -/

/-- A name and its value. -/
structure Member where
  before : Str
  body : Str
  key : Str
  between : Str
  item : Item
  before_spaces : Spaces before
  between_spaces : Spaces between
  chunk : Chunk body key

def Member.layout (member : Member) : Str :=
  member.before ++ (quoted member.body ++ (member.between ++ byte ':' :: member.item.layout))

theorem Member.length_text_le (member : Member) :
    member.item.text.length ≤ member.layout.length := by
  have hle := member.item.length_text_le
  simp only [Member.layout, List.length_append, List.length_cons]
  omega

/-- What the loop puts into the table. -/
def fieldsOf (out : List (Str × Value)) (members : List Member) : List (Str × Value) :=
  members.foldl (fun out member => setField member.key member.item.value out) out

theorem dense_quoted (body rest : Str) : Dense (quoted body ++ rest) := by
  rintro c ⟨⟩
  rfl

/-- One round of the loop, up to the byte that follows the value's whitespace. -/
theorem objectLoop_member (member : Member) (ch : UInt8) {fuel : Nat}
    (hfuel : member.item.text.length ≤ fuel) (hnumeric : isNumeric ch = false)
    (hspace : Parser.isSpace ch = false) (rest : Str) (pos count : Nat) (out : List (Str × Value)) :
    ∃ stop, objectLoop (parseValue fuel) (count + 1) out
      (skipWs ⟨member.layout ++ ch :: rest, pos⟩) =
        if ch = byte '\x7d' then
          .ok (.table [] (setField member.key member.item.value out), ⟨rest, stop + 1⟩)
        else if ch ≠ byte ',' then
          error (lit "expected , or \x7d" ++ lit s!" at position {stop + 1}")
        else objectLoop (parseValue fuel) count (setField member.key member.item.value out)
          (skipWs ⟨rest, stop + 1⟩) := by
  have hkey : skipWs ⟨member.layout ++ ch :: rest, pos⟩ = ⟨quoted member.body ++ (member.between ++
      (byte ':' :: member.item.layout ++ ch :: rest)), pos + member.before.length⟩ := by
    rw [Member.layout, List.append_assoc, skipWs_spaces member.before_spaces, List.append_assoc,
      List.append_assoc]
    rw [List.append_assoc]
    exact dense_quoted _ _
  obtain ⟨pos₁, hstring⟩ := parseString_quoted member.chunk (member.between ++
    (byte ':' :: member.item.layout ++ ch :: rest)) (pos + member.before.length)
  have hcolon : skipWs ⟨member.between ++ (byte ':' :: member.item.layout ++ ch :: rest), pos₁⟩ =
      ⟨lit ":" ++ (member.item.layout ++ ch :: rest), pos₁ + member.between.length⟩ :=
    skipWs_spaces member.between_spaces (by rintro c ⟨⟩; rfl) pos₁
  obtain ⟨self, stop, hparse, hskip⟩ := member.item.parse ch hfuel hnumeric hspace rest
    (pos₁ + member.between.length + 1)
  refine ⟨stop, ?_⟩
  rw [hkey, objectLoop, hstring]
  simp only [bind, Except.bind, hcolon, expect_append]
  rw [show (lit ":").length = 1 from rfl, parseValue_skipWs, hparse]
  simp only [hskip, peek, List.head?_cons, Option.some_inj, ne_eq, advance, List.tail_cons]
  rfl

/-- The loop reads every member that is left. -/
theorem objectLoop_members {fuel : Nat} : ∀ {members : List Member} (count : Nat), members ≠ [] →
    members.length ≤ count → (∀ member ∈ members, member.item.text.length ≤ fuel) →
    ∀ (rest : Str) (pos : Nat) (out : List (Str × Value)), ∃ pos',
      objectLoop (parseValue fuel) count out
        (skipWs ⟨concat (members.map Member.layout) ++ byte '\x7d' :: rest, pos⟩) =
          .ok (.table [] (fieldsOf out members), ⟨rest, pos'⟩)
  | [], _, hne => absurd rfl hne
  | member :: members, 0, _ => fun hcount => absurd hcount (Nat.not_succ_le_zero _)
  | [member], count + 1, _ => by
    intro _ hfuel rest pos out
    obtain ⟨pos', hround⟩ := objectLoop_member member (byte '\x7d')
      (hfuel member (List.mem_cons_self ..)) (by decide) (by decide) rest pos count out
    refine ⟨pos' + 1, ?_⟩
    rw [List.map_singleton, concat_singleton, hround, if_pos rfl]
    rfl
  | member :: next :: members, count + 1, _ => by
    intro hcount hfuel rest pos out
    obtain ⟨hmember, hmembers⟩ := List.forall_mem_cons.mp hfuel
    obtain ⟨pos', hround⟩ := objectLoop_member member (byte ',') hmember (by decide)
      (by decide) (concat ((next :: members).map Member.layout) ++ byte '\x7d' :: rest) pos count
      out
    obtain ⟨pos₂, hloop⟩ := objectLoop_members count (List.cons_ne_nil next members)
      (Nat.le_of_succ_le_succ hcount) hmembers rest (pos' + 1)
      (setField member.key member.item.value out)
    refine ⟨pos₂, ?_⟩
    have htext : concat ((member :: next :: members).map Member.layout) ++ byte '\x7d' :: rest =
        member.layout ++ byte ',' :: (concat ((next :: members).map Member.layout) ++
          byte '\x7d' :: rest) := by
      rw [List.map_cons, List.map_cons, concat_cons_cons, List.append_assoc, List.cons_append]
    rw [htext, hround, if_neg (by decide), if_neg (by decide)]
    exact hloop

/-- A text read by `parse_object`. -/
theorem reads_of_parseObject {cs : Str} (h : ∀ fuel rest pos, cs.length ≤ fuel → ∃ pos',
    parseObject (parseValue fuel) fuel ⟨byte '\x7b' :: (cs ++ rest), pos⟩ =
      .ok (value, ⟨rest, pos'⟩)) : Reads (byte '\x7b' :: cs) value := by
  refine Reads.of_head rfl (by decide) fun fuel rest pos hfuel _ => ?_
  obtain ⟨pos', hparse⟩ := h fuel rest pos hfuel
  refine ⟨pos', fun hskip => ?_⟩
  conv_lhs => unfold parseValue
  dsimp only
  rw [hskip]
  exact hparse

theorem reads_empty_object {ws : Str} (hws : Spaces ws) :
    Reads (byte '\x7b' :: (ws ++ [byte '\x7d'])) (.table [] []) := by
  refine reads_of_parseObject fun fuel rest pos _ => ⟨pos + 1 + ws.length + 1, ?_⟩
  have hskip : skipWs ⟨ws ++ byte '\x7d' :: rest, pos + 1⟩ = ⟨byte '\x7d' :: rest, _⟩ :=
    skipWs_spaces hws (by rintro c ⟨⟩; rfl) _
  have hexpect := expect_append (lit "\x7b") (ws ++ byte '\x7d' :: rest) pos
  rw [List.append_assoc, List.singleton_append, parseObject]
  refine (congrArg (· >>= _) hexpect).trans ?_
  simp only [bind, Except.bind]
  rw [show pos + (lit "\x7b").length = pos + 1 from rfl, hskip]
  rfl

/-- A text of at least one member. -/
theorem reads_object {members : List Member} (hne : members ≠ []) :
    Reads (byte '\x7b' :: (concat (members.map Member.layout) ++ [byte '\x7d']))
      (.table [] (fieldsOf [] members)) := by
  refine reads_of_parseObject fun fuel rest pos hfuel => ?_
  rw [List.length_append, List.length_singleton] at hfuel
  obtain ⟨hcount, hparts⟩ := length_le_concat (members.map Member.layout)
  rw [List.length_map] at hcount
  have hfit : ∀ member ∈ members, member.item.text.length ≤ fuel := by
    intro member hmember
    have hle := hparts _ (List.mem_map_of_mem hmember)
    have htext := member.length_text_le
    omega
  obtain ⟨pos', hloop⟩ := objectLoop_members fuel hne (by omega) hfit rest (pos + 1) []
  refine ⟨pos', ?_⟩
  have hexpect := expect_append (lit "\x7b")
    (concat (members.map Member.layout) ++ byte '\x7d' :: rest) pos
  -- the first name starts with its quote
  have hpeek : (skipWs ⟨concat (members.map Member.layout) ++ byte '\x7d' :: rest, pos + 1⟩).peek ≠
      some (byte '\x7d') := by
    obtain ⟨member, members, rfl⟩ := List.exists_cons_of_ne_nil hne
    obtain ⟨more, hmore⟩ := concat_cons member.layout (members.map Member.layout)
    rw [List.map_cons, hmore, Member.layout]
    simp only [List.append_assoc]
    rw [skipWs_spaces member.before_spaces (dense_quoted _ _)]
    exact fun h => absurd (Option.some.inj h) (by decide)
  rw [List.append_assoc, List.singleton_append, parseObject]
  refine (congrArg (· >>= _) hexpect).trans ?_
  simp only [bind, Except.bind]
  rw [show pos + (lit "\x7b").length = pos + 1 from rfl, if_neg hpeek]
  exact hloop

/-- **A text that is read as a value, between whitespace, is decoded to it.** -/
theorem decode_item (item : Item) : decode item.layout = .ok item.value := by
  have hstops : Stops item.after := by
    cases hafter : item.after with
    | nil => nofun
    | cons ch after =>
      exact stops_cons (numeric_of_space (item.after_spaces ch (hafter ▸ List.mem_cons_self ..))) _
  have hfuel : item.text.length ≤ item.layout.length + 1 := by
    have hle := item.length_text_le
    omega
  obtain ⟨pos', hparse⟩ := item.reads.spaces item.before_spaces 1 hfuel hstops
  have hskip : skipWs ⟨item.after, pos'⟩ = ⟨[], pos' + item.after.length⟩ := by
    have hspaces := skipWs_spaces item.after_spaces (show Dense [] from nofun) pos'
    rwa [List.append_nil] at hspaces
  have htext : item.layout = item.before ++ (item.text ++ item.after) := by
    rw [Item.layout, List.append_assoc]
  rw [← htext] at hparse
  rw [decode, Parser.new, hparse]
  simp only [bind, Except.bind, hskip]
  rfl

end Json
end Lua
end MppSdk
