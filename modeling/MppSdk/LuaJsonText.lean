import MppSdk.LuaJsonReading

/-! # JSON texts

The texts of RFC 8259 as trees that keep every choice of their writer: whitespace, the form of
a number, and how each character of a string is written.  A character beyond the basic plane can
be written as two escapes, and the decoder reads each of the two on its own.  So it decodes
exactly the texts without such pairs to what they denote (`decode_text_iff`). -/

namespace MppSdk
namespace Lua
namespace Json

open Json.Parser

/-! ## Strings -/

/-- A hexadecimal digit and its case. -/
structure HexDigit where
  value : Fin 16
  upper : Bool

def HexDigit.byte (digit : HexDigit) : UInt8 :=
  UInt8.ofNat (if digit.value.val < 10 then 48 + digit.value.val
    else if digit.upper then 55 + digit.value.val else 87 + digit.value.val)

/-- The four digits of an escaped code unit. -/
structure CodeUnit where
  a : HexDigit
  b : HexDigit
  c : HexDigit
  d : HexDigit

namespace CodeUnit

def bytes (u : CodeUnit) : Str := [u.a.byte, u.b.byte, u.c.byte, u.d.byte]

def value (u : CodeUnit) : Nat :=
  4096 * u.a.value + 256 * u.b.value + 16 * u.c.value + u.d.value

/-- The unit is the first of a pair. -/
def High (u : CodeUnit) : Prop := 0xD800 ≤ u.value ∧ u.value ≤ 0xDBFF

/-- The unit is the second of a pair. -/
def Low (u : CodeUnit) : Prop := 0xDC00 ≤ u.value ∧ u.value ≤ 0xDFFF

end CodeUnit

/-- The escapes of one character. -/
inductive ShortEscape where
  | quote
  | backslash
  | slash
  | backspace
  | formFeed
  | newline
  | carriageReturn
  | tab

/-- The character after the backslash. -/
def ShortEscape.letter : ShortEscape → Char
  | quote => '"'
  | backslash => '\\'
  | slash => '/'
  | backspace => 'b'
  | formFeed => 'f'
  | newline => 'n'
  | carriageReturn => 'r'
  | tab => 't'

def ShortEscape.char : ShortEscape → Char
  | quote => '"'
  | backslash => '\\'
  | slash => '/'
  | backspace => Char.ofNat 8
  | formFeed => Char.ofNat 12
  | newline => '\n'
  | carriageReturn => '\r'
  | tab => '\t'

/-- How one character of a string is written. -/
inductive Written where
  | plain (c : Char) (control : 0x20 ≤ c.toNat) (quote : c ≠ '"') (backslash : c ≠ '\\')
  | short (e : ShortEscape)
  | unit (u : CodeUnit) (high : ¬ u.High) (low : ¬ u.Low)
  | pair (first second : CodeUnit) (high : first.High) (low : second.Low)

namespace Written

/-- The character that is written. -/
def char : Written → Char
  | plain c .. => c
  | short e => e.char
  | unit u .. => Char.ofNat u.value
  | pair first second .. =>
    Char.ofNat (0x10000 + (first.value - 0xD800) * 0x400 + (second.value - 0xDC00))

def text : Written → Str
  | plain c .. => String.utf8EncodeChar c
  | short e => [byte '\\', byte e.letter]
  | unit u .. => byte '\\' :: byte 'u' :: u.bytes
  | pair first second .. =>
    byte '\\' :: byte 'u' :: first.bytes ++ byte '\\' :: byte 'u' :: second.bytes

/-- The bytes the decoder reads. -/
def read : Written → Str
  | pair first second .. => encodeUnit first.value ++ encodeUnit second.value
  | w => String.utf8EncodeChar w.char

def IsPair : Written → Prop
  | pair .. => True
  | _ => False

end Written

/-- The UTF-8 bytes of a string. -/
def utf8 (s : List Written) : Str := s.flatMap fun w => String.utf8EncodeChar w.char

/-- The bytes the decoder reads a string as. -/
def readString (s : List Written) : Str := s.flatMap Written.read

def stringText (s : List Written) : Str := quoted (s.flatMap Written.text)

/-- No character is written as a pair of escapes. -/
def PairFree (s : List Written) : Prop := ∀ w ∈ s, ¬ w.IsPair

/-! ## Trees -/

/-- A number in the range of a double. -/
structure NumberText where
  numeral : Numeral
  leading : numeral.whole.head? = some '0' → numeral.whole = ['0']
  fraction_ne : ∀ ds ∈ numeral.fraction, ds ≠ []
  in_range : |Binary64.nearest numeral.value| < 2 ^ 1024

/-- Whitespace. -/
def Blank : Type := {ws : Str // Spaces ws}

/-- A name, up to the colon. -/
structure Name where
  before : Blank
  key : List Written
  between : Blank

def Name.text (name : Name) : Str := name.before.val ++ (stringText name.key ++ name.between.val)

/-- A JSON value as it is written.  An array's items and an object's values stand between
whitespace. -/
inductive Tree where
  | null
  | boolean (b : Bool)
  | number (n : NumberText)
  | string (s : List Written)
  | emptyArray (ws : Blank)
  | array (first : Blank × Tree × Blank) (more : List (Blank × Tree × Blank))
  | emptyObject (ws : Blank)
  | object (first : Name × Blank × Tree × Blank)
    (more : List (Name × Blank × Tree × Blank))

mutual

/-- The text of a tree. -/
def Tree.text : Tree → Str
  | .null => lit "null"
  | .boolean b => if b then lit "true" else lit "false"
  | .number n => ascii n.numeral.text
  | .string s => stringText s
  | .emptyArray ws => byte '[' :: (ws.val ++ [byte ']'])
  | .array (before, first, after) more =>
    byte '[' :: (concat ((before.val ++ first.text ++ after.val) :: itemTexts more) ++ [byte ']'])
  | .emptyObject ws => byte '\x7b' :: (ws.val ++ [byte '\x7d'])
  | .object (name, before, first, after) more =>
    byte '\x7b' :: (concat ((name.text ++ byte ':' :: (before.val ++ first.text ++ after.val)) ::
      memberTexts more) ++ [byte '\x7d'])

def itemTexts : List (Blank × Tree × Blank) → List Str
  | [] => []
  | (before, item, after) :: more => (before.val ++ item.text ++ after.val) :: itemTexts more

def memberTexts : List (Name × Blank × Tree × Blank) → List Str
  | [] => []
  | (name, before, item, after) :: more =>
    (name.text ++ byte ':' :: (before.val ++ item.text ++ after.val)) :: memberTexts more

end

mutual

/-- The value of a tree whose strings stand for given bytes.  Of several members with one name,
the last counts. -/
def Tree.eval (bytes : List Written → Str) : Tree → Value
  | .null => .null
  | .boolean b => .boolean b
  | .number n => .number (.finite (Binary64.nearest n.numeral.value))
  | .string s => .string (bytes s)
  | .emptyArray _ => .table [] []
  | .array (_, first, _) more => .table (first.eval bytes :: evalItems bytes more) []
  | .emptyObject _ => .table [] []
  | .object (name, _, first, _) more =>
    .table [] (((bytes name.key, first.eval bytes) :: evalMembers bytes more).foldl
      (fun out field => setField field.1 field.2 out) [])

def evalItems (bytes : List Written → Str) : List (Blank × Tree × Blank) → List Value
  | [] => []
  | (_, item, _) :: more => item.eval bytes :: evalItems bytes more

def evalMembers (bytes : List Written → Str) :
    List (Name × Blank × Tree × Blank) → List (Str × Value)
  | [] => []
  | (name, _, item, _) :: more => (bytes name.key, item.eval bytes) :: evalMembers bytes more

end

mutual

/-- No pair of escapes is left in the value: none in a name, and none in a value that no later
member of the same name replaces. -/
def Tree.Clean : Tree → Prop
  | .string s => PairFree s
  | .array (_, first, _) more => first.Clean ∧ CleanItems more
  | .object (name, _, first, _) more => PairFree name.key ∧
    (first.Clean ∨ utf8 name.key ∈ more.map fun member => utf8 member.1.key) ∧ CleanMembers more
  | _ => True

def CleanItems : List (Blank × Tree × Blank) → Prop
  | [] => True
  | (_, item, _) :: more => item.Clean ∧ CleanItems more

def CleanMembers : List (Name × Blank × Tree × Blank) → Prop
  | [] => True
  | (name, _, item, _) :: more => PairFree name.key ∧
    (item.Clean ∨ utf8 name.key ∈ more.map fun member => utf8 member.1.key) ∧ CleanMembers more

end

/-- A JSON text. -/
structure Text where
  before : Blank
  tree : Tree
  after : Blank

def Text.bytes (t : Text) : Str := t.before.val ++ t.tree.text ++ t.after.val

/-- The value a text denotes. -/
def Text.value (t : Text) : Value := t.tree.eval utf8

/-! ## What is read -/

theorem HexDigit.byte_spec (digit : HexDigit) :
    isHex digit.byte = true ∧ hexDigit digit.byte = digit.value := by
  obtain ⟨value, upper⟩ := digit
  revert value upper
  decide

theorem CodeUnit.all_isHex (u : CodeUnit) : u.bytes.all isHex = true := by
  simp [CodeUnit.bytes, HexDigit.byte_spec]

theorem CodeUnit.hexValue_bytes (u : CodeUnit) : hexValue u.bytes = u.value := by
  simp only [CodeUnit.bytes, hexValue, List.foldl_cons, List.foldl_nil, HexDigit.byte_spec,
    CodeUnit.value]
  omega

theorem CodeUnit.value_lt (u : CodeUnit) : u.value < 0x10000 := by
  have ha := u.a.value.isLt
  have hb := u.b.value.isLt
  have hc := u.c.value.isLt
  have hd := u.d.value.isLt
  unfold CodeUnit.value
  omega

/-- A code unit outside the surrogates is encoded as its character. -/
theorem encodeUnit_eq {n : Nat} (hlt : n < 0x10000) (hscalar : n < 0xD800 ∨ 0xDFFF < n) :
    encodeUnit n = String.utf8EncodeChar (Char.ofNat n) := by
  have hval : (Char.ofNat n).val.toNat = n := by
    have hvalid : n.isValidChar := by
      unfold Nat.isValidChar
      omega
    rw [Char.ofNat, dif_pos hvalid]
    rfl
  unfold encodeUnit String.utf8EncodeChar
  dsimp only
  rw [hval]
  by_cases hone : n < 128
  · rw [if_pos hone, if_pos (show n ≤ 127 by omega)]
  · rw [if_neg hone, if_neg (show ¬ n ≤ 127 by omega)]
    by_cases htwo : n < 2048
    · rw [if_pos htwo, if_pos (show n ≤ 2047 by omega),
        show 192 + n / 64 = n / 64 % 32 + 192 by omega,
        show 128 + n % 64 = n % 64 + 128 by omega]
    · rw [if_neg htwo, if_neg (show ¬ n ≤ 2047 by omega), if_pos (show n ≤ 65535 by omega),
        show 224 + n / 4096 = n / 4096 % 16 + 224 by omega,
        show 128 + n / 64 % 64 = n / 64 % 64 + 128 by omega,
        show 128 + n % 64 = n % 64 + 128 by omega]

/-- The bytes of a character are its own, or none of them is ASCII. -/
theorem utf8EncodeChar_cases (c : Char) :
    c.toNat < 128 ∧ String.utf8EncodeChar c = [UInt8.ofNat c.toNat] ∨
    ∀ b ∈ String.utf8EncodeChar c, 128 ≤ b.toNat := by
  unfold String.utf8EncodeChar
  dsimp only
  split_ifs with h1 h2 h3
  · exact Or.inl ⟨Nat.lt_succ_of_le h1, rfl⟩
  all_goals
    refine Or.inr fun b hb => ?_
    simp only [List.mem_cons, List.not_mem_nil, or_false] at hb
    rcases hb with rfl | rfl | rfl | rfl <;> · rw [UInt8.toNat_ofNat']; omega

theorem chunk_plain {c : Char} (hquote : c ≠ '"') (hslash : c ≠ '\\') :
    Chunk (String.utf8EncodeChar c) (String.utf8EncodeChar c) := by
  have hbytes : ∀ b ∈ String.utf8EncodeChar c, b ≠ byte '"' ∧ b ≠ byte '\\' := by
    intro b hb
    rcases utf8EncodeChar_cases c with ⟨hlt, hone⟩ | hmany
    · rw [hone] at hb
      obtain rfl := List.mem_singleton.mp hb
      have hnat : (UInt8.ofNat c.toNat).toNat = c.toNat := by
        rw [UInt8.toNat_ofNat']
        omega
      exact ⟨fun h => hquote (Char.toNat_inj.mp (hnat.symm.trans (congrArg UInt8.toNat h))),
        fun h => hslash (Char.toNat_inj.mp (hnat.symm.trans (congrArg UInt8.toNat h)))⟩
    · have hlarge := hmany b hb
      constructor <;>
        · rintro rfl
          exact absurd hlarge (by decide)
  have hchunk : Chunk ((String.utf8EncodeChar c).flatMap fun b => [b])
      ((String.utf8EncodeChar c).flatMap fun b => [b]) :=
    chunk_flatMap fun b hb => chunk_byte (hbytes b hb).1 (hbytes b hb).2
  rwa [List.flatMap_singleton'] at hchunk

theorem ShortEscape.spec (e : ShortEscape) :
    ∃ b, unescape (byte e.letter) = some b ∧ String.utf8EncodeChar e.char = [b] := by
  cases e <;> exact ⟨_, rfl, rfl⟩

theorem chunk_written (w : Written) : Chunk w.text w.read := by
  cases w with
  | plain c _ hquote hslash => exact chunk_plain hquote hslash
  | short e =>
    obtain ⟨b, hletter, hchar⟩ := e.spec
    show Chunk [byte '\\', byte e.letter] (String.utf8EncodeChar e.char)
    rw [hchar]
    exact chunk_escape _ hletter
  | unit u hhigh hlow =>
    have hchunk := chunk_unit u.all_isHex
    have hscalar : u.value < 0xD800 ∨ 0xDFFF < u.value := by
      unfold CodeUnit.High at hhigh
      unfold CodeUnit.Low at hlow
      omega
    have hvalue : hexValue [u.a.byte, u.b.byte, u.c.byte, u.d.byte] = u.value := u.hexValue_bytes
    rw [hvalue, encodeUnit_eq u.value_lt hscalar] at hchunk
    exact hchunk
  | pair first second _ _ =>
    have hfirst := chunk_unit first.all_isHex
    have hsecond := chunk_unit second.all_isHex
    have hvalue : hexValue [first.a.byte, first.b.byte, first.c.byte, first.d.byte] = first.value :=
      first.hexValue_bytes
    have hvalue' : hexValue [second.a.byte, second.b.byte, second.c.byte, second.d.byte] =
        second.value := second.hexValue_bytes
    rw [hvalue] at hfirst
    rw [hvalue'] at hsecond
    exact hfirst.append hsecond

theorem chunk_string (s : List Written) : Chunk (s.flatMap Written.text) (readString s) :=
  chunk_flatMap fun w _ => chunk_written w

/-- An item of a tree between whitespace. -/
def itemOf (before after : Blank) {text : Str} {value : Value} (h : Reads text value) : Item :=
  ⟨before.val, text, after.val, value, before.property, after.property, h⟩

/-- A member of an object. -/
def memberOf (name : Name) (item : Item) : Member where
  before := name.before.val
  body := name.key.flatMap Written.text
  key := readString name.key
  between := name.between.val
  item := item
  before_spaces := name.before.property
  between_spaces := name.between.property
  chunk := chunk_string name.key

theorem layout_memberOf (name : Name) (item : Item) :
    (memberOf name item).layout = name.text ++ byte ':' :: item.layout := by
  simp only [Member.layout, memberOf, Name.text, stringText, List.append_assoc]

mutual

/-- Every tree is read, its strings as the decoder reads them. -/
theorem reads_tree : ∀ t : Tree, Reads t.text (t.eval readString)
  | .null => reads_null
  | .boolean b => reads_boolean b
  | .number n => by
    have hreads := reads_numeral n.numeral
    rwa [Number.ofRat, if_pos n.in_range] at hreads
  | .string s => reads_string (chunk_string s)
  | .emptyArray ws => reads_empty_array ws.property
  | .array (before, first, after) more => by
    obtain ⟨items, hlayout, hvalues⟩ := reads_items more
    have hreads := reads_array (List.cons_ne_nil (itemOf before after (reads_tree first)) items)
    rwa [List.map_cons, List.map_cons, hlayout, hvalues] at hreads
  | .emptyObject ws => reads_empty_object ws.property
  | .object (name, before, first, after) more => by
    obtain ⟨members, hlayout, hvalues⟩ := reads_members more
    have hreads := reads_object
      (List.cons_ne_nil (memberOf name (itemOf before after (reads_tree first))) members)
    have hfields : fieldsOf [] (memberOf name (itemOf before after (reads_tree first)) :: members) =
        ((readString name.key, first.eval readString) :: evalMembers readString more).foldl
          (fun out field => setField field.1 field.2 out) [] := by
      rw [← hvalues, List.foldl_cons, List.foldl_map]
      rfl
    rw [List.map_cons, layout_memberOf, hlayout, hfields] at hreads
    exact hreads

theorem reads_items : ∀ more : List (Blank × Tree × Blank), ∃ items : List Item,
    items.map Item.layout = itemTexts more ∧ items.map Item.value = evalItems readString more
  | [] => ⟨[], rfl, rfl⟩
  | (before, item, after) :: more => by
    obtain ⟨items, hlayout, hvalues⟩ := reads_items more
    refine ⟨itemOf before after (reads_tree item) :: items, ?_, ?_⟩
    · rw [List.map_cons, hlayout]
      rfl
    · rw [List.map_cons, hvalues]
      rfl

theorem reads_members : ∀ more : List (Name × Blank × Tree × Blank), ∃ members : List Member,
    members.map Member.layout = memberTexts more ∧
      (members.map fun member => (member.key, member.item.value)) = evalMembers readString more
  | [] => ⟨[], rfl, rfl⟩
  | (name, before, item, after) :: more => by
    obtain ⟨members, hlayout, hvalues⟩ := reads_members more
    refine ⟨memberOf name (itemOf before after (reads_tree item)) :: members, ?_, ?_⟩
    · rw [List.map_cons, hlayout, layout_memberOf]
      rfl
    · rw [List.map_cons, hvalues]
      rfl

end

/-- Every text is decoded. -/
theorem decode_bytes (t : Text) : decode t.bytes = .ok (t.tree.eval readString) :=
  decode_item (itemOf t.before t.after (reads_tree t.tree))

/-! ## Well-formed strings -/

/-- No surrogate is encoded: the byte `ED` is followed by one below `A0`. -/
def Scalar (s : Str) : Prop :=
  s.IsChain (fun a b => a = 0xED → b < 0xA0) ∧ ∀ b ∈ s.getLast?, b ≠ 0xED

theorem Scalar.append {s t : Str} (hs : Scalar s) (ht : Scalar t) : Scalar (s ++ t) := by
  refine ⟨List.isChain_append.mpr ⟨hs.1, ht.1, fun a ha b _ hED => absurd hED (hs.2 a ha)⟩, ?_⟩
  intro b hb
  rw [List.getLast?_append] at hb
  cases hlast : t.getLast? with
  | some c =>
    rw [hlast, Option.some_or] at hb
    exact ht.2 b (hlast.trans hb)
  | none =>
    rw [hlast, Option.none_or] at hb
    exact hs.2 b hb

theorem scalar_flatMap {α : Type} {f : α → Str} {xs : List α} (h : ∀ x ∈ xs, Scalar (f x)) :
    Scalar (xs.flatMap f) := by
  induction xs with
  | nil => exact ⟨List.IsChain.nil, nofun⟩
  | cons x xs ih =>
    obtain ⟨hx, hxs⟩ := List.forall_mem_cons.mp h
    exact hx.append (ih hxs)

theorem ofNat_ne {n m : Nat} (hn : n < 256) (hm : m < 256) (h : n ≠ m) :
    UInt8.ofNat n ≠ UInt8.ofNat m := by
  intro heq
  have hnat := congrArg UInt8.toNat heq
  rw [UInt8.toNat_ofNat', UInt8.toNat_ofNat'] at hnat
  omega

/-- A character is no surrogate. -/
theorem scalar_utf8EncodeChar (c : Char) : Scalar (String.utf8EncodeChar c) := by
  have hvalid : c.val.toNat < 0xD800 ∨ (0xDFFF < c.val.toNat ∧ c.val.toNat < 0x110000) := c.valid
  unfold String.utf8EncodeChar
  dsimp only
  generalize c.val.toNat = v at hvalid
  split_ifs with hone htwo hthree
  · refine ⟨List.IsChain.singleton _, ?_⟩
    rintro b ⟨⟩
    exact ofNat_ne (m := 0xED) (by omega) (by omega) (by omega)
  · refine ⟨List.isChain_pair.mpr fun h => ?_, ?_⟩
    · exact absurd h (ofNat_ne (m := 0xED) (by omega) (by omega) (by omega))
    · rintro b ⟨⟩
      exact ofNat_ne (m := 0xED) (by omega) (by omega) (by omega)
  · refine ⟨List.isChain_cons_cons.mpr ⟨fun h => ?_, List.isChain_pair.mpr fun h => ?_⟩, ?_⟩
    · have hlead : v / 4096 % 16 + 224 = 0xED := by
        by_contra hne
        exact ofNat_ne (m := 0xED) (by omega) (by omega) hne h
      rw [UInt8.lt_iff_toNat_lt, UInt8.toNat_ofNat']
      show _ < 160
      omega
    · exact absurd h (ofNat_ne (m := 0xED) (by omega) (by omega) (by omega))
    · rintro b ⟨⟩
      exact ofNat_ne (m := 0xED) (by omega) (by omega) (by omega)
  · refine ⟨List.isChain_cons_cons.mpr ⟨fun h => ?_, List.isChain_cons_cons.mpr ⟨fun h => ?_,
      List.isChain_pair.mpr fun h => ?_⟩⟩, ?_⟩
    · exact absurd h (ofNat_ne (m := 0xED) (by omega) (by omega) (by omega))
    · exact absurd h (ofNat_ne (m := 0xED) (by omega) (by omega) (by omega))
    · exact absurd h (ofNat_ne (m := 0xED) (by omega) (by omega) (by omega))
    · rintro b ⟨⟩
      exact ofNat_ne (m := 0xED) (by omega) (by omega) (by omega)

theorem scalar_utf8 (s : List Written) : Scalar (utf8 s) :=
  scalar_flatMap fun w _ => scalar_utf8EncodeChar w.char

theorem readString_eq {s : List Written} (h : PairFree s) : readString s = utf8 s := by
  unfold readString utf8
  refine List.flatMap_congr fun w hw => ?_
  cases w with
  | pair first second high low => exact absurd trivial (h _ hw)
  | _ => rfl

/-- The first unit of a pair is encoded as a surrogate. -/
theorem encodeUnit_high {u : CodeUnit} (h : u.High) :
    ∃ b c, encodeUnit u.value = [0xED, b, c] ∧ ¬ b < 0xA0 := by
  obtain ⟨hlow, hhigh⟩ := h
  refine ⟨UInt8.ofNat (128 + u.value / 64 % 64), UInt8.ofNat (128 + u.value % 64), ?_, ?_⟩
  · rw [encodeUnit, if_neg (by omega), if_neg (by omega),
      show 224 + u.value / 4096 = 0xED by omega]
    rfl
  · rw [UInt8.lt_iff_toNat_lt, UInt8.toNat_ofNat']
    show ¬ _ < 160
    omega

/-- A pair leaves a surrogate in what is read. -/
theorem pairFree_of_scalar {s : List Written} (h : Scalar (readString s)) : PairFree s := by
  rintro w hw hpair
  cases w with
  | pair first second high low =>
    obtain ⟨b, c, hunit, hb⟩ := encodeUnit_high high
    obtain ⟨before, after, rfl⟩ := List.append_of_mem hw
    have hread : readString (before ++ .pair first second high low :: after) =
        before.flatMap Written.read ++ 0xED :: b :: c :: (encodeUnit second.value ++
          after.flatMap Written.read) := by
      rw [readString, List.flatMap_append, List.flatMap_cons, Written.read, hunit]
      simp
    rw [hread] at h
    have hchain := (List.isChain_append.mp h.1).2.1
    exact hb ((List.isChain_cons_cons.mp hchain).1 rfl)
  | _ => exact hpair

/-- Only a string without pairs is read as some string's encoding. -/
theorem pairFree_of_eq {s t : List Written} (h : readString s = utf8 t) : PairFree s :=
  pairFree_of_scalar (h ▸ scalar_utf8 t)

/-! ## Tables -/

/-- The last of the fields with a name. -/
def Live : List (Str × Value) → Str → Value → Prop
  | [], _, _ => False
  | (key, value) :: fields, k, v =>
    Live fields k v ∨ (k = key ∧ v = value ∧ k ∉ fields.map Prod.fst)

theorem Live.mem : ∀ {fields : List (Str × Value)} {k : Str} {v : Value}, Live fields k v →
    k ∈ fields.map Prod.fst
  | (key, value) :: fields, k, v, h => by
    rcases h with h | ⟨rfl, -, -⟩
    · exact List.mem_cons_of_mem _ h.mem
    · exact List.mem_cons_self ..

theorem exists_live : ∀ {fields : List (Str × Value)} {k : Str}, k ∈ fields.map Prod.fst →
    ∃ v, Live fields k v
  | (key, value) :: fields, k, h => by
    by_cases hmem : k ∈ fields.map Prod.fst
    · obtain ⟨v, hv⟩ := exists_live hmem
      exact ⟨v, Or.inl hv⟩
    · rcases List.mem_cons.mp h with rfl | h
      · exact ⟨value, Or.inr ⟨rfl, rfl, hmem⟩⟩
      · exact absurd h hmem

/-- Each name stands once, in its order. -/
def Sorted (fields : List (Str × Value)) : Prop := fields.Pairwise fun a b => a.1 < b.1

theorem setField_spec (key : Str) (value : Value) : ∀ {fields : List (Str × Value)},
    Sorted fields → Sorted (setField key value fields) ∧ ∀ k v,
      (k, v) ∈ setField key value fields ↔ (k = key ∧ v = value) ∨ (k ≠ key ∧ (k, v) ∈ fields)
  | [], _ => by
    refine ⟨List.pairwise_singleton _ _, fun k v => ?_⟩
    simp [setField]
  | (k₀, v₀) :: fields, h => by
    obtain ⟨hhead, htail⟩ := List.pairwise_cons.mp h
    unfold setField
    split_ifs with hlt heq
    · refine ⟨List.pairwise_cons.mpr ⟨?_, h⟩, fun k v => ?_⟩
      · rintro field hfield
        rcases List.mem_cons.mp hfield with rfl | hfield
        · exact hlt
        · exact List.lt_trans hlt (hhead field hfield)
      · have hnot : (k, v) ∈ (k₀, v₀) :: fields → k ≠ key := by
          rintro hmem rfl
          rcases List.mem_cons.mp hmem with hkv | hmem
          · obtain ⟨rfl, -⟩ := Prod.mk.inj hkv
            exact List.lt_irrefl _ hlt
          · exact List.lt_irrefl _ (List.lt_trans hlt (hhead _ hmem))
        rw [List.mem_cons, Prod.mk.injEq]
        tauto
    · subst heq
      refine ⟨List.pairwise_cons.mpr ⟨hhead, htail⟩, fun k v => ?_⟩
      have hnot : (k, v) ∈ fields → k ≠ key := by
        rintro hmem rfl
        exact List.lt_irrefl _ (hhead (k, v) hmem)
      rw [List.mem_cons, List.mem_cons, Prod.mk.injEq, Prod.mk.injEq]
      tauto
    · obtain ⟨hsorted, hmem⟩ := setField_spec key value htail
      refine ⟨List.pairwise_cons.mpr ⟨?_, hsorted⟩, fun k v => ?_⟩
      · rintro ⟨k, v⟩ hfield
        rcases (hmem k v).mp hfield with ⟨rfl, -⟩ | ⟨-, hfield⟩
        · by_contra hnot
          exact heq (List.le_antisymm hnot hlt)
        · exact hhead _ hfield
      · rw [List.mem_cons, List.mem_cons, hmem, Prod.mk.injEq]
        have hne : k = k₀ → k ≠ key := fun h h' => heq (h'.symm.trans h)
        tauto

/-- What a table holds after its fields are set. -/
theorem foldl_setField_spec : ∀ (fields : List (Str × Value)) {out : List (Str × Value)},
    Sorted out →
    Sorted (fields.foldl (fun out field => setField field.1 field.2 out) out) ∧ ∀ k v,
      (k, v) ∈ fields.foldl (fun out field => setField field.1 field.2 out) out ↔
        Live fields k v ∨ (k ∉ fields.map Prod.fst ∧ (k, v) ∈ out)
  | [], _, h => ⟨h, fun k v => by simp [Live]⟩
  | (key, value) :: fields, out, h => by
    obtain ⟨hsorted, hmem⟩ := setField_spec key value h
    obtain ⟨hall, hiff⟩ := foldl_setField_spec fields hsorted
    refine ⟨hall, fun k v => (hiff k v).trans ?_⟩
    rw [hmem, Live, List.map_cons, List.mem_cons]
    tauto

/-- Tables are equal when the same fields count. -/
theorem foldl_setField_eq_iff (fields fields' : List (Str × Value)) :
    fields.foldl (fun out field => setField field.1 field.2 out) [] =
        fields'.foldl (fun out field => setField field.1 field.2 out) [] ↔
      ∀ k v, Live fields k v ↔ Live fields' k v := by
  obtain ⟨hsorted, hmem⟩ := foldl_setField_spec fields List.Pairwise.nil
  obtain ⟨hsorted', hmem'⟩ := foldl_setField_spec fields' List.Pairwise.nil
  simp only [List.not_mem_nil, and_false, or_false] at hmem hmem'
  constructor
  · intro h k v
    rw [← hmem, ← hmem', h]
  · intro h
    have hirrefl : Std.Irrefl fun a b : Str × Value => a.1 < b.1 :=
      ⟨fun a => List.lt_irrefl a.1⟩
    have hantisymm : Std.Antisymm fun a b : Str × Value => a.1 < b.1 :=
      ⟨fun a b hab hba => absurd (List.lt_trans hab hba) (List.lt_irrefl a.1)⟩
    exact hsorted.eq_of_mem_iff hsorted' fun field => by rw [hmem, hmem', h]

/-! ## Texts -/

theorem keys_evalMembers (bytes : List Written → Str) (more : List (Name × Blank × Tree × Blank)) :
    (evalMembers bytes more).map Prod.fst = more.map fun member => bytes member.1.key := by
  induction more with
  | nil => rfl
  | cons member more ih => rw [evalMembers, List.map_cons, ih, List.map_cons]

/-- A name that counts on both sides is written without pairs. -/
theorem pairFree_of_live {members : List (Name × Blank × Tree × Blank)}
    (h : ∀ k v, Live (evalMembers readString members) k v ↔ Live (evalMembers utf8 members) k v) :
    ∀ member ∈ members, PairFree member.1.key := by
  intro member hmember
  have hkey : readString member.1.key ∈ (evalMembers readString members).map Prod.fst := by
    rw [keys_evalMembers]
    exact List.mem_map_of_mem hmember
  obtain ⟨v, hlive⟩ := exists_live hkey
  have hmem := ((h _ v).mp hlive).mem
  rw [keys_evalMembers] at hmem
  obtain ⟨other, -, hother⟩ := List.mem_map.mp hmem
  exact pairFree_of_eq hother.symm

/-- The same members count exactly if every name is free of pairs, and every value that
counts. -/
theorem live_iff_clean : ∀ {members : List (Name × Blank × Tree × Blank)},
    (∀ member ∈ members, member.2.2.1.eval readString = member.2.2.1.eval utf8 ↔
      member.2.2.1.Clean) →
    ((∀ k v, Live (evalMembers readString members) k v ↔ Live (evalMembers utf8 members) k v) ↔
      CleanMembers members)
  | [], _ => iff_of_true (fun _ _ => Iff.rfl) trivial
  | (name, before, item, after) :: members, ih => by
    obtain ⟨hitem, hmembers⟩ := List.forall_mem_cons.mp ih
    have htail := live_iff_clean hmembers
    have hkeys : (∀ member ∈ members, PairFree member.1.key) →
        (evalMembers readString members).map Prod.fst =
          (evalMembers utf8 members).map Prod.fst := by
      intro hfree
      rw [keys_evalMembers, keys_evalMembers]
      exact List.map_congr_left fun member hmember => readString_eq (hfree member hmember)
    rw [CleanMembers, ← keys_evalMembers utf8 members]
    constructor
    · intro h
      obtain ⟨hname, hfree⟩ := List.forall_mem_cons.mp (pairFree_of_live h)
      have hname : PairFree name.key := hname
      simp only [evalMembers, Live, hkeys hfree, readString_eq hname] at h
      have hrest : ∀ k v, Live (evalMembers readString members) k v ↔
          Live (evalMembers utf8 members) k v := by
        intro k v
        by_cases hk : k ∈ (evalMembers utf8 members).map Prod.fst
        · have hkv := h k v
          tauto
        · refine iff_of_false (fun hlive => hk ?_) fun hlive => hk hlive.mem
          rw [← hkeys hfree]
          exact hlive.mem
      refine ⟨hname, ?_, htail.mp hrest⟩
      by_cases hlater : utf8 name.key ∈ (evalMembers utf8 members).map Prod.fst
      · exact Or.inr hlater
      · rcases (h (utf8 name.key) (item.eval readString)).mp (Or.inr ⟨rfl, rfl, hlater⟩) with
          hlive | ⟨-, heq, -⟩
        · exact absurd hlive.mem hlater
        · exact Or.inl (hitem.mp heq)
    · rintro ⟨hname, hcount, hclean⟩ k v
      have hlive := htail.mpr hclean
      simp only [evalMembers, Live, hkeys (pairFree_of_live hlive), readString_eq hname, hlive k v]
      rcases hcount with hclean | hlater
      · rw [show item.eval readString = item.eval utf8 from hitem.mpr hclean]
      · have hnot : k = utf8 name.key → k ∈ (evalMembers utf8 members).map Prod.fst :=
          fun hk => hk ▸ hlater
        tauto

mutual

/-- A tree is read as what it denotes exactly if it is clean. -/
theorem eval_eq_iff : ∀ t : Tree, t.eval readString = t.eval utf8 ↔ t.Clean
  | .null => iff_of_true rfl trivial
  | .boolean _ => iff_of_true rfl trivial
  | .number _ => iff_of_true rfl trivial
  | .string s => by
    rw [Tree.eval, Tree.eval, Tree.Clean, Value.string.injEq]
    exact ⟨pairFree_of_eq, readString_eq⟩
  | .emptyArray _ => iff_of_true rfl trivial
  | .array (_, first, _) more => by
    rw [Tree.eval, Tree.eval, Tree.Clean, Value.table.injEq, List.cons.injEq, eval_eq_iff first,
      items_eval_eq_iff more, and_iff_left rfl]
  | .emptyObject _ => iff_of_true rfl trivial
  | .object (name, before, first, after) more => by
    rw [Tree.eval, Tree.eval, Value.table.injEq, and_iff_right rfl, foldl_setField_eq_iff]
    have hmembers : ∀ member ∈ (name, before, first, after) :: more,
        (member.2.2.1.eval readString = member.2.2.1.eval utf8 ↔ member.2.2.1.Clean) :=
      List.forall_mem_cons.mpr ⟨eval_eq_iff first, members_eval_eq_iff more⟩
    exact live_iff_clean hmembers

theorem items_eval_eq_iff : ∀ more : List (Blank × Tree × Blank),
    evalItems readString more = evalItems utf8 more ↔ CleanItems more
  | [] => iff_of_true rfl trivial
  | (_, item, _) :: more => by
    rw [evalItems, evalItems, CleanItems, List.cons.injEq, eval_eq_iff item, items_eval_eq_iff more]

theorem members_eval_eq_iff : ∀ more : List (Name × Blank × Tree × Blank), ∀ member ∈ more,
    (member.2.2.1.eval readString = member.2.2.1.eval utf8 ↔ member.2.2.1.Clean)
  | [] => nofun
  | (_, _, item, _) :: more =>
    List.forall_mem_cons.mpr ⟨eval_eq_iff item, members_eval_eq_iff more⟩

end

/-- **Exactly the texts without pairs of escapes are decoded to what they denote.** -/
theorem decode_text_iff (t : Text) : decode t.bytes = .ok t.value ↔ t.tree.Clean := by
  rw [decode_bytes, Except.ok.injEq, Text.value, eval_eq_iff]

/-- `U+1F600` as a pair of escapes. -/
def samplePair : Written :=
  .pair ⟨⟨13, true⟩, ⟨8, true⟩, ⟨3, true⟩, ⟨13, true⟩⟩
    ⟨⟨13, true⟩, ⟨14, true⟩, ⟨0, true⟩, ⟨0, true⟩⟩
    ⟨by decide, by decide⟩ ⟨by decide, by decide⟩

/-- The text `"\uD83D\uDE00"` is decoded to six bytes, not to the four of its character. -/
theorem pair_of_escapes :
    ∃ t : Text, t.bytes = lit "\"\\uD83D\\uDE00\"" ∧
      t.value = .string [0xF0, 0x9F, 0x98, 0x80] ∧
      decode t.bytes = .ok (.string [0xED, 0xA0, 0xBD, 0xED, 0xB8, 0x80]) ∧
      decode t.bytes ≠ .ok t.value := by
  have hutf8 : utf8 [samplePair] = [0xF0, 0x9F, 0x98, 0x80] := by decide
  have hread : readString [samplePair] = [0xED, 0xA0, 0xBD, 0xED, 0xB8, 0x80] := by decide
  refine ⟨⟨⟨[], spaces_nil⟩, .string [samplePair], ⟨[], spaces_nil⟩⟩, by decide,
    congrArg Value.string hutf8, ?_, ?_⟩
  · rw [decode_bytes]
    exact congrArg (fun s => Except.ok (Value.string s)) hread
  · rw [decode_bytes]
    intro h
    have hbytes := Value.string.inj (Except.ok.inj h)
    rw [hread, hutf8] at hbytes
    exact absurd hbytes (by decide)

end Json
end Lua
end MppSdk
