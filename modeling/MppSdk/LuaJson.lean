import Mathlib.Data.List.Sort
import MppSdk.LuaNumber
import MppSdk.LuaStd

/-! # `json.lua`

The encoder and the recursive-descent decoder of the Lua SDK.  A table is a sequence of items
and a set of string keys, and the empty table is both. -/

namespace MppSdk
namespace Lua
namespace Json

/-- A value that the encoder accepts.  A table's string keys are listed in their order, once
each (`Value.Canonical`). -/
inductive Value where
  | null
  | boolean (b : Bool)
  | number (n : Number)
  | string (s : Str)
  | table (items : List Value) (fields : List (Str × Value))

/-- The characters of a string's bytes. -/
def chars (s : Str) : List Char := s.map fun b => Char.ofNat b.toNat

/-- The bytes of ASCII characters. -/
def ascii (cs : List Char) : Str := cs.map Char.toUInt8

/-! ## The encoder -/

/-- `string.format('%04x', n)`. -/
def format04x (n : Nat) : Str :=
  let digits := Nat.toDigits 16 n
  ascii (List.replicate (4 - digits.length) '0' ++ digits)

/-- The table `replacements`. -/
def replacements (ch : UInt8) : Option Str :=
  if ch = byte '\\' then some (lit "\\\\")
  else if ch = byte '"' then some (lit "\\\"")
  else if ch = 8 then some (lit "\\b")
  else if ch = 12 then some (lit "\\f")
  else if ch = 10 then some (lit "\\n")
  else if ch = 13 then some (lit "\\r")
  else if ch = 9 then some (lit "\\t")
  else none

/-- The pattern `[%z\1-\31\\"]`. -/
def isEscaped (ch : UInt8) : Bool := ch < 32 ∨ ch = byte '\\' ∨ ch = byte '"'

def escape (ch : UInt8) : Str :=
  if isEscaped ch then (replacements ch).getD (lit "\\u" ++ format04x ch.toNat) else [ch]

def encodeString (value : Str) : Str := byte '"' :: (value.flatMap escape ++ [byte '"'])

/-- `table.concat(parts, ',')`. -/
def concat (parts : List Str) : Str := parts.intersperse [byte ','] |>.flatten

/-- `table.sort(keys)`, with what each key stands for. -/
def sortKeys {α : Type} (fields : List (Str × α)) : List (Str × α) :=
  fields.insertionSort fun a b => a.1 ≤ b.1

mutual

def encodeValue : Value → Throws Str
  | .null => pure (lit "null")
  | .boolean b => pure (if b then lit "true" else lit "false")
  | .number (.finite q) => pure (ascii (format14g q))
  | .number _ => error (lit "cannot encode non-finite number")
  | .string s => pure (encodeString s)
  | .table items [] => do
    let parts ← encodeItems items
    return byte '[' :: (concat parts ++ [byte ']'])
  | .table [] fields => do
    let parts ← (sortKeys (encodeFields fields)).mapM fun (key, encoded) => do
      return encodeString key ++ byte ':' :: (← encoded)
    return byte '\x7b' :: (concat parts ++ [byte '\x7d'])
  -- `table.sort` compares a key of each kind
  | .table (_ :: _) (_ :: _) => error (lit "attempt to compare number with string")

def encodeItems : List Value → Throws (List Str)
  | [] => pure []
  | item :: items => do
    let part ← encodeValue item
    let parts ← encodeItems items
    return part :: parts

/-- Each key with what encoding its value comes to. -/
def encodeFields : List (Str × Value) → List (Str × Throws Str)
  | [] => []
  | (key, value) :: fields => (key, encodeValue value) :: encodeFields fields

end

def encode (value : Value) : Throws Str := encodeValue value

/-! ## The decoder -/

/-- The input from the current position on, and the position. -/
structure Parser where
  rest : Str
  pos : Nat

namespace Parser

def new (input : Str) : Parser := ⟨input, 1⟩

/-- The next byte, if there is one. -/
def peek (self : Parser) : Option UInt8 := self.rest.head?

def advance (self : Parser) : Parser := ⟨self.rest.tail, self.pos + 1⟩

def isSpace (ch : UInt8) : Bool :=
  ch = byte ' ' ∨ ch = byte '\n' ∨ ch = byte '\r' ∨ ch = byte '\t'

def skipWs (self : Parser) : Parser :=
  ⟨self.rest.dropWhile isSpace, self.pos + (self.rest.takeWhile isSpace).length⟩

def expect (text : Str) (self : Parser) : Throws Parser :=
  if self.rest.take text.length ≠ text then
    error (lit "expected " ++ text ++ lit s!" at position {self.pos}")
  else pure ⟨self.rest.drop text.length, self.pos + text.length⟩

/-- The pattern `[0-9a-fA-F]`. -/
def isHex (ch : UInt8) : Bool :=
  (byte '0' ≤ ch ∧ ch ≤ byte '9') ∨ (byte 'a' ≤ ch ∧ ch ≤ byte 'f') ∨
    (byte 'A' ≤ ch ∧ ch ≤ byte 'F')

def hexDigit (ch : UInt8) : Nat :=
  if ch ≤ byte '9' then ch.toNat - 48 else if ch ≤ byte 'F' then ch.toNat - 55 else ch.toNat - 87

/-- `tonumber(hex, 16)`. -/
def hexValue (hex : Str) : Nat := hex.foldl (fun code ch => 16 * code + hexDigit ch) 0

/-- The bytes an escaped code unit is decoded to. -/
def encodeUnit (code : Nat) : Str :=
  if code < 128 then [UInt8.ofNat code]
  else if code < 2048 then [UInt8.ofNat (192 + code / 64), UInt8.ofNat (128 + code % 64)]
  else [UInt8.ofNat (224 + code / 4096), UInt8.ofNat (128 + code / 64 % 64),
    UInt8.ofNat (128 + code % 64)]

/-- The escapes of one character. -/
def unescape (esc : UInt8) : Option UInt8 :=
  if esc = byte '"' ∨ esc = byte '\\' ∨ esc = byte '/' then some esc
  else if esc = byte 'b' then some 8
  else if esc = byte 'f' then some 12
  else if esc = byte 'n' then some 10
  else if esc = byte 'r' then some 13
  else if esc = byte 't' then some 9
  else none

/-- The loop of `parse_string`, over the input from `pos` on. -/
def stringLoop : Str → Nat → Str → Throws (Str × Parser)
  | [], _, _ => error (lit "unterminated string")
  | ch :: rest, pos, out =>
    if ch = byte '"' then pure (out, ⟨rest, pos + 1⟩)
    else if ch = byte '\\' then
      match rest with
      | [] => error (lit s!"invalid escape character at position {pos + 2}")
      | esc :: rest =>
        if esc = byte 'u' then
          match rest with
          | a :: b :: c :: d :: rest =>
            if [a, b, c, d].all isHex then
              stringLoop rest (pos + 6) (out ++ encodeUnit (hexValue [a, b, c, d]))
            else error (lit s!"invalid unicode escape at position {pos + 2}")
          | _ => error (lit s!"invalid unicode escape at position {pos + 2}")
        else
          match unescape esc with
          | some ch => stringLoop rest (pos + 2) (out ++ [ch])
          | none => error (lit s!"invalid escape character at position {pos + 2}")
    else stringLoop rest (pos + 1) (out ++ [ch])

def parseString (self : Parser) : Throws (Str × Parser) := do
  let self ← self.expect (lit "\"")
  stringLoop self.rest self.pos []

/-- The pattern `[0-9+%-eE%.]`. -/
def isNumeric (ch : UInt8) : Bool :=
  (byte '0' ≤ ch ∧ ch ≤ byte '9') ∨ ch = byte '+' ∨ ch = byte '-' ∨ ch = byte 'e' ∨
    ch = byte 'E' ∨ ch = byte '.'

def parseNumber (self : Parser) : Throws (Value × Parser) :=
  let text := self.rest.takeWhile isNumeric
  match tonumber (chars text) with
  | none => error (lit s!"invalid number at position {self.pos}")
  | some value => pure (.number value, ⟨self.rest.dropWhile isNumeric, self.pos + text.length⟩)

/-- `out[key] = value`. -/
def setField (key : Str) (value : Value) : List (Str × Value) → List (Str × Value)
  | [] => [(key, value)]
  | (k, v) :: fields =>
    if key < k then (key, value) :: (k, v) :: fields
    else if key = k then (key, value) :: fields
    else (k, v) :: setField key value fields

/-- The loop of `parse_array`. -/
def arrayLoop (parseValue : Parser → Throws (Value × Parser)) :
    Nat → List Value → Parser → Throws (Value × Parser)
  | 0, _, _ => error (lit "stack overflow")
  | fuel + 1, out, self => do
    let (item, self) ← parseValue self
    let out := out ++ [item]
    let self := self.skipWs
    let ch := self.peek
    let self := self.advance
    if ch = some (byte ']') then return (.table out [], self)
    else if ch ≠ some (byte ',') then
      error (lit s!"expected , or ] at position {self.pos}")
    else arrayLoop parseValue fuel out self.skipWs

def parseArray (parseValue : Parser → Throws (Value × Parser)) (fuel : Nat) (self : Parser) :
    Throws (Value × Parser) := do
  let self ← self.expect (lit "[")
  let self := self.skipWs
  if self.peek = some (byte ']') then return (.table [] [], self.advance)
  else arrayLoop parseValue fuel [] self

/-- The loop of `parse_object`. -/
def objectLoop (parseValue : Parser → Throws (Value × Parser)) :
    Nat → List (Str × Value) → Parser → Throws (Value × Parser)
  | 0, _, _ => error (lit "stack overflow")
  | fuel + 1, out, self => do
    let (key, self) ← self.parseString
    let self ← self.skipWs.expect (lit ":")
    let (value, self) ← parseValue self.skipWs
    let out := setField key value out
    let self := self.skipWs
    let ch := self.peek
    let self := self.advance
    if ch = some (byte '\x7d') then return (.table [] out, self)
    else if ch ≠ some (byte ',') then
      error (lit "expected , or \x7d" ++ lit s!" at position {self.pos}")
    else objectLoop parseValue fuel out self.skipWs

def parseObject (parseValue : Parser → Throws (Value × Parser)) (fuel : Nat) (self : Parser) :
    Throws (Value × Parser) := do
  let self ← self.expect (lit "\x7b")
  let self := self.skipWs
  if self.peek = some (byte '\x7d') then return (.table [] [], self.advance)
  else objectLoop parseValue fuel [] self

/-- `parse_value`.  The fuel bounds the calls, which each consume input. -/
def parseValue : Nat → Parser → Throws (Value × Parser)
  | 0, _ => error (lit "stack overflow")
  | fuel + 1, self => do
    let self := self.skipWs
    match self.peek with
    | none => error (lit s!"unexpected token at position {self.pos}")
    | some ch =>
      if ch = byte '"' then
        let (s, self) ← self.parseString
        return (.string s, self)
      else if ch = byte '\x7b' then parseObject (parseValue fuel) fuel self
      else if ch = byte '[' then parseArray (parseValue fuel) fuel self
      else if ch = byte '-' ∨ (byte '0' ≤ ch ∧ ch ≤ byte '9') then self.parseNumber
      else if ch = byte 't' then return (.boolean true, ← self.expect (lit "true"))
      else if ch = byte 'f' then return (.boolean false, ← self.expect (lit "false"))
      else if ch = byte 'n' then return (.null, ← self.expect (lit "null"))
      else error (lit s!"unexpected token at position {self.pos}")

end Parser

def decode (input : Str) : Throws Value := do
  let (value, parser) ← Parser.parseValue (input.length + 1) (Parser.new input)
  let parser := parser.skipWs
  if parser.rest ≠ [] then
    error (lit s!"unexpected trailing input at position {parser.pos}")
  return value

end Json
end Lua
end MppSdk
