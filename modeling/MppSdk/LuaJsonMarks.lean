import MppSdk.LuaJsonRoundTrip
import MppSdk.ScriptElement

/-! # Marks of HTML in JSON

`json.lua` escapes quotes, backslashes and control characters.  A mark of HTML begins with a bracket
and has none of the signs that JSON writes or escapes, so an encoding contains one exactly when a
string of its value does (`shows`). -/

namespace MppSdk
namespace Lua
namespace Json
open Marks

/-! ## Strings -/

/-- What may be behind the bracket of a mark: nothing that JSON escapes or puts around texts. -/
structure Mark (rest : Str) : Prop where
  bracket : byte '<' ∉ rest
  plain : ∀ b ∈ rest, isEscaped b = false
  separators : ∀ b ∈ lit ":,[]\x7b\x7d", b ∉ rest

theorem Mark.tail {b : UInt8} {rest : Str} (h : Mark (b :: rest)) : Mark rest where
  bracket hmem := h.bracket (List.mem_cons_of_mem b hmem)
  plain c hc := h.plain c (List.mem_cons_of_mem b hc)
  separators c hc hmem := h.separators c hc (List.mem_cons_of_mem b hmem)

theorem Mark.quote {rest : Str} (h : Mark rest) : byte '"' ∉ rest := fun hmem =>
  absurd (h.plain _ hmem) (by decide)

mutual

/-- The strings in a value, and the names of its fields. -/
def Value.strings : Value → List Str
  | .string s => [s]
  | .table items fields => itemStrings items ++ fieldStrings fields
  | _ => []

def itemStrings : List Value → List Str
  | [] => []
  | item :: items => item.strings ++ itemStrings items

def fieldStrings : List (Str × Value) → List Str
  | [] => []
  | (key, value) :: fields => key :: (value.strings ++ fieldStrings fields)

end

/-- A value is encoded, and the marks in its text are those in its strings. -/
def Shows (value : Value) : Prop :=
  ∃ text, encodeValue value = .ok text ∧ ∀ rest, Mark rest →
    (Html.Contains (byte '<' :: rest) text ↔
      ∃ s ∈ value.strings, Html.Contains (byte '<' :: rest) s)

end Json
end Lua
end MppSdk
