import Mathlib.Data.List.Basic
import Mathlib.Data.UInt

/-! # The Lua runtime

What the Lua sources use of their language: strings are bytes, a function returns a value or
raises a message, and patterns look at one byte at a time. -/

namespace MppSdk
namespace Lua

/-- A Lua string. -/
abbrev Str : Type := List UInt8

/-- A literal of ASCII characters. -/
def lit (s : String) : Str := s.toList.map Char.toUInt8

/-- The byte of an ASCII character. -/
abbrev byte (c : Char) : UInt8 := c.toUInt8

/-- A function returns a value or raises a message, here without the position in front. -/
abbrev Throws : Type → Type := Except Str

/-- `error(message)`. -/
def error {α : Type} (message : Str) : Throws α := .error message

end Lua
end MppSdk
