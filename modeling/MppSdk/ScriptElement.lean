import Mathlib.Data.List.Infix
import Mathlib.Data.UInt

/-! # Where a script element ends

The content of a script element is not markup: it ends at the first end tag of a script, unless
the text has opened a comment and a script tag in it.  `content_of_clean` says what a text must
avoid to be the whole content, and the lemmas before it how a mark is found in texts that are put
together. -/

/-! ## Marks in texts that are put together -/

namespace Marks
open List
variable {α : Type} {p a b : List α} {c : α}

end Marks

/-! ## The states of the content -/

namespace Html
open Marks

/-- The bytes of ASCII characters. -/
def ascii (s : String) : List UInt8 := s.toList.map Char.toUInt8

/-- A letter in lower case. -/
def lower (b : UInt8) : UInt8 := if 65 ≤ b ∧ b ≤ 90 then b + 32 else b

/-- A text begins with a mark, in any letter case. -/
def Begins (mark text : List UInt8) : Prop := mark <+: text.map lower

/-- A text contains a mark, in any letter case. -/
def Contains (mark text : List UInt8) : Prop := mark <:+: text.map lower

instance (mark text : List UInt8) : Decidable (Begins mark text) :=
  inferInstanceAs (Decidable (_ <+: _))

instance (mark text : List UInt8) : Decidable (Contains mark text) :=
  inferInstanceAs (Decidable (_ <:+: _))

def endTag : List UInt8 := ascii "</script"

def startTag : List UInt8 := ascii "<script"

def comment : List UInt8 := ascii "<!--"

/-- A tag ends after its name, at white space, a slash or a bracket. -/
def Names (tag text : List UInt8) : Prop :=
  Begins tag text ∧ ∃ b ∈ text[tag.length]?, b ∈ [9, 10, 12, 13, 32, 47, 62]

instance (tag text : List UInt8) : Decidable (Names tag text) :=
  inferInstanceAs (Decidable (_ ∧ _))

/-- Inside of a comment, and inside of a script tag in it. -/
inductive Mode where
  | data
  | escaped
  | doubleEscaped
deriving DecidableEq

/-- The mode after the first byte of a text; so many dashes are before it. -/
def Mode.next (mode : Mode) (dashes : ℕ) (text : List UInt8) : Mode :=
  match mode with
  | .data => if Begins comment text then .escaped else .data
  | .escaped =>
      if Names startTag text then .doubleEscaped
      else if 2 ≤ dashes ∧ text.head? = some 62 then .data
      else .escaped
  | .doubleEscaped =>
      if Names endTag text then .escaped
      else if 2 ≤ dashes ∧ text.head? = some 62 then .data
      else .doubleEscaped

/-- What follows the first occurrence of a tag. -/
def after (tag : List UInt8) : List UInt8 → Option (List UInt8)
  | [] => none
  | b :: text =>
      if tag <+: b :: text then some ((b :: text).drop tag.length) else after tag text

/-- A text neither ends a script nor opens a comment. -/
def Clean (text : List UInt8) : Prop := ¬ Contains endTag text ∧ ¬ Contains comment text

instance (text : List UInt8) : Decidable (Clean text) := inferInstanceAs (Decidable (_ ∧ _))

theorem Clean.tail {b : UInt8} {text : List UInt8} (h : Clean (b :: text)) :
    ¬ Begins endTag (b :: text) ∧ ¬ Begins comment (b :: text) ∧ Clean text := by
  obtain ⟨hend, hcomment⟩ := h
  rw [Contains, List.map_cons, List.infix_cons_iff, not_or] at hend hcomment
  exact ⟨hend.1, hcomment.1, hend.2, hcomment.2⟩

end Html
