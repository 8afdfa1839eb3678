import Mathlib.Data.UInt

/-! # JSON values

`serde_json::Value` and the accessors the servers use.  A number is a `u64`, a negative
`i64` or a float, of which only the text is kept. -/

namespace MppSdk

/-- `serde_json::Value`. -/
inductive Json : Type
  | null
  | bool (b : Bool)
  | unsigned (n : UInt64)
  | negative (n : Int64)
  | float (text : String)
  | str (s : String)
  | arr (items : List Json)
  | obj (fields : List (String × Json))

namespace Json

/-- The value of a field in an object. -/
def field (fields : List (String × Json)) (key : String) : Option Json := fields.lookup key

/-- `Value::get`: a field, if the value is an object. -/
def get : Json → String → Option Json
  | obj fields, key => field fields key
  | _, _ => none

/-- `Value::as_object`. -/
def asObject : Json → Option (List (String × Json))
  | obj fields => some fields
  | _ => none

/-- `Value::as_array`. -/
def asArray : Json → Option (List Json)
  | arr items => some items
  | _ => none

/-- `Value::as_str`. -/
def asStr : Json → Option String
  | str s => some s
  | _ => none

/-- `Value::as_u64`. -/
def asU64 : Json → Option UInt64
  | unsigned n => some n
  | _ => none

/-! ## Deserializing the fields of a struct -/

/-- A field of type `Option<T>`: absent and `null` are `None`, and anything else has to be
a `T`.  The outer `none` is an error. -/
def optional {α : Type} (read : Json → Option α) (fields : List (String × Json)) (key : String) :
    Option (Option α) :=
  match field fields key with
  | none | some null => some none
  | some v => (read v).map some

/-- A field that has to be there. -/
def required {α : Type} (read : Json → Option α) (fields : List (String × Json)) (key : String) :
    Option α :=
  (field fields key).bind read

/-- A `bool`. -/
def asBool : Json → Option Bool
  | bool b => some b
  | _ => none

/-- A `u8`. -/
def asU8 : Json → Option UInt8
  | unsigned n => if n ≤ 255 then some n.toUInt8 else none
  | _ => none

/-- A `u16`. -/
def asU16 : Json → Option UInt16
  | unsigned n => if n ≤ 65535 then some n.toUInt16 else none
  | _ => none

/-- A `u32`. -/
def asU32 : Json → Option UInt32
  | unsigned n => if n ≤ 4294967295 then some n.toUInt32 else none
  | _ => none

/-- A `Vec<T>`. -/
def asVec {α : Type} (read : Json → Option α) : Json → Option (List α)
  | arr items => items.mapM read
  | _ => none

/-- A `Vec<T>` with a default: an absent field is the empty vector. -/
def defaulted {α : Type} (read : Json → Option α) (fields : List (String × Json)) (key : String) :
    Option (List α) :=
  match field fields key with
  | none => some []
  | some v => asVec read v

/-! ## Serializing the fields of a struct -/

/-- The object of a struct: `skip_serializing_if` leaves out the fields without a value. -/
def object (fields : List (String × Option Json)) : Json :=
  obj (fields.filterMap fun f => f.2.map (f.1, ·))

/-- A `Vec<T>` that is left out when empty. -/
def nonEmpty {α : Type} (write : α → Json) (items : List α) : Option Json :=
  if items.isEmpty then none else some (arr (items.map write))

end Json
end MppSdk
