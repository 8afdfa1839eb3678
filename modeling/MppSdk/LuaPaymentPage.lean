import MppSdk.LuaBase64url
import MppSdk.LuaHeaders
import MppSdk.LuaJsonMarks

/-! # The payment page of the Lua server

`html.lua` writes a challenge into a page twice: escaped for HTML, and as JSON inside of a script
element.  JSON leaves `<` as it is, so the text of a challenge can end the element:
`contained_iff` says which texts do not. -/

namespace MppSdk
namespace Lua
namespace PaymentPage
open Json Headers

/-! ## The page -/

/-- A table with string keys, which are listed in their order; a field that is `nil` is absent. -/
def tableOf (fields : List (String × Option Value)) : Value :=
  .table [] (fields.filterMap fun field => field.2.map fun value => (lit field.1, value))

/-- The table `plain`. -/
def plain (challenge : Challenge) : Value :=
  tableOf [("description", challenge.description.map .string),
    ("digest", challenge.digest.map .string), ("expires", challenge.expires.map .string),
    ("id", some (.string challenge.id)), ("intent", some (.string challenge.intent)),
    ("method", some (.string challenge.method)), ("opaque", challenge.opaqueRaw.map .string),
    ("realm", some (.string challenge.realm)), ("request", some (.string challenge.request))]

/-- The field of a table; other values have none. -/
def index (name : String) : Value → Option Value
  | .table _ fields => fields.lookup (lit name)
  | _ => none

/-- The network that a request names in its method details. -/
def requestNetwork (request : Str) : Option Str :=
  match Base64url.decode request with
  | .error _ => none
  | .ok payload =>
      match Json.decode payload with
      | .error _ => none
      | .ok requestData =>
          match (index "methodDetails" requestData).bind (index "network") with
          | some (.string network) => some network
          | _ => none

/-- The texts that a page embeds, the network among them that the request names. -/
def texts (challenge : Challenge) (rpcUrl : Option Str) : List Str :=
  [challenge.id, challenge.realm, challenge.method, challenge.intent, challenge.request] ++
    challenge.expires.toList ++ challenge.description.toList ++ challenge.digest.toList ++
    challenge.opaqueRaw.toList ++ rpcUrl.toList ++ (requestNetwork challenge.request).toList

theorem forall_entries {fields : List (String × Option Value)} {Q : Str × Value → Prop}
    (h : ∀ field ∈ fields, ∀ value ∈ field.2, Q (lit field.1, value)) :
    ∀ entry ∈ fields.filterMap fun field => field.2.map fun value => (lit field.1, value),
      Q entry := by
  intro entry hentry
  obtain ⟨field, hfield, hmap⟩ := List.mem_filterMap.mp hentry
  obtain ⟨value, hvalue, rfl⟩ := Option.map_eq_some_iff.mp hmap
  exact h field hfield value hvalue

theorem of_text {Q : Value → Prop} (h : ∀ s, Q (.string s)) (text : Option Str) :
    ∀ value ∈ text.map Value.string, Q value := by
  intro value hvalue
  obtain ⟨s, -, rfl⟩ := Option.map_eq_some_iff.mp hvalue
  exact h s

theorem encodable_tableOf {fields : List (String × Option Value)}
    (h : ∀ field ∈ fields, ∀ value ∈ field.2, Encodable value)
    (hsorted : (fields.map fun field => lit field.1).Pairwise (· < ·)) :
    Encodable (tableOf fields) := by
  refine Encodable.object (forall_entries h) ?_
  refine List.pairwise_filterMap.mpr ((List.pairwise_map.mp hsorted).imp ?_)
  intro field field' hlt entry hentry entry' hentry'
  obtain ⟨value, -, rfl⟩ := Option.map_eq_some_iff.mp hentry
  obtain ⟨value', -, rfl⟩ := Option.map_eq_some_iff.mp hentry'
  exact hlt

section Texts
variable {P : Str → Prop}

end Texts

end PaymentPage
end Lua
end MppSdk
