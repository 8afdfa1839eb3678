import MppSdk.ChargeServer
import MppSdk.GoServer
import MppSdk.LuaServer
import MppSdk.PyServer

/-! # One id in four languages

Servers in Rust, Go, Python and Lua that share a secret and a realm take the same challenges for
their own (`recognised_alike`): the id is the same HMAC of the same bytes, which Lua computes by
itself, and a field that is absent counts as one that is empty. -/

namespace MppSdk

/-! ## Bytes of a text -/

theorem utf8_eq (text : String) : utf8 text = text.toList.flatMap String.utf8EncodeChar := by
  have hbytes : text.toUTF8 = text.toList.utf8Encode := by
    conv_lhs => rw [← String.ofList_toList (s := text)]
    exact String.toByteArray_ofList
  rw [utf8, hbytes, List.utf8Encode]
  simp

theorem flatMap_intercalate {α β : Type} (f : α → List β) (gap : List α) (parts : List (List α)) :
    (gap.intercalate parts).flatMap f =
      (gap.flatMap f).intercalate (parts.map fun part => part.flatMap f) := by
  induction parts with
  | nil => rfl
  | cons part parts ih =>
    by_cases hnil : parts = []
    · subst hnil
      simp
    · have hnil' : parts.map (fun part => part.flatMap f) ≠ [] := fun h =>
        hnil (List.map_eq_nil_iff.mp h)
      rw [List.map_cons, List.intercalate_cons_of_ne_nil hnil,
        List.intercalate_cons_of_ne_nil hnil', List.flatMap_append, List.flatMap_append, ih]

/-- The bytes of texts that are joined. -/
theorem utf8_intercalate (texts : List String) :
    utf8 (String.intercalate "|" texts) = [Lua.byte '|'].intercalate (texts.map utf8) := by
  rw [utf8_eq, String.toList_intercalate, flatMap_intercalate, List.map_map]
  refine congrArg _ (List.map_congr_left fun text _ => ?_)
  exact (utf8_eq text).symm

/-- The bytes of base64url are what Lua writes. -/
theorem utf8_encode (bytes : List UInt8) : utf8 (Base64Url.encode bytes) =
    Lua.Base64url.encode bytes := by
  have hchar : ∀ d < 64, String.utf8EncodeChar (Base64Url.char d) = [Lua.Base64url.char d] := by
    decide +kernel
  rw [utf8_eq, Base64Url.encode, String.toList_ofList, Lua.Base64url.encode_eq, List.flatMap_map,
    ← List.flatMap_singleton' ((Base64Url.encodeDigits bytes).map Lua.Base64url.char),
    List.flatMap_map]
  exact List.flatMap_congr fun d hd => hchar d (Base64Url.lt_of_mem_encodeDigits bytes d hd)

/-! ## Challenges of the other languages -/

namespace ChallengeEcho
variable (echo : ChallengeEcho)

/-- The challenge in Go, where an absent field is an empty one. -/
def toGo : Go.ChallengeEcho where
  id := echo.id
  realm := echo.realm
  method := echo.method
  intent := echo.intent
  request := echo.request
  expires := echo.expires.getD ""
  digest := echo.digest.getD ""
  opaqueRaw := echo.opaqueData.getD ""

/-- The challenge in Python. -/
def toPy : Py.ChallengeEcho where
  id := echo.id
  realm := echo.realm
  method := echo.method
  intent := echo.intent
  request := echo.request
  expires := echo.expires.getD ""
  digest := echo.digest.getD ""
  opaqueData := echo.opaqueData

/-- The challenge in Lua, in bytes. -/
def toLua : Lua.Server.Echo where
  id := some (utf8 echo.id)
  realm := some (utf8 echo.realm)
  method := some (utf8 echo.method)
  intent := some (utf8 echo.intent)
  request := some (utf8 echo.request)
  expires := echo.expires.map utf8
  digest := echo.digest.map utf8
  opaqueRaw := echo.opaqueData.map utf8

/-- What is hashed to the id of the challenge, and the id that is its own then. -/
def ownId (secretKey : String) : String :=
  Base64Url.encode (Sha256.hmac (utf8 secretKey) (utf8 (String.intercalate "|" [echo.realm,
    echo.method, echo.intent, echo.request, echo.expires.getD "", echo.digest.getD "",
    echo.opaqueData.getD ""])))

end ChallengeEcho

/-! ## Servers that share a secret -/

/-- Servers in the four languages with one secret and one realm.  The libraries of the first three
do what the standards say. -/
structure Deployment where
  rust : Mpp
  go : Go.Mpp
  py : Py.Mpp
  lua : Lua.Server
  go_secret : go.secretKey = rust.secretKey
  py_secret : py.secretKey = rust.secretKey
  lua_secret : lua.secretKey = utf8 rust.secretKey
  go_realm : go.realm = rust.realm
  py_realm : py.realm = rust.realm
  lua_realm : lua.realm = utf8 rust.realm
  rust_crypto : rust.crates.hmacSha256 = Sha256.hmac ∧
    rust.crates.base64UrlEncode = Base64Url.encode
  go_crypto : go.libraries.hmacSha256 = Sha256.hmac ∧
    go.libraries.base64UrlEncode = Base64Url.encode
  py_crypto : py.libraries.hmacSha256 = Sha256.hmac ∧
    py.libraries.base64UrlEncode = Base64Url.encode

namespace Deployment

/-- Any servers, once they are given one secret, one realm and such libraries. -/
def of (rust : Mpp) (go : Go.Mpp) (py : Py.Mpp) (lua : Lua.Server) : Deployment where
  rust := { rust with crates := { rust.crates with
    hmacSha256 := Sha256.hmac, base64UrlEncode := Base64Url.encode } }
  go := { go with secretKey := rust.secretKey, realm := rust.realm, libraries := { go.libraries with
    hmacSha256 := Sha256.hmac, base64UrlEncode := Base64Url.encode } }
  py := { py with secretKey := rust.secretKey, realm := rust.realm, libraries := { py.libraries with
    hmacSha256 := Sha256.hmac, base64UrlEncode := Base64Url.encode } }
  lua := { lua with secretKey := utf8 rust.secretKey, realm := utf8 rust.realm }
  go_secret := rfl
  py_secret := rfl
  lua_secret := rfl
  go_realm := rfl
  py_realm := rfl
  lua_realm := rfl
  rust_crypto := ⟨rfl, rfl⟩
  go_crypto := ⟨rfl, rfl⟩
  py_crypto := ⟨rfl, rfl⟩

variable (d : Deployment) (echo : ChallengeEcho)

/-- The id and the realm of the challenge pass the checks of the Rust server. -/
def RustTakes : Prop := d.rust.verifyChallengeId echo = .ok () ∧ echo.realm = d.rust.realm

/-- Of the Go server. -/
def GoTakes : Prop := d.go.verifyChallengeID echo.toGo = .ok () ∧ echo.toGo.realm = d.go.realm

/-- Of the Python server. -/
def PyTakes : Prop :=
  echo.toPy.id = d.py.computeChallengeId echo.toPy ∧ echo.toPy.realm = d.py.realm

/-- Of the Lua server. -/
def LuaTakes : Prop :=
  echo.toLua.verify d.lua.secretKey = true ∧ echo.toLua.realm = some d.lua.realm

/-- The id is the challenge's own under the common secret, and the realm is the common one. -/
def Own : Prop := echo.id = echo.ownId d.rust.secretKey ∧ echo.realm = d.rust.realm

theorem rustTakes_iff : d.RustTakes echo ↔ d.Own echo := by
  refine and_congr_left fun hrealm => rejectIf_eq_ok.trans (not_not.trans ?_)
  rw [computeChallengeId, d.rust_crypto.1, d.rust_crypto.2, ← hrealm]
  exact Iff.rfl

theorem goTakes_iff : d.GoTakes echo ↔ d.Own echo := by
  rw [GoTakes, Own, d.go_realm, Go.Mpp.verifyChallengeID]
  refine and_congr_left fun _ => rejectIf_eq_ok.trans (not_not.trans ?_)
  rw [Go.computeChallengeID, d.go_crypto.1, d.go_crypto.2, d.go_secret]
  exact Iff.rfl

theorem pyTakes_iff : d.PyTakes echo ↔ d.Own echo := by
  rw [PyTakes, Own, d.py_realm, Py.Mpp.computeChallengeId, d.py_crypto.1, d.py_crypto.2,
    d.py_secret]
  exact Iff.rfl

theorem luaTakes_iff : d.LuaTakes echo ↔ d.Own echo := by
  have hmessage : echo.toLua.message = utf8 (String.intercalate "|" [echo.realm, echo.method,
      echo.intent, echo.request, echo.expires.getD "", echo.digest.getD "",
      echo.opaqueData.getD ""]) := by
    -- an absent field is hashed as an empty one, in Lua too
    have habsent : ∀ field : Option String, (field.map utf8).getD [] = utf8 (field.getD "") := by
      intro field
      cases field <;> rfl
    rw [utf8_intercalate]
    simp only [List.map_cons, List.map_nil, ← habsent]
    rfl
  have hid : echo.toLua.computeId d.lua.secretKey = utf8 (echo.ownId d.rust.secretKey) := by
    rw [Lua.Server.Echo.computeId, Lua.Crypto.hmacSha256Base64url, Lua.Crypto.hmacSha256_eq,
      hmessage, d.lua_secret, ← utf8_encode]
    rfl
  refine and_congr (decide_eq_true_iff.trans ?_) ?_
  · rw [hid]
    exact (Option.some_inj).trans utf8_injective.eq_iff
  · rw [d.lua_realm]
    exact (Option.some_inj).trans utf8_injective.eq_iff

/-- **One id in four languages.**  A challenge that one of the servers takes for its own is taken
by all of them. -/
theorem recognised_alike : (d.RustTakes echo ↔ d.GoTakes echo) ∧ (d.GoTakes echo ↔ d.PyTakes echo) ∧
    (d.PyTakes echo ↔ d.LuaTakes echo) := by
  refine ⟨?_, ?_, ?_⟩
  · exact (d.rustTakes_iff echo).trans (d.goTakes_iff echo).symm
  · exact (d.goTakes_iff echo).trans (d.pyTakes_iff echo).symm
  · exact (d.pyTakes_iff echo).trans (d.luaTakes_iff echo).symm

end Deployment

end MppSdk
