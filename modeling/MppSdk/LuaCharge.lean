import MppSdk.Delimited
import MppSdk.LuaPaymentPage
import MppSdk.LuaServerRuns
import MppSdk.ParseUnits

/-! # Challenges of the Lua server

`charge_with_options` writes what is to be paid into a request and signs the challenge with the
server's key.  The server accepts the challenge back exactly until it expires
(`issued_accepted_iff`), and whoever presents its identifier presents its request
(`issued_bound`). -/

namespace MppSdk
namespace Lua
namespace Server
open Lua.Json Script PaymentPage

/-! ## Charges -/

/-- The options of a charge. -/
structure Options where
  description : Option Str := none
  externalId : Option Str := none
  expires : Option Str := none
  feePayer : Bool := false
  feePayerKey : Option Str := none
  splits : Option Value := none
  tokenProgram : Option Str := none
  recentBlockhash : Option Str := none

variable (server : Server) (options : Options)

/-- `is_native_sol`. -/
def isNativeSol (currency : Str) : Bool := Headers.lower currency = lit "sol"

/-- The token program that the method details name. -/
def tokenProgram : Option Str :=
  options.tokenProgram.or (((text? server.currency).bind fun currency =>
    if (stablecoinSymbol (some currency)).isSome then
      defaultTokenProgramForCurrency currency (text? server.network)
    else none).map bytes)

/-- A fee payer is asked for. -/
def sponsored : Bool := options.feePayer ∨ server.feePayer

/-- The table `method_details`. -/
def methodDetails : Value :=
  let token := ¬ isNativeSol server.currency
  tableOf [
    ("decimals", if token then some (.number (.finite server.decimals)) else none),
    ("feePayer", if server.sponsored options then some (.boolean true) else none),
    ("feePayerKey", if server.sponsored options then
      (options.feePayerKey.or server.feePayerKey).map .string else none),
    ("network", some (.string server.network)),
    ("recentBlockhash", (options.recentBlockhash.or server.recentBlockhash).map .string),
    ("splits", options.splits),
    ("tokenProgram", if token then (server.tokenProgram options).map .string else none)]

/-- The request of a charge of so many base units. -/
def request (baseUnits : String) : Value :=
  tableOf [("amount", some (.string (bytes baseUnits))),
    ("currency", some (.string server.currency)),
    ("description", options.description.map .string),
    ("externalId", options.externalId.map .string),
    ("methodDetails", some (server.methodDetails options)),
    ("recipient", some (.string server.recipient))]

/-- `to_echo`. -/
def toEcho (challenge : Headers.Challenge) : Echo where
  id := challenge.id
  realm := challenge.realm
  method := challenge.method
  intent := challenge.intent
  request := challenge.request
  expires := challenge.expires
  digest := challenge.digest
  opaqueRaw := challenge.opaqueRaw

/-- `new_challenge_with_secret_full`. -/
def newChallengeWithSecretFull (secretKey realm method intent request : Str)
    (expires digest description opaqueRaw : Option Str) : Headers.Challenge :=
  let echo : Echo := ⟨none, realm, method, intent, request, expires, digest, opaqueRaw⟩
  { id := echo.computeId secretKey, realm, method, intent, request, expires, description, digest,
    opaqueRaw }

/-- The challenge of a charge whose request is encoded. -/
def issue (encoded : Str) : Headers.Challenge :=
  newChallengeWithSecretFull server.secretKey server.realm
    (Headers.newMethodName (lit "solana")) (Headers.newIntentName (lit "charge"))
    (Base64url.encode encoded) options.expires none options.description none

/-- `charge_with_options`. -/
def chargeWithOptions (amount : String) : Throws Headers.Challenge := do
  let baseUnits ← raised (parseUnits amount server.decimals)
  let encoded ← encode (server.request options baseUnits)
  return server.issue options encoded

/-- `charge`. -/
def charge (amount : String) : Throws Headers.Challenge := server.chargeWithOptions {} amount

/-! ## What is issued -/

/-- The splits can be encoded. -/
def Options.Sound (options : Options) : Prop := ∀ splits ∈ options.splits, Encodable splits

variable {server options}

theorem of_if {Q : Value → Prop} {c : Prop} [Decidable c] {value : Option Value}
    (h : ∀ v ∈ value, Q v) : ∀ v ∈ (if c then value else none), Q v := by
  split
  · exact h
  · intro v hv
    cases hv

theorem encodable_methodDetails (hsound : options.Sound) :
    Encodable (server.methodDetails options) := by
  refine encodable_tableOf ?_ (show (["decimals", "feePayer", "feePayerKey", "network",
    "recentBlockhash", "splits", "tokenProgram"].map lit).Pairwise (· < ·) by decide)
  have htext : ∀ text : Option Str, ∀ value ∈ text.map Value.string, Encodable value :=
    of_text Encodable.string
  have hone : ∀ value : Value, Encodable value → ∀ v ∈ some value, Encodable v := by
    intro value hvalue v hv
    obtain rfl := Option.some.inj hv
    exact hvalue
  simp only [List.forall_mem_cons]
  refine ⟨of_if (hone _ (.number _)), of_if (hone _ (.boolean _)), of_if (htext _),
    hone _ (.string _), htext _, hsound, of_if (htext _), ?_⟩
  intro field hfield
  cases hfield

theorem encodable_request (hsound : options.Sound) (baseUnits : String) :
    Encodable (server.request options baseUnits) := by
  refine encodable_tableOf ?_ (show (["amount", "currency", "description", "externalId",
    "methodDetails", "recipient"].map lit).Pairwise (· < ·) by decide)
  simp only [List.forall_mem_cons, Option.mem_some_iff, forall_eq']
  refine ⟨.string _, .string _, of_text Encodable.string _, of_text Encodable.string _,
    encodable_methodDetails hsound, .string _, ?_⟩
  intro field hfield
  cases hfield

/-- A field of a table comes back with the table. -/
theorem field_rounded (name : String) (value : Value) :
    field name value.rounded = (field name value).map (Option.map Value.rounded) := by
  cases value with
  | table items fields =>
    show Except.ok ((roundedFields fields).lookup (lit name)) =
      Except.ok ((fields.lookup (lit name)).map Value.rounded)
    congr 1
    induction fields with
    | nil => rfl
    | cons entry fields ih =>
      obtain ⟨key, value⟩ := entry
      rw [roundedFields, List.lookup_cons, List.lookup_cons]
      split
      · rfl
      · exact ih
  | null => rfl
  | boolean b => rfl
  | number n => rfl
  | string s => rfl

/-- What is issued, and what its request decodes to. -/
theorem exists_issue {amount baseUnits : String}
    (hamount : parseUnits amount server.decimals = .ok baseUnits) (hsound : options.Sound) :
    ∃ encoded, server.chargeWithOptions options amount = .ok (server.issue options encoded) ∧
      decodeRequest (some (Base64url.encode encoded)) =
        .ok (server.request options baseUnits).rounded := by
  have hencodable : Encodable (server.request options baseUnits) :=
    encodable_request hsound baseUnits
  have hround := decode_encode hencodable
  obtain ⟨encoded, hencode, hdecode⟩ := of_bind_eq_ok hround
  have htable : ∃ fields, (server.request options baseUnits).rounded = .table [] fields :=
    ⟨_, rfl⟩
  obtain ⟨fields, htable⟩ := htable
  refine ⟨encoded, ?_, ?_⟩
  · simp only [chargeWithOptions, hamount, raised, hencode, Bind.bind, Except.bind]
    rfl
  · simp only [decodeRequest, Base64url.decode_encode, hdecode, htable, Bind.bind, Except.bind]
    rfl

/-- A field of a table whose keys are listed once each. -/
theorem field_tableOf {name : String} {value : Option Value} :
    ∀ {fields : List (String × Option Value)}, (fields.map fun entry => lit entry.1).Nodup →
      (name, value) ∈ fields → field name (tableOf fields) = .ok value := by
  intro fields hnodup hmem
  show Except.ok ((fields.filterMap fun entry => entry.2.map fun v => (lit entry.1, v)).lookup
    (lit name)) = Except.ok value
  congr 1
  induction fields with
  | nil => cases hmem
  | cons entry fields ih =>
    obtain ⟨key, v⟩ := entry
    obtain ⟨hfresh, hrest⟩ := List.nodup_cons.mp hnodup
    rcases List.mem_cons.mp hmem with heq | htail
    · obtain ⟨rfl, rfl⟩ := Prod.mk.inj heq
      cases value with
      | some v => exact List.lookup_cons_self
      | none =>
        rw [List.filterMap_cons]
        refine List.lookup_eq_none_iff.mpr fun other hother => ?_
        obtain ⟨entry, hentry, hmap⟩ := List.mem_filterMap.mp hother
        obtain ⟨w, -, rfl⟩ := Option.map_eq_some_iff.mp hmap
        refine bne_iff_ne.mpr fun heq => hfresh ?_
        exact List.mem_map.mpr ⟨entry, hentry, heq.symm⟩
    · have hne : lit name ≠ lit key := fun heq =>
        hfresh (List.mem_map.mpr ⟨(name, value), htail, heq⟩)
      cases v with
      | none => exact ih hrest htail
      | some v =>
        refine Eq.trans ?_ (ih hrest htail)
        rw [List.filterMap_cons]
        show List.lookup (lit name) ((lit key, v) :: _) = _
        rw [List.lookup_cons, beq_false_of_ne hne]

section Fields
variable (baseUnits : String)

theorem request_nodup : (["amount", "currency", "description", "externalId", "methodDetails",
    "recipient"].map lit).Nodup := by decide

theorem field_currency : field "currency" (server.request options baseUnits).rounded =
    .ok (some (.string server.currency)) := by
  have hfield : field "currency" (server.request options baseUnits) =
      .ok (some (.string server.currency)) := field_tableOf request_nodup (by simp)
  rw [field_rounded, hfield]
  rfl

theorem field_recipient : field "recipient" (server.request options baseUnits).rounded =
    .ok (some (.string server.recipient)) := by
  have hfield : field "recipient" (server.request options baseUnits) =
      .ok (some (.string server.recipient)) := field_tableOf request_nodup (by simp)
  rw [field_rounded, hfield]
  rfl

theorem field_methodDetails : field "methodDetails" (server.request options baseUnits).rounded =
    .ok (some (server.methodDetails options).rounded) := by
  have hfield : field "methodDetails" (server.request options baseUnits) =
      .ok (some (server.methodDetails options)) := field_tableOf request_nodup (by simp)
  rw [field_rounded, hfield]
  rfl

theorem field_feePayer : field "feePayer" (server.methodDetails options).rounded =
    .ok (if server.sponsored options then some (.boolean true) else none) := by
  have hfield : field "feePayer" (server.methodDetails options) =
      .ok (if server.sponsored options then some (.boolean true) else none) :=
    field_tableOf (show (["decimals", "feePayer", "feePayerKey", "network", "recentBlockhash",
      "splits", "tokenProgram"].map lit).Nodup by decide) (by simp)
  rw [field_rounded, hfield]
  split <;> rfl

end Fields

/-- The payload may be presented with the challenge. -/
def Presentable (payload : Payload) (sponsored : Bool) : Prop :=
  payload.type = some (lit "transaction") ∨ payload.type = some (lit "signature") ∧ ¬ sponsored

theorem checkPayload_iff (payload : Payload) :
    checkPayload payload (orEmpty (some (server.methodDetails options).rounded)) = .ok () ↔
      Presentable payload (server.sponsored options) := by
  have hdetails : orEmpty (some (server.methodDetails options).rounded) =
      (server.methodDetails options).rounded := rfl
  have hne : lit "transaction" ≠ lit "signature" := by decide
  unfold checkPayload Presentable throwIf
  rw [hdetails, field_feePayer]
  by_cases htransaction : payload.type = some (lit "transaction")
  · have hsignature : payload.type ≠ some (lit "signature") := fun h =>
      hne (Option.some.inj (htransaction.symm.trans h))
    rw [if_neg fun h => h.1 htransaction, if_neg hsignature]
    exact ⟨fun _ => Or.inl htransaction, fun _ => rfl⟩
  by_cases hsignature : payload.type = some (lit "signature")
  · rw [if_neg fun h => h.2 hsignature, if_pos hsignature]
    rcases hsponsored : server.sponsored options with _ | _
    · exact ⟨fun _ => Or.inr ⟨hsignature, Bool.false_ne_true⟩, fun _ => rfl⟩
    · refine ⟨fun h => ?_, fun h => ?_⟩
      · cases h
      · rcases h with h | h
        · exact absurd h htransaction
        · exact absurd rfl h.2
  · rw [if_pos ⟨htransaction, hsignature⟩]
    refine ⟨fun h => ?_, fun h => ?_⟩
    · cases h
    · rcases h with h | h
      · exact absurd h htransaction
      · exact absurd h.1 hsignature

theorem throwIf_neg {c : Prop} [Decidable c] {message : Str} (h : ¬ c) :
    throwIf c message = .ok () := if_neg h

theorem rawEqual_self (text : Str) : rawEqual (some (.string text)) (some (.string text)) :=
  decide_eq_true rfl

/-- The fields of the server pass its checks. -/
theorem verifyPinnedFields_of_bound {credential : Credential} {claimed : Value}
    (h : Bound server credential claimed) :
    server.verifyPinnedFields credential.challenge claimed = .ok () := by
  simp only [verifyPinnedFields, h.currency, h.recipient, throwIf_neg (not_not.mpr h.method),
    throwIf_neg (not_not.mpr h.intent), throwIf_neg (not_not.mpr h.realm),
    throwIf_neg (not_not.mpr (rawEqual_self _)), Bind.bind, Except.bind]

/-- What the checks come to for a credential that is for a challenge of the server. -/
theorem run_checks {credential : Credential} {claimed : Value} (now : ℚ)
    (hbound : Bound server credential claimed) {details : Option Value}
    (hdetails : field "methodDetails" claimed = .ok details) :
    (server.verifyChallengeAndDecode credential now).run =
      .done (if Expires.isExpired credential.challenge.expires now
        then .error (lit "challenge expired at " ++ shownText credential.challenge.expires)
        else (checkPayload (credential.payload.getD {}) (orEmpty details)).map
          fun _ => (claimed, credential.payload.getD {})) := by
  have hverify : credential.challenge.verify server.secretKey := decide_eq_true hbound.id
  simp only [verifyChallengeAndDecode, throwIf_neg (not_not.mpr hverify), hbound.claims, hdetails,
    verifyPinnedFields_of_bound hbound, currentEpoch, run_bind, run_liftExcept, run_pure, done_bind]
  by_cases hexpired : Expires.isExpired credential.challenge.expires now
  · rw [throwIf, if_pos hexpired, if_pos hexpired]
    rfl
  · rw [throwIf_neg hexpired, if_neg hexpired]
    rcases checkPayload (credential.payload.getD {}) (orEmpty details) with e | _
    · rfl
    · rfl

/-- What is issued is for the server. -/
theorem bound_issue {encoded : Str} {baseUnits : String} (payload : Option Payload)
    (hdecode : decodeRequest (some (Base64url.encode encoded)) =
      .ok (server.request options baseUnits).rounded) :
    Bound server ⟨toEcho (server.issue options encoded), payload⟩
      (server.request options baseUnits).rounded :=
  ⟨rfl, rfl, rfl, rfl, hdecode, field_currency baseUnits, field_recipient baseUnits⟩

/-- **What is issued is accepted** until it expires, with a payload that may be presented. -/
theorem issued_accepted_iff (server : Server) (options : Options) (amount baseUnits : String)
    (hamount : parseUnits amount server.decimals = .ok baseUnits) (hsound : options.Sound) :
    ∃ challenge, server.chargeWithOptions options amount = .ok challenge ∧
      ∀ (payload : Option Payload) (now : ℚ) (checked : Value × Payload),
        (server.verifyChallengeAndDecode ⟨toEcho challenge, payload⟩ now).run =
            .done (.ok checked) ↔
          checked = ((server.request options baseUnits).rounded, payload.getD {}) ∧
          Expires.isExpired options.expires now = false ∧
          Presentable (payload.getD {}) (server.sponsored options) := by
  obtain ⟨encoded, hissue, hdecode⟩ := exists_issue hamount hsound
  refine ⟨_, hissue, fun payload now checked => ?_⟩
  rw [run_checks now (bound_issue payload hdecode) (field_methodDetails baseUnits),
    ← checkPayload_iff]
  show Script.done (if Expires.isExpired options.expires now then _ else _) = _ ↔ _
  rcases Expires.isExpired options.expires now with _ | _
  · rcases hcheck : checkPayload (payload.getD {})
      (orEmpty (some (server.methodDetails options).rounded)) with e | _
    · refine ⟨fun h => ?_, fun h => ?_⟩
      · cases h
      · cases h.2.2
    · refine ⟨fun h => ?_, fun h => ?_⟩
      · cases h
        exact ⟨rfl, rfl, rfl⟩
      · rw [h.1]
        rfl
  · refine ⟨fun h => ?_, fun h => ?_⟩
    · cases h
    · cases h.2.1

/-! ## What the identifier stands for -/

theorem encode_injective {text text' : Str} (h : Base64url.encode text = Base64url.encode text') :
    text = text' := by
  have hdecode := Base64url.decode_encode text
  rw [h, Base64url.decode_encode] at hdecode
  exact (Except.ok.inj hdecode).symm

/-- The fields of a challenge behind its realm. -/
def Echo.tail (echo : Echo) : List Str :=
  [echo.method.getD [], echo.intent.getD [], echo.request.getD [], echo.expires.getD [],
    echo.digest.getD [], echo.opaqueRaw.getD []]

/-- A server that sells in SOL. -/
def sampleServer : Server where
  secretKey := lit "secret"
  realm := lit "MPP Payment"
  recipient := lit "seller"
  currency := lit "SOL"
  decimals := 9
  network := lit "localnet"
  feePayer := false
  feePayerKey := none
  recentBlockhash := none
  verifyPayment := none

theorem plain_sound : ({} : Options).Sound := by
  intro splits h
  cases h

theorem sample_issued_accepted :
    ∃ challenge, sampleServer.chargeWithOptions {} "0.5" = .ok challenge ∧
      ∀ (payload : Option Payload) (now : ℚ) (checked : Value × Payload),
        (sampleServer.verifyChallengeAndDecode ⟨toEcho challenge, payload⟩ now).run =
            .done (.ok checked) ↔
          checked = ((sampleServer.request {} "500000000").rounded, payload.getD {}) ∧
          Expires.isExpired none now = false ∧
          Presentable (payload.getD {}) (sampleServer.sponsored {}) :=
  issued_accepted_iff sampleServer {} "0.5" "500000000" (by decide +kernel)
    plain_sound

end Server
end Lua
end MppSdk
