import MppSdk.ChargeServer
import MppSdk.Delimited
import MppSdk.Base64Url

/-! # Challenges are bound to their fields

The id of a challenge is a keyed hash of its fields, joined by `|` without escaping.  The
fields of an issued challenge, its realm apart, are free of `|`; the realm is the server's
own and comes first.  So a challenge that is echoed under the id of an issued one has its
fields (`bound_of_passes`), except that an empty field cannot be told from an absent one. -/

namespace MppSdk
open Script

/-! ## Issuing -/

/-- `PaymentChallenge`. -/
structure PaymentChallenge where
  id : String
  realm : String
  method : String
  intent : String
  request : String
  expires : Option String := none
  description : Option String := none
  digest : Option String := none
  opaqueData : Option String := none
deriving DecidableEq

namespace PaymentChallenge

/-- `with_secret_key_full`; `MethodName` and `IntentName` are made lower case. -/
def withSecretKeyFull (crates : Crates) (secretKey realm method intent request : String)
    (expires digest description opaqueData : Option String) : PaymentChallenge :=
  let method := method.toLower
  let intent := intent.toLower
  { id := computeChallengeId crates secretKey realm method intent request expires digest opaqueData
    realm, method, intent, request, expires, description, digest, opaqueData }

/-- `to_echo`. -/
def toEcho (challenge : PaymentChallenge) : ChallengeEcho where
  id := challenge.id
  realm := challenge.realm
  method := challenge.method
  intent := challenge.intent
  request := challenge.request
  expires := challenge.expires
  digest := challenge.digest
  opaqueData := challenge.opaqueData

end PaymentChallenge

/-- `expires::minutes`. -/
def expiresMinutes (crates : Crates) (now : Int) (n : Nat) : String :=
  (crates.formatRfc3339 (now + n * 60000000000)).getD "1970-01-01T00:00:00Z"

namespace Mpp
variable (server : Mpp) (canonicalJson : ChargeRequest → Option String)

/-- `charge_challenge_with_options`; `canonicalJson` is `serde_json_canonicalizer`. -/
def chargeChallengeWithOptions (now : Int) (request : ChargeRequest)
    (expires description : Option String) : Option PaymentChallenge := do
  let json ← canonicalJson request
  let encoded := server.crates.base64UrlEncode (utf8 json)
  let defaultExpires := expiresMinutes server.crates now 5
  let expires := expires.getD defaultExpires
  return .withSecretKeyFull server.crates server.secretKey server.realm METHOD_NAME "charge" encoded
    (some expires) none description none

/-- The server issued the challenge, and it expires at an RFC 3339 timestamp.  A challenge
of `charge_with_options` is one too, of the request it builds. -/
def Issued (challenge : PaymentChallenge) : Prop :=
  ∃ now request expires description,
    server.chargeChallengeWithOptions canonicalJson now request expires description =
      some challenge ∧
    ∃ text ∈ challenge.expires, (server.crates.parseRfc3339 text).isSome

/-- The echoed challenge passes the checks of `verify`, with this reading of the clock. -/
structure Passes (challenge : ChallengeEcho) (request : ChargeRequest) (now : Int) : Prop where
  challengeId : server.verifyChallengeId challenge = .ok ()
  expiry : ∀ store : ReplayStore,
    (alone chargeHandler (server.verifyExpiry challenge).run (fun _ => { now }) store).2 = .ok ()
  pinned : server.verifyPinnedFields challenge request = .ok ()

end Mpp

/-! ## The id input -/

namespace ChallengeEcho

/-- What is hashed to the id of a challenge. -/
def idInput (realm : String) (challenge : ChallengeEcho) : String :=
  String.intercalate "|" [realm, challenge.method, challenge.intent, challenge.request,
    challenge.expires.getD "", challenge.digest.getD "", challenge.opaqueData.getD ""]

/-- The fields that are hashed are the same, an absent one being an empty one. -/
structure SameFields (a b : ChallengeEcho) : Prop where
  method : a.method = b.method
  intent : a.intent = b.intent
  request : a.request = b.request
  expires : a.expires.getD "" = b.expires.getD ""
  digest : a.digest.getD "" = b.digest.getD ""
  opaqueData : a.opaqueData.getD "" = b.opaqueData.getD ""

/-- The fields after the realm, as characters. -/
def fields (challenge : ChallengeEcho) : List (List Char) :=
  [challenge.method.toList, challenge.intent.toList, challenge.request.toList,
    (challenge.expires.getD "").toList, (challenge.digest.getD "").toList,
    (challenge.opaqueData.getD "").toList]

theorem sameFields_of_fields {a b : ChallengeEcho} (h : a.fields = b.fields) : SameFields a b := by
  simp only [fields, List.cons.injEq, String.toList_inj, and_true] at h
  obtain ⟨hmethod, hintent, hrequest, hexpires, hdigest, hopaque⟩ := h
  exact ⟨hmethod, hintent, hrequest, hexpires, hdigest, hopaque⟩

/-- The realm comes first, so it is no matter whether it holds the separator. -/
theorem intercalate_fields_of_idInput {realm : String} {a b : ChallengeEcho}
    (h : a.idInput realm = b.idInput realm) :
    ['|'].intercalate a.fields = ['|'].intercalate b.fields := by
  have hinput : ∀ challenge : ChallengeEcho, (challenge.idInput realm).toList =
      realm.toList ++ '|' :: ['|'].intercalate challenge.fields := by
    intro challenge
    rw [idInput, String.toList_intercalate, List.map_cons,
      List.intercalate_cons_of_ne_nil (by simp), List.append_assoc]
    rfl
  have hlist : (a.idInput realm).toList = (b.idInput realm).toList := by rw [h]
  rw [hinput, hinput] at hlist
  exact (List.cons.inj (List.append_cancel_left hlist)).2

/-- **Nothing else has the id input of fields free of the separator.** -/
theorem sameFields_of_idInput {realm : String} {a b : ChallengeEcho}
    (hfree : ∀ field ∈ b.fields, '|' ∉ field) (h : a.idInput realm = b.idInput realm) :
    SameFields a b := by
  have hfields : b.fields = a.fields :=
    Delimited.eq_of_intercalate_eq hfree rfl (intercalate_fields_of_idInput h).symm
  exact sameFields_of_fields hfields.symm

/-- Two challenges whose first fields are free of the separator, and whose digests are. -/
theorem sameFields_of_idInput_of_digests {realm : String} {a b : ChallengeEcho}
    (ha : ∀ field ∈ a.fields.take 5, '|' ∉ field) (hb : ∀ field ∈ b.fields.take 5, '|' ∉ field)
    (h : a.idInput realm = b.idInput realm) : SameFields a b := by
  have hsplit : a.fields.take 5 = b.fields.take 5 ∧
      (a.opaqueData.getD "").toList = (b.opaqueData.getD "").toList :=
    Delimited.eq_of_intercalate_append_eq ha hb rfl (intercalate_fields_of_idInput h)
  have hfields : ∀ challenge : ChallengeEcho,
      challenge.fields = challenge.fields.take 5 ++ [(challenge.opaqueData.getD "").toList] :=
    fun _ => rfl
  refine sameFields_of_fields ?_
  rw [hfields a, hfields b, hsplit.1, hsplit.2]

end ChallengeEcho

/-! ## Binding -/

/-- What the crates document: the hash and the encoding are injective, base64url texts and
RFC 3339 timestamps are free of `|`, and a timestamp is not empty. -/
structure Crates.Documented (crates : Crates) : Prop where
  hmac_injective : ∀ key, Function.Injective (crates.hmacSha256 key)
  encode_injective : Function.Injective crates.base64UrlEncode
  encode_text : ∀ bytes, '|' ∉ (crates.base64UrlEncode bytes).toList
  rfc3339_text : ∀ text, (crates.parseRfc3339 text).isSome → text ≠ "" ∧ '|' ∉ text.toList

namespace Mpp
variable {server : Mpp} {canonicalJson : ChargeRequest → Option String}

theorem computeChallengeId_eq (challenge : ChallengeEcho) :
    computeChallengeId server.crates server.secretKey server.realm challenge.method
        challenge.intent challenge.request challenge.expires challenge.digest
        challenge.opaqueData =
      server.crates.base64UrlEncode (server.crates.hmacSha256 (utf8 server.secretKey)
        (utf8 (challenge.idInput server.realm))) := rfl

/-- The id of a challenge is its id input, so to say. -/
theorem idInput_of_challengeId (hcrates : server.crates.Documented) {a b : ChallengeEcho}
    (h : computeChallengeId server.crates server.secretKey server.realm a.method a.intent a.request
        a.expires a.digest a.opaqueData =
      computeChallengeId server.crates server.secretKey server.realm b.method b.intent b.request
        b.expires b.digest b.opaqueData) :
    a.idInput server.realm = b.idInput server.realm := by
  rw [computeChallengeId_eq, computeChallengeId_eq] at h
  exact utf8_injective (hcrates.hmac_injective _ (hcrates.encode_injective h))

/-- What an issued challenge looks like. -/
theorem Issued.fields (hcrates : server.crates.Documented) {challenge : PaymentChallenge}
    (h : server.Issued canonicalJson challenge) :
    challenge.realm = server.realm ∧ challenge.digest = none ∧ challenge.opaqueData = none ∧
      (∃ text, challenge.expires = some text ∧ text ≠ "") ∧
      challenge.id = computeChallengeId server.crates server.secretKey server.realm
        challenge.method challenge.intent challenge.request challenge.expires challenge.digest
        challenge.opaqueData ∧
      ∀ field ∈ challenge.toEcho.fields, '|' ∉ field := by
  obtain ⟨now, request, expires, description, hchallenge, text, htext, hrfc⟩ := h
  simp only [chargeChallengeWithOptions, Option.bind_eq_bind, Option.bind_eq_some_iff,
    Option.pure_def, Option.some.injEq] at hchallenge
  obtain ⟨json, -, rfl⟩ := hchallenge
  obtain rfl : expires.getD (expiresMinutes server.crates now 5) = text := Option.some.inj htext
  obtain ⟨hempty, hfree⟩ := hcrates.rfc3339_text _ hrfc
  have hmethod : '|' ∉ METHOD_NAME.toLower.toList := by decide +kernel
  have hintent : '|' ∉ "charge".toLower.toList := by decide +kernel
  refine ⟨rfl, rfl, rfl, ⟨_, rfl, hempty⟩, rfl, ?_⟩
  simp only [ChallengeEcho.fields, PaymentChallenge.toEcho, PaymentChallenge.withSecretKeyFull,
    List.forall_mem_cons]
  exact ⟨hmethod, hintent, hcrates.encode_text _, hfree, by decide, by decide, fun _ h => nomatch h⟩

/-- The method and the intent of a challenge that passes the pinned checks. -/
theorem Passes.pinned_fields {echo : ChallengeEcho} {request : ChargeRequest} {now : Int}
    (h : server.Passes echo request now) :
    echo.realm = server.realm ∧ '|' ∉ echo.method.toList ∧ '|' ∉ echo.intent.toList := by
  have hpinned := h.pinned
  simp only [verifyPinnedFields, bind_eq_ok, rejectIf_eq_ok, ne_eq, not_not] at hpinned
  obtain ⟨-, hmethod, -, hintent, -, hrealm, -⟩ := hpinned
  refine ⟨hrealm, by rw [hmethod]; decide, ?_⟩
  have hlower : echo.intent.toLower = "charge".toLower := of_decide_eq_true hintent
  intro hmem
  -- lower case keeps the separator
  have hmem' : '|' ∈ echo.intent.toLower.toList := by
    show '|' ∈ (echo.intent.map Char.toLower).toList
    rw [String.toList_map]
    exact List.mem_map.mpr ⟨'|', hmem, by decide⟩
  rw [hlower] at hmem'
  exact absurd hmem' (by decide +kernel)

/-- **Binding.**  A challenge that passes the checks under the id of an issued one is that
one, an absent digest or opaque being an empty one.  Nothing else has the id input of an
issued challenge; and of challenges that pass the pinned checks, two with the same id input
are the same if their requests, timestamps and digests are free of the separator. -/
theorem bound_of_passes (server : Mpp) (canonicalJson : ChargeRequest → Option String)
    (hcrates : server.crates.Documented) (issued : List PaymentChallenge)
    (hissued : ∀ challenge ∈ issued, server.Issued canonicalJson challenge) :
    (∀ echo request now, server.Passes echo request now →
      echo.id ∈ issued.map PaymentChallenge.id →
      ∃ challenge ∈ issued, echo.realm = challenge.realm ∧ echo.method = challenge.method ∧
        echo.intent = challenge.intent ∧ echo.request = challenge.request ∧
        echo.expires = challenge.expires ∧
        echo.digest.getD "" = challenge.digest.getD "" ∧
        echo.opaqueData.getD "" = challenge.opaqueData.getD "") ∧
    (∀ challenge ∈ issued, ∀ forged : ChallengeEcho,
      forged.idInput server.realm = challenge.toEcho.idInput server.realm →
      forged.SameFields challenge.toEcho) ∧
    (∀ a b request now request' now', server.Passes a request now → server.Passes b request' now' →
      (∀ echo ∈ [a, b], '|' ∉ echo.request.toList ∧ '|' ∉ (echo.expires.getD "").toList ∧
        '|' ∉ (echo.digest.getD "").toList) →
      a.idInput server.realm = b.idInput server.realm → a.SameFields b) := by
  have hunique : ∀ challenge ∈ issued, ∀ forged : ChallengeEcho,
      forged.idInput server.realm = challenge.toEcho.idInput server.realm →
      forged.SameFields challenge.toEcho := by
    intro challenge hmem forged h
    obtain ⟨-, -, -, -, -, hfree⟩ := (hissued challenge hmem).fields hcrates
    exact ChallengeEcho.sameFields_of_idInput hfree h
  refine ⟨?_, hunique, ?_⟩
  · intro echo request now hpass hknown
    obtain ⟨challenge, hmem, hid⟩ := List.mem_map.mp hknown
    obtain ⟨hrealm, -, -, ⟨text, htext, hnonempty⟩, hissuedId, -⟩ :=
      (hissued challenge hmem).fields hcrates
    have hecho : echo.id = _ := not_not.mp (rejectIf_eq_ok.mp hpass.challengeId)
    have hinput : echo.idInput server.realm = challenge.toEcho.idInput server.realm :=
      idInput_of_challengeId hcrates (hecho.symm.trans (hid.symm.trans hissuedId))
    obtain ⟨hmethod, hintent, hrequest, hexpires, hdigest, hopaque⟩ :=
      hunique challenge hmem echo hinput
    have hexpires' : echo.expires = challenge.expires := by
      change echo.expires.getD "" = challenge.expires.getD "" at hexpires
      rw [htext] at hexpires ⊢
      cases hecho : echo.expires with
      | none =>
        rw [hecho] at hexpires
        exact absurd hexpires.symm hnonempty
      | some expires =>
        rw [hecho] at hexpires
        exact congrArg some hexpires
    exact ⟨challenge, hmem, hpass.pinned_fields.1.trans hrealm.symm, hmethod, hintent, hrequest,
      hexpires', hdigest, hopaque⟩
  · intro a b request now request' now' ha hb hfree h
    have hfirst : ∀ (echo : ChallengeEcho) (request : ChargeRequest) (now : Int),
        server.Passes echo request now → echo ∈ [a, b] →
        ∀ field ∈ echo.fields.take 5, '|' ∉ field := by
      intro echo request now hpass hmem
      obtain ⟨-, hmethod, hintent⟩ := hpass.pinned_fields
      obtain ⟨hrequest, hexpires, hdigest⟩ := hfree echo hmem
      simp only [ChallengeEcho.fields, List.take_succ_cons, List.take_zero, List.forall_mem_cons]
      exact ⟨hmethod, hintent, hrequest, hexpires, hdigest, fun _ h => nomatch h⟩
    exact ChallengeEcho.sameFields_of_idInput_of_digests
      (hfirst a request now ha List.mem_cons_self)
      (hfirst b request' now' hb (List.mem_cons_of_mem a List.mem_cons_self)) h

end Mpp

namespace ChallengeSample

/-- What is hashed to the id of the sample challenge, and its HMAC-SHA256 under the key. -/
def idInput : List UInt8 :=
  utf8 ("api.example.com|solana|charge|" ++
    "eyJhbW91bnQiOiIxMDAwIiwiY3VycmVuY3kiOiJTT0wiLCJyZWNpcGllbnQiOiI4cWJIYncyQmJiVEhCVzFzYmVx" ++
    "YWtZWFZLUlFNOE5lN3BMSzdtNkNWZmVSIn0|2030-01-01T00:00:00Z||")

def digest : List UInt8 :=
  [51, 191, 122, 42, 93, 124, 142, 102, 97, 179, 242, 101, 243, 241, 58, 18, 137, 245, 63, 253, 86,
    233, 2, 174, 145, 203, 10, 117, 167, 36, 187, 26]

/-- The crates, as they behave on the sample challenge. -/
def crates : Crates where
  hmacSha256 key message := if key = utf8 "secret-key" then Equiv.swap idInput digest message
    else message
  base64UrlEncode := Base64Url.encode
  base64UrlDecode _ := none
  base64Decode _ := none
  parseJson _ := none
  parseRfc3339 text := if text = "2030-01-01T00:00:00Z" then some 1893456000000000000 else none
  formatRfc3339 _ := none
  findProgramAddress _ program := (program, 255)

theorem crates_documented : crates.Documented where
  hmac_injective key := by
    by_cases hkey : key = utf8 "secret-key"
    · simp only [crates, if_pos hkey]
      exact (Equiv.swap idInput digest).injective
    · simp only [crates, if_neg hkey]
      exact Function.injective_id
  encode_injective := Base64Url.encode_injective
  encode_text bytes h := absurd (Base64Url.mem_alphabet_of_mem_encode h) (by decide)
  rfc3339_text text h := by
    by_cases htext : text = "2030-01-01T00:00:00Z"
    · subst htext
      exact ⟨by decide, by decide⟩
    · simp [crates, htext] at h

def server : Mpp where
  secretKey := "secret-key"
  realm := "api.example.com"
  recipient := "8qbHbw2BbbTHBW1sbeqakYXVKRQM8Ne7pLK7m6CVfeR"
  currency := "SOL"
  network := "mainnet-beta"
  feePayerSigner := none
  crates

def request : ChargeRequest where
  amount := "1000"
  currency := "SOL"
  recipient := some "8qbHbw2BbbTHBW1sbeqakYXVKRQM8Ne7pLK7m6CVfeR"

/-- The canonical JSON of the sample request. -/
def canonicalJson : ChargeRequest → Option String := fun _ =>
  some ("\x7b\"amount\":\"1000\",\"currency\":\"SOL\"," ++
    "\"recipient\":\"8qbHbw2BbbTHBW1sbeqakYXVKRQM8Ne7pLK7m6CVfeR\"\x7d")

def challenge : PaymentChallenge where
  id := "M796Kl18jmZhs_Jl8_E6Eon1P_1W6QKukcsKdackuxo"
  realm := "api.example.com"
  method := "solana"
  intent := "charge"
  request := "eyJhbW91bnQiOiIxMDAwIiwiY3VycmVuY3kiOiJTT0wiLCJyZWNpcGllbnQiOiI4cWJIYncyQmJiVEhCVzFzYmVx" ++
    "YWtZWFZLUlFNOE5lN3BMSzdtNkNWZmVSIn0"
  expires := some "2030-01-01T00:00:00Z"

theorem challenge_issued : server.Issued canonicalJson challenge := by
  refine ⟨0, request, some "2030-01-01T00:00:00Z", none, ?_, _, rfl, rfl⟩
  decide +kernel

/-- The sample challenge as it is echoed, with an empty digest put in. -/
def forged : ChallengeEcho := { challenge.toEcho with digest := some "" }

theorem forged_passes : server.Passes forged request 0 where
  challengeId := by decide +kernel
  expiry _ := rfl
  pinned := by decide +kernel

/-- The sample challenge is bound, up to empty fields. -/
theorem challenge_bound : server.Passes forged request 0 ∧
    ∃ issued ∈ [challenge], forged.request = issued.request ∧ forged.expires = issued.expires ∧
      forged.digest.getD "" = issued.digest.getD "" := by
  have hissued : ∀ issued ∈ [challenge], server.Issued canonicalJson issued := by
    intro issued h
    obtain rfl := List.mem_singleton.mp h
    exact challenge_issued
  obtain ⟨issued, hmem, -, -, -, hrequest, hexpires, hdigest, -⟩ :=
    (Mpp.bound_of_passes server canonicalJson crates_documented [challenge] hissued).1 forged
      request 0 forged_passes (by decide)
  exact ⟨forged_passes, issued, hmem, hrequest, hexpires, hdigest⟩

/-- An empty digest passes for one that is absent, and a separator in a digest makes two
challenges one. -/
theorem digest_not_bound : server.crates.Documented ∧ server.Issued canonicalJson challenge ∧
    (¬ ∀ echo request now, server.Passes echo request now →
      echo.id ∈ [challenge].map PaymentChallenge.id →
      ∃ issued ∈ [challenge], echo.method = issued.method ∧ echo.intent = issued.intent ∧
        echo.request = issued.request ∧ echo.expires = issued.expires ∧
        echo.digest = issued.digest ∧ echo.opaqueData = issued.opaqueData) ∧
    ¬ ∀ a b : ChallengeEcho, a.idInput server.realm = b.idInput server.realm → a.SameFields b := by
  refine ⟨crates_documented, challenge_issued, ?_, ?_⟩
  · intro h
    obtain ⟨issued, hmem, -, -, -, -, hdigest, -⟩ := h forged request 0 forged_passes (by decide)
    obtain rfl := List.mem_singleton.mp hmem
    exact absurd hdigest (by decide)
  · intro h
    have hsame := h { challenge.toEcho with digest := some "a|b", opaqueData := some "c" }
      { challenge.toEcho with digest := some "a", opaqueData := some "b|c" } (by decide +kernel)
    exact absurd hsame.digest (by decide)

end ChallengeSample
end MppSdk
