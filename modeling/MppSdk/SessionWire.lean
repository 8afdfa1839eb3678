import MppSdk.JsonCarriage
import MppSdk.SessionTypes

/-! # Session payloads as JSON

The challenge request and the `open` action of `protocol/intents/session.rs` with what
`serde` derives for them.  Fields that are `None` or empty are left out and read back as
such, and a salt is written as a decimal string, as not every `u64` survives as a number. -/

namespace MppSdk

/-- `SessionSplit`: a split as a challenge writes it. -/
structure SessionSplit where
  recipient : String
  bps : UInt16
deriving DecidableEq

/-- `SessionRequest`. -/
structure SessionRequest where
  cap : String
  currency : String
  decimals : Option UInt8 := none
  network : Option String := none
  operator : String
  recipient : String
  splits : List SessionSplit := []
  programId : Option String := none
  description : Option String := none
  externalId : Option String := none
  minVoucherDelta : Option String := none
  modes : List SessionMode := []
  pullVoucherStrategy : Option SessionPullVoucherStrategy := none
  recentBlockhash : Option String := none
deriving DecidableEq

/-! ## Serialize and Deserialize -/

/-- `SessionMode` to JSON. -/
def SessionMode.toJson : SessionMode → Json
  | .push => .str "push"
  | .pull => .str "pull"

/-- `SessionMode` from JSON. -/
def SessionMode.ofJson : Json → Option SessionMode
  | .str "push" => some .push
  | .str "pull" => some .pull
  | _ => none

/-- `SessionPullVoucherStrategy` to JSON. -/
def SessionPullVoucherStrategy.toJson : SessionPullVoucherStrategy → Json
  | .clientVoucher => .str "clientVoucher"
  | .operatedVoucher => .str "operatedVoucher"

/-- `SessionPullVoucherStrategy` from JSON. -/
def SessionPullVoucherStrategy.ofJson : Json → Option SessionPullVoucherStrategy
  | .str "clientVoucher" => some .clientVoucher
  | .str "operatedVoucher" => some .operatedVoucher
  | _ => none

/-- The fields of a `SessionSplit` in JSON. -/
def SessionSplit.fields (split : SessionSplit) : List (String × Option Json) :=
  [("recipient", some (.str split.recipient)), ("bps", some (.unsigned split.bps.toUInt64))]

/-- `SessionSplit` to JSON. -/
def SessionSplit.toJson (split : SessionSplit) : Json := .object split.fields

/-- `SessionSplit` from JSON. -/
def SessionSplit.ofJson : Json → Option SessionSplit
  | .obj fields => do
      return {
        recipient := ← Json.required Json.asStr fields "recipient"
        bps := ← Json.required Json.asU16 fields "bps" }
  | _ => none

/-- The fields of a `SessionRequest` in JSON. -/
def SessionRequest.fields (request : SessionRequest) : List (String × Option Json) := [
    ("cap", some (.str request.cap)),
    ("currency", some (.str request.currency)),
    ("decimals", request.decimals.map fun n => .unsigned n.toUInt64),
    ("network", request.network.map .str),
    ("operator", some (.str request.operator)),
    ("recipient", some (.str request.recipient)),
    ("splits", Json.nonEmpty SessionSplit.toJson request.splits),
    ("programId", request.programId.map .str),
    ("description", request.description.map .str),
    ("externalId", request.externalId.map .str),
    ("minVoucherDelta", request.minVoucherDelta.map .str),
    ("modes", Json.nonEmpty SessionMode.toJson request.modes),
    ("pullVoucherStrategy", request.pullVoucherStrategy.map (·.toJson)),
    ("recentBlockhash", request.recentBlockhash.map .str)]

/-- `SessionRequest` to JSON. -/
def SessionRequest.toJson (request : SessionRequest) : Json := .object request.fields

/-- `SessionRequest` from JSON. -/
def SessionRequest.ofJson : Json → Option SessionRequest
  | .obj fields => do
      return {
        cap := ← Json.required Json.asStr fields "cap"
        currency := ← Json.required Json.asStr fields "currency"
        decimals := ← Json.optional Json.asU8 fields "decimals"
        network := ← Json.optional Json.asStr fields "network"
        operator := ← Json.required Json.asStr fields "operator"
        recipient := ← Json.required Json.asStr fields "recipient"
        splits := ← Json.defaulted SessionSplit.ofJson fields "splits"
        programId := ← Json.optional Json.asStr fields "programId"
        description := ← Json.optional Json.asStr fields "description"
        externalId := ← Json.optional Json.asStr fields "externalId"
        minVoucherDelta := ← Json.optional Json.asStr fields "minVoucherDelta"
        modes := ← Json.defaulted SessionMode.ofJson fields "modes"
        pullVoucherStrategy :=
          ← Json.optional SessionPullVoucherStrategy.ofJson fields "pullVoucherStrategy"
        recentBlockhash := ← Json.optional Json.asStr fields "recentBlockhash" }
  | _ => none

/-- `serialize_optional_u64_as_string`, of a value that is there. -/
def u64ToString (n : UInt64) : Json := .str (toString n)

/-- `deserialize_optional_u64_from_string_or_number`, of a field that is neither absent nor
`null`. -/
def u64FromStringOrNumber : Json → Option UInt64
  | .str s => parseU64 s
  | .unsigned n => some n
  | _ => none

/-- The fields of an `OpenPayload` in JSON. -/
def OpenPayload.fields (payload : OpenPayload) : List (String × Option Json) := [
    ("mode", some payload.mode.toJson),
    ("channelId", payload.channelId.map .str),
    ("deposit", payload.deposit.map .str),
    ("payer", payload.payer.map .str),
    ("payee", payload.payee.map .str),
    ("mint", payload.mint.map .str),
    ("salt", payload.salt.map u64ToString),
    ("gracePeriod", payload.gracePeriod.map fun n => .unsigned n.toUInt64),
    ("transaction", payload.transaction.map .str),
    ("tokenAccount", payload.tokenAccount.map .str),
    ("approvedAmount", payload.approvedAmount.map .str),
    ("owner", payload.owner.map .str),
    ("initMultiDelegateTx", payload.initMultiDelegateTx.map .str),
    ("updateDelegationTx", payload.updateDelegationTx.map .str),
    ("authorizedSigner", some (.str payload.authorizedSigner)),
    ("signature", some (.str payload.signature))]

/-- `OpenPayload` to JSON. -/
def OpenPayload.toJson (payload : OpenPayload) : Json := .object payload.fields

/-- `OpenPayload` from JSON. -/
def OpenPayload.ofJson : Json → Option OpenPayload
  | .obj fields => do
      return {
        mode := ← Json.required SessionMode.ofJson fields "mode"
        channelId := ← Json.optional Json.asStr fields "channelId"
        deposit := ← Json.optional Json.asStr fields "deposit"
        payer := ← Json.optional Json.asStr fields "payer"
        payee := ← Json.optional Json.asStr fields "payee"
        mint := ← Json.optional Json.asStr fields "mint"
        salt := ← Json.optional u64FromStringOrNumber fields "salt"
        gracePeriod := ← Json.optional Json.asU32 fields "gracePeriod"
        transaction := ← Json.optional Json.asStr fields "transaction"
        tokenAccount := ← Json.optional Json.asStr fields "tokenAccount"
        approvedAmount := ← Json.optional Json.asStr fields "approvedAmount"
        owner := ← Json.optional Json.asStr fields "owner"
        initMultiDelegateTx := ← Json.optional Json.asStr fields "initMultiDelegateTx"
        updateDelegationTx := ← Json.optional Json.asStr fields "updateDelegationTx"
        authorizedSigner := ← Json.required Json.asStr fields "authorizedSigner"
        signature := ← Json.required Json.asStr fields "signature" }
  | _ => none

/-! ## What is written is read back -/

section Survival
open Json
variable (c : Carriage)

theorem SessionMode.survives : Survives c toJson ofJson where
  read_carry mode := by cases mode <;> rw [toJson, c.carry_str] <;> rfl
  read_null := rfl

theorem SessionPullVoucherStrategy.survives : Survives c toJson ofJson where
  read_carry strategy := by cases strategy <;> rw [toJson, c.carry_str] <;> rfl
  read_null := rfl

/-- A salt survives as a string, whatever its size. -/
theorem survives_u64 : Survives c u64ToString u64FromStringOrNumber where
  read_carry n := by
    rw [u64ToString, c.carry_str]
    exact parseU64_toString n
  read_null := rfl

theorem SessionSplit.survives : Survives c toJson ofJson where
  read_carry split := by
    have hnames : (split.fields.map Prod.fst).Nodup := by simp [fields]
    obtain ⟨arrived, hobj, harrived⟩ := c.carry_object hnames
    have hrecipient : required asStr arrived "recipient" = some split.recipient :=
      harrived.required_eq (survives_str c) rfl
    have hbps : required asU16 arrived "bps" = some split.bps :=
      harrived.required_eq (survives_u16 c) rfl
    rw [toJson, hobj]
    simp only [ofJson, hrecipient, hbps]
    rfl
  read_null := rfl

/-- **A challenge request is read back**, with the splits and modes that were left out when
empty. -/
theorem SessionRequest.ofJson_carry (request : SessionRequest) :
    ofJson (c.carry request.toJson) = some request := by
  have hnames : (request.fields.map Prod.fst).Nodup := by simp [fields]
  obtain ⟨arrived, hobj, harrived⟩ := c.carry_object hnames
  have hcap : required asStr arrived "cap" = some request.cap :=
    harrived.required_eq (survives_str c) rfl
  have hcurrency : required asStr arrived "currency" = some request.currency :=
    harrived.required_eq (survives_str c) rfl
  have hdecimals : optional asU8 arrived "decimals" = some request.decimals :=
    harrived.optional_eq (survives_u8 c) rfl
  have hnetwork : optional asStr arrived "network" = some request.network :=
    harrived.optional_eq (survives_str c) rfl
  have hoperator : required asStr arrived "operator" = some request.operator :=
    harrived.required_eq (survives_str c) rfl
  have hrecipient : required asStr arrived "recipient" = some request.recipient :=
    harrived.required_eq (survives_str c) rfl
  have hsplits : defaulted SessionSplit.ofJson arrived "splits" = some request.splits :=
    harrived.defaulted_eq (SessionSplit.survives c) rfl
  have hprogramId : optional asStr arrived "programId" = some request.programId :=
    harrived.optional_eq (survives_str c) rfl
  have hdescription : optional asStr arrived "description" = some request.description :=
    harrived.optional_eq (survives_str c) rfl
  have hexternalId : optional asStr arrived "externalId" = some request.externalId :=
    harrived.optional_eq (survives_str c) rfl
  have hminVoucherDelta : optional asStr arrived "minVoucherDelta" = some request.minVoucherDelta :=
    harrived.optional_eq (survives_str c) rfl
  have hmodes : defaulted SessionMode.ofJson arrived "modes" = some request.modes :=
    harrived.defaulted_eq (SessionMode.survives c) rfl
  have hpullVoucherStrategy : optional SessionPullVoucherStrategy.ofJson arrived "pullVoucherStrategy" = some request.pullVoucherStrategy :=
    harrived.optional_eq (SessionPullVoucherStrategy.survives c) rfl
  have hrecentBlockhash : optional asStr arrived "recentBlockhash" = some request.recentBlockhash :=
    harrived.optional_eq (survives_str c) rfl
  rw [toJson, hobj]
  simp only [ofJson, hcap, hcurrency, hdecimals, hnetwork, hoperator, hrecipient, hsplits,
    hprogramId, hdescription, hexternalId, hminVoucherDelta, hmodes, hpullVoucherStrategy,
    hrecentBlockhash]
  rfl

/-- **An `open` action is read back.** -/
theorem OpenPayload.ofJson_carry (payload : OpenPayload) :
    ofJson (c.carry payload.toJson) = some payload := by
  have hnames : (payload.fields.map Prod.fst).Nodup := by simp [fields]
  obtain ⟨arrived, hobj, harrived⟩ := c.carry_object hnames
  have hmode : required SessionMode.ofJson arrived "mode" = some payload.mode :=
    harrived.required_eq (SessionMode.survives c) rfl
  have hchannelId : optional asStr arrived "channelId" = some payload.channelId :=
    harrived.optional_eq (survives_str c) rfl
  have hdeposit : optional asStr arrived "deposit" = some payload.deposit :=
    harrived.optional_eq (survives_str c) rfl
  have hpayer : optional asStr arrived "payer" = some payload.payer :=
    harrived.optional_eq (survives_str c) rfl
  have hpayee : optional asStr arrived "payee" = some payload.payee :=
    harrived.optional_eq (survives_str c) rfl
  have hmint : optional asStr arrived "mint" = some payload.mint :=
    harrived.optional_eq (survives_str c) rfl
  have hsalt : optional u64FromStringOrNumber arrived "salt" = some payload.salt :=
    harrived.optional_eq (survives_u64 c) rfl
  have hgracePeriod : optional asU32 arrived "gracePeriod" = some payload.gracePeriod :=
    harrived.optional_eq (survives_u32 c) rfl
  have htransaction : optional asStr arrived "transaction" = some payload.transaction :=
    harrived.optional_eq (survives_str c) rfl
  have htokenAccount : optional asStr arrived "tokenAccount" = some payload.tokenAccount :=
    harrived.optional_eq (survives_str c) rfl
  have happrovedAmount : optional asStr arrived "approvedAmount" = some payload.approvedAmount :=
    harrived.optional_eq (survives_str c) rfl
  have howner : optional asStr arrived "owner" = some payload.owner :=
    harrived.optional_eq (survives_str c) rfl
  have hinitMultiDelegateTx : optional asStr arrived "initMultiDelegateTx" = some payload.initMultiDelegateTx :=
    harrived.optional_eq (survives_str c) rfl
  have hupdateDelegationTx : optional asStr arrived "updateDelegationTx" = some payload.updateDelegationTx :=
    harrived.optional_eq (survives_str c) rfl
  have hauthorizedSigner : required asStr arrived "authorizedSigner" = some payload.authorizedSigner :=
    harrived.required_eq (survives_str c) rfl
  have hsignature : required asStr arrived "signature" = some payload.signature :=
    harrived.required_eq (survives_str c) rfl
  rw [toJson, hobj]
  simp only [ofJson, hmode, hchannelId, hdeposit, hpayer, hpayee, hmint, hsalt, hgracePeriod,
    htransaction, htokenAccount, happrovedAmount, howner, hinitMultiDelegateTx,
    hupdateDelegationTx, hauthorizedSigner, hsignature]
  rfl

end Survival

end MppSdk
