import MppSdk.Solana
import MppSdk.Voucher

/-! # Session payloads and configuration

`protocol/intents/session.rs` and the first part of `server/session.rs`: what clients
send, how the server is configured and what it answers. -/

namespace MppSdk

/-- `SessionMode`. -/
inductive SessionMode : Type
  | push
  | pull
deriving DecidableEq

/-- `Debug` of a session mode. -/
def SessionMode.debug : SessionMode → String
  | .push => "Push"
  | .pull => "Pull"

/-- `SessionPullVoucherStrategy`. -/
inductive SessionPullVoucherStrategy : Type
  | clientVoucher
  | operatedVoucher
deriving DecidableEq

/-! ## Client payloads -/

/-- The `open` action. -/
structure OpenPayload where
  mode : SessionMode
  channelId : Option String := none
  deposit : Option String := none
  payer : Option String := none
  payee : Option String := none
  mint : Option String := none
  salt : Option UInt64 := none
  gracePeriod : Option UInt32 := none
  transaction : Option String := none
  tokenAccount : Option String := none
  approvedAmount : Option String := none
  owner : Option String := none
  initMultiDelegateTx : Option String := none
  updateDelegationTx : Option String := none
  authorizedSigner : String
  signature : String
deriving DecidableEq

namespace OpenPayload

/-- `OpenPayload::session_id`: the store key of the session. -/
def sessionId (payload : OpenPayload) : RustResult Error String :=
  match payload.channelId with
  | some channelId => .ok channelId
  | none =>
      match payload.mode with
      | .push => .error (.error (.other "push open missing channelId"))
      | .pull =>
          okOrElse payload.tokenAccount (.other "pull open missing channelId or tokenAccount")

/-- `OpenPayload::deposit_amount`. -/
def depositAmount (payload : OpenPayload) : RustResult Error UInt64 := do
  let raw ← match payload.deposit with
    | some deposit => .ok deposit
    | none =>
        match payload.mode with
        | .push => .error (.error (.other "push open missing deposit"))
        | .pull =>
            okOrElse payload.approvedAmount (.other "pull open missing deposit or approvedAmount")
  okOrElse (parseU64 raw) (.other s!"invalid deposit amount: {raw}")

end OpenPayload

/-- The `voucher` action. -/
structure VoucherPayload where
  voucher : SignedVoucher
deriving DecidableEq

/-- The `commit` action. -/
structure CommitPayload where
  deliveryId : String
  voucher : SignedVoucher
deriving DecidableEq

/-- The `topup` action. -/
structure TopUpPayload where
  channelId : String
  newDeposit : String
  signature : String
deriving DecidableEq

/-- The `close` action. -/
structure ClosePayload where
  channelId : String
  voucher : Option SignedVoucher := none
deriving DecidableEq

/-- A request of the host to reserve a metered delivery. -/
structure DeliveryRequest where
  sessionId : String
  amount : UInt64
  deliveryId : Option String := none
  commitUrl : Option String := none
  proof : Option String := none
  expiresAt : Option Int64 := none
deriving DecidableEq

/-- `DEFAULT_SESSION_EXPIRES_AT`: 2100-01-01T00:00:00Z. -/
def DEFAULT_SESSION_EXPIRES_AT : Int64 := 4102444800

/-! ## Server answers -/

/-- The directive a client commits after processing a delivery. -/
structure MeteringDirective where
  deliveryId : String
  sessionId : String
  amount : String
  currency : String
  sequence : UInt64
  expiresAt : Int64
  commitUrl : Option String
  proof : Option String
deriving DecidableEq

/-- `CommitStatus`. -/
inductive CommitStatus : Type
  | committed
  | replayed
deriving DecidableEq

/-- The receipt of a commit. -/
structure CommitReceipt where
  deliveryId : String
  sessionId : String
  amount : String
  cumulative : String
  status : CommitStatus
deriving DecidableEq

/-- A payment split committed at channel open; `bps` is its share in basis points. -/
structure SessionConfig.Split where
  recipient : Pubkey
  bps : UInt16
deriving DecidableEq

/-- `SessionConfig`. -/
structure SessionConfig where
  operator : String := ""
  recipient : String := ""
  splits : List SessionConfig.Split := []
  maxCap : UInt64 := 10000000
  currency : String := "USDC"
  decimals : UInt8 := 6
  network : String := "mainnet-beta"
  programId : Option Pubkey := none
  minVoucherDelta : UInt64 := 0
  modes : List SessionMode := [.push]
  pullVoucherStrategy : Option SessionPullVoucherStrategy := none
  rpcUrl : Option String := none

/-- What the caller needs to settle a channel on-chain. -/
structure FinalizeParams where
  channelId : Pubkey
  authorizedSigner : Option Pubkey
  payer : Option Pubkey
  mint : Option Pubkey
  programId : Pubkey
  settled : UInt64
  voucherSignature : Option String
  voucherExpiresAt : Option Int64
  recipient : Pubkey
  splits : List SessionConfig.Split
  distributionHash : Hash
deriving DecidableEq

/-! ## Keys in a configuration -/

/-- `PAYMENT_CHANNELS_PROGRAM_ID`. -/
def PAYMENT_CHANNELS_PROGRAM_ID : String := "GuoKrzaBiZnW5DvJ3yZVE7xHqbcBvaX9SH6P6Cn9gNvc"

/-- `default_program_id`. -/
def defaultProgramId : Pubkey := pubkeyOf PAYMENT_CHANNELS_PROGRAM_ID (by decide +kernel)

/-- `parse_pubkey`. -/
def parsePubkey (s : String) : RustResult Error Pubkey := do
  let bytes ← okOrElse (Base58.decode s) (.other s!"Invalid pubkey {s}")
  okOrElse (Bytes.ofList? 32 bytes) (.other s!"Pubkey {s} is not 32 bytes")

/-- `parse_pubkey_field`. -/
def parsePubkeyField (value field : String) : RustResult Error Pubkey :=
  mapErr (fun e => .other s!"invalid payment-channel {field}: {e.text}") (parsePubkey value)

/-- `expected_payment_channel_mint`. -/
def expectedPaymentChannelMint (config : SessionConfig) : RustResult Error Pubkey := do
  let mint ← okOrElse (resolveStablecoinMint config.currency (some config.network))
    (.other "payment-channel sessions require an SPL token")
  parsePubkeyField mint "currency"

/-- `distribution_hash`: the number of recipients, then each key and share. -/
def distributionHash (blake3 : List UInt8 → Hash) (splits : List SessionConfig.Split) : Hash :=
  blake3 (leBytes 4 splits.length ++
    splits.flatMap (fun s => s.recipient.toList ++ leBytes 2 s.bps.toNat))

theorem parsePubkey_eq_ok {s : String} {key : Pubkey} :
    parsePubkey s = .ok key ↔ Bytes.fromBase58 32 s = some key := by
  simp [parsePubkey, bind_eq_ok, Bytes.fromBase58, Option.bind_eq_some_iff]

theorem parsePubkey_eq_error {s : String} (h : Bytes.fromBase58 32 s = none) :
    ∃ e, parsePubkey s = .error (.error e) := by
  unfold parsePubkey
  unfold Bytes.fromBase58 at h
  rcases hb : Base58.decode s with _ | bytes
  · exact ⟨_, rfl⟩
  · rw [hb] at h
    have hlen : Bytes.ofList? 32 bytes = none := h
    refine ⟨.other s!"Pubkey {s} is not 32 bytes", ?_⟩
    show okOrElse (Bytes.ofList? 32 bytes) _ = _
    rw [hlen]
    rfl

end MppSdk
