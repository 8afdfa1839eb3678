import MppSdk.Base58
import Mathlib.Data.Int.Basic

/-! # Vouchers and their signatures

A voucher names a channel, a cumulative amount and an expiry.  What is signed is the
on-chain `VoucherArgs` layout of these three, so a signature speaks about exactly one
channel, one amount and one expiry.  The Ed25519 scheme itself is a parameter. -/

namespace MppSdk

/-- The crate's errors, as far as the session code returns them. -/
inductive Error : Type
  | other (message : String)
deriving DecidableEq, Repr

/-- `Display` of an error. -/
def Error.text : Error → String
  | .other message => message

/-- The content of a voucher. -/
structure VoucherData where
  channelId : String
  cumulative : String
  expiresAt : Int64
  nonce : Option UInt64 := none
deriving DecidableEq

/-- A voucher with the Base58 text of its signature. -/
structure SignedVoucher where
  data : VoucherData
  signature : String
deriving DecidableEq

/-- The signature scheme: which 32 bytes are a verifying key, and strict verification of
a signature on a message. -/
structure Ed25519 where
  validKey : Pubkey → Bool
  verifyStrict : Pubkey → List UInt8 → Signature → Bool

/-- A stand-in for the scheme that closed runs can evaluate: the last byte of a signature
is the sum of the bytes of the key and the message. -/
def checksumScheme : Ed25519 where
  validKey _ := true
  verifyStrict key message sig :=
    sig.toList = List.replicate 63 0 ++ [(key.toList ++ message).sum]

/-- `payment_channels::parse_pubkey`. -/
def parseChannelPubkey (value : String) : RustResult Error Pubkey :=
  okOrElse (Bytes.fromBase58 32 value) (.other s!"invalid pubkey {value}")

/-- The Borsh bytes of `VoucherArgs`: its fields in order, integers little-endian. -/
def voucherMessageBytes (channelId : Pubkey) (cumulativeAmount : UInt64) (expiresAt : Int64) :
    List UInt8 :=
  channelId.toList ++ leBytes 8 cumulativeAmount.toNat ++ leBytes 8 expiresAt.toUInt64.toNat

/-- `VoucherData::message_bytes`. -/
def VoucherData.messageBytes (data : VoucherData) : RustResult Error (List UInt8) := do
  let channelId ← parseChannelPubkey data.channelId
  let cumulative ← okOrElse (parseU64 data.cumulative) (.other "invalid voucher cumulative")
  return voucherMessageBytes channelId cumulative data.expiresAt

/-- `verify_signature`: the voucher is not expired and carries its signer's signature. -/
def verifySignature (ed : Ed25519) (now : Int64) (voucher : SignedVoucher)
    (authorizedSigner : String) : RustResult Error Unit := do
  rejectIf (voucher.data.expiresAt ≤ now) (.other "Voucher has expired")
  let message ← voucher.data.messageBytes
  let sigBytes ← okOrElse (Base58.decode voucher.signature) (.other "Invalid signature encoding")
  let pubkeyBytes ← okOrElse (Base58.decode authorizedSigner) (.other "Invalid authorized_signer")
  let key ← okOrElse (Bytes.ofList? 32 pubkeyBytes) (.other "Pubkey is not 32 bytes")
  let sig ← okOrElse (Bytes.ofList? 64 sigBytes) (.other "Signature is not 64 bytes")
  rejectIf (ed.validKey key = false) (.other "Invalid authorized_signer key")
  rejectIf (ed.verifyStrict key message sig = false)
    (.other "Voucher signature verification failed")

/-- `signature` is the signature of `authorizedSigner` on the voucher for this channel,
amount and expiry. -/
def Ed25519.Accepts (ed : Ed25519) (authorizedSigner channelId : String) (cumulative : UInt64)
    (expiresAt : Int64) (signature : String) : Prop :=
  ∃ key channel sig,
    Bytes.fromBase58 32 authorizedSigner = some key ∧
    Bytes.fromBase58 32 channelId = some channel ∧
    Bytes.fromBase58 64 signature = some sig ∧
    ed.validKey key ∧
    ed.verifyStrict key (voucherMessageBytes channel cumulative expiresAt) sig

instance (ed : Ed25519) (authorizedSigner channelId : String) (cumulative : UInt64)
    (expiresAt : Int64) (signature : String) :
    Decidable (ed.Accepts authorizedSigner channelId cumulative expiresAt signature) :=
  decidable_of_iff (∃ key ∈ Bytes.fromBase58 32 authorizedSigner,
    ∃ channel ∈ Bytes.fromBase58 32 channelId, ∃ sig ∈ Bytes.fromBase58 64 signature,
      ed.validKey key ∧
        ed.verifyStrict key (voucherMessageBytes channel cumulative expiresAt) sig)
    ⟨fun ⟨key, hkey, channel, hch, sig, hsig, hv⟩ => ⟨key, channel, sig, hkey, hch, hsig, hv⟩,
      fun ⟨key, channel, sig, hkey, hch, hsig, hv⟩ => ⟨key, hkey, channel, hch, sig, hsig, hv⟩⟩

theorem VoucherData.messageBytes_eq_ok {data : VoucherData} {message : List UInt8} :
    data.messageBytes = .ok message ↔ ∃ channel cumulative,
      Bytes.fromBase58 32 data.channelId = some channel ∧
      parseU64 data.cumulative = some cumulative ∧
      message = voucherMessageBytes channel cumulative data.expiresAt := by
  simp only [messageBytes, parseChannelPubkey, bind_eq_ok, okOrElse_eq_ok, pure, Except.pure,
    Except.ok.injEq]
  constructor
  · rintro ⟨channel, hch, cumulative, hcum, rfl⟩
    exact ⟨channel, cumulative, hch, hcum, rfl⟩
  · rintro ⟨channel, cumulative, hch, hcum, rfl⟩
    exact ⟨channel, hch, cumulative, hcum, rfl⟩

/-- **What a verified voucher shows.** -/
theorem verifySignature_eq_ok {ed : Ed25519} {now : Int64} {voucher : SignedVoucher}
    {authorizedSigner : String} :
    verifySignature ed now voucher authorizedSigner = .ok () ↔
      ¬ voucher.data.expiresAt ≤ now ∧ ∃ cumulative,
        parseU64 voucher.data.cumulative = some cumulative ∧
        ed.Accepts authorizedSigner voucher.data.channelId cumulative voucher.data.expiresAt
          voucher.signature := by
  simp only [verifySignature, bind_eq_ok, rejectIf_eq_ok, okOrElse_eq_ok,
    VoucherData.messageBytes_eq_ok, Ed25519.Accepts, Bytes.fromBase58, Option.bind_eq_some_iff]
  constructor
  · rintro ⟨_, hexp, message, ⟨channel, cumulative, hch, hcum, rfl⟩, sigBytes, hsig, keyBytes,
      hkey, key, hkey', sig, hsig', _, hvalid, hverify⟩
    exact ⟨hexp, cumulative, hcum, key, channel, sig, ⟨keyBytes, hkey, hkey'⟩, hch,
      ⟨sigBytes, hsig, hsig'⟩, by simpa using hvalid, by simpa using hverify⟩
  · rintro ⟨hexp, cumulative, hcum, key, channel, sig, ⟨keyBytes, hkey, hkey'⟩, hch,
      ⟨sigBytes, hsig, hsig'⟩, hvalid, hverify⟩
    exact ⟨(), hexp, _, ⟨channel, cumulative, hch, hcum, rfl⟩, sigBytes, hsig, keyBytes, hkey,
      key, hkey', sig, hsig', (), by simpa using hvalid, by simpa using hverify⟩

end MppSdk
