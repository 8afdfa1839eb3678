import MppSdk.Solana
import MppSdk.Transaction

/-! # What `verify_pull` decodes

The two grammars are tried in order on the same bytes.  A v0 message begins with `0x80`
and its three header bytes; the legacy decoder takes the first three of these four as a
header and goes on at `num_readonly_unsigned_accounts`.  So the legacy decoder succeeds on
a v0 transaction exactly when its bytes from there on begin with some key list, blockhash
and instruction list (`ReadsAsLegacy`), and then something else is decoded
(`decode_wire_iff`). -/

namespace MppSdk

namespace VersionedMessage

/-- The bytes of a v0 message from `num_readonly_unsigned_accounts` on. -/
def v0Tail (header : MessageHeader) (body : MessageBody) (lookups : List AddressTableLookup) :
    List UInt8 :=
  header.numReadonlyUnsignedAccounts ::
    (bodyCodec.encode body ++ (shortVec lookupCodec).encode lookups)

/-- A v0 message whose bytes, from `num_readonly_unsigned_accounts` on, begin with a key
list, a blockhash and an instruction list. -/
def ReadsAsLegacy : VersionedMessage → Prop
  | .legacy _ _ => False
  | .v0 header body lookups =>
      ∃ body', bodyCodec.valid body' ∧ bodyCodec.encode body' <+: v0Tail header body lookups

/-- **A kind of message that reads as legacy**: with fewer than 128 keys, the key at index
`num_readonly_unsigned_accounts` ends in a zero byte, as the System program's does. -/
theorem readsAsLegacy_of_zero {header : MessageHeader} {body : MessageBody}
    {lookups : List AddressTableLookup} {key : Pubkey} {init : List UInt8}
    (hkeys : body.accountKeys.length < 0x80)
    (hkey : body.accountKeys[header.numReadonlyUnsignedAccounts.toNat]? = some key)
    (hzero : key.toList = init ++ [0]) : (v0 header body lookups).ReadsAsLegacy := by
  obtain ⟨hlt, hkey⟩ := List.getElem?_eq_some_iff.mp hkey
  have hinit : init.length = 31 := by
    have hlen := key.length_toList
    rw [hzero, List.length_append, List.length_singleton] at hlen
    omega
  -- the length byte, the keys before this one and its first 31 bytes make whole blocks
  let u := header.numReadonlyUnsignedAccounts.toNat
  let before := (body.accountKeys.take u).flatMap Bytes.toList
  have hbefore : before.length = u * 32 := by
    show ((body.accountKeys.take u).flatMap Bytes.toList).length = u * 32
    rw [List.length_flatMap, List.map_congr_left (fun (b : Pubkey) _ => b.length_toList),
      List.map_const', List.sum_replicate, List.length_take_of_le (by omega)]
    rfl
  have hflat : body.accountKeys.flatMap Bytes.toList = before ++ init ++ 0 ::
      (body.accountKeys.drop (u + 1)).flatMap Bytes.toList := by
    have hsplit : body.accountKeys =
        body.accountKeys.take u ++ key :: body.accountKeys.drop (u + 1) := by
      rw [← hkey, ← List.drop_eq_getElem_cons hlt, List.take_append_drop]
    conv_lhs => rw [hsplit]
    rw [List.flatMap_append, List.flatMap_cons, hzero]
    simp [before]
  have hblocks : (UInt8.ofNat body.accountKeys.length :: (before ++ init)).length =
      (u + 1) * 32 := by
    rw [List.length_cons, List.length_append, hbefore, hinit]
    omega
  obtain ⟨bs, hbs, hread⟩ := exists_blocks 32 (u + 1) _ hblocks
  obtain ⟨keys, hash, rfl⟩ := (List.eq_nil_or_concat bs).resolve_left (by
    intro hnil
    rw [hnil] at hbs
    cases hbs)
  rw [List.concat_eq_append] at hbs hread
  have hlen : keys.length = u := by
    rw [List.length_append, List.length_singleton] at hbs
    omega
  refine ⟨⟨keys, hash, []⟩, ⟨⟨?_, fun _ _ => trivial⟩, trivial, ?_, by simp⟩, ?_⟩
  · show keys.length < 65536
    omega
  · show 0 < 65536
    decide
  · refine ⟨(body.accountKeys.drop (u + 1)).flatMap Bytes.toList ++ (body.recentBlockhash.toList ++
      (shortVec instructionCodec).encode body.instructions) ++
        (shortVec lookupCodec).encode lookups, ?_⟩
    have hu : UInt8.ofNat u = header.numReadonlyUnsignedAccounts := UInt8.ofNat_toNat
    have hnil : (shortVec instructionCodec).encode [] = [0] := rfl
    rw [List.flatMap_append, List.flatMap_singleton] at hread
    rw [v0Tail, bodyCodec_encode, bodyCodec_encode, hlen, CompactU16.encode_of_lt (by omega), hu,
      CompactU16.encode_of_lt hkeys, hflat, hnil]
    simp only [List.append_assoc, List.cons_append, List.nil_append] at hread ⊢
    rw [← List.append_assoc (keys.flatMap Bytes.toList), hread]
    simp only [List.append_assoc, List.cons_append]

/-- A v0 message begins with what the legacy decoder takes for a header. -/
theorem serialize_v0 (header : MessageHeader) (body : MessageBody)
    (lookups : List AddressTableLookup) :
    (v0 header body lookups).serialize =
      headerCodec.encode ⟨versionPrefix, header.numRequiredSignatures,
        header.numReadonlySignedAccounts⟩ ++ v0Tail header body lookups := rfl

/-- The versioned decoder reads a v0 message back. -/
theorem deserialize_v0 {header : MessageHeader} {body : MessageBody}
    {lookups : List AddressTableLookup} (h : (v0 header body lookups).Writable) :
    deserialize (v0 header body lookups).serialize = some (v0 header body lookups, []) := by
  have hdecode := v0Codec.decode_encode (header, body, lookups) [] h
  rw [List.append_nil] at hdecode
  show (v0Codec.decode (v0Codec.encode (header, body, lookups))).map _ = _
  rw [hdecode]
  rfl

end VersionedMessage

namespace VersionedTransaction
open VersionedMessage

/-- A legacy transaction is read back by the decoder that is tried first. -/
theorem deserializeLegacy_legacy {signatures : List Signature} {header : MessageHeader}
    {body : MessageBody} (h : HasWire ⟨signatures, .legacy header body⟩) :
    deserializeLegacy (wire ⟨signatures, .legacy header body⟩) =
      some ⟨signatures, .legacy header body⟩ := by
  have hdecode := legacyTransactionCodec.decode_encode (signatures, header, body) [] h
  rw [List.append_nil] at hdecode
  show (legacyTransactionCodec.decode
    (legacyTransactionCodec.encode (signatures, header, body))).map _ = _
  rw [hdecode]
  rfl

/-- What the legacy decoder makes of a v0 transaction. -/
theorem deserializeLegacy_v0 {signatures : List Signature} {header : MessageHeader}
    {body : MessageBody} {lookups : List AddressTableLookup}
    (h : signaturesCodec.valid signatures) :
    deserializeLegacy (wire ⟨signatures, .v0 header body lookups⟩) =
      (bodyCodec.decode (v0Tail header body lookups)).map fun r =>
        ⟨signatures, .legacy ⟨versionPrefix, header.numRequiredSignatures,
          header.numReadonlySignedAccounts⟩ r.1⟩ := by
  rw [deserializeLegacy, wire, serialize_v0, legacyTransactionCodec,
    Codec.pair_decode_append _ _ h, legacyCodec,
    Codec.pair_decode_append headerCodec bodyCodec ⟨trivial, trivial, trivial⟩]
  cases bodyCodec.decode (v0Tail header body lookups) <;> rfl

/-- The versioned decoder reads a v0 transaction back. -/
theorem deserialize_v0 {signatures : List Signature} {header : MessageHeader}
    {body : MessageBody} {lookups : List AddressTableLookup}
    (h : HasWire ⟨signatures, .v0 header body lookups⟩) :
    deserialize (wire ⟨signatures, .v0 header body lookups⟩) =
      some ⟨signatures, .v0 header body lookups⟩ := by
  obtain ⟨hsig, hmsg⟩ := h
  show (signaturesCodec.decode (signaturesCodec.encode signatures ++ _)).bind _ = _
  rw [signaturesCodec.decode_encode signatures _ hsig]
  show (VersionedMessage.deserialize (serialize _)).bind _ = _
  rw [VersionedMessage.deserialize_v0 hmsg]
  rfl

/-- **What is verified is what was sent, exactly when it does not read as legacy.** -/
theorem decode_wire_iff (tx : VersionedTransaction) (h : tx.HasWire) :
    decode tx.wire = some tx ↔ ¬ tx.message.ReadsAsLegacy := by
  obtain ⟨signatures, ⟨header, body⟩ | ⟨header, body, lookups⟩⟩ := tx
  · rw [decode, deserializeLegacy_legacy h]
    exact ⟨fun _ => id, fun _ => rfl⟩
  · have hreads := bodyCodec.decode_isSome_iff (l := v0Tail header body lookups)
    rw [decode, deserializeLegacy_v0 h.1, deserialize_v0 h]
    rcases hbody : bodyCodec.decode (v0Tail header body lookups) with _ | r
    · rw [hbody] at hreads
      exact ⟨fun _ hr => absurd (hreads.mpr hr) (by decide), fun _ => rfl⟩
    · rw [hbody] at hreads
      refine ⟨fun heq => ?_, fun hr => absurd (hreads.mp rfl) hr⟩
      cases heq

/-! ## An ordinary v0 payment -/

/-- A v0 SOL payment: a compute unit limit and a System transfer of 1000 lamports, the two
programs being the read-only accounts. -/
def v0Payment : VersionedTransaction where
  signatures := [.replicate 64 1]
  message := .v0 ⟨1, 0, 2⟩
    { accountKeys := [.replicate 32 1, .replicate 32 2, .replicate 32 0, programs.computeBudgetKey]
      recentBlockhash := .replicate 32 3
      instructions := [⟨3, [], [2, 64, 13, 3, 0]⟩,
        ⟨2, [0, 1], [2, 0, 0, 0, 232, 3, 0, 0, 0, 0, 0, 0]⟩] } []

theorem v0Payment_hasWire : v0Payment.HasWire := by
  simp [HasWire, Writable, v0Payment, Bytes.replicate, signaturesCodec, v0Codec, bodyCodec,
    headerCodec, shortVec, instructionCodec, Codec.counted, Codec.pair, Codec.iso, Codec.symbol, block,
    compactU16]

/-- The condition on the ordinary payment. -/
theorem v0Payment_decode_iff : v0Payment.HasWire ∧
    (decode v0Payment.wire = some v0Payment ↔ ¬ v0Payment.message.ReadsAsLegacy) :=
  ⟨v0Payment_hasWire, decode_wire_iff v0Payment v0Payment_hasWire⟩

/-- The ordinary payment is decoded as a legacy transaction without instructions. -/
theorem v0Payment_not_decoded : ¬ (v0Payment.HasWire → decode v0Payment.wire = some v0Payment) := by
  intro h
  have hdecode := h v0Payment_hasWire
  exact absurd hdecode (by decide +kernel)

end VersionedTransaction
end MppSdk
