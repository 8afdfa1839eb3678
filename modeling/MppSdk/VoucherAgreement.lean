import MppSdk.TsSessionClient

/-! # One voucher message on both sides

The TypeScript client writes the bytes of a voucher at fixed offsets from amounts that callers
spell as they like; the Rust server derives them through Borsh.  Both come to the same 48 bytes,
for every channel, every unsigned amount and every signed expiry, and the bytes determine the
three of them (`voucher_bytes_agree`). -/

namespace MppSdk

theorem leBytes_inj {k m n : Nat} (hm : m < 256 ^ k) (hn : n < 256 ^ k)
    (h : leBytes k m = leBytes k n) : m = n := by
  have hread : fromLeBytes (leBytes k m) = fromLeBytes (leBytes k n) := by rw [h]
  rwa [fromLeBytes_leBytes, fromLeBytes_leBytes, Nat.mod_eq_of_lt hm, Nat.mod_eq_of_lt hn] at hread

/-- What a voucher says. -/
structure VoucherTerms where
  channelId : Pubkey
  cumulative : UInt64
  expiresAt : Int64
deriving DecidableEq

namespace VoucherTerms

/-- What is signed for a voucher. -/
def message (terms : VoucherTerms) : List UInt8 :=
  voucherMessageBytes terms.channelId terms.cumulative terms.expiresAt

/-- **The message of a voucher determines what it says.** -/
theorem message_injective : Function.Injective message := by
  intro a b h
  obtain ⟨hfront, hexpires⟩ := List.append_inj' h (by simp)
  obtain ⟨hchannel, hcumulative⟩ := List.append_inj hfront (by simp [Bytes.length_toList])
  have hchannel : a.channelId = b.channelId := Bytes.ext_toList hchannel
  have hcumulative : a.cumulative = b.cumulative :=
    UInt64.toNat_inj.mp (leBytes_inj a.cumulative.toNat_lt b.cumulative.toNat_lt hcumulative)
  have hword : a.expiresAt.toUInt64 = b.expiresAt.toUInt64 :=
    UInt64.toNat_inj.mp
      (leBytes_inj a.expiresAt.toUInt64.toNat_lt b.expiresAt.toUInt64.toNat_lt hexpires)
  have hexpires : a.expiresAt = b.expiresAt := by
    rw [← Int64.toInt64_toUInt64 a.expiresAt, hword, Int64.toInt64_toUInt64]
  cases a
  cases b
  simp_all

end VoucherTerms

/-- The server reads these terms off the voucher. -/
def VoucherData.Denotes (data : VoucherData) (terms : VoucherTerms) : Prop :=
  Bytes.fromBase58 32 data.channelId = some terms.channelId ∧
    parseU64 data.cumulative = some terms.cumulative ∧ data.expiresAt = terms.expiresAt

theorem VoucherData.Denotes.messageBytes {data : VoucherData} {terms : VoucherTerms}
    (h : data.Denotes terms) : data.messageBytes = .ok terms.message := by
  obtain ⟨hchannel, hcumulative, hexpires⟩ := h
  refine VoucherData.messageBytes_eq_ok.mpr ⟨_, _, hchannel, hcumulative, ?_⟩
  rw [hexpires, VoucherTerms.message]

namespace Ts

/-- The number an amount is written for. -/
def AmountLike.Denotes : AmountLike → Int → Prop
  | .bigint m, n => m = n
  | .number m, n => m = some n
  | .text s, n => IsDigits s ∧ n = (Nat.ofDigitChars 10 s.toList 0 : Nat)

/-- **Which amounts are read**, and as what. -/
theorem parseInteger_eq_ok {value : AmountLike} {name : String} {n : Int} :
    parseInteger value name = .ok n ↔ value.Denotes n := by
  rcases value with m | m | s
  · simp [parseInteger, AmountLike.Denotes, pure, Except.pure]
  · simp [parseInteger, AmountLike.Denotes, okOrElse_eq_ok]
  · simp only [parseInteger, AmountLike.Denotes, bind_eq_ok, rejectIf_eq_ok, not_not]
    constructor
    · rintro ⟨_, hdigits, hread⟩
      rw [bigInt, parseBigInt_of_digits hdigits] at hread
      exact ⟨hdigits, (Except.ok.inj hread).symm⟩
    · rintro ⟨hdigits, rfl⟩
      exact ⟨(), hdigits, by rw [bigInt, parseBigInt_of_digits hdigits]; rfl⟩

theorem parseAmount_of_denotes {value : AmountLike} {name : String} {n : UInt64}
    (h : value.Denotes n.toNat) : parseAmount value name = .ok n.toNat := by
  have hlt := n.toNat_lt
  have hsigned : ¬ (n.toNat : Int) < 0 := by omega
  have hfits : ¬ (n.toNat : Int) > U64_MAX := by
    unfold U64_MAX
    omega
  simp only [parseAmount, bind_eq_ok, parseInteger_eq_ok, rejectIf_eq_ok, pure, Except.pure]
  exact ⟨_, h, (), hsigned, (), hfits, rfl⟩

theorem parseI64_of_denotes {value : AmountLike} {name : String} {n : Int64}
    (h : value.Denotes n.toInt) : parseI64 value name = .ok n.toInt := by
  have hlo := n.le_toInt
  have hhi := n.toInt_lt
  have hfits : ¬ (n.toInt < -2 ^ 63 ∨ n.toInt > 2 ^ 63 - 1) := by omega
  simp only [parseI64, bind_eq_ok, parseInteger_eq_ok, rejectIf_eq_ok, pure, Except.pure]
  exact ⟨_, h, (), hfits, rfl⟩

/-- `VoucherDataInput`, as `voucherMessageBytes` reads it. -/
structure VoucherDataInput where
  channelId : String
  cumulative : Option AmountLike := none
  cumulativeAmount : Option AmountLike := none
  expiresAt : AmountLike
deriving DecidableEq

/-- `requiredCumulative`. -/
def requiredCumulative (data : VoucherDataInput) : Thrown AmountLike :=
  match data.cumulativeAmount, data.cumulative with
  | some amount, _ => return amount
  | none, some amount => return amount
  | none, none => error "cumulativeAmount required"

/-- `voucherMessageBytes`, of any input. -/
def voucherInputBytes (data : VoucherDataInput) : Thrown (List UInt8) := do
  let channelIdBytes ← okOrElse (Base58.decode data.channelId)
    { message := s!"{data.channelId} is not base58" }
  throwIf (channelIdBytes.length ≠ 32)
    s!"channelId must decode to 32 bytes; got {channelIdBytes.length}"
  let amount ← requiredCumulative data
  let cumulative ← parseAmount amount "cumulativeAmount"
  let expiresAt ← parseI64 data.expiresAt "expiresAt"
  return channelIdBytes ++ leBytes 8 cumulative ++ leBytes 8 (Int64.ofInt expiresAt).toUInt64.toNat

/-- The voucher of an active session as an input. -/
def VoucherData.toInput (data : VoucherData) : VoucherDataInput where
  channelId := data.channelId
  cumulativeAmount := some (.text data.cumulativeAmount)
  expiresAt := .ofNumber data.expiresAt

/-- What an active session signs is what `voucherMessageBytes` makes of its voucher. -/
theorem voucherMessageBytes_eq (data : VoucherData) :
    voucherMessageBytes data = voucherInputBytes data.toInput := rfl

namespace VoucherDataInput

/-- The input spells these terms, in whichever way. -/
def Denotes (data : VoucherDataInput) (terms : VoucherTerms) : Prop :=
  Base58.decode data.channelId = some terms.channelId.toList ∧
    (∃ amount, requiredCumulative data = .ok amount ∧ amount.Denotes terms.cumulative.toNat) ∧
    data.expiresAt.Denotes terms.expiresAt.toInt

/-- The terms as the client writes them, its integers as `bigint`s. -/
def ofTerms (terms : VoucherTerms) : VoucherDataInput where
  channelId := terms.channelId.toBase58
  cumulativeAmount := some (.bigint terms.cumulative.toNat)
  expiresAt := .bigint terms.expiresAt.toInt

theorem denotes_ofTerms (terms : VoucherTerms) : (ofTerms terms).Denotes terms := by
  refine ⟨?_, ⟨_, rfl, rfl⟩, rfl⟩
  exact Base58.decode_eq_some.mpr rfl

/-- **The client writes the message of what it is told.** -/
theorem Denotes.voucherInputBytes {data : VoucherDataInput} {terms : VoucherTerms}
    (h : data.Denotes terms) : voucherInputBytes data = .ok terms.message := by
  obtain ⟨hchannel, ⟨amount, hrequired, hamount⟩, hexpires⟩ := h
  have hlength : ¬ terms.channelId.toList.length ≠ 32 := not_not.mpr terms.channelId.length_toList
  simp only [Ts.voucherInputBytes, hchannel, bind_eq_ok, okOrElse_eq_ok, rejectIf_eq_ok, pure,
    Except.pure]
  refine ⟨_, rfl, (), hlength, amount, hrequired, _, parseAmount_of_denotes hamount, _,
    parseI64_of_denotes hexpires, ?_⟩
  rw [Int64.ofInt_toInt]
  rfl

end VoucherDataInput
end Ts

/-- The terms as the server receives them from the client. -/
def VoucherData.ofTerms (terms : VoucherTerms) : VoucherData where
  channelId := terms.channelId.toBase58
  cumulative := toString terms.cumulative
  expiresAt := terms.expiresAt

theorem VoucherData.denotes_ofTerms (terms : VoucherTerms) :
    (VoucherData.ofTerms terms).Denotes terms :=
  ⟨Bytes.fromBase58_toBase58 terms.channelId, parseU64_toString terms.cumulative, rfl⟩

/-- **Voucher bytes agree and are injective.**  Any terms can be put to the client and to the
server; however they are spelled, the client signs the message that the server verifies, and no
two terms share a message. -/
theorem voucher_bytes_agree :
    (∀ terms, (Ts.VoucherDataInput.ofTerms terms).Denotes terms ∧
      (VoucherData.ofTerms terms).Denotes terms) ∧
    (∀ (terms : VoucherTerms) (sent : Ts.VoucherDataInput) (received : VoucherData),
      sent.Denotes terms → received.Denotes terms →
        Ts.voucherInputBytes sent = .ok terms.message ∧
          received.messageBytes = .ok terms.message) ∧
    Function.Injective VoucherTerms.message := by
  refine ⟨fun terms => ⟨?_, ?_⟩, ?_, VoucherTerms.message_injective⟩
  · exact Ts.VoucherDataInput.denotes_ofTerms terms
  · exact VoucherData.denotes_ofTerms terms
  · intro terms sent received hsent hreceived
    exact ⟨hsent.voucherInputBytes, hreceived.messageBytes⟩

end MppSdk
