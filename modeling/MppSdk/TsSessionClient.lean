import MppSdk.Interleaving
import MppSdk.SessionTypes
import MppSdk.TsTypes

/-! # The TypeScript session client: vouchers

`client/Session.ts`: amounts as callers may write them, what is signed for a voucher, and
the local watermark of an `ActiveSession`. -/

namespace MppSdk
namespace Ts
open Script

/-! ## Amounts -/

/-- `AmountLike`; a number is known by its value where it is a safe integer. -/
inductive AmountLike : Type
  | bigint (n : Int)
  | number (n : Option Int)
  | text (s : String)
deriving DecidableEq

/-- `U64_MAX`. -/
def U64_MAX : Int := 2 ^ 64 - 1

/-- `Number.MAX_SAFE_INTEGER`. -/
def MAX_SAFE_INTEGER : Int := 2 ^ 53 - 1

/-- `/^\d+$/.test(value)`. -/
def IsDigits (s : String) : Prop := s.toList ≠ [] ∧ ∀ c ∈ s.toList, c.isDigit

instance (s : String) : Decidable (IsDigits s) :=
  @instDecidableAnd _ _ _ (List.decidableBAll _ _)

/-- `parseInteger`. -/
def parseInteger (value : AmountLike) (name : String) : Thrown Int :=
  match value with
  | .bigint n => return n
  | .number n => okOrElse n { message := s!"{name} must be a safe integer" }
  | .text s => do
      throwIf (¬ IsDigits s) s!"{name} must be an integer string"
      bigInt s

/-- `parseAmount`. -/
def parseAmount (value : AmountLike) (name : String) : Thrown Nat := do
  let parsed ← parseInteger value name
  throwIf (parsed < 0) s!"{name} must be non-negative"
  throwIf (parsed > U64_MAX) s!"{name} exceeds u64 max"
  return parsed.toNat

/-- `parseI64`. -/
def parseI64 (value : AmountLike) (name : String) : Thrown Int := do
  let parsed ← parseInteger value name
  throwIf (parsed < -2 ^ 63 ∨ parsed > 2 ^ 63 - 1) s!"{name} is outside i64 range"
  return parsed

/-- `parseSafeInteger`. -/
def parseSafeInteger (value : AmountLike) (name : String) : Thrown Nat := do
  let parsed ← parseInteger value name
  throwIf (parsed < 0) s!"{name} must be non-negative"
  throwIf (parsed > MAX_SAFE_INTEGER) s!"{name} exceeds Number.MAX_SAFE_INTEGER"
  return parsed.toNat

/-- A number of the runtime, as an amount. -/
def AmountLike.ofNumber (n : Nat) : AmountLike :=
  .number (if n ≤ MAX_SAFE_INTEGER then some (n : Int) else none)

theorem digitValue_of_isDigit {c : Char} (h : c.isDigit) : digitValue c = c.toNat - '0'.toNat := by
  obtain ⟨hlo, hhi⟩ := Char.isDigit_iff_toNat.mp h
  have hrange : '0' ≤ c ∧ c ≤ '9' := ⟨Char.le_def.mpr hlo, Char.le_def.mpr hhi⟩
  rw [digitValue, if_pos hrange]
  rfl

theorem not_isWhiteSpace_of_isDigit {c : Char} (h : c.isDigit) : ¬ isWhiteSpace c = true := by
  obtain ⟨hlo, hhi⟩ := Char.isDigit_iff_toNat.mp h
  have hlo : 0x30 ≤ c.toNat := hlo
  have hhi : c.toNat ≤ 0x39 := hhi
  simp [isWhiteSpace]
  omega

theorem digits_of_isDigit {cs : List Char} (hne : cs ≠ []) (h : ∀ c ∈ cs, c.isDigit) :
    digits 10 cs = some ((Nat.ofDigitChars 10 cs 0 : Nat) : Int) := by
  have hlt : cs.all (digitValue · < 10) := by
    refine List.all_eq_true.mpr fun c hc => decide_eq_true ?_
    obtain ⟨hlo, hhi⟩ := Char.isDigit_iff_toNat.mp (h c hc)
    have hlo : 0x30 ≤ c.toNat := hlo
    have hhi : c.toNat ≤ 0x39 := hhi
    rw [digitValue_of_isDigit (h c hc)]
    show c.toNat - 0x30 < 10
    omega
  have hvalue : cs.foldl (fun n c => 10 * n + digitValue c) 0 = Nat.ofDigitChars 10 cs 0 := by
    rw [Nat.ofDigitChars_eq_foldl]
    refine List.foldl_ext _ _ _ fun n c hc => ?_
    rw [digitValue_of_isDigit (h c hc)]
  rw [digits, if_pos ⟨hne, hlt⟩, hvalue]

/-- The value of a text of digits. -/
theorem parseBigInt_of_digits {s : String} (h : IsDigits s) :
    parseBigInt s = some ((Nat.ofDigitChars 10 s.toList 0 : Nat) : Int) := by
  obtain ⟨hne, hdigits⟩ := h
  have hspace : ∀ {cs : List Char}, (∀ c ∈ cs, c.isDigit) → cs.dropWhile isWhiteSpace = cs := by
    intro cs hcs
    rcases cs with _ | ⟨c, cs⟩
    · rfl
    · exact List.dropWhile_cons_of_neg (not_isWhiteSpace_of_isDigit (hcs c List.mem_cons_self))
  unfold parseBigInt
  rw [hspace hdigits, hspace fun c hc => hdigits c (List.mem_reverse.mp hc), List.reverse_reverse]
  -- no digit is a sign or the second character of a prefix
  split
  case h_1 heq => exact absurd heq hne
  case h_10 => exact digits_of_isDigit hne hdigits
  all_goals
    rename_i heq
    rw [heq] at hdigits
    simp at hdigits

/-- The text of an amount is read as that amount. -/
theorem parseAmount_toString {n : Nat} (h : n < 2 ^ 64) (name : String) :
    parseAmount (.text (toString n)) name = .ok n := by
  have htext : (toString n).toList = Nat.toDigits 10 n := Nat.toList_repr
  have hdigits : IsDigits (toString n) := by
    unfold IsDigits
    rw [htext]
    exact ⟨Nat.toDigits_ne_nil, fun c hc => Nat.isDigit_of_mem_toDigits (by decide) (by decide) hc⟩
  have hvalue : bigInt (toString n) = .ok (n : Int) := by
    rw [bigInt, parseBigInt_of_digits hdigits, htext, Nat.ofDigitChars_ten_toDigits]
    rfl
  have hsigned : ¬ (n : Int) < 0 := by omega
  have hfits : ¬ (n : Int) > U64_MAX := by
    unfold U64_MAX
    omega
  simp only [parseAmount, parseInteger, Bind.bind, Except.bind, throwIf,
    rejectIf_neg (not_not.mpr hdigits), hvalue, rejectIf_neg hsigned, rejectIf_neg hfits]
  rfl

theorem parseAmount_eq_ok {value : AmountLike} {name : String} {n : Nat}
    (h : parseAmount value name = .ok n) : n < 2 ^ 64 := by
  simp only [parseAmount, bind_eq_ok, rejectIf_eq_ok, pure, Except.pure, Except.ok.injEq] at h
  obtain ⟨parsed, -, _, -, _, hfits, rfl⟩ := h
  unfold U64_MAX at hfits
  omega

/-- An amount that is a `bigint` already. -/
theorem parseAmount_bigint {n : Nat} {name : String} :
    parseAmount (.bigint n) name = if n < 2 ^ 64 then .ok n else error s!"{name} exceeds u64 max" := by
  have hsigned : ¬ (n : Int) < 0 := by omega
  by_cases h : n < 2 ^ 64
  · have hfits : ¬ (n : Int) > U64_MAX := by
      unfold U64_MAX
      omega
    rw [if_pos h]
    simp only [parseAmount, parseInteger, Bind.bind, Except.bind, throwIf, pure, Except.pure,
      rejectIf_neg hsigned, rejectIf_neg hfits]
    rfl
  · have hfits : (n : Int) > U64_MAX := by
      unfold U64_MAX
      omega
    rw [if_neg h]
    simp only [parseAmount, parseInteger, Bind.bind, Except.bind, throwIf, pure, Except.pure,
      rejectIf_neg hsigned, rejectIf_pos hfits]
    rfl

/-! ## Vouchers -/

/-- `VoucherData`. -/
structure VoucherData where
  channelId : String
  cumulativeAmount : String
  expiresAt : Nat
  nonce : Option Nat := none
deriving DecidableEq

/-- `SignedVoucher`. -/
structure SignedVoucher where
  data : VoucherData
  signature : String
deriving DecidableEq

/-- `voucherMessageBytes`. -/
def voucherMessageBytes (data : VoucherData) : Thrown (List UInt8) := do
  let channelIdBytes ← okOrElse (Base58.decode data.channelId)
    { message := s!"{data.channelId} is not base58" }
  throwIf (channelIdBytes.length ≠ 32)
    s!"channelId must decode to 32 bytes; got {channelIdBytes.length}"
  let cumulative ← parseAmount (.text data.cumulativeAmount) "cumulativeAmount"
  let expiresAt ← parseI64 (.ofNumber data.expiresAt) "expiresAt"
  return channelIdBytes ++ leBytes 8 cumulative ++ leBytes 8 (Int64.ofInt expiresAt).toUInt64.toNat

/-- What a signer returns: it throws, or it has a signature for its address or none. -/
abbrev Signed : Type := Except JsError (Option Signature)

/-- An answer that may be thrown instead. -/
def orThrow {α : Type} : Except JsError α → Thrown α
  | .ok a => .ok a
  | .error e => .error (.error e)

@[simp] theorem orThrow_eq_ok {α : Type} {r : Except JsError α} {a : α} :
    orThrow r = .ok a ↔ r = .ok a := by
  cases r <;> simp [orThrow]

/-! ## The active session -/

/-- `ActiveSession`, its signer known by its address. -/
structure ActiveSession where
  channelId : String
  cumulative : Nat
  expiresAt : Nat
  nonce : Nat
  signer : String
deriving DecidableEq

namespace ActiveSession
variable (session : ActiveSession)

/-- `this.#nonce + 1`. -/
def nextNonce : Nat := toDouble (session.nonce + 1)

/-- `prepareVoucher` up to the call of the signer: what the voucher says, and its bytes. -/
def voucherFor (cumulative : AmountLike) : Thrown (VoucherData × List UInt8) := do
  let nextCumulative ← parseAmount cumulative "cumulative"
  throwIf (nextCumulative ≤ session.cumulative)
    s!"Voucher cumulative {nextCumulative} must exceed current watermark {session.cumulative}"
  let data : VoucherData := {
    channelId := session.channelId
    cumulativeAmount := toString nextCumulative
    expiresAt := session.expiresAt
    nonce := some session.nextNonce }
  let bytes ← voucherMessageBytes data
  return (data, bytes)

/-- `prepareVoucher` from the answer of the signer on. -/
def signedVoucher (data : VoucherData) (reply : Signed) : Thrown SignedVoucher := do
  let signature ← orThrow reply
  let signature ← okOrElse signature
    { message := s!"Signer {session.signer} did not return a voucher signature" }
  return { data, signature := signature.toBase58 }

/-- `prepareVoucher`, over any interface that can ask the signer. -/
def prepareVoucher {F : Interface} (sign : List UInt8 → ExceptT (Failure JsError) (Script F) Signed)
    (cumulative : AmountLike) : ExceptT (Failure JsError) (Script F) SignedVoucher := do
  let (data, bytes) ← session.voucherFor cumulative
  let reply ← sign bytes
  session.signedVoucher data reply

/-- `prepareIncrement`. -/
def prepareIncrement {F : Interface}
    (sign : List UInt8 → ExceptT (Failure JsError) (Script F) Signed) (amount : AmountLike) :
    ExceptT (Failure JsError) (Script F) SignedVoucher := do
  let amount ← parseAmount amount "amount"
  session.prepareVoucher sign (.bigint (session.cumulative + amount : Nat))

/-- The nonce once a voucher is recorded. -/
def recordedNonce : Option Nat → Thrown Nat
  | none => return session.nextNonce
  | some nonce => do
      let nonce ← parseSafeInteger (.ofNumber nonce) "nonce"
      return max session.nonce nonce

/-- What `recordVoucher` checks of a voucher: its new watermark. -/
def recordedCumulative (voucher : SignedVoucher) : Thrown Nat := do
  throwIf (voucher.data.channelId ≠ session.channelId)
    (s!"Voucher channel {voucher.data.channelId} does not match active session " ++
      session.channelId)
  let cumulative ← parseAmount (.text voucher.data.cumulativeAmount) "cumulativeAmount"
  throwIf (cumulative ≤ session.cumulative)
    s!"Voucher cumulative {cumulative} must exceed current watermark {session.cumulative}"
  return cumulative

/-- `recordVoucher`; the watermark is set before the nonce is read. -/
def recordVoucher (voucher : SignedVoucher) : ActiveSession × Thrown Unit :=
  match session.recordedCumulative voucher with
  | .error e => (session, .error e)
  | .ok cumulative =>
      match session.recordedNonce voucher.data.nonce with
      | .error e => ({ session with cumulative }, .error e)
      | .ok nonce => ({ session with cumulative, nonce }, .ok ())

variable {session}

/-- **What is prepared for a voucher.** -/
theorem voucherFor_eq_ok {cumulative : AmountLike} {data : VoucherData} {bytes : List UInt8}
    (h : session.voucherFor cumulative = .ok (data, bytes)) : ∃ n,
    parseAmount cumulative "cumulative" = .ok n ∧ session.cumulative < n ∧ n < 2 ^ 64 ∧
      voucherMessageBytes data = .ok bytes ∧ data = {
        channelId := session.channelId
        cumulativeAmount := toString n
        expiresAt := session.expiresAt
        nonce := some session.nextNonce } := by
  simp only [voucherFor, bind_eq_ok, rejectIf_eq_ok, pure, Except.pure, Except.ok.injEq,
    Prod.mk.injEq] at h
  obtain ⟨n, hn, _, hlt, _, hbytes, rfl, rfl⟩ := h
  exact ⟨n, hn, Nat.lt_of_not_le hlt, parseAmount_eq_ok hn, hbytes, rfl⟩

theorem signedVoucher_eq_ok {data : VoucherData} {reply : Signed} {voucher : SignedVoucher} :
    session.signedVoucher data reply = .ok voucher ↔
      ∃ sig : Signature, reply = .ok (some sig) ∧ voucher = { data, signature := sig.toBase58 } := by
  simp only [signedVoucher, bind_eq_ok, orThrow_eq_ok, okOrElse_eq_ok, pure, Except.pure,
    Except.ok.injEq]
  constructor
  · rintro ⟨_, rfl, sig, rfl, rfl⟩
    exact ⟨sig, rfl, rfl⟩
  · rintro ⟨sig, rfl, rfl⟩
    exact ⟨_, rfl, sig, rfl, rfl⟩

/-- **What recording a voucher does**: the watermark rises to the amount of the voucher, or the
session is left as it is. -/
theorem recordVoucher_cases (session : ActiveSession) (voucher : SignedVoucher) :
    (∃ e, session.recordVoucher voucher = (session, .error e)) ∨
      ∃ n nonce r, parseAmount (.text voucher.data.cumulativeAmount) "cumulativeAmount" = .ok n ∧
        session.cumulative < n ∧
        session.recordVoucher voucher = ({ session with cumulative := n, nonce }, r) := by
  unfold recordVoucher
  split
  · next e _ => exact Or.inl ⟨e, rfl⟩
  · next n hn =>
    simp only [recordedCumulative, bind_eq_ok, rejectIf_eq_ok, pure, Except.pure,
      Except.ok.injEq] at hn
    obtain ⟨_, -, _, hparse, _, hlt, rfl⟩ := hn
    have hlt := Nat.lt_of_not_le hlt
    refine Or.inr ?_
    split
    · next e _ => exact ⟨_, session.nonce, .error e, hparse, hlt, rfl⟩
    · next nonce _ => exact ⟨_, nonce, .ok (), hparse, hlt, rfl⟩

end ActiveSession

end Ts
end MppSdk
