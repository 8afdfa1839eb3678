import MppSdk.Interleaving
import MppSdk.SessionTypes

/-! # The session client

`client/session.rs` and `client/session_consumer.rs`: the client tracks what it has
authorised so far and signs vouchers above it.  A commit is a script, cut where the code
awaits the signer and the transport; it records the voucher only once the transport has
returned a receipt. -/

namespace MppSdk
open Script

/-! ## The active session -/

/-- `ActiveSession`, its signer apart. -/
structure ActiveSession where
  channelId : Pubkey
  cumulative : UInt64
  nonce : UInt64
  expiresAt : Int64
deriving DecidableEq

/-- What the client asks of its surroundings. -/
inductive ClientOp : Type
  | signMessage (message : List UInt8)
  | commit (directive : MeteringDirective) (payload : CommitPayload)

/-- The answers: the signer and the transport may fail. -/
def ClientOp.Answer : ClientOp → Type
  | .signMessage _ => Except String Signature
  | .commit _ _ => Except Error CommitReceipt

/-- The interface of the client. -/
abbrev clientInterface : Interface := ⟨ClientOp, ClientOp.Answer⟩

/-- What comes from outside at an operation. -/
structure ClientInput where
  signature : Except String Signature := .error ""
  receipt : Except Error CommitReceipt := .error (.other "")

/-- The client shares no store. -/
def clientHandler : Handler clientInterface Unit ClientInput
  | .signMessage _, x, store => (store, x.signature)
  | .commit _ _, x, store => (store, x.receipt)

/-- A program of the client. -/
abbrev ClientM : Type → Type := ExceptT (Failure Error) (Script clientInterface)

namespace ClientM

/-- Perform one operation. -/
abbrev ask (op : ClientOp) : ClientM op.Answer := liftM (perform (F := clientInterface) op)

end ClientM

/-- An answer of the other side, its error mapped. -/
def replied {ε α : Type} (f : ε → Error) : Except ε α → RustResult Error α
  | .ok a => .ok a
  | .error e => .error (.error (f e))

@[simp] theorem replied_eq_ok {ε α : Type} {f : ε → Error} {r : Except ε α} {a : α} :
    replied f r = .ok a ↔ r = .ok a := by
  cases r <;> simp [replied]

namespace ActiveSession
variable (session : ActiveSession)

/-- `prepare_voucher`. -/
def prepareVoucher (cumulative : UInt64) : ClientM SignedVoucher := do
  rejectIf (cumulative ≤ session.cumulative) (Error.other
    s!"Voucher cumulative {cumulative} must exceed current watermark {session.cumulative}")
  let data : VoucherData := {
    channelId := session.channelId.toBase58
    cumulative := toString cumulative
    expiresAt := session.expiresAt
    nonce := some (session.nonce + 1) }
  let bytes ← data.messageBytes
  let reply ← ClientM.ask (.signMessage bytes)
  let sig ← replied (fun e : String => .other s!"Signing failed: {e}") reply
  return { data, signature := sig.toBase58 }

/-- `prepare_increment`; the sum is modulo `2 ^ 64`, as in a release build. -/
def prepareIncrement (amount : UInt64) : ClientM SignedVoucher :=
  session.prepareVoucher (session.cumulative + amount)

/-- `record_voucher`. -/
def recordVoucher (voucher : SignedVoucher) : RustResult Error ActiveSession := do
  let cumulative ← okOrElse (parseU64 voucher.data.cumulative)
    (.other "invalid voucher cumulative")
  rejectIf (cumulative ≤ session.cumulative) (.other
    s!"Voucher cumulative {cumulative} must exceed current watermark {session.cumulative}")
  return { session with
    cumulative
    nonce := max session.nonce (voucher.data.nonce.getD (session.nonce + 1)) }

/-! ## The consumer -/

/-- `validate_directive`. -/
def validateDirective (directive : MeteringDirective) : RustResult Error Unit :=
  rejectIf (directive.sessionId ≠ session.channelId.toBase58) (.other
    (s!"metered delivery session {directive.sessionId} does not match active session " ++
      session.channelId.toBase58))

/-- `MeteringDirective::amount_base_units`. -/
def amountBaseUnits (directive : MeteringDirective) : RustResult Error UInt64 :=
  okOrElse (parseU64 directive.amount) (.other s!"invalid metering amount: {directive.amount}")

/-- `commit_directive`: the receipt, and the session after it.  A failure leaves the session
as it was. -/
def commitDirective (directive : MeteringDirective) : ClientM (CommitReceipt × ActiveSession) := do
  session.validateDirective directive
  let amount ← amountBaseUnits directive
  rejectIf (amount = 0) (Error.other "metered delivery amount must be greater than zero")
  let voucher ← session.prepareIncrement amount
  let payload : CommitPayload := { deliveryId := directive.deliveryId, voucher }
  let reply ← ClientM.ask (.commit directive payload)
  let receipt ← replied (fun e : Error => e) reply
  let session ← session.recordVoucher payload.voucher
  return (receipt, session)

/-! ## What a commit does -/

/-- The session once a voucher for `amount` more is recorded. -/
def advanced (amount : UInt64) : ActiveSession :=
  { session with
    cumulative := session.cumulative + amount
    nonce := max session.nonce (session.nonce + 1) }

/-- The commit of a directive is refused before anything is signed. -/
def Refuses (directive : MeteringDirective) (amount : UInt64) : Prop :=
  directive.sessionId ≠ session.channelId.toBase58 ∨ amount = 0 ∨
    2 ^ 64 ≤ session.cumulative.toNat + amount.toNat

/-- The voucher for `amount` more. -/
def dataFor (amount : UInt64) : VoucherData where
  channelId := session.channelId.toBase58
  cumulative := toString (session.cumulative + amount)
  expiresAt := session.expiresAt
  nonce := some (session.nonce + 1)

/-- The voucher for `amount` more, with this signature. -/
def voucherFor (amount : UInt64) (sig : Signature) : SignedVoucher where
  data := session.dataFor amount
  signature := sig.toBase58

/-- What is signed for it. -/
def messageFor (amount : UInt64) : List UInt8 :=
  voucherMessageBytes session.channelId (session.cumulative + amount) session.expiresAt

variable {session}

/-- A sum is above the watermark exactly if it is not zero and does not wrap. -/
theorem lt_add_iff {a b : UInt64} : a < a + b ↔ b ≠ 0 ∧ a.toNat + b.toNat < 2 ^ 64 := by
  have ha := a.toNat_lt
  have hb := b.toNat_lt
  rw [UInt64.lt_iff_toNat_lt, UInt64.toNat_add, ne_eq, ← UInt64.toNat_inj]
  constructor
  · intro h
    by_cases hsum : a.toNat + b.toNat < 2 ^ 64
    · rw [Nat.mod_eq_of_lt hsum] at h
      exact ⟨by simp; omega, hsum⟩
    · omega
  · rintro ⟨hb0, hsum⟩
    rw [Nat.mod_eq_of_lt hsum]
    simp at hb0
    omega

theorem messageBytes_dataFor (amount : UInt64) :
    (session.dataFor amount).messageBytes = .ok (session.messageFor amount) :=
  VoucherData.messageBytes_eq_ok.mpr ⟨session.channelId, session.cumulative + amount,
    Bytes.fromBase58_toBase58 _, parseU64_toString _, rfl⟩

/-- The script of a commit that is not refused: it signs, hands the voucher over, and
records it once it has a receipt. -/
theorem commitDirective_run {directive : MeteringDirective} {amount : UInt64}
    (hamount : parseU64 directive.amount = some amount) (h : ¬ session.Refuses directive amount) :
    (session.commitDirective directive).run =
      .call (.signMessage (session.messageFor amount)) fun reply =>
        match reply with
        | .error e => .done (.error (.error (.other s!"Signing failed: {e}")))
        | .ok sig =>
            .call (.commit directive {
              deliveryId := directive.deliveryId
              voucher := session.voucherFor amount sig }) fun reply =>
              match reply with
              | .error e => .done (.error (.error e))
              | .ok receipt => .done (.ok (receipt, session.advanced amount)) := by
  obtain ⟨hsession, hzero, hfits⟩ := not_or.mp h |>.imp not_not.mp not_or.mp
  have hlt : session.cumulative < session.cumulative + amount :=
    lt_add_iff.mpr ⟨hzero, Nat.lt_of_not_le hfits⟩
  have hvalid : session.validateDirective directive = .ok () :=
    rejectIf_neg (not_not.mpr hsession)
  have hunits : amountBaseUnits directive = .ok amount := okOrElse_eq_ok.mpr hamount
  have hrecord : ∀ sig, session.recordVoucher (session.voucherFor amount sig) =
      .ok (session.advanced amount) := by
    intro sig
    have hparse : parseU64 (session.voucherFor amount sig).data.cumulative =
        some (session.cumulative + amount) := parseU64_toString _
    rw [recordVoucher, hparse, okOrElse]
    show (rejectIf _ _ >>= _) = _
    rw [rejectIf_neg (UInt64.not_le.mpr hlt)]
    rfl
  have hbytes : (session.dataFor amount).messageBytes = .ok (session.messageFor amount) :=
    messageBytes_dataFor amount
  rw [dataFor] at hbytes
  simp only [commitDirective, prepareIncrement, prepareVoucher, hvalid, hunits, rejectIf_neg hzero,
    rejectIf_neg (UInt64.not_le.mpr hlt), hbytes, run_bind, run_liftExcept, done_bind]
  show Script.call _ _ = Script.call _ _
  congr 1
  funext reply
  rcases reply with e | sig
  · rfl
  · show Script.call _ _ = Script.call _ _
    congr 1
    funext reply
    rcases reply with e | receipt
    · rfl
    · have hrecord := hrecord sig
      rw [voucherFor, dataFor] at hrecord
      simp only [replied, hrecord]
      rfl

theorem prepareVoucher_refused {cumulative : UInt64} (h : cumulative ≤ session.cumulative) :
    ∃ e, (session.prepareVoucher cumulative).run = .done (.error e) := by
  refine ⟨.error (.other
    s!"Voucher cumulative {cumulative} must exceed current watermark {session.cumulative}"), ?_⟩
  simp only [prepareVoucher, rejectIf_pos h, run_bind, run_liftExcept, done_bind]

/-- The script of a commit that is refused. -/
theorem commitDirective_refused {directive : MeteringDirective}
    (h : ∀ amount, parseU64 directive.amount = some amount → session.Refuses directive amount) :
    ∃ e, (session.commitDirective directive).run = .done (.error e) := by
  by_cases hsession : directive.sessionId = session.channelId.toBase58
  case neg =>
    have hvalid : ∃ e, session.validateDirective directive = .error e :=
      ⟨_, rejectIf_pos hsession⟩
    obtain ⟨e, hvalid⟩ := hvalid
    refine ⟨e, ?_⟩
    simp only [commitDirective, hvalid, run_bind, run_liftExcept, done_bind]
  have hvalid : session.validateDirective directive = .ok () :=
    rejectIf_neg (not_not.mpr hsession)
  rcases hamount : parseU64 directive.amount with _ | amount
  · have hunits : ∃ e, amountBaseUnits directive = .error e := by
      rw [amountBaseUnits, hamount]
      exact ⟨_, rfl⟩
    obtain ⟨e, hunits⟩ := hunits
    refine ⟨e, ?_⟩
    simp only [commitDirective, hvalid, hunits, run_bind, run_liftExcept, done_bind]
  have hunits : amountBaseUnits directive = .ok amount := okOrElse_eq_ok.mpr hamount
  by_cases hzero : amount = 0
  · refine ⟨.error (.other "metered delivery amount must be greater than zero"), ?_⟩
    simp only [commitDirective, hvalid, hunits, rejectIf_pos hzero, run_bind, run_liftExcept,
      done_bind]
  -- what is left is a sum that wraps, and so is not above the watermark
  have hle : session.cumulative + amount ≤ session.cumulative := by
    have hwraps : 2 ^ 64 ≤ session.cumulative.toNat + amount.toNat :=
      ((h amount hamount).resolve_left (not_not.mpr hsession)).resolve_left hzero
    rw [← UInt64.not_lt, lt_add_iff]
    exact fun hlt => absurd hlt.2 (Nat.not_lt.mpr hwraps)
  obtain ⟨e, hprepare⟩ := prepareVoucher_refused hle
  refine ⟨e, ?_⟩
  simp only [commitDirective, prepareIncrement, hvalid, hunits, rejectIf_neg hzero, hprepare,
    run_bind, run_liftExcept, done_bind]

/-- **What a commit by itself returns**: a receipt, and the session with the voucher
recorded, if it is not refused and both the signer and the transport answer. -/
theorem commitDirective_eq_ok {directive : MeteringDirective} {xs : Nat → ClientInput}
    {receipt : CommitReceipt} {session' : ActiveSession} :
    (alone clientHandler (session.commitDirective directive).run xs ()).2 =
        .ok (receipt, session') ↔
      ∃ amount, parseU64 directive.amount = some amount ∧ ¬ session.Refuses directive amount ∧
        (∃ sig, (xs 0).signature = .ok sig) ∧ (xs 1).receipt = .ok receipt ∧
        session' = session.advanced amount := by
  constructor
  · intro h
    by_cases hrefuses : ∀ amount, parseU64 directive.amount = some amount →
        session.Refuses directive amount
    · obtain ⟨e, hrun⟩ := commitDirective_refused hrefuses
      rw [hrun] at h
      cases h
    · push Not at hrefuses
      obtain ⟨amount, hamount, hnot⟩ := hrefuses
      rw [commitDirective_run hamount hnot] at h
      rcases hsig : (xs 0).signature with e | sig
      · simp [clientHandler, hsig] at h
      · rcases hreceipt : (xs 1).receipt with e | receipt'
        · simp [clientHandler, hsig, hreceipt] at h
        · simp only [alone_call, clientHandler, hsig, hreceipt, alone_done] at h
          obtain ⟨rfl, rfl⟩ := Prod.mk.inj (Except.ok.inj h)
          exact ⟨amount, hamount, hnot, ⟨sig, rfl⟩, rfl, rfl⟩
  · rintro ⟨amount, hamount, hnot, ⟨sig, hsig⟩, hreceipt, rfl⟩
    rw [commitDirective_run hamount hnot]
    simp only [alone_call, clientHandler, hsig, hreceipt, alone_done, Nat.zero_add]

end ActiveSession
end MppSdk
