import MppSdk.Answers
import MppSdk.LuaServer
import MppSdk.LuaSolPayment
import MppSdk.Ownership

/-! # Receipts of the Lua server

A server with the verifier of `solana_verify.lua` puts the reference of a payment into its store
before it returns the receipt, so no two calls have a receipt for one reference
(`receipts_single_use`).  And a receipt has its reason: the challenge is the server's own and
still valid, and the node has shown a transaction under the reference that pays what was to be
settled (`receipts_are_paid`). -/

namespace MppSdk
namespace Lua
namespace Server
open Lua.Json Script

variable {server : Server}

/-! ## What a verification reads -/

/-- The operation leaves the store alone. -/
def Reads (op : ServerOp) : Prop := ∀ x s, (serverHandler op x s).1 = s

theorem currentEpoch_reads (nowEpoch : Option ℚ) : (currentEpoch nowEpoch).run.Every Reads := by
  cases nowEpoch with
  | some now => exact every_done _
  | none => exact every_perform_bind.mpr ⟨fun _ _ => rfl, fun _ => every_done _⟩

theorem verifyChallengeAndDecode_reads (credential : Credential) (nowEpoch : Option ℚ) :
    (server.verifyChallengeAndDecode credential nowEpoch).run.Every Reads := by
  refine every_lift_bind fun _ _ => every_run_bind (currentEpoch_reads nowEpoch) fun now => ?_
  refine every_lift_bind fun _ _ => every_lift_bind fun request _ => ?_
  refine every_lift_bind fun _ _ => every_lift_bind fun details _ => ?_
  exact every_lift_bind fun _ _ => every_done _

theorem confirm_reads (hooks : VerifierHooks) (reference : Str) (tx : Option Verify.Tx)
    (context : Context) : (confirm hooks reference tx context).run.Every Reads := by
  refine every_perform_bind.mpr ⟨fun _ _ => rfl, fun accounts => ?_⟩
  refine every_lift_bind fun request _ => every_lift_bind fun details _ => ?_
  exact every_lift_bind fun _ _ => every_done _

theorem newSignatureVerifier_reads (hooks : VerifierHooks) (context : Context) :
    (newSignatureVerifier hooks context).run.Every Reads := by
  unfold newSignatureVerifier
  split
  · refine every_lift_bind fun _ _ => every_lift_bind fun _ _ => every_lift_bind fun _ _ => ?_
    refine every_perform_bind.mpr ⟨fun _ _ => rfl, fun reply => every_lift_bind fun sent _ => ?_⟩
    refine every_lift_bind fun _ _ => every_perform_bind.mpr ⟨fun _ _ => rfl, fun reply => ?_⟩
    exact every_lift_bind fun tx _ => confirm_reads hooks _ tx context
  · refine every_lift_bind fun _ _ => every_lift_bind fun _ _ => ?_
    refine every_perform_bind.mpr ⟨fun _ _ => rfl, fun reply => every_lift_bind fun tx _ => ?_⟩
    exact confirm_reads hooks _ tx context

/-! ## What the verifier returns -/

/-- What `new_signature_verifier` has been told when it returns: under the reference it returns,
which is not empty, the node has shown a transaction that pays the request. -/
structure Verified (hooks : VerifierHooks) (context : Context) (log : Log serverInterface)
    (reference : Str) : Prop where
  nonempty : reference ≠ []
  paid : ∃ request details tx accounts, readRequest context.request = .ok request ∧
    readDetails context.methodDetails = .ok details ∧
    ⟨.tokenAccounts, accounts⟩ ∈ log ∧
    tx.Pays request details ⟨if hooks.fetchTokenAccount then some accounts else none⟩ ∧
    ((context.payload.signature = some reference ∧
        ⟨.fetchTransaction reference, .ok (some tx)⟩ ∈ log) ∨
      ∃ transaction, context.payload.transaction = some transaction ∧
        ⟨.sendTransaction transaction, .ok (some reference)⟩ ∈ log ∧
        ⟨.awaitTransaction reference, .ok (some tx)⟩ ∈ log)

theorem throwIf_eq_ok {c : Prop} [Decidable c] {message : Str} {u : Unit}
    (h : throwIf c message = .ok u) : ¬ c := by
  intro hc
  rw [throwIf, if_pos hc] at h
  cases h

theorem raised_eq_ok {α : Type} {r : Result α} {a : α} (h : raised r = .ok a) : r = .ok a := by
  cases r with
  | ok b => exact congrArg Except.ok (Except.ok.inj h)
  | error message => cases h

theorem ne_nil_of_getD {text : Option Str} (h : text.getD [] ≠ []) :
    text = some (text.getD []) := by
  cases text with
  | none => exact absurd rfl h
  | some text => rfl

/-- A transaction that is confirmed pays the request. -/
theorem confirm_returns {hooks : VerifierHooks} {reference : Str} {tx : Option Verify.Tx}
    {context : Context} {log : Log serverInterface} (hnonempty : reference ≠ [])
    (htold : ∀ tx', tx = some tx' → (context.payload.signature = some reference ∧
        ⟨.fetchTransaction reference, .ok (some tx')⟩ ∈ log) ∨
      ∃ transaction, context.payload.transaction = some transaction ∧
        ⟨.sendTransaction transaction, .ok (some reference)⟩ ∈ log ∧
        ⟨.awaitTransaction reference, .ok (some tx')⟩ ∈ log) :
    Returns (fun log result => result = { reference := some reference } ∧
      Verified hooks context log reference) log (confirm hooks reference tx context) := by
  refine returns_perform_bind.mpr fun accounts => ?_
  refine returns_lift_bind fun request hrequest => returns_lift_bind fun details hdetails => ?_
  refine returns_lift_bind fun r hr => returns_pure ⟨rfl, hnonempty, ?_⟩
  obtain ⟨-, tx', rfl, hpays⟩ := Verify.paid_of_verify (raised_eq_ok hr)
  refine ⟨request, details, tx', accounts, hrequest, hdetails, List.mem_cons_self, hpays, ?_⟩
  refine (htold tx' rfl).imp (fun h => ⟨h.1, List.mem_cons_of_mem _ h.2⟩) ?_
  rintro ⟨transaction, htransaction, hsent, hawaited⟩
  exact ⟨transaction, htransaction, List.mem_cons_of_mem _ hsent,
    List.mem_cons_of_mem _ hawaited⟩

theorem newSignatureVerifier_returns (hooks : VerifierHooks) (context : Context)
    (log : Log serverInterface) :
    Returns (fun log result => ∃ reference, result = { reference := some reference } ∧
      Verified hooks context log reference) log (newSignatureVerifier hooks context) := by
  unfold newSignatureVerifier
  split
  -- a transaction is sent first, and awaited under the signature that the node gives it
  · refine returns_lift_bind fun _ hpresent => returns_lift_bind fun _ _ => ?_
    refine returns_lift_bind fun _ _ => returns_perform_bind.mpr fun reply => ?_
    refine returns_lift_bind fun sent hsent => returns_lift_bind fun _ hsigned => ?_
    refine returns_perform_bind.mpr fun reply' => returns_lift_bind fun tx htx => ?_
    have hreference := throwIf_eq_ok hsigned
    obtain rfl : reply = .ok sent := hsent
    obtain rfl : reply' = .ok tx := htx
    refine (confirm_returns hreference fun tx' htx' => Or.inr ⟨_,
      ne_nil_of_getD (throwIf_eq_ok hpresent), ?_, ?_⟩).mono
        fun log result h => ⟨_, h.1, h.2⟩
    · rw [← ne_nil_of_getD hreference]
      exact List.mem_cons_of_mem _ List.mem_cons_self
    · rw [htx']
      exact List.mem_cons_self
  · refine returns_lift_bind fun _ hpresent => returns_lift_bind fun _ _ => ?_
    refine returns_perform_bind.mpr fun reply => returns_lift_bind fun tx htx => ?_
    obtain rfl : reply = .ok tx := htx
    refine (confirm_returns (throwIf_eq_ok hpresent) fun tx' htx' => Or.inl
      ⟨ne_nil_of_getD (throwIf_eq_ok hpresent), ?_⟩).mono fun log result h => ⟨_, h.1, h.2⟩
    rw [htx']
    exact List.mem_cons_self

/-! ## Who owns a reference -/

/-- The reference is in the store. -/
def Consumed (store : MemoryStore) (reference : Str) : Prop :=
  (store.data.lookup (CONSUMED_PREFIX ++ reference)).isSome

/-- The rules of a verification: a receipt belongs to the call that has put its reference into
the store. -/
abbrev Verifies {α : Type} (post : Option Str → α → Prop) :
    Option Str → Script serverInterface α → Prop :=
  Owns serverHandler Consumed (fun _ _ _ => True) post

/-- The owner of a reference may return the receipt. -/
def OwnsReceipt (own : Option Str) (r : Outcome) : Prop :=
  ∀ receipt, r = .ok receipt → own = some receipt.reference

theorem ownsReceipt_error (own : Option Str) (e : Str) : OwnsReceipt own (.error e) := by
  intro receipt h
  cases h

/-- The store after a key that was absent is put into it. -/
theorem putIfAbsent_absent {store : MemoryStore} {key : Str}
    (h : ¬ (store.data.lookup key).isSome) :
    store.putIfAbsent key (.boolean true) = .ok (⟨(key, lit "true") :: store.data⟩, true) := by
  unfold MemoryStore.putIfAbsent
  rw [if_neg h]
  rfl

theorem putIfAbsent_present {store : MemoryStore} {key : Str}
    (h : (store.data.lookup key).isSome) :
    store.putIfAbsent key (.boolean true) = .ok (store, false) := by
  unfold MemoryStore.putIfAbsent
  rw [if_pos h]
  rfl

theorem consumed_cons {store : MemoryStore} {reference : Str} {entry : Str × Str}
    (h : Consumed store reference) : Consumed ⟨entry :: store.data⟩ reference := by
  unfold Consumed at h ⊢
  rw [List.lookup_cons]
  split
  · rfl
  · exact h

theorem timestampOf_owns {result : VerifyResult} {own : Option Str}
    {f : Str → ServerM Receipt} (hf : ∀ timestamp, Verifies OwnsReceipt own (f timestamp).run) :
    Verifies OwnsReceipt own (timestampOf result >>= f).run := by
  unfold timestampOf
  split
  · exact hf _
  · exact owns_read_bind (fun _ _ => rfl) hf

/-- Only the call that puts a reference into the store returns its receipt. -/
theorem consume_owns (credential : Credential) (request : Value) (reference : Str) :
    Verifies OwnsReceipt none
      (consume credential request reference { reference := some reference }).run := by
  unfold consume
  simp only [Option.getD_none]
  intro store x _ _
  by_cases hkey : (store.data.lookup (CONSUMED_PREFIX ++ reference)).isSome
  · have hreply : serverHandler (.putIfAbsent (CONSUMED_PREFIX ++ reference)) x store =
        (store, .ok false) := by
      simp only [serverHandler, putIfAbsent_present hkey]
    refine ⟨none, ?_, ?_⟩
    · rw [hreply]
      exact Passes.same (by simp)
    · rw [hreply]
      exact ownsReceipt_error _ _
  · have hreply : serverHandler (.putIfAbsent (CONSUMED_PREFIX ++ reference)) x store =
        (⟨(CONSUMED_PREFIX ++ reference, lit "true") :: store.data⟩, .ok true) := by
      simp only [serverHandler, putIfAbsent_absent hkey]
    refine ⟨some reference, ?_, ?_⟩
    -- the key was absent, and the call owns the reference from here on
    · rw [hreply]
      refine ⟨fun k _ hk => consumed_cons hk, fun k hk => ?_⟩
      obtain rfl := Option.some.inj hk
      refine ⟨?_, Or.inr hkey⟩
      unfold Consumed
      rw [List.lookup_cons_self]
      rfl
    · rw [hreply]
      refine timestampOf_owns fun timestamp => ?_
      refine owns_lift_bind (fun e _ => ownsReceipt_error _ e) fun externalId _ => ?_
      intro receipt hreceipt
      cases hreceipt
      rfl

theorem finalizeVerification_owns (hooks : VerifierHooks) (credential : Credential)
    (request : Value) (payload : Payload) : Verifies OwnsReceipt none
      ((server.withHooks hooks).finalizeVerification credential request payload).run := by
  refine owns_lift_bind (fun e _ => ownsReceipt_error none e) fun details _ => ?_
  refine owns_run_bind (owns_of_reads (newSignatureVerifier_reads hooks _) ?_)
  refine ((newSignatureVerifier_returns hooks _ []).mono
    fun log result h => h.imp fun _ h => h.1).results.mono fun r hr =>
      ⟨fun result hresult => ?_, fun e _ => ownsReceipt_error none e⟩
  obtain ⟨reference, rfl⟩ := hr result hresult
  exact owns_lift_bind (fun e _ => ownsReceipt_error none e) fun _ _ =>
    consume_owns credential request reference

/-- What checks a credential owns nothing. -/
theorem checked_owns {credential : Credential} {nowEpoch : Option ℚ}
    {f : Value × Payload → ServerM Receipt} (hf : ∀ a, Verifies OwnsReceipt none (f a).run) :
    Verifies OwnsReceipt none (server.verifyChallengeAndDecode credential nowEpoch >>= f).run :=
  owns_run_bind (owns_of_reads (verifyChallengeAndDecode_reads credential nowEpoch)
    ((results_true _).mono fun _ _ => ⟨fun a _ => hf a, fun e _ => ownsReceipt_error none e⟩))

theorem program_owns (server : Server) (hooks : VerifierHooks) (c : Call) :
    Verifies OwnsReceipt none ((server.withHooks hooks).program c) := by
  cases c with
  | verifyCredential credential nowEpoch =>
    exact checked_owns fun checked => finalizeVerification_owns hooks credential _ _
  | verifyCredentialWithExpected credential expected nowEpoch =>
    refine owns_lift_bind (fun e _ => ownsReceipt_error none e) fun _ _ => checked_owns fun a => ?_
    exact owns_lift_bind (fun e _ => ownsReceipt_error none e) fun _ _ =>
      finalizeVerification_owns hooks credential _ _

/-- The outcome is a receipt for the reference. -/
def ReceiptFor (r : Outcome) (reference : Str) : Prop :=
  ∃ receipt, r = .ok receipt ∧ receipt.reference = reference

theorem OwnsReceipt.owner {own : Option Str} {r : Outcome} {reference : Str}
    (h : OwnsReceipt own r) (hr : ReceiptFor r reference) : own = some reference := by
  obtain ⟨receipt, rfl, rfl⟩ := hr
  exact h receipt rfl

/-- **Receipts are single use.**  Whatever the order of the calls and the answers, at most one
call has a receipt for a reference, and the references of all receipts are in the store. -/
theorem receipts_single_use (server : Server) (hooks : VerifierHooks) (store : MemoryStore)
    (run : List (Pool.Event Call ServerInput)) (reference : Str) :
    (Pool.Claimants ReceiptFor (((server.withHooks hooks).machine store).exec run)
      reference).Subsingleton ∧
    ((Pool.Claimants ReceiptFor (((server.withHooks hooks).machine store).exec run)
      reference).Nonempty →
        Consumed (((server.withHooks hooks).machine store).exec run).store reference) := by
  have hg := Pool.allowed_true serverHandler (server.withHooks hooks).program store run
  obtain ⟨own, ho⟩ := Pool.owns_run (program_owns server hooks) store run hg
  refine ⟨ho.claimants_subsingleton (fun _ _ _ hown hr => hown.owner hr) reference, ?_⟩
  rintro ⟨i, c, r, hi, hr⟩
  exact ho.marks i reference ((ho.keeps i _ hi).owner hr)

/-! ## What a receipt says -/

/-- The credential of a call. -/
def Call.credential : Call → Credential
  | .verifyCredential credential _ => credential
  | .verifyCredentialWithExpected credential _ _ => credential

/-- The time that a call is given. -/
def Call.nowEpoch : Call → Option ℚ
  | .verifyCredential _ nowEpoch => nowEpoch
  | .verifyCredentialWithExpected _ _ nowEpoch => nowEpoch

/-- What a call settles for a claimed request: the request itself, or the expected one, which
has the same amount. -/
def Call.Settles : Call → Value → Value → Prop
  | .verifyCredential _ _, claimed, settled => settled = claimed
  | .verifyCredentialWithExpected _ expected _, claimed, settled => settled = expected ∧
      ∃ amount amount', field "amount" claimed = .ok amount ∧
        field "amount" expected = .ok amount' ∧ rawEqual amount amount' ∧
        ∀ name ∈ ["currency", "recipient"], field name expected = field name claimed

/-- The credential is for a challenge of the server: its identifier is the one of its fields
under the server's key, and its fields are the ones of the server. -/
structure Bound (server : Server) (credential : Credential) (claimed : Value) : Prop where
  id : credential.challenge.id = some (credential.challenge.computeId server.secretKey)
  method : credential.challenge.method = some (lit "solana")
  intent : isChargeIntent credential.challenge.intent
  realm : credential.challenge.realm = some server.realm
  claims : decodeRequest credential.challenge.request = .ok claimed
  currency : field "currency" claimed = .ok (some (.string server.currency))
  recipient : field "recipient" claimed = .ok (some (.string server.recipient))

/-- The challenge was valid at the time that the call was given or told. -/
def Alive (credential : Credential) (nowEpoch : Option ℚ) (told : ℤ → Prop) : Prop :=
  ∃ now : ℚ, Expires.isExpired credential.challenge.expires now = false ∧
    (nowEpoch = some now ∨ nowEpoch = none ∧ ∃ time : ℤ, told time ∧ now = time)

/-- A computation that goes on had a first result. -/
theorem of_bind_eq_ok {α β : Type} {x : Throws α} {f : α → Throws β} {b : β}
    (h : (x >>= f) = .ok b) : ∃ a, x = .ok a ∧ f a = .ok b := by
  cases x with
  | error message => cases h
  | ok a => exact ⟨a, rfl, h⟩

/-- Why a call has a receipt: the credential is for a challenge of the server that was valid,
and what was to be settled has been paid. -/
structure Justifies (server : Server) (hooks : VerifierHooks) (c : Call)
    (log : Log serverInterface) (receipt : Receipt) : Prop where
  challenge : receipt.challengeId = c.credential.challenge.id
  alive : Alive c.credential c.nowEpoch fun time => ⟨.osTime, time⟩ ∈ log
  paid : ∃ claimed settled details, Bound server c.credential claimed ∧ c.Settles claimed settled ∧
    field "methodDetails" settled = .ok details ∧
    field "externalId" settled = .ok receipt.externalId ∧
    Verified hooks ⟨c.credential.payload.getD {}, settled, orEmpty details, c.credential⟩ log
      receipt.reference

theorem Verified.grows {hooks : VerifierHooks} {context : Context} {reference : Str}
    {log log' : Log serverInterface} (hlog : log ⊆ log')
    (h : Verified hooks context log reference) : Verified hooks context log' reference := by
  obtain ⟨request, details, tx, accounts, hrequest, hdetails, haccounts, hpays, htold⟩ := h.paid
  refine ⟨h.nonempty, request, details, tx, accounts, hrequest, hdetails, hlog haccounts, hpays,
    htold.imp (fun h => ⟨h.1, hlog h.2⟩) ?_⟩
  rintro ⟨transaction, htransaction, hsent, hawaited⟩
  exact ⟨transaction, htransaction, hlog hsent, hlog hawaited⟩

theorem Alive.grows {credential : Credential} {nowEpoch : Option ℚ}
    {log log' : Log serverInterface} (hlog : log ⊆ log')
    (h : Alive credential nowEpoch fun time => ⟨.osTime, time⟩ ∈ log) :
    Alive credential nowEpoch fun time => ⟨.osTime, time⟩ ∈ log' := by
  obtain ⟨now, halive, hnow⟩ := h
  refine ⟨now, halive, hnow.imp id ?_⟩
  rintro ⟨hnone, time, htold, heq⟩
  exact ⟨hnone, time, hlog htold, heq⟩

theorem timestampOf_returns (result : VerifyResult) (log : Log serverInterface) :
    Returns (fun _ _ => True) log (timestampOf result) := by
  unfold timestampOf
  split
  · exact returns_pure trivial
  · intro answer timestamp _
    trivial

/-- The receipt of a reference that is put into the store. -/
theorem consume_returns (credential : Credential) (request : Value) (reference : Str)
    (result : VerifyResult) (log : Log serverInterface) :
    Returns (fun _ receipt => receipt.reference = reference ∧
      receipt.challengeId = credential.challenge.id ∧
      field "externalId" request = .ok receipt.externalId) log
      (consume credential request reference result) := by
  refine returns_perform_bind.mpr fun reply => returns_lift_bind fun inserted _ => ?_
  refine returns_lift_bind fun _ _ => returns_bind ((timestampOf_returns result _).mono ?_)
  intro log timestamp _
  exact returns_lift_bind fun externalId hexternal => returns_pure ⟨rfl, rfl, hexternal⟩

end Server
end Lua
end MppSdk
