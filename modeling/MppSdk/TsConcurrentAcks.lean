import MppSdk.CommitSteps
import MppSdk.Increments
import MppSdk.Simulation
import MppSdk.TsSessionConsumer

/-! # Acks as increments

Each call of `commitDirective` is followed by an increment of the watermark that the session
copies from the server: it reads when the call does, is granted by the closure of
`process_commit`, and is recorded by `recordVoucher`.  What holds of increments of a
watermark so holds of the calls, whatever their interleaving. -/

namespace MppSdk
namespace Ts
open Script
open Increments (Claim)

namespace SessionConsumer

/-- The watermark of the channel. -/
def mark (channelId : String) (s : Parties) : Nat :=
  (s.store channelId).elim 0 (·.cumulative.toNat)

theorem mark_eq {channelId : String} {s : Parties} {state : ChannelState}
    (h : s.store channelId = some state) : mark channelId s = state.cumulative.toNat := by
  rw [mark, h]
  rfl

/-- The session is that of the channel, which is only extended. -/
def ackTerms (channelId : String) : Terms consumerInterface Parties where
  holds s := s.session.channelId = channelId ∧ s.store.LedgerAt channelId
  guarantee s t := ChannelStore.ExtendsAt channelId s.store t.store
  allowed _ _ := True
  refl s := .refl s.store
  trans _ _ _ := .trans

/-- An operation changes neither watermark. -/
def Unmoved (channelId : String) (s s' : Parties) : Prop :=
  s'.session.cumulative = s.session.cumulative ∧ mark channelId s' = mark channelId s

/-- What the increment of a call does when the call performs an operation. -/
inductive Moves (channelId : String) : ConsumerOp → Parties → Claim → Parties → Claim → Prop
  | idle {op : ConsumerOp} {s s' : Parties} {amount base : Nat} (hsame : Unmoved channelId s s') :
      Moves channelId op s ⟨amount, .begun base⟩ s' ⟨amount, .begun base⟩
  | start {s s' : Parties} {amount : Nat} (hsame : Unmoved channelId s s') :
      Moves channelId .session s ⟨amount, .waiting⟩ s' ⟨amount, .begun s.session.cumulative⟩
  | accept {op : ConsumerOp} {s s' : Parties} {amount base : Nat}
      (hcopy : s'.session.cumulative = s.session.cumulative)
      (hlt : mark channelId s < base + amount) (hmark : mark channelId s' = base + amount) :
      Moves channelId op s ⟨amount, .begun base⟩ s' ⟨amount, .begun base⟩
  | record {op : ConsumerOp} {s s' : Parties} {amount base : Nat}
      (hle : base + amount ≤ mark channelId s) (hlt : s.session.cumulative < base + amount)
      (hcopy : s'.session.cumulative = base + amount)
      (hmark : mark channelId s' = mark channelId s) :
      Moves channelId op s ⟨amount, .begun base⟩ s' ⟨amount, .recorded base⟩
  | fail {op : ConsumerOp} {s s' : Parties} {g : Claim} (hsame : Unmoved channelId s s')
      (hopen : ∀ base, g.stage ≠ .recorded base) :
      Moves channelId op s g s' { g with stage := .failed }

/-- A call waits until it reads the watermark, and is under way from then on. -/
def Asks : ConsumerOp → Claim → Prop
  | .session, g => g.stage = .waiting
  | _, g => ∃ base, g.stage = .begun base

/-- A call and its increment. -/
def shadow (channelId : String) : Shadow consumerInterface Parties Claim where
  terms := ackTerms channelId
  asks := Asks
  move := Moves channelId

/-- A call that resolves is recorded and its delivery committed; one that rejects is over. -/
def Ends (channelId : String) (directive : MeteringDirective) :
    Thrown CommitReceipt → Claim → Parties → Prop
  | .ok _, g, s => (∃ base, g.stage = .recorded base) ∧
      ∃ cumulative, s.store.CommittedAt channelId directive.deliveryId cumulative
  | .error _, g, _ => ∀ base, g.stage ≠ .begun base

theorem ends_of_failed {channelId : String} {directive : MeteringDirective} {s : Parties}
    (e : Failure JsError) (g : Claim) (h : g.stage = .failed) :
    Ends channelId directive (.error e) g s := by
  intro base hbase
  rw [h] at hbase
  cases hbase

/-- A call follows its increment. -/
abbrev FollowsAck (server : SessionServer) (channelId : String) {α : Type}
    (post : Thrown α → Claim → Parties → Prop) (x : ConsumerM α) (g : Claim) (s : Parties) : Prop :=
  Follows (consumerHandler server.ed) (shadow channelId) post x.run g s

variable (server : SessionServer) {channelId : String} {s : Parties} {amount base : Nat}

theorem unmoved_refl (s : Parties) : Unmoved channelId s s := ⟨rfl, rfl⟩

/-- A check of a call: if it throws the increment fails, and otherwise the call goes on. -/
theorem check_follows {op : ConsumerOp} {s s' : Parties} {c : Claim} {α β : Type} {r : Thrown β}
    {f : β → ConsumerM α} {post : Thrown α → Claim → Parties → Prop}
    (hsame : Unmoved channelId s s') (hopen : ∀ base, c.stage ≠ .recorded base)
    (herr : ∀ e g, g.stage = .failed → post (.error e) g s')
    (hf : ∀ b, r = .ok b → ∃ g, Moves channelId op s c s' g ∧
      FollowsAck server channelId post (f b) g s') :
    ∃ g, Moves channelId op s c s' g ∧
      FollowsAck server channelId post ((liftM r : ConsumerM β) >>= f) g s' :=
  exists_follows_lift_bind (fun e _ => ⟨_, .fail hsame hopen, herr e _ rfl⟩) hf

/-- A check that ends a part of a call. -/
theorem last_check_follows {op : ConsumerOp} {s s' : Parties} {c : Claim} {α : Type} {r : Thrown α}
    {post : Thrown α → Claim → Parties → Prop} (hsame : Unmoved channelId s s')
    (hopen : ∀ base, c.stage ≠ .recorded base)
    (herr : ∀ e g, g.stage = .failed → post (.error e) g s')
    (hok : ∀ a, r = .ok a → ∃ g, Moves channelId op s c s' g ∧ post (.ok a) g s') :
    ∃ g, Moves channelId op s c s' g ∧
      FollowsAck server channelId post (liftM r : ConsumerM α) g s' := by
  rcases r with e | a
  · exact ⟨_, .fail hsame hopen, herr e _ rfl⟩
  · exact hok a rfl

/-! ## The steps of a call -/

/-- The voucher of an increment, prepared. -/
def PreparedFor (channelId : String) (total : Nat) (voucher : SignedVoucher) : Prop :=
  total < 2 ^ 64 ∧ voucher.data.channelId = channelId ∧
    voucher.data.cumulativeAmount = toString total

/-- What preparing a voucher ends in. -/
def Prepared (channelId : String) (amount base : Nat) :
    Thrown SignedVoucher → Claim → Parties → Prop
  | .ok voucher, g, _ => g = ⟨amount, .begun base⟩ ∧ PreparedFor channelId (base + amount) voucher
  | .error _, g, _ => g.stage = .failed

/-- Once the watermark is read, the voucher is prepared, or the call fails. -/
theorem prepareIncrement_follows (hholds : (ackTerms channelId).holds s) {amount : Nat} :
    ∃ g, Moves channelId .session s ⟨amount, .waiting⟩ s g ∧
      FollowsAck server channelId (Prepared channelId amount s.session.cumulative)
        (s.session.prepareIncrement (fun bytes => ask (.signMessages bytes)) (.bigint amount)) g s := by
  refine check_follows server (unmoved_refl s) (by simp) (fun _ _ h => h) fun n hn => ?_
  obtain rfl : n = amount := by
    rw [parseAmount_bigint] at hn
    split at hn
    · exact (Except.ok.inj hn).symm
    · cases hn
  refine check_follows server (unmoved_refl s) (by simp) (fun _ _ h => h) fun prepared hprepared => ?_
  obtain ⟨total, htotal, hlt, hfits, -, hdata⟩ := ActiveSession.voucherFor_eq_ok hprepared
  obtain rfl : total = s.session.cumulative + n := by
    rw [parseAmount_bigint] at htotal
    split at htotal
    · exact (Except.ok.inj htotal).symm
    · cases htotal
  refine ⟨_, .start (unmoved_refl s), follows_perform_bind.mpr ⟨⟨_, rfl⟩, fun s' _ hI x =>
    ⟨hI, (ackTerms channelId).refl s', ?_⟩⟩⟩
  refine last_check_follows server (unmoved_refl s') (by simp) (fun _ _ h => h) fun voucher hvoucher => ?_
  obtain ⟨sig, -, rfl⟩ := ActiveSession.signedVoucher_eq_ok.mp hvoucher
  refine ⟨_, .idle (unmoved_refl s'), rfl, hfits, ?_, ?_⟩
  · rw [hdata]
    exact hholds.1
  · rw [hdata]

/-- What is read of a prepared voucher at the endpoint. -/
theorem PreparedFor.received {total : Nat} {voucher : SignedVoucher} {deliveryId : String}
    (h : PreparedFor channelId total voucher) {payload : MppSdk.CommitPayload}
    (hreceived : CommitPayload.received { deliveryId, voucher } = some payload) :
    payload.deliveryId = deliveryId ∧ payload.voucher.data.channelId = channelId ∧
      MppSdk.parseU64 payload.voucher.data.cumulative = some (UInt64.ofNat total) := by
  obtain ⟨hfits, rfl, hcum⟩ := h
  simp only [CommitPayload.received] at hreceived
  split at hreceived
  · obtain rfl := Option.some.inj hreceived
    refine ⟨rfl, rfl, ?_⟩
    have htext : toString total = toString (UInt64.ofNat total) := by
      show _ = toString (UInt64.ofNat total).toNat
      rw [UInt64.toNat_ofNat', Nat.mod_eq_of_lt hfits]
    show MppSdk.parseU64 voucher.data.cumulativeAmount = _
    rw [hcum, htext, MppSdk.parseU64_toString]
  · cases hreceived

/-- The session server, as the consumer sees it: its commits leave the increment under way. -/
def serverPart (ed : Ed25519) (channelId : String) {cumulative : UInt64}
    (hcum : cumulative.toNat = base + amount) :
    Part (consumerHandler ed) (shadow channelId) (sessionHandler ed) (commitTerms channelId)
      ConsumerOp.server (fun _ x => x) (SessionOp.CommitsAt channelId cumulative)
      ⟨amount, .begun base⟩ where
  view := Parties.store
  input := ConsumerInput.server
  view_step _ _ _ := rfl
  answer _ _ _ := rfl
  guarantee _ _ h := h
  holds _ h := h.2
  allowed _ _ _ := trivial
  asks _ _ := ⟨base, rfl⟩
  step op x s hop hI := by
    obtain ⟨hid, state, hstate, hledger⟩ := hI
    obtain ⟨state', hstate', hledger', hext, hmark⟩ := hop.step ed x.server hstate hledger
    refine ⟨⟨hid, state', hstate', hledger'⟩, fun st hst => ?_, ?_⟩
    · obtain rfl := Option.some.inj (hst.symm.trans hstate)
      exact ⟨state', hstate', hext⟩
    · have hbefore : mark channelId s = state.cumulative.toNat := mark_eq hstate
      have hafter : mark channelId (consumerHandler ed (.server op) x s).1 =
          state'.cumulative.toNat := mark_eq hstate'
      rcases hmark with hsame | ⟨hlt, hnew⟩
      · refine Moves.idle ⟨rfl, ?_⟩
        rw [hbefore, hafter, hsame]
      · refine Moves.accept rfl ?_ ?_
        · rw [hbefore, ← hcum]
          exact UInt64.lt_iff_toNat_lt.mp hlt
        · rw [hafter, hnew, hcum]

/-- What the transport ends in. -/
def Transported (channelId deliveryId : String) (amount base : Nat) :
    Thrown CommitReceipt → Claim → Parties → Prop
  | .ok _, g, s => g = ⟨amount, .begun base⟩ ∧
      s.store.CommittedAt channelId deliveryId (UInt64.ofNat (base + amount))
  | .error _, g, _ => g.stage = .failed

/-- The endpoint leaves the increment under way, and a receipt shows the delivery committed. -/
theorem endpoint_follows {deliveryId : String} {voucher : SignedVoucher}
    (h : PreparedFor channelId (base + amount) voucher) {α : Type}
    {post : α → Claim → Parties → Prop} {k : Option CommitReceipt → Script consumerInterface α}
    (hk : ∀ receipt s', (∀ r, receipt = some r →
        s'.store.CommittedAt channelId deliveryId (UInt64.ofNat (base + amount))) →
      Follows (consumerHandler server.ed) (shadow channelId) post (k receipt)
        ⟨amount, .begun base⟩ s') :
    Follows (consumerHandler server.ed) (shadow channelId) post
      (endpoint server { deliveryId, voucher } >>= k) ⟨amount, .begun base⟩ s := by
  unfold endpoint
  split
  · exact hk none s fun _ hr => nomatch hr
  · rename_i payload hreceived
    obtain ⟨rfl, hid, hcum⟩ := h.received hreceived
    have hvalue : (UInt64.ofNat (base + amount)).toNat = base + amount := by
      rw [UInt64.toNat_ofNat', Nat.mod_eq_of_lt h.1]
    have hbind : ∀ r : Script consumerInterface (RustResult Error CommitReceipt),
        (r >>= fun r => Script.done r.toOption) >>= k = r >>= fun r => k r.toOption := by
      intro r
      induction r with
      | done r => rfl
      | call op next ih => exact congrArg (Script.call op) (funext ih)
    rw [hbind]
    have hevery := server.processCommit_commitsAt hcum
    have hcorrect := server.processCommit_correct hcum s.store
    rw [hid] at hevery hcorrect
    refine follows_embed_bind (serverPart server.ed channelId hvalue) (fun r s' hr => ?_) hevery
      hcorrect
    refine hk _ s' fun receipt hreceipt => ?_
    rcases r with e | receipt'
    · cases hreceipt
    · exact hr receipt' rfl

/-- The transport leaves the increment under way, or the call fails. -/
theorem commit_follows {deliveryId : String} {voucher : SignedVoucher}
    (h : PreparedFor channelId (base + amount) voucher) :
    FollowsAck server channelId (Transported channelId deliveryId amount base)
      (commit server { deliveryId, voucher }) ⟨amount, .begun base⟩ s := by
  refine follows_perform_bind.mpr ⟨⟨base, rfl⟩, fun s₁ _ hI₁ x₁ =>
    ⟨hI₁, (ackTerms channelId).refl s₁, ?_⟩⟩
  refine check_follows server (unmoved_refl s₁) (by simp) (fun _ _ h => h) fun _ _ => ?_
  refine ⟨_, .idle (unmoved_refl s₁), ?_⟩
  show Follows _ _ _ (ExceptT.lift (endpoint server { deliveryId, voucher }) >>= _).run _ _
  rw [run_lift_bind]
  refine endpoint_follows server h fun receipt s₂ hreceipt => ?_
  refine follows_perform_bind.mpr ⟨⟨base, rfl⟩, fun s₃ hg hI₃ x₃ =>
    ⟨hI₃, (ackTerms channelId).refl s₃, ?_⟩⟩
  refine last_check_follows server (unmoved_refl s₃) (by simp) (fun _ _ h => h) fun r hr => ?_
  simp only [receiptOf, bind_eq_ok, okOrElse_eq_ok] at hr
  obtain ⟨_, -, rfl⟩ := hr
  exact ⟨_, .idle (unmoved_refl s₃), rfl, (hreceipt r rfl).mono hg⟩

/-- A voucher that is recorded is the increment's, and it was granted. -/
theorem recordVoucher_moves {deliveryId : String} {voucher : SignedVoucher} {x : ConsumerInput}
    (h : PreparedFor channelId (base + amount) voucher) (hI : (ackTerms channelId).holds s)
    (hcommitted : s.store.CommittedAt channelId deliveryId (UInt64.ofNat (base + amount))) :
    let o := consumerHandler server.ed (.recordVoucher voucher) x s
    (ackTerms channelId).holds o.1 ∧ o.1.store = s.store ∧
      (Moves channelId (.recordVoucher voucher) s ⟨amount, .begun base⟩ o.1
          ⟨amount, .recorded base⟩ ∨
        (∃ e, o.2 = .error e) ∧ Unmoved channelId s o.1) := by
  obtain ⟨hid, state, hstate, hledger⟩ := hI
  intro o
  have ho : o = ({ s with session := (s.session.recordVoucher voucher).1 },
    (s.session.recordVoucher voucher).2) := rfl
  rcases s.session.recordVoucher_cases voucher with
    ⟨e, hrecord⟩ | ⟨n, nonce, r, hparse, hlt, hrecord⟩
  · rw [ho, hrecord]
    exact ⟨⟨hid, state, hstate, hledger⟩, rfl, Or.inr ⟨⟨e, rfl⟩, unmoved_refl s⟩⟩
  · obtain rfl : base + amount = n := by
      rw [h.2.2, parseAmount_toString h.1] at hparse
      exact Except.ok.inj hparse
    have hle : base + amount ≤ mark channelId s := by
      have hwithin := UInt64.le_iff_toNat_le.mp (hcommitted.le hstate hledger)
      rw [UInt64.toNat_ofNat', Nat.mod_eq_of_lt h.1] at hwithin
      rw [mark_eq hstate]
      exact hwithin
    rw [ho, hrecord]
    exact ⟨⟨hid, state, hstate, hledger⟩, rfl, Or.inl (.record hle hlt rfl rfl)⟩

/-- **A call follows its increment.** -/
theorem commitDirective_follows (directive : MeteringDirective) (s : Parties) :
    FollowsAck server channelId (Ends channelId directive) (commitDirective server directive)
      ⟨amountOf directive, .waiting⟩ s := by
  refine follows_perform_bind.mpr ⟨rfl, fun s₁ _ hI₁ _ => ⟨hI₁, (ackTerms channelId).refl s₁, ?_⟩⟩
  refine check_follows server (unmoved_refl s₁) (by simp) ends_of_failed fun _ _ => ?_
  refine check_follows server (unmoved_refl s₁) (by simp) ends_of_failed fun n hn => ?_
  refine check_follows server (unmoved_refl s₁) (by simp) ends_of_failed fun _ hpos => ?_
  -- the amount of the directive is a natural number
  have hpos := rejectIf_eq_ok.mp hpos
  obtain ⟨amount, rfl⟩ : ∃ amount : Nat, n = amount := ⟨n.toNat, by omega⟩
  have hamount : amountOf directive = amount := by
    rw [amountOf, okOrElse_eq_ok.mp hn]
    rfl
  rw [hamount]
  obtain ⟨g, hmoves, hprepare⟩ := prepareIncrement_follows server hI₁
  refine ⟨g, hmoves, follows_run_bind (hprepare.mono fun r g s₂ hr => ⟨?_, ?_⟩)⟩
  · rintro voucher rfl
    obtain ⟨rfl, hvoucher⟩ := hr
    refine follows_run_bind ((commit_follows server hvoucher).mono fun r g s₃ hr => ⟨?_, ?_⟩)
    · rintro receipt rfl
      obtain ⟨rfl, hcommitted⟩ := hr
      refine follows_perform_bind.mpr ⟨⟨_, rfl⟩, fun s₄ hg hI₄ x₄ => ?_⟩
      obtain ⟨hI₅, hstore, hrecord⟩ :=
        recordVoucher_moves server (x := x₄) hvoucher hI₄ (hcommitted.mono hg)
      have hext : ChannelStore.ExtendsAt channelId s₄.store
          (consumerHandler server.ed (.recordVoucher voucher) x₄ s₄).1.store := by
        rw [hstore]
        exact .refl _
      refine ⟨hI₅, hext, ?_⟩
      rcases hrecord with hmoves | ⟨⟨e, he⟩, hsame⟩
      · refine ⟨_, hmoves, ?_⟩
        show Follows _ _ _ ((liftM (consumerHandler server.ed (.recordVoucher voucher) x₄ s₄).2 :
          ConsumerM Unit) >>= fun _ => pure receipt).run _ _
        rcases (consumerHandler server.ed (.recordVoucher voucher) x₄ s₄).2 with e | _
        · exact fun base hbase => nomatch hbase
        · exact ⟨⟨_, rfl⟩, _, (hcommitted.mono hg).mono hext⟩
      · refine ⟨_, .fail hsame (by simp), ?_⟩
        show Follows _ _ _ ((liftM (consumerHandler server.ed (.recordVoucher voucher) x₄ s₄).2 :
          ConsumerM Unit) >>= fun _ => pure receipt).run _ _
        rw [he]
        exact ends_of_failed e _ rfl
    · rintro e rfl
      exact ends_of_failed e g hr
  · rintro e rfl
    exact ends_of_failed e g hr

/-! ## All calls -/

/-- The calls and the increments they follow. -/
structure Mirrors (channelId : String) (p : Acks) (t : Increments.State) : Prop where
  holds : (ackTerms channelId).holds p.store
  copy : t.copy = p.store.session.cumulative
  mark : t.mark = mark channelId p.store
  calls : List.Forall₂ (fun call claim => claim.amount = amountOf call.1 ∧
    Follows (consumerHandler server.ed) (shadow channelId) (Ends channelId call.1) call.2 claim
      p.store) p.calls t.claims

variable {server} {p : Acks} {t : Increments.State}

/-- A call is under way when its increment is. -/
theorem underWay_iff {directive : MeteringDirective}
    {r : Script consumerInterface (Thrown CommitReceipt)} {claim : Claim}
    (h : Follows (consumerHandler server.ed) (shadow channelId) (Ends channelId directive) r claim
      s) : UnderWay r ↔ ∃ base, claim.stage = .begun base := by
  cases r with
  | done r =>
    refine ⟨fun hu => hu.elim, fun ⟨base, hbase⟩ => ?_⟩
    cases r with
    | ok receipt =>
      obtain ⟨⟨base', hrecorded⟩, -⟩ := h
      rw [hbase] at hrecorded
      cases hrecorded
    | error e => exact (h base hbase).elim
  | call op next =>
    have hasks : Asks op claim := h.1
    cases op with
    | session =>
      have hwaiting : claim.stage = .waiting := hasks
      rw [hwaiting]
      exact ⟨fun hu => hu.elim, fun ⟨base, hbase⟩ => nomatch hbase⟩
    | _ => exact ⟨fun _ => hasks, fun _ => trivial⟩

/-- No call is under way when no increment is. -/
theorem Mirrors.none_underWay_iff (h : Mirrors server channelId p t) :
    (∀ call ∈ p.calls, ¬ UnderWay call.2) ↔
      ∀ c ∈ t.claims, ∀ base, c.stage ≠ .begun base := by
  constructor
  · intro hcalls c hc base hbase
    obtain ⟨i, hi⟩ := List.mem_iff_getElem?.mp hc
    obtain ⟨call, hcall, -, hfollows⟩ := h.calls.flip.exists_getElem? hi
    exact hcalls call (List.mem_of_getElem? hcall) ((underWay_iff hfollows).mpr ⟨base, hbase⟩)
  · intro hclaims call hcall hu
    obtain ⟨i, hi⟩ := List.mem_iff_getElem?.mp hcall
    obtain ⟨c, hc, -, hfollows⟩ := h.calls.exists_getElem? hi
    obtain ⟨base, hbase⟩ := (underWay_iff hfollows).mp hu
    exact hclaims c (List.mem_of_getElem? hc) base hbase

/-- The other calls go on following their increments when the parties move on. -/
theorem Mirrors.calls_set (h : Mirrors server channelId p t) {s' : Parties}
    (hguarantee : (ackTerms channelId).guarantee p.store s') (i : Nat)
    (call : MeteringDirective × Script consumerInterface (Thrown CommitReceipt)) {claim : Claim}
    (hamount : claim.amount = amountOf call.1)
    (hfollows : Follows (consumerHandler server.ed) (shadow channelId) (Ends channelId call.1)
      call.2 claim s') :
    List.Forall₂ (fun call claim => claim.amount = amountOf call.1 ∧
      Follows (consumerHandler server.ed) (shadow channelId) (Ends channelId call.1) call.2 claim
        s') (p.calls.set i call) (t.claims.set i claim) := by
  refine List.Forall₂.set (h.calls.imp fun call claim hcall => ⟨hcall.1, ?_⟩) ⟨hamount, hfollows⟩ i
  refine hcall.2.stable (fun r g s s' hg hr => ?_) hguarantee
  cases r with
  | ok receipt =>
    obtain ⟨hrecorded, cumulative, hcommitted⟩ := hr
    exact ⟨hrecorded, cumulative, hcommitted.mono hg⟩
  | error e => exact hr

/-- **Each step of a call is a step of its increment**, and is serial when that is alone. -/
theorem Mirrors.step (h : Mirrors server channelId p t) (e : Event) :
    (Mirrors server channelId (p.react (consumerHandler server.ed)
        (fun directive => (commitDirective server directive).run) e) t ∧ Serial p e) ∨
      ∃ e', Mirrors server channelId (p.react (consumerHandler server.ed)
          (fun directive => (commitDirective server directive).run) e) (t.react e') ∧
        (Serial p e ↔ t.Alone e') := by
  rcases Pool.step_cases (consumerHandler server.ed)
    (fun directive => (commitDirective server directive).run) p e with
    ⟨directive, rfl, hreact⟩ | ⟨i, x, directive, op, next, rfl, hi, hreact⟩ |
      ⟨i, x, rfl, hidle, hreact⟩
  · rw [hreact]
    refine Or.inr ⟨.call (amountOf directive), ⟨h.holds, h.copy, h.mark, ?_⟩,
      fun _ hbegins => hbegins.elim, fun _ => trivial⟩
    refine List.rel_append h.calls (.cons ⟨rfl, ?_⟩ .nil)
    exact commitDirective_follows server directive p.store
  · rw [hreact]
    obtain ⟨claim, hclaim, hamount, hfollows⟩ := h.calls.exists_getElem? hi
    obtain ⟨hasks, hnext⟩ := hfollows
    obtain ⟨hholds, hguarantee, claim', hmoves, hfollows'⟩ :=
      hnext p.store ((ackTerms channelId).refl _) h.holds x
    have hread : AtRead p.calls[i]? ↔ claim.stage = .waiting := by
      rw [hi]
      have hasks : Asks op claim := hasks
      cases op with
      | session => exact ⟨fun _ => hasks, fun _ => trivial⟩
      | _ =>
        obtain ⟨base, hbase⟩ := hasks
        rw [hbase]
        exact ⟨fun hread => hread.elim, by rintro ⟨⟩⟩
    have hbegins : (∃ amount, t.claims[i]? = some ⟨amount, .waiting⟩) ↔ claim.stage = .waiting := by
      rw [hclaim]
      constructor
      · rintro ⟨amount, hsome⟩
        rw [Option.some.inj hsome]
      · intro hwaiting
        exact ⟨claim.amount, by rw [← hwaiting]⟩
    have hmoves : Moves channelId op p.store claim
        (consumerHandler server.ed op x p.store).1 claim' := hmoves
    have hsum : claim'.amount = amountOf directive := by
      rw [← hamount]
      cases hmoves <;> rfl
    have hcalls := h.calls_set hguarantee i
      (directive, next (consumerHandler server.ed op x p.store).2) hsum hfollows'
    -- a claim put back where it was changes nothing
    have hset : t.claims.set i claim = t.claims := by
      obtain ⟨hlt, heq⟩ := List.getElem?_eq_some_iff.mp hclaim
      rw [← heq, List.set_getElem_self]
    cases hmoves with
    | @idle _ _ _ amount base hsame =>
      rw [hset] at hcalls
      refine Or.inl ⟨⟨hholds, h.copy.trans hsame.1.symm, h.mark.trans hsame.2.symm, hcalls⟩, ?_⟩
      exact fun hr => absurd (hread.mp hr) (by simp)
    | @start _ _ amount hsame =>
      refine Or.inr ⟨.start i, ?_, imp_congr (hread.trans hbegins.symm) h.none_underWay_iff⟩
      have hreact : t.react (.start i) =
          { t with claims := t.claims.set i ⟨amount, .begun t.copy⟩ } := by
        simp [Increments.State.react, hclaim]
      rw [hreact]
      refine ⟨hholds, h.copy.trans hsame.1.symm, h.mark.trans hsame.2.symm, ?_⟩
      rw [h.copy]
      exact hcalls
    | @accept _ _ _ amount base hcopy hlt hmark =>
      rw [hset] at hcalls
      refine Or.inr ⟨.accept i, ?_, fun _ hbegins => hbegins.elim,
        fun _ hr => absurd (hread.mp hr) (by simp)⟩
      have hreact : t.react (.accept i) = { t with mark := base + amount } := by
        rw [← h.mark] at hlt
        simp [Increments.State.react, hclaim, hlt]
      rw [hreact]
      exact ⟨hholds, h.copy.trans hcopy.symm, hmark.symm, hcalls⟩
    | @record _ _ _ amount base hle hlt hcopy hmark =>
      refine Or.inr ⟨.record i, ?_, fun _ hbegins => hbegins.elim,
        fun _ hr => absurd (hread.mp hr) (by simp)⟩
      have hreact : t.react (.record i) = { t with
          copy := base + amount
          claims := t.claims.set i ⟨amount, .recorded base⟩ } := by
        rw [← h.mark] at hle
        rw [← h.copy] at hlt
        simp [Increments.State.react, hclaim, hle, hlt]
      rw [hreact]
      exact ⟨hholds, hcopy.symm, h.mark.trans hmark.symm, hcalls⟩
    | @fail _ _ _ _ hsame hopen =>
      refine Or.inr ⟨.fail i, ?_, imp_congr (hread.trans hbegins.symm) h.none_underWay_iff⟩
      have hreact : t.react (.fail i) =
          { t with claims := t.claims.set i { claim with stage := .failed } } := by
        obtain ⟨amount, stage⟩ := claim
        cases stage with
        | waiting => simp [Increments.State.react, hclaim]
        | begun base => simp [Increments.State.react, hclaim]
        | recorded base => exact absurd rfl (hopen base)
        | failed =>
          exfalso
          have hasks : Asks op ⟨amount, .failed⟩ := hasks
          cases op with
          | session => cases hasks
          | _ =>
            obtain ⟨base, hbase⟩ := hasks
            cases hbase
      rw [hreact]
      exact ⟨hholds, h.copy.trans hsame.1.symm, h.mark.trans hsame.2.symm, hcalls⟩
  · rw [hreact]
    refine Or.inl ⟨h, fun hread => ?_⟩
    rcases hi : p.calls[i]? with _ | ⟨directive, r⟩
    · rw [hi] at hread
      exact hread.elim
    · rw [hi] at hread
      cases r with
      | done r => exact hread.elim
      | call op next => exact absurd ⟨next, hi⟩ (hidle directive op)

theorem HasResolved.exists_eq {r : Script consumerInterface (Thrown CommitReceipt)}
    (h : HasResolved r) : ∃ receipt, r = .done (.ok receipt) := by
  cases r with
  | done r =>
    cases r with
    | ok receipt => exact ⟨receipt, rfl⟩
    | error e => exact h.elim
  | call op next => exact h.elim

/-- **Acks one at a time.**  When all calls have resolved, every delivery was charged its
amount exactly if no call read the watermark while another was pending. -/
theorem chargesEvery_iff_serial (server : SessionServer) (setup : List SessionServer.Event)
    (session : ActiveSession) (state : ChannelState) (run : List Event)
    (hstate : (server.machine.exec setup).store session.channelId = some state)
    (hcumulative : session.cumulative = state.cumulative.toNat)
    (hresolved : Resolved
      ((machine server ⟨session, (server.machine.exec setup).store⟩).exec run)) :
    ChargesEvery session.channelId state.cumulative
        ((machine server ⟨session, (server.machine.exec setup).store⟩).exec run) ↔
      (machine server ⟨session, (server.machine.exec setup).store⟩).Guarded Serial run := by
  have hledger : state.Ledger := by
    have haccounts := SessionServer.accounts_of_run server session.channelId setup
    unfold ChannelStore.Accounts at haccounts
    rw [hstate] at haccounts
    exact haccounts.toLedger
  have hinit : Mirrors server session.channelId
      (machine server ⟨session, (server.machine.exec setup).store⟩).init
      (Increments.machine session.cumulative).init := by
    refine ⟨⟨rfl, state, hstate, hledger⟩, rfl, ?_, .nil⟩
    rw [hcumulative]
    exact (mark_eq hstate).symm
  obtain ⟨run', hmirrors, hserial⟩ :=
    Machine.exists_simulation hinit (fun p t e h => h.step e) run
  rw [hserial]
  obtain ⟨⟨-, last, hlast, hlastLedger⟩, -, hmark, hcalls⟩ := hmirrors
  have hsettled : ((Increments.machine session.cumulative).exec run').Settled := by
    intro c hc
    obtain ⟨i, hi⟩ := List.mem_iff_getElem?.mp hc
    obtain ⟨call, hcall, -, hfollows⟩ := hcalls.flip.exists_getElem? hi
    obtain ⟨receipt, hdone⟩ := (hresolved call (List.mem_of_getElem? hcall)).exists_eq
    rw [hdone] at hfollows
    exact hfollows.1
  have htotal : ((Increments.machine session.cumulative).exec run').total =
      (((machine server ⟨session, (server.machine.exec setup).store⟩).exec run).calls.map
        fun call => amountOf call.1).sum := by
    have hamounts : List.Forall₂ (· = ·)
        (((Increments.machine session.cumulative).exec run').claims.map Claim.amount)
        (((machine server ⟨session, (server.machine.exec setup).store⟩).exec run).calls.map
          fun call => amountOf call.1) :=
      List.forall₂_map_left_iff.mpr (List.forall₂_map_right_iff.mpr
        (hcalls.imp fun call claim h => h.1).flip)
    rw [List.forall₂_eq_eq_eq] at hamounts
    rw [Increments.State.total, hamounts]
  rw [← Increments.total_iff_alone hsettled, hmark, mark_eq hlast, htotal, hcumulative]
  constructor
  · rintro ⟨st, hst, hsum, -⟩
    obtain rfl := Option.some.inj (hst.symm.trans hlast)
    exact hsum
  · intro hsum
    refine ⟨last, hlast, hsum, fun call hcall => ?_⟩
    obtain ⟨i, hi⟩ := List.mem_iff_getElem?.mp hcall
    obtain ⟨c, -, -, hfollows⟩ := hcalls.exists_getElem? hi
    obtain ⟨receipt, hdone⟩ := (hresolved call hcall).exists_eq
    rw [hdone] at hfollows
    obtain ⟨-, cumulative, st, hst, d, hd, hid, -⟩ := hfollows
    obtain rfl := Option.some.inj (hst.symm.trans hlast)
    rw [← hid]
    exact hlastLedger.committed_once hd

/-! ## Two deliveries -/

namespace Sample

/-- Open the channel and reserve deliveries of 10 and 20. -/
def setup : List SessionServer.Event :=
  List.reverse (
    [.start (.processOpen SessionServer.sampleOpen)] ++ SessionServer.steps 0 1 ++
    [.start (.beginDelivery {
      sessionId := "11111111111111111111111111111111", amount := 10, deliveryId := some "a" })] ++
    SessionServer.steps 1 1 ++
    [.start (.beginDelivery {
      sessionId := "11111111111111111111111111111111", amount := 20, deliveryId := some "b" })] ++
    SessionServer.steps 2 1)

/-- The directive of a delivery. -/
def directive (deliveryId amount : String) (sequence : UInt64) : MeteringDirective where
  deliveryId := deliveryId
  sessionId := "11111111111111111111111111111111"
  amount := amount
  currency := "USDC"
  sequence := sequence
  expiresAt := DEFAULT_SESSION_EXPIRES_AT
  commitUrl := none
  proof := none

def session : ActiveSession where
  channelId := "11111111111111111111111111111111"
  cumulative := 0
  expiresAt := 1
  nonce := 0
  signer := "11111111111111111111111111111112"

def parties : Parties := ⟨session, (SessionServer.sampleServer.machine.exec setup).store⟩

/-- The channel with both deliveries reserved. -/
def reserved : ChannelState :=
  { SessionServer.openedState "11111111111111111111111111111111"
      "11111111111111111111111111111112" 100 none with
    nextDeliverySequence := 2
    pendingDeliveries := [
      { deliveryId := "a", amount := 10, sequence := 1, expiresAt := DEFAULT_SESSION_EXPIRES_AT },
      { deliveryId := "b", amount := 20, sequence := 2, expiresAt := DEFAULT_SESSION_EXPIRES_AT }] }

/-- The call at a position performs its next operations; its signature ends in `checksum`. -/
def steps (position count : Nat) (checksum : UInt8) : List Event :=
  List.replicate count (.step position {
    signed := .ok (some ⟨List.replicate 63 0 ++ [checksum], rfl⟩)
    request := .ok ()
    response := .ok (402, "")
    server := ⟨0, .ok none⟩ })

/-- Both calls read the watermark before either goes on. -/
def race : List Event :=
  List.reverse (
    [.start (directive "a" "10" 1), .start (directive "b" "20" 2)] ++ steps 0 1 12 ++
    steps 1 1 22 ++ steps 0 8 12 ++ steps 1 8 22)

/-- The second call is made once the first has resolved. -/
def queue : List Event :=
  List.reverse (
    [.start (directive "a" "10" 1)] ++ steps 0 9 12 ++
    [.start (directive "b" "20" 2)] ++ steps 1 9 32)

/-- Both calls of the race resolve, and the server has charged 20 for 30. -/
theorem race_undercharges :
    Resolved ((machine SessionServer.sampleServer parties).exec race) ∧
      ¬ ChargesEvery session.channelId 0
        ((machine SessionServer.sampleServer parties).exec race) := by
  decide +kernel

theorem queue_chargesEvery :
    ChargesEvery session.channelId reserved.cumulative
      ((machine SessionServer.sampleServer parties).exec queue) :=
  (chargesEvery_iff_serial SessionServer.sampleServer setup session reserved queue
    (by decide +kernel) (by decide) (by decide +kernel)).mpr (by decide +kernel)

end Sample

end SessionConsumer
end Ts
end MppSdk
