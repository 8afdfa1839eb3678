import MppSdk.SessionOpening

/-! # Client and server open the same channel

The parameters of a channel as both sides are to derive them (`SessionConfig.openParams`):
the client from the challenge request and the server from its configuration, across two
carriages of JSON. -/

namespace MppSdk
open SessionServer Script

/-- The parameters of the channel that the configuration, the client's keys and its salt
determine. -/
def SessionConfig.openParams (config : SessionConfig) (payee mint tokenProgram : Pubkey)
    (cap : UInt64) (payer authorizedSigner : Pubkey) (salt : UInt64) : OpenChannelParams where
  payer
  payee
  mint
  authorizedSigner
  salt
  deposit := min cap config.maxCap
  gracePeriod := DEFAULT_GRACE_PERIOD_SECONDS
  recipients := config.splits.map fun split => { recipient := split.recipient, bps := split.bps }
  tokenProgram
  programId := config.programId.getD defaultProgramId

/-- The channel that is opened with these parameters. -/
def OpenChannelParams.opened (find : FindProgramAddress) (params : OpenChannelParams) :
    PaymentChannelOpen where
  channelId := (deriveChannelAddresses find params).channel
  payer := params.payer
  payee := params.payee
  mint := params.mint
  authorizedSigner := params.authorizedSigner
  salt := params.salt
  deposit := params.deposit
  gracePeriod := params.gracePeriod
  recipients := params.recipients
  tokenProgram := params.tokenProgram
  programId := params.programId

/-- The token program of a currency is one of the two. -/
theorem exists_tokenProgram (currency : String) (network : Option String) :
    ∃ key : Pubkey, defaultTokenProgramForCurrency currency network = key.toBase58 := by
  have htoken : programs.tokenKey.toBase58 = programs.TOKEN_PROGRAM := pubkeyOf_eq_iff.mpr rfl
  have htoken2022 : programs.token2022Key.toBase58 = programs.TOKEN_2022_PROGRAM :=
    pubkeyOf_eq_iff.mpr rfl
  unfold defaultTokenProgramForCurrency
  split
  · split
    · exact ⟨_, htoken2022.symm⟩
    · exact ⟨_, htoken.symm⟩
  · exact ⟨_, htoken.symm⟩

theorem SessionRequest.parsePubkey_toBase58 (key : Pubkey) (label : String) :
    parsePubkey key.toBase58 label = .ok key := by
  rw [parsePubkey, Bytes.fromBase58_toBase58]
  rfl

theorem parsePubkeyField_toBase58 (key : Pubkey) (field : String) :
    parsePubkeyField key.toBase58 field = .ok key :=
  mapErr_eq_ok.mpr (parsePubkey_eq_ok.mpr (Bytes.fromBase58_toBase58 key))

theorem parsePayloadPubkey_toBase58 (key : Pubkey) (field : String) :
    parsePayloadPubkey (some key.toBase58) field = .ok key := parsePubkeyField_toBase58 key field

/-- The splits of the challenge are read back as those of the configuration. -/
theorem SessionRequest.parseSplits_eq {request : SessionRequest}
    {splits : List SessionConfig.Split}
    (h : request.splits = splits.map fun s => { recipient := s.recipient.toBase58, bps := s.bps }) :
    request.parseSplits =
      .ok (splits.map fun split => { recipient := split.recipient, bps := split.bps }) := by
  rw [parseSplits, h]
  clear h
  induction splits with
  | nil => rfl
  | cons split splits ih =>
    rw [List.map_cons, List.mapM_cons, parsePubkey_toBase58]
    simp only [ok_bind, pure, Except.pure] at ih ⊢
    rw [ih]
    rfl

theorem PaymentChannelOpen.depositAmount_openPayload (opened : PaymentChannelOpen)
    (mode : SessionMode) (signature : String) :
    (opened.openPayload mode signature).depositAmount = .ok opened.deposit := by
  show okOrElse (parseU64 (toString opened.deposit)) _ = _
  rw [parseU64_toString]
  rfl

section Agreement
variable {find : FindProgramAddress} {server : SessionServer} {cap : UInt64}
  {payee mint tokenProgram payer authorizedSigner : Pubkey} {salt : Option UInt64}
  {uniqueSalt : UInt64}

/-- **What the client derives** from the request of a challenge. -/
theorem derivePaymentChannelOpen_eq (hpayee : server.config.recipient = payee.toBase58)
    (hmint : resolveStablecoinMint server.config.currency (some server.config.network) =
      some mint.toBase58)
    (htoken : defaultTokenProgramForCurrency server.config.currency (some server.config.network) =
      tokenProgram.toBase58) :
    derivePaymentChannelOpen find uniqueSalt {
        request := server.buildChallengeRequest cap, payer, authorizedSigner
        options := { salt } } =
      .ok ((server.config.openParams payee mint tokenProgram cap payer authorizedSigner
        (salt.getD uniqueSalt)).opened find) := by
  have hcap : SessionRequest.parseU64String (server.buildChallengeRequest cap).cap "session cap" =
      .ok (min cap server.config.maxCap) := by
    show okOrElse (parseU64 (toString (min cap server.config.maxCap))) _ = _
    rw [parseU64_toString]
    rfl
  have hsplits : (server.buildChallengeRequest cap).parseSplits = _ :=
    SessionRequest.parseSplits_eq rfl
  simp only [derivePaymentChannelOpen, hcap, hsplits]
  simp only [buildChallengeRequest, hmint, hpayee, htoken, okOrElse,
    SessionRequest.parsePubkey_toBase58, ok_bind]
  -- the program of the challenge, or the default on both sides
  rcases hprogram : server.config.programId with _ | programId
  · simp only [Option.map_none, SessionConfig.openParams, hprogram]
    rfl
  · simp only [Option.map_some, SessionRequest.parsePubkey_toBase58, ok_bind,
      SessionConfig.openParams, hprogram]
    rfl

/-- **What the server derives** from the payload of the open: the same parameters. -/
theorem paymentChannelOpenParams_eq (hpayee : server.config.recipient = payee.toBase58)
    (hmint : resolveStablecoinMint server.config.currency (some server.config.network) =
      some mint.toBase58)
    (htoken : defaultTokenProgramForCurrency server.config.currency (some server.config.network) =
      tokenProgram.toBase58) (mode : SessionMode) (signature : String) (chosen : UInt64) :
    let params :=
      server.config.openParams payee mint tokenProgram cap payer authorizedSigner chosen
    server.paymentChannelOpenParams find ((params.opened find).openPayload mode signature) =
      .ok params := by
  intro params
  have hdeposit : ((params.opened find).openPayload mode signature).depositAmount =
      .ok params.deposit := PaymentChannelOpen.depositAmount_openPayload _ mode signature
  have hexpected : expectedPaymentChannelMint server.config = .ok mint := by
    rw [expectedPaymentChannelMint, hmint]
    exact parsePubkeyField_toBase58 mint "currency"
  simp only [paymentChannelOpenParams, hdeposit, hexpected, hpayee, htoken]
  simp only [PaymentChannelOpen.openPayload, OpenPayload.paymentChannelWithMode,
    parsePayloadPubkey_toBase58, parsePubkeyField_toBase58, okOrElse, ok_bind]
  -- every field is the expected one, and so is the address derived from them
  have hpass : ∀ (key : Pubkey) (e : Error), rejectIf (key ≠ key) e = .ok () :=
    fun key e => rejectIf_neg fun h => h rfl
  simp only [OpenChannelParams.opened, params, SessionConfig.openParams, hpass, ok_bind]
  rfl

end Agreement

/-! ## The open is recorded -/

namespace SessionServer
variable (server : SessionServer)

/-- The on-chain check of `process_open` lets the payload pass: it is made for a push open
when an RPC url is configured, and the node then reports the transaction with the payload's
signature as successful. -/
def Confirms (payload : OpenPayload) (reply : StatusReply) : Prop :=
  payload.mode = .push → server.config.rpcUrl.isSome →
    (Bytes.fromBase58 64 payload.signature).isSome ∧ reply = .ok (some (.ok ()))

variable {server} {payload : OpenPayload} {store : ChannelStore} {xs : Nat → SessionInput}

theorem openStatus_eq_ok {sigStr : String} {reply : StatusReply} :
    openStatus sigStr reply = .ok () ↔ reply = .ok (some (.ok ())) := by
  rcases reply with e | _ | e | _ <;> simp [openStatus]

/-- The on-chain check of a push open, and the program after it. -/
theorem alone_verifyOpenSignature_bind {α : Type} (sigStr : String) (f : Unit → SessionM α) :
    alone (sessionHandler server.ed) (verifyOpenSignature sigStr >>= f).run xs store =
      match Bytes.fromBase58 64 sigStr with
      | none => (store, .error (.error (.other s!"invalid open tx signature '{sigStr}'")))
      | some _ => match openStatus sigStr (xs 0).signatureStatus with
        | .ok () => alone (sessionHandler server.ed) (f ()).run (fun n => xs (n + 1)) store
        | .error e => (store, .error e) := by
  unfold verifyOpenSignature
  rcases Bytes.fromBase58 64 sigStr with _ | sig
  · rfl
  · show alone (sessionHandler server.ed)
        (done (openStatus sigStr (xs 0).signatureStatus) >>= ExceptT.bindCont f) _ store = _
    rcases openStatus sigStr (xs 0).signatureStatus with e | u <;> rfl

variable (server payload store xs) in
/-- The check lets the rest of the program run, or ends it with an error. -/
theorem alone_confirmOpen_bind {α : Type} (f : Unit → SessionM α) :
    (server.Confirms payload (xs 0).signatureStatus → ∃ ys,
      alone (sessionHandler server.ed) (server.confirmOpen payload >>= f).run xs store =
        alone (sessionHandler server.ed) (f ()).run ys store) ∧
    (¬ server.Confirms payload (xs 0).signatureStatus → ∃ e,
      alone (sessionHandler server.ed) (server.confirmOpen payload >>= f).run xs store =
        (store, .error e)) := by
  by_cases hcheck : payload.mode = .push ∧ server.config.rpcUrl.isSome
  · have hconfirms : server.Confirms payload (xs 0).signatureStatus ↔
        (Bytes.fromBase58 64 payload.signature).isSome ∧
          openStatus payload.signature (xs 0).signatureStatus = .ok () := by
      rw [openStatus_eq_ok]
      exact ⟨fun h => h hcheck.1 hcheck.2, fun h _ _ => h⟩
    rw [confirmOpen, if_pos hcheck, hconfirms, alone_verifyOpenSignature_bind]
    rcases Bytes.fromBase58 64 payload.signature with _ | sig
    · exact ⟨fun h => (nomatch h.1), fun _ => ⟨_, rfl⟩⟩
    · rcases openStatus payload.signature (xs 0).signatureStatus with e | u
      · exact ⟨fun h => (nomatch h.2), fun _ => ⟨e, rfl⟩⟩
      · exact ⟨fun _ => ⟨_, rfl⟩, fun h => absurd ⟨rfl, rfl⟩ h⟩
  · have hconfirms : server.Confirms payload (xs 0).signatureStatus :=
      fun hpush hurl => absurd ⟨hpush, hurl⟩ hcheck
    rw [confirmOpen, if_neg hcheck]
    exact ⟨fun _ => ⟨xs, rfl⟩, fun h => absurd hconfirms h⟩

/-- **When an open is recorded.**  A payload with a session id and a deposit that fits the
cap is recorded exactly when the deposit is positive and the on-chain check lets it pass. -/
theorem processOpen_run {sessionId : String} {deposit : UInt64}
    (hmode : server.supportsMode payload.mode = true) (hid : payload.sessionId = .ok sessionId)
    (hdeposit : payload.depositAmount = .ok deposit) (hcap : deposit ≤ server.config.maxCap) :
    (∃ state, (alone (sessionHandler server.ed) (server.processOpen payload).run xs store).2 =
        .ok state) ↔
      0 < deposit ∧ server.Confirms payload (xs 0).signatureStatus := by
  have hsupported : ¬ server.supportsMode payload.mode = false := by simp [hmode]
  have hfits : ¬ deposit > server.config.maxCap := UInt64.not_lt.mpr hcap
  by_cases hpos : deposit = 0
  · -- a deposit of zero is refused before the check
    constructor
    · rintro ⟨state, hstate⟩
      simp only [processOpen, alone_lift_bind, rejectIf_neg hsupported, hid, hdeposit,
        rejectIf_pos hpos] at hstate
      cases hstate
    · rintro ⟨hlt, -⟩
      rw [hpos] at hlt
      exact absurd hlt (UInt64.lt_irrefl 0)
  · have hlt : 0 < deposit := UInt64.pos_iff_ne_zero.mpr hpos
    simp only [processOpen, alone_lift_bind, rejectIf_neg hsupported, hid, hdeposit,
      rejectIf_neg hpos, rejectIf_neg hfits]
    obtain ⟨hpass, hfail⟩ := alone_confirmOpen_bind server payload store xs fun _ => do
        let state := openedState sessionId payload.authorizedSigner deposit
          (payload.owner.or payload.payer)
        ask (.putChannel sessionId state)
        return state
    by_cases hconfirms : server.Confirms payload (xs 0).signatureStatus
    · obtain ⟨ys, hys⟩ := hpass hconfirms
      rw [hys]
      exact ⟨fun _ => ⟨hlt, hconfirms⟩, fun _ => ⟨_, rfl⟩⟩
    · obtain ⟨e, he⟩ := hfail hconfirms
      rw [he]
      refine iff_of_false ?_ fun h => hconfirms h.2
      rintro ⟨state, ⟨⟩⟩

theorem supportsMode_of_mem {mode : SessionMode}
    (h : mode ∈ server.config.modes ∨ server.config.modes = [] ∧ mode = .push) :
    server.supportsMode mode = true := by
  rcases h with h | ⟨hempty, rfl⟩
  · have hne : server.config.modes.isEmpty = false :=
      List.isEmpty_eq_false_iff.mpr (List.ne_nil_of_mem h)
    rw [supportsMode, hne]
    exact List.contains_iff_mem.mpr h
  · rw [supportsMode, hempty]
    rfl

end SessionServer

/-! ## Agreement -/

/-- **Client and server agree on the open of a session.**  The client derives the channel
from a challenge that came over JSON, and the server finds in the payload, carried over JSON
too, the parameters, the instruction and the address the client derived; it records the
channel when the deposit is positive and the on-chain check lets the payload pass. -/
theorem open_agreement (find : FindProgramAddress) (server : SessionServer)
    (cap uniqueSalt : UInt64) (salt : Option UInt64) (payer authorizedSigner payee mint : Pubkey)
    (mode : SessionMode) (signature : String) (challengeWay openWay : Json.Carriage)
    (hpayee : server.config.recipient = payee.toBase58)
    (hmint : resolveStablecoinMint server.config.currency (some server.config.network) =
      some mint.toBase58)
    (hmode : mode ∈ server.config.modes ∨ server.config.modes = [] ∧ mode = .push) :
    ∃ request opened payload,
      SessionRequest.ofJson (challengeWay.carry (server.buildChallengeRequest cap).toJson) =
        some request ∧
      derivePaymentChannelOpen find uniqueSalt
        { request, payer, authorizedSigner, options := { salt } } = .ok opened ∧
      (opened.payer = payer ∧ opened.authorizedSigner = authorizedSigner ∧
        opened.salt = salt.getD uniqueSalt) ∧
      OpenPayload.ofJson (openWay.carry (opened.openPayload mode signature).toJson) =
        some payload ∧
      server.paymentChannelOpenParams find payload = .ok opened.openChannelParams ∧
      server.paymentChannelOpenInstruction find payload =
        .ok (buildOpenInstruction find opened.openChannelParams) ∧
      opened.channelId = (deriveChannelAddresses find opened.openChannelParams).channel ∧
      ∀ store xs, (∃ state, (alone (sessionHandler server.ed)
          (server.processOpen payload).run xs store).2 = .ok state) ↔
        0 < min cap server.config.maxCap ∧ server.Confirms payload (xs 0).signatureStatus := by
  obtain ⟨tokenProgram, htoken⟩ :=
    exists_tokenProgram server.config.currency (some server.config.network)
  let params := server.config.openParams payee mint tokenProgram cap payer authorizedSigner
    (salt.getD uniqueSalt)
  have hparams : server.paymentChannelOpenParams find
      ((params.opened find).openPayload mode signature) = .ok params :=
    paymentChannelOpenParams_eq hpayee hmint htoken mode signature _
  refine ⟨server.buildChallengeRequest cap, params.opened find,
    (params.opened find).openPayload mode signature, SessionRequest.ofJson_carry challengeWay _,
    derivePaymentChannelOpen_eq hpayee hmint htoken, ⟨rfl, rfl, rfl⟩,
    OpenPayload.ofJson_carry openWay _, hparams, ?_, rfl, ?_⟩
  · rw [paymentChannelOpenInstruction, hparams]
    rfl
  · intro store xs
    have hdeposit : ((params.opened find).openPayload mode signature).depositAmount =
        .ok (min cap server.config.maxCap) :=
      PaymentChannelOpen.depositAmount_openPayload _ mode signature
    have hcap : min cap server.config.maxCap ≤ server.config.maxCap := by
      show (if cap ≤ server.config.maxCap then cap else server.config.maxCap) ≤ _
      split
      · assumption
      · exact UInt64.le_refl _
    exact processOpen_run (supportsMode_of_mem hmode) rfl hdeposit hcap

namespace OpenSample

/-- The sample server with the node that confirms the opens of its clients. -/
def server : SessionServer :=
  { sampleServer with
    config := { recipient := programs.SYSTEM_PROGRAM, rpcUrl := some "http://localhost:8899" } }

/-- Every address is the key of the program. -/
def find : FindProgramAddress := fun _ program => (program, 255)

theorem usdc_isSome : (Bytes.fromBase58 32 mints.USDC_MAINNET).isSome := by decide +kernel

/-- The mint of the default currency. -/
def usdc : Pubkey := pubkeyOf mints.USDC_MAINNET usdc_isSome

theorem recipient_eq : server.config.recipient = programs.systemKey.toBase58 :=
  (pubkeyOf_eq_iff.mpr rfl).symm

theorem mint_eq : resolveStablecoinMint server.config.currency (some server.config.network) =
    some usdc.toBase58 := by
  have husdc : usdc.toBase58 = mints.USDC_MAINNET := pubkeyOf_eq_iff.mpr rfl
  rw [husdc]
  rfl

/-- The signature of 64 zero bytes. -/
def signature : String := "1111111111111111111111111111111111111111111111111111111111111111"

theorem opens : ∃ request opened payload,
    SessionRequest.ofJson (Json.Carriage.direct.carry (server.buildChallengeRequest 5).toJson) =
      some request ∧
    derivePaymentChannelOpen find 7
      { request, payer := usdc, authorizedSigner := usdc, options := { salt := none } } =
        .ok opened ∧
    (opened.payer = usdc ∧ opened.authorizedSigner = usdc ∧ opened.salt = 7) ∧
    OpenPayload.ofJson (Json.Carriage.direct.carry (opened.openPayload .push signature).toJson) =
      some payload ∧
    server.paymentChannelOpenParams find payload = .ok opened.openChannelParams ∧
    server.paymentChannelOpenInstruction find payload =
      .ok (buildOpenInstruction find opened.openChannelParams) ∧
    opened.channelId = (deriveChannelAddresses find opened.openChannelParams).channel ∧
    ∀ store xs, (∃ state, (alone (sessionHandler server.ed)
        (server.processOpen payload).run xs store).2 = .ok state) ↔
      0 < min 5 server.config.maxCap ∧ server.Confirms payload (xs 0).signatureStatus :=
  open_agreement find server 5 7 none usdc usdc programs.systemKey usdc .push signature .direct .direct
    recipient_eq mint_eq (.inl List.mem_cons_self)

theorem refused_of_unknown {opened : PaymentChannelOpen}
    (hcap : opened.deposit ≤ server.config.maxCap) :
    ∃ e, (alone (sessionHandler server.ed)
      (server.processOpen (opened.openPayload .push signature)).run
        (fun _ => ⟨0, .ok none⟩) fun _ => none).2 = .error e := by
  have hunknown : ¬ server.Confirms (opened.openPayload .push signature) (.ok none) :=
    fun h => nomatch (h rfl rfl).2
  rcases hend : (alone (sessionHandler server.ed)
      (server.processOpen (opened.openPayload .push signature)).run
        (fun _ => ⟨0, .ok none⟩) fun _ => none).2 with e | state
  · exact ⟨e, rfl⟩
  · have hopens := (processOpen_run (by rfl) rfl
      (opened.depositAmount_openPayload .push signature) hcap).mp ⟨state, hend⟩
    exact absurd hopens.2 hunknown

/-- A push open whose transaction the node does not know is refused, though its parameters
are the ones the server expects. -/
theorem unconfirmed_refused : ∃ opened,
    derivePaymentChannelOpen find 7
      { request := server.buildChallengeRequest 5, payer := usdc, authorizedSigner := usdc } =
        .ok opened ∧
    server.paymentChannelOpenParams find (opened.openPayload .push signature) =
      .ok opened.openChannelParams ∧
    0 < min 5 server.config.maxCap ∧
    ∃ e, (alone (sessionHandler server.ed) (server.processOpen (opened.openPayload .push signature)).run
      (fun _ => ⟨0, .ok none⟩) fun _ => none).2 = .error e := by
  obtain ⟨tokenProgram, htoken⟩ :=
    exists_tokenProgram server.config.currency (some server.config.network)
  refine ⟨_, derivePaymentChannelOpen_eq recipient_eq mint_eq htoken,
    paymentChannelOpenParams_eq recipient_eq mint_eq htoken .push signature _, by decide, ?_⟩
  have hcap : min 5 server.config.maxCap ≤ server.config.maxCap := by decide
  exact refused_of_unknown hcap

end OpenSample

end MppSdk
