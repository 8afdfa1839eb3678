import MppSdk.OpenAgreement
import MppSdk.TsSessionClient

/-! # The TypeScript session client: opening a payment channel

`client/PaymentChannels.ts`: the fields of a channel as the client derives them from a
challenge (`preparePaymentChannelOpen`), the `open` instruction it puts in its transaction,
and the `open` action it sends.

The server derives the same channel from its configuration (`SessionServer`), and the two
agree except where the constants of the client differ: it knows no mint of the testnet, and
it takes the token program for the one of every mint (`opens_alike_iff`). -/

namespace MppSdk
namespace Ts

/-! ## Preparing the open -/

/-- `PAYMENT_CHANNELS_PROGRAM`. -/
def PAYMENT_CHANNELS_PROGRAM : String := "GuoKrzaBiZnW5DvJ3yZVE7xHqbcBvaX9SH6P6Cn9gNvc"
/-- `RENT_SYSVAR`. -/
def RENT_SYSVAR : String := "SysvarRent111111111111111111111111111111111"
/-- `OPEN_DISCRIMINATOR`. -/
def OPEN_DISCRIMINATOR : UInt8 := 1
/-- `DEFAULT_GRACE_PERIOD_SECONDS`. -/
def DEFAULT_GRACE_PERIOD_SECONDS : UInt32 := 900

/-- `parseU64`. -/
def parseU64 (value : AmountLike) (name : String) : Thrown UInt64 := do
  let parsed ← match value with
    | .bigint n => .ok n
    | .number n => okOrElse n { message := s!"{name} must be a safe integer" }
    | .text s => do
        throwIf (¬ IsDigits s) s!"{name} must be an unsigned integer"
        bigInt s
  throwIf (parsed < 0 ∨ parsed > U64_MAX) s!"{name} must fit in u64"
  return .ofNat parsed.toNat

/-- `derivePaymentChannelOpen.Parameters`; the grace period and the shares are the numbers
that their encoders accept. -/
structure DeriveParameters where
  authorizedSigner : String
  deposit : Option AmountLike := none
  gracePeriod : Option UInt32 := none
  payer : String
  programAddress : Option String := none
  recipients : Option (List SessionSplit) := none
  request : SessionRequest
  salt : Option AmountLike := none
  tokenProgram : Option String := none

/-- `PreparedPaymentChannelOpen`. -/
structure PreparedPaymentChannelOpen where
  channelId : Pubkey
  deposit : UInt64
  gracePeriod : UInt32
  mint : String
  payee : Pubkey
  payer : Pubkey
  programAddress : Pubkey
  recipients : List Distribution
  salt : UInt64
  tokenProgram : Pubkey
deriving DecidableEq

/-- `findPaymentChannelPda`. -/
def findPaymentChannelPda (find : FindProgramAddress)
    (authorizedSigner mint payee payer programAddress : Pubkey) (salt : UInt64) : Pubkey :=
  (find ["channel".toUTF8.toList, payer.toList, payee.toList, mint.toList,
    authorizedSigner.toList, leBytes 8 salt.toNat] programAddress).1

/-- `findEventAuthorityPda`. -/
def findEventAuthorityPda (find : FindProgramAddress) (programAddress : Pubkey) : Pubkey :=
  (find ["event_authority".toUTF8.toList] programAddress).1

/-- The recipients with their addresses. -/
def toRecipients (splits : List SessionSplit) : Thrown (List Distribution) :=
  splits.mapM fun split => do return { bps := split.bps, recipient := ← address split.recipient }

/-- `preparePaymentChannelOpen`; `randomU64` is the salt that is drawn. -/
def preparePaymentChannelOpen (find : FindProgramAddress) (randomU64 : UInt64)
    (parameters : DeriveParameters) : Thrown PreparedPaymentChannelOpen := do
  let request := parameters.request
  let network := request.network.getD "mainnet-beta"
  let mint ← okOrElse (truthy (resolveStablecoinMint request.currency (some network)))
    { message := "payment-channel sessions require an SPL token currency" }
  let programAddress ← address
    ((parameters.programAddress.or request.programId).getD PAYMENT_CHANNELS_PROGRAM)
  let tokenProgram ← address (parameters.tokenProgram.getD programs.TOKEN_PROGRAM)
  let payer ← address parameters.payer
  let payee ← address request.recipient
  let mintAddress ← address mint
  let authorizedSigner ← address parameters.authorizedSigner
  let deposit ← parseU64 (parameters.deposit.getD (.text request.cap)) "deposit"
  let salt ← parseU64 (parameters.salt.getD (.bigint randomU64.toNat)) "salt"
  let gracePeriod := parameters.gracePeriod.getD DEFAULT_GRACE_PERIOD_SECONDS
  let recipients ← toRecipients (parameters.recipients.getD request.splits)
  return {
    channelId :=
      findPaymentChannelPda find authorizedSigner mintAddress payee payer programAddress salt
    deposit, gracePeriod, mint, payee, payer, programAddress, recipients, salt, tokenProgram }

/-! ## The open instruction -/

/-- `OpenPaymentChannelInstructionParameters`. -/
structure OpenInstructionParameters where
  associatedTokenProgram : Pubkey
  authorizedSigner : Pubkey
  channel : Pubkey
  channelTokenAccount : Pubkey
  deposit : UInt64
  eventAuthority : Pubkey
  gracePeriod : UInt32
  mint : Pubkey
  payee : Pubkey
  payer : Pubkey
  payerTokenAccount : Pubkey
  programAddress : Pubkey
  recipients : List Distribution
  rent : Pubkey
  salt : UInt64
  selfProgram : Pubkey
  tokenProgram : Pubkey

/-- `getOpenInstructionData`. -/
def getOpenInstructionData (parameters : OpenInstructionParameters) : List UInt8 :=
  [OPEN_DISCRIMINATOR] ++ (leBytes 8 parameters.salt.toNat ++ leBytes 8 parameters.deposit.toNat ++
    leBytes 4 parameters.gracePeriod.toNat ++ (leBytes 4 parameters.recipients.length ++
      parameters.recipients.flatMap fun entry =>
        entry.recipient.toList ++ leBytes 2 entry.bps.toNat))

/-- `AccountRole`. -/
inductive AccountRole : Type
  | READONLY
  | WRITABLE
  | WRITABLE_SIGNER
deriving DecidableEq

/-- An account in its role. -/
def AccountRole.account (role : AccountRole) (address : Pubkey) : AccountMeta where
  pubkey := address
  isSigner := role = .WRITABLE_SIGNER
  isWritable := role ≠ .READONLY

/-- `getOpenPaymentChannelInstruction`. -/
def getOpenPaymentChannelInstruction (parameters : OpenInstructionParameters) : Instruction where
  accounts := [
    AccountRole.WRITABLE_SIGNER.account parameters.payer,
    AccountRole.READONLY.account parameters.payee,
    AccountRole.READONLY.account parameters.mint,
    AccountRole.READONLY.account parameters.authorizedSigner,
    AccountRole.WRITABLE.account parameters.channel,
    AccountRole.WRITABLE.account parameters.payerTokenAccount,
    AccountRole.WRITABLE.account parameters.channelTokenAccount,
    AccountRole.READONLY.account parameters.tokenProgram,
    AccountRole.READONLY.account programs.systemKey,
    AccountRole.READONLY.account parameters.rent,
    AccountRole.READONLY.account parameters.associatedTokenProgram,
    AccountRole.READONLY.account parameters.eventAuthority,
    AccountRole.READONLY.account parameters.selfProgram]
  data := getOpenInstructionData parameters
  programId := parameters.programAddress

/-- The instruction of a prepared open, as `buildOpenPaymentChannelTransaction` makes it. -/
def PreparedPaymentChannelOpen.openInstruction (find : FindProgramAddress)
    (opened : PreparedPaymentChannelOpen) (authorizedSigner : String) : Thrown Instruction := do
  let mint ← address opened.mint
  let authorizedSigner ← address authorizedSigner
  let associatedTokenProgram ← address programs.ASSOCIATED_TOKEN_PROGRAM
  let rent ← address RENT_SYSVAR
  return getOpenPaymentChannelInstruction {
    associatedTokenProgram
    authorizedSigner
    channel := opened.channelId
    channelTokenAccount := associatedTokenAddress find opened.channelId opened.tokenProgram mint
    deposit := opened.deposit
    eventAuthority := findEventAuthorityPda find opened.programAddress
    gracePeriod := opened.gracePeriod
    mint
    payee := opened.payee
    payer := opened.payer
    payerTokenAccount := associatedTokenAddress find opened.payer opened.tokenProgram mint
    programAddress := opened.programAddress
    recipients := opened.recipients
    rent
    salt := opened.salt
    selfProgram := opened.programAddress
    tokenProgram := opened.tokenProgram }

/-! ## The open action -/

/-- What `openPaymentChannelAction` sends. -/
structure OpenAction where
  authorizedSigner : String
  channelId : String
  deposit : String
  gracePeriod : UInt32
  mint : String
  mode : SessionMode
  payee : String
  payer : String
  salt : String
  signature : String
  transaction : Option String
deriving DecidableEq

/-- The fields of the action in JSON. -/
def OpenAction.fields (action : OpenAction) : List (String × Option Json) := [
    ("action", some (.str "open")),
    ("authorizedSigner", some (.str action.authorizedSigner)),
    ("channelId", some (.str action.channelId)),
    ("deposit", some (.str action.deposit)),
    ("gracePeriod", some (.unsigned action.gracePeriod.toUInt64)),
    ("mint", some (.str action.mint)),
    ("mode", some action.mode.toJson),
    ("payee", some (.str action.payee)),
    ("payer", some (.str action.payer)),
    ("salt", some (.str action.salt)),
    ("signature", some (.str action.signature)),
    ("transaction", action.transaction.map .str)]

/-- `JSON.stringify` of the action. -/
def OpenAction.toJson (action : OpenAction) : Json := .object action.fields

/-- `openPaymentChannelAction`, with the fields of a prepared open. -/
def PreparedPaymentChannelOpen.openPaymentChannelAction (opened : PreparedPaymentChannelOpen)
    (authorizedSigner : String) (mode : SessionMode) (signature : String)
    (transaction : Option String) : Thrown OpenAction := do
  return {
    authorizedSigner
    channelId := opened.channelId.toBase58
    deposit := toString (← parseAmount (.text (toString opened.deposit)) "deposit")
    gracePeriod := opened.gracePeriod
    mint := opened.mint
    mode
    payee := opened.payee.toBase58
    payer := opened.payer.toBase58
    salt := toString (← parseAmount (.text (toString opened.salt)) "salt")
    signature
    transaction := truthy transaction }

/-! ## Values that are read back -/

@[simp] theorem address_toBase58 (key : Pubkey) : address key.toBase58 = .ok key := by
  rw [address, Bytes.fromBase58_toBase58]
  rfl

/-- An amount that the session accepts is a `u64` of the channel. -/
theorem parseU64_of_parseAmount {value : AmountLike} {name name' : String} {n : Nat}
    (h : parseAmount value name = .ok n) : parseU64 value name' = .ok (.ofNat n) := by
  simp only [parseAmount, bind_eq_ok, rejectIf_eq_ok, pure, Except.pure, Except.ok.injEq] at h
  obtain ⟨parsed, hparsed, _, hsigned, _, hfits, rfl⟩ := h
  have hrange : ¬ (parsed < 0 ∨ parsed > U64_MAX) := fun h => h.elim hsigned hfits
  cases value with
  | bigint n =>
    obtain rfl : n = parsed := Except.ok.inj hparsed
    simp only [parseU64, ok_bind, throwIf, rejectIf_neg hrange]
    rfl
  | number n =>
    obtain rfl := okOrElse_eq_ok.mp hparsed
    simp only [parseU64, okOrElse, ok_bind, throwIf, rejectIf_neg hrange]
    rfl
  | text s =>
    simp only [parseInteger, bind_eq_ok, rejectIf_eq_ok] at hparsed
    obtain ⟨_, hdigits, hvalue⟩ := hparsed
    simp only [parseU64, throwIf, rejectIf_neg hdigits, hvalue, ok_bind, rejectIf_neg hrange]
    rfl

theorem parseU64_toString (n : UInt64) (name : String) :
    parseU64 (.text (toString n)) name = .ok n := by
  have hread : parseAmount (.text (toString n.toNat)) name = .ok n.toNat :=
    parseAmount_toString n.toNat_lt name
  rw [show toString n = toString n.toNat from rfl, parseU64_of_parseAmount hread,
    UInt64.ofNat_toNat]

theorem parseU64_bigint (n : UInt64) (name : String) :
    parseU64 (.bigint n.toNat) name = .ok n := by
  have hread : parseAmount (.bigint n.toNat) name = .ok n.toNat := by
    rw [parseAmount_bigint, if_pos n.toNat_lt]
  rw [parseU64_of_parseAmount hread, UInt64.ofNat_toNat]

theorem toRecipients_eq (splits : List SessionConfig.Split) :
    toRecipients (splits.map fun s => { recipient := s.recipient.toBase58, bps := s.bps }) =
      .ok (splits.map fun split => { recipient := split.recipient, bps := split.bps }) := by
  unfold toRecipients
  induction splits with
  | nil => rfl
  | cons split splits ih =>
    rw [List.map_cons, List.mapM_cons, address_toBase58]
    simp only [ok_bind, pure, Except.pure] at ih ⊢
    rw [ih]
    rfl

/-- **The action is read** by the server as an `open` payload with the same fields. -/
theorem OpenAction.ofJson_carry (c : Json.Carriage) (action : OpenAction) {salt : UInt64}
    (h : action.salt = toString salt) :
    OpenPayload.ofJson (c.carry action.toJson) = some {
      mode := action.mode
      channelId := some action.channelId
      deposit := some action.deposit
      payer := some action.payer
      payee := some action.payee
      mint := some action.mint
      salt := some salt
      gracePeriod := some action.gracePeriod
      transaction := action.transaction
      authorizedSigner := action.authorizedSigner
      signature := action.signature } := by
  have hnames : (action.fields.map Prod.fst).Nodup := by simp [fields]
  obtain ⟨arrived, hobj, harrived⟩ := c.carry_object hnames
  have text (key s : String) (hkey : action.fields.lookup key = some (some (.str s))) :
      Json.optional Json.asStr arrived key = some (some s) :=
    harrived.optional_eq (v := some s) (Json.survives_str c) hkey
  have absent (key : String) (hkey : action.fields.lookup key = none) :
      Json.optional Json.asStr arrived key = some none := by
    have hfield : Json.field arrived key = none := by
      rw [harrived, hkey]
      rfl
    rw [Json.optional, hfield]
  have hmode : Json.required SessionMode.ofJson arrived "mode" = some action.mode :=
    harrived.required_eq (SessionMode.survives c) rfl
  have hwritten : action.fields.lookup "salt" = some ((some salt).map u64ToString) := by
    show some (some (Json.str action.salt)) = _
    rw [h]
    rfl
  have hsalt : Json.optional u64FromStringOrNumber arrived "salt" = some (some salt) :=
    harrived.optional_eq (v := some salt) (survives_u64 c) hwritten
  have hgracePeriod : Json.optional Json.asU32 arrived "gracePeriod" =
      some (some action.gracePeriod) :=
    harrived.optional_eq (v := some action.gracePeriod) (Json.survives_u32 c) rfl
  have htransaction : Json.optional Json.asStr arrived "transaction" = some action.transaction :=
    harrived.optional_eq (Json.survives_str c) rfl
  have hsigner : Json.required Json.asStr arrived "authorizedSigner" =
      some action.authorizedSigner := harrived.required_eq (Json.survives_str c) rfl
  have hsignature : Json.required Json.asStr arrived "signature" = some action.signature :=
    harrived.required_eq (Json.survives_str c) rfl
  rw [toJson, hobj]
  simp only [OpenPayload.ofJson, hmode, text "channelId" _ rfl, text "deposit" _ rfl,
    text "payer" _ rfl, text "payee" _ rfl, text "mint" _ rfl, hsalt, hgracePeriod, htransaction,
    absent "tokenAccount" rfl, absent "approvedAmount" rfl, absent "owner" rfl,
    absent "initMultiDelegateTx" rfl, absent "updateDelegationTx" rfl, hsigner, hsignature]
  rfl

/-! ## The constants of both sides -/

/-- The client resolves a currency as the server does, except a symbol on the testnet, which
it takes for the one of the mainnet. -/
theorem resolveStablecoinMint_cases (currency network : String) :
    resolveStablecoinMint currency (some network) =
      MppSdk.resolveStablecoinMint currency (some network) ∨
    network = "testnet" ∧
      (toUppercase currency = "USDC" ∧
        resolveStablecoinMint currency (some network) = some mints.USDC_MAINNET ∧
        MppSdk.resolveStablecoinMint currency (some network) = some mints.USDC_TESTNET ∨
      toUppercase currency = "USDG" ∧
        resolveStablecoinMint currency (some network) = some mints.USDG_MAINNET ∧
        MppSdk.resolveStablecoinMint currency (some network) = some mints.USDG_TESTNET ∨
      toUppercase currency = "PYUSD" ∧
        resolveStablecoinMint currency (some network) = some mints.PYUSD_MAINNET ∧
        MppSdk.resolveStablecoinMint currency (some network) = some mints.PYUSD_TESTNET) := by
  by_cases htestnet : network = "testnet"
  · subst htestnet
    unfold resolveStablecoinMint MppSdk.resolveStablecoinMint
    split <;> simp_all [List.lookup_cons, List.lookup_nil, USDC, USDT, USDG, PYUSD, CASH]
  · refine .inl ?_
    unfold resolveStablecoinMint MppSdk.resolveStablecoinMint
    by_cases hdevnet : network = "devnet"
    · subst hdevnet
      split <;> simp_all [List.lookup_cons, List.lookup_nil, USDC, USDT, USDG, PYUSD, CASH]
    · -- every other network has the mints of the mainnet
      have hone (mint : String) : ([("mainnet-beta", mint)].lookup network).or
          ([("mainnet-beta", mint)].lookup "mainnet-beta") = some mint := by
        by_cases hnetwork : network = "mainnet-beta"
        · subst hnetwork
          rfl
        · rw [List.lookup_cons, beq_false_of_ne hnetwork]
          rfl
      have htwo (devnet mint : String) :
          ([("devnet", devnet), ("mainnet-beta", mint)].lookup network).or
            ([("devnet", devnet), ("mainnet-beta", mint)].lookup "mainnet-beta") = some mint := by
        rw [List.lookup_cons, beq_false_of_ne hdevnet]
        exact hone mint
      simp only [Option.getD_some, USDC, USDT, USDG, PYUSD, CASH, hone, htwo]
      split <;> simp_all

/-! ## Agreement with the server -/

/-- The parameters of a caller that leaves the options at their defaults, but may choose the
salt. -/
def DeriveParameters.default (request : SessionRequest) (payer authorizedSigner : Pubkey)
    (salt : Option UInt64) : DeriveParameters where
  authorizedSigner := authorizedSigner.toBase58
  payer := payer.toBase58
  request
  salt := salt.map fun n : UInt64 => .bigint n.toNat

/-- The open that the keys of a configuration determine, for a token program. -/
def PreparedPaymentChannelOpen.ofParams (find : FindProgramAddress) (params : OpenChannelParams) :
    PreparedPaymentChannelOpen where
  channelId := (deriveChannelAddresses find params).channel
  deposit := params.deposit
  gracePeriod := params.gracePeriod
  mint := params.mint.toBase58
  payee := params.payee
  payer := params.payer
  programAddress := params.programId
  recipients := params.recipients
  salt := params.salt
  tokenProgram := params.tokenProgram

theorem toBase58_ne_empty (key : Pubkey) : key.toBase58 ≠ "" := by
  intro h
  have hread : Bytes.fromBase58 32 "" = some key := by rw [← h, Bytes.fromBase58_toBase58]
  have hempty : Bytes.fromBase58 32 "" = none := by decide
  rw [hempty] at hread
  cases hread

section Agreement
variable {find : FindProgramAddress} {server : SessionServer} {cap randomU64 : UInt64}
  {salt : Option UInt64} {payer authorizedSigner payee mint : Pubkey}

/-- **What the client prepares** from the request of a challenge. -/
theorem preparePaymentChannelOpen_eq (hpayee : server.config.recipient = payee.toBase58)
    (hmint : resolveStablecoinMint server.config.currency (some server.config.network) =
      some mint.toBase58) :
    preparePaymentChannelOpen find randomU64
        (.default (server.buildChallengeRequest cap) payer authorizedSigner salt) =
      .ok (.ofParams find (server.config.openParams payee mint programs.tokenKey cap payer
        authorizedSigner (salt.getD randomU64))) := by
  have htoken : address programs.TOKEN_PROGRAM = .ok programs.tokenKey := by
    have htext : programs.tokenKey.toBase58 = programs.TOKEN_PROGRAM := pubkeyOf_eq_iff.mpr rfl
    rw [← htext, address_toBase58]
  have hprogram : address ((server.config.programId.map (·.toBase58)).getD
      PAYMENT_CHANNELS_PROGRAM) = .ok (server.config.programId.getD defaultProgramId) := by
    have htext : defaultProgramId.toBase58 = PAYMENT_CHANNELS_PROGRAM := pubkeyOf_eq_iff.mpr rfl
    rcases server.config.programId with _ | programId
    · rw [← htext]
      exact address_toBase58 _
    · exact address_toBase58 _
  have hsalt : parseU64 ((salt.map fun n : UInt64 => AmountLike.bigint n.toNat).getD
      (.bigint randomU64.toNat)) "salt" = .ok (salt.getD randomU64) := by
    rcases salt with _ | n
    · exact parseU64_bigint _ _
    · exact parseU64_bigint _ _
  have hnonempty : truthy (some mint.toBase58) = some mint.toBase58 :=
    Option.filter_eq_some_iff.mpr ⟨rfl, decide_eq_true (toBase58_ne_empty mint)⟩
  unfold preparePaymentChannelOpen
  simp only [DeriveParameters.default, SessionServer.buildChallengeRequest, Option.getD_some,
    Option.getD_none, Option.none_or, hmint, hnonempty, okOrElse, ok_bind, hprogram, htoken, hpayee,
    address_toBase58, parseU64_toString, hsalt, toRecipients_eq]
  rfl

/-- **What the client puts in its transaction**: the instruction of the parameters. -/
theorem openInstruction_ofParams (find : FindProgramAddress) (params : OpenChannelParams) :
    (PreparedPaymentChannelOpen.ofParams find params).openInstruction find
        params.authorizedSigner.toBase58 = .ok (buildOpenInstruction find params) := by
  have hassociated : address programs.ASSOCIATED_TOKEN_PROGRAM = .ok programs.associatedTokenKey := by
    have htext : programs.associatedTokenKey.toBase58 = programs.ASSOCIATED_TOKEN_PROGRAM :=
      pubkeyOf_eq_iff.mpr rfl
    rw [← htext, address_toBase58]
  have hrent : address RENT_SYSVAR = .ok rentSysvarId := by
    have htext : rentSysvarId.toBase58 = RENT_SYSVAR := pubkeyOf_eq_iff.mpr rfl
    rw [← htext, address_toBase58]
  unfold PreparedPaymentChannelOpen.openInstruction
  simp only [PreparedPaymentChannelOpen.ofParams, address_toBase58, hassociated, hrent, ok_bind]
  simp only [getOpenPaymentChannelInstruction, getOpenInstructionData, buildOpenInstruction,
    openArgsBytes, AccountRole.account, AccountMeta.new, AccountMeta.newReadonly,
    List.append_assoc]
  rfl

/-- **What the server reads** of the action: a payload with the fields of the parameters. -/
theorem openPaymentChannelAction_ofParams (find : FindProgramAddress) (way : Json.Carriage)
    (params : OpenChannelParams) (mode : SessionMode) (signature : String) (transaction : Option String) :
    ∃ action, (PreparedPaymentChannelOpen.ofParams find params).openPaymentChannelAction
        params.authorizedSigner.toBase58 mode signature transaction = .ok action ∧
      OpenPayload.ofJson (way.carry action.toJson) = some
        { (params.opened find).openPayload mode signature with
          transaction := truthy transaction } := by
  have hread (n : UInt64) (name : String) : parseAmount (.text (toString n)) name = .ok n.toNat :=
    parseAmount_toString n.toNat_lt name
  unfold PreparedPaymentChannelOpen.openPaymentChannelAction
  simp only [PreparedPaymentChannelOpen.ofParams, hread, ok_bind]
  exact ⟨_, rfl, OpenAction.ofJson_carry way _ rfl⟩

end Agreement

/-- The open that the client prepares is accepted by the server, and both make the same
instruction of it. -/
def OpensAlike (find : FindProgramAddress) (server : SessionServer) (cap randomU64 : UInt64)
    (salt : Option UInt64) (payer authorizedSigner : Pubkey) (mode : SessionMode)
    (signature : String) (transaction : Option String) (way : Json.Carriage) : Prop :=
  ∃ opened action payload params instruction,
    preparePaymentChannelOpen find randomU64
      (.default (server.buildChallengeRequest cap) payer authorizedSigner salt) = .ok opened ∧
    opened.openPaymentChannelAction authorizedSigner.toBase58 mode signature transaction =
      .ok action ∧
    OpenPayload.ofJson (way.carry action.toJson) = some payload ∧
    server.paymentChannelOpenParams find payload = .ok params ∧
    server.paymentChannelOpenInstruction find payload = .ok instruction ∧
    opened.openInstruction find authorizedSigner.toBase58 = .ok instruction

section Agreement
variable {find : FindProgramAddress} {server : SessionServer} {cap randomU64 : UInt64}
  {salt : Option UInt64} {payer authorizedSigner payee mint : Pubkey} {mode : SessionMode}
  {signature : String} {transaction : Option String} {way : Json.Carriage}

theorem resolvesToKey (hmint : MppSdk.resolveStablecoinMint server.config.currency
      (some server.config.network) = some mint.toBase58) :
    ∃ key : Pubkey, resolveStablecoinMint server.config.currency (some server.config.network) =
      some key.toBase58 := by
  have key (s : String) (h : (Bytes.fromBase58 32 s).isSome) : some s = some (pubkeyOf s h).toBase58 :=
    congrArg some (pubkeyOf_eq_iff.mpr rfl).symm
  obtain heq | ⟨-, ⟨-, h, -⟩ | ⟨-, h, -⟩ | ⟨-, h, -⟩⟩ :=
    resolveStablecoinMint_cases server.config.currency server.config.network
  · exact ⟨mint, heq.trans hmint⟩
  · exact ⟨_, h.trans (key mints.USDC_MAINNET (by decide +kernel))⟩
  · exact ⟨_, h.trans (key mints.USDG_MAINNET (by decide +kernel))⟩
  · exact ⟨_, h.trans (key mints.PYUSD_MAINNET (by decide +kernel))⟩

/-- What an accepted payload says of the mint and the token program. -/
theorem mint_tokenProgram_of_accepted {payload : OpenPayload} {params : OpenChannelParams}
    (h : server.paymentChannelOpenParams find payload = .ok params) :
    payload.mint = some params.mint.toBase58 ∧
      MppSdk.resolveStablecoinMint server.config.currency (some server.config.network) =
        some params.mint.toBase58 ∧
      MppSdk.defaultTokenProgramForCurrency server.config.currency (some server.config.network) =
        params.tokenProgram.toBase58 := by
  have text {s field : String} {key : Pubkey} (hs : parsePubkeyField s field = .ok key) :
      s = key.toBase58 := Bytes.fromBase58_eq_some.mp (parsePubkey_eq_ok.mp (mapErr_eq_ok.mp hs))
  simp only [SessionServer.paymentChannelOpenParams, SessionServer.parsePayloadPubkey,
    expectedPaymentChannelMint, bind_eq_ok, rejectIf_eq_ok, okOrElse_eq_ok, pure, Except.pure,
    Except.ok.injEq, not_not] at h
  obtain ⟨-, -, -, -, mint, ⟨s, hs, hmint⟩, -, -, -, -, -, -, -, -, tokenProgram, htoken, -, -,
    expected, ⟨t, ht, hexpected⟩, -, -, -, rfl, -, -, -, -, rfl⟩ := h
  exact ⟨hs.trans (congrArg some (text hmint)), ht.trans (congrArg some (text hexpected)),
    text htoken⟩

/-- The opens are alike when the constants of both sides are. -/
theorem opensAlike_iff_constants (hpayee : server.config.recipient = payee.toBase58)
    (hmint : MppSdk.resolveStablecoinMint server.config.currency (some server.config.network) =
      some mint.toBase58) :
    OpensAlike find server cap randomU64 salt payer authorizedSigner mode signature transaction
        way ↔
      resolveStablecoinMint server.config.currency (some server.config.network) =
        some mint.toBase58 ∧
      MppSdk.defaultTokenProgramForCurrency server.config.currency (some server.config.network) =
        programs.TOKEN_PROGRAM := by
  have htokenKey : programs.tokenKey.toBase58 = programs.TOKEN_PROGRAM := pubkeyOf_eq_iff.mpr rfl
  obtain ⟨key, hkey⟩ := resolvesToKey hmint
  let params := server.config.openParams payee key programs.tokenKey cap payer authorizedSigner
    (salt.getD randomU64)
  have hprepared : preparePaymentChannelOpen find randomU64
      (.default (server.buildChallengeRequest cap) payer authorizedSigner salt) =
        .ok (.ofParams find params) := preparePaymentChannelOpen_eq hpayee hkey
  obtain ⟨sent, hsent, hread⟩ :=
    openPaymentChannelAction_ofParams find way params mode signature transaction
  have hinstruction := openInstruction_ofParams find params
  constructor
  · rintro ⟨opened, action, payload, accepted, instruction, hopened, haction, hpayload, haccepted,
      hserver, hclient⟩
    obtain rfl := Except.ok.inj (hprepared.symm.trans hopened)
    obtain rfl := Except.ok.inj (hsent.symm.trans haction)
    obtain rfl := Option.some.inj (hread.symm.trans hpayload)
    obtain ⟨hmints, hexpected, htoken⟩ := mint_tokenProgram_of_accepted haccepted
    refine ⟨?_, ?_⟩
    · -- the mint of the payload is the one of the client
      have hsame : key.toBase58 = accepted.mint.toBase58 := Option.some.inj hmints
      rw [hkey, hsame, ← hexpected, hmint]
    · -- the token program is an account of the instruction
      rw [SessionServer.paymentChannelOpenInstruction, haccepted] at hserver
      have hsame : buildOpenInstruction find params = buildOpenInstruction find accepted := by
        rw [← Except.ok.inj hserver] at hclient
        exact Except.ok.inj (hinstruction.symm.trans hclient)
      have haccount := congrArg (fun i => (i.accounts[7]?).map AccountMeta.pubkey) hsame
      have htokenProgram : params.tokenProgram = accepted.tokenProgram := Option.some.inj haccount
      rw [htoken, ← htokenProgram]
      exact htokenKey
  · rintro ⟨hsame, htoken⟩
    have hkeys : key = mint := by
      have htext : key.toBase58 = mint.toBase58 := Option.some.inj (hkey.symm.trans hsame)
      have hsome := Bytes.fromBase58_toBase58 key
      rw [htext, Bytes.fromBase58_toBase58] at hsome
      exact (Option.some.inj hsome).symm
    subst hkeys
    have haccepted : server.paymentChannelOpenParams find
        { (params.opened find).openPayload mode signature with
          transaction := truthy transaction } = .ok params :=
      paymentChannelOpenParams_eq hpayee hmint (htoken.trans htokenKey.symm) mode signature _
    refine ⟨_, sent, _, params, _, hprepared, hsent, hread, haccepted, ?_, hinstruction⟩
    rw [SessionServer.paymentChannelOpenInstruction, haccepted]
    rfl

/-- **When client and server open alike.**  The open that the client prepares with default
options from a challenge is accepted by the server, which makes the same instruction of it,
exactly when the mint is none of the stablecoins of Token-2022 and the currency is not the
symbol USDC on the testnet. -/
theorem opens_alike_iff (find : FindProgramAddress) (server : SessionServer)
    (cap randomU64 : UInt64) (salt : Option UInt64) (payer authorizedSigner payee mint : Pubkey)
    (mode : SessionMode) (signature : String) (transaction : Option String) (way : Json.Carriage)
    (hpayee : server.config.recipient = payee.toBase58)
    (hmint : MppSdk.resolveStablecoinMint server.config.currency (some server.config.network) =
      some mint.toBase58) :
    OpensAlike find server cap randomU64 salt payer authorizedSigner mode signature transaction
        way ↔
      stablecoinUsesToken2022 mint.toBase58 = false ∧
      ¬ (toUppercase server.config.currency = "USDC" ∧ server.config.network = "testnet") := by
  have hprograms : programs.TOKEN_2022_PROGRAM ≠ programs.TOKEN_PROGRAM := by decide
  have htoken : MppSdk.defaultTokenProgramForCurrency server.config.currency
      (some server.config.network) = programs.TOKEN_PROGRAM ↔
        stablecoinUsesToken2022 mint.toBase58 = false := by
    unfold MppSdk.defaultTokenProgramForCurrency
    rw [hmint]
    by_cases huses : stablecoinUsesToken2022 mint.toBase58 = true <;> simp [huses, hprograms]
  rw [opensAlike_iff_constants hpayee hmint, htoken]
  constructor
  · rintro ⟨hsame, huses⟩
    refine ⟨huses, ?_⟩
    rintro ⟨husdc, hnetwork⟩
    -- the client has the mint of the mainnet, the server the one of the testnet
    rw [← hmint, hnetwork] at hsame
    simp only [resolveStablecoinMint, MppSdk.resolveStablecoinMint, husdc] at hsame
    exact absurd hsame (by decide)
  · rintro ⟨huses, hnot⟩
    refine ⟨?_, huses⟩
    obtain heq | ⟨hnetwork, ⟨husdc, -, -⟩ | ⟨-, -, h⟩ | ⟨-, -, h⟩⟩ :=
      resolveStablecoinMint_cases server.config.currency server.config.network
    · exact heq.trans hmint
    · exact absurd ⟨husdc, hnetwork⟩ hnot
    · -- the other two symbols of the testnet are of Token-2022
      have htext : mint.toBase58 = mints.USDG_TESTNET := Option.some.inj (hmint.symm.trans h)
      rw [htext] at huses
      exact absurd huses (by decide)
    · have htext : mint.toBase58 = mints.PYUSD_TESTNET := Option.some.inj (hmint.symm.trans h)
      rw [htext] at huses
      exact absurd huses (by decide)

end Agreement

namespace OpenSample
open MppSdk.OpenSample (server usdc signature recipient_eq mint_eq)

theorem usdc_alike :
    OpensAlike MppSdk.OpenSample.find server 5 7 none usdc usdc .push signature none .direct :=
  (opens_alike_iff MppSdk.OpenSample.find server 5 7 none usdc usdc programs.systemKey usdc .push
    signature none .direct recipient_eq mint_eq).mpr ⟨by decide +kernel, by decide⟩

/-- The sample server with a currency of Token-2022. -/
def pyusdServer : SessionServer :=
  { server with config := { server.config with currency := "PYUSD" } }

/-- The mint of the currency. -/
def pyusd : Pubkey := pubkeyOf mints.PYUSD_MAINNET (by decide +kernel)

/-- The client prepares an open for a currency of Token-2022, and the server makes another
instruction of it. -/
theorem pyusd_not_alike :
    (∃ opened, preparePaymentChannelOpen MppSdk.OpenSample.find 7
      (.default (pyusdServer.buildChallengeRequest 5) usdc usdc none) = .ok opened) ∧
    ¬ OpensAlike MppSdk.OpenSample.find pyusdServer 5 7 none usdc usdc .push signature none
      .direct := by
  have hmint : some pyusd.toBase58 = some mints.PYUSD_MAINNET :=
    congrArg some (pubkeyOf_eq_iff.mpr rfl)
  have hclient : resolveStablecoinMint pyusdServer.config.currency
      (some pyusdServer.config.network) = some pyusd.toBase58 := by
    rw [hmint]
    decide
  have hserver : MppSdk.resolveStablecoinMint pyusdServer.config.currency
      (some pyusdServer.config.network) = some pyusd.toBase58 := by
    rw [hmint]
    decide
  have hpayee : pyusdServer.config.recipient = programs.systemKey.toBase58 := recipient_eq
  refine ⟨⟨_, preparePaymentChannelOpen_eq hpayee hclient⟩, fun halike => ?_⟩
  have htoken := ((opensAlike_iff_constants hpayee hserver).mp halike).2
  exact absurd htoken (by decide)

end OpenSample

end Ts
end MppSdk
