import MppSdk.PreBroadcast

/-! # Verification of a confirmed transaction

`verify_on_chain` of `server/charge.rs`: the checks made on the `jsonParsed` rendering of a
transaction that an RPC node returns for a signature. -/

namespace MppSdk

/-- What the RPC node returns for a confirmed transaction: the encoded transaction and its
meta data, with the text of the on-chain error if there is one. -/
structure ConfirmedTransaction where
  transaction : Json
  metaErr : Option String := none
  metaJson : Option Json := none

/-- `extract_parsed_instructions`: the top-level instructions, then the inner ones. -/
def extractParsedInstructions (tx : ConfirmedTransaction) : List Json :=
  let outer := (((tx.transaction.get "message").bind (·.get "instructions")).bind
    Json.asArray).getD []
  let groups := ((tx.metaJson.bind (·.get "innerInstructions")).bind Json.asArray).getD []
  outer ++ groups.flatMap fun group => ((group.get "instructions").bind Json.asArray).getD []

/-- The fields of an object in a field. -/
def objectField (ix : Json) (key : String) : Option (List (String × Json)) :=
  (ix.get key).bind Json.asObject

/-- The text in a field. -/
def stringField (fields : List (String × Json)) (key : String) : Option String :=
  (Json.field fields key).bind Json.asStr

/-- `string_field`: the first of the keys that has a text. -/
def stringFieldOf (fields : List (String × Json)) (keys : List String) : Option String :=
  keys.findSome? (stringField fields)

/-- The fields of the parsed object, if it has the given type. -/
def parsedOfType (ix : Json) (type : String) : Option (List (String × Json)) :=
  (objectField ix "parsed").filter fun parsed => stringField parsed "type" = some type

/-- The `info` of a parsed instruction of the given type. -/
def parsedInfo (ix : Json) (type : String) : Option (List (String × Json)) :=
  (parsedOfType ix type).bind fun parsed => (Json.field parsed "info").bind Json.asObject

/-- `parsed_program_id`: the id of the program, or the id behind its short name. -/
def parsedProgramId (ix : Json) : Option String :=
  match (ix.get "programId").bind Json.asStr with
  | some programId => some programId
  | none => match (ix.get "program").bind Json.asStr with
    | some "system" => some programs.SYSTEM_PROGRAM
    | some "compute-budget" => some programs.COMPUTE_BUDGET_PROGRAM
    | some "spl-memo" => some programs.MEMO_PROGRAM
    | some "spl-associated-token-account" => some programs.ASSOCIATED_TOKEN_PROGRAM
    | _ => none

/-- `verify_ata_owner`. -/
def verifyAtaOwner (find : FindProgramAddress)
    (ataAddress expectedOwner mint tokenProgram : String) : Bool :=
  match Bytes.fromBase58 32 expectedOwner, Bytes.fromBase58 32 mint,
    Bytes.fromBase58 32 tokenProgram, Bytes.fromBase58 32 ataAddress with
  | some owner, some mint, some tokenProgram, some ata =>
      associatedTokenAddress find owner tokenProgram mint = ata
  | _, _, _, _ => false

/-! ## Transfers and memos -/

section Match
variable (find : FindProgramAddress) (instructions : List Json)

/-- The loop body of `find_sol_transfer`. -/
def parsedSolTransferAt (recipient : String) (amount : UInt64) (matched : List Nat) (ix : Json)
    (index : Nat) : Verified (Option Nat) :=
  continueIf (index ∈ matched) <|
  match parsedInfo ix "transfer" with
  | none => return none
  | some info =>
      let dest := (stringField info "destination").getD ""
      let lamports := ((Json.field info "lamports").bind Json.asU64).getD 0
      continueIf (¬ (dest = recipient ∧ lamports = amount)) <| return some index

/-- `find_sol_transfer`. -/
def findSolTransfer (recipient : String) (amount : UInt64) (matched : List Nat) :
    Verified (List Nat) := do
  match ← scan (parsedSolTransferAt recipient amount matched) 0 instructions with
  | some index => return index :: matched
  | none => .error (.error (.invalidAmount
      s!"No matching SOL transfer of {amount} lamports to {recipient}"))

/-- The loop body of `find_spl_transfer`. -/
def parsedSplTransferAt (recipient expectedMint expectedTokenProgram : String) (amount : UInt64)
    (matched : List Nat) (ix : Json) (index : Nat) : Verified (Option Nat) :=
  continueIf (index ∈ matched) <|
  let program := ((ix.get "programId").bind Json.asStr).getD ""
  continueIf (program ≠ programs.TOKEN_PROGRAM ∧ program ≠ programs.TOKEN_2022_PROGRAM) <|
  continueIf (program ≠ expectedTokenProgram) <|
  match parsedInfo ix "transferChecked" with
  | none => return none
  | some info =>
      let tokenAmount := ((((Json.field info "tokenAmount").bind Json.asObject).bind
        (stringField · "amount")).bind parseU64).getD 0
      continueIf (tokenAmount ≠ amount) <|
      let dest := (stringField info "destination").getD ""
      let mint := (stringField info "mint").getD ""
      continueIf (¬ (mint = expectedMint ∧ verifyAtaOwner find dest recipient mint program)) <|
        return some index

/-- `find_spl_transfer`. -/
def findSplTransfer (expectedMint expectedTokenProgram recipient : String) (amount : UInt64)
    (matched : List Nat) : Verified (List Nat) := do
  match ← scan (parsedSplTransferAt find recipient expectedMint expectedTokenProgram amount
      matched) 0 instructions with
  | some index => return index :: matched
  | none => .error (.error (.invalidAmount
      s!"No matching SPL transferChecked of {amount} to {recipient}"))

/-- The loops of `verify_sol_transfers` and `verify_spl_transfers`: the primary transfer, then
one for each split; `kind` names a missing split. -/
def verifyParsedTransfers (findTransfer : String → UInt64 → List Nat → Verified (List Nat))
    (kind recipient : String) (primary : UInt64) (splits : List Split) :
    Verified (List Nat) := do
  let matched ← findTransfer recipient primary []
  splits.foldlM (fun matched split => do
    let amt ← okOrElse (parseU64 split.amount) (.invalidAmount "Invalid split amount")
    mapErr (fun _ => .invalidAmount s!"Missing split {kind}transfer to {split.recipient}")
      (findTransfer split.recipient amt matched)) matched

/-- `verify_sol_transfers`. -/
def verifySolTransfers (recipient : String) (primary : UInt64) (splits : List Split) :
    Verified (List Nat) :=
  verifyParsedTransfers (findSolTransfer instructions) "" recipient primary splits

/-- `verify_spl_transfers`. -/
def verifySplTransfers (recipient mint : String) (primary : UInt64) (splits : List Split)
    (expectedTokenProgram : String) : Verified (List Nat) :=
  verifyParsedTransfers (findSplTransfer find instructions mint expectedTokenProgram) "SPL "
    recipient primary splits

/-- `parsed_memo_text`. -/
def parsedMemoText (ix : Json) : Option String :=
  match ix.get "parsed" with
  | some (.str memo) => some memo
  | some (.obj parsed) =>
      ((Json.field parsed "info").bind Json.asObject).bind (stringFieldOf · ["memo", "data"])
  | _ => none

/-- The inner loop body of `verify_parsed_memo_instructions`. -/
def parsedMemoAt (memo : String) (matched : List Nat) (ix : Json) (index : Nat) :
    Verified (Option Nat) :=
  continueIf (index ∈ matched) <|
  continueIf (parsedProgramId ix ≠ some programs.MEMO_PROGRAM) <|
  continueIf (parsedMemoText ix ≠ some memo) <| return some index

/-- One round of `verify_parsed_memo_instructions`. -/
def verifyParsedMemo (label memo : String) (matched : List Nat) : Verified (List Nat) := do
  rejectIf ((utf8 memo).length > 566) (.invalidPayload "memo cannot exceed 566 bytes")
  match ← scan (parsedMemoAt memo matched) 0 instructions with
  | some index => return index :: matched
  | none => .error (.error (.invalidPayload
      s!"No memo instruction found for {label} memo \"{memo}\""))

/-- `verify_parsed_memo_instructions`. -/
def verifyParsedMemoInstructions (externalId : Option String) (splits : List Split)
    (matched : List Nat) : Verified (List Nat) :=
  (expectedMemos externalId splits).foldlM
    (fun matched expected => verifyParsedMemo instructions expected.1 expected.2 matched) matched

end Match

/-! ## The allowlist -/

section Allowlist
variable (find : FindProgramAddress) (matched : List Nat) (expectedMint : Option String)
  (allowedAtaOwners : List String) (expectedTokenProgram expectedPayer : Option String)

/-- `validate_parsed_ata_creation_instruction`: the owner of the account it opens. -/
def validateParsedAtaCreationInstruction (ix : Json) : Verified String := do
  let expectedMint ← okOrElse expectedMint
    (.invalidPayload "ATA creation is not allowed for native SOL payments")
  let parsed ← okOrElse (objectField ix "parsed")
    (.invalidPayload "ATA creation instruction is missing parsed data")
  rejectIf (stringField parsed "type" ≠ some "createIdempotent")
    (.invalidPayload "Only idempotent ATA creation is allowed")
  let info ← okOrElse ((Json.field parsed "info").bind Json.asObject)
    (.invalidPayload "ATA creation parsed instruction is missing info")
  let payer ← okOrElse (stringFieldOf info ["source", "payer"])
    (.invalidPayload "ATA creation parsed instruction is missing payer")
  let ata ← okOrElse (stringFieldOf info ["account", "associatedAccount", "associatedTokenAddress"])
    (.invalidPayload "ATA creation parsed instruction is missing account")
  let owner ← okOrElse (stringFieldOf info ["wallet", "owner"])
    (.invalidPayload "ATA creation parsed instruction is missing owner")
  let mint ← okOrElse (stringFieldOf info ["mint"])
    (.invalidPayload "ATA creation parsed instruction is missing mint")
  let tokenProgram ← okOrElse ((stringFieldOf info ["tokenProgram"]).or expectedTokenProgram)
    (.invalidPayload "ATA creation parsed instruction is missing token program")
  rejectIf (∃ expected ∈ expectedPayer, payer ≠ expected)
    (.invalidPayload "ATA payer must match the transaction fee payer")
  rejectIf (mint ≠ expectedMint)
    (.invalidPayload "ATA creation mint does not match the charge currency")
  rejectIf (tokenProgram ≠ programs.TOKEN_PROGRAM ∧ tokenProgram ≠ programs.TOKEN_2022_PROGRAM)
    (.invalidPayload "ATA creation uses an unsupported token program")
  rejectIf (∃ expected ∈ expectedTokenProgram, tokenProgram ≠ expected)
    (.invalidPayload "ATA creation token program does not match methodDetails.tokenProgram")
  rejectIf (¬ verifyAtaOwner find ata owner mint tokenProgram)
    (.invalidPayload "ATA creation address does not match owner/mint/token program")
  rejectIf (owner ∉ allowedAtaOwners)
    (.invalidPayload "ATA creation owner is not authorized by the challenge")
  return owner

/-- The loop body of `validate_parsed_instruction_allowlist`.  A compute-budget instruction
passes unseen. -/
def parsedAllowAt (created : List String) : Json × Nat → Verified (List String)
  | (ix, index) =>
      let programId := parsedProgramId ix
      if programId = some programs.COMPUTE_BUDGET_PROGRAM then return created
      else if programId = some programs.MEMO_PROGRAM then do
        requireMatched matched index "Memo Program"
        return created
      else if programId = some programs.SYSTEM_PROGRAM then do
        requireMatched matched index "System Program"
        return created
      else if programId = some programs.TOKEN_PROGRAM ∨
          programId = some programs.TOKEN_2022_PROGRAM then do
        requireMatched matched index "Token Program"
        return created
      else if programId = some programs.ASSOCIATED_TOKEN_PROGRAM then do
        let owner ← validateParsedAtaCreationInstruction find expectedMint allowedAtaOwners
          expectedTokenProgram expectedPayer ix
        return owner :: created
      else
        let name := programId.getD "unknown"
        .error (.error (.invalidPayload
          s!"Unexpected program instruction in payment transaction: {name}"))

/-- `validate_parsed_instruction_allowlist`.  The code looks at the required owners in no
fixed order. -/
def validateParsedInstructionAllowlist (instructions : List Json)
    (requiredAtaOwners : List String) : Verified Unit := do
  let created ← instructions.zipIdx.foldlM
    (parsedAllowAt find matched expectedMint allowedAtaOwners expectedTokenProgram expectedPayer)
    []
  requiredAtaOwners.forM fun owner =>
    rejectIf (owner ∉ created) (.invalidPayload
      s!"Missing required ATA creation instruction for split recipient {owner}")

end Allowlist

/-- What `verify_on_chain` checks of a transaction the RPC node returned. -/
def verifyConfirmed (find : FindProgramAddress) (tx : ConfirmedTransaction)
    (request : ChargeRequest) (details : MethodDetails) : Verified Unit := do
  match tx.metaErr with
  | some err => .error (.error (.transactionFailed s!"Transaction failed: {err}"))
  | none => .ok ()
  let splits := details.splitList
  let primary ← primaryAmount request splits
  let recipient ← okOrElse request.recipient (.invalidRecipient "No recipient in charge request")
  let instructions := extractParsedInstructions tx
  let expectedAtaPayer := if details.feePayer.getD false then details.feePayerKey else none
  let feePayer ← match expectedAtaPayer with
    | some key => (parseKey key (.invalidPayload "Invalid fee payer")).map some
    | none => .ok none
  let _recipientPk ← parseKey recipient (.invalidRecipient "Invalid recipient")
  let policy ← expectedAtaCreationPolicy splits feePayer
  let allowedAtaOwners := policy.allowedOwners.map Bytes.toBase58
  let requiredAtaOwners := policy.requiredOwners.map Bytes.toBase58
  if request.IsNativeSol then
    rejectIf (requiresAta splits)
      (.invalidPayload "ataCreationRequired requires an SPL token charge")
    let matched ← verifySolTransfers instructions recipient primary splits
    let matched ← verifyParsedMemoInstructions instructions request.externalId splits matched
    validateParsedInstructionAllowlist find matched none allowedAtaOwners none expectedAtaPayer
      instructions requiredAtaOwners
  else
    let mint ← resolveExpectedMint request.currency details.network
    rejectIf (requiredAtaOwners ≠ [] ∧ request.currency ≠ mint.toBase58)
      (.invalidPayload
        "ataCreationRequired requires currency to be an SPL token mint address")
    let tokenProgram := details.tokenProgram.getD
      (defaultTokenProgramForCurrency request.currency details.network)
    let matched ← verifySplTransfers find instructions recipient mint.toBase58 primary splits
      tokenProgram
    let matched ← verifyParsedMemoInstructions instructions request.externalId splits matched
    validateParsedInstructionAllowlist find matched (some mint.toBase58) allowedAtaOwners
      (some tokenProgram) expectedAtaPayer instructions requiredAtaOwners

end MppSdk
