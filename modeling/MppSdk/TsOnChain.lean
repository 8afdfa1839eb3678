import MppSdk.Json
import MppSdk.TsPreBroadcast

/-! # The TypeScript server: verification of a confirmed transaction

`verifyInstructions` of `server/Charge.ts`, over the `jsonParsed` instructions an RPC node
returns.  A property that is missing is undefined, which is `none` here. -/

namespace MppSdk
namespace Ts

/-! ## JSON values as the code sees them -/

/-- What the server takes from its engine for values it does not look into. -/
structure Engine where
  /-- `String(n)` for the number of a literal that is not an integer of 64 bits. -/
  numberText : String → String
  /-- `JSON.stringify`. -/
  stringify : Json → String
  /-- `toISOString`, of milliseconds since the epoch. -/
  isoString : Int → String

/-- `value.key`. -/
def prop (value : Option Json) (key : String) : Thrown (Option Json) :=
  match value with
  | none => error s!"Cannot read properties of undefined (reading '{key}')"
  | some .null => error s!"Cannot read properties of null (reading '{key}')"
  | some v => .ok (v.get key)

/-- `value?.key`. -/
def optProp (value : Option Json) (key : String) : Option Json := value.bind (·.get key)

/-- `value === s`. -/
def isText (value : Option Json) (s : String) : Bool :=
  match value with
  | some (.str t) => t = s
  | _ => false

/-- `typeof value === 'object'`. -/
def isObject : Option Json → Bool
  | some .null | some (.arr _) | some (.obj _) => true
  | _ => false

/-- `array.entries()`. -/
def entries : Option Json → Thrown (List Json)
  | some (.arr items) => .ok items
  | _ => error "entries is not a function"

section Engine
variable (engine : Engine)

/-- A value that counts as true. -/
def isTrue : Option Json → Bool
  | none | some .null => false
  | some (.bool b) => b
  | some (.unsigned n) => n ≠ 0
  | some (.negative n) => n ≠ 0
  | some (.float text) => engine.numberText text ≠ "0"
  | some (.str s) => s ≠ ""
  | some (.arr _) | some (.obj _) => true

mutual

/-- `String(value)`. -/
def text : Json → String
  | .null => "null"
  | .bool b => toString b
  | .unsigned n => numberToString n.toNat
  | .negative n => "-" ++ numberToString n.toInt.natAbs
  | .float text => engine.numberText text
  | .str s => s
  | .arr items => String.intercalate "," (texts items)
  | .obj _ => "[object Object]"

/-- The texts of the items of an array; `null` is empty there. -/
def texts : List Json → List String
  | [] => []
  | .null :: items => "" :: texts items
  | item :: items => text item :: texts items

end

/-- `String(value)`, for what may be undefined. -/
def textOf (value : Option Json) : String := (value.map (text engine)).getD "undefined"

end Engine

/-! ## Parsed instructions -/

/-- `stringField`: the first of the keys that has a text. -/
def stringField (info : Option Json) : List String → Thrown (Option String)
  | [] => .ok none
  | key :: keys => do
      match ← prop info key with
      | some (.str value) => return some value
      | _ => stringField info keys

/-- `typeof ix.parsed === 'object' && ix.parsed?.type === type`. -/
def isParsedAs (parsed : Option Json) (type : String) : Prop :=
  isObject parsed ∧ isText (optProp parsed "type") type

instance (parsed : Option Json) (type : String) : Decidable (isParsedAs parsed type) :=
  inferInstanceAs (Decidable (_ ∧ _))

/-- `parsedProgramId`: the id of the program, or the id behind its short name. -/
def parsedProgramId (engine : Engine) (ix : Json) : Thrown (Option Json) := do
  let programId ← prop (some ix) "programId"
  if isTrue engine programId then return programId
  match ← prop (some ix) "program" with
  | some (.str "system") => return some (.str programs.SYSTEM_PROGRAM)
  | some (.str "compute-budget") => return some (.str programs.COMPUTE_BUDGET_PROGRAM)
  | some (.str "spl-memo") => return some (.str programs.MEMO_PROGRAM)
  | some (.str "spl-associated-token-account") =>
      return some (.str programs.ASSOCIATED_TOKEN_PROGRAM)
  | _ => return none

/-- `parsedMemoText`. -/
def parsedMemoText (parsed : Option Json) : Option String :=
  match parsed, optProp (optProp parsed "info") "memo", optProp (optProp parsed "info") "data" with
  | some (.str memo), _, _ => some memo
  | _, some (.str memo), _ => some memo
  | _, _, some (.str data) => some data
  | _, _, _ => none

/-! ## Transfers and memos -/

section Match
variable (engine : Engine) (find : FindProgramAddress) (instructions : Option Json)

/-- The loop body of `verifySplTransfer`. -/
def parsedSplTransferAt (expectedAta expectedAmount spl tokenProgram : String)
    (matched : List Nat) (ix : Json) (index : Nat) : Thrown (Option Nat) :=
  continueIf (index ∈ matched) do
    let parsed ← prop (some ix) "parsed"
    continueIf (¬ isParsedAs parsed "transferChecked") do
      let programId ← prop (some ix) "programId"
      continueIf (¬ isText programId tokenProgram) do
        let info ← prop parsed "info"
        let destination ← prop info "destination"
        let mint ← prop info "mint"
        let tokenAmount ← prop info "tokenAmount"
        continueIf (¬ (isText destination expectedAta ∧ isText mint spl ∧
            isText (optProp tokenAmount "amount") expectedAmount)) <| return some index

/-- `verifySplTransfer`. -/
def verifySplTransfer (recipientAddress expectedAmount spl tokenProgram : String)
    (matched : List Nat) : Thrown (List Nat) := do
  let expectedAta ← findAssociatedTokenPda find spl recipientAddress tokenProgram
  match ← scan (parsedSplTransferAt expectedAta expectedAmount spl tokenProgram matched) 0
      (← entries instructions) with
  | some index => return index :: matched
  | none => error s!"No TransferChecked instruction found for recipient {recipientAddress}"

/-- The loop body of `verifySolTransfer`. -/
def parsedSolTransferAt (recipientAddress expectedAmount : String) (matched : List Nat)
    (ix : Json) (index : Nat) : Thrown (Option Nat) :=
  continueIf (index ∈ matched) do
    let parsed ← prop (some ix) "parsed"
    continueIf (¬ isParsedAs parsed "transfer") do
      let program ← prop (some ix) "program"
      continueIf (¬ isText program "system") do
        let info ← prop parsed "info"
        let destination ← prop info "destination"
        let lamports ← prop info "lamports"
        continueIf (¬ (isText destination recipientAddress ∧
            textOf engine lamports = expectedAmount)) <| return some index

/-- `verifySolTransfer`. -/
def verifySolTransfer (recipientAddress expectedAmount : String) (matched : List Nat) :
    Thrown (List Nat) := do
  match ← scan (parsedSolTransferAt engine recipientAddress expectedAmount matched) 0
      (← entries instructions) with
  | some index => return index :: matched
  | none => error s!"No system transfer instruction found for recipient {recipientAddress}"

/-- The inner loop body of `verifyMemoInstructions`. -/
def parsedMemoAt (value : String) (matched : List Nat) (ix : Json) (index : Nat) :
    Thrown (Option Nat) :=
  continueIf (index ∈ matched) do
    let programId ← parsedProgramId engine ix
    continueIf (¬ isText programId programs.MEMO_PROGRAM) do
      let parsed ← prop (some ix) "parsed"
      continueIf (parsedMemoText parsed ≠ some value) <| return some index

/-- One round of `verifyMemoInstructions`. -/
def verifyMemo (label value : String) (matched : List Nat) : Thrown (List Nat) := do
  throwIf ((utf8 value).length > 566) "memo cannot exceed 566 bytes"
  match ← scan (parsedMemoAt engine value matched) 0 (← entries instructions) with
  | some index => return index :: matched
  | none => error s!"No memo instruction found for {label} memo \"{value}\""

/-- `verifyMemoInstructions`. -/
def verifyMemoInstructions (externalId : Option String) (splits : List Split)
    (matched : List Nat) : Thrown (List Nat) :=
  (expectedMemoEntries externalId splits).foldlM
    (fun matched expected => verifyMemo engine instructions expected.1 expected.2 matched) matched

end Match

/-! ## The allowlist -/

/-- The options of `validateParsedInstructionAllowlist`. -/
structure ParsedAllowlistOptions where
  allowedAtaOwners : List String
  expectedAtaPayer : Option String
  expectedMint : Option String
  expectedTokenProgram : Option String
  requiredAtaOwners : List String

section Allowlist
variable (engine : Engine) (find : FindProgramAddress) (options : ParsedAllowlistOptions)
  (matched : List Nat)

/-- A field that has to be there and not empty. -/
def requiredField (value : Option String) : Thrown String :=
  okOrElse (truthy value)
    { message := "ATA creation parsed instruction is missing required fields" }

/-- `validateParsedAtaCreationInstruction`: the owner of the account it opens. -/
def validateParsedAtaCreationInstruction (ix : Json) : Thrown String := do
  let expectedMint ← okOrElse (truthy options.expectedMint)
    { message := "ATA creation is not allowed for native SOL payments" }
  let parsed ← prop (some ix) "parsed"
  throwIf (¬ isParsedAs parsed "createIdempotent") "Only idempotent ATA creation is allowed"
  let info ← prop parsed "info"
  let payer ← stringField info ["source", "payer"]
  let ata ← stringField info ["account", "associatedAccount", "associatedTokenAddress"]
  let owner ← stringField info ["wallet", "owner"]
  let mint ← stringField info ["mint"]
  let tokenProgram := (← stringField info ["tokenProgram"]).or options.expectedTokenProgram
  let payer ← requiredField payer
  let ata ← requiredField ata
  let owner ← requiredField owner
  let mint ← requiredField mint
  let tokenProgram ← requiredField tokenProgram
  throwIf (∃ expected ∈ truthy options.expectedAtaPayer, payer ≠ expected)
    "ATA payer must match the transaction fee payer"
  throwIf (mint ≠ expectedMint) "ATA creation mint does not match the charge currency"
  throwIf (tokenProgram ≠ programs.TOKEN_PROGRAM ∧ tokenProgram ≠ programs.TOKEN_2022_PROGRAM)
    "ATA creation uses an unsupported token program"
  throwIf (∃ expected ∈ truthy options.expectedTokenProgram, tokenProgram ≠ expected)
    "ATA creation token program does not match methodDetails.tokenProgram"
  let expectedAta ← findAssociatedTokenPda find mint owner tokenProgram
  throwIf (ata ≠ expectedAta) "ATA creation address does not match owner/mint/token program"
  throwIf (owner ∉ options.allowedAtaOwners)
    "ATA creation owner is not authorized by the challenge"
  return owner

/-- The loop body of `validateParsedInstructionAllowlist`.  A compute-budget instruction
passes unseen. -/
def parsedAllowAt (created : List String) : Json × Nat → Thrown (List String)
  | (ix, index) => do
      let programId ← parsedProgramId engine ix
      if isText programId programs.COMPUTE_BUDGET_PROGRAM then return created
      else if isText programId programs.MEMO_PROGRAM then
        requireMatched matched index "Memo Program"
        return created
      else if isText programId programs.SYSTEM_PROGRAM then
        requireMatched matched index "System Program"
        return created
      else if isText programId programs.TOKEN_PROGRAM ∨
          isText programId programs.TOKEN_2022_PROGRAM then
        requireMatched matched index "Token Program"
        return created
      else if isText programId programs.ASSOCIATED_TOKEN_PROGRAM then
        let owner ← validateParsedAtaCreationInstruction find options ix
        return owner :: created
      else
        let name := (programId.map (text engine)).getD "unknown"
        error s!"Unexpected program instruction in payment transaction: {name}"

/-- `validateParsedInstructionAllowlist`. -/
def validateParsedInstructionAllowlist (instructions : Option Json) : Thrown Unit := do
  let created ← (← entries instructions).zipIdx.foldlM
    (parsedAllowAt engine find options matched) []
  requireCreated options.requiredAtaOwners created

end Allowlist

/-! ## The instructions of a payment -/

/-- The transfers to the splits; `verifyTransfer` is the matcher of the currency. -/
def verifySplits (verifyTransfer : String → String → List Nat → Thrown (List Nat))
    (splits : List Split) (matched : List Nat) : Thrown (List Nat) :=
  splits.foldlM (fun matched split => verifyTransfer split.recipient split.amount matched) matched

/-- `verifyInstructions`. -/
def verifyInstructions (engine : Engine) (find : FindProgramAddress)
    (instructions : Option Json) (challenge : ChallengeRequest) (recipient : String) :
    Thrown Unit := do
  let splits := challenge.splits
  let splitsTotal ← splitsTotal splits
  let primaryAmount := (← bigInt challenge.amount) - splitsTotal
  throwIf (primaryAmount ≤ 0)
    "Splits consume the entire amount — primary recipient must receive a positive amount"
  let sponsored := challenge.methodDetails.feePayer = some true
  let feePayer := if sponsored then challenge.methodDetails.feePayerKey else none
  throwIf (sponsored ∧ truthy feePayer = none)
    "feePayer=true requires feePayerKey in methodDetails"
  let ataPolicy := expectedAtaCreationPolicy challenge feePayer
  match truthy (resolveStablecoinMint challenge.currency challenge.methodDetails.network) with
  | some mint =>
      throwIf ((∃ split ∈ splits, split.RequiresAta) ∧ challenge.currency ≠ mint)
        "ataCreationRequired requires currency to be an SPL token mint address"
      let tokenProgram := challenge.methodDetails.tokenProgram.getD
        (defaultTokenProgramForCurrency challenge.currency challenge.methodDetails.network)
      let verifyTransfer := fun recipient amount matched =>
        verifySplTransfer find instructions recipient amount mint tokenProgram matched
      let matched ← verifyTransfer recipient (toString primaryAmount) []
      let matched ← verifySplits verifyTransfer splits matched
      let matched ← verifyMemoInstructions engine instructions challenge.externalId splits matched
      let options : ParsedAllowlistOptions :=
        { allowedAtaOwners := ataPolicy.allowedAtaOwners
          expectedAtaPayer := feePayer
          expectedMint := some mint
          expectedTokenProgram := some tokenProgram
          requiredAtaOwners := ataPolicy.requiredAtaOwners }
      validateParsedInstructionAllowlist engine find options matched instructions
  | none =>
      throwIf (∃ split ∈ splits, split.RequiresAta)
        "ataCreationRequired requires an SPL token charge"
      let verifyTransfer := verifySolTransfer engine instructions
      let matched ← verifyTransfer recipient (toString primaryAmount) []
      let matched ← verifySplits verifyTransfer splits matched
      let matched ← verifyMemoInstructions engine instructions challenge.externalId splits matched
      let options : ParsedAllowlistOptions :=
        { allowedAtaOwners := ataPolicy.allowedAtaOwners
          expectedAtaPayer := none
          expectedMint := none
          expectedTokenProgram := none
          requiredAtaOwners := ataPolicy.requiredAtaOwners }
      validateParsedInstructionAllowlist engine find options matched instructions

end Ts
end MppSdk
