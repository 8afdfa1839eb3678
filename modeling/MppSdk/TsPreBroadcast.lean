import MppSdk.TsTypes

/-! # The TypeScript server: verification before broadcast

`verifyBase64TransactionPreBroadcast` of `server/Charge.ts`.  Addresses are texts here, and
amounts are integers of any size. -/

namespace MppSdk
namespace Ts

/-- A compiled instruction; the decoder leaves out empty account indices and empty data. -/
structure CompiledInstruction where
  accountIndices : Option (List Nat) := none
  data : Option (List UInt8) := none
  programAddressIndex : Nat
deriving DecidableEq

/-- `CompiledMessage`; `addressTableLookups` counts the entries, if there is a table list. -/
structure CompiledMessage where
  addressTableLookups : Option Nat := none
  instructions : List CompiledInstruction
  lifetimeToken : String
  staticAccounts : List String
deriving DecidableEq

/-- A decoded transaction: its message and the signatures known for each signer. -/
structure Transaction where
  messageBytes : List UInt8
  signatures : List (String × Option (List UInt8))
deriving DecidableEq

/-- What the server takes from `@solana/kit` and `@solana-program/token`; an error is the
text of what is thrown. -/
structure Kit where
  /-- `getBase64Codec().encode`. -/
  base64Bytes : String → Except String (List UInt8)
  /-- `getTransactionDecoder().decode`. -/
  decodeTransaction : List UInt8 → Except String Transaction
  /-- `getCompiledTransactionMessageDecoder().decode`. -/
  decodeMessage : List UInt8 → Except String CompiledMessage
  /-- `getBase64EncodedWireTransaction`. -/
  wireTransaction : Transaction → Except String String
  findProgramAddress : FindProgramAddress

namespace Kit

/-- A base64 wire transaction, decoded. -/
def transactionOf (kit : Kit) (base64 : String) : Except String Transaction := do
  kit.decodeTransaction (← kit.base64Bytes base64)

/-- The message of a base64 wire transaction. -/
def messageOf (kit : Kit) (base64 : String) : Except String CompiledMessage := do
  kit.decodeMessage (← kit.transactionOf base64).messageBytes

end Kit

/-- What a library function throws, with a text in front. -/
def rethrow {α : Type} (label : String) : Except String α → Thrown α
  | .ok a => .ok a
  | .error e => error (label ++ e)

/-- `MAX_COMPUTE_UNIT_LIMIT`. -/
def MAX_COMPUTE_UNIT_LIMIT : Nat := 200000
/-- `MAX_COMPUTE_UNIT_PRICE_MICROLAMPORTS`. -/
def MAX_COMPUTE_UNIT_PRICE_MICROLAMPORTS : Nat := 5000000

/-- `accountAddress`. -/
def accountAddress (message : CompiledMessage) (index : Nat) (label : String) : Thrown String :=
  okOrElse (truthy message.staticAccounts[index]?) { message := s!"Invalid {label} index" }

/-- `programAddress`. -/
def programAddress (message : CompiledMessage) (ix : CompiledInstruction) : Thrown String :=
  accountAddress message ix.programAddressIndex "program address"

/-! ## Transfers and memos -/

section Match
variable (find : FindProgramAddress) (message : CompiledMessage)
  (recipient expectedMint expectedTokenProgram : String) (amount : Int)
  (expectedDecimals : Option Nat) (feePayer : Option String) (matched : List Nat)

/-- The loop body of `verifySolTransferPreBroadcast`. -/
def solTransferAt (ix : CompiledInstruction) (index : Nat) : Thrown (Option Nat) :=
  continueIf (index ∈ matched) do
    let program ← programAddress message ix
    continueIf (program ≠ programs.SYSTEM_PROGRAM) do
      let data ← defined ix.data
      continueIf (data.length < 12 ∨ fromLeBytes (slice data 0 4) ≠ 2) <|
        continueIf ((fromLeBytes (slice data 4 12) : Int) ≠ amount) do
          match ← defined ix.accountIndices with
          | sourceIndex :: destinationIndex :: _ =>
              let source ← accountAddress message sourceIndex "source"
              let destination ← accountAddress message destinationIndex "destination"
              continueIf (destination ≠ recipient) do
                throwIf (feePayer = some source) "Fee payer cannot fund the SOL payment transfer"
                return some index
          | _ => return none

/-- `verifySolTransferPreBroadcast`. -/
def verifySolTransferPreBroadcast : Thrown (List Nat) := do
  match ← scan (solTransferAt message recipient amount feePayer matched) 0
      message.instructions with
  | some index => return index :: matched
  | none => error s!"No matching SOL transfer of {amount} lamports to {recipient}"

/-- The checks on the fee payer inside the loop of `verifySplTransferPreBroadcast`. -/
def rejectFeePayerFunds (program sourceAta authority : String) : Thrown Unit :=
  match feePayer with
  | none => .ok ()
  | some payer => do
      throwIf (authority = payer) "Fee payer cannot authorize the SPL payment transfer"
      let feePayerAta ← findAssociatedTokenPda find expectedMint payer program
      throwIf (sourceAta = feePayerAta)
        "Fee payer token account cannot fund the SPL payment transfer"

/-- The loop body of `verifySplTransferPreBroadcast`. -/
def splTransferAt (ix : CompiledInstruction) (index : Nat) : Thrown (Option Nat) :=
  continueIf (index ∈ matched) do
    let program ← programAddress message ix
    continueIf (program ≠ programs.TOKEN_PROGRAM ∧ program ≠ programs.TOKEN_2022_PROGRAM) <|
      continueIf (program ≠ expectedTokenProgram) do
        let data ← defined ix.data
        continueIf (data.length < 10 ∨ data.head? ≠ some 12) <|
          continueIf ((fromLeBytes (slice data 1 9) : Int) ≠ amount) <|
          continueIf (∃ decimals ∈ expectedDecimals,
              data[9]?.map UInt8.toNat ≠ some decimals) do
            match ← defined ix.accountIndices with
            | sourceIndex :: mintIndex :: destinationIndex :: authorityIndex :: _ =>
                let sourceAta ← accountAddress message sourceIndex "source ATA"
                let mint ← accountAddress message mintIndex "mint"
                let destinationAta ← accountAddress message destinationIndex "destination ATA"
                let authority ← accountAddress message authorityIndex "authority"
                continueIf (mint ≠ expectedMint) do
                  rejectFeePayerFunds find expectedMint feePayer program sourceAta authority
                  let expectedAta ← findAssociatedTokenPda find expectedMint recipient program
                  continueIf (destinationAta ≠ expectedAta) <| return some index
            | _ => return none

/-- `verifySplTransferPreBroadcast`. -/
def verifySplTransferPreBroadcast : Thrown (List Nat) := do
  match ← scan (splTransferAt find message recipient expectedMint expectedTokenProgram amount
      expectedDecimals feePayer matched) 0 message.instructions with
  | some index => return index :: matched
  | none => error s!"No matching SPL transferChecked of {amount} to {recipient}"

/-- The inner loop body of `verifyMemoInstructionsPreBroadcast`. -/
def memoAt (expectedData : List UInt8) (ix : CompiledInstruction) (index : Nat) :
    Thrown (Option Nat) :=
  continueIf (index ∈ matched) do
    let program ← programAddress message ix
    continueIf (program ≠ programs.MEMO_PROGRAM) do
      let data ← defined ix.data
      continueIf (data ≠ expectedData) <| return some index

/-- One round of `verifyMemoInstructionsPreBroadcast`. -/
def verifyMemoPreBroadcast (label value : String) : Thrown (List Nat) := do
  throwIf ((utf8 value).length > 566) "memo cannot exceed 566 bytes"
  match ← scan (memoAt message matched (utf8 value)) 0 message.instructions with
  | some index => return index :: matched
  | none => error s!"No memo instruction found for {label} memo \"{value}\""

/-- `verifyMemoInstructionsPreBroadcast`. -/
def verifyMemoInstructionsPreBroadcast (externalId : Option String) (splits : List Split) :
    Thrown (List Nat) :=
  (expectedMemoEntries externalId splits).foldlM
    (fun matched expected => verifyMemoPreBroadcast message matched expected.1 expected.2) matched

end Match

/-! ## The allowlist -/

/-- `validateComputeBudgetInstruction`. -/
def validateComputeBudgetInstruction (ix : CompiledInstruction) : Thrown Unit := do
  throwIf (ix.accountIndices.getD [] ≠ []) "Compute budget instruction must not have accounts"
  let data ← defined ix.data
  if data.head? = some 2 ∧ data.length = 5 then
    let units := fromLeBytes (slice data 1 5)
    throwIf (units > MAX_COMPUTE_UNIT_LIMIT)
      s!"Compute unit limit {units} exceeds maximum {MAX_COMPUTE_UNIT_LIMIT}"
  else if data.head? = some 3 ∧ data.length = 9 then
    let price := fromLeBytes (slice data 1 9)
    throwIf (price > MAX_COMPUTE_UNIT_PRICE_MICROLAMPORTS)
      s!"Compute unit price {price} exceeds maximum {MAX_COMPUTE_UNIT_PRICE_MICROLAMPORTS}"
  else error "Unsupported compute budget instruction"

/-- The options of `validateInstructionAllowlist`. -/
structure AllowlistOptions where
  allowedAtaOwners : List String
  expectedMint : Option String
  expectedTokenProgram : Option String
  feePayer : Option String
  requiredAtaOwners : List String

section Allowlist
variable (find : FindProgramAddress) (message : CompiledMessage) (matched : List Nat)

/-- `validateCreateAtaIdempotentInstruction`: the owner of the account it opens. -/
def validateCreateAtaIdempotentInstruction (ix : CompiledInstruction)
    (expectedMint : Option String) (allowedAtaOwners : List String)
    (expectedTokenProgram : Option String) (expectedPayer : String) : Thrown String := do
  let expectedMint ← okOrElse (truthy expectedMint)
    { message := "ATA creation is not allowed for native SOL payments" }
  let data ← defined ix.data
  throwIf (data ≠ [1]) "Only idempotent ATA creation is allowed"
  match ← defined ix.accountIndices with
  | [payerIndex, ataIndex, ownerIndex, mintIndex, systemIndex, tokenIndex] =>
      let payer ← accountAddress message payerIndex "ATA payer"
      let ata ← accountAddress message ataIndex "ATA address"
      let owner ← accountAddress message ownerIndex "ATA owner"
      let mint ← accountAddress message mintIndex "ATA mint"
      let systemProgram ← accountAddress message systemIndex "ATA system program"
      let tokenProgram ← accountAddress message tokenIndex "ATA token program"
      throwIf (payer ≠ expectedPayer) "ATA payer must match the transaction fee payer"
      throwIf (mint ≠ expectedMint) "ATA creation mint does not match the charge currency"
      throwIf (systemProgram ≠ programs.SYSTEM_PROGRAM)
        "ATA creation must reference the System Program"
      throwIf (tokenProgram ≠ programs.TOKEN_PROGRAM ∧ tokenProgram ≠ programs.TOKEN_2022_PROGRAM)
        "ATA creation uses an unsupported token program"
      throwIf (∃ expected ∈ truthy expectedTokenProgram, tokenProgram ≠ expected)
        "ATA creation token program does not match methodDetails.tokenProgram"
      let expectedAta ← findAssociatedTokenPda find mint owner tokenProgram
      throwIf (ata ≠ expectedAta) "ATA creation address does not match owner/mint/token program"
      throwIf (owner ∉ allowedAtaOwners) "ATA creation owner is not authorized by the challenge"
      return owner
  | _ => error "Unexpected ATA creation account layout"

/-- An instruction of a program that may only be used for the payment. -/
def requireMatched (index : Nat) (program : String) : Thrown Unit :=
  throwIf (index ∉ matched) s!"Unexpected {program} instruction in payment transaction"

/-- The loop body of `validateInstructionAllowlist`: the owners of the accounts opened so
far. -/
def allowAt (options : AllowlistOptions) (expectedAtaPayer : String) (created : List String) :
    CompiledInstruction × Nat → Thrown (List String)
  | (ix, index) => do
      let program ← programAddress message ix
      if program = programs.COMPUTE_BUDGET_PROGRAM then
        validateComputeBudgetInstruction ix
        return created
      else if program = programs.MEMO_PROGRAM then
        requireMatched matched index "Memo Program"
        return created
      else if program = programs.SYSTEM_PROGRAM then
        requireMatched matched index "System Program"
        return created
      else if program = programs.TOKEN_PROGRAM ∨ program = programs.TOKEN_2022_PROGRAM then
        requireMatched matched index "Token Program"
        return created
      else if program = programs.ASSOCIATED_TOKEN_PROGRAM then
        let owner ← validateCreateAtaIdempotentInstruction find message ix options.expectedMint
          options.allowedAtaOwners options.expectedTokenProgram expectedAtaPayer
        return owner :: created
      else error s!"Unexpected program instruction in payment transaction: {program}"

/-- The loop over the required owners that ends both allowlists. -/
def requireCreated (requiredAtaOwners created : List String) : Thrown Unit :=
  requiredAtaOwners.forM fun owner => throwIf (owner ∉ created)
    s!"Missing required ATA creation instruction for split recipient {owner}"

/-- `validateInstructionAllowlist`. -/
def validateInstructionAllowlist (options : AllowlistOptions) : Thrown Unit := do
  let txFeePayer ← okOrElse (truthy message.staticAccounts.head?)
    { message := "Transaction has no fee payer" }
  let created ← message.instructions.zipIdx.foldlM
    (allowAt find message matched options (options.feePayer.getD txFeePayer)) []
  requireCreated options.requiredAtaOwners created

end Allowlist

/-! ## The request -/

/-- `expectedFeePayer`. -/
def expectedFeePayer (message : CompiledMessage) (methodDetails : MethodDetails) :
    Thrown (Option String) :=
  if methodDetails.feePayer.getD false = false then .ok none
  else do
    let feePayerKey ← okOrElse (truthy methodDetails.feePayerKey)
      { message := "feePayer=true requires feePayerKey in methodDetails" }
    throwIf (message.staticAccounts.head? ≠ some feePayerKey)
      s!"Transaction fee payer must be {feePayerKey}"
    return some feePayerKey

/-- What `expectedAtaCreationPolicy` returns. -/
structure AtaCreationPolicy where
  allowedAtaOwners : List String
  requiredAtaOwners : List String

/-- `split.ataCreationRequired === true`. -/
def Split.RequiresAta (split : Split) : Prop := split.ataCreationRequired = some true

instance : DecidablePred Split.RequiresAta := fun _ => inferInstanceAs (Decidable (_ = _))

/-- `expectedAtaCreationPolicy`. -/
def expectedAtaCreationPolicy (challenge : ChallengeRequest) (feePayer : Option String) :
    AtaCreationPolicy :=
  let required := (challenge.splits.filter fun split => split.RequiresAta).map Split.recipient
  { allowedAtaOwners :=
      if feePayer.isSome then required else challenge.splits.map Split.recipient
    requiredAtaOwners := required }

/-- The amounts of the splits, added. -/
def splitsTotal (splits : List Split) : Thrown Int :=
  splits.foldlM (fun sum split => do return sum + (← bigInt split.amount)) 0

/-- The transfers to the splits; `verifyTransfer` is the matcher of the currency. -/
def verifySplitsPreBroadcast (verifyTransfer : String → Int → List Nat → Thrown (List Nat))
    (splits : List Split) (matched : List Nat) : Thrown (List Nat) :=
  splits.foldlM
    (fun matched split => do verifyTransfer split.recipient (← bigInt split.amount) matched)
    matched

/-- `verifyBase64TransactionPreBroadcast` from the decoded message on. -/
def verifyMessagePreBroadcast (find : FindProgramAddress) (message : CompiledMessage)
    (challenge : ChallengeRequest) : Thrown Unit := do
  throwIf (∃ entries ∈ message.addressTableLookups, entries ≠ 0)
    "v0 transactions with address lookup tables are not supported"
  let splits := challenge.splits
  throwIf (splits.length > 8) s!"Too many splits: {splits.length} (maximum 8)"
  let totalAmount ← bigInt challenge.amount
  let primaryAmount := totalAmount - (← splitsTotal splits)
  throwIf (primaryAmount ≤ 0)
    "Splits consume the entire amount — primary recipient must receive a positive amount"
  let feePayer ← expectedFeePayer message challenge.methodDetails
  throwIf (isNativeSol challenge.currency ∧ ∃ split ∈ splits, split.RequiresAta)
    "ataCreationRequired requires an SPL token charge"
  let ataPolicy := expectedAtaCreationPolicy challenge feePayer
  if isNativeSol challenge.currency then
    let verifyTransfer := fun recipient amount matched =>
      verifySolTransferPreBroadcast message recipient amount feePayer matched
    let matched ← verifyTransfer challenge.recipient primaryAmount []
    let matched ← verifySplitsPreBroadcast verifyTransfer splits matched
    let matched ← verifyMemoInstructionsPreBroadcast message matched challenge.externalId splits
    validateInstructionAllowlist find message matched
      { allowedAtaOwners := ataPolicy.allowedAtaOwners
        expectedMint := none
        expectedTokenProgram := none
        feePayer
        requiredAtaOwners := ataPolicy.requiredAtaOwners }
  else
    let expectedMint ← okOrElse
      (truthy (resolveStablecoinMint challenge.currency challenge.methodDetails.network))
      { message := "SPL charge is missing a mint address" }
    throwIf (ataPolicy.requiredAtaOwners ≠ [] ∧ challenge.currency ≠ expectedMint)
      "ataCreationRequired requires currency to be an SPL token mint address"
    let expectedTokenProgram := challenge.methodDetails.tokenProgram.getD
      (defaultTokenProgramForCurrency challenge.currency challenge.methodDetails.network)
    let verifyTransfer := fun recipient amount matched =>
      verifySplTransferPreBroadcast find message recipient expectedMint expectedTokenProgram
        amount challenge.methodDetails.decimals feePayer matched
    let matched ← verifyTransfer challenge.recipient primaryAmount []
    let matched ← verifySplitsPreBroadcast verifyTransfer splits matched
    let matched ← verifyMemoInstructionsPreBroadcast message matched challenge.externalId splits
    validateInstructionAllowlist find message matched
      { allowedAtaOwners := ataPolicy.allowedAtaOwners
        expectedMint := some expectedMint
        expectedTokenProgram := some expectedTokenProgram
        feePayer
        requiredAtaOwners := ataPolicy.requiredAtaOwners }

/-- `verifyBase64TransactionPreBroadcast`. -/
def verifyBase64TransactionPreBroadcast (kit : Kit) (clientTxBase64 : String)
    (challenge : ChallengeRequest) : Thrown Unit := do
  let message ← rethrow "Invalid transaction: " (kit.messageOf clientTxBase64)
  verifyMessagePreBroadcast kit.findProgramAddress message challenge

end Ts
end MppSdk
