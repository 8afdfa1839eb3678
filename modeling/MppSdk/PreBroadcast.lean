import MppSdk.ChargeTypes
import MppSdk.Transaction

/-! # Verification before broadcast

`verify_versioned_transaction_pre_broadcast` of `server/charge.rs`: what the Rust server
checks of a pull payment before it signs as fee payer and broadcasts.  The set of matched
instruction indexes that the code mutates is passed along. -/

namespace MppSdk

namespace VersionedMessage

/-- What the message says, whatever its version. -/
def body : VersionedMessage → MessageBody
  | .legacy _ body => body
  | .v0 _ body _ => body

/-- `static_account_keys`. -/
def staticAccountKeys (message : VersionedMessage) : List Pubkey := message.body.accountKeys

/-- `instructions`. -/
def instructions (message : VersionedMessage) : List CompiledInstruction :=
  message.body.instructions

/-- `address_table_lookups`. -/
def addressTableLookups : VersionedMessage → Option (List AddressTableLookup)
  | .legacy _ _ => none
  | .v0 _ _ lookups => some lookups

end VersionedMessage

/-- `MAX_COMPUTE_UNIT_LIMIT`. -/
def MAX_COMPUTE_UNIT_LIMIT : Nat := 200000
/-- `MAX_COMPUTE_UNIT_PRICE_MICROLAMPORTS`. -/
def MAX_COMPUTE_UNIT_PRICE_MICROLAMPORTS : Nat := 5000000

/-- `data[i..j]`. -/
def slice (data : List UInt8) (i j : Nat) : List UInt8 := (data.drop i).take (j - i)

/-- `account_key`. -/
def accountKey (accountKeys : List Pubkey) (index : UInt8) (label : String) : Verified Pubkey :=
  okOrElse accountKeys[index.toNat]? (.invalidPayload s!"Invalid {label} index")

/-- The program of an instruction. -/
def programIdOf (accountKeys : List Pubkey) (ix : CompiledInstruction) : Verified Pubkey :=
  okOrElse accountKeys[ix.programIdIndex.toNat]? (.invalidPayload "Invalid program_id_index")

/-! ## Transfers and memos -/

section Match
variable (find : FindProgramAddress) (accountKeys : List Pubkey) (recipient mint : Pubkey)
  (amount : UInt64) (tokenProgram : Option Pubkey) (decimals : Option UInt8)
  (feePayer : Option Pubkey) (matched : List Nat)

/-- The loop body of `verify_sol_transfer_instructions`. -/
def solTransferAt (ix : CompiledInstruction) (index : Nat) : Verified (Option Nat) :=
  continueIf (index ∈ matched) do
    let programId ← programIdOf accountKeys ix
    continueIf (programId ≠ programs.systemKey) <|
    continueIf (ix.data.length < 12) <|
    continueIf (fromLeBytes (slice ix.data 0 4) ≠ 2) <|
    match ix.accounts with
    | sourceIndex :: destIndex :: _ => do
        let source ← accountKey accountKeys sourceIndex "source"
        let dest ← accountKey accountKeys destIndex "destination"
        continueIf (¬ (dest = recipient ∧ fromLeBytes (slice ix.data 4 12) = amount.toNat)) do
          rejectIf (feePayer = some source)
            (.invalidPayload "Fee payer cannot fund the SOL payment transfer")
          return some index
    | _ => return none

/-- `verify_sol_transfer_instructions`. -/
def verifySolTransferInstructions (tx : VersionedTransaction) : Verified (List Nat) := do
  match ← scan (solTransferAt accountKeys recipient amount feePayer matched) 0
      tx.message.instructions with
  | some index => return index :: matched
  | none => .error (.error (.invalidAmount
      s!"No matching SOL transfer of {amount} lamports to {recipient.toBase58}"))

/-- The loop body of `verify_spl_transfer_instructions`. -/
def splTransferAt (ix : CompiledInstruction) (index : Nat) : Verified (Option Nat) :=
  continueIf (index ∈ matched) do
    let programId ← programIdOf accountKeys ix
    continueIf (programId ≠ programs.tokenKey ∧ programId ≠ programs.token2022Key) <|
    continueIf (∃ expected ∈ tokenProgram, programId ≠ expected) <|
    continueIf (ix.data.head? ≠ some 12) <|
    match ix.data[9]?, ix.accounts with
    | some ixDecimals, sourceIndex :: mintIndex :: destIndex :: authorityIndex :: _ =>
        continueIf (fromLeBytes (slice ix.data 1 9) ≠ amount.toNat) <|
        continueIf (∃ expected ∈ decimals, ixDecimals ≠ expected) do
          let sourceAta ← accountKey accountKeys sourceIndex "source"
          let destAta ← accountKey accountKeys destIndex "destination"
          let ixMint ← accountKey accountKeys mintIndex "mint"
          continueIf (ixMint ≠ mint) do
            let authority ← accountKey accountKeys authorityIndex "authority"
            rejectIf (feePayer = some authority)
              (.invalidPayload "Fee payer cannot authorize the SPL payment transfer")
            rejectIf (∃ payer ∈ feePayer,
                sourceAta = associatedTokenAddress find payer programId ixMint)
              (.invalidPayload "Fee payer token account cannot fund the SPL payment transfer")
            continueIf (destAta ≠ associatedTokenAddress find recipient programId ixMint) <|
              return some index
    | _, _ => return none

/-- `verify_spl_transfer_instructions`. -/
def verifySplTransferInstructions (tx : VersionedTransaction) : Verified (List Nat) := do
  match ← scan (splTransferAt find accountKeys recipient mint amount tokenProgram decimals
      feePayer matched) 0 tx.message.instructions with
  | some index => return index :: matched
  | none => .error (.error (.invalidAmount
      s!"No matching SPL transferChecked of {amount} to {recipient.toBase58}"))

/-- The inner loop body of `verify_memo_instructions`. -/
def memoAt (expectedData : List UInt8) (ix : CompiledInstruction) (index : Nat) :
    Verified (Option Nat) :=
  continueIf (index ∈ matched) do
    let programId ← programIdOf accountKeys ix
    continueIf (¬ (programId = programs.memoKey ∧ ix.data = expectedData)) <|
      return some index

/-- One round of `verify_memo_instructions`. -/
def verifyMemo (tx : VersionedTransaction) (label memo : String) : Verified (List Nat) := do
  rejectIf ((utf8 memo).length > 566) (.invalidPayload "memo cannot exceed 566 bytes")
  match ← scan (memoAt accountKeys matched (utf8 memo)) 0 tx.message.instructions with
  | some index => return index :: matched
  | none => .error (.error (.invalidPayload
      s!"No memo instruction found for {label} memo \"{memo}\""))

/-- `verify_memo_instructions`. -/
def verifyMemoInstructions (tx : VersionedTransaction) (externalId : Option String)
    (splits : List Split) : Verified (List Nat) :=
  (expectedMemos externalId splits).foldlM
    (fun matched expected => verifyMemo accountKeys matched tx expected.1 expected.2) matched

/-- The transfers to the splits; `verifyTransfer` is the matcher of the currency. -/
def verifySplits (verifyTransfer : Pubkey → UInt64 → List Nat → Verified (List Nat))
    (splits : List Split) : Verified (List Nat) :=
  splits.foldlM (fun matched split => do
    let splitPk ← parseKey split.recipient (.invalidRecipient "Invalid split recipient")
    let amt ← okOrElse (parseU64 split.amount) (.invalidAmount "Invalid split amount")
    verifyTransfer splitPk amt matched) matched

end Match

/-! ## The allowlist -/

/-- `validate_compute_budget_instruction`. -/
def validateComputeBudgetInstruction (ix : CompiledInstruction) : Verified Unit := do
  rejectIf (ix.accounts ≠ [])
    (.invalidPayload "Compute budget instruction must not have accounts")
  if ix.data.head? = some 2 ∧ ix.data.length = 5 then
    let units := fromLeBytes (slice ix.data 1 5)
    rejectIf (units > MAX_COMPUTE_UNIT_LIMIT) (.invalidPayload
      s!"Compute unit limit {units} exceeds maximum {MAX_COMPUTE_UNIT_LIMIT}")
  else if ix.data.head? = some 3 ∧ ix.data.length = 9 then
    let price := fromLeBytes (slice ix.data 1 9)
    rejectIf (price > MAX_COMPUTE_UNIT_PRICE_MICROLAMPORTS) (.invalidPayload
      s!"Compute unit price {price} exceeds maximum {MAX_COMPUTE_UNIT_PRICE_MICROLAMPORTS}")
  else
    .error (.error (.invalidPayload "Unsupported compute budget instruction"))

section Allowlist
variable (find : FindProgramAddress) (accountKeys : List Pubkey) (matched : List Nat)
  (expectedMint : Option Pubkey) (allowedAtaOwners : List Pubkey)
  (expectedTokenProgram : Option Pubkey) (expectedPayer : Pubkey)

/-- `validate_create_ata_idempotent_instruction`: the owner of the account it opens. -/
def validateCreateAtaIdempotentInstruction (ix : CompiledInstruction) : Verified Pubkey := do
  let expectedMint ← okOrElse expectedMint
    (.invalidPayload "ATA creation is not allowed for native SOL payments")
  rejectIf (ix.data ≠ [1]) (.invalidPayload "Only idempotent ATA creation is allowed")
  match ix.accounts with
  | [payerIndex, ataIndex, ownerIndex, mintIndex, systemIndex, tokenIndex] => do
      let payer ← accountKey accountKeys payerIndex "ATA payer"
      let ata ← accountKey accountKeys ataIndex "ATA address"
      let owner ← accountKey accountKeys ownerIndex "ATA owner"
      let mint ← accountKey accountKeys mintIndex "ATA mint"
      let systemProgram ← accountKey accountKeys systemIndex "ATA system program"
      let tokenProgram ← accountKey accountKeys tokenIndex "ATA token program"
      rejectIf (payer ≠ expectedPayer)
        (.invalidPayload "ATA payer must match the transaction fee payer")
      rejectIf (mint ≠ expectedMint)
        (.invalidPayload "ATA creation mint does not match the charge currency")
      rejectIf (owner ∉ allowedAtaOwners)
        (.invalidPayload "ATA creation owner is not authorized by the challenge")
      rejectIf (systemProgram.toBase58 ≠ programs.SYSTEM_PROGRAM)
        (.invalidPayload "ATA creation must reference the System Program")
      rejectIf (tokenProgram.toBase58 ≠ programs.TOKEN_PROGRAM ∧
          tokenProgram.toBase58 ≠ programs.TOKEN_2022_PROGRAM)
        (.invalidPayload "ATA creation uses an unsupported token program")
      rejectIf (∃ expected ∈ expectedTokenProgram, tokenProgram ≠ expected)
        (.invalidPayload
          "ATA creation token program does not match methodDetails.tokenProgram")
      rejectIf (ata ≠ associatedTokenAddress find owner tokenProgram mint)
        (.invalidPayload "ATA creation address does not match owner/mint/token program")
      return owner
  | _ => .error (.error (.invalidPayload "Unexpected ATA creation account layout"))

/-- An instruction of a program that may only be used for the payment. -/
def requireMatched (index : Nat) (program : String) : Verified Unit :=
  rejectIf (index ∉ matched)
    (.invalidPayload s!"Unexpected {program} instruction in payment transaction")

/-- The loop body of `validate_instruction_allowlist`: the owners of the accounts opened so
far. -/
def allowAt (created : List Pubkey) : CompiledInstruction × Nat → Verified (List Pubkey)
  | (ix, index) => do
      let programId ← programIdOf accountKeys ix
      if programId = programs.computeBudgetKey then
        validateComputeBudgetInstruction ix
        return created
      else if programId = programs.memoKey then
        requireMatched matched index "Memo Program"
        return created
      else if programId = programs.systemKey then
        requireMatched matched index "System Program"
        return created
      else if programId = programs.tokenKey ∨ programId = programs.token2022Key then
        requireMatched matched index "Token Program"
        return created
      else if programId = programs.associatedTokenKey then
        let owner ← validateCreateAtaIdempotentInstruction find accountKeys expectedMint
          allowedAtaOwners expectedTokenProgram expectedPayer ix
        return owner :: created
      else
        .error (.error (.invalidPayload
          s!"Unexpected program instruction in payment transaction: {programId.toBase58}"))

/-- `validate_instruction_allowlist`.  The code looks at the required owners in no fixed
order. -/
def validateInstructionAllowlist (tx : VersionedTransaction) (feePayer : Option Pubkey)
    (requiredAtaOwners : List Pubkey) : Verified Unit := do
  let txFeePayer ← okOrElse tx.message.staticAccountKeys.head?
    (.invalidPayload "Transaction has no fee payer")
  let created ← tx.message.instructions.zipIdx.foldlM
    (allowAt find accountKeys matched expectedMint allowedAtaOwners expectedTokenProgram
      (feePayer.getD txFeePayer)) []
  requiredAtaOwners.forM fun owner =>
    rejectIf (owner ∉ created) (.invalidPayload
      s!"Missing required ATA creation instruction for split recipient {owner.toBase58}")

end Allowlist

/-! ## The request -/

/-- `AtaCreationPolicy`. -/
structure AtaCreationPolicy where
  allowedOwners : List Pubkey
  requiredOwners : List Pubkey

/-- `expected_ata_creation_policy`: a sponsor opens only the accounts the request requires. -/
def expectedAtaCreationPolicy (splits : List Split) (feePayer : Option Pubkey) :
    Verified AtaCreationPolicy := do
  let owners ← splits.mapM fun split => do
    let owner ← parseKey split.recipient (.invalidRecipient "Invalid split recipient")
    return (owner, decide (split.ataCreationRequired = some true))
  let required := (owners.filter Prod.snd).map Prod.fst
  return {
    allowedOwners := if feePayer.isSome then required else owners.map Prod.fst
    requiredOwners := required }

/-- `reject_address_lookup_tables`. -/
def rejectAddressLookupTables (tx : VersionedTransaction) : Verified Unit :=
  rejectIf (∃ lookups ∈ tx.message.addressTableLookups, lookups ≠ [])
    (.invalidPayload "v0 transactions with address lookup tables are not supported")

/-- `expected_fee_payer`. -/
def expectedFeePayer (tx : VersionedTransaction) (details : MethodDetails) :
    Verified (Option Pubkey) :=
  if details.feePayer.getD false = false then .ok none
  else do
    let feePayerKey ← okOrElse details.feePayerKey
      (.invalidPayload "feePayer=true requires feePayerKey in methodDetails")
    let feePayer ← parseKey feePayerKey (.invalidPayload "Invalid fee payer")
    let txFeePayer ← okOrElse tx.message.staticAccountKeys.head?
      (.invalidPayload "Transaction has no fee payer")
    rejectIf (txFeePayer ≠ feePayer)
      (.invalidPayload s!"Transaction fee payer must be {feePayer.toBase58}")
    return some feePayer

/-- `expected_token_program`. -/
def expectedTokenProgram (details : MethodDetails) : Verified (Option Pubkey) :=
  match details.tokenProgram with
  | none => .ok none
  | some tokenProgram => do
      rejectIf (tokenProgram ≠ programs.TOKEN_PROGRAM ∧ tokenProgram ≠ programs.TOKEN_2022_PROGRAM)
        (.invalidPayload s!"Unsupported token program: {tokenProgram}")
      let key ← parseKey tokenProgram (.invalidPayload "Invalid token program")
      return some key

/-- `resolve_expected_mint`. -/
def resolveExpectedMint (currency : String) (network : Option String) : Verified Pubkey := do
  let mint ← okOrElse (resolveStablecoinMint currency network)
    (.invalidPayload "SOL does not use an SPL mint")
  parseKey mint (.invalidPayload "Invalid currency/mint")

/-- The amounts of the splits that can be read, added modulo `2 ^ 64` as a release build
does. -/
def splitsTotal (splits : List Split) : UInt64 :=
  (splits.filterMap (fun split => parseU64 split.amount)).sum

/-- The amount left for the recipient. -/
def primaryAmount (request : ChargeRequest) (splits : List Split) : Verified UInt64 := do
  let totalAmount ← okOrElse (parseU64 request.amount)
    (.invalidAmount s!"Invalid amount: {request.amount}")
  rejectIf (totalAmount < splitsTotal splits)
    (.invalidAmount "Split amounts exceed total amount")
  let primary := totalAmount - splitsTotal splits
  rejectIf (primary = 0) (.invalidAmount "Primary amount is zero after splits")
  return primary

/-- The currency is native SOL. -/
def ChargeRequest.IsNativeSol (request : ChargeRequest) : Prop :=
  toUppercase request.currency = "SOL"

instance (request : ChargeRequest) : Decidable request.IsNativeSol :=
  inferInstanceAs (Decidable (_ = _))

/-- Some split asks for its account to be opened. -/
def requiresAta (splits : List Split) : Prop :=
  ∃ split ∈ splits, split.ataCreationRequired = some true

instance (splits : List Split) : Decidable (requiresAta splits) :=
  inferInstanceAs (Decidable (∃ _ ∈ _, _))

/-- `verify_versioned_transaction_pre_broadcast`. -/
def verifyPreBroadcast (find : FindProgramAddress) (tx : VersionedTransaction)
    (request : ChargeRequest) (details : MethodDetails) : Verified Unit := do
  rejectAddressLookupTables tx
  let splits := details.splitList
  rejectIf (splits.length > 8)
    (.tooManySplits s!"Too many splits: {splits.length} (maximum 8)")
  let primary ← primaryAmount request splits
  let recipient ← okOrElse request.recipient (.invalidRecipient "No recipient in charge request")
  let recipientPk ← parseKey recipient (.invalidRecipient "Invalid recipient")
  let feePayer ← expectedFeePayer tx details
  rejectIf (request.IsNativeSol ∧ requiresAta splits)
    (.invalidPayload "ataCreationRequired requires an SPL token charge")
  let accountKeys := tx.message.staticAccountKeys
  let policy ← expectedAtaCreationPolicy splits feePayer
  if request.IsNativeSol then
    let verifyTransfer := fun owner amount matched =>
      verifySolTransferInstructions accountKeys owner amount feePayer matched tx
    let matched ← verifyTransfer recipientPk primary []
    let matched ← verifySplits matched verifyTransfer splits
    let matched ← verifyMemoInstructions accountKeys matched tx request.externalId splits
    validateInstructionAllowlist find accountKeys matched none policy.allowedOwners none tx
      feePayer policy.requiredOwners
  else
    let mint ← resolveExpectedMint request.currency details.network
    rejectIf (policy.requiredOwners ≠ [] ∧ request.currency ≠ mint.toBase58)
      (.invalidPayload
        "ataCreationRequired requires currency to be an SPL token mint address")
    let tokenProgram ← expectedTokenProgram details
    let verifyTransfer := fun owner amount matched =>
      verifySplTransferInstructions find accountKeys owner mint amount tokenProgram
        details.decimals feePayer matched tx
    let matched ← verifyTransfer recipientPk primary []
    let matched ← verifySplits matched verifyTransfer splits
    let matched ← verifyMemoInstructions accountKeys matched tx request.externalId splits
    validateInstructionAllowlist find accountKeys matched (some mint) policy.allowedOwners
      tokenProgram tx feePayer policy.requiredOwners

end MppSdk
