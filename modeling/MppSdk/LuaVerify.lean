import MppSdk.LuaUint

/-! # The confirmed-transaction verifier of the Lua server

`server/solana_verify.lua` looks at a transaction as an RPC node shows it, parsed.  Each expected
transfer takes the first parsed transfer that pays it and removes it from the list; each expected
memo marks the first memo instruction with its text, and none may be left over. -/

namespace MppSdk
namespace Lua

/-! ## Currencies, `protocol/solana.lua` -/

def TOKEN_PROGRAM : String := "TokenkegQfeZyiNwAJbNbGKPFXCWuBvf9Ss623VQ5DA"
def TOKEN_2022_PROGRAM : String := "TokenzQdBNbLqP5VEhdkAS6EPFLC1PHnBqCXEpPxuEb"
def MEMO_PROGRAM : String := "MemoSq4gqABAXKb96qnH8TysNcWxMyWCqXgDLGmfcHr"

/-- `KNOWN_MINTS`: the mints of a symbol, by network. -/
def KNOWN_MINTS : List (String × List (String × String)) :=
  [ ("USDC", [
      ("devnet", "4zMMC9srt5Ri5X14GAgXhaHii3GnPAEERYPJgZJDncDU"),
      ("testnet", "4zMMC9srt5Ri5X14GAgXhaHii3GnPAEERYPJgZJDncDU"),
      ("mainnet-beta", "EPjFWdd5AufqSSqeM2qN1xzybapC8G4wEGGkZwyTDt1v")]),
    ("USDT", [("mainnet-beta", "Es9vMFrzaCERmJfrF4H2FYD4KCoNkY11McCe8BenwNYB")]),
    ("USDG", [
      ("devnet", "4F6PM96JJxngmHnZLBh9n58RH4aTVNWvDs2nuwrT5BP7"),
      ("testnet", "4F6PM96JJxngmHnZLBh9n58RH4aTVNWvDs2nuwrT5BP7"),
      ("mainnet-beta", "2u1tszSeqZ3qBWF3uNGPFc8TzMk2tdiwknnRMWGWjGWH")]),
    ("PYUSD", [
      ("devnet", "CXk2AMBfi3TwaEL2468s6zP8xq9NxTXjp9gjMgzeUynM"),
      ("testnet", "CXk2AMBfi3TwaEL2468s6zP8xq9NxTXjp9gjMgzeUynM"),
      ("mainnet-beta", "2b1kV6DkPAnxd5ixfnxCpjxmKwqjjaYmCZfHsFu24GXo")]),
    ("CASH", [("mainnet-beta", "CASHx9KJUStyftLFWGvEVf59SGeG9sh5FfcnZMVPCASH")]) ]

/-- `TOKEN_PROGRAMS`. -/
def TOKEN_PROGRAMS : List (String × String) :=
  [("USDC", TOKEN_PROGRAM), ("USDT", TOKEN_PROGRAM), ("USDG", TOKEN_2022_PROGRAM),
    ("PYUSD", TOKEN_2022_PROGRAM), ("CASH", TOKEN_2022_PROGRAM)]

/-- `resolve_mint`. -/
def resolveMint (currency : String) (network : Option String) : Option String :=
  let normalized := currency.map Char.toUpper
  if normalized = "SOL" then none
  else match KNOWN_MINTS.lookup normalized with
    | some known => (network.bind fun network => known.lookup network).or (known.lookup "mainnet-beta")
    | none => some currency

/-- `stablecoin_symbol`.  No mint is listed under two symbols, so the order of `pairs` does not
matter. -/
def stablecoinSymbol (currency : Option String) : Option String :=
  let normalized := (currency.getD "").map Char.toUpper
  if (KNOWN_MINTS.lookup normalized).isSome then some normalized
  else (KNOWN_MINTS.find? fun entry => entry.2.any fun mint => some mint.2 = currency).map (·.1)

/-- `default_token_program_for_currency`. -/
def defaultTokenProgramForCurrency (currency : String) (network : Option String) : Option String :=
  match (stablecoinSymbol (resolveMint currency network)).or (stablecoinSymbol (some currency)) with
  | some symbol => TOKEN_PROGRAMS.lookup symbol
  | none => some TOKEN_PROGRAM

namespace Verify

/-! ## What the verifier is given -/

structure Split where
  recipient : String
  amount : String
  memo : Option String := none
deriving DecidableEq

structure MethodDetails where
  network : Option String := none
  tokenProgram : Option String := none
  splits : Option (List Split) := none
deriving DecidableEq

structure Request where
  amount : String
  currency : String
  recipient : String
  externalId : Option String := none
  methodDetails : Option MethodDetails := none
deriving DecidableEq

/-- The table `info` of a parsed instruction; of a token amount only its `amount` is read. -/
structure Info where
  destination : Option String := none
  lamports : Option String := none
  mint : Option String := none
  tokenAmount : Option String := none
  memo : Option String := none
  data : Option String := none
deriving DecidableEq

/-- The field `parsed`, which is the text itself for some memos. -/
inductive Parsed : Type
  | text (s : String)
  | table (type : Option String) (info : Option Info)
deriving DecidableEq

/-- A parsed instruction. -/
structure Instruction where
  programId : Option String := none
  program_id : Option String := none
  program : Option String := none
  parsed : Option Parsed := none
deriving DecidableEq

/-- What a node says of a transaction: whether `meta.err` is there, and the instructions. -/
structure Tx where
  err : Option String := none
  instructions : Option (List Instruction) := none
deriving DecidableEq

/-- What `fetch_token_account` says of an account. -/
structure TokenAccount where
  owner : Option String
  mint : Option String
deriving DecidableEq

/-- The hooks that the verifier of a token payment calls. -/
structure Hooks where
  fetchTokenAccount : Option (Option String → Option TokenAccount)

/-- A transfer that is expected. -/
structure Expected where
  recipient : String
  amount : String
deriving DecidableEq

/-- A memo that is expected. -/
structure ExpectedMemo where
  label : String
  value : String
deriving DecidableEq

/-! ## Transfers -/

/-- `is_native_sol`. -/
def isNativeSol (currency : String) : Bool := currency.map Char.toLower = "sol"

/-- The splits of a request. -/
def Request.splits (request : Request) : List Split :=
  (request.methodDetails.bind MethodDetails.splits).getD []

/-- `sum_split_amounts`. -/
def sumSplitAmounts (splits : List Split) : Result String :=
  splits.foldlM (fun total split => Uint.add total split.amount) "0"

/-- `primary_amount`. -/
def primaryAmount (amount : String) (splits : List Split) : Result String := do
  let totalSplits ← sumSplitAmounts splits
  let order ← Uint.compare amount totalSplits
  if order ≤ 0 then throw "splits consume the entire amount"
  Uint.sub amount totalSplits

/-- `build_expected_transfers`. -/
def buildExpectedTransfers (request : Request) : Result (List Expected) := do
  let primary ← primaryAmount request.amount request.splits
  return ⟨request.recipient, primary⟩ ::
    request.splits.map fun split => ⟨split.recipient, split.amount⟩

/-- `normalize_program_id`. -/
def normalizeProgramId (ix : Instruction) : String := (ix.programId.or ix.program_id).getD ""

/-- `normalize_program`. -/
def normalizeProgram (ix : Instruction) : String := ix.program.getD ""

/-- `parsed_program_id`. -/
def parsedProgramId (ix : Instruction) : String :=
  if normalizeProgramId ix ≠ "" then normalizeProgramId ix
  else if normalizeProgram ix = "spl-memo" then MEMO_PROGRAM
  else ""

/-- `ix.parsed and ix.parsed.type`; a text has no such field. -/
def parsedType (ix : Instruction) : Option String :=
  match ix.parsed with
  | some (.table type _) => type
  | _ => none

/-- `instruction_info`. -/
def instructionInfo (ix : Instruction) : Option Info :=
  match ix.parsed with
  | some (.table _ info) => info
  | _ => none

/-- The loop over the transfers that are left: the first one that is accepted is removed. -/
def removeFirst (accepts : Instruction → Result Bool) :
    List Instruction → Result (Option (List Instruction))
  | [] => return none
  | ix :: transfers => do
      if ← accepts ix then return some transfers
      let rest ← removeFirst accepts transfers
      return rest.map (ix :: ·)

/-- The round for one expected transfer. -/
def takeOne (accepts : Expected → Instruction → Result Bool) (kind : String)
    (transfers : List Instruction) (want : Expected) : Result (List Instruction) := do
  match ← removeFirst (accepts want) transfers with
  | some rest => return rest
  | none => throw s!"no matching {kind} transfer for {want.recipient}"

/-- The loop over the expected transfers. -/
def takeAll (accepts : Expected → Instruction → Result Bool) (kind : String)
    (transfers : List Instruction) (expected : List Expected) : Result (List Instruction) :=
  expected.foldlM (takeOne accepts kind) transfers

/-- The test of `verify_sol_transfers`. -/
def paysSol (want : Expected) (ix : Instruction) : Result Bool :=
  match instructionInfo ix with
  | some info =>
      if info.destination = some want.recipient then do
        let order ← Uint.compare (info.lamports.getD "") want.amount
        return decide (order = 0)
      else return false
  | none => return false

/-- `verify_sol_transfers`. -/
def verifySolTransfers (instructions : List Instruction) (request : Request) : Result Unit := do
  let expected ← buildExpectedTransfers request
  let transfers := instructions.filter fun ix =>
    normalizeProgram ix = "system" ∧ parsedType ix = some "transfer"
  let _ ← takeAll paysSol "SOL" transfers expected

/-- The test of `verify_spl_transfers`. -/
def paysToken (fetch : Option String → Option TokenAccount) (mint : Option String)
    (want : Expected) (ix : Instruction) : Result Bool :=
  match instructionInfo ix with
  | some info =>
      if info.mint = mint then
        match info.tokenAmount with
        | some amount => do
            let order ← Uint.compare amount want.amount
            if order = 0 then
              match fetch info.destination with
              | some account =>
                  return decide (account.owner = some want.recipient ∧ account.mint = mint)
              | none => return false
            else return false
        | none => throw "attempt to index a nil value (field 'tokenAmount')"
      else return false
  | none => return false

/-- The token program of a payment. -/
def tokenProgram (request : Request) (details : MethodDetails) : Option String :=
  details.tokenProgram.or (defaultTokenProgramForCurrency request.currency details.network)

/-- The transfers under a token program. -/
def IsTransfer (programId : Option String) (ix : Instruction) : Prop :=
  parsedType ix = some "transferChecked" ∧ some (normalizeProgramId ix) = programId

instance (programId : Option String) (ix : Instruction) : Decidable (IsTransfer programId ix) :=
  inferInstanceAs (Decidable (_ ∧ _))

/-- `verify_spl_transfers`. -/
def verifySplTransfers (fetch : Option String → Option TokenAccount)
    (instructions : List Instruction) (request : Request) (details : MethodDetails) :
    Result Unit := do
  let expected ← buildExpectedTransfers request
  let programId := tokenProgram request details
  let mint := resolveMint request.currency details.network
  if programId ≠ some TOKEN_PROGRAM ∧ programId ≠ some TOKEN_2022_PROGRAM then
    let shown := programId.getD "nil"
    throw s!"unsupported token program: {shown}"
  let transfers := instructions.filter (IsTransfer programId)
  let _ ← takeAll (paysToken fetch mint) "token" transfers expected

/-! ## Memos -/

/-- `parsed_memo_text`. -/
def parsedMemoText (ix : Instruction) : Option String :=
  match ix.parsed with
  | some (.text s) => some s
  | some (.table _ (some info)) => info.memo.or info.data
  | _ => none

/-- `expected_memos`. -/
def expectedMemos (request : Request) (details : MethodDetails) : List ExpectedMemo :=
  let externalId := (request.externalId.filter (· ≠ "")).map fun value => ⟨"externalId", value⟩
  let splits := ((request.methodDetails.bind MethodDetails.splits).or details.splits).getD []
  externalId.toList ++
    splits.filterMap fun split => (split.memo.filter (· ≠ "")).map fun value => ⟨"split", value⟩

/-- The instruction is one of the memo program. -/
def IsMemo (ix : Instruction) : Prop := parsedProgramId ix = MEMO_PROGRAM

instance (ix : Instruction) : Decidable (IsMemo ix) := inferInstanceAs (Decidable (_ = _))

/-- The round for one expected memo, over the positions that are matched. -/
def matchMemo (instructions : List Instruction) (matched : List Nat) (want : ExpectedMemo) :
    Result (List Nat) := do
  if 566 < want.value.utf8ByteSize then throw "memo cannot exceed 566 bytes"
  match instructions.zipIdx.find? fun item =>
      item.2 ∉ matched ∧ IsMemo item.1 ∧ parsedMemoText item.1 = some want.value with
  | some item => return item.2 :: matched
  | none => throw s!"No memo instruction found for {want.label} memo \"{want.value}\""

/-- `verify_memo_instructions`. -/
def verifyMemoInstructions (instructions : List Instruction) (request : Request)
    (details : MethodDetails) : Result Unit := do
  let matched ← (expectedMemos request details).foldlM (matchMemo instructions) []
  if instructions.zipIdx.any fun item => item.2 ∉ matched ∧ IsMemo item.1 then
    throw "unexpected Memo Program instruction in payment transaction"

/-! ## Transactions -/

/-- `verify_confirmed_transaction`. -/
def verifyConfirmedTransaction (reference : String) (tx : Option Tx) (request : Request)
    (details : MethodDetails) (hooks : Hooks) : Result String := do
  match tx with
  | none => throw "transaction not found or not yet confirmed"
  | some tx =>
      if tx.err ≠ none then throw "transaction failed on-chain"
      let instructions := tx.instructions.getD []
      if isNativeSol request.currency then
        verifySolTransfers instructions request
      else
        match hooks.fetchTokenAccount with
        | none => throw "fetch_token_account callback is required for token verification"
        | some fetch => verifySplTransfers fetch instructions request details
      verifyMemoInstructions instructions request details
      return reference

end Verify
end Lua
end MppSdk
