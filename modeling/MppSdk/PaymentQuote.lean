import MppSdk.FeePayerSafety
import MppSdk.Matching

/-! # What a request asks for

A request with its method details asks for payouts and memos (`quoteOf`).  A transaction
pays the quote if its transfers and memos correspond one to one to what is asked for, and
every other instruction sets the compute budget or opens an account the quote allows
(`Quote.PaidBy`). -/

namespace MppSdk
open Sponsorship

/-- What a quote asks an instruction for. -/
inductive Demand : Type
  | payout (recipient : Pubkey) (amount : UInt64)
  | memo (label memo : String)

/-- The token of a quote; without a program either of the two will do. -/
structure QuotedToken where
  mint : Pubkey
  program : Option Pubkey
  decimals : Option UInt8

/-- What a request asks for.  Without a token it is paid in lamports. -/
structure Quote where
  feePayer : Option Pubkey
  token : Option QuotedToken
  payouts : List (Pubkey × UInt64)
  memos : List (String × String)
  allowedOwners : List Pubkey
  requiredOwners : List Pubkey

namespace CompiledInstruction
variable (keys : List Pubkey) (ix : CompiledInstruction)

/-- The instruction calls one of the programs. -/
def CallsAny (ps : List Pubkey) : Prop := ∃ p ∈ ps, keys[ix.programIdIndex.toNat]? = some p

/-- A transfer or a memo: any instruction of the programs that are used for these. -/
def IsPayment : Prop :=
  ix.CallsAny keys [programs.memoKey, programs.systemKey, programs.tokenKey, programs.token2022Key]

/-- A compute-budget instruction within the bounds. -/
def IsBudget : Prop :=
  ix.CallsAny keys [programs.computeBudgetKey] ∧ ix.accounts = [] ∧
    ((∃ units ≤ MAX_COMPUTE_UNIT_LIMIT, ix.data = 2 :: leBytes 4 units) ∨
      ∃ price ≤ MAX_COMPUTE_UNIT_PRICE_MICROLAMPORTS, ix.data = 3 :: leBytes 8 price)

end CompiledInstruction

namespace Quote
variable (find : FindProgramAddress) (keys : List Pubkey) (q : Quote)

/-- All that the quote asks for. -/
def demands : List Demand :=
  q.payouts.map (fun payout => .payout payout.1 payout.2) ++
    q.memos.map fun memo => .memo memo.1 memo.2

/-- The instruction is what the quote asks for, and no transfer of the fee payer's funds. -/
def Fits : Demand → CompiledInstruction → Prop
  | .payout recipient amount, ix =>
      match q.token with
      | none => ∃ source, ix.effect keys = .transfer source recipient amount.toNat ∧
          q.feePayer ≠ some source
      | some token => ∃ program source authority d,
          ix.effect keys = .tokenTransfer program source token.mint
            (associatedTokenAddress find recipient program token.mint) authority amount.toNat d ∧
          (program = programs.tokenKey ∨ program = programs.token2022Key) ∧
          (∀ expected ∈ token.program, program = expected) ∧
          (∀ expected ∈ token.decimals, d = expected) ∧ q.feePayer ≠ some authority ∧
          ∀ payer ∈ q.feePayer, source ≠ associatedTokenAddress find payer program token.mint
  | .memo _ memo, ix => ix.effect keys = .memo (utf8 memo)

/-- The instruction opens the token account of an owner, at the cost of the first account. -/
def Opens (owner : Pubkey) (ix : CompiledInstruction) : Prop :=
  ix.CallsAny keys [programs.associatedTokenKey] ∧ ix.data = [1] ∧
    ∃ token ∈ q.token, ∃ payer ∈ keys.head?, ∃ program,
      (program = programs.tokenKey ∨ program = programs.token2022Key) ∧
      (∀ expected ∈ token.program, program = expected) ∧
      ix.accounts.map (fun index => keys[index.toNat]?) =
        [some payer, some (associatedTokenAddress find owner program token.mint), some owner,
          some token.mint, some programs.systemKey, some program]

/-- The transaction pays the quote: its transfers and memos are what is asked for, each
once; the rest is the compute budget and accounts of allowed owners; and the accounts that
are required are opened. -/
structure PaidBy (find : FindProgramAddress) (q : Quote) (tx : VersionedTransaction) : Prop where
  noLookups : ∀ lookups ∈ tx.message.addressTableLookups, lookups = []
  first : ∃ payer, tx.message.staticAccountKeys.head? = some payer ∧
    ∀ feePayer ∈ q.feePayer, feePayer = payer
  payment : ∃ picks, Matching.OneToOne (q.Fits find tx.message.staticAccountKeys)
    (CompiledInstruction.IsPayment tx.message.staticAccountKeys) tx.message.instructions q.demands
    picks
  others : ∀ ix ∈ tx.message.instructions,
    ix.IsPayment tx.message.staticAccountKeys ∨ ix.IsBudget tx.message.staticAccountKeys ∨
      ∃ owner ∈ q.allowedOwners, q.Opens find tx.message.staticAccountKeys owner ix
  opened : ∀ owner ∈ q.requiredOwners, ∃ ix ∈ tx.message.instructions,
    q.Opens find tx.message.staticAccountKeys owner ix

end Quote

/-! ## The quote of a request -/

/-- The payout of a split. -/
def splitDue (split : Split) : Option (Pubkey × UInt64) := do
  let recipient ← Bytes.fromBase58 32 split.recipient
  let amount ← parseU64 split.amount
  return (recipient, amount)

/-- The fee payer of a request; the outer `none` is a key that is missing or no key. -/
def quotedFeePayer (details : MethodDetails) : Option (Option Pubkey) :=
  if details.feePayer.getD false = false then some none
  else (details.feePayerKey.bind (Bytes.fromBase58 32)).map some

/-- The token program of a request, if it names one that can be used. -/
def quotedProgram (details : MethodDetails) : Option (Option Pubkey) :=
  match details.tokenProgram with
  | none => some none
  | some tokenProgram =>
      if tokenProgram = programs.TOKEN_PROGRAM ∨ tokenProgram = programs.TOKEN_2022_PROGRAM then
        (Bytes.fromBase58 32 tokenProgram).map some
      else none

/-- The token of a request; none if it is paid in SOL. -/
def quotedToken (request : ChargeRequest) (details : MethodDetails) : Option (Option QuotedToken) :=
  if request.IsNativeSol then some none
  else do
    let mint ← (resolveStablecoinMint request.currency details.network).bind (Bytes.fromBase58 32)
    let program ← quotedProgram details
    return some { mint, program, decimals := details.decimals }

/-- The owners of the accounts that the splits require to be opened. -/
def requiredOwners (due : List (Pubkey × UInt64)) (splits : List Split) : List Pubkey :=
  ((due.zip splits).filter fun entry => entry.2.ataCreationRequired = some true).map
    fun entry => entry.1.1

/-- What a request asks for, if it is one that can be paid, with `primary` left for the
recipient. -/
def quoteOf (request : ChargeRequest) (details : MethodDetails) (primary : UInt64) :
    Option Quote := do
  let splits := details.splitList
  let recipient ← request.recipient.bind (Bytes.fromBase58 32)
  let due ← splits.mapM splitDue
  let feePayer ← quotedFeePayer details
  let required := requiredOwners due splits
  let memos := expectedMemos request.externalId splits
  let token ← quotedToken request details
  if splits.length ≤ 8 ∧ (∀ memo ∈ memos, (utf8 memo.2).length ≤ 566) ∧
      (requiresAta splits → ∃ quoted ∈ token, request.currency = quoted.mint.toBase58) then
    some {
      feePayer
      token
      payouts := (recipient, primary) :: due
      memos
      allowedOwners := if feePayer.isSome then required else due.map Prod.fst
      requiredOwners := required }
  else none

end MppSdk
