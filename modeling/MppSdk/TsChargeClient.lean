import MppSdk.ChargeLines
import MppSdk.TsPreBroadcast
import MppSdk.TsSessionClient

/-! # The TypeScript charge client

`client/Charge.ts`: the client builds and signs the transaction that pays a charge.  The Rust
server accepts what it builds unless the charge is in a token and names a program that is none
of the two token programs (`charge_accepted_iff`): the client checks only the program it asks a
node for. -/

namespace MppSdk
namespace Ts
open Sponsorship Matching

/-- The signer and the node of a client, and what it takes from `@solana/kit` and the packages
of the programs. -/
structure ChargeClient where
  address : Pubkey
  /-- The signatures of a message. -/
  sign : VersionedMessage → Except String (List Signature)
  /-- The owner of an account at the node. -/
  accountOwner : Pubkey → Except String (Option String)
  latestBlockhash : Except String String
  compile : CompileMessage
  findProgramAddress : FindProgramAddress
  getTransferSolInstruction : (source destination : Pubkey) → (amount : Int) →
    Except String Instruction
  getTransferCheckedInstruction : (programAddress source mint destination authority : Pubkey) →
    (amount : Int) → (decimals : Nat) → Except String Instruction
  getCreateAssociatedTokenIdempotentInstruction :
    (payer ata owner mint tokenProgram : Pubkey) → Instruction
  getSetComputeUnitPriceInstruction : (microLamports : Nat) → Except String Instruction
  getSetComputeUnitLimitInstruction : (units : Nat) → Except String Instruction

/-- What is documented of the packages: their instructions are those of the programs, for the
numbers that their encoders accept. -/
structure ChargeClient.Documented (client : ChargeClient) : Prop where
  compile : client.compile.Documented
  transferSol : ∀ source destination (amount : UInt64),
    client.getTransferSolInstruction source destination (amount.toNat : Int) =
      .ok (.solTransfer source destination amount)
  transferChecked : ∀ program source mint destination authority (amount : UInt64)
    (decimals : UInt8), client.getTransferCheckedInstruction program source mint destination
      authority (amount.toNat : Int) decimals.toNat =
        .ok (.transferChecked program source mint destination authority amount decimals)
  createIdempotent : ∀ payer ata owner mint program,
    client.getCreateAssociatedTokenIdempotentInstruction payer ata owner mint program =
      .createIdempotent payer ata owner mint program
  computeUnitPrice : ∀ microLamports : UInt64,
    client.getSetComputeUnitPriceInstruction microLamports.toNat =
      .ok (.setComputeUnitPrice microLamports)
  computeUnitLimit : ∀ units : UInt32,
    client.getSetComputeUnitLimitInstruction units.toNat = .ok (.setComputeUnitLimit units)

/-- `addMemoInstruction`. -/
def addMemoInstruction (instructions : List Instruction) (memo : Option String) :
    Thrown (List Instruction) :=
  match truthy memo with
  | none => return instructions
  | some memo => do
      throwIf ((utf8 memo).length > 566) "memo cannot exceed 566 bytes"
      return instructions ++ [.memo memo]

/-- `createAssociatedTokenAccountIdempotent`. -/
def createAssociatedTokenAccountIdempotent (payer owner mint ata tokenProgram : Pubkey) :
    Instruction :=
  .createIdempotent payer ata owner mint tokenProgram

namespace ChargeClient
variable (client : ChargeClient)

/-- The native transfers of a charge. -/
def buildSolInstructions (instructions : List Instruction) (request : ChallengeRequest)
    (primaryAmount : Int) : Thrown (List Instruction) := do
  let recipient ← Ts.address request.recipient
  let transfer ← rethrow "" (client.getTransferSolInstruction client.address recipient primaryAmount)
  let instructions ← addMemoInstruction (instructions ++ [transfer]) request.externalId
  request.splits.foldlM (fun instructions split => do
    let amount ← bigInt split.amount
    let recipient ← Ts.address split.recipient
    let transfer ← rethrow "" (client.getTransferSolInstruction client.address recipient amount)
    addMemoInstruction (instructions ++ [transfer]) split.memo) instructions

/-- `resolveTokenProgram`. -/
def resolveTokenProgram (mint : Pubkey) : Thrown Pubkey := do
  let owner ← rethrow "" (client.accountOwner mint)
  let owner ← okOrElse (truthy owner)
    { message := "Failed to determine token program for mint: mint account not found" }
  throwIf (owner ≠ programs.TOKEN_PROGRAM ∧ owner ≠ programs.TOKEN_2022_PROGRAM)
    s!"Failed to determine token program for mint: unexpected owner {owner}"
  Ts.address owner

/-- The token program that is asked for, or the one that owns the mint. -/
def tokenProgramOf (mint : Pubkey) (tokenProgram : Option String) : Thrown Pubkey :=
  match truthy tokenProgram with
  | some tokenProgram => Ts.address tokenProgram
  | none => client.resolveTokenProgram mint

/-- `addAtaCreation`; the fee payer has a key if it is the server. -/
def addAtaCreation (feePayerKey : Option String) (mint tokenProg owner ata : Pubkey) :
    Thrown Instruction :=
  match feePayerKey with
  | some key => do
      return createAssociatedTokenAccountIdempotent (← Ts.address key) owner mint ata tokenProg
  | none =>
      return client.getCreateAssociatedTokenIdempotentInstruction client.address ata owner mint
        tokenProg

/-- The instruction that opens an account, if it is to be opened. -/
def ataCreation (feePayerKey : Option String) (mint tokenProg owner ata : Pubkey)
    (createAta : Bool) : Thrown (List Instruction) :=
  if createAta then do
    return [← client.addAtaCreation feePayerKey mint tokenProg owner ata]
  else return []

/-- `addSplTransfer`. -/
def addSplTransfer (feePayerKey : Option String) (mint tokenProg : Pubkey) (tokenDecimals : Nat)
    (instructions : List Instruction) (dest : String) (transferAmount : Int) (createAta : Bool) :
    Thrown (List Instruction) := do
  let find := client.findProgramAddress
  let destOwner ← Ts.address dest
  let destAta := associatedTokenAddress find destOwner tokenProg mint
  let creation ← client.ataCreation feePayerKey mint tokenProg destOwner destAta createAta
  let transfer ← rethrow "" (client.getTransferCheckedInstruction tokenProg
    (associatedTokenAddress find client.address tokenProg mint) mint destAta client.address
    transferAmount tokenDecimals)
  return instructions ++ creation ++ [transfer]

/-- The token transfers of a charge. -/
def buildSplInstructions (instructions : List Instruction) (mint : String)
    (request : ChallengeRequest) (primaryAmount : Int) (feePayerKey : Option String) :
    Thrown (List Instruction) := do
  let mint ← Ts.address mint
  let tokenProg ← client.tokenProgramOf mint request.methodDetails.tokenProgram
  let tokenDecimals := request.methodDetails.decimals.getD 6
  let addSplTransfer := client.addSplTransfer feePayerKey mint tokenProg tokenDecimals
  let instructions ← addSplTransfer instructions request.recipient primaryAmount false
  let instructions ← addMemoInstruction instructions request.externalId
  request.splits.foldlM (fun instructions split => do
    let amount ← bigInt split.amount
    let instructions ← addSplTransfer instructions split.recipient amount
      (feePayerKey.isNone || split.ataCreationRequired = some true)
    addMemoInstruction instructions split.memo) instructions

/-- The transfers of a charge in a token, or in SOL. -/
def buildPayment (mint : Option String) (request : ChallengeRequest) (primaryAmount : Int)
    (feePayerKey : Option String) : Thrown (List Instruction) :=
  match mint with
  | some mint => client.buildSplInstructions [] mint request primaryAmount feePayerKey
  | none => client.buildSolInstructions [] request primaryAmount

/-- The blockhash of the request, or the latest one. -/
def blockhashOf (recentBlockhash : Option String) : Thrown String :=
  match truthy recentBlockhash with
  | some blockhash => return blockhash
  | none => rethrow "" client.latestBlockhash

/-- The account that pays the fee. -/
def feePayerOf (feePayerKey : Option String) : Thrown Pubkey :=
  match feePayerKey with
  | some key => Ts.address key
  | none => return client.address

/-- `buildChargeTransaction` with the default compute budget, up to the bytes of the
transaction. -/
def buildChargeTransaction (request : ChallengeRequest) (recentBlockhash : Option String) :
    Thrown VersionedTransaction := do
  let details := request.methodDetails
  let mint := truthy (resolveStablecoinMint request.currency details.network)
  let serverPaysFees := details.feePayer = some true
  throwIf (serverPaysFees ∧ truthy details.feePayerKey = none)
    "feePayer=true requires feePayerKey in methodDetails"
  let feePayerKey := if serverPaysFees then details.feePayerKey else none
  let splitsTotal ← Ts.splitsTotal request.splits
  let primaryAmount := (← bigInt request.amount) - splitsTotal
  throwIf (primaryAmount ≤ 0)
    "Splits consume the entire amount; primary recipient must receive a positive amount"
  throwIf (mint = none ∧ ∃ split ∈ request.splits, split.RequiresAta)
    "ataCreationRequired requires an SPL token charge"
  throwIf ((∃ split ∈ request.splits, split.RequiresAta) ∧ some request.currency ≠ mint)
    "ataCreationRequired requires currency to be an SPL token mint address"
  let instructions ← client.buildPayment mint request primaryAmount feePayerKey
  let blockhash ← client.blockhashOf recentBlockhash
  let payer ← client.feePayerOf feePayerKey
  let price ← rethrow "" (client.getSetComputeUnitPriceInstruction 1)
  let limit ← rethrow "" (client.getSetComputeUnitLimitInstruction 200000)
  let blockhash ← Ts.address blockhash
  let message := client.compile (price :: limit :: instructions) payer blockhash
  let signatures ← rethrow "" (client.sign message)
  return { signatures, message }

end ChargeClient

/-! ## The request on both sides -/

/-- A split as the client reads it. -/
def Split.ofRust (split : MppSdk.Split) : Split where
  amount := split.amount
  ataCreationRequired := split.ataCreationRequired
  memo := split.memo
  recipient := split.recipient

/-- A request as the client reads it. -/
def ChallengeRequest.ofRust (request : ChargeRequest) (details : MppSdk.MethodDetails)
    (recipient : String) : ChallengeRequest where
  amount := request.amount
  currency := request.currency
  externalId := request.externalId
  recipient
  methodDetails := {
    decimals := details.decimals.map UInt8.toNat
    feePayer := details.feePayer
    feePayerKey := details.feePayerKey
    network := details.network
    splits := details.splits.map (List.map Split.ofRust)
    tokenProgram := details.tokenProgram }

/-- A plain decimal amount of 64 bits. -/
def IsPlainAmount (amount : String) : Prop :=
  IsDigits amount ∧ Nat.ofDigitChars 10 amount.toList 0 < 2 ^ 64

instance (amount : String) : Decidable (IsPlainAmount amount) :=
  inferInstanceAs (Decidable (_ ∧ _))

/-- The currency is native SOL, or the address of a mint. -/
def IsSolOrMint (currency : String) : Prop :=
  toUppercase currency = "SOL" ∨ ∃ mint : Pubkey, currency = mint.toBase58

section Read

/-- Both sides read the same amount. -/
theorem exists_amount {amount : String} (h : IsPlainAmount amount) :
    ∃ n : UInt64, MppSdk.parseU64 amount = some n ∧ bigInt amount = .ok (n.toNat : Int) := by
  obtain ⟨hdigits, hlt⟩ := h
  have hvalue : digitsValue amount.toList = some (Nat.ofDigitChars 10 amount.toList 0) :=
    foldlM_digits hdigits.2 0
  have hn : (UInt64.ofNat (Nat.ofDigitChars 10 amount.toList 0)).toNat =
      Nat.ofDigitChars 10 amount.toList 0 := UInt64.toNat_ofNat_of_lt' hlt
  refine ⟨.ofNat (Nat.ofDigitChars 10 amount.toList 0), ?_, ?_⟩
  · unfold MppSdk.parseU64
    -- no digit is the optional sign
    split
    · rename_i ds hds
      exact absurd (hdigits.2 '+' (hds ▸ List.mem_cons_self)) (by decide)
    · simp only [hvalue, List.isEmpty_iff, if_neg hdigits.1, if_pos hlt]
  · rw [bigInt, parseBigInt_of_digits hdigits, hn]
    rfl

/-- Both sides read the same sum. -/
theorem splitsTotal_eq {splits : List MppSdk.Split}
    (h : ∀ split ∈ splits, IsPlainAmount split.amount) :
    splitsTotal (splits.map Split.ofRust) = .ok (splitsSum splits : Int) := by
  have hfold : ∀ (start : Nat), (splits.map Split.ofRust).foldlM
      (fun sum split => do return sum + (← bigInt split.amount)) (start : Int) =
        (.ok ((start + splitsSum splits : Nat) : Int) : Thrown Int) := by
    induction splits with
    | nil => exact fun start => rfl
    | cons split splits ih =>
      intro start
      obtain ⟨hsplit, hrest⟩ := List.forall_mem_cons.mp h
      obtain ⟨n, hn, hbig⟩ := exists_amount hsplit
      have hsum : splitsSum (split :: splits) = n.toNat + splitsSum splits := by
        simp only [splitsSum, List.filterMap_cons, hn, List.map_cons, List.sum_cons]
      rw [List.map_cons, List.foldlM_cons]
      have hround : (do return (start : Int) + (← bigInt (Split.ofRust split).amount) : Thrown Int) =
          .ok ((start + n.toNat : Nat) : Int) := by
        show (bigInt split.amount >>= fun a => _) = _
        rw [hbig]
        rfl
      rw [hround, ok_bind, ih hrest, hsum, Nat.add_assoc]
  have hstart := hfold 0
  rw [Nat.zero_add] at hstart
  exact hstart

theorem splits_ofRust (request : ChargeRequest) (details : MppSdk.MethodDetails)
    (recipient : String) : (ChallengeRequest.ofRust request details recipient).splits =
      details.splitList.map Split.ofRust := by
  rcases hsplits : details.splits with _ | splits <;>
    simp [ChallengeRequest.splits, ChallengeRequest.ofRust, MethodDetails.splitList, hsplits]

theorem requiresAta_ofRust {splits : List MppSdk.Split} :
    (∃ split ∈ splits.map Split.ofRust, split.RequiresAta) ↔ requiresAta splits := by
  constructor
  · rintro ⟨_, hmem, h⟩
    obtain ⟨split, hsplit, rfl⟩ := List.mem_map.mp hmem
    exact ⟨split, hsplit, h⟩
  · rintro ⟨split, hsplit, h⟩
    exact ⟨_, List.mem_map_of_mem hsplit, h⟩

theorem length_toUppercase (s : String) : s.toList.length ≤ (toUppercase s).toList.length := by
  have hchar : ∀ c, 1 ≤ (upperChar c).length := by
    intro c
    unfold upperChar
    split
    · exact Nat.le_refl 1
    · split <;> simp
  rw [toUppercase, String.toList_ofList]
  induction s.toList with
  | nil => exact Nat.le_refl 0
  | cons c cs ih =>
    rw [List.flatMap_cons, List.length_append, List.length_cons]
    have := hchar c
    omega

/-- No address is a symbol in disguise: it is too long. -/
theorem toUppercase_ne {name : String} (h : name.toList.length < 32) (mint : Pubkey) :
    toUppercase mint.toBase58 ≠ name := by
  rintro rfl
  have hlength := length_toUppercase mint.toBase58
  have hbytes := mint.le_length_toBase58
  omega

/-- Both sides take an address for the mint it is. -/
theorem resolve_mint (mint : Pubkey) (network : Option String) :
    resolveStablecoinMint mint.toBase58 network = some mint.toBase58 ∧
      MppSdk.resolveStablecoinMint mint.toBase58 network = some mint.toBase58 := by
  have hsol : toUppercase mint.toBase58 ≠ "SOL" := toUppercase_ne (by decide) mint
  have husdc : toUppercase mint.toBase58 ≠ "USDC" := toUppercase_ne (by decide) mint
  have husdt : toUppercase mint.toBase58 ≠ "USDT" := toUppercase_ne (by decide) mint
  have husdg : toUppercase mint.toBase58 ≠ "USDG" := toUppercase_ne (by decide) mint
  have hpyusd : toUppercase mint.toBase58 ≠ "PYUSD" := toUppercase_ne (by decide) mint
  have hcash : toUppercase mint.toBase58 ≠ "CASH" := toUppercase_ne (by decide) mint
  constructor
  · unfold resolveStablecoinMint
    split
    · exact absurd ‹_› hsol
    · exact absurd ‹_› husdc
    · exact absurd ‹_› husdt
    · exact absurd ‹_› husdg
    · exact absurd ‹_› hpyusd
    · exact absurd ‹_› hcash
    · rfl
  · unfold MppSdk.resolveStablecoinMint
    split
    · exact absurd ‹_› hsol
    · exact absurd ‹_› husdc
    · exact absurd ‹_› husdt
    · exact absurd ‹_› husdg
    · exact absurd ‹_› hpyusd
    · exact absurd ‹_› hcash
    · rfl

theorem truthy_toBase58 (key : Pubkey) : truthy (some key.toBase58) = some key.toBase58 := by
  have hlength := key.le_length_toBase58
  have hne : key.toBase58 ≠ "" := by
    intro h
    rw [h] at hlength
    exact absurd hlength (by decide)
  simp [truthy, nonEmpty, Option.filter, hne]

theorem rethrow_eq_ok {α : Type} {label : String} {x : Except String α} {a : α} :
    rethrow label x = .ok a ↔ x = .ok a := by
  cases x <;> simp [rethrow, error]

theorem address_eq_ok {s : String} {key : Pubkey} : address s = .ok key ↔ s = key.toBase58 := by
  rw [address, okOrElse_eq_ok, Bytes.fromBase58_eq_some]

end Read

/-! ## The lines the client builds -/

/-- The policy of the client: it opens the accounts of the splits that ask for it, and where
it pays the fee itself those of all splits; it writes the memos that are not empty. -/
def clientPolicy (selfPays : Bool) : ChargePolicy where
  opensRecipient := false
  opensSplit split := selfPays || split.ataCreationRequired = some true
  memoOf := nonEmpty

theorem clientPolicy_sound (selfPays : Bool) : (clientPolicy selfPays).Sound := by
  refine ⟨fun split hsplit => ?_, fun memo => ?_⟩
  · simp only [clientPolicy, hsplit, decide_true, Bool.or_true]
  · rcases memo with _ | text
    · rfl
    · by_cases hempty : text = "" <;> simp [clientPolicy, nonEmpty, Option.filter, hempty]

section Build
variable {client : ChargeClient} {before after : List Instruction} {memo : Option String}
  {request : ChargeRequest} {details : MppSdk.MethodDetails} {recipientText : String}
  {primary : UInt64} {selfPays : Bool} {feePayerKey : Option String} {payer : Pubkey}

theorem addMemo_eq_ok : addMemoInstruction before memo = .ok after ↔
    (∀ text ∈ nonEmpty memo, (utf8 text).length ≤ 566) ∧
      after = before ++ (nonEmpty memo).toList.map Instruction.memo := by
  unfold addMemoInstruction truthy
  rcases nonEmpty memo with _ | text
  · constructor
    · intro h
      obtain rfl : before = after := by cases h; rfl
      exact ⟨fun text h => (nomatch h), (List.append_nil before).symm⟩
    · rintro ⟨-, rfl⟩
      exact congrArg Except.ok (List.append_nil before).symm
  · simp only [throwIf, bind_eq_ok, rejectIf_eq_ok, Nat.not_lt]
    constructor
    · rintro ⟨-, hlength, h⟩
      obtain rfl : before ++ [.memo text] = after := by cases h; rfl
      refine ⟨?_, rfl⟩
      rintro _ ⟨⟩
      exact hlength
    · rintro ⟨hlength, rfl⟩
      exact ⟨(), hlength text rfl, rfl⟩

/-- A charge in SOL is built of lines. -/
theorem lines_of_sol (selfPays : Bool) (payer : Pubkey) (hdoc : client.Documented)
    (hamounts : ∀ split ∈ details.splitList, IsPlainAmount split.amount)
    (h : client.buildSolInstructions before (.ofRust request details recipientText)
      (primary.toNat : Int) = .ok after) :
    ∃ recipient : Pubkey, recipientText = recipient.toBase58 ∧
    ∃ due, details.splitList.mapM splitDue = some due ∧
      (∀ text ∈ nonEmpty request.externalId, (utf8 text).length ≤ 566) ∧
      (∀ split ∈ details.splitList, ∀ text ∈ nonEmpty split.memo, (utf8 text).length ≤ 566) ∧
      after = before ++ (chargeLines (clientPolicy selfPays) recipient primary request.externalId
        due details.splitList).flatMap fun line =>
          line.instructions client.findProgramAddress client.address payer none := by
  simp only [ChargeClient.buildSolInstructions, bind_eq_ok, rethrow_eq_ok, address_eq_ok,
    hdoc.transferSol, addMemo_eq_ok, splits_ofRust, List.foldlM_map] at h
  obtain ⟨recipient, hrecipient, transfer, htransfer, first, ⟨hexternal, rfl⟩, h⟩ := h
  obtain rfl := Except.ok.inj htransfer
  have hrounds := lines_of_foldlM client.findProgramAddress client.address payer none
    (fun payout split => ⟨payout.1, payout.2, (clientPolicy selfPays).opensSplit split, "split",
      nonEmpty split.memo⟩) (fun split => ∀ text ∈ nonEmpty split.memo, (utf8 text).length ≤ 566)
    (by
      intro split hsplit before after h
      obtain ⟨n, hn, hbig⟩ := exists_amount (hamounts split hsplit)
      simp only [Split.ofRust, hbig, bind_eq_ok, rethrow_eq_ok, address_eq_ok,
        addMemo_eq_ok] at h
      obtain ⟨amount, hamount, owner, howner, transfer, htransfer, hmemo, rfl⟩ := h
      obtain rfl := Except.ok.inj hamount
      obtain rfl := Except.ok.inj ((hdoc.transferSol _ _ n).symm.trans htransfer)
      refine ⟨(owner, n), splitDue_eq_some.mpr ⟨howner, hn⟩, hmemo, ?_⟩
      rw [List.append_assoc]
      rfl) h
  obtain ⟨due, hdue, hmemos, rfl⟩ := hrounds
  refine ⟨recipient, hrecipient, due, hdue, hexternal, hmemos, ?_⟩
  rw [chargeLines, List.flatMap_cons]
  simp only [PaymentLine.instructions, PaymentLine.opening, PaymentLine.transfer, clientPolicy,
    List.nil_append, List.append_assoc, List.cons_append]
  rfl

theorem addAtaCreation_eq (hdoc : client.Documented)
    (hpayer : client.feePayerOf feePayerKey = .ok payer) (mint program owner ata : Pubkey) :
    client.addAtaCreation feePayerKey mint program owner ata =
      .ok (.createIdempotent payer ata owner mint program) := by
  rcases feePayerKey with _ | key
  · obtain rfl := Except.ok.inj hpayer
    exact congrArg Except.ok (hdoc.createIdempotent _ _ _ _ _)
  · rw [ChargeClient.addAtaCreation, show Ts.address key = .ok payer from hpayer]
    rfl

/-- One transfer of a token, after the account is opened. -/
theorem addSplTransfer_eq_ok (hdoc : client.Documented)
    (hpayer : client.feePayerOf feePayerKey = .ok payer) {mint program : Pubkey}
    {decimals : UInt8} {dest : String} {amount : UInt64} {createAta : Bool}
    (h : client.addSplTransfer feePayerKey mint program decimals.toNat before dest
      (amount.toNat : Int) createAta = .ok after) :
    ∃ owner : Pubkey, dest = owner.toBase58 ∧ ∀ label, after = before ++
      (⟨owner, amount, createAta, label, none⟩ : PaymentLine).instructions
        client.findProgramAddress client.address payer (some ⟨mint, program, decimals⟩) := by
  simp only [ChargeClient.addSplTransfer, bind_eq_ok, rethrow_eq_ok, address_eq_ok] at h
  obtain ⟨owner, howner, creation, hcreation, transfer, htransfer, h⟩ := h
  obtain rfl := Except.ok.inj ((hdoc.transferChecked _ _ _ _ _ _ _).symm.trans htransfer)
  refine ⟨owner, howner, fun label => ?_⟩
  rw [← Except.ok.inj h, List.append_assoc]
  refine congrArg (before ++ ·) ?_
  unfold ChargeClient.ataCreation at hcreation
  cases createAta
  · obtain rfl : [] = creation := by cases hcreation; rfl
    rfl
  · rw [if_pos rfl, addAtaCreation_eq hdoc hpayer] at hcreation
    cases hcreation
    rfl

/-- A charge in a token is built of lines. -/
theorem lines_of_spl (hdoc : client.Documented)
    (hamounts : ∀ split ∈ details.splitList, IsPlainAmount split.amount)
    (hpayer : client.feePayerOf feePayerKey = .ok payer) {text : String}
    (h : client.buildSplInstructions before text (.ofRust request details recipientText)
      (primary.toNat : Int) feePayerKey = .ok after) :
    ∃ mint program : Pubkey, text = mint.toBase58 ∧
      client.tokenProgramOf mint details.tokenProgram = .ok program ∧
    ∃ recipient : Pubkey, recipientText = recipient.toBase58 ∧
    ∃ due, details.splitList.mapM splitDue = some due ∧
      (∀ text ∈ nonEmpty request.externalId, (utf8 text).length ≤ 566) ∧
      (∀ split ∈ details.splitList, ∀ text ∈ nonEmpty split.memo, (utf8 text).length ≤ 566) ∧
      after = before ++ (chargeLines (clientPolicy feePayerKey.isNone) recipient primary
        request.externalId due details.splitList).flatMap fun line =>
          line.instructions client.findProgramAddress client.address payer
            (some ⟨mint, program, details.decimals.getD 6⟩) := by
  have hdecimals : (details.decimals.map UInt8.toNat).getD 6 = (details.decimals.getD 6).toNat := by
    rcases details.decimals with _ | decimals <;> rfl
  simp only [ChargeClient.buildSplInstructions, bind_eq_ok, address_eq_ok, splits_ofRust,
    List.foldlM_map] at h
  obtain ⟨mint, hmint, program, hprogram, first, hfirst, noted, hnoted, h⟩ := h
  simp only [ChallengeRequest.ofRust, hdecimals] at hfirst hnoted h hprogram
  obtain ⟨recipient, hrecipient, hline⟩ := addSplTransfer_eq_ok hdoc hpayer hfirst
  obtain ⟨hexternal, rfl⟩ := addMemo_eq_ok.mp hnoted
  have hrounds := lines_of_foldlM client.findProgramAddress client.address payer
    (some ⟨mint, program, details.decimals.getD 6⟩)
    (fun payout split => ⟨payout.1, payout.2, (clientPolicy feePayerKey.isNone).opensSplit split,
      "split", nonEmpty split.memo⟩)
    (fun split => ∀ text ∈ nonEmpty split.memo, (utf8 text).length ≤ 566) (by
      intro split hsplit before after h
      obtain ⟨n, hn, hbig⟩ := exists_amount (hamounts split hsplit)
      simp only [Split.ofRust, hbig, bind_eq_ok] at h
      obtain ⟨amount, hamount, paid, hpaid, hmemo⟩ := h
      obtain rfl := Except.ok.inj hamount
      obtain ⟨owner, howner, hline⟩ := addSplTransfer_eq_ok hdoc hpayer hpaid
      obtain ⟨hshort, rfl⟩ := addMemo_eq_ok.mp hmemo
      refine ⟨(owner, n), splitDue_eq_some.mpr ⟨howner, hn⟩, hshort, ?_⟩
      rw [hline "split"]
      simp only [PaymentLine.instructions, PaymentLine.opening, PaymentLine.transfer,
        clientPolicy, Option.toList_none, List.map_nil, List.append_assoc, List.cons_append,
        List.nil_append]
      rfl) h
  obtain ⟨due, hdue, hmemos, rfl⟩ := hrounds
  refine ⟨mint, program, hmint, hprogram, recipient, hrecipient, due, hdue, hexternal, hmemos, ?_⟩
  rw [hline "externalId", chargeLines, List.flatMap_cons]
  simp only [PaymentLine.instructions, PaymentLine.opening, PaymentLine.transfer, clientPolicy,
    Option.toList_none, List.map_nil, List.append_assoc, List.cons_append, List.nil_append]
  rfl

/-- A program that is asked for is one of the two token programs, or the charge is in SOL. -/
def SupportsProgram (request : ChargeRequest) (details : MppSdk.MethodDetails) : Prop :=
  toUppercase request.currency = "SOL" ∨ ∀ program ∈ details.tokenProgram,
    program = programs.TOKEN_PROGRAM ∨ program = programs.TOKEN_2022_PROGRAM

/-- The server accepts no charge in a token under another program. -/
theorem supportsProgram_of_accepted {find : FindProgramAddress} {tx : VersionedTransaction}
    (h : verifyPreBroadcast find tx request details = .ok ()) :
    SupportsProgram request details := by
  obtain ⟨-, primary, -, q, hq, -⟩ := verifyPreBroadcast_eq_ok.mp h
  obtain ⟨-, -, -, -, -, -, token, htoken, -⟩ := quoteOf_eq_some.mp hq
  by_cases hsol : request.IsNativeSol
  · exact Or.inl hsol
  · refine Or.inr fun text htext => ?_
    rw [quotedToken, if_neg hsol] at htoken
    simp only [Option.bind_eq_bind, Option.bind_eq_some_iff] at htoken
    obtain ⟨mint, -, program, hprogram, -⟩ := htoken
    unfold quotedProgram at hprogram
    rw [Option.mem_def.mp htext] at hprogram
    by_contra hnot
    simp only [if_neg hnot] at hprogram
    cases hprogram

/-- The token program of the client is what the server takes. -/
theorem tokenProgramOf_eq_ok {mint program : Pubkey}
    (hsupported : ∀ program ∈ details.tokenProgram,
      program = programs.TOKEN_PROGRAM ∨ program = programs.TOKEN_2022_PROGRAM)
    (h : client.tokenProgramOf mint details.tokenProgram = .ok program) :
    (program = programs.tokenKey ∨ program = programs.token2022Key) ∧
      ∃ expected, quotedProgram details = some expected ∧ ∀ key ∈ expected, program = key := by
  have hkeys : program.toBase58 = programs.TOKEN_PROGRAM ∨
      program.toBase58 = programs.TOKEN_2022_PROGRAM →
      program = programs.tokenKey ∨ program = programs.token2022Key :=
    Or.imp pubkeyOf_eq_iff.mp pubkeyOf_eq_iff.mp
  unfold ChargeClient.tokenProgramOf at h
  unfold quotedProgram
  rcases hasked : details.tokenProgram with _ | text
  · rw [hasked] at h
    simp only [truthy, nonEmpty, Option.filter_none, ChargeClient.resolveTokenProgram, throwIf,
      bind_eq_ok, rejectIf_eq_ok, okOrElse_eq_ok, address_eq_ok] at h
    obtain ⟨-, -, owner, -, -, hown, rfl⟩ := h
    refine ⟨hkeys ?_, none, rfl, fun key hkey => nomatch hkey⟩
    by_cases htoken : program.toBase58 = programs.TOKEN_PROGRAM
    · exact Or.inl htoken
    · exact Or.inr (not_not.mp fun hne => hown ⟨htoken, hne⟩)
  · have htext := hsupported text hasked
    have htruthy : truthy (some text) = some text := by
      rcases htext with rfl | rfl <;> rfl
    rw [hasked, htruthy] at h
    obtain rfl := address_eq_ok.mp h
    refine ⟨hkeys htext, some program, ?_, ?_⟩
    · show (if _ then _ else _) = _
      rw [if_pos htext, Bytes.fromBase58_toBase58]
      rfl
    · rintro _ ⟨⟩
      rfl

/-- The fee payer of both sides. -/
theorem feePayer_of_ok (hkey : details.feePayer = some true →
      ∀ key ∈ details.feePayerKey, key ≠ client.address.toBase58)
    (hthere : ¬ (details.feePayer = some true ∧ truthy details.feePayerKey = none))
    (h : client.feePayerOf (if details.feePayer = some true then details.feePayerKey else none) =
      .ok payer) :
    ∃ feePayer, quotedFeePayer details = some feePayer ∧ feePayer.getD client.address = payer ∧
      (∀ key ∈ feePayer, key ≠ client.address) ∧
      ((if details.feePayer = some true then details.feePayerKey else none).isNone = true →
        feePayer = none) := by
  by_cases hasked : details.feePayer = some true
  · rw [if_pos hasked] at h ⊢
    rcases htext : details.feePayerKey with _ | text
    · exact absurd ⟨hasked, by rw [htext]; rfl⟩ hthere
    rw [htext] at h
    obtain rfl := address_eq_ok.mp h
    refine ⟨some payer, ?_, rfl, ?_, fun hnone => nomatch hnone⟩
    · rw [quotedFeePayer, hasked, htext, if_neg (by simp), Option.bind_some,
        Bytes.fromBase58_toBase58]
      rfl
    · rintro _ ⟨⟩
      rintro rfl
      exact hkey hasked _ htext rfl
  · rw [if_neg hasked] at h ⊢
    have hfalse : details.feePayer.getD false = false := by
      rcases hvalue : details.feePayer with _ | _ | _
      · rfl
      · rfl
      · exact absurd hvalue hasked
    exact ⟨none, if_pos hfalse, Except.ok.inj h, fun key hkey => (nomatch hkey), fun _ => rfl⟩

/-- What is left for the recipient is the same on both sides. -/
theorem exists_primary {total : UInt64} (htotal : MppSdk.parseU64 request.amount = some total)
    (hpositive : ¬ (total.toNat : Int) - (splitsSum details.splitList : Int) ≤ 0) :
    ∃ primary : UInt64, primaryAmount request details.splitList = .ok primary ∧
      (primary.toNat : Int) = (total.toNat : Int) - (splitsSum details.splitList : Int) := by
  have hlt : total.toNat < 2 ^ 64 := total.toNat_lt
  have hle : splitsSum details.splitList < total.toNat := by omega
  have hprimary : (UInt64.ofNat (total.toNat - splitsSum details.splitList)).toNat =
      total.toNat - splitsSum details.splitList :=
    UInt64.toNat_ofNat_of_lt' (show total.toNat - splitsSum details.splitList < 2 ^ 64 by omega)
  refine ⟨.ofNat (total.toNat - splitsSum details.splitList), ?_, by omega⟩
  refine primaryAmount_eq_ok.mpr ⟨total, htotal, ?_, ?_⟩
  · rw [UInt64.lt_iff_toNat_lt, hprimary]
    exact Nat.sub_pos_of_lt hle
  · rw [hprimary, Nat.mod_eq_of_lt (by omega)]
    omega

/-! ## Agreement -/

/-- **What the client builds, the server accepts**, unless the charge is in a token and names a
program that is none of the two token programs. -/
theorem charge_accepted_iff (client : ChargeClient) (hdoc : client.Documented)
    (request : ChargeRequest) (details : MppSdk.MethodDetails) (recipient : String)
    (tx : VersionedTransaction) (hrecipient : request.recipient = some recipient)
    (hfew : details.splitList.length ≤ 8) (hamount : IsPlainAmount request.amount)
    (hamounts : ∀ split ∈ details.splitList, IsPlainAmount split.amount)
    (hcurrency : IsSolOrMint request.currency)
    (hkey : details.feePayer = some true →
      ∀ key ∈ details.feePayerKey, key ≠ client.address.toBase58)
    (hdistinct : DistinctAccounts client.findProgramAddress
      (chargeParties client.address request details))
    (hbuilt : client.buildChargeTransaction (.ofRust request details recipient)
      details.recentBlockhash = .ok tx) :
    verifyPreBroadcast client.findProgramAddress tx request details = .ok () ↔
      SupportsProgram request details := by
  refine ⟨supportsProgram_of_accepted, fun hsupports => ?_⟩
  obtain ⟨total, htotal, hbig⟩ := exists_amount hamount
  simp only [ChargeClient.buildChargeTransaction, throwIf, bind_eq_ok, rejectIf_eq_ok,
    rethrow_eq_ok, address_eq_ok, splits_ofRust, splitsTotal_eq hamounts, requiresAta_ofRust]
    at hbuilt
  obtain ⟨-, hthere, _, hsum, _, hread, -, hpositive, -, -, -, hata, instructions, hpayment,
    blockhash, -, payer, hpayer, price, hprice, limit, hlimit, hash, -, signatures, -, hbuilt⟩ :=
      hbuilt
  obtain rfl := Except.ok.inj hsum
  obtain rfl := Except.ok.inj (hbig.symm.trans hread)
  change ¬ (details.feePayer = some true ∧ truthy details.feePayerKey = none) at hthere
  change client.feePayerOf (if details.feePayer = some true then details.feePayerKey else none) =
    .ok payer at hpayer
  change ¬ (requiresAta details.splitList ∧ some request.currency ≠
    truthy (resolveStablecoinMint request.currency details.network)) at hata
  change client.buildPayment (truthy (resolveStablecoinMint request.currency details.network))
    (.ofRust request details recipient) _
    (if details.feePayer = some true then details.feePayerKey else none) = .ok instructions
      at hpayment
  have hmessage : tx.message = client.compile (price :: limit :: instructions) payer hash := by
    rw [← Except.ok.inj hbuilt]
  obtain rfl := Except.ok.inj ((hdoc.computeUnitPrice 1).symm.trans hprice)
  obtain rfl := Except.ok.inj ((hdoc.computeUnitLimit 200000).symm.trans hlimit)
  obtain ⟨primary, hprimary, hpaid⟩ := exists_primary htotal hpositive
  rw [← hpaid] at hpayment
  obtain ⟨feePayer, hquoted, hpays, hne, hself⟩ := feePayer_of_ok hkey hthere hpayer
  generalize (if details.feePayer = some true then details.feePayerKey else none) = feePayerKey
    at hpayer hpayment hself
  have hsplit : ∀ split, (clientPolicy feePayerKey.isNone).opensSplit split = true →
      feePayer = none ∨ split.ataCreationRequired = some true := by
    intro split h
    rcases Bool.or_eq_true_iff.mp h with h | h
    · exact Or.inl (hself h)
    · exact Or.inr (of_decide_eq_true h)
  have hmemo : ∀ memo, nonEmpty memo ≠ some "" := by
    intro memo h
    exact of_decide_eq_true (Option.filter_eq_some_iff.mp h).2 rfl
  rcases hcurrency with hsol | ⟨mint, hmint⟩
  · have hresolve : resolveStablecoinMint request.currency details.network = none := by
      rw [resolveStablecoinMint, hsol]
      rfl
    rw [hresolve] at hpayment hata
    obtain ⟨key, rfl, due, hdue, hexternal, hmemos, rfl⟩ :=
      lines_of_sol feePayerKey.isNone payer hdoc hamounts hpayment
    refine (ChargeBuild.accepted_iff_memos {
      policy := clientPolicy feePayerKey.isNone
      recipient := key
      primary
      due
      feePayer
      quoted := none
      token := none
      microLamports := 1
      units := 200000
      recipient_eq := hrecipient
      primary_eq := hprimary
      due_eq := hdue
      feePayer_eq := hquoted
      feePayer_ne := hne
      quoted_eq := if_pos hsol
      lamports := fun _ => rfl
      tokens := fun mint hmint => nomatch hmint
      opens := fun h => absurd ⟨h, fun heq => nomatch heq⟩ hata
      fewSplits := hfew
      memos := length_of_expectedMemos hexternal hmemos
      sound := clientPolicy_sound _
      price := by decide
      limit := by decide
      compiled := ?_ } hdistinct rfl hsplit).mpr ⟨hmemo _, fun split _ => hmemo _⟩
    rw [hpays, hmessage]
    exact hdoc.compile _ _ _ (length_accountKeysOf (length_chargeLines
      (mapM_splitDue.mp hdue).length_eq hfew))
  · obtain ⟨hclient, hserver⟩ := resolve_mint mint details.network
    rw [← hmint] at hclient hserver
    have htruthy : truthy (some request.currency) = some request.currency := by
      rw [hmint]
      exact truthy_toBase58 mint
    rw [hclient, htruthy] at hpayment hata
    obtain ⟨mint', program, hmint', hprogram, key, rfl, due, hdue, hexternal, hmemos, rfl⟩ :=
      lines_of_spl hdoc hamounts hpayer hpayment
    obtain rfl : mint = mint' := Option.some.inj
      ((Bytes.fromBase58_eq_some.mpr hmint).symm.trans (Bytes.fromBase58_eq_some.mpr hmint'))
    have hnotSol : toUppercase request.currency ≠ "SOL" := by
      rw [hmint]
      exact toUppercase_ne (by decide) mint
    obtain ⟨hsupported, expected, hexpected, hsame⟩ :=
      tokenProgramOf_eq_ok (hsupports.resolve_left hnotSol) hprogram
    refine (ChargeBuild.accepted_iff_memos {
      policy := clientPolicy feePayerKey.isNone
      recipient := key
      primary
      due
      feePayer
      quoted := some ⟨mint, expected, details.decimals⟩
      token := some ⟨mint, program, details.decimals.getD 6⟩
      microLamports := 1
      units := 200000
      recipient_eq := hrecipient
      primary_eq := hprimary
      due_eq := hdue
      feePayer_eq := hquoted
      feePayer_ne := hne
      quoted_eq := quotedToken_of_mint (hserver.trans (congrArg some hmint)) hexpected
      lamports := fun h => nomatch h
      tokens := by
        rintro _ ⟨⟩
        refine ⟨_, rfl, rfl, hsupported, hsame, fun decimals hdecimals => ?_⟩
        have hsome : details.decimals = some decimals := hdecimals
        rw [hsome]
        rfl
      opens := fun _ => ⟨_, rfl, hmint⟩
      fewSplits := hfew
      memos := length_of_expectedMemos hexternal hmemos
      sound := clientPolicy_sound _
      price := by decide
      limit := by decide
      compiled := ?_ } hdistinct rfl hsplit).mpr ⟨hmemo _, fun split _ => hmemo _⟩
    rw [hpays, hmessage]
    exact hdoc.compile _ _ _ (length_accountKeysOf (length_chargeLines
      (mapM_splitDue.mp hdue).length_eq hfew))

end Build

namespace ChargeSample
open MppSdk.Sample

/-- A client with the key 3. -/
def client : ChargeClient where
  address := key 3
  sign _ := .ok [.replicate 64 0, .replicate 64 1]
  accountOwner _ := .ok none
  latestBlockhash := .ok (key 9).toBase58
  compile := compileMessage bytesBefore fun header body => .v0 header body []
  findProgramAddress := find
  getTransferSolInstruction source destination amount :=
    if 0 ≤ amount ∧ amount < 2 ^ 64 then
      .ok (.solTransfer source destination (.ofNat amount.toNat))
    else .error "out of range"
  getTransferCheckedInstruction program source mint destination authority amount decimals :=
    if 0 ≤ amount ∧ amount < 2 ^ 64 ∧ decimals < 256 then
      .ok (.transferChecked program source mint destination authority (.ofNat amount.toNat)
        (.ofNat decimals))
    else .error "out of range"
  getCreateAssociatedTokenIdempotentInstruction := .createIdempotent
  getSetComputeUnitPriceInstruction microLamports :=
    if microLamports < 2 ^ 64 then .ok (.setComputeUnitPrice (.ofNat microLamports))
    else .error "out of range"
  getSetComputeUnitLimitInstruction units :=
    if units < 2 ^ 32 then .ok (.setComputeUnitLimit (.ofNat units)) else .error "out of range"

theorem client_documented : client.Documented where
  compile := compileMessage_v0
  transferSol source destination amount := by
    have hlt : amount.toNat < 2 ^ 64 := amount.toNat_lt
    have hrange : 0 ≤ (amount.toNat : Int) ∧ (amount.toNat : Int) < 2 ^ 64 := by omega
    simp only [client, if_pos hrange, Int.toNat_natCast, UInt64.ofNat_toNat]
  transferChecked program source mint destination authority amount decimals := by
    have hlt : amount.toNat < 2 ^ 64 := amount.toNat_lt
    have hrange : 0 ≤ (amount.toNat : Int) ∧ (amount.toNat : Int) < 2 ^ 64 ∧
        decimals.toNat < 256 := ⟨by omega, by omega, decimals.toNat_lt⟩
    simp only [client, if_pos hrange, Int.toNat_natCast, UInt64.ofNat_toNat, UInt8.ofNat_toNat]
  createIdempotent _ _ _ _ _ := rfl
  computeUnitPrice microLamports := by
    simp only [client, if_pos microLamports.toNat_lt, UInt64.ofNat_toNat]
  computeUnitLimit units := by
    simp only [client, if_pos units.toNat_lt, UInt32.ofNat_toNat]

/-- What the client builds for the sample charge under some token program. -/
def built (tokenProgram : Option String) : Thrown VersionedTransaction :=
  client.buildChargeTransaction (.ofRust request { details with tokenProgram } (key 2).toBase58) none

theorem distinctParties (tokenProgram : Option String) :
    DistinctAccounts find (chargeParties (key 3) request { details with tokenProgram }) := by
  have hparties : DistinctAccounts find (chargeParties (key 3) request details) :=
    MppSdk.Sample.distinctParties rfl
  exact hparties

/-- Both sides agree on the sample charge. -/
theorem sampleCharge_accepted : ∃ tx, built (some programs.TOKEN_PROGRAM) = .ok tx ∧
    verifyPreBroadcast find tx request details = .ok () := by
  have hbuilt : (built (some programs.TOKEN_PROGRAM)).toOption.isSome := by decide +kernel
  obtain ⟨tx, htx⟩ := Option.isSome_iff_exists.mp hbuilt
  have htx : built (some programs.TOKEN_PROGRAM) = .ok tx := toOption_eq_some.mp htx
  refine ⟨tx, htx, (charge_accepted_iff client client_documented request details (key 2).toBase58 tx
    rfl (by decide) (by decide +kernel) (by decide +kernel)
    (Or.inr ⟨usdc, (pubkeyOf_eq_iff.mpr rfl).symm⟩) ?_ (distinctParties _) htx).mpr ?_⟩
  · rintro - _ ⟨⟩
    decide +kernel
  · refine Or.inr ?_
    rintro _ ⟨⟩
    exact Or.inl rfl

/-- The client builds a charge under the System Program, which the server refuses. -/
theorem systemProgram_rejected : client.Documented ∧
    (∀ key ∈ details.feePayerKey, key ≠ client.address.toBase58) ∧
    DistinctAccounts find (chargeParties client.address request
      { details with tokenProgram := some programs.SYSTEM_PROGRAM }) ∧
    ∃ tx, built (some programs.SYSTEM_PROGRAM) = .ok tx ∧
      verifyPreBroadcast find tx request
        { details with tokenProgram := some programs.SYSTEM_PROGRAM } ≠ .ok () := by
  have hbuilt : (built (some programs.SYSTEM_PROGRAM)).toOption.isSome := by decide +kernel
  obtain ⟨tx, htx⟩ := Option.isSome_iff_exists.mp hbuilt
  refine ⟨client_documented, ?_, distinctParties _, tx, toOption_eq_some.mp htx, fun h => ?_⟩
  · rintro _ ⟨⟩
    decide +kernel
  · rcases supportsProgram_of_accepted h with hsol | hprogram
    · exact absurd hsol (by decide +kernel)
    · exact absurd (hprogram _ rfl) (by decide)

end ChargeSample
end Ts
end MppSdk
