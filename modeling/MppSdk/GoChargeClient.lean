import MppSdk.ChargeLines
import MppSdk.GoCurrencies
import MppSdk.GoFeePayer
import MppSdk.ParseUnits

/-! # The Go charge client

`client/charge.go` and what it uses of `internal/solanautil`: the client builds and signs the
transaction that pays a charge.  In a token it opens the account of the recipient and of every
split, whoever pays for it; the Rust server accepts the transaction only if it may
(`goCharge_accepted_iff`). -/

namespace MppSdk
namespace Go
open Sponsorship Matching

/-- The signer and the node of a client, and what it takes from `solana-go`; an error is its
text. -/
structure ChargeClient where
  publicKey : Pubkey
  /-- What it has in common with the server. -/
  libraries : Libraries
  /-- `SignTransaction`. -/
  signTransaction : VersionedMessage → Except String (List Signature)
  /-- The owner of an account at the node, if there is one. -/
  accountOwner : Pubkey → Except String (Option Pubkey)
  latestBlockhash : Except String Hash
  /-- The message of `NewTransaction`. -/
  newMessage : CompileMessage
  findProgramAddress : FindProgramAddress
  /-- `system.NewTransferInstruction`. -/
  transfer : (lamports : UInt64) → (source destination : Pubkey) → Except String Instruction
  /-- `NewTransferCheckedInstruction` of `token` and of `token2022`. -/
  tokenTransferChecked : (amount : UInt64) → (decimals : UInt8) →
    (source mint destination owner : Pubkey) → Except String Instruction
  token2022TransferChecked : (amount : UInt64) → (decimals : UInt8) →
    (source mint destination owner : Pubkey) → Except String Instruction
  /-- `computebudget.NewSetComputeUnitPriceInstruction` and the one of the limit. -/
  computeUnitPrice : UInt64 → Except String Instruction
  computeUnitLimit : UInt32 → Except String Instruction

/-- What is documented of `solana-go`: its instructions are those of the programs. -/
structure ChargeClient.Documented (client : ChargeClient) : Prop where
  newMessage : client.newMessage.Documented
  transfer : ∀ lamports source destination,
    client.transfer lamports source destination = .ok (.solTransfer source destination lamports)
  tokenTransferChecked : ∀ amount decimals source mint destination owner,
    client.tokenTransferChecked amount decimals source mint destination owner =
      .ok (.transferChecked programs.tokenKey source mint destination owner amount decimals)
  token2022TransferChecked : ∀ amount decimals source mint destination owner,
    client.token2022TransferChecked amount decimals source mint destination owner =
      .ok (.transferChecked programs.token2022Key source mint destination owner amount decimals)
  computeUnitPrice : ∀ microLamports,
    client.computeUnitPrice microLamports = .ok (.setComputeUnitPrice microLamports)
  computeUnitLimit : ∀ units, client.computeUnitLimit units = .ok (.setComputeUnitLimit units)

/-- `BuildOptions` of a client that does not broadcast. -/
structure BuildOptions where
  computeUnitLimit : UInt32 := 0
  computeUnitPrice : UInt64 := 0
  externalID : String := ""

/-- The client's `parseAmount`. -/
def parseTrimmed (value : String) : Result UInt64 :=
  parseAmount (String.ofList (trimSpace value))

/-- `BuildMemoInstruction`, for a memo that is not empty. -/
def appendMemo (instructions : List Instruction) (memo : String) : Result (List Instruction) :=
  if memo = "" then return instructions
  else do
    rejectIf ((utf8 memo).length > 566) { message := "memo cannot exceed 566 bytes" }
    return instructions ++ [.memo memo]

/-- `BuildCreateAssociatedTokenAccount`. -/
def buildCreateAssociatedTokenAccount (find : FindProgramAddress)
    (payer wallet mint tokenProgram : Pubkey) : Instruction :=
  .createIdempotent payer (associatedTokenAddress find wallet tokenProgram mint) wallet mint
    tokenProgram

namespace ChargeClient
variable (client : ChargeClient)

/-- `BuildTransferChecked`. -/
def buildTransferChecked (amount : UInt64) (decimals : UInt8)
    (source mint destination owner tokenProgram : Pubkey) : Result Instruction :=
  if tokenProgram = programs.tokenKey then
    orReturn (client.tokenTransferChecked amount decimals source mint destination owner)
  else if tokenProgram = programs.token2022Key then
    orReturn (client.token2022TransferChecked amount decimals source mint destination owner)
  else .error (.error { message := s!"unsupported token program {tokenProgram.toBase58}" })

/-- `ResolveTokenProgram`. -/
def resolveTokenProgram (mint : Pubkey) (tokenProgramHint : String) : Result Pubkey :=
  if tokenProgramHint ≠ "" then Go.publicKey tokenProgramHint
  else do
    let owner ← orReturn (client.accountOwner mint)
    let owner ← okOrElse owner { message := "mint account not found" }
    rejectIf (owner ≠ programs.tokenKey ∧ owner ≠ programs.token2022Key)
      { message := s!"unsupported mint owner {owner.toBase58}" }
    return owner

/-- The transfers of a charge in SOL. -/
def buildSol (instructions : List Instruction) (recipient : Pubkey) (primaryAmount : UInt64)
    (externalID : String) (splits : List Split) : Result (List Instruction) := do
  let ix ← orReturn (client.transfer primaryAmount client.publicKey recipient)
  let instructions ← appendMemo (instructions ++ [ix]) externalID
  splits.foldlM (fun instructions split => do
    let splitKey ← Go.publicKey split.recipient
    let splitAmount ← parseTrimmed split.amount
    let ix ← orReturn (client.transfer splitAmount client.publicKey splitKey)
    appendMemo (instructions ++ [ix]) split.memo) instructions

/-- `addTransfer`. -/
def addTransfer (payer mint tokenProgram : Pubkey) (decimals : UInt8)
    (instructions : List Instruction) (owner : Pubkey) (amount : UInt64) :
    Result (List Instruction) := do
  let find := client.findProgramAddress
  let destATA := associatedTokenAddress find owner tokenProgram mint
  let sourceATA := associatedTokenAddress find client.publicKey tokenProgram mint
  let createATA := buildCreateAssociatedTokenAccount find payer owner mint tokenProgram
  let transfer ← client.buildTransferChecked amount decimals sourceATA mint destATA
    client.publicKey tokenProgram
  return instructions ++ [createATA, transfer]

/-- The account that pays the fee: the server's, if it is asked for. -/
def payerOf (details : MethodDetails) : Result Pubkey :=
  if details.feePayer = some true ∧ details.feePayerKey ≠ "" then
    Go.publicKey details.feePayerKey
  else return client.publicKey

/-- The transfers of a charge in a token. -/
def buildToken (instructions : List Instruction) (currency : String) (recipient : Pubkey)
    (details : MethodDetails) (primaryAmount : UInt64) (externalID : String) :
    Result (List Instruction) := do
  let mint ← Go.publicKey (resolveMint currency details.network)
  let tokenProgram ← client.resolveTokenProgram mint details.tokenProgram
  let decimals := details.decimals.getD 6
  let payer ← client.payerOf details
  let addTransfer := client.addTransfer payer mint tokenProgram decimals
  let instructions ← addTransfer instructions recipient primaryAmount
  let instructions ← appendMemo instructions externalID
  details.splits.foldlM (fun instructions split => do
    let splitKey ← Go.publicKey split.recipient
    let splitAmount ← parseTrimmed split.amount
    let instructions ← addTransfer instructions splitKey splitAmount
    appendMemo instructions split.memo) instructions

/-- The transfers of a charge. -/
def buildPayment (instructions : List Instruction) (currency : String) (recipient : Pubkey)
    (details : MethodDetails) (primaryAmount : UInt64) (externalID : String) :
    Result (List Instruction) :=
  if isNativeSOL currency then
    client.buildSol instructions recipient primaryAmount externalID details.splits
  else client.buildToken instructions currency recipient details primaryAmount externalID

/-- `ResolveRecentBlockhash`. -/
def resolveRecentBlockhash (provided : String) : Result Hash :=
  if provided ≠ "" then
    okOrElse (Bytes.fromBase58 32 provided) { message := s!"decode: {provided}" }
  else orReturn client.latestBlockhash

/-- `BuildChargeTransaction` without a broadcast, up to the bytes of the transaction. -/
def buildChargeTransaction (amount currency recipient : String) (details : MethodDetails)
    (options : BuildOptions) : Result VersionedTransaction := do
  let total ← parseTrimmed amount
  let primaryAmount ← splitAmounts client.libraries total details.splits
  let units := if options.computeUnitLimit = 0 then 200000 else options.computeUnitLimit
  let price := if options.computeUnitPrice = 0 then 1 else options.computeUnitPrice
  -- an error of these two is dropped together with the instruction
  let budget := (client.computeUnitPrice price).toOption.toList ++
    (client.computeUnitLimit units).toOption.toList
  let recipientKey ← Go.publicKey recipient
  let instructions ← client.buildPayment budget currency recipientKey details primaryAmount
    options.externalID
  let blockhash ← client.resolveRecentBlockhash details.recentBlockhash
  let payer ← client.payerOf details
  let message := client.newMessage instructions payer blockhash
  let signatures ← orReturn (client.signTransaction message)
  return { signatures, message }

end ChargeClient

/-! ## The request on both sides -/

/-- A split as the client reads it: no text is the empty text. -/
def Split.ofRust (split : MppSdk.Split) : Split where
  recipient := split.recipient
  amount := split.amount
  label := split.label.getD ""
  memo := split.memo.getD ""

/-- The method details as the client reads them. -/
def MethodDetails.ofRust (details : MppSdk.MethodDetails) : MethodDetails where
  network := details.network.getD ""
  decimals := details.decimals
  tokenProgram := details.tokenProgram.getD ""
  feePayer := details.feePayer
  feePayerKey := details.feePayerKey.getD ""
  splits := details.splitList.map Split.ofRust
  recentBlockhash := details.recentBlockhash.getD ""

/-- What the client builds for a request. -/
def ChargeClient.buildFor (client : ChargeClient) (request : MppSdk.ChargeRequest)
    (details : MppSdk.MethodDetails) (options : BuildOptions) : Result VersionedTransaction :=
  client.buildChargeTransaction request.amount request.currency (request.recipient.getD "")
    (.ofRust details) { options with externalID := request.externalId.getD "" }

/-- A request that can be paid. -/
def Payable (request : MppSdk.ChargeRequest) (details : MppSdk.MethodDetails) : Prop :=
  ∃ primary, primaryAmount request details.splitList = .ok primary ∧
    (quoteOf request details primary).isSome

/-- The account of a recipient may be opened: a split of its own asks for it, or it has a split
and nobody else pays the fee. -/
def MayOpen (details : MppSdk.MethodDetails) (recipient : String) : Prop :=
  ∃ split ∈ details.splitList, split.recipient = recipient ∧
    (details.feePayer.getD false = true → split.ataCreationRequired = some true)

/-! ## Amounts -/

section Amounts

/-- The server reads digits, after a sign or none. -/
theorem digits_of_parseU64 {amount : String} {n : UInt64} (h : parseU64 amount = some n) :
    ∃ ds : List Char, ds ≠ [] ∧ (∀ c ∈ ds, c.isDigit) ∧ digitsValue ds = some n.toNat ∧
      (amount.toList = ds ∨ amount.toList = '+' :: ds) := by
  unfold parseU64 at h
  -- after the sign or without one, what is read is not empty and fits
  have hread : ∀ ds : List Char, ¬ ds.isEmpty = true → ∀ value, digitsValue ds = some value →
      value < 2 ^ 64 → UInt64.ofNat value = n →
        ds ≠ [] ∧ (∀ c ∈ ds, c.isDigit) ∧ digitsValue ds = some n.toNat := by
    rintro ds hne value hvalue hlt rfl
    refine ⟨fun hnil => hne (List.isEmpty_iff.mpr hnil), Numeral.isDigit_of_foldlM hvalue, ?_⟩
    rw [hvalue, UInt64.toNat_ofNat_of_lt' hlt]
  split at h
  · rename_i ds hds
    dsimp only at h
    split_ifs at h with hne
    split at h
    · rename_i value hvalue
      split_ifs at h with hlt
      obtain ⟨hne, hdigits, hvalue⟩ := hread ds hne value hvalue hlt (Option.some.inj h)
      exact ⟨ds, hne, hdigits, hvalue, Or.inr hds⟩
    · cases h
  · dsimp only at h
    split_ifs at h with hne
    split at h
    · rename_i value hvalue
      split_ifs at h with hlt
      obtain ⟨hne, hdigits, hvalue⟩ := hread _ hne value hvalue hlt (Option.some.inj h)
      exact ⟨_, hne, hdigits, hvalue, Or.inl rfl⟩
    · cases h

theorem not_isSpace_of_isDigit {c : Char} (h : c.isDigit) : isSpace c = false := by
  obtain ⟨hlo, hhi⟩ := Char.isDigit_iff_toNat.mp h
  have hlo : 0x30 ≤ c.toNat := hlo
  have hhi : c.toNat ≤ 0x39 := hhi
  simp [isSpace]
  omega

/-- There is no space around what the server reads. -/
theorem not_isSpace_of_parseU64 {amount : String} {n : UInt64} (h : parseU64 amount = some n) :
    ∀ c ∈ amount.toList, isSpace c = false := by
  obtain ⟨ds, -, hdigits, -, htext | htext⟩ := digits_of_parseU64 h <;> rw [htext]
  · exact fun c hc => not_isSpace_of_isDigit (hdigits c hc)
  · refine List.forall_mem_cons.mpr ⟨by decide, fun c hc => not_isSpace_of_isDigit (hdigits c hc)⟩

/-- The client reads an amount as the server does. -/
theorem parseTrimmed_eq {amount : String} {n m : UInt64} (h : parseU64 amount = some n)
    (hgo : parseTrimmed amount = .ok m) : m = n := by
  have hspace := not_isSpace_of_parseU64 h
  have htrim : String.ofList (trimSpace amount) = amount := by
    rw [trimSpace, trimMatches_eq_self (fun c hc => hspace c (List.mem_of_head? hc))
      (fun c hc => hspace c (List.mem_of_getLast? hc)), String.ofList_toList]
  obtain ⟨ds, hne, hdigits, hvalue, htext⟩ := digits_of_parseU64 h
  have hlt : n.toNat < 2 ^ 64 := n.toNat_lt
  have hfits : ((some n.toNat).filter (· < 2 ^ 64)).map UInt64.ofNat = some n := by
    rw [Option.filter_some, decide_eq_true hlt, if_pos rfl, Option.map_some, UInt64.ofNat_toNat]
  have hresult : parseAmount amount = .ok n := by
    rw [parseAmount, okOrElse_eq_ok]
    rcases htext with htext | htext <;> rw [htext]
    · -- no digit is a sign
      split
      · exact absurd (hdigits '-' List.mem_cons_self) (by decide)
      · exact absurd (hdigits '+' List.mem_cons_self) (by decide)
      · rw [if_neg hne, hvalue]
        exact hfits
    · simp only [if_neg hne, hvalue]
      exact hfits
  rw [parseTrimmed, htrim, hresult] at hgo
  exact (Except.ok.inj hgo).symm

/-- The scan of a split reads an amount as the server does. -/
theorem sscan_eq {amount : String} {n m : UInt64} (h : parseU64 amount = some n)
    (hgo : sscanUint64 amount = some m) : m = n := by
  obtain ⟨ds, hne, hdigits, hvalue, htext⟩ := digits_of_parseU64 h
  have hskip : skipSpace amount.toList = some amount.toList := by
    have hspace := not_isSpace_of_parseU64 h
    rcases hcs : amount.toList with _ | ⟨c, cs⟩
    · rfl
    · rw [hcs] at hspace
      have hc := hspace c List.mem_cons_self
      have hline : c ≠ '\n' := by
        rintro rfl
        exact absurd hc (by decide)
      have hreturn : c ≠ '\r' := by
        rintro rfl
        exact absurd hc (by decide)
      rw [skipSpace, if_neg hline, if_neg fun h => hreturn h.1, hc]
      rfl
  have hlt : n.toNat < 2 ^ 64 := n.toNat_lt
  unfold sscanUint64 at hgo
  rw [hskip] at hgo
  simp only [Option.bind_eq_bind, Option.bind_some] at hgo
  rcases htext with htext | htext
  · rw [htext, List.takeWhile_eq_self_iff.mpr hdigits, if_neg hne, hvalue, Option.bind_some,
      if_pos hlt, UInt64.ofNat_toNat] at hgo
    exact (Option.some.inj hgo).symm
  · rw [htext, List.takeWhile_cons_of_neg (by decide), if_pos rfl] at hgo
    cases hgo

/-- The primary amount of both sides. -/
theorem splitAmounts_eq {libraries : Libraries} {request : MppSdk.ChargeRequest}
    {splits : List MppSdk.Split} {total primary left : UInt64} {due : List (Pubkey × UInt64)}
    (htotal : parseU64 request.amount = some total) (hdue : splits.mapM splitDue = some due)
    (hprimary : primaryAmount request splits = .ok primary)
    (hgo : splitAmounts libraries total (splits.map Split.ofRust) = .ok left) : left = primary := by
  have hsum : ∀ {splits : List MppSdk.Split} {due : List (Pubkey × UInt64)} {start after : UInt64},
      List.Forall₂ (fun payout split => splitDue split = some payout) due splits →
      (splits.map Split.ofRust).foldlM (fun splitTotal split => do
        let amount ← okOrElse (sscanUint64 split.amount)
          (GoError.mk none ("invalid split amount " ++ libraries.quote split.amount))
        return splitTotal + amount) start = (.ok after : Result UInt64) →
      after = start + splitsTotal splits := by
    intro splits due start after hdue
    induction hdue generalizing start with
    | nil =>
      intro h
      obtain rfl : start = after := Except.ok.inj h
      exact (UInt64.add_zero start).symm
    | @cons payout split due splits hpayout _ ih =>
      intro h
      obtain ⟨-, hamount⟩ := splitDue_eq_some.mp hpayout
      rw [List.map_cons, List.foldlM_cons] at h
      simp only [bind_eq_ok, okOrElse_eq_ok] at h
      obtain ⟨next, ⟨amount, hscan, hnext⟩, hrest⟩ := h
      obtain rfl := sscan_eq hamount hscan
      obtain rfl : start + payout.2 = next := Except.ok.inj hnext
      have htotal : splitsTotal (split :: splits) = payout.2 + splitsTotal splits := by
        simp only [splitsTotal, List.filterMap_cons, hamount, List.sum_cons]
      rw [ih hrest, htotal, UInt64.add_assoc]
  simp only [splitAmounts, bind_eq_ok, rejectIf_eq_ok] at hgo
  obtain ⟨-, -, splitTotal, hfold, -, -, hleft⟩ := hgo
  obtain rfl := hsum (mapM_splitDue.mp hdue) hfold
  simp only [primaryAmount, bind_eq_ok, okOrElse_eq_ok, rejectIf_eq_ok] at hprimary
  obtain ⟨total', htotal', -, -, -, -, hprimary⟩ := hprimary
  obtain rfl := Option.some.inj (htotal.symm.trans htotal')
  obtain rfl := Except.ok.inj hleft
  obtain rfl := Except.ok.inj hprimary
  rw [UInt64.zero_add]

end Amounts

/-! ## The lines the client builds -/

/-- The policy of the client: it opens every account, and writes the memos that are not
empty. -/
def clientPolicy : ChargePolicy where
  opensRecipient := true
  opensSplit _ := true
  memoOf := nonEmpty

theorem clientPolicy_sound : clientPolicy.Sound := by
  refine ⟨fun _ _ => rfl, fun memo => ?_⟩
  rcases memo with _ | text
  · rfl
  · by_cases hempty : text = "" <;> simp [clientPolicy, nonEmpty, Option.filter, hempty]

section Build
variable {client : ChargeClient} {before after : List Instruction} {memo : Option String}
  {request : MppSdk.ChargeRequest} {details : MppSdk.MethodDetails} {recipient : Pubkey}
  {primary : UInt64} {due : List (Pubkey × UInt64)} {payer : Pubkey}

theorem publicKey_eq_ok {text : String} {key : Pubkey} :
    Go.publicKey text = .ok key ↔ text = key.toBase58 := by
  rw [Go.publicKey, okOrElse_eq_ok, Bytes.fromBase58_eq_some]

theorem appendMemo_eq_ok : appendMemo before (memo.getD "") = .ok after →
    (∀ text ∈ nonEmpty memo, (utf8 text).length ≤ 566) ∧
      after = before ++ (nonEmpty memo).toList.map Instruction.memo := by
  intro h
  by_cases hempty : memo.getD "" = ""
  · have hnone : nonEmpty memo = none := by
      rcases memo with _ | text
      · rfl
      · obtain rfl : text = "" := hempty
        rfl
    rw [appendMemo, if_pos hempty] at h
    obtain rfl : before = after := Except.ok.inj h
    rw [hnone]
    exact ⟨fun text h => (nomatch h), (List.append_nil before).symm⟩
  · rcases memo with _ | text
    · exact absurd rfl hempty
    have hsome : nonEmpty (some text) = some text := by
      have hne : text ≠ "" := hempty
      simp [nonEmpty, Option.filter, hne]
    rw [appendMemo, if_neg hempty] at h
    simp only [bind_eq_ok, rejectIf_eq_ok, Nat.not_lt] at h
    obtain ⟨-, hlength, h⟩ := h
    rw [hsome]
    refine ⟨?_, (Except.ok.inj h).symm⟩
    rintro _ ⟨⟩
    exact hlength

/-- A charge in SOL is built of lines. -/
theorem lines_of_sol (payer : Pubkey) (hdoc : client.Documented)
    (hdue : details.splitList.mapM splitDue = some due)
    (h : client.buildSol before recipient primary (request.externalId.getD "")
      (details.splitList.map Split.ofRust) = .ok after) :
    after = before ++ (chargeLines clientPolicy recipient primary request.externalId due
      details.splitList).flatMap fun line =>
        line.instructions client.findProgramAddress client.publicKey payer none := by
  simp only [ChargeClient.buildSol, bind_eq_ok, orReturn_eq_ok, hdoc.transfer,
    List.foldlM_map] at h
  obtain ⟨transfer, htransfer, first, hfirst, h⟩ := h
  obtain rfl := Except.ok.inj htransfer
  obtain ⟨-, rfl⟩ := appendMemo_eq_ok hfirst
  have hreads := mapM_splitDue.mp hdue
  have hrounds := lines_of_foldlM client.findProgramAddress client.publicKey payer none
    (fun payout split => ⟨payout.1, payout.2, true, "split", nonEmpty split.memo⟩)
    (fun _ => True) (by
      intro split hsplit before after h
      simp only [Split.ofRust, bind_eq_ok, publicKey_eq_ok, orReturn_eq_ok,
        Except.ok.injEq] at h
      obtain ⟨owner, howner, amount, hamount, _, rfl, hmemo⟩ := h
      obtain ⟨-, rfl⟩ := appendMemo_eq_ok hmemo
      obtain ⟨payout, -, hpayout⟩ := exists_of_mem hreads split hsplit
      obtain ⟨howner', hamount'⟩ := splitDue_eq_some.mp hpayout
      obtain rfl := parseTrimmed_eq hamount' hamount
      obtain rfl : owner = payout.1 := Option.some.inj
        ((Bytes.fromBase58_eq_some.mpr howner).symm.trans (Bytes.fromBase58_eq_some.mpr howner'))
      refine ⟨payout, hpayout, trivial, ?_⟩
      rw [List.append_assoc]
      rfl) h
  obtain ⟨due', hdue', -, rfl⟩ := hrounds
  obtain rfl := Option.some.inj (hdue.symm.trans hdue')
  rw [chargeLines, List.flatMap_cons]
  simp only [PaymentLine.instructions, PaymentLine.opening, PaymentLine.transfer, clientPolicy,
    List.nil_append, List.append_assoc, List.cons_append]

/-- One transfer of a token, after the account is opened. -/
theorem addTransfer_eq_ok (hdoc : client.Documented) {mint program owner : Pubkey}
    {decimals : UInt8} {amount : UInt64}
    (h : client.addTransfer payer mint program decimals before owner amount = .ok after) :
    (program = programs.tokenKey ∨ program = programs.token2022Key) ∧ ∀ label,
      after = before ++ (⟨owner, amount, true, label, none⟩ : PaymentLine).instructions
        client.findProgramAddress client.publicKey payer (some ⟨mint, program, decimals⟩) := by
  simp only [ChargeClient.addTransfer, bind_eq_ok] at h
  obtain ⟨transfer, htransfer, h⟩ := h
  obtain rfl := Except.ok.inj h
  unfold ChargeClient.buildTransferChecked at htransfer
  split at htransfer
  · rename_i htoken
    rw [hdoc.tokenTransferChecked] at htransfer
    obtain rfl := Except.ok.inj htransfer
    exact ⟨Or.inl htoken, fun label => by rw [htoken]; rfl⟩
  · split at htransfer
    · rename_i htoken
      rw [hdoc.token2022TransferChecked] at htransfer
      obtain rfl := Except.ok.inj htransfer
      exact ⟨Or.inr htoken, fun label => by rw [htoken]; rfl⟩
    · cases htransfer

/-- A charge in a token is built of lines. -/
theorem lines_of_token (hdoc : client.Documented)
    (hdue : details.splitList.mapM splitDue = some due) {currency : String}
    (h : client.buildToken before currency recipient (.ofRust details) primary
      (request.externalId.getD "") = .ok after) :
    ∃ mint program payer : Pubkey, resolveMint currency (details.network.getD "") = mint.toBase58 ∧
      client.resolveTokenProgram mint (details.tokenProgram.getD "") = .ok program ∧
      client.payerOf (.ofRust details) = .ok payer ∧
      (program = programs.tokenKey ∨ program = programs.token2022Key) ∧
      after = before ++ (chargeLines clientPolicy recipient primary request.externalId due
        details.splitList).flatMap fun line =>
          line.instructions client.findProgramAddress client.publicKey payer
            (some ⟨mint, program, details.decimals.getD 6⟩) := by
  simp only [ChargeClient.buildToken, bind_eq_ok, publicKey_eq_ok] at h
  obtain ⟨mint, hmint, program, hprogram, payer, hpayer, first, hfirst, noted, hnoted, h⟩ := h
  obtain ⟨hsupported, hline⟩ := addTransfer_eq_ok hdoc hfirst
  obtain ⟨-, rfl⟩ := appendMemo_eq_ok hnoted
  have hreads := mapM_splitDue.mp hdue
  simp only [MethodDetails.ofRust, List.foldlM_map] at h
  have hrounds := lines_of_foldlM client.findProgramAddress client.publicKey payer
    (some ⟨mint, program, details.decimals.getD 6⟩)
    (fun payout split => ⟨payout.1, payout.2, true, "split", nonEmpty split.memo⟩)
    (fun _ => True) (by
      intro split hsplit before after h
      simp only [Split.ofRust, bind_eq_ok, publicKey_eq_ok] at h
      obtain ⟨owner, howner, amount, hamount, paid, hpaid, hmemo⟩ := h
      obtain ⟨-, hline⟩ := addTransfer_eq_ok hdoc hpaid
      obtain ⟨-, rfl⟩ := appendMemo_eq_ok hmemo
      obtain ⟨payout, -, hpayout⟩ := exists_of_mem hreads split hsplit
      obtain ⟨howner', hamount'⟩ := splitDue_eq_some.mp hpayout
      obtain rfl := parseTrimmed_eq hamount' hamount
      obtain rfl : owner = payout.1 := Option.some.inj
        ((Bytes.fromBase58_eq_some.mpr howner).symm.trans (Bytes.fromBase58_eq_some.mpr howner'))
      refine ⟨payout, hpayout, trivial, ?_⟩
      rw [hline "split"]
      simp only [PaymentLine.instructions, PaymentLine.opening, PaymentLine.transfer,
        Option.toList_none, List.map_nil, List.append_assoc, List.cons_append, List.nil_append,
        if_true]) h
  obtain ⟨due', hdue', -, rfl⟩ := hrounds
  obtain rfl := Option.some.inj (hdue.symm.trans hdue')
  refine ⟨mint, program, payer, hmint, hprogram, hpayer, hsupported, ?_⟩
  rw [hline "externalId", chargeLines, List.flatMap_cons]
  simp only [PaymentLine.instructions, PaymentLine.opening, PaymentLine.transfer, clientPolicy,
    Option.toList_none, List.map_nil, List.append_assoc, List.cons_append, List.nil_append,
    if_true]
  rfl

/-- The account that pays the fee is the one the server expects. -/
theorem payerOf_eq {feePayer : Option Pubkey} (hfee : quotedFeePayer details = some feePayer)
    (h : client.payerOf (.ofRust details) = .ok payer) :
    payer = feePayer.getD client.publicKey := by
  unfold quotedFeePayer at hfee
  unfold ChargeClient.payerOf MethodDetails.ofRust at h
  by_cases hasked : details.feePayer = some true
  · have hnot : ¬ details.feePayer.getD false = false := by simp [hasked]
    rw [if_neg hnot] at hfee
    obtain ⟨key, hkey, rfl⟩ := Option.map_eq_some_iff.mp hfee
    obtain ⟨text, htext, hread⟩ := Option.bind_eq_some_iff.mp hkey
    obtain rfl := Bytes.fromBase58_eq_some.mp hread
    have hne : details.feePayerKey.getD "" ≠ "" := by
      have hlength := key.le_length_toBase58
      intro hempty
      rw [htext, Option.getD_some] at hempty
      rw [hempty] at hlength
      exact absurd hlength (by decide)
    rw [if_pos ⟨hasked, hne⟩, publicKey_eq_ok, htext, Option.getD_some] at h
    exact (Option.some.inj ((Bytes.fromBase58_toBase58 key).symm.trans
      (Bytes.fromBase58_eq_some.mpr h))).symm
  · have hfalse : details.feePayer.getD false = false := by
      rcases hvalue : details.feePayer with _ | _ | _
      · rfl
      · rfl
      · exact absurd hvalue hasked
    rw [if_pos hfalse] at hfee
    obtain rfl := Option.some.inj hfee
    rw [if_neg fun h => hasked h.1] at h
    exact (Except.ok.inj h).symm

/-- The token program is the one that is asked for. -/
theorem resolveTokenProgram_eq_ok {mint program : Pubkey} {expected : Option Pubkey}
    (hquoted : quotedProgram details = some expected)
    (h : client.resolveTokenProgram mint (details.tokenProgram.getD "") = .ok program) :
    ∀ key ∈ expected, program = key := by
  unfold quotedProgram at hquoted
  rcases htext : details.tokenProgram with _ | text
  · rw [htext] at hquoted
    obtain rfl := Option.some.inj hquoted
    exact fun key hkey => nomatch hkey
  · rw [htext] at hquoted h
    change (if _ then _ else _) = _ at hquoted
    by_cases hsupported : text = programs.TOKEN_PROGRAM ∨ text = programs.TOKEN_2022_PROGRAM
    · rw [if_pos hsupported] at hquoted
      obtain ⟨key, hkey, rfl⟩ := Option.map_eq_some_iff.mp hquoted
      have hne : text ≠ "" := by
        rcases hsupported with rfl | rfl <;> decide
      rw [ChargeClient.resolveTokenProgram, Option.getD_some, if_pos hne,
        publicKey_eq_ok] at h
      rintro _ ⟨⟩
      exact Option.some.inj ((Bytes.fromBase58_eq_some.mpr h).symm.trans hkey)
    · rw [if_neg hsupported] at hquoted
      cases hquoted

/-! ## What the server asks of an accepted transaction -/

section Accepted
variable {find : FindProgramAddress} {tx : VersionedTransaction} {ix : CompiledInstruction}

/-- A call of the compute budget is within the bounds. -/
theorem isBudget_of_accepted (h : verifyPreBroadcast find tx request details = .ok ())
    (hix : ix ∈ tx.message.instructions)
    (hcalls : tx.message.staticAccountKeys[ix.programIdIndex.toNat]? =
      some programs.computeBudgetKey) : ix.IsBudget tx.message.staticAccountKeys := by
  obtain ⟨hlookups, -, -, q, -, payer, hfirst, hfee, hverify⟩ := verifyPreBroadcast_eq_ok.mp h
  rcases (Quote.paidBy_of_verify hlookups hfirst hfee hverify).others ix hix with
    hpays | hbudget | ⟨owner, -, hopens⟩
  · obtain ⟨program, hmem, hcalled⟩ := hpays
    obtain rfl := Option.some.inj (hcalls.symm.trans hcalled)
    obtain ⟨hmemo, hsystem, htoken, htoken2022, -⟩ := programs.computeBudgetKey_ne
    simp [hmemo, hsystem, htoken, htoken2022] at hmem
  · exact hbudget
  · exact absurd (Option.some.inj (hcalls.symm.trans hopens.calls))
      programs.computeBudgetKey_ne.2.2.2.2

theorem price_of_accepted {microLamports : UInt64}
    (h : verifyPreBroadcast find tx request details = .ok ())
    (hix : ∃ ix ∈ tx.message.instructions, (Instruction.setComputeUnitPrice microLamports).Resolves
      tx.message.staticAccountKeys ix) :
    microLamports.toNat ≤ MAX_COMPUTE_UNIT_PRICE_MICROLAMPORTS := by
  obtain ⟨ix, hix, hresolves⟩ := hix
  obtain ⟨-, -, ⟨units, -, hdata⟩ | ⟨price, hprice, hdata⟩⟩ :=
    isBudget_of_accepted h hix hresolves.program
  · cases hresolves.data.symm.trans hdata
  · injection hresolves.data.symm.trans hdata with _ hbytes
    have hread := congrArg fromLeBytes hbytes
    rw [fromLeBytes_leBytes_of_lt microLamports.toNat_lt,
      fromLeBytes_leBytes_of_lt (hprice.trans_lt (by decide))] at hread
    exact hread ▸ hprice

theorem limit_of_accepted {units : UInt32}
    (h : verifyPreBroadcast find tx request details = .ok ())
    (hix : ∃ ix ∈ tx.message.instructions, (Instruction.setComputeUnitLimit units).Resolves
      tx.message.staticAccountKeys ix) : units.toNat ≤ MAX_COMPUTE_UNIT_LIMIT := by
  obtain ⟨ix, hix, hresolves⟩ := hix
  obtain ⟨-, -, ⟨limit, hlimit, hdata⟩ | ⟨price, -, hdata⟩⟩ :=
    isBudget_of_accepted h hix hresolves.program
  · injection hresolves.data.symm.trans hdata with _ hbytes
    have hread := congrArg fromLeBytes hbytes
    rw [fromLeBytes_leBytes_of_lt units.toNat_lt,
      fromLeBytes_leBytes_of_lt (hlimit.trans_lt (by decide))] at hread
    exact hread ▸ hlimit
  · cases hresolves.data.symm.trans hdata

/-- Whoever pays is not the fee payer. -/
theorem ne_feePayer_of_accepted (line : PaymentLine) {signer key : Pubkey}
    {token : Option TokenUse}
    (htoken : ∀ use ∈ token, use.program = programs.tokenKey ∨ use.program = programs.token2022Key)
    (h : verifyPreBroadcast find tx request details = .ok ())
    (hfee : details.feePayer = some true) (hkey : details.feePayerKey = some key.toBase58)
    (hix : ∃ ix ∈ tx.message.instructions, (line.transfer find signer token).Resolves
      tx.message.staticAccountKeys ix) : key ≠ signer := by
  obtain ⟨ix, hix, hresolves⟩ := hix
  obtain ⟨feePayer, hkey', -, hallowed⟩ := allows_of_accepted hfee h
  obtain rfl : feePayer = key := by
    have hsame := Option.some.inj (hkey'.symm.trans hkey)
    exact Option.some.inj ((Bytes.fromBase58_toBase58 feePayer).symm.trans
      (Bytes.fromBase58_eq_some.mpr hsame))
  have hallows := hallowed ix hix
  rcases token with _ | use
  · rw [effect_of_solTransfer hresolves] at hallows
    exact fun heq => hallows.2.2 heq.symm
  · rw [effect_of_transferChecked (htoken use rfl) hresolves] at hallows
    obtain ⟨-, -, -, -, -, -, hauthority, -⟩ := hallows
    exact fun heq => hauthority heq.symm

end Accepted

/-! ## Agreement -/

/-- A fee payer is expected exactly if one is asked for. -/
theorem isSome_feePayer {feePayer : Option Pubkey} (hfee : quotedFeePayer details = some feePayer) :
    feePayer.isSome = details.feePayer.getD false := by
  unfold quotedFeePayer at hfee
  by_cases hasked : details.feePayer.getD false = false
  · rw [if_pos hasked] at hfee
    obtain rfl := Option.some.inj hfee
    exact hasked.symm
  · rw [if_neg hasked] at hfee
    obtain ⟨key, -, rfl⟩ := Option.map_eq_some_iff.mp hfee
    rw [Bool.not_eq_false] at hasked
    exact hasked.symm

/-- The owners whose accounts may be opened, read off the request. -/
theorem mem_allowedOwners_iff {feePayer : Option Pubkey}
    (hdue : details.splitList.mapM splitDue = some due)
    (hfee : quotedFeePayer details = some feePayer) {owner : Pubkey} :
    owner ∈ (if feePayer.isSome then requiredOwners due details.splitList else due.map Prod.fst) ↔
      MayOpen details owner.toBase58 := by
  have hreads := mapM_splitDue.mp hdue
  have hread : ∀ entry ∈ due.zip details.splitList, entry.2.recipient = entry.1.1.toBase58 :=
    fun entry hentry => (splitDue_eq_some.mp (List.forall₂_zip hreads hentry)).1
  have hzip : ∀ split ∈ details.splitList, ∃ payout, (payout, split) ∈ due.zip details.splitList := by
    intro split hsplit
    rw [← List.map_snd_zip (Nat.le_of_eq hreads.length_eq.symm)] at hsplit
    obtain ⟨entry, hentry, rfl⟩ := List.mem_map.mp hsplit
    exact ⟨entry.1, hentry⟩
  have hsame : ∀ {key : Pubkey}, key.toBase58 = owner.toBase58 → key = owner := by
    intro key h
    exact Option.some.inj ((Bytes.fromBase58_toBase58 key).symm.trans
      (Bytes.fromBase58_eq_some.mpr h))
  rw [isSome_feePayer hfee]
  by_cases hasked : details.feePayer.getD false = true
  · rw [if_pos hasked]
    constructor
    · intro howner
      obtain ⟨entry, hentry, rfl⟩ := List.mem_map.mp howner
      obtain ⟨hmem, hrequired⟩ := List.mem_filter.mp hentry
      exact ⟨entry.2, (List.of_mem_zip (a := entry.1) (b := entry.2) hmem).2, hread entry hmem,
        fun _ => of_decide_eq_true hrequired⟩
    · rintro ⟨split, hsplit, howner, hrequired⟩
      obtain ⟨payout, hmem⟩ := hzip split hsplit
      refine List.mem_map.mpr ⟨(payout, split), List.mem_filter.mpr
        ⟨hmem, decide_eq_true (hrequired hasked)⟩, hsame ?_⟩
      rw [← howner]
      exact (hread _ hmem).symm
  · rw [if_neg hasked]
    constructor
    · intro howner
      rw [← List.map_fst_zip (Nat.le_of_eq hreads.length_eq), List.map_map] at howner
      obtain ⟨entry, hentry, rfl⟩ := List.mem_map.mp howner
      exact ⟨entry.2, (List.of_mem_zip (a := entry.1) (b := entry.2) hentry).2,
        hread entry hentry, fun h => absurd h hasked⟩
    · rintro ⟨split, hsplit, howner, -⟩
      obtain ⟨payout, hmem⟩ := hzip split hsplit
      have hfirst : payout.1 = owner := by
        refine hsame ?_
        rw [← howner]
        exact (hread _ hmem).symm
      exact hfirst ▸ List.mem_map_of_mem (List.of_mem_zip hmem).1

/-- All accounts that the client opens may be opened exactly if those of the request's texts
may. -/
theorem allowed_iff {feePayer : Option Pubkey}
    (hdue : details.splitList.mapM splitDue = some due)
    (hfee : quotedFeePayer details = some feePayer) {token : Option TokenUse}
    {externalId : Option String} :
    (∀ line ∈ chargeLines clientPolicy recipient primary externalId due details.splitList,
      line.opens = true → token.isSome → line.recipient ∈
        (if feePayer.isSome then requiredOwners due details.splitList else due.map Prod.fst)) ↔
      (token.isSome → MayOpen details recipient.toBase58 ∧
        ∀ split ∈ details.splitList, MayOpen details split.recipient) := by
  have hreads := mapM_splitDue.mp hdue
  have hread : ∀ entry ∈ due.zip details.splitList, entry.2.recipient = entry.1.1.toBase58 :=
    fun entry hentry => (splitDue_eq_some.mp (List.forall₂_zip hreads hentry)).1
  simp only [mem_allowedOwners_iff hdue hfee]
  constructor
  · intro h htoken
    refine ⟨h _ List.mem_cons_self rfl htoken, fun split hsplit => ?_⟩
    rw [← List.map_snd_zip (Nat.le_of_eq hreads.length_eq.symm)] at hsplit
    obtain ⟨entry, hentry, rfl⟩ := List.mem_map.mp hsplit
    rw [hread entry hentry]
    exact h _ (List.mem_cons_of_mem _ (List.mem_map_of_mem hentry)) rfl htoken
  · intro h line hline _ htoken
    obtain ⟨hrecipient, hsplits⟩ := h htoken
    rcases List.mem_cons.mp hline with rfl | hline
    · exact hrecipient
    · obtain ⟨entry, hentry, rfl⟩ := List.mem_map.mp hline
      show MayOpen details entry.1.1.toBase58
      rw [← hread entry hentry]
      exact hsplits entry.2 (List.of_mem_zip (a := entry.1) (b := entry.2) hentry).2

section Compiled
variable {tx : VersionedTransaction} {feePayer : Option Pubkey} {quoted : Option QuotedToken}
  {token : Option TokenUse} {microLamports : UInt64} {units : UInt32}

/-- What the server makes of the lines of the client. -/
theorem accepted_iff_of_compiled
    (hdistinct : DistinctAccounts client.findProgramAddress
      (chargeParties client.publicKey request details))
    (hrecipient : request.recipient = some recipient.toBase58)
    (hprimary : primaryAmount request details.splitList = .ok primary)
    (hdue : details.splitList.mapM splitDue = some due)
    (hfee : quotedFeePayer details = some feePayer)
    (hquoted : quotedToken request details = some quoted) (hlamports : quoted = none → token = none)
    (htokens : ∀ mint ∈ quoted, ∃ use, token = some use ∧ use.mint = mint.mint ∧
      (use.program = programs.tokenKey ∨ use.program = programs.token2022Key) ∧
      (∀ expected ∈ mint.program, use.program = expected) ∧
      ∀ expected ∈ mint.decimals, use.decimals = expected)
    (hopens : requiresAta details.splitList → ∃ mint ∈ quoted,
      request.currency = mint.mint.toBase58)
    (hfew : details.splitList.length ≤ 8)
    (hmemos : ∀ memo ∈ expectedMemos request.externalId details.splitList,
      (utf8 memo.2).length ≤ 566)
    (hcompiled : Compiles (feePayer.getD client.publicKey)
      (chargeInstructions client.findProgramAddress client.publicKey
        (feePayer.getD client.publicKey) token microLamports units
        (chargeLines clientPolicy recipient primary request.externalId due details.splitList))
      tx.message) :
    verifyPreBroadcast client.findProgramAddress tx request details = .ok () ↔
      ((∀ key ∈ feePayer, key ≠ client.publicKey) ∧ units.toNat ≤ MAX_COMPUTE_UNIT_LIMIT ∧
        microLamports.toNat ≤ MAX_COMPUTE_UNIT_PRICE_MICROLAMPORTS) ∧
      (token.isSome → MayOpen details recipient.toBase58 ∧
        ∀ split ∈ details.splitList, MayOpen details split.recipient) := by
  by_cases hbounds : (∀ key ∈ feePayer, key ≠ client.publicKey) ∧
      units.toNat ≤ MAX_COMPUTE_UNIT_LIMIT ∧
      microLamports.toNat ≤ MAX_COMPUTE_UNIT_PRICE_MICROLAMPORTS
  · obtain ⟨hne, hlimit, hprice⟩ := hbounds
    have hnonEmpty : ∀ memo, nonEmpty memo ≠ some "" := by
      intro memo h
      exact of_decide_eq_true (Option.filter_eq_some_iff.mp h).2 rfl
    refine (ChargeBuild.accepted_iff {
      policy := clientPolicy
      recipient
      primary
      due
      feePayer
      quoted
      token
      microLamports
      units
      recipient_eq := hrecipient
      primary_eq := hprimary
      due_eq := hdue
      feePayer_eq := hfee
      feePayer_ne := hne
      quoted_eq := hquoted
      lamports := hlamports
      tokens := htokens
      opens := hopens
      fewSplits := hfew
      memos := hmemos
      sound := clientPolicy_sound
      price := hprice
      limit := hlimit
      compiled := hcompiled } hdistinct).trans ?_
    constructor
    · rintro ⟨hallowed, -⟩
      exact ⟨⟨hne, hlimit, hprice⟩, (allowed_iff hdue hfee).mp hallowed⟩
    · rintro ⟨-, hmay⟩
      exact ⟨(allowed_iff hdue hfee).mpr hmay, (memos_ne_iff (mapM_splitDue.mp hdue).length_eq).mpr
        ⟨hnonEmpty _, fun split _ => hnonEmpty _⟩⟩
  · refine ⟨fun h => absurd ⟨?_, ?_, ?_⟩ hbounds, fun h => absurd h.1 hbounds⟩
    · rintro key hkey
      have hkey : feePayer = some key := hkey
      rw [hkey] at hfee
      obtain ⟨htrue, htext⟩ : details.feePayer = some true ∧
          details.feePayerKey = some key.toBase58 := by
        unfold quotedFeePayer at hfee
        split at hfee
        · cases hfee
        · rename_i hasked
          obtain ⟨key', hkey', hsame⟩ := Option.map_eq_some_iff.mp hfee
          obtain rfl : key' = key := Option.some.inj hsame
          obtain ⟨text, htext, hread⟩ := Option.bind_eq_some_iff.mp hkey'
          rw [Bytes.fromBase58_eq_some.mp hread] at htext
          refine ⟨?_, htext⟩
          rcases hvalue : details.feePayer with _ | _ | _
          · exact absurd (by rw [hvalue]; rfl) hasked
          · exact absurd (by rw [hvalue]; rfl) hasked
          · rfl
      have htokenKeys : ∀ use ∈ token, use.program = programs.tokenKey ∨
          use.program = programs.token2022Key := by
        intro use huse
        rcases quoted with _ | mint
        · rw [hlamports rfl] at huse
          cases huse
        · obtain ⟨used, hused, -, hsupported, -⟩ := htokens mint rfl
          obtain rfl := Option.some.inj (hused.symm.trans huse)
          exact hsupported
      refine ne_feePayer_of_accepted ⟨recipient, primary, true, "externalId",
        nonEmpty request.externalId⟩ htokenKeys h htrue htext (exists_resolved hcompiled.resolves
        (mem_chargeInstructions List.mem_cons_self ?_))
      exact List.mem_append_right _ List.mem_cons_self
    · exact limit_of_accepted h (exists_resolved hcompiled.resolves
        (List.mem_cons_of_mem _ List.mem_cons_self))
    · exact price_of_accepted h (exists_resolved hcompiled.resolves List.mem_cons_self)

end Compiled

/-- When the server accepts what the client builds: the client is not the fee payer, its budget
is within the bounds, and the accounts it opens in a token may be opened. -/
structure Acceptable (signer : Pubkey) (request : MppSdk.ChargeRequest)
    (details : MppSdk.MethodDetails) (options : BuildOptions) : Prop where
  signer : details.feePayer.getD false = true → details.feePayerKey ≠ some signer.toBase58
  limit : options.computeUnitLimit.toNat ≤ MAX_COMPUTE_UNIT_LIMIT
  price : options.computeUnitPrice.toNat ≤ MAX_COMPUTE_UNIT_PRICE_MICROLAMPORTS
  accounts : toUppercase request.currency = "SOL" ∨
    (∀ recipient ∈ request.recipient, MayOpen details recipient) ∧
      ∀ split ∈ details.splitList, MayOpen details split.recipient

/-- The condition on the inputs is the one on what is read of them. -/
theorem acceptable_iff {options : BuildOptions} {feePayer : Option Pubkey} {signer : Pubkey}
    {isToken : Bool} (hrecipient : request.recipient = some recipient.toBase58)
    (hfee : quotedFeePayer details = some feePayer)
    (htoken : isToken = true ↔ ¬ toUppercase request.currency = "SOL") :
    ((∀ key ∈ feePayer, key ≠ signer) ∧
      (if options.computeUnitLimit = 0 then 200000 else options.computeUnitLimit).toNat ≤
        MAX_COMPUTE_UNIT_LIMIT ∧
      (if options.computeUnitPrice = 0 then 1 else options.computeUnitPrice).toNat ≤
        MAX_COMPUTE_UNIT_PRICE_MICROLAMPORTS) ∧
      (isToken = true → MayOpen details recipient.toBase58 ∧
        ∀ split ∈ details.splitList, MayOpen details split.recipient) ↔
    Acceptable signer request details options := by
  have hlimit : (if options.computeUnitLimit = 0 then 200000 else options.computeUnitLimit).toNat ≤
      MAX_COMPUTE_UNIT_LIMIT ↔ options.computeUnitLimit.toNat ≤ MAX_COMPUTE_UNIT_LIMIT := by
    by_cases hzero : options.computeUnitLimit = 0
    · rw [if_pos hzero, hzero]
      decide
    · rw [if_neg hzero]
  have hprice : (if options.computeUnitPrice = 0 then 1 else options.computeUnitPrice).toNat ≤
      MAX_COMPUTE_UNIT_PRICE_MICROLAMPORTS ↔
        options.computeUnitPrice.toNat ≤ MAX_COMPUTE_UNIT_PRICE_MICROLAMPORTS := by
    by_cases hzero : options.computeUnitPrice = 0
    · rw [if_pos hzero, hzero]
      decide
    · rw [if_neg hzero]
  have hsigner : (∀ key ∈ feePayer, key ≠ signer) ↔
      (details.feePayer.getD false = true → details.feePayerKey ≠ some signer.toBase58) := by
    unfold quotedFeePayer at hfee
    by_cases hasked : details.feePayer.getD false = false
    · rw [if_pos hasked] at hfee
      obtain rfl := Option.some.inj hfee
      rw [hasked]
      exact ⟨fun _ h => (nomatch h), fun _ key hkey => (nomatch hkey)⟩
    · rw [if_neg hasked] at hfee
      obtain ⟨key, hkey, rfl⟩ := Option.map_eq_some_iff.mp hfee
      obtain ⟨text, htext, hread⟩ := Option.bind_eq_some_iff.mp hkey
      obtain rfl := Bytes.fromBase58_eq_some.mp hread
      rw [htext]
      constructor
      · rintro h - heq
        have hsame := Bytes.fromBase58_eq_some.mpr (Option.some.inj heq)
        exact h key rfl (Option.some.inj ((Bytes.fromBase58_toBase58 key).symm.trans hsame))
      · rintro h _ ⟨⟩ rfl
        exact h (Bool.not_eq_false _ ▸ hasked) rfl
  rw [hlimit, hprice, hsigner]
  constructor
  · rintro ⟨⟨hsigner, hlimit, hprice⟩, hopen⟩
    refine ⟨hsigner, hlimit, hprice, ?_⟩
    by_cases hsol : toUppercase request.currency = "SOL"
    · exact Or.inl hsol
    · obtain ⟨hfirst, hsplits⟩ := hopen (htoken.mpr hsol)
      refine Or.inr ⟨fun text htext => ?_, hsplits⟩
      obtain rfl := Option.some.inj (hrecipient.symm.trans htext)
      exact hfirst
  · rintro ⟨hsigner, hlimit, hprice, haccounts⟩
    refine ⟨⟨hsigner, hlimit, hprice⟩, fun h => ?_⟩
    obtain ⟨hfirst, hsplits⟩ := haccounts.resolve_left (htoken.mp h)
    exact ⟨hfirst _ hrecipient, hsplits⟩

/-- **What the client builds, the server accepts**, as long as the client is not the fee payer
and its budget is within the bounds, and either the charge is in SOL or the accounts of the
recipient and of all splits may be opened: the client opens them all. -/
theorem goCharge_accepted_iff (client : ChargeClient) (hdoc : client.Documented)
    (request : MppSdk.ChargeRequest) (details : MppSdk.MethodDetails) (options : BuildOptions)
    (tx : VersionedTransaction) (hpayable : Payable request details)
    (hdistinct : DistinctAccounts client.findProgramAddress
      (chargeParties client.publicKey request details))
    (hbuilt : client.buildFor request details options = .ok tx) :
    verifyPreBroadcast client.findProgramAddress tx request details = .ok () ↔
      Acceptable client.publicKey request details options := by
  obtain ⟨primary, hprimary, hsome⟩ := hpayable
  obtain ⟨q, hq⟩ := Option.isSome_iff_exists.mp hsome
  obtain ⟨recipient, hrecipient, due, hdue, feePayer, hfee, quoted, hquoted,
    ⟨hfew, hmemos, hopens⟩, -⟩ := quoteOf_eq_some.mp hq
  obtain ⟨text, htext, hread⟩ := Option.bind_eq_some_iff.mp hrecipient
  obtain rfl := Bytes.fromBase58_eq_some.mp hread
  obtain ⟨total, htotal, -⟩ := primaryAmount_eq_ok.mp hprimary
  simp only [ChargeClient.buildFor, ChargeClient.buildChargeTransaction, hdoc.computeUnitPrice,
    hdoc.computeUnitLimit, bind_eq_ok, orReturn_eq_ok, publicKey_eq_ok] at hbuilt
  obtain ⟨total', htotal', left, hleft, key, hkey, instructions, hpayment, blockhash, -, payer,
    hpayer, signatures, -, hbuilt⟩ := hbuilt
  obtain rfl := parseTrimmed_eq htotal htotal'
  obtain rfl : left = primary := splitAmounts_eq htotal hdue hprimary hleft
  obtain rfl := payerOf_eq hfee hpayer
  obtain rfl : recipient = key := by
    rw [htext, Option.getD_some] at hkey
    exact Option.some.inj ((Bytes.fromBase58_toBase58 recipient).symm.trans
      (Bytes.fromBase58_eq_some.mpr hkey))
  have hmessage : tx.message = client.newMessage instructions (feePayer.getD client.publicKey)
      blockhash := by
    rw [← Except.ok.inj hbuilt]
  by_cases hsol : request.IsNativeSol
  · rw [quotedToken, if_pos hsol] at hquoted
    obtain rfl := Option.some.inj hquoted
    rw [ChargeClient.buildPayment, if_pos ((isNativeSOL_iff _).mpr hsol)] at hpayment
    obtain rfl := lines_of_sol (feePayer.getD client.publicKey) hdoc hdue hpayment
    have hcompiled := hmessage ▸ hdoc.newMessage _ (feePayer.getD client.publicKey) blockhash
      (length_accountKeysOf (length_chargeLines (mapM_splitDue.mp hdue).length_eq hfew))
    refine (accepted_iff_of_compiled hdistinct htext hprimary hdue hfee (if_pos hsol)
      (fun _ => rfl) (by rintro _ ⟨⟩) hopens hfew hmemos hcompiled).trans
        (acceptable_iff htext hfee ?_)
    exact iff_of_false (by rintro ⟨⟩) fun h => h hsol
  · have hgo : ¬ isNativeSOL request.currency = true := fun h => hsol ((isNativeSOL_iff _).mp h)
    have hasked := hquoted
    rw [quotedToken, if_neg hsol] at hasked
    simp only [Option.bind_eq_bind, Option.bind_eq_some_iff, Option.pure_def,
      Option.some.injEq] at hasked
    obtain ⟨mint, ⟨mintText, hmintText, hmint⟩, expected, hexpected, rfl⟩ := hasked
    rw [ChargeClient.buildPayment, if_neg hgo] at hpayment
    obtain ⟨mint', program, payer, hresolved, hprogram, hpayer', hsupported, rfl⟩ :=
      lines_of_token hdoc hdue hpayment
    obtain rfl := payerOf_eq hfee hpayer'
    obtain rfl : mint = mint' := by
      rw [resolveMint_eq hmintText, Bytes.fromBase58_eq_some.mp hmint] at hresolved
      exact Option.some.inj ((Bytes.fromBase58_toBase58 mint).symm.trans
        (Bytes.fromBase58_eq_some.mpr hresolved))
    have hcompiled := hmessage ▸ hdoc.newMessage _ (feePayer.getD client.publicKey) blockhash
      (length_accountKeysOf (length_chargeLines (mapM_splitDue.mp hdue).length_eq hfew))
    refine (accepted_iff_of_compiled hdistinct htext hprimary hdue hfee hquoted
      (by rintro ⟨⟩) ?_ hopens hfew hmemos hcompiled).trans (acceptable_iff htext hfee ?_)
    · rintro _ ⟨⟩
      refine ⟨_, rfl, rfl, hsupported, resolveTokenProgram_eq_ok hexpected hprogram,
        fun decimals hdecimals => ?_⟩
      have hsome : details.decimals = some decimals := hdecimals
      rw [hsome]
      rfl
    · exact ⟨fun _ => hsol, fun _ => rfl⟩

end Build

namespace ChargeSample
open MppSdk.Sample

/-- A client with the key 3. -/
def client : ChargeClient where
  publicKey := key 3
  libraries := Mpp.Sample.libraries
  signTransaction _ := .ok [.replicate 64 0, .replicate 64 1]
  accountOwner _ := .ok none
  latestBlockhash := .ok (key 9)
  newMessage := compileMessage (fun _ _ => true) .legacy
  findProgramAddress := find
  transfer lamports source destination := .ok (.solTransfer source destination lamports)
  tokenTransferChecked amount decimals source mint destination owner :=
    .ok (.transferChecked programs.tokenKey source mint destination owner amount decimals)
  token2022TransferChecked amount decimals source mint destination owner :=
    .ok (.transferChecked programs.token2022Key source mint destination owner amount decimals)
  computeUnitPrice microLamports := .ok (.setComputeUnitPrice microLamports)
  computeUnitLimit units := .ok (.setComputeUnitLimit units)

theorem client_documented : client.Documented where
  newMessage := compileMessage_legacy
  transfer _ _ _ := rfl
  tokenTransferChecked _ _ _ _ _ _ := rfl
  token2022TransferChecked _ _ _ _ _ _ := rfl
  computeUnitPrice _ := rfl
  computeUnitLimit _ := rfl

/-- The sample charge in SOL, all of it for the recipient. -/
def solRequest : MppSdk.ChargeRequest := { request with currency := "sol" }

/-- Both sides agree on the charge in SOL. -/
theorem solCharge_accepted : ∃ tx, client.buildFor solRequest {} {} = .ok tx ∧
    verifyPreBroadcast find tx solRequest {} = .ok () := by
  have hpayable : Payable solRequest {} := ⟨1000, by decide +kernel, by decide +kernel⟩
  have hparties : chargeParties client.publicKey solRequest {} = [key 3, key 2] := by
    decide +kernel
  have hdistinct : DistinctAccounts find (chargeParties client.publicKey solRequest {}) := by
    have hnodup : [payerAta, recipientAta].Nodup := by decide +kernel
    rw [hparties]
    intro owner howner owner' howner' program mint
    have haccounts : ([key 3, key 2].map fun owner =>
        associatedTokenAddress find owner program mint).Nodup := hnodup
    exact fun heq => List.inj_on_of_nodup_map haccounts howner howner' heq
  have hbuilt : (client.buildFor solRequest {} {}).toOption.isSome := by decide +kernel
  obtain ⟨tx, htx⟩ := Option.isSome_iff_exists.mp hbuilt
  have htx : client.buildFor solRequest {} {} = .ok tx := toOption_eq_some.mp htx
  refine ⟨tx, htx, (goCharge_accepted_iff client client_documented solRequest {} {} tx hpayable
    hdistinct htx).mpr ⟨fun h => (nomatch h), by decide, by decide, Or.inl (by decide +kernel)⟩⟩

/-- In a token the client opens the recipient's account at the server's cost, and the server
refuses the transaction. -/
theorem tokenCharge_rejected : client.Documented ∧ Payable request details ∧
    DistinctAccounts find (chargeParties client.publicKey request details) ∧
    details.feePayerKey ≠ some client.publicKey.toBase58 ∧
    ∃ tx, client.buildFor request details {} = .ok tx ∧
      verifyPreBroadcast find tx request details ≠ .ok () := by
  have hpayable : Payable request details := ⟨900, by decide +kernel, by decide +kernel⟩
  have hbuilt : (client.buildFor request details {}).toOption.map (fun tx =>
      decide (verifyPreBroadcast find tx request details = .ok ())) = some false := by
    decide +kernel
  obtain ⟨tx, htx, hverify⟩ := Option.map_eq_some_iff.mp hbuilt
  exact ⟨client_documented, hpayable, distinctParties rfl, by decide +kernel, tx,
    toOption_eq_some.mp htx, of_decide_eq_false hverify⟩

end ChargeSample
end Go
end MppSdk
