import MppSdk.ChargeLines

/-! # The charge client

`client/charge.rs`: the client builds and signs the transaction that pays a charge.  The
server accepts what it builds unless a memo of the request is empty (`build_accepted_iff`):
the client writes an empty memo and the server expects none. -/

namespace MppSdk
open Sponsorship Matching

namespace ChargeClient

/-- The crate's errors, as far as the charge client returns them. -/
inductive Error : Type
  | rpc (message : String)
  | splitsExceedAmount
  | tooManySplits
  | other (message : String)
deriving DecidableEq, Repr

/-- A computation of the charge client. -/
abbrev Built : Type → Type := RustResult Error

/-- An answer from outside, its error mapped. -/
def mapAnswer {α : Type} (f : String → Error) : Except String α → Built α
  | .ok a => .ok a
  | .error e => .error (.error (f e))

@[simp] theorem mapAnswer_eq_ok {α : Type} {f : String → Error} {x : Except String α} {a : α} :
    mapAnswer f x = .ok a ↔ x = .ok a := by
  cases x <;> simp [mapAnswer]

end ChargeClient

open ChargeClient

/-- The signer and the node of a client, and what it takes from other crates. -/
structure ChargeClient where
  pubkey : Pubkey
  /-- `sign_message`, of the bytes of a message. -/
  signMessage : VersionedMessage → Except String Signature
  /-- The owner of the mint's account at the node. -/
  mintOwner : Pubkey → Except String Pubkey
  latestBlockhash : Except String Hash
  /-- `Message::new_with_blockhash`. -/
  newMessage : CompileMessage
  findProgramAddress : FindProgramAddress

/-- `push_memo_instruction`. -/
def pushMemoInstruction (instructions : List Instruction) (memo : Option String) :
    Built (List Instruction) :=
  match memo with
  | none => return instructions
  | some memo => do
      rejectIf ((utf8 memo).length > 566) (.other "memo cannot exceed 566 bytes")
      return instructions ++ [.memo memo]

/-- `Pubkey::from_str`, its error mapped. -/
def keyOf (text message : String) : Built Pubkey :=
  okOrElse (Bytes.fromBase58 32 text) (.other message)

/-- `build_sol_instructions`. -/
def buildSolInstructions (instructions : List Instruction) (signer recipient : Pubkey)
    (primaryAmount : UInt64) (externalId : Option String) (splits : List Split) :
    Built (List Instruction) := do
  let instructions := instructions ++ [.solTransfer signer recipient primaryAmount]
  let instructions ← pushMemoInstruction instructions externalId
  splits.foldlM (fun instructions split => do
    let splitRecipient ← keyOf split.recipient "Invalid split recipient"
    let splitAmount ← okOrElse (parseU64 split.amount)
      (.other s!"Invalid split amount: {split.amount}")
    let instructions := instructions ++ [.solTransfer signer splitRecipient splitAmount]
    pushMemoInstruction instructions split.memo) instructions

/-- The signatures of `Transaction::new_unsigned`. -/
def VersionedMessage.unsigned : VersionedMessage → List Signature
  | .legacy header _ | .v0 header _ _ =>
      List.replicate header.numRequiredSignatures.toNat (.replicate 64 0)

namespace ChargeClient
variable (client : ChargeClient)

/-- The token program that is asked for, or the one that owns the mint. -/
def programOf (mint : Pubkey) (details : MethodDetails) : Built Pubkey :=
  match details.tokenProgram with
  | some tokenProgram => keyOf tokenProgram "Invalid token program"
  | none => mapAnswer .rpc (client.mintOwner mint)

/-- `resolve_token_program`. -/
def resolveTokenProgram (mint : Pubkey) (details : MethodDetails) : Built Pubkey := do
  let tokenProgram ← client.programOf mint details
  rejectIf (tokenProgram.toBase58 ≠ programs.TOKEN_PROGRAM ∧
      tokenProgram.toBase58 ≠ programs.TOKEN_2022_PROGRAM)
    (.other s!"Unsupported token program: {tokenProgram.toBase58}")
  return tokenProgram

/-- `add_spl_transfer`. -/
def addSplTransfer (token : TokenUse) (payer : Pubkey) (instructions : List Instruction)
    (destOwner : Pubkey) (transferAmount : UInt64) (createAta : Bool) : List Instruction :=
  let find := client.findProgramAddress
  let sourceAta := associatedTokenAddress find client.pubkey token.program token.mint
  let destAta := associatedTokenAddress find destOwner token.program token.mint
  instructions ++
    (if createAta then
      [.createIdempotent payer destAta destOwner token.mint token.program] else []) ++
    [.transferChecked token.program sourceAta token.mint destAta client.pubkey transferAmount
      token.decimals]

/-- `build_spl_instructions`. -/
def buildSplInstructions (instructions : List Instruction) (recipient : Pubkey) (spl : String)
    (details : MethodDetails) (primaryAmount : UInt64) (externalId : Option String)
    (splits : List Split) (feePayer : Option Pubkey) : Built (List Instruction) := do
  let mint ← keyOf spl "Invalid mint"
  let tokenProgram ← client.resolveTokenProgram mint details
  let token : TokenUse := { mint, program := tokenProgram, decimals := details.decimals.getD 6 }
  let payer := feePayer.getD client.pubkey
  let instructions := client.addSplTransfer token payer instructions recipient primaryAmount false
  let instructions ← pushMemoInstruction instructions externalId
  splits.foldlM (fun instructions split => do
    let splitRecipient ← keyOf split.recipient "Invalid split recipient"
    let splitAmount ← okOrElse (parseU64 split.amount)
      (.other s!"Invalid split amount: {split.amount}")
    let instructions := client.addSplTransfer token payer instructions splitRecipient splitAmount
      (feePayer.isNone || split.ataCreationRequired = some true)
    pushMemoInstruction instructions split.memo) instructions

/-- The key of the fee payer that is asked for. -/
def feePayerOf (details : MethodDetails) : Built (Option Pubkey) :=
  match details.feePayerKey with
  | some key =>
      if details.feePayer.getD false then some <$> keyOf key "Invalid fee payer" else return none
  | none => return none

/-- The check that accounts are opened of a mint that is asked for as one. -/
def checkAtaCreation (mint : Option String) (currency : String) (splits : List Split) :
    Built Unit :=
  if requiresAta splits then do
    let mint ← okOrElse mint (.other "ataCreationRequired requires an SPL token charge")
    rejectIf (mint ≠ currency)
      (.other "ataCreationRequired requires currency to be an SPL token mint address")
  else return

/-- The instructions of a charge in a token, or in SOL. -/
def buildPayment (instructions : List Instruction) (mint : Option String) (recipient : Pubkey)
    (details : MethodDetails) (primaryAmount : UInt64) (externalId : Option String)
    (splits : List Split) (feePayer : Option Pubkey) : Built (List Instruction) :=
  match mint with
  | some mint =>
      client.buildSplInstructions instructions recipient mint details primaryAmount externalId
        splits feePayer
  | none =>
      buildSolInstructions instructions client.pubkey recipient primaryAmount externalId splits

/-- The blockhash of the request, or the latest one. -/
def blockhashOf (details : MethodDetails) : Built Hash :=
  match details.recentBlockhash with
  | some text => okOrElse (Bytes.fromBase58 32 text) (.other "Invalid blockhash")
  | none => mapAnswer .rpc client.latestBlockhash

/-- `build_charge_transaction_with_options`, up to the bytes of the transaction. -/
def buildChargeTransaction (amount currency recipient : String) (details : MethodDetails)
    (externalId : Option String) : Built VersionedTransaction := do
  let totalAmount ← okOrElse (parseU64 amount) (.other s!"Invalid amount: {amount}")
  let splits := details.splitList
  rejectIf (splits.length > 8) .tooManySplits
  rejectIf (totalAmount < splitsTotal splits) .splitsExceedAmount
  let primaryAmount := totalAmount - splitsTotal splits
  rejectIf (primaryAmount = 0) .splitsExceedAmount
  let recipientPubkey ← keyOf recipient "Invalid recipient"
  let feePayerPubkey ← feePayerOf details
  let instructions := [.setComputeUnitPrice 1, .setComputeUnitLimit 200000]
  let mint := resolveStablecoinMint currency details.network
  checkAtaCreation mint currency splits
  let instructions ← client.buildPayment instructions mint recipientPubkey details primaryAmount
    externalId splits feePayerPubkey
  let blockhash ← client.blockhashOf details
  let message := client.newMessage instructions (feePayerPubkey.getD client.pubkey) blockhash
  let signature ← mapAnswer (fun e => .other s!"Signing failed: {e}") (client.signMessage message)
  rejectIf (client.pubkey ∉ message.staticAccountKeys)
    (.other "Signer not found in transaction accounts")
  let signerIndex := message.staticAccountKeys.idxOf client.pubkey
  if signerIndex < message.unsigned.length then
    return { signatures := message.unsigned.set signerIndex signature, message }
  else .error (.panic "index out of bounds")

end ChargeClient

/-! ## The lines the client builds -/

/-- The policy of the client: it opens the accounts of the splits that ask for it, and where
nobody else pays the fee those of all splits; it writes every memo. -/
def clientPolicy (feePayer : Option Pubkey) : ChargePolicy where
  opensRecipient := false
  opensSplit split := feePayer.isNone || split.ataCreationRequired = some true
  memoOf memo := memo

theorem clientPolicy_sound (feePayer : Option Pubkey) : (clientPolicy feePayer).Sound := by
  refine ⟨fun split hsplit => ?_, fun memo => rfl⟩
  simp only [clientPolicy, hsplit, decide_true, Bool.or_true]

section Build
variable {client : ChargeClient} {before after : List Instruction} {memo : Option String}
  {request : ChargeRequest} {details : MethodDetails} {recipient : Pubkey} {primary : UInt64}
  {externalId : Option String} {splits : List Split} {feePayer : Option Pubkey}

theorem keyOf_eq_ok {text message : String} {key : Pubkey} :
    keyOf text message = .ok key ↔ text = key.toBase58 := by
  rw [keyOf, okOrElse_eq_ok, Bytes.fromBase58_eq_some]

theorem pushMemo_eq_ok : pushMemoInstruction before memo = .ok after ↔
    (∀ text ∈ memo, (utf8 text).length ≤ 566) ∧
      after = before ++ memo.toList.map Instruction.memo := by
  rcases memo with _ | text
  · constructor
    · intro h
      obtain rfl : before = after := by cases h; rfl
      exact ⟨fun text h => (nomatch h), (List.append_nil before).symm⟩
    · rintro ⟨-, rfl⟩
      exact congrArg Except.ok (List.append_nil before).symm
  · simp only [pushMemoInstruction, bind_eq_ok, rejectIf_eq_ok, Nat.not_lt]
    constructor
    · rintro ⟨-, hlength, h⟩
      obtain rfl : before ++ [.memo text] = after := by cases h; rfl
      refine ⟨?_, rfl⟩
      rintro _ ⟨⟩
      exact hlength
    · rintro ⟨hlength, rfl⟩
      exact ⟨(), hlength text rfl, rfl⟩

/-- A charge in SOL is built of lines. -/
theorem lines_of_sol (client : ChargeClient) {signer : Pubkey} (payer : Pubkey)
    (feePayer : Option Pubkey)
    (h : buildSolInstructions before signer recipient primary externalId splits = .ok after) :
    ∃ due, splits.mapM splitDue = some due ∧
      (∀ text ∈ externalId, (utf8 text).length ≤ 566) ∧
      (∀ split ∈ splits, ∀ text ∈ split.memo, (utf8 text).length ≤ 566) ∧
      after = before ++ (chargeLines (clientPolicy feePayer) recipient primary externalId due
        splits).flatMap fun line =>
          line.instructions client.findProgramAddress signer payer none := by
  simp only [buildSolInstructions, bind_eq_ok, pushMemo_eq_ok] at h
  obtain ⟨first, ⟨hexternal, rfl⟩, h⟩ := h
  have hrounds := lines_of_foldlM client.findProgramAddress signer payer none
    (fun payout split => ⟨payout.1, payout.2, (clientPolicy feePayer).opensSplit split, "split",
      split.memo⟩) (fun split => ∀ text ∈ split.memo, (utf8 text).length ≤ 566) (by
      intro split _ before after h
      simp only [bind_eq_ok, keyOf_eq_ok, okOrElse_eq_ok, pushMemo_eq_ok] at h
      obtain ⟨owner, howner, amount, hamount, hmemo, rfl⟩ := h
      refine ⟨(owner, amount), splitDue_eq_some.mpr ⟨howner, hamount⟩, hmemo, ?_⟩
      rw [List.append_assoc]
      rfl) h
  obtain ⟨due, hdue, hmemos, rfl⟩ := hrounds
  refine ⟨due, hdue, hexternal, hmemos, ?_⟩
  rw [chargeLines, List.flatMap_cons]
  simp only [PaymentLine.instructions, PaymentLine.opening, PaymentLine.transfer, clientPolicy,
    List.nil_append, List.append_assoc, List.cons_append]

/-- A charge in a token is built of lines. -/
theorem lines_of_spl {spl : String}
    (h : client.buildSplInstructions before recipient spl details primary externalId splits
      feePayer = .ok after) :
    ∃ mint program : Pubkey, spl = mint.toBase58 ∧
      client.resolveTokenProgram mint details = .ok program ∧
    ∃ due, splits.mapM splitDue = some due ∧
      (∀ text ∈ externalId, (utf8 text).length ≤ 566) ∧
      (∀ split ∈ splits, ∀ text ∈ split.memo, (utf8 text).length ≤ 566) ∧
      after = before ++ (chargeLines (clientPolicy feePayer) recipient primary externalId due
        splits).flatMap fun line =>
          line.instructions client.findProgramAddress client.pubkey
            (feePayer.getD client.pubkey) (some ⟨mint, program, details.decimals.getD 6⟩) := by
  simp only [ChargeClient.buildSplInstructions, bind_eq_ok, pushMemo_eq_ok, keyOf_eq_ok] at h
  obtain ⟨mint, hmint, program, hprogram, first, ⟨hexternal, rfl⟩, h⟩ := h
  have hrounds := lines_of_foldlM client.findProgramAddress client.pubkey
    (feePayer.getD client.pubkey) (some ⟨mint, program, details.decimals.getD 6⟩)
    (fun payout split => ⟨payout.1, payout.2, (clientPolicy feePayer).opensSplit split, "split",
      split.memo⟩) (fun split => ∀ text ∈ split.memo, (utf8 text).length ≤ 566) (by
      intro split _ before after h
      simp only [bind_eq_ok, keyOf_eq_ok, okOrElse_eq_ok, pushMemo_eq_ok] at h
      obtain ⟨owner, howner, amount, hamount, hmemo, rfl⟩ := h
      refine ⟨(owner, amount), splitDue_eq_some.mpr ⟨howner, hamount⟩, hmemo, ?_⟩
      simp only [ChargeClient.addSplTransfer, PaymentLine.instructions, PaymentLine.opening,
        PaymentLine.transfer, clientPolicy, List.append_assoc, List.cons_append,
        List.nil_append]
      rfl) h
  obtain ⟨due, hdue, hmemos, rfl⟩ := hrounds
  refine ⟨mint, program, hmint, hprogram, due, hdue, hexternal, hmemos, ?_⟩
  rw [chargeLines, List.flatMap_cons]
  simp only [PaymentLine.instructions, PaymentLine.opening, PaymentLine.transfer, clientPolicy,
    ChargeClient.addSplTransfer, Bool.false_eq_true, if_false, List.append_nil,
    List.nil_append, List.append_assoc, List.cons_append]

theorem feePayerOf_eq_ok (hfee : details.feePayer.getD false = true →
      ∃ key, details.feePayerKey = some key ∧ key ≠ client.pubkey.toBase58)
    (h : feePayerOf details = .ok feePayer) :
    quotedFeePayer details = some feePayer ∧ ∀ key ∈ feePayer,
      details.feePayerKey.bind (Bytes.fromBase58 32) = some key ∧ key ≠ client.pubkey := by
  unfold feePayerOf at h
  unfold quotedFeePayer
  by_cases hasked : details.feePayer.getD false = true
  · obtain ⟨text, htext, hne⟩ := hfee hasked
    rw [htext] at h
    simp only [hasked, if_true] at h
    rcases hkey : keyOf text "Invalid fee payer" with e | key
    · rw [hkey] at h
      cases h
    · rw [hkey] at h
      obtain rfl : some key = feePayer := by cases h; rfl
      have hread : Bytes.fromBase58 32 text = some key :=
        Bytes.fromBase58_eq_some.mpr (keyOf_eq_ok.mp hkey)
      have hnot : ¬ details.feePayer.getD false = false := by simp [hasked]
      rw [if_neg hnot, htext]
      refine ⟨by rw [Option.bind_some, hread]; rfl, ?_⟩
      rintro _ ⟨⟩
      refine ⟨hread, ?_⟩
      rintro rfl
      exact hne (keyOf_eq_ok.mp hkey)
  · have hnot : details.feePayer.getD false = false := Bool.not_eq_true _ ▸ hasked
    have hnone : feePayer = none := by
      rcases htext : details.feePayerKey with _ | text <;> rw [htext] at h
      · cases h
        rfl
      · simp only [hnot, Bool.false_eq_true, if_false] at h
        cases h
        rfl
    subst hnone
    exact ⟨if_pos hnot, fun key hkey => nomatch hkey⟩

theorem checkAtaCreation_eq_ok {mint : Option String} {currency : String} {u : Unit}
    (h : checkAtaCreation mint currency splits = .ok u) :
    requiresAta splits → mint = some currency := by
  intro hata
  rw [checkAtaCreation, if_pos hata] at h
  simp only [bind_eq_ok, okOrElse_eq_ok, rejectIf_eq_ok, not_not] at h
  obtain ⟨text, htext, rfl⟩ := h
  exact htext

/-- The token program is one of the two, and the one that is asked for. -/
theorem resolveTokenProgram_eq_ok {mint program : Pubkey}
    (h : client.resolveTokenProgram mint details = .ok program) :
    (program = programs.tokenKey ∨ program = programs.token2022Key) ∧
      ∃ expected, quotedProgram details = some expected ∧ ∀ key ∈ expected, program = key := by
  simp only [ChargeClient.resolveTokenProgram, bind_eq_ok, rejectIf_eq_ok] at h
  obtain ⟨found, hfound, -, hsupported, h⟩ := h
  obtain rfl : found = program := by cases h; rfl
  have htext : found.toBase58 = programs.TOKEN_PROGRAM ∨
      found.toBase58 = programs.TOKEN_2022_PROGRAM := by
    by_cases htoken : found.toBase58 = programs.TOKEN_PROGRAM
    · exact Or.inl htoken
    · exact Or.inr (not_not.mp fun hne => hsupported ⟨htoken, hne⟩)
  refine ⟨htext.imp pubkeyOf_eq_iff.mp pubkeyOf_eq_iff.mp, ?_⟩
  unfold ChargeClient.programOf at hfound
  unfold quotedProgram
  rcases hasked : details.tokenProgram with _ | text
  · exact ⟨none, rfl, fun key hkey => nomatch hkey⟩
  · rw [hasked] at hfound
    obtain rfl := keyOf_eq_ok.mp hfound
    refine ⟨some found, ?_, ?_⟩
    · show (if _ then _ else _) = _
      rw [if_pos htext, Bytes.fromBase58_toBase58]
      rfl
    · rintro _ ⟨⟩
      rfl

/-! ## Agreement -/

/-- **What the client builds, the server accepts**, unless the request has an empty memo: the
client writes it, and the server expects none. -/
theorem build_accepted_iff (client : ChargeClient) (request : ChargeRequest)
    (details : MethodDetails) (recipient : String) (tx : VersionedTransaction)
    (hrecipient : request.recipient = some recipient) (hcompile : client.newMessage.Documented)
    (hdistinct : DistinctAccounts client.findProgramAddress
      (chargeParties client.pubkey request details))
    (hfee : details.feePayer.getD false = true →
      ∃ key, details.feePayerKey = some key ∧ key ≠ client.pubkey.toBase58)
    (hbuilt : client.buildChargeTransaction request.amount request.currency recipient details
      request.externalId = .ok tx) :
    verifyPreBroadcast client.findProgramAddress tx request details = .ok () ↔
      request.externalId ≠ some "" ∧ ∀ split ∈ details.splitList, split.memo ≠ some "" := by
  simp only [ChargeClient.buildChargeTransaction, bind_eq_ok, rejectIf_eq_ok, okOrElse_eq_ok,
    keyOf_eq_ok, mapAnswer_eq_ok] at hbuilt
  obtain ⟨total, htotal, -, hlength, -, hle, -, hpositive, key, hkey, feePayer, hpayer, _, hata,
    instructions, hpayment, blockhash, -, signature, -, -, -, hbuilt⟩ := hbuilt
  have hmessage : tx.message = client.newMessage instructions (feePayer.getD client.pubkey)
      blockhash := by
    split at hbuilt
    · cases hbuilt
      rfl
    · cases hbuilt
  obtain ⟨hquoted, hpayer⟩ := feePayerOf_eq_ok hfee hpayer
  have hprimary : primaryAmount request details.splitList =
      .ok (total - splitsTotal details.splitList) := by
    simp only [primaryAmount, bind_eq_ok, okOrElse_eq_ok, rejectIf_eq_ok]
    exact ⟨total, htotal, (), hle, (), hpositive, rfl⟩
  have hrecipient' : request.recipient = some key.toBase58 := by rw [hrecipient, hkey]
  have hsplit : ∀ split, (clientPolicy feePayer).opensSplit split = true →
      feePayer = none ∨ split.ataCreationRequired = some true := by
    intro split h
    rcases Bool.or_eq_true_iff.mp h with h | h
    · exact Or.inl (Option.isNone_iff_eq_none.mp h)
    · exact Or.inr (of_decide_eq_true h)
  rcases hmint : resolveStablecoinMint request.currency details.network with _ | spl
  · rw [hmint] at hpayment hata
    obtain ⟨due, hdue, hexternal, hmemos, rfl⟩ :=
      lines_of_sol client (feePayer.getD client.pubkey) feePayer hpayment
    exact ChargeBuild.accepted_iff_memos {
      policy := clientPolicy feePayer
      recipient := key
      primary := total - splitsTotal details.splitList
      due
      feePayer
      quoted := none
      token := none
      microLamports := 1
      units := 200000
      recipient_eq := hrecipient'
      primary_eq := hprimary
      due_eq := hdue
      feePayer_eq := hquoted
      feePayer_ne := fun key hkey => (hpayer key hkey).2
      quoted_eq := if_pos (resolveStablecoinMint_eq_none.mp hmint)
      lamports := fun _ => rfl
      tokens := fun mint hmint => nomatch hmint
      opens := fun h => nomatch checkAtaCreation_eq_ok hata h
      fewSplits := Nat.le_of_not_lt hlength
      memos := length_of_expectedMemos
        (fun text h => hexternal text (mem_of_mem_nonEmpty h))
        (fun split hsplit text h => hmemos split hsplit text (mem_of_mem_nonEmpty h))
      sound := clientPolicy_sound feePayer
      price := by decide
      limit := by decide
      compiled := hmessage ▸ hcompile _ _ _ (length_accountKeysOf (length_chargeLines
        (mapM_splitDue.mp hdue).length_eq (Nat.le_of_not_lt hlength))) } hdistinct rfl hsplit
  · rw [hmint] at hpayment hata
    obtain ⟨mint, program, rfl, hprogram, due, hdue, hexternal, hmemos, rfl⟩ :=
      lines_of_spl hpayment
    obtain ⟨hsupported, expected, hexpected, hsame⟩ := resolveTokenProgram_eq_ok hprogram
    exact ChargeBuild.accepted_iff_memos {
      policy := clientPolicy feePayer
      recipient := key
      primary := total - splitsTotal details.splitList
      due
      feePayer
      quoted := some ⟨mint, expected, details.decimals⟩
      token := some ⟨mint, program, details.decimals.getD 6⟩
      microLamports := 1
      units := 200000
      recipient_eq := hrecipient'
      primary_eq := hprimary
      due_eq := hdue
      feePayer_eq := hquoted
      feePayer_ne := fun key hkey => (hpayer key hkey).2
      quoted_eq := quotedToken_of_mint hmint hexpected
      lamports := fun h => nomatch h
      tokens := by
        rintro _ ⟨⟩
        refine ⟨_, rfl, rfl, hsupported, hsame, fun decimals hdecimals => ?_⟩
        have hsome : details.decimals = some decimals := hdecimals
        rw [hsome]
        rfl
      opens := fun h => ⟨_, rfl, (Option.some.inj (checkAtaCreation_eq_ok hata h)).symm⟩
      fewSplits := Nat.le_of_not_lt hlength
      memos := length_of_expectedMemos
        (fun text h => hexternal text (mem_of_mem_nonEmpty h))
        (fun split hsplit text h => hmemos split hsplit text (mem_of_mem_nonEmpty h))
      sound := clientPolicy_sound feePayer
      price := by decide
      limit := by decide
      compiled := hmessage ▸ hcompile _ _ _ (length_accountKeysOf (length_chargeLines
        (mapM_splitDue.mp hdue).length_eq (Nat.le_of_not_lt hlength))) } hdistinct rfl hsplit

end Build

namespace Sample

/-- A client with the key 3. -/
def chargeClient : ChargeClient where
  pubkey := key 3
  signMessage _ := .ok (.replicate 64 1)
  mintOwner _ := .error "no account"
  latestBlockhash := .ok (key 9)
  newMessage := compileMessage bytesBefore .legacy
  findProgramAddress := find

/-- The sample charge without a text for its external id. -/
def emptyMemoRequest : ChargeRequest := { request with externalId := some "" }

/-- What the client builds for a charge of the recipient 2. -/
def built (request : ChargeRequest) : Built VersionedTransaction :=
  chargeClient.buildChargeTransaction request.amount request.currency (key 2).toBase58 details
    request.externalId

/-- The client and the server agree on the sample charge. -/
theorem built_accepted : ∃ tx, built request = .ok tx ∧
    verifyPreBroadcast find tx request details = .ok () := by
  have hbuilt : (built request).toOption.isSome := by decide +kernel
  obtain ⟨tx, htx⟩ := Option.isSome_iff_exists.mp hbuilt
  have htx : built request = .ok tx := toOption_eq_some.mp htx
  refine ⟨tx, htx, (build_accepted_iff chargeClient request details (key 2).toBase58 tx rfl
    compileMessage_legacy (distinctParties rfl) ?_ htx).mpr ⟨by decide, by decide⟩⟩
  intro _
  exact ⟨(key 1).toBase58, rfl, by decide +kernel⟩

/-- An empty external id is written as a memo, which the server does not let through. -/
theorem emptyMemo_rejected : chargeClient.newMessage.Documented ∧
    DistinctAccounts find (chargeParties chargeClient.pubkey emptyMemoRequest details) ∧
    (∃ key, details.feePayerKey = some key ∧ key ≠ chargeClient.pubkey.toBase58) ∧
    ∃ tx, built emptyMemoRequest = .ok tx ∧
      verifyPreBroadcast find tx emptyMemoRequest details =
        .error (.error (.invalidPayload "Unexpected Memo Program instruction in payment transaction")) := by
  have hbuilt : (built emptyMemoRequest).toOption.map (fun tx =>
      verifyPreBroadcast find tx emptyMemoRequest details) =
        some (.error (.error (.invalidPayload
          "Unexpected Memo Program instruction in payment transaction"))) := by decide +kernel
  obtain ⟨tx, htx, hverify⟩ := Option.map_eq_some_iff.mp hbuilt
  exact ⟨compileMessage_legacy, distinctParties rfl, ⟨(key 1).toBase58, rfl, by decide +kernel⟩,
    tx, toOption_eq_some.mp htx, hverify⟩

end Sample
end MppSdk
