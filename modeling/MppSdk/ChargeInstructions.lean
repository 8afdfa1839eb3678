import MppSdk.ExactPayment
import MppSdk.PaymentChannels

/-! # The instructions of a charge

What clients in any language put into the transaction of a charge: the compute budget, and for
each payout a transfer, possibly after an instruction that opens the recipient's token account
and before one with a memo (`PaymentLine`).  `verify_lines_iff` says when the server accepts
such a transaction: if it opens accounts of allowed owners only, and no memo is empty. -/

namespace MppSdk
open Sponsorship Matching

/-! ## Instructions and their compiled forms -/

namespace Instruction

/-- `SetComputeUnitPrice`. -/
def setComputeUnitPrice (microLamports : UInt64) : Instruction where
  programId := programs.computeBudgetKey
  accounts := []
  data := 3 :: leBytes 8 microLamports.toNat

/-- `SetComputeUnitLimit`. -/
def setComputeUnitLimit (units : UInt32) : Instruction where
  programId := programs.computeBudgetKey
  accounts := []
  data := 2 :: leBytes 4 units.toNat

/-- `Transfer` of the System Program. -/
def solTransfer (source destination : Pubkey) (lamports : UInt64) : Instruction where
  programId := programs.systemKey
  accounts := [.new source true, .new destination false]
  data := leBytes 4 2 ++ leBytes 8 lamports.toNat

/-- `TransferChecked` of a token program. -/
def transferChecked (program source mint destination authority : Pubkey) (amount : UInt64)
    (decimals : UInt8) : Instruction where
  programId := program
  accounts := [.new source false, .newReadonly mint false, .new destination false,
    .newReadonly authority true]
  data := 12 :: (leBytes 8 amount.toNat ++ [decimals])

/-- `CreateIdempotent` of the Associated Token Program. -/
def createIdempotent (payer account owner mint program : Pubkey) : Instruction where
  programId := programs.associatedTokenKey
  accounts := [.new payer true, .new account false, .newReadonly owner false,
    .newReadonly mint false, .newReadonly programs.systemKey false, .newReadonly program false]
  data := [1]

/-- A memo. -/
def memo (text : String) : Instruction where
  programId := programs.memoKey
  accounts := []
  data := utf8 text

/-- The compiled instruction calls the program with the accounts and the data of the
instruction. -/
structure Resolves (keys : List Pubkey) (i : Instruction) (ix : CompiledInstruction) : Prop where
  program : keys[ix.programIdIndex.toNat]? = some i.programId
  accounts : ix.accounts.map (fun index => keys[index.toNat]?) =
    i.accounts.map fun account => some account.pubkey
  data : ix.data = i.data

end Instruction

/-- The message is compiled from the instructions: its first account is the payer, it uses no
table, and it has the instructions in their order. -/
structure Compiles (payer : Pubkey) (instructions : List Instruction) (message : VersionedMessage) :
    Prop where
  noLookups : ∀ lookups ∈ message.addressTableLookups, lookups = []
  first : message.staticAccountKeys.head? = some payer
  resolves : List.Forall₂ (Instruction.Resolves message.staticAccountKeys) instructions
    message.instructions

/-- The payer and every account and program of the instructions, with repetitions. -/
def accountKeysOf (payer : Pubkey) (instructions : List Instruction) : List Pubkey :=
  payer :: instructions.flatMap fun i => i.programId :: i.accounts.map AccountMeta.pubkey

/-- What makes a message from instructions, a payer and a recent blockhash. -/
abbrev CompileMessage : Type := List Instruction → Pubkey → Hash → VersionedMessage

/-- What is documented of it: the message is compiled from the instructions, as long as an
index of eight bits can be had for every account. -/
def CompileMessage.Documented (compile : CompileMessage) : Prop :=
  ∀ instructions payer blockhash, (accountKeysOf payer instructions).length ≤ 256 →
    Compiles payer instructions (compile instructions payer blockhash)

section Resolves
variable {keys : List Pubkey} {ix : CompiledInstruction}

theorem isBudget_of_price {microLamports : UInt64}
    (h : (Instruction.setComputeUnitPrice microLamports).Resolves keys ix)
    (hmax : microLamports.toNat ≤ MAX_COMPUTE_UNIT_PRICE_MICROLAMPORTS) : ix.IsBudget keys := by
  refine ⟨⟨_, List.mem_singleton.mpr rfl, h.program⟩, ?_, Or.inr ⟨_, hmax, h.data⟩⟩
  exact List.map_eq_nil_iff.mp h.accounts

theorem isBudget_of_limit {units : UInt32}
    (h : (Instruction.setComputeUnitLimit units).Resolves keys ix)
    (hmax : units.toNat ≤ MAX_COMPUTE_UNIT_LIMIT) : ix.IsBudget keys := by
  refine ⟨⟨_, List.mem_singleton.mpr rfl, h.program⟩, ?_, Or.inl ⟨_, hmax, h.data⟩⟩
  exact List.map_eq_nil_iff.mp h.accounts

theorem effect_of_memo {text : String} (h : (Instruction.memo text).Resolves keys ix) :
    ix.effect keys = .memo (utf8 text) :=
  CompiledInstruction.effect_eq_memo.mpr ⟨h.program, h.data⟩

theorem effect_of_solTransfer {source destination : Pubkey} {lamports : UInt64}
    (h : (Instruction.solTransfer source destination lamports).Resolves keys ix) :
    ix.effect keys = .transfer source destination lamports.toNat := by
  refine CompiledInstruction.effect_eq_transfer.mpr ⟨h.program, ?_⟩
  obtain ⟨a, b, haccounts, ha, hb⟩ : ∃ a b, ix.accounts = [a, b] ∧
      keys[a.toNat]? = some source ∧ keys[b.toNat]? = some destination := by
    have hkeys := h.accounts
    rcases haccounts : ix.accounts with _ | ⟨a, _ | ⟨b, _ | ⟨c, rest⟩⟩⟩ <;> rw [haccounts] at hkeys
    · cases hkeys
    · simp [Instruction.solTransfer] at hkeys
    · simp only [Instruction.solTransfer, AccountMeta.new, List.map_cons, List.map_nil,
        List.cons.injEq, and_true] at hkeys
      exact ⟨a, b, rfl, hkeys.1, hkeys.2⟩
    · simp [Instruction.solTransfer] at hkeys
  have hdata : ix.data = leBytes 4 2 ++ leBytes 8 lamports.toNat := h.data
  have hread : fromLeBytes (leBytes 8 lamports.toNat) = lamports.toNat :=
    fromLeBytes_leBytes_of_lt lamports.toNat_lt
  have htag : 12 ≤ ix.data.length ∧ fromLeBytes (ix.data.take 4) = 2 := by
    rw [hdata, List.take_left' (leBytes_length 4 2)]
    refine ⟨?_, by decide⟩
    rw [List.length_append, leBytes_length, leBytes_length]
  unfold systemEffect
  rw [if_pos htag, haccounts]
  simp only [ha, hb]
  rw [hdata, List.drop_left' (leBytes_length 4 2), List.take_of_length_le (by simp), hread]

theorem effect_of_transferChecked {program source mint destination authority : Pubkey}
    {amount : UInt64} {decimals : UInt8}
    (hprogram : program = programs.tokenKey ∨ program = programs.token2022Key)
    (h : (Instruction.transferChecked program source mint destination authority amount
      decimals).Resolves keys ix) :
    ix.effect keys =
      .tokenTransfer program source mint destination authority amount.toNat decimals := by
  refine CompiledInstruction.effect_eq_tokenTransfer.mpr ⟨h.program, hprogram, ?_⟩
  obtain ⟨a, b, c, d, haccounts, ha, hb, hc, hd⟩ : ∃ a b c d, ix.accounts = [a, b, c, d] ∧
      keys[a.toNat]? = some source ∧ keys[b.toNat]? = some mint ∧
      keys[c.toNat]? = some destination ∧ keys[d.toNat]? = some authority := by
    have hkeys := h.accounts
    rcases haccounts : ix.accounts with _ | ⟨a, _ | ⟨b, _ | ⟨c, _ | ⟨d, _ | ⟨e, rest⟩⟩⟩⟩⟩ <;>
      rw [haccounts] at hkeys
    case cons.cons.cons.cons.nil =>
      simp only [Instruction.transferChecked, AccountMeta.new, AccountMeta.newReadonly,
        List.map_cons, List.map_nil, List.cons.injEq, and_true] at hkeys
      exact ⟨a, b, c, d, rfl, hkeys.1, hkeys.2.1, hkeys.2.2.1, hkeys.2.2.2⟩
    all_goals simp [Instruction.transferChecked] at hkeys
  have hdata : ix.data = 12 :: (leBytes 8 amount.toNat ++ [decimals]) := h.data
  have hread : fromLeBytes (leBytes 8 amount.toNat) = amount.toNat :=
    fromLeBytes_leBytes_of_lt amount.toNat_lt
  have hdecimals : (leBytes 8 amount.toNat ++ [decimals])[8]? = some decimals := by
    rw [List.getElem?_append_right (by simp), leBytes_length]
    rfl
  rw [haccounts, hdata]
  simp only [tokenEffect, ha, hb, hc, hd, hdecimals]
  rw [List.take_left' (leBytes_length 8 _), hread]

end Resolves

/-! ## The lines of a payment -/

/-- The token that a client pays with. -/
structure TokenUse where
  mint : Pubkey
  program : Pubkey
  decimals : UInt8

/-- A payout with what stands around its transfer: whether the recipient's account is opened
before it, and the memo after it. -/
structure PaymentLine where
  recipient : Pubkey
  amount : UInt64
  opens : Bool
  label : String
  memo : Option String

namespace PaymentLine
variable (find : FindProgramAddress) (signer payer : Pubkey) (token : Option TokenUse)
  (line : PaymentLine)

/-- The transfer of the line. -/
def transfer : Instruction :=
  match token with
  | none => .solTransfer signer line.recipient line.amount
  | some token => .transferChecked token.program
      (associatedTokenAddress find signer token.program token.mint) token.mint
      (associatedTokenAddress find line.recipient token.program token.mint) signer line.amount
      token.decimals

/-- The instruction that opens the recipient's account, if the line does. -/
def opening : List Instruction :=
  match token with
  | none => []
  | some token =>
      if line.opens then [.createIdempotent payer
        (associatedTokenAddress find line.recipient token.program token.mint) line.recipient
        token.mint token.program]
      else []

/-- The instructions of the line. -/
def instructions : List Instruction :=
  line.opening find payer token ++
    line.transfer find signer token :: line.memo.toList.map Instruction.memo

/-- The memo of the line with its label. -/
def labelled : Option (String × String) := line.memo.map fun memo => (line.label, memo)

end PaymentLine

/-- The instructions of a charge: the price and the limit of the compute budget, then the
lines. -/
def chargeInstructions (find : FindProgramAddress) (signer payer : Pubkey)
    (token : Option TokenUse) (microLamports : UInt64) (units : UInt32)
    (lines : List PaymentLine) : List Instruction :=
  .setComputeUnitPrice microLamports :: .setComputeUnitLimit units ::
    lines.flatMap fun line => line.instructions find signer payer token

/-- Nine lines have few enough accounts. -/
theorem length_accountKeysOf {find : FindProgramAddress} {signer payer : Pubkey}
    {token : Option TokenUse} {microLamports : UInt64} {units : UInt32}
    {lines : List PaymentLine} (h : lines.length ≤ 9) :
    (accountKeysOf payer (chargeInstructions find signer payer token microLamports units
      lines)).length ≤ 256 := by
  have hline : ∀ line : PaymentLine, ((line.instructions find signer payer token).flatMap
      fun i => i.programId :: i.accounts.map AccountMeta.pubkey).length ≤ 13 := by
    intro line
    rcases token with _ | token <;> rcases hmemo : line.memo with _ | memo <;>
      cases hopens : line.opens <;>
      simp [PaymentLine.instructions, PaymentLine.opening, PaymentLine.transfer, hmemo, hopens,
        Instruction.solTransfer, Instruction.transferChecked, Instruction.createIdempotent,
        Instruction.memo]
  have hlines : ∀ lines : List PaymentLine, ((lines.flatMap fun line =>
      line.instructions find signer payer token).flatMap
        fun i => i.programId :: i.accounts.map AccountMeta.pubkey).length ≤ 13 * lines.length := by
    intro lines
    induction lines with
    | nil => exact Nat.le_refl 0
    | cons line lines ih =>
      rw [List.flatMap_cons, List.flatMap_append, List.length_append, List.length_cons]
      have := hline line
      omega
  have := hlines lines
  simp only [accountKeysOf, chargeInstructions, List.flatMap_cons, List.length_cons,
    List.length_append, Instruction.setComputeUnitPrice, Instruction.setComputeUnitLimit,
    List.map_nil, List.length_nil]
  omega

/-- The signer pays with what the quote asks for, and not with the fee payer's funds. -/
structure Quote.PaidWith (find : FindProgramAddress) (q : Quote) (signer : Pubkey)
    (token : Option TokenUse) : Prop where
  lamports : q.token = none → token = none
  tokens : ∀ quoted ∈ q.token, ∃ use, token = some use ∧ use.mint = quoted.mint ∧
    (use.program = programs.tokenKey ∨ use.program = programs.token2022Key) ∧
    (∀ expected ∈ quoted.program, use.program = expected) ∧
    ∀ expected ∈ quoted.decimals, use.decimals = expected
  authority : q.feePayer ≠ some signer
  source : ∀ payer ∈ q.feePayer, ∀ program mint,
    associatedTokenAddress find signer program mint ≠ associatedTokenAddress find payer program mint

section Lines
variable {find : FindProgramAddress} {q : Quote} {signer payer : Pubkey} {token : Option TokenUse}
  {keys : List Pubkey} {line : PaymentLine} {ix : CompiledInstruction}

theorem fits_of_transfer (hpaid : q.PaidWith find signer token)
    (h : (line.transfer find signer token).Resolves keys ix) :
    q.Fits find keys (.payout line.recipient line.amount) ix := by
  rcases hquoted : q.token with _ | quoted
  · obtain rfl := hpaid.lamports hquoted
    simp only [Quote.Fits, hquoted]
    exact ⟨signer, effect_of_solTransfer h, hpaid.authority⟩
  · obtain ⟨use, rfl, hmint, hprogram, hexpected, hdecimals⟩ := hpaid.tokens quoted hquoted
    simp only [Quote.Fits, hquoted]
    refine ⟨use.program, _, signer, use.decimals, ?_, hprogram, hexpected, hdecimals,
      hpaid.authority, fun payer hpayer => hpaid.source payer hpayer _ _⟩
    rw [← hmint]
    exact effect_of_transferChecked hprogram h

theorem opens_of_create (hpaid : q.PaidWith find signer token) (hfirst : keys.head? = some payer)
    {use : TokenUse} (huse : token = some use) {owner : Pubkey}
    (h : (Instruction.createIdempotent payer
      (associatedTokenAddress find owner use.program use.mint) owner use.mint
      use.program).Resolves keys ix) : q.Opens find keys owner ix := by
  subst huse
  rcases hquoted : q.token with _ | quoted
  · cases hpaid.lamports hquoted
  · obtain ⟨use', huse, hmint, hprogram, hexpected, -⟩ := hpaid.tokens quoted hquoted
    obtain rfl := Option.some.inj huse
    refine ⟨⟨_, List.mem_singleton.mpr rfl, h.program⟩, h.data, quoted, hquoted, payer, hfirst,
      use.program, hprogram, hexpected, ?_⟩
    rw [← hmint]
    exact h.accounts

/-! ## Which line an instruction is of -/

namespace PaymentLine

/-- What the instructions of the line are there for. -/
def parts (find : FindProgramAddress) (payer : Pubkey) (token : Option TokenUse)
    (line : PaymentLine) : List (Option Demand) :=
  (line.opening find payer token).map (fun _ => none) ++
    some (.payout line.recipient line.amount) ::
      line.memo.toList.map fun memo => some (.memo line.label memo)

end PaymentLine

/-- The compiled form of the instruction is there for the demand, or is no payment. -/
def Serves (find : FindProgramAddress) (q : Quote) (keys : List Pubkey) (part : Option Demand)
    (i : Instruction) : Prop :=
  ∀ ix, i.Resolves keys ix →
    Covers (q.Fits find keys) (CompiledInstruction.IsPayment keys) part ix

theorem serves_line (hpaid : q.PaidWith find signer token) (hfirst : keys.head? = some payer) :
    List.Forall₂ (Serves find q keys) (line.parts find payer token)
      (line.instructions find signer payer token) := by
  refine List.rel_append ?_ (List.Forall₂.cons (fun ix h => fits_of_transfer hpaid h) ?_)
  · rw [List.forall₂_map_left_iff, List.forall₂_same]
    intro i hi ix h
    unfold PaymentLine.opening at hi
    split at hi
    · cases hi
    · split at hi
      · obtain rfl := List.mem_singleton.mp hi
        exact (opens_of_create hpaid hfirst rfl h).other.1
      · cases hi
  · rw [List.forall₂_map_left_iff, List.forall₂_map_right_iff, List.forall₂_same]
    intro memo _ ix h
    exact effect_of_memo h

theorem serves_lines (hpaid : q.PaidWith find signer token) (hfirst : keys.head? = some payer)
    {lines : List PaymentLine} :
    List.Forall₂ (Serves find q keys) (lines.flatMap fun line => line.parts find payer token)
      (lines.flatMap fun line => line.instructions find signer payer token) := by
  induction lines with
  | nil => exact List.Forall₂.nil
  | cons line lines ih => exact List.rel_append (serves_line hpaid hfirst) ih

/-- What the compute budget is set with is no payment. -/
theorem CompiledInstruction.IsBudget.other (h : ix.IsBudget keys) : ¬ ix.IsPayment keys := by
  rintro ⟨program, hmem, hcalls⟩
  obtain ⟨⟨program', hmem', hcalls'⟩, -⟩ := h
  obtain rfl := Option.some.inj (hcalls.symm.trans hcalls')
  obtain rfl := List.mem_singleton.mp hmem'
  obtain ⟨hmemo, hsystem, htoken, htoken2022, -⟩ := programs.computeBudgetKey_ne
  simp [hmemo, hsystem, htoken, htoken2022] at hmem

theorem serves_charge (hpaid : q.PaidWith find signer token) (hfirst : keys.head? = some payer)
    {lines : List PaymentLine} {microLamports : UInt64} {units : UInt32}
    (hprice : microLamports.toNat ≤ MAX_COMPUTE_UNIT_PRICE_MICROLAMPORTS)
    (hunits : units.toNat ≤ MAX_COMPUTE_UNIT_LIMIT) :
    List.Forall₂ (Serves find q keys)
      (none :: none :: lines.flatMap fun line => line.parts find payer token)
      (chargeInstructions find signer payer token microLamports units lines) := by
  refine List.Forall₂.cons ?_ (List.Forall₂.cons ?_ (serves_lines hpaid hfirst))
  · exact fun ix h => (isBudget_of_price h hprice).other
  · exact fun ix h => (isBudget_of_limit h hunits).other

/-- What the instructions are there for, their compiled forms are there for. -/
theorem covers_of_serves {parts : List (Option Demand)} {instructions : List Instruction}
    (h : List.Forall₂ (Serves find q keys) parts instructions) :
    ∀ {compiled : List CompiledInstruction},
      List.Forall₂ (Instruction.Resolves keys) instructions compiled →
      List.Forall₂ (Covers (q.Fits find keys) (CompiledInstruction.IsPayment keys)) parts
        compiled := by
  induction h with
  | nil =>
    intro compiled hresolves
    obtain rfl := List.forall₂_nil_left_iff.mp hresolves
    exact List.Forall₂.nil
  | cons hserves _ ih =>
    intro compiled hresolves
    obtain ⟨ix, rest, hix, hrest, rfl⟩ := List.forall₂_cons_left_iff.mp hresolves
    exact List.Forall₂.cons (hserves ix hix) (ih hrest)

/-- The demands of a line: its payout and its memo. -/
theorem PaymentLine.filterMap_parts : (line.parts find payer token).filterMap id =
    .payout line.recipient line.amount ::
      line.labelled.toList.map fun memo => .memo memo.1 memo.2 := by
  have hnone : ((line.opening find payer token).map
      (fun _ => (none : Option Demand))).filterMap id = [] := by
    rw [List.filterMap_map]
    exact List.filterMap_eq_nil_iff.mpr fun _ _ => rfl
  rw [parts, List.filterMap_append, hnone, List.nil_append]
  rcases hmemo : line.memo with _ | memo <;> simp [labelled, hmemo]

/-- The lines ask for what the quote asks for. -/
theorem perm_demands {lines : List PaymentLine}
    (hpayouts : lines.map (fun line => (line.recipient, line.amount)) = q.payouts)
    (hmemos : lines.filterMap PaymentLine.labelled = q.memos) :
    ((none :: none :: lines.flatMap fun line => line.parts find payer token).filterMap id).Perm
      q.demands := by
  have hparts : (none :: none :: lines.flatMap fun line => line.parts find payer token).filterMap
      id = lines.flatMap fun line => Demand.payout line.recipient line.amount ::
        line.labelled.toList.map fun memo => .memo memo.1 memo.2 := by
    rw [List.filterMap_cons_none rfl, List.filterMap_cons_none rfl, List.filterMap_flatMap]
    simp only [PaymentLine.filterMap_parts]
  have hnoted : (lines.filterMap PaymentLine.labelled).map (fun memo => Demand.memo memo.1 memo.2) =
      lines.flatMap fun line => line.labelled.toList.map fun memo => .memo memo.1 memo.2 := by
    rw [List.filterMap_eq_flatMap_toList, List.map_flatMap]
  rw [hparts, Quote.demands, ← hpayouts, ← hmemos, hnoted, List.map_map]
  exact (List.map_append_flatMap_perm lines _ _).symm

/-! ## What the server says -/

variable {tx : VersionedTransaction} {lines : List PaymentLine} {microLamports : UInt64}
  {units : UInt32}

/-- What is in the charge is in its transaction. -/
theorem exists_resolved {instructions : List Instruction} {compiled : List CompiledInstruction}
    (h : List.Forall₂ (Instruction.Resolves keys) instructions compiled) {i : Instruction}
    (hi : i ∈ instructions) : ∃ ix ∈ compiled, i.Resolves keys ix := by
  induction h with
  | nil => cases hi
  | cons hix _ ih =>
    rcases List.mem_cons.mp hi with rfl | hi
    · exact ⟨_, List.mem_cons_self, hix⟩
    · obtain ⟨ix, hmem, hresolves⟩ := ih hi
      exact ⟨ix, List.mem_cons_of_mem _ hmem, hresolves⟩

theorem mem_chargeInstructions {line : PaymentLine} (hline : line ∈ lines) {i : Instruction}
    (hi : i ∈ line.instructions find signer payer token) :
    i ∈ chargeInstructions find signer payer token microLamports units lines :=
  List.mem_cons_of_mem _ (List.mem_cons_of_mem _ (List.mem_flatMap.mpr ⟨line, hline, hi⟩))

/-- The account of a line that opens it is opened by the transaction. -/
theorem exists_opens (hpaid : q.PaidWith find signer token)
    (hcompiled : Compiles payer
      (chargeInstructions find signer payer token microLamports units lines) tx.message)
    {line : PaymentLine} (hline : line ∈ lines) (hopens : line.opens = true)
    (htoken : token.isSome) : ∃ ix ∈ tx.message.instructions,
      q.Opens find tx.message.staticAccountKeys line.recipient ix := by
  obtain ⟨use, rfl⟩ := Option.isSome_iff_exists.mp htoken
  have hmem : Instruction.createIdempotent payer
      (associatedTokenAddress find line.recipient use.program use.mint) line.recipient use.mint
      use.program ∈ line.instructions find signer payer (some use) := by
    refine List.mem_append_left _ ?_
    simp only [PaymentLine.opening, hopens, if_true, List.mem_singleton]
  obtain ⟨ix, hix, hresolves⟩ :=
    exists_resolved hcompiled.resolves (mem_chargeInstructions hline hmem)
  exact ⟨ix, hix, opens_of_create hpaid hcompiled.first rfl hresolves⟩

/-- What is not a payment in a charge is its compute budget, or opens the account of a line. -/
theorem other_of_covers (hpaid : q.PaidWith find signer token)
    (hprice : microLamports.toNat ≤ MAX_COMPUTE_UNIT_PRICE_MICROLAMPORTS)
    (hunits : units.toNat ≤ MAX_COMPUTE_UNIT_LIMIT)
    (hcompiled : Compiles payer
      (chargeInstructions find signer payer token microLamports units lines) tx.message)
    {ix : CompiledInstruction} (hix : ix ∈ tx.message.instructions) :
    ix.IsPayment tx.message.staticAccountKeys ∨ ix.IsBudget tx.message.staticAccountKeys ∨
      ∃ line ∈ lines, line.opens = true ∧ token.isSome ∧
        q.Opens find tx.message.staticAccountKeys line.recipient ix := by
  obtain ⟨i, hi, hresolves⟩ := exists_of_mem hcompiled.resolves ix hix
  rcases List.mem_cons.mp hi with rfl | hi
  · exact Or.inr (Or.inl (isBudget_of_price hresolves hprice))
  rcases List.mem_cons.mp hi with rfl | hi
  · exact Or.inr (Or.inl (isBudget_of_limit hresolves hunits))
  obtain ⟨line, hline, hi⟩ := List.mem_flatMap.mp hi
  rcases List.mem_append.mp hi with hi | hi
  · unfold PaymentLine.opening at hi
    split at hi
    · cases hi
    · rename_i use
      split at hi
      · rename_i hopens
        obtain rfl := List.mem_singleton.mp hi
        exact Or.inr (Or.inr ⟨line, hline, hopens, rfl,
          opens_of_create hpaid hcompiled.first rfl hresolves⟩)
      · cases hi
  rcases List.mem_cons.mp hi with rfl | hi
  · exact Or.inl (Quote.isPayment_of_fits (fits_of_transfer hpaid hresolves))
  · obtain ⟨memo, -, rfl⟩ := List.mem_map.mp hi
    have hfits : q.Fits find tx.message.staticAccountKeys (.memo line.label memo) ix :=
      effect_of_memo hresolves
    exact Or.inl (Quote.isPayment_of_fits hfits)

/-- A transaction of a charge pays the quote if no memo is empty and only accounts of allowed
owners are opened. -/
theorem paidBy_of_lines (hpaid : q.PaidWith find signer token)
    (hprice : microLamports.toNat ≤ MAX_COMPUTE_UNIT_PRICE_MICROLAMPORTS)
    (hunits : units.toNat ≤ MAX_COMPUTE_UNIT_LIMIT)
    (hcompiled : Compiles payer
      (chargeInstructions find signer payer token microLamports units lines) tx.message)
    (hfee : ∀ feePayer ∈ q.feePayer, feePayer = payer)
    (hpayouts : lines.map (fun line => (line.recipient, line.amount)) = q.payouts)
    (hmemos : lines.filterMap PaymentLine.labelled = q.memos)
    (hrequired : ∀ owner ∈ q.requiredOwners, token.isSome ∧
      ∃ line ∈ lines, line.recipient = owner ∧ line.opens = true)
    (hallowed : ∀ line ∈ lines, line.opens = true → token.isSome →
      line.recipient ∈ q.allowedOwners) : q.PaidBy find tx := by
  refine ⟨hcompiled.noLookups, ⟨payer, hcompiled.first, hfee⟩, ?_, ?_, ?_⟩
  · exact oneToOne_of_parts
      (covers_of_serves (serves_charge hpaid hcompiled.first hprice hunits) hcompiled.resolves)
      (perm_demands hpayouts hmemos)
  · intro ix hix
    rcases other_of_covers hpaid hprice hunits hcompiled hix with h | h | h
    · exact Or.inl h
    · exact Or.inr (Or.inl h)
    · obtain ⟨line, hline, hopens, htoken, h⟩ := h
      exact Or.inr (Or.inr ⟨line.recipient, hallowed line hline hopens htoken, h⟩)
  · intro owner howner
    obtain ⟨htoken, line, hline, rfl, hopens⟩ := hrequired owner howner
    exact exists_opens hpaid hcompiled hline hopens htoken

/-- **What a quote makes of a charge.**  It verifies exactly if every account that is opened is
one of an allowed owner, and no memo is empty: the quote asks for no empty memo. -/
theorem verify_lines_iff (hpaid : q.PaidWith find signer token)
    (hprice : microLamports.toNat ≤ MAX_COMPUTE_UNIT_PRICE_MICROLAMPORTS)
    (hunits : units.toNat ≤ MAX_COMPUTE_UNIT_LIMIT)
    (hcompiled : Compiles payer
      (chargeInstructions find signer payer token microLamports units lines) tx.message)
    (hfee : ∀ feePayer ∈ q.feePayer, feePayer = payer)
    (hpayouts : lines.map (fun line => (line.recipient, line.amount)) = q.payouts)
    (hmemos : (lines.filterMap PaymentLine.labelled).filter (fun memo => memo.2 ≠ "") = q.memos)
    (hlength : ∀ memo ∈ q.memos, (utf8 memo.2).length ≤ 566)
    (hdistinct : DistinctAccounts find (q.payouts.map Prod.fst))
    (hrequired : ∀ owner ∈ q.requiredOwners, token.isSome ∧
      ∃ line ∈ lines, line.recipient = owner ∧ line.opens = true) :
    q.verify find tx = .ok () ↔
      (∀ line ∈ lines, line.opens = true → token.isSome → line.recipient ∈ q.allowedOwners) ∧
      ∀ line ∈ lines, line.memo ≠ some "" := by
  constructor
  · intro h
    have hpays := Quote.paidBy_of_verify hcompiled.noLookups hcompiled.first hfee h
    constructor
    · intro line hline hopens htoken
      obtain ⟨ix, hix, hopened⟩ := exists_opens hpaid hcompiled hline hopens htoken
      rcases hpays.others ix hix with hpayment | hbudget | ⟨owner, howner, hother⟩
      · exact absurd hpayment hopened.other.1
      · exact absurd hbudget hopened.other.2
      · exact hopened.unique hother ▸ howner
    · intro line hline hempty
      have hmem : Instruction.memo "" ∈ line.instructions find signer payer token := by
        refine List.mem_append_right _ (List.mem_cons_of_mem _ ?_)
        rw [hempty]
        exact List.mem_singleton_self _
      obtain ⟨ix, hix, hresolves⟩ :=
        exists_resolved hcompiled.resolves (mem_chargeInstructions hline hmem)
      have heffect := effect_of_memo hresolves
      obtain ⟨i, hi⟩ := List.mem_iff_getElem?.mp hix
      obtain ⟨picks, hpicks⟩ := hpays.payment
      have hpayment : ix.IsPayment tx.message.staticAccountKeys := by
        have hfits : q.Fits find tx.message.staticAccountKeys (.memo "" "") ix := heffect
        exact Quote.isPayment_of_fits hfits
      -- the demand that the empty memo would have to meet
      obtain ⟨d, hd, ix', hix', hfits⟩ :=
        exists_of_mem hpicks.fit i (hpicks.complete i ix hi hpayment)
      obtain rfl := Option.some.inj (hi.symm.trans hix')
      cases d with
      | payout recipient amount =>
        rcases htoken : q.token with _ | quoted
        · simp only [Quote.Fits, htoken] at hfits
          obtain ⟨source, htransfer, -⟩ := hfits
          rw [heffect] at htransfer
          cases htransfer
        · simp only [Quote.Fits, htoken] at hfits
          obtain ⟨program, source, authority, decimals, htransfer, -⟩ := hfits
          rw [heffect] at htransfer
          cases htransfer
      | memo label memo =>
        simp only [Quote.Fits, heffect] at hfits
        injection hfits with hbytes
        obtain rfl : memo = "" := utf8_injective hbytes.symm
        have hasked := Quote.memo_of_mem_demands hd
        rw [← hmemos] at hasked
        exact absurd rfl (of_decide_eq_true (List.mem_filter.mp hasked).2)
  · rintro ⟨hallowed, hmemo⟩
    have hkept : lines.filterMap PaymentLine.labelled = q.memos := by
      rw [← hmemos, List.filter_eq_self.mpr]
      intro memo hmem
      obtain ⟨line, hline, hlabelled⟩ := List.mem_filterMap.mp hmem
      obtain ⟨text, htext, rfl⟩ := Option.map_eq_some_iff.mp hlabelled
      refine decide_eq_true fun hempty : text = "" => hmemo line hline ?_
      rw [htext, hempty]
    exact Quote.verify_of_paidBy hlength hdistinct
      (paidBy_of_lines hpaid hprice hunits hcompiled hfee hpayouts hkept hrequired hallowed)

end Lines

end MppSdk
