import MppSdk.ExactPayment
import MppSdk.OnChain

/-! # What the matched transfers add up to

Both verifiers look for the primary transfer and then for one transfer for each split, and
take an instruction at most once.  The primary amount is what a wrapping sum of the splits
leaves of the request's amount, while each split is looked for with its own amount; so what
the matched transfers add up to is the request's amount exactly when the splits add up to
less than `2 ^ 64`. -/

namespace MppSdk

/-! ## Rounds that collect amounts -/

/-- The positions are different, and what is found at them adds up to `total`. -/
structure Collected (amountAt : Nat → Nat) (matched : List Nat) (total : Nat) : Prop where
  nodup : matched.Nodup
  sum_eq : (matched.map amountAt).sum = total

/-- A matcher that adds a free position with the amount it is called for. -/
def Collects (amountAt : Nat → Nat) (find : List Nat → Verified (List Nat)) (amount : UInt64) :
    Prop :=
  ∀ matched after, find matched = .ok after →
    ∃ i, after = i :: matched ∧ i ∉ matched ∧ amountAt i = amount.toNat

section Rounds
variable {amountAt : Nat → Nat} {matched after : List Nat} {total : Nat}

theorem Collected.nil : Collected amountAt [] 0 := ⟨List.nodup_nil, rfl⟩

theorem Collected.cons {i amount : Nat} (h : Collected amountAt matched total) (hfree : i ∉ matched)
    (hamount : amountAt i = amount) : Collected amountAt (i :: matched) (total + amount) := by
  refine ⟨List.nodup_cons.mpr ⟨hfree, h.nodup⟩, ?_⟩
  rw [List.map_cons, List.sum_cons, h.sum_eq, hamount, Nat.add_comm]

theorem Collected.find {find : List Nat → Verified (List Nat)} {amount : UInt64}
    (h : Collected amountAt matched total) (hfind : Collects amountAt find amount)
    (hafter : find matched = .ok after) : Collected amountAt after (total + amount.toNat) := by
  obtain ⟨i, rfl, hfree, hamount⟩ := hfind matched after hafter
  exact h.cons hfree hamount

/-- A round for each split collects the sum of the splits. -/
theorem Collected.splits {body : List Nat → Split → Verified (List Nat)}
    (hbody : ∀ matched split after, body matched split = .ok after → ∃ amount,
      parseU64 split.amount = some amount ∧
        ∃ i, after = i :: matched ∧ i ∉ matched ∧ amountAt i = amount.toNat) :
    ∀ {splits : List Split} {matched : List Nat} {total : Nat}, Collected amountAt matched total →
      splits.foldlM body matched = .ok after →
      Collected amountAt after (total + splitsSum splits) := by
  intro splits
  induction splits with
  | nil =>
    intro matched total h hafter
    obtain rfl : matched = after := by cases hafter; rfl
    exact h
  | cons split splits ih =>
    intro matched total h hafter
    rw [List.foldlM_cons] at hafter
    obtain ⟨next, hnext, hafter⟩ := bind_eq_ok.mp hafter
    obtain ⟨amount, hparse, i, rfl, hfree, hamount⟩ := hbody matched split next hnext
    have hsum : splitsSum (split :: splits) = amount.toNat + splitsSum splits := by
      rw [splitsSum, List.filterMap_cons, hparse]
      rfl
    rw [hsum, ← Nat.add_assoc]
    exact ih (h.cons hfree hamount) hafter

end Rounds

/-! ## Compiled instructions -/

/-- What the instruction at a position transfers. -/
def VersionedTransaction.amountAt (tx : VersionedTransaction) (i : Nat) : Nat :=
  (tx.message.instructions[i]?.map fun ix => (ix.effect tx.message.staticAccountKeys).amount).getD 0

/-- The transfers that `verify_versioned_transaction_pre_broadcast` matches. -/
def matchedTransfers (find : FindProgramAddress) (tx : VersionedTransaction)
    (request : ChargeRequest) (details : MethodDetails) : Verified (List Nat) := do
  let splits := details.splitList
  let primary ← primaryAmount request splits
  let recipient ← okOrElse request.recipient (.invalidRecipient "No recipient in charge request")
  let recipientPk ← parseKey recipient (.invalidRecipient "Invalid recipient")
  let feePayer ← expectedFeePayer tx details
  let accountKeys := tx.message.staticAccountKeys
  if request.IsNativeSol then
    let verifyTransfer := fun owner amount matched =>
      verifySolTransferInstructions accountKeys owner amount feePayer matched tx
    let matched ← verifyTransfer recipientPk primary []
    verifySplits matched verifyTransfer splits
  else
    let mint ← resolveExpectedMint request.currency details.network
    let tokenProgram ← expectedTokenProgram details
    let verifyTransfer := fun owner amount matched =>
      verifySplTransferInstructions find accountKeys owner mint amount tokenProgram
        details.decimals feePayer matched tx
    let matched ← verifyTransfer recipientPk primary []
    verifySplits matched verifyTransfer splits

section Compiled
variable {find : FindProgramAddress} {tx : VersionedTransaction} {request : ChargeRequest}
  {details : MethodDetails} {feePayer : Option Pubkey} {amount : UInt64} {owner : Pubkey}

/-- A loop over the instructions that returns a fitting free one. -/
theorem collects_scan {body : List Nat → CompiledInstruction → Nat → Verified (Option Nat)}
    {e : VerificationError}
    (hbody : ∀ matched ix index j, body matched ix index = .ok (some j) →
      j = index ∧ index ∉ matched ∧
        (ix.effect tx.message.staticAccountKeys).amount = amount.toNat) :
    Collects tx.amountAt (fun matched => do
      match ← scan (body matched) 0 tx.message.instructions with
      | some index => return index :: matched
      | none => .error (.error e)) amount := by
  intro matched after h
  obtain ⟨r, hscan, h⟩ := bind_eq_ok.mp h
  cases r with
  | none => cases h
  | some j =>
    obtain ⟨k, ix, hix, hat⟩ := exists_of_scan hscan
    obtain ⟨rfl, hfree, hamount⟩ := hbody matched ix _ j hat
    rw [Nat.zero_add] at hfree h
    refine ⟨k, by cases h; rfl, hfree, ?_⟩
    rw [VersionedTransaction.amountAt, hix]
    exact hamount

theorem collects_sol : Collects tx.amountAt (fun matched => verifySolTransferInstructions
    tx.message.staticAccountKeys owner amount feePayer matched tx) amount := by
  refine collects_scan fun matched ix index j h => ?_
  obtain ⟨hj, source, heffect, -⟩ := effect_of_solTransferAt h
  exact ⟨hj, notMem_of_continueIf h, by rw [heffect]; rfl⟩

theorem collects_spl {mint : Pubkey} {tokenProgram : Option Pubkey} {decimals : Option UInt8} :
    Collects tx.amountAt (fun matched => verifySplTransferInstructions find
      tx.message.staticAccountKeys owner mint amount tokenProgram decimals feePayer matched tx)
      amount := by
  refine collects_scan fun matched ix index j h => ?_
  obtain ⟨hj, program, source, authority, d, heffect, -⟩ := effect_of_splTransferAt h
  exact ⟨hj, notMem_of_continueIf h, by rw [heffect]; rfl⟩

/-- The primary transfer and those of the splits. -/
theorem collected_verifySplits {verifyTransfer : Pubkey → UInt64 → List Nat → Verified (List Nat)}
    {primary : UInt64} {splits : List Split} {matched after : List Nat}
    (hverify : ∀ owner amount, Collects tx.amountAt (verifyTransfer owner amount) amount)
    (hprimary : verifyTransfer owner primary [] = .ok matched)
    (hsplits : verifySplits matched verifyTransfer splits = .ok after) :
    Collected tx.amountAt after (primary.toNat + splitsSum splits) := by
  have hfirst : Collected tx.amountAt matched (0 + primary.toNat) :=
    Collected.nil.find (hverify owner primary) hprimary
  rw [Nat.zero_add] at hfirst
  refine hfirst.splits (fun matched split after h => ?_) hsplits
  obtain ⟨splitPk, -, h⟩ := bind_eq_ok.mp h
  obtain ⟨amt, hamt, h⟩ := bind_eq_ok.mp h
  exact ⟨amt, okOrElse_eq_ok.mp hamt, hverify splitPk amt matched after h⟩

/-- **What is matched** adds up to the primary amount and the splits. -/
theorem collected_matchedTransfers {matched : List Nat}
    (h : matchedTransfers find tx request details = .ok matched) :
    ∃ primary, primaryAmount request details.splitList = .ok primary ∧
      Collected tx.amountAt matched (primary.toNat + splitsSum details.splitList) := by
  obtain ⟨primary, hprimary, h⟩ := bind_eq_ok.mp h
  obtain ⟨recipient, -, h⟩ := bind_eq_ok.mp h
  obtain ⟨recipientPk, -, h⟩ := bind_eq_ok.mp h
  obtain ⟨feePayer, -, h⟩ := bind_eq_ok.mp h
  refine ⟨primary, hprimary, ?_⟩
  split at h
  · obtain ⟨first, hfirst, hsplits⟩ := bind_eq_ok.mp h
    have hverify : ∀ owner amount, Collects tx.amountAt (fun matched =>
        verifySolTransferInstructions tx.message.staticAccountKeys owner amount feePayer matched tx)
        amount := fun _ _ => collects_sol
    exact collected_verifySplits hverify hfirst hsplits
  · obtain ⟨mint, -, h⟩ := bind_eq_ok.mp h
    obtain ⟨tokenProgram, -, h⟩ := bind_eq_ok.mp h
    obtain ⟨first, hfirst, hsplits⟩ := bind_eq_ok.mp h
    have hverify : ∀ owner amount, Collects tx.amountAt (fun matched =>
        verifySplTransferInstructions find tx.message.staticAccountKeys owner mint amount
          tokenProgram details.decimals feePayer matched tx) amount := fun _ _ => collects_spl
    exact collected_verifySplits hverify hfirst hsplits

/-- A transaction that is accepted has its transfers matched. -/
theorem exists_matchedTransfers (h : verifyPreBroadcast find tx request details = .ok ()) :
    ∃ matched, matchedTransfers find tx request details = .ok matched := by
  simp only [verifyPreBroadcast, bind_eq_ok] at h
  obtain ⟨-, -, -, -, primary, hprimary, recipient, hrecipient, recipientPk, hkey, feePayer,
    hfeePayer, -, -, policy, -, h⟩ := h
  simp only [matchedTransfers, hprimary, hrecipient, hkey, hfeePayer, ok_bind]
  split at h
  · rename_i hsol
    simp only [bind_eq_ok] at h
    obtain ⟨first, hfirst, matched, hsplits, -⟩ := h
    rw [if_pos hsol]
    exact ⟨matched, bind_eq_ok.mpr ⟨first, hfirst, hsplits⟩⟩
  · rename_i hsol
    simp only [bind_eq_ok] at h
    obtain ⟨mint, hmint, -, -, program, hprogram, first, hfirst, matched, hsplits, -⟩ := h
    rw [if_neg hsol, hmint, ok_bind, hprogram, ok_bind]
    exact ⟨matched, bind_eq_ok.mpr ⟨first, hfirst, hsplits⟩⟩

end Compiled

/-! ## Parsed instructions -/

/-- What a parsed instruction transfers. -/
def parsedAmount (ix : Json) : Nat :=
  match parsedInfo ix "transfer", parsedInfo ix "transferChecked" with
  | some info, _ => (((Json.field info "lamports").bind Json.asU64).getD 0).toNat
  | none, some info => (((((Json.field info "tokenAmount").bind Json.asObject).bind
      (stringField · "amount")).bind parseU64).getD 0).toNat
  | none, none => 0

/-- What the parsed instruction at a position transfers. -/
def ConfirmedTransaction.amountAt (tx : ConfirmedTransaction) (i : Nat) : Nat :=
  ((extractParsedInstructions tx)[i]?.map parsedAmount).getD 0

/-- The transfers that `verify_on_chain` matches. -/
def matchedParsedTransfers (find : FindProgramAddress) (tx : ConfirmedTransaction)
    (request : ChargeRequest) (details : MethodDetails) : Verified (List Nat) := do
  let splits := details.splitList
  let primary ← primaryAmount request splits
  let recipient ← okOrElse request.recipient (.invalidRecipient "No recipient in charge request")
  let instructions := extractParsedInstructions tx
  if request.IsNativeSol then
    verifySolTransfers instructions recipient primary splits
  else
    let mint ← resolveExpectedMint request.currency details.network
    let tokenProgram := details.tokenProgram.getD
      (defaultTokenProgramForCurrency request.currency details.network)
    verifySplTransfers find instructions recipient mint.toBase58 primary splits tokenProgram

section Parsed
variable {find : FindProgramAddress} {tx : ConfirmedTransaction} {request : ChargeRequest}
  {details : MethodDetails} {amount : UInt64} {recipient : String}

theorem collects_parsed {body : List Nat → Json → Nat → Verified (Option Nat)}
    {e : VerificationError}
    (hbody : ∀ matched ix index j, body matched ix index = .ok (some j) →
      j = index ∧ index ∉ matched ∧ parsedAmount ix = amount.toNat) :
    Collects tx.amountAt (fun matched => do
      match ← scan (body matched) 0 (extractParsedInstructions tx) with
      | some index => return index :: matched
      | none => .error (.error e)) amount := by
  intro matched after h
  obtain ⟨r, hscan, h⟩ := bind_eq_ok.mp h
  cases r with
  | none => cases h
  | some j =>
    obtain ⟨k, ix, hix, hat⟩ := exists_of_scan hscan
    obtain ⟨rfl, hfree, hamount⟩ := hbody matched ix _ j hat
    rw [Nat.zero_add] at hfree h
    refine ⟨k, by cases h; rfl, hfree, ?_⟩
    rw [ConfirmedTransaction.amountAt, hix]
    exact hamount

theorem collects_parsedSol : Collects tx.amountAt
    (fun matched => findSolTransfer (extractParsedInstructions tx) recipient amount matched)
    amount := by
  refine collects_parsed fun matched ix index j h => ?_
  have hfree : index ∉ matched := notMem_of_continueIf h
  simp only [parsedSolTransferAt, continueIf_eq_some] at h
  obtain ⟨-, h⟩ := h
  split at h
  · cases h
  · rename_i info hinfo
    simp only [continueIf_eq_some, not_not] at h
    obtain ⟨⟨-, hlamports⟩, hj⟩ := h
    refine ⟨by cases hj; rfl, hfree, ?_⟩
    rw [parsedAmount, hinfo, ← hlamports]

/-- The type of a parsed instruction. -/
theorem parsedInfo_ne {ix : Json} {info : List (String × Json)} {type type' : String}
    (h : parsedInfo ix type = some info) (hne : type' ≠ type) : parsedInfo ix type' = none := by
  obtain ⟨parsed, hparsed, -⟩ := Option.bind_eq_some_iff.mp h
  obtain ⟨hobject, htype⟩ := Option.filter_eq_some_iff.mp hparsed
  have htype : stringField parsed "type" = some type := of_decide_eq_true htype
  rw [parsedInfo, parsedOfType, hobject, Option.filter_some, htype]
  simp [hne.symm]

theorem collects_parsedSpl {mint tokenProgram : String} : Collects tx.amountAt
    (fun matched => findSplTransfer find (extractParsedInstructions tx) mint tokenProgram recipient
      amount matched) amount := by
  refine collects_parsed fun matched ix index j h => ?_
  have hfree : index ∉ matched := notMem_of_continueIf h
  simp only [parsedSplTransferAt, continueIf_eq_some] at h
  obtain ⟨-, -, -, h⟩ := h
  split at h
  · cases h
  · rename_i info hinfo
    simp only [continueIf_eq_some, not_not] at h
    obtain ⟨hamount, -, hj⟩ := h
    refine ⟨by cases hj; rfl, hfree, ?_⟩
    rw [parsedAmount, hinfo, parsedInfo_ne hinfo (by decide), ← hamount]

/-- The primary transfer and those of the splits. -/
theorem collected_verifyParsedTransfers
    {findTransfer : String → UInt64 → List Nat → Verified (List Nat)} {kind : String}
    {primary : UInt64} {splits : List Split} {after : List Nat}
    (hfind : ∀ recipient amount, Collects tx.amountAt (findTransfer recipient amount) amount)
    (h : verifyParsedTransfers findTransfer kind recipient primary splits = .ok after) :
    Collected tx.amountAt after (primary.toNat + splitsSum splits) := by
  obtain ⟨matched, hprimary, hsplits⟩ := bind_eq_ok.mp h
  have hfirst : Collected tx.amountAt matched (0 + primary.toNat) :=
    Collected.nil.find (hfind recipient primary) hprimary
  rw [Nat.zero_add] at hfirst
  refine hfirst.splits (fun matched split after h => ?_) hsplits
  obtain ⟨amt, hamt, h⟩ := bind_eq_ok.mp h
  exact ⟨amt, okOrElse_eq_ok.mp hamt, hfind split.recipient amt matched after (mapErr_eq_ok.mp h)⟩

/-- **What is matched** adds up to the primary amount and the splits. -/
theorem collected_matchedParsedTransfers {matched : List Nat}
    (h : matchedParsedTransfers find tx request details = .ok matched) :
    ∃ primary, primaryAmount request details.splitList = .ok primary ∧
      Collected tx.amountAt matched (primary.toNat + splitsSum details.splitList) := by
  obtain ⟨primary, hprimary, h⟩ := bind_eq_ok.mp h
  obtain ⟨recipient, -, h⟩ := bind_eq_ok.mp h
  refine ⟨primary, hprimary, ?_⟩
  split at h
  · exact collected_verifyParsedTransfers (fun _ _ => collects_parsedSol) h
  · obtain ⟨mint, -, h⟩ := bind_eq_ok.mp h
    exact collected_verifyParsedTransfers (fun _ _ => collects_parsedSpl) h

/-- A transaction that is accepted has its transfers matched. -/
theorem exists_matchedParsedTransfers (h : verifyConfirmed find tx request details = .ok ()) :
    ∃ matched, matchedParsedTransfers find tx request details = .ok matched := by
  unfold verifyConfirmed at h
  rcases herr : tx.metaErr with _ | err
  case some =>
    rw [herr] at h
    cases h
  simp only [herr, bind_eq_ok] at h
  obtain ⟨-, -, primary, hprimary, recipient, hrecipient, h⟩ := h
  simp only [matchedParsedTransfers, hprimary, hrecipient, ok_bind]
  -- the rest is the same with and without an expected payer
  split at h
  all_goals
    obtain ⟨feePayer, -, h⟩ := bind_eq_ok.mp h
    obtain ⟨recipientPk, -, h⟩ := bind_eq_ok.mp h
    obtain ⟨policy, -, h⟩ := bind_eq_ok.mp h
    by_cases hsol : request.IsNativeSol
    · rw [if_pos hsol] at h ⊢
      obtain ⟨-, -, h⟩ := bind_eq_ok.mp h
      obtain ⟨matched, hmatched, -⟩ := bind_eq_ok.mp h
      exact ⟨matched, hmatched⟩
    · rw [if_neg hsol] at h ⊢
      obtain ⟨mint, hmint, h⟩ := bind_eq_ok.mp h
      obtain ⟨-, -, h⟩ := bind_eq_ok.mp h
      obtain ⟨matched, hmatched, -⟩ := bind_eq_ok.mp h
      exact ⟨matched, bind_eq_ok.mpr ⟨mint, hmint, hmatched⟩⟩

end Parsed

/-! ## Conservation -/

/-- What was matched adds up to the amount of the request, with something left for the
recipient. -/
def Conserved (request : ChargeRequest) (details : MethodDetails) (amountAt : Nat → Nat)
    (matched : Verified (List Nat)) : Prop :=
  ∃ total primary positions, parseU64 request.amount = some total ∧
    primaryAmount request details.splitList = .ok primary ∧ 0 < primary ∧
    matched = .ok positions ∧ Collected amountAt positions total.toNat

section Conservation
variable {request : ChargeRequest} {details : MethodDetails} {amountAt : Nat → Nat}

/-- The matched transfers add up to the request's amount unless the sum of the splits wraps. -/
theorem conserved_iff {primary : UInt64} {positions : List Nat}
    (hprimary : primaryAmount request details.splitList = .ok primary)
    (hcollected : Collected amountAt positions (primary.toNat + splitsSum details.splitList)) :
    Conserved request details amountAt (.ok positions) ↔ splitsSum details.splitList < 2 ^ 64 := by
  obtain ⟨total, htotal, hpositive, hwrapped⟩ := primaryAmount_eq_ok.mp hprimary
  constructor
  · rintro ⟨total', primary', positions', htotal', -, -, hpositions, hconserved⟩
    obtain rfl : total = total' := Option.some.inj (htotal.symm.trans htotal')
    obtain rfl : positions = positions' := by cases hpositions; rfl
    have hsum : primary.toNat + splitsSum details.splitList = total.toNat :=
      hcollected.sum_eq.symm.trans hconserved.sum_eq
    have hlt : total.toNat < 2 ^ 64 := total.toNat_lt
    omega
  · intro hlt
    rw [Nat.mod_eq_of_lt hlt] at hwrapped
    rw [hwrapped] at hcollected
    exact ⟨total, primary, positions, htotal, hprimary, hpositive, rfl, hcollected⟩

theorem matchedTransfers_conserved_iff {find : FindProgramAddress} {tx : VersionedTransaction}
    (h : verifyPreBroadcast find tx request details = .ok ()) :
    Conserved request details tx.amountAt (matchedTransfers find tx request details) ↔
      splitsSum details.splitList < 2 ^ 64 := by
  obtain ⟨matched, hmatched⟩ := exists_matchedTransfers h
  obtain ⟨primary, hprimary, hcollected⟩ := collected_matchedTransfers hmatched
  rw [hmatched]
  exact conserved_iff hprimary hcollected

theorem matchedParsedTransfers_conserved_iff {find : FindProgramAddress}
    {tx : ConfirmedTransaction} (h : verifyConfirmed find tx request details = .ok ()) :
    Conserved request details tx.amountAt (matchedParsedTransfers find tx request details) ↔
      splitsSum details.splitList < 2 ^ 64 := by
  obtain ⟨matched, hmatched⟩ := exists_matchedParsedTransfers h
  obtain ⟨primary, hprimary, hcollected⟩ := collected_matchedParsedTransfers hmatched
  rw [hmatched]
  exact conserved_iff hprimary hcollected

/-- **Exact condition for value conservation.**  What either verifier matches in a
transaction it accepts adds up to the amount of the request exactly when the splits, as
unbounded integers, add up to less than `2 ^ 64`. -/
theorem conserves_value_iff (find : FindProgramAddress) (request : ChargeRequest)
    (details : MethodDetails) :
    (∀ tx, verifyPreBroadcast find tx request details = .ok () →
      (Conserved request details tx.amountAt (matchedTransfers find tx request details) ↔
        splitsSum details.splitList < 2 ^ 64)) ∧
    ∀ tx, verifyConfirmed find tx request details = .ok () →
      (Conserved request details tx.amountAt (matchedParsedTransfers find tx request details) ↔
        splitsSum details.splitList < 2 ^ 64) :=
  ⟨fun _ h => matchedTransfers_conserved_iff h, fun _ h => matchedParsedTransfers_conserved_iff h⟩

end Conservation

namespace Sample

/-- The sample payment of 1000 lamports to the recipient, as the RPC node renders it. -/
def solTransfer (destination : Pubkey) (lamports : UInt64) : Json :=
  .obj [("programId", .str programs.SYSTEM_PROGRAM),
    ("parsed", .obj [("type", .str "transfer"),
      ("info", .obj [("destination", .str destination.toBase58), ("lamports", .unsigned lamports)])])]

/-- A confirmed payment of 1000 lamports. -/
def confirmedPayment : ConfirmedTransaction where
  transaction := .obj [("message", .obj [("instructions", .arr [solTransfer (key 2) 1000])])]

/-- What is matched in the sample payments adds up to the amounts charged. -/
theorem payments_conserved :
    Conserved request details payment.amountAt (matchedTransfers find payment request details) ∧
    Conserved wrappedRequest {} confirmedPayment.amountAt
      (matchedParsedTransfers find confirmedPayment wrappedRequest {}) := by
  have haccepted : verifyPreBroadcast find payment request details = .ok () := by decide +kernel
  have hconfirmed : verifyConfirmed find confirmedPayment wrappedRequest {} = .ok () := by
    decide +kernel
  exact ⟨((conserves_value_iff find request details).1 payment haccepted).mpr (by decide),
    ((conserves_value_iff find wrappedRequest {}).2 confirmedPayment hconfirmed).mpr (by decide)⟩

/-- In the payment of 900 for a charge of 1000 much more is matched. -/
theorem wrappedPayment_not_conserved :
    verifyPreBroadcast find wrappedPayment wrappedRequest wrappedDetails = .ok () ∧
    ¬ Conserved wrappedRequest wrappedDetails wrappedPayment.amountAt
      (matchedTransfers find wrappedPayment wrappedRequest wrappedDetails) := by
  have haccepted :
      verifyPreBroadcast find wrappedPayment wrappedRequest wrappedDetails = .ok () := by
    decide +kernel
  have hsum : ¬ splitsSum wrappedDetails.splitList < 2 ^ 64 := by decide
  exact ⟨haccepted, fun h => hsum ((matchedTransfers_conserved_iff haccepted).mp h)⟩

end Sample

end MppSdk
