import MppSdk.InstructionEffects
import MppSdk.PreBroadcast

/-! # The fee payer is safe

What `verifyPreBroadcast` accepts, read as effects.  A matched instruction has the effect
its matcher looked for; an instruction that passes the allowlist is matched, or a
compute-budget or account instruction with its own check.  So every instruction of an
accepted transaction is one the request's terms allow (`sponsored_of_accepted`). -/

namespace MppSdk
open Sponsorship

/-! ## The terms of a request -/

/-- The token of a request, if its currency is one. -/
def chargeToken (request : ChargeRequest) (details : MethodDetails) : Option (Token Pubkey) :=
  if request.IsNativeSol then none
  else do
    let mint ← resolveStablecoinMint request.currency details.network
    let mint ← Bytes.fromBase58 32 mint
    return {
      mint
      programs := match details.tokenProgram with
        | some tokenProgram => (Bytes.fromBase58 32 tokenProgram).toList
        | none => [programs.tokenKey, programs.token2022Key]
      decimals := details.decimals }

/-- The payment to the recipient. -/
def primaryPayout (request : ChargeRequest) (splits : List Split) : Option (Pubkey × Nat) := do
  let recipient ← request.recipient
  let recipient ← Bytes.fromBase58 32 recipient
  let total ← parseU64 request.amount
  return (recipient, (total - splitsTotal splits).toNat)

/-- The payment to a split. -/
def splitPayout (split : Split) : Option (Pubkey × Nat) := do
  let recipient ← Bytes.fromBase58 32 split.recipient
  let amount ← parseU64 split.amount
  return (recipient, amount.toNat)

/-- The owner whose account a split asks to be opened. -/
def requiredOwner (split : Split) : Option Pubkey :=
  if split.ataCreationRequired = some true then Bytes.fromBase58 32 split.recipient else none

/-- What a request with a fee payer lets the instructions of a payment do. -/
def chargeTerms (request : ChargeRequest) (details : MethodDetails) (feePayer : Pubkey) :
    Terms Pubkey where
  sponsor := feePayer
  token := chargeToken request details
  payouts := (primaryPayout request details.splitList).toList ++
    details.splitList.filterMap splitPayout
  memos := (expectedMemos request.externalId details.splitList).map fun memo => utf8 memo.2
  owners := details.splitList.filterMap requiredOwner
  maxUnits := MAX_COMPUTE_UNIT_LIMIT
  maxPrice := MAX_COMPUTE_UNIT_PRICE_MICROLAMPORTS

/-! ## What the matchers match -/

theorem programIdOf_eq_ok {accountKeys : List Pubkey} {ix : CompiledInstruction} {key : Pubkey} :
    programIdOf accountKeys ix = .ok key ↔ accountKeys[ix.programIdIndex.toNat]? = some key :=
  okOrElse_eq_ok

theorem accountKey_eq_ok {accountKeys : List Pubkey} {index : UInt8} {label : String}
    {key : Pubkey} :
    accountKey accountKeys index label = .ok key ↔ accountKeys[index.toNat]? = some key :=
  okOrElse_eq_ok

section Matchers
variable {find : FindProgramAddress} {accountKeys : List Pubkey} {recipient mint : Pubkey}
  {amount : UInt64} {tokenProgram : Option Pubkey} {decimals : Option UInt8}
  {feePayer : Option Pubkey} {matched : List Nat} {ix : CompiledInstruction} {index j : Nat}

/-- A matched System instruction is the transfer that was looked for. -/
theorem effect_of_solTransferAt
    (h : solTransferAt accountKeys recipient amount feePayer matched ix index = .ok (some j)) :
    j = index ∧ ∃ source, ix.effect accountKeys = .transfer source recipient amount.toNat ∧
      feePayer ≠ some source := by
  simp only [solTransferAt, continueIf_eq_some, bind_eq_ok, ne_eq, not_not,
    programIdOf_eq_ok] at h
  obtain ⟨-, programId, hprogram, rfl, hlength, htype, hpay⟩ := h
  split at hpay
  case h_2 => cases hpay
  rename_i sourceIndex destIndex rest haccounts
  simp only [bind_eq_ok, continueIf_eq_some, not_not, accountKey_eq_ok, rejectIf_eq_ok] at hpay
  obtain ⟨source, hsource, dest, hdest, ⟨rfl, hamount⟩, -, hfunds, hindex⟩ := hpay
  obtain rfl : index = j := by cases hindex; rfl
  refine ⟨rfl, source, ?_, hfunds⟩
  have hdata : 12 ≤ ix.data.length ∧ fromLeBytes (ix.data.take 4) = 2 :=
    ⟨Nat.le_of_not_lt hlength, htype⟩
  rw [CompiledInstruction.effect_eq hprogram, programEffect_system, haccounts]
  simp only [systemEffect, if_pos hdata, hsource, hdest, ← hamount]
  rfl

/-- A matched token instruction is the transfer that was looked for. -/
theorem effect_of_splTransferAt
    (h : splTransferAt find accountKeys recipient mint amount tokenProgram decimals feePayer
      matched ix index = .ok (some j)) :
    j = index ∧ ∃ program source authority d,
      ix.effect accountKeys = .tokenTransfer program source mint
        (associatedTokenAddress find recipient program mint) authority amount.toNat d ∧
      (program = programs.tokenKey ∨ program = programs.token2022Key) ∧
      (∀ expected ∈ tokenProgram, program = expected) ∧ (∀ expected ∈ decimals, d = expected) ∧
      feePayer ≠ some authority ∧
      ∀ payer ∈ feePayer, source ≠ associatedTokenAddress find payer program mint := by
  simp only [splTransferAt, continueIf_eq_some, bind_eq_ok, ne_eq, not_not, not_and_or,
    programIdOf_eq_ok] at h
  obtain ⟨-, program, hprogram, hprograms, hexpected, hhead, hpay⟩ := h
  split at hpay
  case h_2 => cases hpay
  rename_i d sourceIndex mintIndex destIndex authorityIndex rest hd haccounts
  simp only [bind_eq_ok, continueIf_eq_some, not_not, accountKey_eq_ok, rejectIf_eq_ok] at hpay
  obtain ⟨hamount, hdecimals, source, hsource, dest, hdest, ixMint, hmint, rfl, authority,
    hauthority, -, hauthorizes, -, hfunds, rfl, hindex⟩ := hpay
  obtain rfl : index = j := by cases hindex; rfl
  refine ⟨rfl, program, source, authority, d, ?_, hprograms, ?_, ?_, hauthorizes, ?_⟩
  · obtain ⟨data, hdata⟩ := List.head?_eq_some_iff.mp hhead
    rw [hdata] at hd hamount
    have hd' : data[8]? = some d := hd
    have hamount' : fromLeBytes (data.take 8) = amount.toNat := hamount
    rw [CompiledInstruction.effect_eq hprogram, programEffect_token _ _ _ hprograms, haccounts,
      hdata, tokenEffect]
    simp only [hsource, hdest, hmint, hauthority, hd', hamount']
  · intro expected he
    exact not_not.mp fun hne => hexpected ⟨expected, he, hne⟩
  · intro expected he
    exact not_not.mp fun hne => hdecimals ⟨expected, he, hne⟩
  · intro payer hp he
    exact hfunds ⟨payer, hp, he⟩

/-- A matched memo is the one that was looked for. -/
theorem effect_of_memoAt {expectedData : List UInt8}
    (h : memoAt accountKeys matched expectedData ix index = .ok (some j)) :
    j = index ∧ ix.effect accountKeys = .memo expectedData := by
  simp only [memoAt, continueIf_eq_some, bind_eq_ok, not_not, programIdOf_eq_ok] at h
  obtain ⟨-, program, hprogram, ⟨rfl, rfl⟩, hindex⟩ := h
  obtain rfl : index = j := by cases hindex; rfl
  exact ⟨rfl, by rw [CompiledInstruction.effect_eq hprogram, programEffect_memo]⟩

end Matchers

/-! ## What the allowlist lets through -/

section Allowlist
variable {find : FindProgramAddress} {accountKeys : List Pubkey} {ix : CompiledInstruction}

/-- A compute-budget instruction that passes sets a limit or a price within the bounds. -/
theorem effect_of_validateComputeBudget (h : validateComputeBudgetInstruction ix = .ok ()) :
    (∃ units ≤ MAX_COMPUTE_UNIT_LIMIT, computeBudgetEffect ix.data = .computeUnitLimit units) ∨
    (∃ price ≤ MAX_COMPUTE_UNIT_PRICE_MICROLAMPORTS,
      computeBudgetEffect ix.data = .computeUnitPrice price) := by
  simp only [validateComputeBudgetInstruction, bind_eq_ok, rejectIf_eq_ok] at h
  obtain ⟨-, -, h⟩ := h
  by_cases hlimit : ix.data.head? = some 2 ∧ ix.data.length = 5
  · rw [if_pos hlimit, rejectIf_eq_ok] at h
    obtain ⟨data, hdata⟩ := List.head?_eq_some_iff.mp hlimit.1
    have hlength : 4 ≤ data.length := by
      have hlen := hlimit.2
      rw [hdata, List.length_cons] at hlen
      omega
    rw [hdata] at h ⊢
    exact Or.inl ⟨_, Nat.le_of_not_lt h, if_pos hlength⟩
  · rw [if_neg hlimit] at h
    by_cases hprice : ix.data.head? = some 3 ∧ ix.data.length = 9
    · rw [if_pos hprice, rejectIf_eq_ok] at h
      obtain ⟨data, hdata⟩ := List.head?_eq_some_iff.mp hprice.1
      have hlength : 8 ≤ data.length := by
        have hlen := hprice.2
        rw [hdata, List.length_cons] at hlen
        omega
      rw [hdata] at h ⊢
      exact Or.inr ⟨_, Nat.le_of_not_lt h, if_pos hlength⟩
    · rw [if_neg hprice] at h
      cases h

/-- An account instruction that passes opens the account of an allowed owner for the
expected mint, at the payer's cost. -/
theorem effect_of_validateCreateAta {expectedMint expectedTokenProgram : Option Pubkey}
    {allowedOwners : List Pubkey} {payer owner : Pubkey}
    (h : validateCreateAtaIdempotentInstruction find accountKeys expectedMint allowedOwners
      expectedTokenProgram payer ix = .ok owner) :
    ∃ mint ∈ expectedMint, ∃ program,
      associatedTokenEffect accountKeys ix.accounts ix.data = .openAccount payer
        (associatedTokenAddress find owner program mint) owner mint program ∧
      owner ∈ allowedOwners ∧
      (program = programs.tokenKey ∨ program = programs.token2022Key) ∧
      ∀ expected ∈ expectedTokenProgram, program = expected := by
  simp only [validateCreateAtaIdempotentInstruction, bind_eq_ok, rejectIf_eq_ok, okOrElse_eq_ok,
    ne_eq, not_not] at h
  obtain ⟨mint, hexpected, -, hdata, h⟩ := h
  split at h
  case h_2 => cases h
  rename_i payerIndex ataIndex ownerIndex mintIndex systemIndex tokenIndex haccounts
  simp only [bind_eq_ok, rejectIf_eq_ok, accountKey_eq_ok, not_not, not_and_or] at h
  obtain ⟨payer', hpayer, ata, hata, owner', howner, mint', hmint, system, -, program, hprogram,
    -, rfl, -, rfl, -, hallowed, -, -, -, hprograms, -, hfits, -, rfl, hreturn⟩ := h
  obtain rfl : owner' = owner := by cases hreturn; rfl
  refine ⟨mint', hexpected, program, ?_, hallowed, ?_, ?_⟩
  · rw [haccounts, hdata, associatedTokenEffect]
    simp only [hpayer, hata, howner, hmint, hprogram]
  · exact hprograms.imp pubkeyOf_eq_iff.mp pubkeyOf_eq_iff.mp
  · intro expected he
    exact not_not.mp fun hne => hfits ⟨expected, he, hne⟩

end Allowlist

/-! ## Every instruction of an accepted transaction -/

section Accepted
variable {find : FindProgramAddress} {tx : VersionedTransaction} {t : Terms Pubkey}

/-- Every matched instruction does something the terms allow. -/
def MatchedAllowed (find : FindProgramAddress) (tx : VersionedTransaction) (t : Terms Pubkey)
    (matched : List Nat) : Prop :=
  ∀ i ∈ matched, ∀ ix, tx.message.instructions[i]? = some ix →
    t.Allows (associatedTokenAddress find) (ix.effect tx.message.staticAccountKeys)

theorem MatchedAllowed.cons {matched : List Nat} {i : Nat} {ix : CompiledInstruction}
    (hm : MatchedAllowed find tx t matched) (hix : tx.message.instructions[i]? = some ix)
    (ha : t.Allows (associatedTokenAddress find) (ix.effect tx.message.staticAccountKeys)) :
    MatchedAllowed find tx t (i :: matched) := by
  intro k hk ix' hix'
  rcases List.mem_cons.mp hk with rfl | hk
  · obtain rfl : ix = ix' := Option.some.inj (hix.symm.trans hix')
    exact ha
  · exact hm k hk ix' hix'

section Transfers
variable {recipient mint : Pubkey} {amount : UInt64} {tokenProgram : Option Pubkey}
  {decimals : Option UInt8} {matched matched' : List Nat}

/-- A SOL payment the terms call for is matched with one they allow. -/
theorem MatchedAllowed.sol (hm : MatchedAllowed find tx t matched) (htoken : t.token = none)
    (hpayout : (recipient, amount.toNat) ∈ t.payouts)
    (h : verifySolTransferInstructions tx.message.staticAccountKeys recipient amount
      (some t.sponsor) matched tx = .ok matched') : MatchedAllowed find tx t matched' := by
  obtain ⟨r, hscan, h⟩ := bind_eq_ok.mp h
  cases r with
  | none => cases h
  | some i =>
    obtain rfl : i :: matched = matched' := by cases h; rfl
    obtain ⟨k, ix, hix, hbody⟩ := exists_of_scan hscan
    obtain ⟨rfl, source, heffect, hfunds⟩ := effect_of_solTransferAt hbody
    rw [Nat.zero_add]
    refine hm.cons hix ?_
    rw [heffect]
    exact ⟨by rw [htoken]; rfl, hpayout, fun he => hfunds (by rw [he])⟩

/-- The token of the terms is the mint, the programs and the decimals a matcher asks for. -/
def PaysToken (t : Terms Pubkey) (mint : Pubkey) (tokenProgram : Option Pubkey)
    (decimals : Option UInt8) : Prop :=
  ∃ token ∈ t.token, token.mint = mint ∧ token.decimals = decimals ∧
    ∀ program, (program = programs.tokenKey ∨ program = programs.token2022Key) →
      (∀ expected ∈ tokenProgram, program = expected) → program ∈ token.programs

/-- A token payment the terms call for is matched with one they allow. -/
theorem MatchedAllowed.spl (hm : MatchedAllowed find tx t matched)
    (htoken : PaysToken t mint tokenProgram decimals)
    (hpayout : (recipient, amount.toNat) ∈ t.payouts)
    (h : verifySplTransferInstructions find tx.message.staticAccountKeys recipient mint amount
      tokenProgram decimals (some t.sponsor) matched tx = .ok matched') :
    MatchedAllowed find tx t matched' := by
  obtain ⟨r, hscan, h⟩ := bind_eq_ok.mp h
  cases r with
  | none => cases h
  | some i =>
    obtain rfl : i :: matched = matched' := by cases h; rfl
    obtain ⟨k, ix, hix, hbody⟩ := exists_of_scan hscan
    obtain ⟨rfl, program, source, authority, d, heffect, hprograms, hexpected, hdecimals,
      hauthorizes, hfunds⟩ := effect_of_splTransferAt hbody
    obtain ⟨token, htoken, rfl, rfl, hfits⟩ := htoken
    rw [Nat.zero_add]
    refine hm.cons hix ?_
    rw [heffect]
    refine ⟨token, htoken, rfl, hfits program hprograms hexpected, hdecimals,
      ⟨_, hpayout, rfl, rfl⟩, ?_, hfunds t.sponsor rfl⟩
    intro he
    exact hauthorizes (by rw [he])

/-- The memos of the request are matched with memos the terms allow. -/
theorem MatchedAllowed.memos {externalId : Option String} {splits : List Split}
    (hm : MatchedAllowed find tx t matched)
    (hmemos : ∀ memo ∈ expectedMemos externalId splits, utf8 memo.2 ∈ t.memos)
    (h : verifyMemoInstructions tx.message.staticAccountKeys matched tx externalId splits =
      .ok matched') : MatchedAllowed find tx t matched' := by
  refine (foldlM_eq_ok (Q := fun _ => True) (fun memo hmemo before after hbefore h => ?_)
    hm h).1
  obtain ⟨-, -, h⟩ := bind_eq_ok.mp h
  obtain ⟨r, hscan, h⟩ := bind_eq_ok.mp h
  cases r with
  | none => cases h
  | some i =>
    obtain rfl : i :: before = after := by cases h; rfl
    obtain ⟨k, ix, hix, hbody⟩ := exists_of_scan hscan
    obtain ⟨rfl, heffect⟩ := effect_of_memoAt hbody
    rw [Nat.zero_add]
    refine ⟨hbefore.cons hix ?_, trivial⟩
    rw [heffect]
    exact hmemos memo hmemo

/-- The payments to the splits, whichever matcher is used. -/
theorem MatchedAllowed.splits {splits : List Split}
    {verifyTransfer : Pubkey → UInt64 → List Nat → Verified (List Nat)}
    (hm : MatchedAllowed find tx t matched)
    (hsplits : ∀ split ∈ splits, ∀ payout ∈ splitPayout split, payout ∈ t.payouts)
    (htransfer : ∀ owner amount before after, (owner, amount.toNat) ∈ t.payouts →
      MatchedAllowed find tx t before → verifyTransfer owner amount before = .ok after →
        MatchedAllowed find tx t after)
    (h : verifySplits matched verifyTransfer splits = .ok matched') :
    MatchedAllowed find tx t matched' := by
  refine (foldlM_eq_ok (Q := fun _ => True) (fun split hsplit before after hbefore h => ?_)
    hm h).1
  obtain ⟨owner, howner, h⟩ := bind_eq_ok.mp h
  obtain ⟨amount, hamount, h⟩ := bind_eq_ok.mp h
  refine ⟨htransfer owner amount before after (hsplits split hsplit _ ?_) hbefore h, trivial⟩
  have howner' : Bytes.fromBase58 32 split.recipient = some owner := okOrElse_eq_ok.mp howner
  show splitPayout split = some (owner, amount.toNat)
  rw [splitPayout, howner', okOrElse_eq_ok.mp hamount]
  rfl

end Transfers
/-- What the terms say about opening accounts, as the allowlist checks it. -/
def OpensFor (t : Terms Pubkey) (expectedMint expectedTokenProgram : Option Pubkey)
    (allowedOwners : List Pubkey) : Prop :=
  (∀ mint ∈ expectedMint, ∃ decimals, PaysToken t mint expectedTokenProgram decimals) ∧
    ∀ owner ∈ allowedOwners, owner ∈ t.owners

/-- An instruction that passes the allowlist does something the terms allow. -/
theorem allows_of_allowAt {matched : List Nat} {expectedMint expectedTokenProgram : Option Pubkey}
    {allowedOwners created created' : List Pubkey} {ix : CompiledInstruction} {i : Nat}
    (hm : MatchedAllowed find tx t matched)
    (hopens : OpensFor t expectedMint expectedTokenProgram allowedOwners)
    (hunits : t.maxUnits = MAX_COMPUTE_UNIT_LIMIT)
    (hprice : t.maxPrice = MAX_COMPUTE_UNIT_PRICE_MICROLAMPORTS)
    (hix : tx.message.instructions[i]? = some ix)
    (h : allowAt find tx.message.staticAccountKeys matched expectedMint allowedOwners
      expectedTokenProgram t.sponsor created (ix, i) = .ok created') :
    t.Allows (associatedTokenAddress find) (ix.effect tx.message.staticAccountKeys) := by
  obtain ⟨program, hprogram, h⟩ := bind_eq_ok.mp h
  have heffect := CompiledInstruction.effect_eq (programIdOf_eq_ok.mp hprogram)
  -- a payment instruction has to be matched, and then it is allowed
  have hpayment : ∀ name, requireMatched matched i name = .ok () →
      t.Allows (associatedTokenAddress find) (ix.effect tx.message.staticAccountKeys) := by
    intro name hrequire
    exact hm i (not_not.mp (rejectIf_eq_ok.mp hrequire)) ix hix
  by_cases hcompute : program = programs.computeBudgetKey
  · subst hcompute
    rw [if_pos rfl] at h
    obtain ⟨u, hvalid, -⟩ := bind_eq_ok.mp h
    rw [heffect, programEffect_computeBudget]
    rcases effect_of_validateComputeBudget hvalid with ⟨units, hle, he⟩ | ⟨price, hle, he⟩
    · rw [he]
      exact Nat.le_trans hle (Nat.le_of_eq hunits.symm)
    · rw [he]
      exact Nat.le_trans hle (Nat.le_of_eq hprice.symm)
  rw [if_neg hcompute] at h
  by_cases hmemo : program = programs.memoKey
  · rw [if_pos hmemo] at h
    obtain ⟨u, hrequire, -⟩ := bind_eq_ok.mp h
    exact hpayment _ hrequire
  rw [if_neg hmemo] at h
  by_cases hsystem : program = programs.systemKey
  · rw [if_pos hsystem] at h
    obtain ⟨u, hrequire, -⟩ := bind_eq_ok.mp h
    exact hpayment _ hrequire
  rw [if_neg hsystem] at h
  by_cases htoken : program = programs.tokenKey ∨ program = programs.token2022Key
  · rw [if_pos htoken] at h
    obtain ⟨u, hrequire, -⟩ := bind_eq_ok.mp h
    exact hpayment _ hrequire
  rw [if_neg htoken] at h
  by_cases hassociated : program = programs.associatedTokenKey
  case neg =>
    rw [if_neg hassociated] at h
    cases h
  subst hassociated
  rw [if_pos rfl] at h
  obtain ⟨owner, hvalid, -⟩ := bind_eq_ok.mp h
  obtain ⟨mint, hmint, program, he, howner, hprograms, hexpected⟩ :=
    effect_of_validateCreateAta hvalid
  obtain ⟨decimals, token, htoken, rfl, -, hfits⟩ := hopens.1 mint hmint
  rw [heffect, programEffect_associatedToken, he]
  exact ⟨token, htoken, rfl, hfits program hprograms hexpected, rfl, hopens.2 owner howner, rfl⟩

/-- Every instruction of a transaction that passes the allowlist does something the terms
allow. -/
theorem allows_of_allowlist {matched : List Nat}
    {expectedMint expectedTokenProgram : Option Pubkey}
    {allowedOwners requiredOwners : List Pubkey}
    (hm : MatchedAllowed find tx t matched)
    (hopens : OpensFor t expectedMint expectedTokenProgram allowedOwners)
    (hunits : t.maxUnits = MAX_COMPUTE_UNIT_LIMIT)
    (hprice : t.maxPrice = MAX_COMPUTE_UNIT_PRICE_MICROLAMPORTS)
    (h : validateInstructionAllowlist find tx.message.staticAccountKeys matched expectedMint
      allowedOwners expectedTokenProgram tx (some t.sponsor) requiredOwners = .ok ()) :
    ∀ ix ∈ tx.message.instructions,
      t.Allows (associatedTokenAddress find) (ix.effect tx.message.staticAccountKeys) := by
  obtain ⟨txFeePayer, -, h⟩ := bind_eq_ok.mp h
  obtain ⟨created, hloop, -⟩ := bind_eq_ok.mp h
  have hall := (foldlM_eq_ok (P := fun _ => True)
    (Q := fun a : CompiledInstruction × Nat =>
      t.Allows (associatedTokenAddress find) (a.1.effect tx.message.staticAccountKeys))
    (fun a ha before after _ hbody => ⟨trivial, ?_⟩) trivial hloop).2
  · intro ix hix
    obtain ⟨i, hi⟩ := List.mem_iff_getElem?.mp hix
    exact hall (ix, i) (List.mem_zipIdx_iff_getElem?.mpr hi)
  · exact allows_of_allowAt hm hopens hunits hprice (List.mem_zipIdx_iff_getElem?.mp ha) hbody

end Accepted

/-! ## The request's terms -/

section Request
variable {find : FindProgramAddress} {tx : VersionedTransaction} {request : ChargeRequest}
  {details : MethodDetails} {feePayer : Pubkey}

/-- The fee payer a request names is the first account. -/
theorem feePayer_of_expected {payer : Option Pubkey} (hfee : details.feePayer = some true)
    (h : expectedFeePayer tx details = .ok payer) :
    ∃ feePayer, payer = some feePayer ∧ details.feePayerKey = some feePayer.toBase58 ∧
      tx.message.staticAccountKeys.head? = some feePayer := by
  unfold expectedFeePayer at h
  rw [hfee, if_neg (by decide)] at h
  simp only [bind_eq_ok, okOrElse_eq_ok, parseKey_eq_ok, rejectIf_eq_ok, ne_eq, not_not] at h
  obtain ⟨text, htext, feePayer, rfl, first, hfirst, -, rfl, hreturn⟩ := h
  obtain rfl : some first = payer := by cases hreturn; rfl
  exact ⟨first, rfl, htext, hfirst⟩

/-- A sponsor opens the accounts of the required owners only. -/
theorem owners_of_policy {policy : AtaCreationPolicy}
    (h : expectedAtaCreationPolicy details.splitList (some feePayer) = .ok policy) :
    ∀ owner ∈ policy.allowedOwners, owner ∈ (chargeTerms request details feePayer).owners := by
  obtain ⟨owners, hmapM, h⟩ := bind_eq_ok.mp h
  obtain rfl := Except.ok.inj h
  intro owner howner
  obtain ⟨⟨owner', required⟩, hmem, rfl⟩ := List.mem_map.mp howner
  obtain ⟨hmem, hrequired⟩ := List.mem_filter.mp hmem
  obtain ⟨split, hsplit, h⟩ := exists_of_mem_mapM hmapM _ hmem
  obtain ⟨key, hkey, h⟩ := bind_eq_ok.mp h
  have hkey' : Bytes.fromBase58 32 split.recipient = some key := okOrElse_eq_ok.mp hkey
  obtain ⟨rfl, rfl⟩ : key = owner' ∧ decide (split.ataCreationRequired = some true) = required := by
    cases h
    exact ⟨rfl, rfl⟩
  refine List.mem_filterMap.mpr ⟨split, hsplit, ?_⟩
  rw [requiredOwner, if_pos (of_decide_eq_true hrequired)]
  exact hkey'

/-- The primary amount goes to the recipient. -/
theorem primary_mem_payouts {amount : UInt64} {recipient : String} {recipientPk : Pubkey}
    (hamount : primaryAmount request details.splitList = .ok amount)
    (hrecipient : request.recipient = some recipient) (hpk : recipient = recipientPk.toBase58) :
    (recipientPk, amount.toNat) ∈ (chargeTerms request details feePayer).payouts := by
  simp only [primaryAmount, bind_eq_ok, okOrElse_eq_ok, rejectIf_eq_ok] at hamount
  obtain ⟨total, htotal, -, -, -, -, hreturn⟩ := hamount
  obtain rfl : total - splitsTotal details.splitList = amount := by cases hreturn; rfl
  have hpayout : primaryPayout request details.splitList =
      some (recipientPk, (total - splitsTotal details.splitList).toNat) := by
    rw [primaryPayout, hrecipient, hpk, htotal]
    simp [Bytes.fromBase58_toBase58]
  refine List.mem_append_left _ ?_
  rw [hpayout]
  exact List.mem_singleton.mpr rfl

theorem split_mem_payouts : ∀ split ∈ details.splitList, ∀ payout ∈ splitPayout split,
    payout ∈ (chargeTerms request details feePayer).payouts := by
  intro split hsplit payout hpayout
  exact List.mem_append_right _ (List.mem_filterMap.mpr ⟨split, hsplit, hpayout⟩)

theorem memo_mem_memos : ∀ memo ∈ expectedMemos request.externalId details.splitList,
    utf8 memo.2 ∈ (chargeTerms request details feePayer).memos := by
  intro memo hmemo
  exact List.mem_map.mpr ⟨memo, hmemo, rfl⟩

/-- The mint and the token program the code expects are those of the request's token. -/
theorem paysToken_of_expected {mint : Pubkey} {tokenProgram : Option Pubkey}
    (hsol : ¬ request.IsNativeSol)
    (hmint : resolveExpectedMint request.currency details.network = .ok mint)
    (hprogram : expectedTokenProgram details = .ok tokenProgram) :
    PaysToken (chargeTerms request details feePayer) mint tokenProgram details.decimals := by
  simp only [resolveExpectedMint, bind_eq_ok, okOrElse_eq_ok, parseKey_eq_ok] at hmint
  obtain ⟨text, htext, rfl⟩ := hmint
  have htoken : chargeToken request details = some {
      mint
      programs := match details.tokenProgram with
        | some tokenProgram => (Bytes.fromBase58 32 tokenProgram).toList
        | none => [programs.tokenKey, programs.token2022Key]
      decimals := details.decimals } := by
    rw [chargeToken, if_neg hsol, htext]
    simp [Bytes.fromBase58_toBase58]
  refine ⟨_, htoken, rfl, rfl, ?_⟩
  intro program hprograms hexpected
  unfold expectedTokenProgram at hprogram
  rcases hdetails : details.tokenProgram with _ | name
  · show program ∈ [programs.tokenKey, programs.token2022Key]
    simpa using hprograms
  · rw [hdetails] at hprogram
    simp only [bind_eq_ok, rejectIf_eq_ok, parseKey_eq_ok] at hprogram
    obtain ⟨-, -, key, rfl, hreturn⟩ := hprogram
    obtain rfl : some key = tokenProgram := by cases hreturn; rfl
    show program ∈ (Bytes.fromBase58 32 key.toBase58).toList
    rw [Bytes.fromBase58_toBase58, hexpected key rfl]
    exact List.mem_singleton.mpr rfl

/-- Every instruction of an accepted transaction does something the request's terms
allow. -/
theorem allows_of_accepted (hfee : details.feePayer = some true)
    (h : verifyPreBroadcast find tx request details = .ok ()) :
    ∃ feePayer : Pubkey, details.feePayerKey = some feePayer.toBase58 ∧
      tx.message.staticAccountKeys.head? = some feePayer ∧
      ∀ ix ∈ tx.message.instructions, (chargeTerms request details feePayer).Allows
        (associatedTokenAddress find) (ix.effect tx.message.staticAccountKeys) := by
  simp only [verifyPreBroadcast, bind_eq_ok, rejectIf_eq_ok, okOrElse_eq_ok, parseKey_eq_ok] at h
  obtain ⟨-, -, -, -, primary, hprimary, recipient, hrecipient, recipientPk, hpk, payer,
    hpayer, -, -, policy, hpolicy, h⟩ := h
  obtain ⟨feePayer, rfl, hkey, hfirst⟩ := feePayer_of_expected hfee hpayer
  refine ⟨feePayer, hkey, hfirst, ?_⟩
  have howners : ∀ owner ∈ policy.allowedOwners,
      owner ∈ (chargeTerms request details feePayer).owners := owners_of_policy hpolicy
  have hpayout : (recipientPk, primary.toNat) ∈ (chargeTerms request details feePayer).payouts :=
    primary_mem_payouts hprimary hrecipient hpk
  have hnone : MatchedAllowed find tx (chargeTerms request details feePayer) [] := by
    intro i hi
    cases hi
  by_cases hsol : request.IsNativeSol
  · rw [if_pos hsol] at h
    simp only [bind_eq_ok] at h
    obtain ⟨first, hfirst, paid, hpaid, noted, hnoted, hallow⟩ := h
    have htoken : (chargeTerms request details feePayer).token = none := if_pos hsol
    have hpaid := (hnone.sol htoken hpayout hfirst).splits split_mem_payouts
      (fun owner amount before after hmem hbefore hafter => hbefore.sol htoken hmem hafter) hpaid
    exact allows_of_allowlist (hpaid.memos memo_mem_memos hnoted)
      ⟨by simp, howners⟩ rfl rfl hallow
  · rw [if_neg hsol] at h
    simp only [bind_eq_ok] at h
    obtain ⟨mint, hmint, -, -, program, hprogram, first, hfirst, paid, hpaid, noted, hnoted,
      hallow⟩ := h
    have htoken : PaysToken (chargeTerms request details feePayer) mint program
        details.decimals := paysToken_of_expected hsol hmint hprogram
    have hpaid := (hnone.spl htoken hpayout hfirst).splits split_mem_payouts
      (fun owner amount before after hmem hbefore hafter => hbefore.spl htoken hmem hafter) hpaid
    refine allows_of_allowlist (hpaid.memos memo_mem_memos hnoted) ⟨?_, howners⟩ rfl rfl hallow
    intro mint' hmint'
    obtain rfl : mint = mint' := Option.some.inj hmint'
    exact ⟨details.decimals, htoken⟩

end Request

/-! ## What co-signing may cost -/

/-- What a transaction may do to a fee payer: it is the first account, every instruction
has an effect the request's terms allow, and so whatever the ledger the transaction takes
none of the fee payer's tokens, one rent at most for each owner a split requires, and a
bounded priority fee. -/
structure FeePayerSafe (find : FindProgramAddress) (tx : VersionedTransaction)
    (request : ChargeRequest) (details : MethodDetails) (feePayer : Pubkey) : Prop where
  first : tx.message.staticAccountKeys[0]? = some feePayer
  allowed : ∀ ix ∈ tx.message.instructions, (chargeTerms request details feePayer).Allows
    (associatedTokenAddress find) (ix.effect tx.message.staticAccountKeys)
  spends : ∀ (programOf : Pubkey → Pubkey) (rent : Nat) (before after : Ledger Pubkey),
    Steps (associatedTokenAddress find) programOf rent feePayer
      (tx.message.instructions.map (·.effect tx.message.staticAccountKeys)) before after →
    after.tokens = before.tokens ∧ after.lamports ≤ before.lamports +
      rent * (details.splitList.filterMap requiredOwner).length
  fee : ∀ default, priorityFee default
      (tx.message.instructions.map (·.effect tx.message.staticAccountKeys)) ≤
    (max default MAX_COMPUTE_UNIT_LIMIT * MAX_COMPUTE_UNIT_PRICE_MICROLAMPORTS + 999999) / 1000000

/-- **The fee payer of an accepted transaction is safe.** -/
theorem feePayerSafe_of_accepted (find : FindProgramAddress) (tx : VersionedTransaction)
    (request : ChargeRequest) (details : MethodDetails) (hfee : details.feePayer = some true)
    (h : verifyPreBroadcast find tx request details = .ok ()) :
    ∃ feePayer : Pubkey, details.feePayerKey = some feePayer.toBase58 ∧
      FeePayerSafe find tx request details feePayer := by
  obtain ⟨feePayer, hkey, hfirst, hallowed⟩ := allows_of_accepted hfee h
  have heffects : ∀ e ∈ tx.message.instructions.map (·.effect tx.message.staticAccountKeys),
      (chargeTerms request details feePayer).Allows (associatedTokenAddress find) e := by
    intro e he
    obtain ⟨ix, hix, rfl⟩ := List.mem_map.mp he
    exact hallowed ix hix
  refine ⟨feePayer, hkey, ?_, hallowed, ?_, ?_⟩
  · rw [← hfirst, List.head?_eq_getElem?]
  · intro programOf rent before after hsteps
    exact spent_le heffects hsteps
  · intro default
    exact priorityFee_le heffects

namespace Sample

/-- The key whose 32 bytes are `b`. -/
def key (b : UInt8) : Pubkey := ⟨List.replicate 32 b, List.length_replicate⟩

/-- The USDC mint and the token accounts of the payer, the recipient and a vendor. -/
def usdc : Pubkey := pubkeyOf mints.USDC_MAINNET (by decide +kernel)
def feePayerAta : Pubkey :=
  pubkeyOf "Gs6NxmndAL3PULGZeYUHCknpMdDVbL46eFCBh856p5z6" (by decide +kernel)
def recipientAta : Pubkey :=
  pubkeyOf "8Ae4vjYTZ5Z8mq2GJMUXpU2LDKMsqDaA7Tg7sZ85Gz9T" (by decide +kernel)
def payerAta : Pubkey :=
  pubkeyOf "GewoiTtgmMFV5vERJqe64UJXUW2ygmxtAxZ8mhpju1dH" (by decide +kernel)
def vendorAta : Pubkey :=
  pubkeyOf "DhscvS2mfxadjGkSvoGxKzgEi6ZnuLunmFEjcZ5sd5u1" (by decide +kernel)

/-- `find_program_address` on the USDC accounts of these keys. -/
def find : FindProgramAddress := fun seeds _ =>
  match seeds.head?.bind List.head? with
  | some 1 => (feePayerAta, 255)
  | some 2 => (recipientAta, 254)
  | some 3 => (payerAta, 255)
  | _ => (vendorAta, 248)

/-- A charge of 1000, 100 of it for the vendor, whose account may have to be opened. -/
def request : ChargeRequest where
  amount := "1000"
  currency := mints.USDC_MAINNET
  recipient := some (key 2).toBase58
  externalId := some "order-1"

def details : MethodDetails where
  decimals := some 6
  tokenProgram := some programs.TOKEN_PROGRAM
  feePayer := some true
  feePayerKey := some (key 1).toBase58
  splits := some [{
    recipient := (key 4).toBase58
    amount := "100"
    ataCreationRequired := some true }]

/-- The payment a client builds for it. -/
def payment : VersionedTransaction where
  signatures := [⟨List.replicate 64 0, rfl⟩, ⟨List.replicate 64 1, rfl⟩]
  message := .legacy ⟨2, 0, 7⟩ {
    accountKeys := [key 1, key 3, payerAta, recipientAta, vendorAta, key 4, usdc,
      programs.systemKey, programs.tokenKey, programs.associatedTokenKey,
      programs.computeBudgetKey, programs.memoKey]
    recentBlockhash := key 9
    instructions := [
      ⟨10, [], [2, 64, 13, 3, 0]⟩,
      ⟨9, [0, 4, 5, 6, 7, 8], [1]⟩,
      ⟨8, [2, 6, 3, 1], [12, 132, 3, 0, 0, 0, 0, 0, 0, 6]⟩,
      ⟨8, [2, 6, 4, 1], [12, 100, 0, 0, 0, 0, 0, 0, 0, 6]⟩,
      ⟨11, [], utf8 "order-1"⟩] }

/-- The sample payment is accepted, and its fee payer is safe. -/
theorem payment_feePayerSafe : verifyPreBroadcast find payment request details = .ok () ∧
    ∃ feePayer : Pubkey, details.feePayerKey = some feePayer.toBase58 ∧
      FeePayerSafe find payment request details feePayer := by
  have haccepted : verifyPreBroadcast find payment request details = .ok () := by
    decide +kernel
  exact ⟨haccepted, feePayerSafe_of_accepted find payment request details rfl haccepted⟩

end Sample
end MppSdk
