import MppSdk.PaymentQuote

/-! # Matching a transaction with a quote

The rounds of the matchers over what a quote asks for (`Quote.pick`).  A round takes a free
instruction that fits (`exists_of_pick`).  In a transaction whose payments all fit
something the quote asks for, the round for a demand passes over every instruction that
does not fit, so it finds one if there is one (`exists_pick`). -/

namespace MppSdk
open Sponsorship Matching

namespace Quote
variable (find : FindProgramAddress) (q : Quote) (tx : VersionedTransaction)

/-- The round of the matchers for one demand. -/
def pick (matched : List Nat) : Demand → Verified (List Nat)
  | .payout recipient amount =>
      match q.token with
      | none => verifySolTransferInstructions tx.message.staticAccountKeys recipient amount
          q.feePayer matched tx
      | some token => verifySplTransferInstructions find tx.message.staticAccountKeys recipient
          token.mint amount token.program token.decimals q.feePayer matched tx
  | .memo label memo => verifyMemo tx.message.staticAccountKeys matched tx label memo

end Quote

/-! ## What a round takes -/

section Rounds
variable {find : FindProgramAddress} {q : Quote} {tx : VersionedTransaction}
  {matched after : List Nat}

/-- A loop body that skips the matched instructions returns none of them. -/
theorem notMem_of_continueIf {index j : Nat} {rest : Verified (Option Nat)}
    (h : continueIf (index ∈ matched) rest = .ok (some j)) : index ∉ matched :=
  (continueIf_eq_some.mp h).1

/-- **A round takes a free instruction that fits.** -/
theorem Quote.exists_of_pick {d : Demand} (h : q.pick find tx matched d = .ok after) :
    ∃ i, after = i :: matched ∧ i ∉ matched ∧
      At (q.Fits find tx.message.staticAccountKeys) tx.message.instructions d i := by
  cases d with
  | payout recipient amount =>
    unfold Quote.pick at h
    rcases htoken : q.token with _ | token
    · simp only [htoken, verifySolTransferInstructions] at h
      obtain ⟨r, hscan, h⟩ := bind_eq_ok.mp h
      cases r with
      | none => cases h
      | some i =>
        obtain ⟨k, ix, hix, hbody⟩ := exists_of_scan hscan
        rw [Nat.zero_add] at hbody
        have hfree : k ∉ matched := notMem_of_continueIf hbody
        obtain ⟨rfl, source, heffect, hfunds⟩ := effect_of_solTransferAt hbody
        refine ⟨i, by cases h; rfl, hfree, ix, hix, ?_⟩
        simp only [Quote.Fits, htoken]
        exact ⟨source, heffect, hfunds⟩
    · simp only [htoken, verifySplTransferInstructions] at h
      obtain ⟨r, hscan, h⟩ := bind_eq_ok.mp h
      cases r with
      | none => cases h
      | some i =>
        obtain ⟨k, ix, hix, hbody⟩ := exists_of_scan hscan
        rw [Nat.zero_add] at hbody
        have hfree : k ∉ matched := notMem_of_continueIf hbody
        obtain ⟨rfl, htransfer⟩ := effect_of_splTransferAt hbody
        refine ⟨i, by cases h; rfl, hfree, ix, hix, ?_⟩
        simp only [Quote.Fits, htoken]
        exact htransfer
  | memo label memo =>
    obtain ⟨-, -, h⟩ := bind_eq_ok.mp h
    obtain ⟨r, hscan, h⟩ := bind_eq_ok.mp h
    cases r with
    | none => cases h
    | some i =>
      obtain ⟨k, ix, hix, hbody⟩ := exists_of_scan hscan
      rw [Nat.zero_add] at hbody
      have hfree : k ∉ matched := notMem_of_continueIf hbody
      obtain ⟨rfl, heffect⟩ := effect_of_memoAt hbody
      exact ⟨i, by cases h; rfl, hfree, ix, hix, heffect⟩

end Rounds

/-! ## What a round passes over -/

section Decided
variable {find : FindProgramAddress} {keys : List Pubkey} {q : Quote} {ix : CompiledInstruction}
  {matched : List Nat} {i : Nat}

theorem continueIf_pos {c : Prop} [Decidable c] {rest : Verified (Option Nat)} (h : c) :
    continueIf c rest = .ok none := if_pos h

theorem continueIf_neg {c : Prop} [Decidable c] {rest : Verified (Option Nat)} (h : ¬ c) :
    continueIf c rest = rest := if_neg h

/-- An instruction that calls a program that exists, and fits something if it is a
payment. -/
structure Readable (find : FindProgramAddress) (keys : List Pubkey) (q : Quote)
    (ix : CompiledInstruction) : Prop where
  calls : ∃ program, keys[ix.programIdIndex.toNat]? = some program
  fits : ix.IsPayment keys → ∃ d, q.Fits find keys d ix

/-- The body takes the instruction if it is free and fits, and passes over it otherwise. -/
def Decides (fits : Prop) (body : Verified (Option Nat)) (matched : List Nat) (i : Nat) : Prop :=
  ((i ∉ matched ∧ fits) ∧ body = .ok (some i)) ∨ (¬ (i ∉ matched ∧ fits) ∧ body = .ok none)

theorem isPayment_of_mem {program : Pubkey}
    (hcalls : keys[ix.programIdIndex.toNat]? = some program)
    (h : program ∈ [programs.memoKey, programs.systemKey, programs.tokenKey,
      programs.token2022Key]) : ix.IsPayment keys :=
  ⟨program, h, hcalls⟩

/-- A System instruction that fits something is a transfer. -/
theorem exists_transfer_of_fits {d : Demand} (htoken : q.token = none)
    (hsystem : keys[ix.programIdIndex.toNat]? = some programs.systemKey)
    (h : q.Fits find keys d ix) :
    ∃ source destination n, ix.effect keys = .transfer source destination n ∧
      q.feePayer ≠ some source := by
  cases d with
  | payout recipient amount =>
    simp only [Quote.Fits, htoken] at h
    obtain ⟨source, heffect, hfunds⟩ := h
    exact ⟨source, recipient, amount.toNat, heffect, hfunds⟩
  | memo label memo =>
    obtain ⟨hmemo, -⟩ := CompiledInstruction.effect_eq_memo.mp h
    rw [hsystem] at hmemo
    exact absurd (Option.some.inj hmemo).symm programs.memoKey_ne.1

/-- The matcher of SOL transfers decides every readable instruction. -/
theorem decides_solTransferAt {recipient : Pubkey} {amount : UInt64} (htoken : q.token = none)
    (hread : Readable find keys q ix) :
    Decides (q.Fits find keys (.payout recipient amount) ix)
      (solTransferAt keys recipient amount q.feePayer matched ix i) matched i := by
  have hfits : q.Fits find keys (.payout recipient amount) ix ↔
      ∃ source, ix.effect keys = .transfer source recipient amount.toNat ∧
        q.feePayer ≠ some source := by
    simp only [Quote.Fits, htoken]
  unfold Decides
  by_cases hfree : i ∈ matched
  · exact Or.inr ⟨fun h => h.1 hfree, continueIf_pos hfree⟩
  obtain ⟨program, hcalls⟩ := hread.calls
  have hprogram : programIdOf keys ix = .ok program := programIdOf_eq_ok.mpr hcalls
  by_cases hsystem : program = programs.systemKey
  case neg =>
    refine Or.inr ⟨?_, ?_⟩
    · rintro ⟨-, h⟩
      obtain ⟨source, heffect, -⟩ := hfits.mp h
      have hcalled := (CompiledInstruction.effect_eq_transfer.mp heffect).1
      exact hsystem (Option.some.inj (hcalls.symm.trans hcalled))
    · rw [solTransferAt, continueIf_neg hfree, hprogram, ok_bind, continueIf_pos hsystem]
  subst hsystem
  obtain ⟨d, hd⟩ := hread.fits (isPayment_of_mem hcalls (by simp))
  obtain ⟨source, destination, n, heffect, hfunds⟩ := exists_transfer_of_fits htoken hcalls hd
  obtain ⟨-, hdata⟩ := CompiledInstruction.effect_eq_transfer.mp heffect
  obtain ⟨hlength, htype, rfl, j, k, rest, haccounts, hsource, hdestination⟩ :=
    systemEffect_eq_transfer.mp hdata
  have hsource' : accountKey keys j "source" = .ok source := accountKey_eq_ok.mpr hsource
  have hdestination' : accountKey keys k "destination" = .ok destination :=
    accountKey_eq_ok.mpr hdestination
  have htype' : ¬ fromLeBytes (slice ix.data 0 4) ≠ 2 := not_not.mpr htype
  have hbody : solTransferAt keys recipient amount q.feePayer matched ix i =
      continueIf (¬ (destination = recipient ∧
        fromLeBytes ((ix.data.drop 4).take 8) = amount.toNat)) (.ok (some i)) := by
    rw [solTransferAt, continueIf_neg hfree, hprogram, ok_bind, continueIf_neg (not_not.mpr rfl),
      continueIf_neg (Nat.not_lt.mpr hlength), continueIf_neg htype', haccounts]
    simp only [hsource', hdestination', ok_bind, rejectIf_neg hfunds]
    rfl
  rw [hbody]
  by_cases hpays : destination = recipient ∧
      fromLeBytes ((ix.data.drop 4).take 8) = amount.toNat
  · refine Or.inl ⟨⟨hfree, hfits.mpr ⟨source, ?_, hfunds⟩⟩, continueIf_neg (not_not.mpr hpays)⟩
    rw [heffect, hpays.1, hpays.2]
  · refine Or.inr ⟨?_, continueIf_pos hpays⟩
    rintro ⟨-, h⟩
    obtain ⟨source', heffect', -⟩ := hfits.mp h
    rw [heffect] at heffect'
    injection heffect' with _ hrecipient hamount
    exact hpays ⟨hrecipient, hamount⟩

/-- A token instruction that fits something is a transfer of the quoted token. -/
theorem exists_tokenTransfer_of_fits {d : Demand} {token : QuotedToken} {program : Pubkey}
    (htoken : q.token = some token)
    (hcalls : keys[ix.programIdIndex.toNat]? = some program)
    (hprogram : program = programs.tokenKey ∨ program = programs.token2022Key)
    (h : q.Fits find keys d ix) :
    ∃ source destination authority n decimals,
      ix.effect keys =
        .tokenTransfer program source token.mint destination authority n decimals ∧
      (∀ expected ∈ token.program, program = expected) ∧
      (∀ expected ∈ token.decimals, decimals = expected) ∧ q.feePayer ≠ some authority ∧
      ∀ payer ∈ q.feePayer, source ≠ associatedTokenAddress find payer program token.mint := by
  cases d with
  | payout recipient amount =>
    simp only [Quote.Fits, htoken] at h
    obtain ⟨program', source, authority, decimals, heffect, -, hrest⟩ := h
    have hcalled := (CompiledInstruction.effect_eq_tokenTransfer.mp heffect).1
    obtain rfl := Option.some.inj (hcalls.symm.trans hcalled)
    exact ⟨source, _, authority, amount.toNat, decimals, heffect, hrest⟩
  | memo label memo =>
    obtain ⟨hmemo, -⟩ := CompiledInstruction.effect_eq_memo.mp h
    obtain rfl := Option.some.inj (hcalls.symm.trans hmemo)
    rcases hprogram with he | he
    · exact absurd he programs.memoKey_ne.2.1
    · exact absurd he programs.memoKey_ne.2.2.1

/-- The matcher of token transfers decides every readable instruction. -/
theorem decides_splTransferAt {recipient : Pubkey} {amount : UInt64} {token : QuotedToken}
    (htoken : q.token = some token) (hread : Readable find keys q ix) :
    Decides (q.Fits find keys (.payout recipient amount) ix)
      (splTransferAt find keys recipient token.mint amount token.program token.decimals q.feePayer
        matched ix i) matched i := by
  unfold Decides
  by_cases hfree : i ∈ matched
  · exact Or.inr ⟨fun h => h.1 hfree, continueIf_pos hfree⟩
  obtain ⟨program, hcalls⟩ := hread.calls
  have hprogramId : programIdOf keys ix = .ok program := programIdOf_eq_ok.mpr hcalls
  have hcalled : q.Fits find keys (.payout recipient amount) ix →
      (program = programs.tokenKey ∨ program = programs.token2022Key) ∧
        ∃ source authority d, ix.effect keys = .tokenTransfer program source token.mint
          (associatedTokenAddress find recipient program token.mint) authority amount.toNat d := by
    intro h
    simp only [Quote.Fits, htoken] at h
    obtain ⟨program', source, authority, d, heffect, hprogram, -⟩ := h
    have hcalled := (CompiledInstruction.effect_eq_tokenTransfer.mp heffect).1
    obtain rfl := Option.some.inj (hcalls.symm.trans hcalled)
    exact ⟨hprogram, source, authority, d, heffect⟩
  by_cases hprogram : program = programs.tokenKey ∨ program = programs.token2022Key
  case neg =>
    refine Or.inr ⟨fun h => hprogram (hcalled h.2).1, ?_⟩
    rw [splTransferAt, continueIf_neg hfree, hprogramId, ok_bind,
      continueIf_pos (not_or.mp hprogram)]
  obtain ⟨d, hd⟩ := hread.fits
    (isPayment_of_mem hcalls (by rcases hprogram with rfl | rfl <;> simp))
  obtain ⟨source, destination, authority, n, decimals, heffect, hexpected, hdecimals,
    hauthority, hfunds⟩ := exists_tokenTransfer_of_fits htoken hcalls hprogram hd
  obtain ⟨-, -, hdata⟩ := CompiledInstruction.effect_eq_tokenTransfer.mp heffect
  obtain ⟨-, a, m, b, c, rest, tail, haccounts, hix, hsource, hmint, hdestination, hauthority',
    htail, rfl⟩ := tokenEffect_eq_transfer.mp hdata
  have hkeys : accountKey keys a "source" = .ok source ∧
      accountKey keys b "destination" = .ok destination ∧
      accountKey keys m "mint" = .ok token.mint ∧
      accountKey keys c "authority" = .ok authority :=
    ⟨accountKey_eq_ok.mpr hsource, accountKey_eq_ok.mpr hdestination, accountKey_eq_ok.mpr hmint,
      accountKey_eq_ok.mpr hauthority'⟩
  have hdecimals' : ¬ ∃ expected ∈ token.decimals, decimals ≠ expected := by
    rintro ⟨expected, he, hne⟩
    exact hne (hdecimals expected he)
  have hexpected' : ¬ ∃ expected ∈ token.program, program ≠ expected := by
    rintro ⟨expected, he, hne⟩
    exact hne (hexpected expected he)
  have hfunds' : ¬ ∃ payer ∈ q.feePayer,
      source = associatedTokenAddress find payer program token.mint := by
    rintro ⟨payer, hp, he⟩
    exact hfunds payer hp he
  have hbody : splTransferAt find keys recipient token.mint amount token.program token.decimals
      q.feePayer matched ix i =
      continueIf (fromLeBytes (tail.take 8) ≠ amount.toNat) (continueIf (destination ≠
        associatedTokenAddress find recipient program token.mint) (.ok (some i))) := by
    have hhead : ¬ (12 :: tail).head? ≠ some 12 := not_not.mpr rfl
    have hd : (12 :: tail)[9]? = some decimals := htail
    have hprogram' : ¬ (program ≠ programs.tokenKey ∧ program ≠ programs.token2022Key) :=
      fun h => hprogram.elim h.1 h.2
    rw [splTransferAt, continueIf_neg hfree, hprogramId, ok_bind, continueIf_neg hprogram',
      continueIf_neg hexpected', hix, continueIf_neg hhead, haccounts, hd]
    simp only [hkeys, ok_bind, continueIf_neg hdecimals', rejectIf_neg hauthority,
      rejectIf_neg hfunds', continueIf_neg (not_not.mpr rfl)]
    rfl
  rw [hbody]
  by_cases hamount : fromLeBytes (tail.take 8) = amount.toNat
  case neg =>
    refine Or.inr ⟨?_, continueIf_pos hamount⟩
    rintro ⟨-, h⟩
    obtain ⟨-, source', authority', d', heffect'⟩ := hcalled h
    rw [heffect] at heffect'
    injection heffect' with _ _ _ _ _ hamount'
    exact hamount hamount'
  rw [continueIf_neg (not_not.mpr hamount)]
  by_cases hdestination : destination = associatedTokenAddress find recipient program token.mint
  · refine Or.inl ⟨⟨hfree, ?_⟩, continueIf_neg (not_not.mpr hdestination)⟩
    simp only [Quote.Fits, htoken]
    refine ⟨program, source, authority, decimals, ?_, hprogram, hexpected, hdecimals, hauthority,
      hfunds⟩
    rw [heffect, hdestination, hamount]
  · refine Or.inr ⟨?_, continueIf_pos hdestination⟩
    rintro ⟨-, h⟩
    obtain ⟨-, source', authority', d', heffect'⟩ := hcalled h
    rw [heffect] at heffect'
    injection heffect' with _ _ _ hdestination'
    exact hdestination hdestination'

/-- The matcher of memos decides every readable instruction. -/
theorem decides_memoAt {label memo : String} (hread : Readable find keys q ix) :
    Decides (q.Fits find keys (.memo label memo) ix) (memoAt keys matched (utf8 memo) ix i)
      matched i := by
  have hfits : q.Fits find keys (.memo label memo) ix ↔
      keys[ix.programIdIndex.toNat]? = some programs.memoKey ∧ ix.data = utf8 memo :=
    CompiledInstruction.effect_eq_memo
  unfold Decides
  by_cases hfree : i ∈ matched
  · exact Or.inr ⟨fun h => h.1 hfree, continueIf_pos hfree⟩
  obtain ⟨program, hcalls⟩ := hread.calls
  have hprogram : programIdOf keys ix = .ok program := programIdOf_eq_ok.mpr hcalls
  have hbody : memoAt keys matched (utf8 memo) ix i =
      continueIf (¬ (program = programs.memoKey ∧ ix.data = utf8 memo)) (.ok (some i)) := by
    rw [memoAt, continueIf_neg hfree, hprogram, ok_bind]
    rfl
  rw [hbody, hfits, hcalls, Option.some.injEq]
  by_cases hmemo : program = programs.memoKey ∧ ix.data = utf8 memo
  · exact Or.inl ⟨⟨hfree, hmemo⟩, continueIf_neg (not_not.mpr hmemo)⟩
  · exact Or.inr ⟨fun h => hmemo h.2, continueIf_pos hmemo⟩

end Decided

/-! ## What a round finds -/

section Found
variable {find : FindProgramAddress} {q : Quote} {tx : VersionedTransaction} {matched : List Nat}

/-- A loop over instructions each of which its body decides takes a free one that fits. -/
theorem exists_scan_of_decides {fits : CompiledInstruction → Prop}
    {body : CompiledInstruction → Nat → Verified (Option Nat)} {items : List CompiledInstruction}
    (hbody : ∀ ix ∈ items, ∀ i, Decides (fits ix) (body ix i) matched i)
    (h : ∃ i, i ∉ matched ∧ ∃ ix, items[i]? = some ix ∧ fits ix) :
    ∃ i, i ∉ matched ∧ (∃ ix, items[i]? = some ix ∧ fits ix) ∧
      scan body 0 items = .ok (some i) := by
  let free : Nat → Prop := fun k => k ∉ matched ∧ ∃ ix, items[k]? = some ix ∧ fits ix
  have hdecided : ∀ k ix, items[k]? = some ix →
      (free (0 + k) ∧ body ix (0 + k) = .ok (some (0 + k))) ∨
        (¬ free (0 + k) ∧ body ix (0 + k) = .ok none) := by
    intro k ix hix
    rw [Nat.zero_add]
    have hsame : (∃ ix, items[k]? = some ix ∧ fits ix) ↔ fits ix := by
      rw [hix]
      simp
    show (k ∉ matched ∧ _) ∧ _ ∨ ¬ (k ∉ matched ∧ _) ∧ _
    rw [hsame]
    exact hbody ix (List.mem_of_getElem? hix) k
  obtain ⟨i, hfree, ix, hix, hfits⟩ := h
  obtain ⟨hlength, -⟩ := List.getElem?_eq_some_iff.mp hix
  have hsome : free (0 + i) := by
    rw [Nat.zero_add]
    exact ⟨hfree, ix, hix, hfits⟩
  obtain ⟨k, -, hk, hscan⟩ := exists_scan_eq hdecided ⟨i, hlength, hsome⟩
  rw [Nat.zero_add] at hk hscan
  obtain ⟨hk, hat⟩ := hk
  exact ⟨k, hk, hat, hscan⟩

/-- **A round finds a free instruction that fits**, if all payments of the transaction fit
something the quote asks for. -/
theorem Quote.exists_pick {d : Demand}
    (hread : ∀ ix ∈ tx.message.instructions, Readable find tx.message.staticAccountKeys q ix)
    (hmemo : ∀ label memo, d = .memo label memo → (utf8 memo).length ≤ 566)
    (h : ∃ i, i ∉ matched ∧
      At (q.Fits find tx.message.staticAccountKeys) tx.message.instructions d i) :
    ∃ i, i ∉ matched ∧ At (q.Fits find tx.message.staticAccountKeys) tx.message.instructions d i ∧
      q.pick find tx matched d = .ok (i :: matched) := by
  cases d with
  | payout recipient amount =>
    rcases htoken : q.token with _ | token
    · obtain ⟨i, hfree, hat, hscan⟩ := exists_scan_of_decides
        (fun ix hix i => decides_solTransferAt htoken (hread ix hix)) h
      refine ⟨i, hfree, hat, ?_⟩
      simp only [Quote.pick, htoken, verifySolTransferInstructions, hscan]
      rfl
    · obtain ⟨i, hfree, hat, hscan⟩ := exists_scan_of_decides
        (fun ix hix i => decides_splTransferAt htoken (hread ix hix)) h
      refine ⟨i, hfree, hat, ?_⟩
      simp only [Quote.pick, htoken, verifySplTransferInstructions, hscan]
      rfl
  | memo label memo =>
    obtain ⟨i, hfree, hat, hscan⟩ := exists_scan_of_decides
      (fun ix hix i => decides_memoAt (hread ix hix)) h
    refine ⟨i, hfree, hat, ?_⟩
    have hlength : ¬ (utf8 memo).length > 566 := Nat.not_lt.mpr (hmemo label memo rfl)
    simp only [Quote.pick, verifyMemo, rejectIf_neg hlength, hscan]
    rfl

end Found
end MppSdk
