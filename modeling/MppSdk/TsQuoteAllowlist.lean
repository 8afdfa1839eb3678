import MppSdk.TsQuoteMatching

/-! # The TypeScript allowlist over a quote

The allowlist of the TypeScript server lets an instruction through exactly if the Rust one does
(`allowAt_iff`), and gathers the texts of the same owners (`allowlist_iff`). -/

namespace MppSdk
namespace Ts
open Sponsorship Matching

section Allowlist
variable {find : FindProgramAddress} {tx : VersionedTransaction} {q : Quote} {payer : Pubkey}
  {matched : List Nat} {allowed : List Pubkey} {ix : MppSdk.CompiledInstruction}

theorem validateComputeBudget_iff :
    validateComputeBudgetInstruction (.ofRust ix) = .ok () ↔
      MppSdk.validateComputeBudgetInstruction ix = .ok () := by
  have haccounts : (CompiledInstruction.ofRust ix).accountIndices.getD [] ≠ [] ↔
      ix.accounts ≠ [] := by
    by_cases h : ix.accounts = [] <;> simp [CompiledInstruction.ofRust, h]
  simp only [validateComputeBudgetInstruction, MppSdk.validateComputeBudgetInstruction,
    bind_eq_ok, rejectIf_eq_ok, haccounts, data_eq_ok]
  by_cases hdata : ix.data = []
  · simp [hdata]
  constructor
  · rintro ⟨u, hnone, _, ⟨-, rfl⟩, h⟩
    refine ⟨u, hnone, ?_⟩
    split at h
    · rw [if_pos ‹_›]
      exact rejectIf_eq_ok.mpr (rejectIf_eq_ok.mp h)
    · rw [if_neg ‹_›]
      split at h
      · rw [if_pos ‹_›]
        exact rejectIf_eq_ok.mpr (rejectIf_eq_ok.mp h)
      · cases h
  · rintro ⟨u, hnone, h⟩
    refine ⟨u, hnone, ix.data, ⟨hdata, rfl⟩, ?_⟩
    split at h
    · rw [if_pos ‹_›]
      exact rejectIf_eq_ok.mpr (rejectIf_eq_ok.mp h)
    · rw [if_neg ‹_›]
      split at h
      · rw [if_pos ‹_›]
        exact rejectIf_eq_ok.mpr (rejectIf_eq_ok.mp h)
      · cases h

/-- A key is among others if its text is among theirs. -/
theorem toBase58_mem {key : Pubkey} {keys : List Pubkey} :
    key.toBase58 ∈ keys.map Bytes.toBase58 ↔ key ∈ keys := by
  simp [toBase58_inj]

/-- The account check accepts the instructions that the Rust one does. -/
theorem validateCreateAta_iff {mint program : Option Pubkey} {text : String} :
    validateCreateAtaIdempotentInstruction find (.ofRust tx.message) (.ofRust ix)
        (mint.map Bytes.toBase58) (allowed.map Bytes.toBase58) (program.map Bytes.toBase58)
        payer.toBase58 = .ok text ↔
      ∃ owner, MppSdk.validateCreateAtaIdempotentInstruction find tx.message.staticAccountKeys mint
        allowed program payer ix = .ok owner ∧ owner.toBase58 = text := by
  have hmint : truthy (mint.map Bytes.toBase58) = mint.map Bytes.toBase58 := by
    cases mint with
    | none => rfl
    | some key => exact truthy_toBase58 key
  have hprogram : truthy (program.map Bytes.toBase58) = program.map Bytes.toBase58 := by
    cases program with
    | none => rfl
    | some key => exact truthy_toBase58 key
  have hexpected : ∀ key : Pubkey,
      (∃ expected ∈ program.map Bytes.toBase58, key.toBase58 ≠ expected) ↔
        ∃ expected ∈ program, key ≠ expected := by
    intro key
    cases program with
    | none => simp
    | some expected => simp [toBase58_inj]
  simp only [validateCreateAtaIdempotentInstruction, hmint, hprogram, bind_eq_ok, okOrElse_eq_ok,
    rejectIf_eq_ok, data_eq_ok, accountIndices_eq_ok, ne_eq, not_not,
    MppSdk.validateCreateAtaIdempotentInstruction, Option.map_eq_some_iff]
  by_cases hlayout : ∃ a b c d e f, ix.accounts = [a, b, c, d, e, f]
  case neg =>
    -- any other number of accounts is an unexpected layout
    constructor
    · rintro ⟨_, -, _, -, u, -, indices, ⟨-, hindices⟩, h⟩
      split at h
      · simp only [List.map_eq_cons_iff, List.map_eq_nil_iff] at hindices
        obtain ⟨a, _, haccounts, -, b, _, rfl, -, c, _, rfl, -, d, _, rfl, -, e, _, rfl, -, f, _, rfl,
          -, rfl⟩ := hindices
        exact absurd ⟨a, b, c, d, e, f, haccounts⟩ hlayout
      · cases h
    · rintro ⟨owner, ⟨_, -, u, -, h⟩, -⟩
      split at h
      · exact absurd ⟨_, _, _, _, _, _, ‹_›⟩ hlayout
      · cases h
  obtain ⟨a, b, c, d, e, f, haccounts⟩ := hlayout
  rw [haccounts]
  -- the same checks: Rust looks at the owner third, TypeScript last
  constructor
  · rintro ⟨_, ⟨mint, hm, rfl⟩, _, ⟨-, rfl⟩, u, hone, indices, ⟨-, rfl⟩, h⟩
    simp only [List.map_cons, List.map_nil, bind_eq_ok, accountAddress_eq_ok, rejectIf_eq_ok,
      not_not] at h
    obtain ⟨_, ⟨payer', ha, rfl⟩, _, ⟨ata, hb, rfl⟩, _, ⟨owner, hc, rfl⟩, _, ⟨mint', hd, rfl⟩, _,
      ⟨system, he, rfl⟩, _, ⟨token, hf, rfl⟩, u₁, hpayer, u₂, hmint', u₃, hsystem, u₄, htoken, u₅,
      hsame, _, hata, u₆, hderived, u₇, hallowed, hreturn⟩ := h
    rw [findAssociatedTokenPda_eq] at hata
    obtain rfl := Except.ok.inj hata
    refine ⟨owner, ⟨mint, hm, u, hone, ?_⟩, Except.ok.inj hreturn⟩
    simp only [bind_eq_ok, accountKey_eq_ok, rejectIf_eq_ok, not_not]
    exact ⟨payer', ha, ata, hb, owner, hc, mint', hd, system, he, token, hf, u₁,
      toBase58_inj.mp hpayer, u₂, toBase58_inj.mp hmint', u₃, toBase58_mem.mp hallowed, u₄, hsystem,
      u₅, htoken, u₆, fun h => hsame ((hexpected token).mpr h), u₇, toBase58_inj.mp hderived, rfl⟩
  · rintro ⟨owner, ⟨mint, hm, u, hone, h⟩, rfl⟩
    simp only [bind_eq_ok, accountKey_eq_ok, rejectIf_eq_ok, not_not] at h
    obtain ⟨payer', ha, ata, hb, owner', hc, mint', hd, system, he, token, hf, u₁, hpayer, u₂, hmint',
      u₃, hallowed, u₄, hsystem, u₅, htoken, u₆, hsame, u₇, hderived, hreturn⟩ := h
    obtain rfl := Except.ok.inj hreturn
    refine ⟨_, ⟨mint, hm, rfl⟩, _, ⟨by rw [hone]; simp, rfl⟩, u, hone, _, ⟨by simp, rfl⟩, ?_⟩
    simp only [List.map_cons, List.map_nil, bind_eq_ok, accountAddress_eq_ok, rejectIf_eq_ok,
      not_not]
    exact ⟨_, ⟨payer', ha, rfl⟩, _, ⟨ata, hb, rfl⟩, _, ⟨owner', hc, rfl⟩, _, ⟨mint', hd, rfl⟩, _,
      ⟨system, he, rfl⟩, _, ⟨token, hf, rfl⟩, u₁, toBase58_inj.mpr hpayer, u₂,
      toBase58_inj.mpr hmint', u₄, hsystem, u₅, htoken, u₆, fun h => hsame ((hexpected token).mp h),
      _, findAssociatedTokenPda_eq find mint' owner' token, u₇, toBase58_inj.mpr hderived, u₃,
      toBase58_mem.mpr hallowed, rfl⟩

/-- The options of the allowlist, for keys. -/
def AllowlistOptions.ofKeys (allowed : List Pubkey) (mint program feePayer : Option Pubkey)
    (required : List Pubkey) : AllowlistOptions where
  allowedAtaOwners := allowed.map Bytes.toBase58
  expectedMint := mint.map Bytes.toBase58
  expectedTokenProgram := program.map Bytes.toBase58
  feePayer := feePayer.map Bytes.toBase58
  requiredAtaOwners := required.map Bytes.toBase58

/-- The allowlist lets an instruction through if the Rust one does. -/
theorem allowAt_iff {mint program feePayer : Option Pubkey} {required : List Pubkey}
    {created : List Pubkey} {i : Nat} {texts : List String} :
    allowAt find (.ofRust tx.message) matched
        (.ofKeys allowed mint program feePayer required) payer.toBase58
        (created.map Bytes.toBase58) (.ofRust ix, i) = .ok texts ↔
      ∃ after, MppSdk.allowAt find tx.message.staticAccountKeys matched mint allowed program payer
        created (ix, i) = .ok after ∧ after.map Bytes.toBase58 = texts := by
  have hrequire : ∀ name, requireMatched matched i name = .ok () ↔
      MppSdk.requireMatched matched i name = .ok () := by
    intro name
    rw [requireMatched, MppSdk.requireMatched, rejectIf_eq_ok, rejectIf_eq_ok]
  have hkeep : ∀ {t : Thrown Unit} {r : Verified Unit}, (t = .ok () ↔ r = .ok ()) →
      ((t >>= fun _ => (return created.map Bytes.toBase58 : Thrown _)) = .ok texts ↔
        ∃ after, (r >>= fun _ => (return created : Verified _)) = .ok after ∧
          after.map Bytes.toBase58 = texts) := by
    intro t r hsame
    simp only [bind_eq_ok, hsame]
    constructor
    · rintro ⟨u, hr, h⟩
      exact ⟨created, ⟨u, hr, rfl⟩, Except.ok.inj h⟩
    · rintro ⟨after, ⟨u, hr, h⟩, rfl⟩
      obtain rfl := Except.ok.inj h
      exact ⟨u, hr, rfl⟩
  rcases hcalls : tx.message.staticAccountKeys[ix.programIdIndex.toNat]? with _ | key
  · -- an index out of range is an error in both
    have hts : ∀ text, programAddress (.ofRust tx.message) (.ofRust ix) ≠ .ok text := by
      intro text h
      obtain ⟨key, hkey, -⟩ := programAddress_eq_ok.mp h
      rw [hcalls] at hkey
      cases hkey
    constructor
    · intro h
      obtain ⟨text, htext, -⟩ := bind_eq_ok.mp h
      exact absurd htext (hts text)
    · rintro ⟨after, h, -⟩
      obtain ⟨key, hkey, -⟩ := bind_eq_ok.mp h
      rw [programIdOf_eq_ok, hcalls] at hkey
      cases hkey
  rw [allowAt, programAddress_of_some hcalls, ok_bind]
  simp only [MppSdk.allowAt, programIdOf_eq_ok.mpr hcalls, ok_bind]
  have hbudget : key.toBase58 = programs.COMPUTE_BUDGET_PROGRAM ↔ key = programs.computeBudgetKey :=
    pubkeyOf_eq_iff
  have hmemo : key.toBase58 = programs.MEMO_PROGRAM ↔ key = programs.memoKey := pubkeyOf_eq_iff
  have hsystem : key.toBase58 = programs.SYSTEM_PROGRAM ↔ key = programs.systemKey :=
    pubkeyOf_eq_iff
  have htoken : key.toBase58 = programs.TOKEN_PROGRAM ↔ key = programs.tokenKey := pubkeyOf_eq_iff
  have htoken2022 : key.toBase58 = programs.TOKEN_2022_PROGRAM ↔ key = programs.token2022Key :=
    pubkeyOf_eq_iff
  have hassociated : key.toBase58 = programs.ASSOCIATED_TOKEN_PROGRAM ↔
      key = programs.associatedTokenKey := pubkeyOf_eq_iff
  simp only [hbudget, hmemo, hsystem, htoken, htoken2022, hassociated]
  split
  · exact hkeep validateComputeBudget_iff
  split
  · exact hkeep (hrequire _)
  split
  · exact hkeep (hrequire _)
  split
  · exact hkeep (hrequire _)
  split
  · simp only [AllowlistOptions.ofKeys, bind_eq_ok, validateCreateAta_iff]
    constructor
    · rintro ⟨_, ⟨owner, hvalid, rfl⟩, h⟩
      exact ⟨owner :: created, ⟨owner, hvalid, rfl⟩, Except.ok.inj h⟩
    · rintro ⟨after, ⟨owner, hvalid, h⟩, rfl⟩
      obtain rfl := Except.ok.inj h
      exact ⟨_, ⟨owner, hvalid, rfl⟩, rfl⟩
  · simp [error]

/-- The loops of the allowlists gather the same owners. -/
theorem foldlM_allowAt_iff {mint program feePayer : Option Pubkey} {required : List Pubkey}
    {items : List (MppSdk.CompiledInstruction × Nat)} :
    ∀ {created : List Pubkey} {texts : List String},
      (items.map (Prod.map CompiledInstruction.ofRust id)).foldlM
          (allowAt find (.ofRust tx.message) matched
            (.ofKeys allowed mint program feePayer required) payer.toBase58)
          (created.map Bytes.toBase58) = .ok texts ↔
        ∃ after, items.foldlM (MppSdk.allowAt find tx.message.staticAccountKeys matched mint allowed
          program payer) created = .ok after ∧ after.map Bytes.toBase58 = texts := by
  induction items with
  | nil =>
    intro created texts
    simp [pure, Except.pure]
  | cons item items ih =>
    intro created texts
    obtain ⟨ix, i⟩ := item
    simp only [List.map_cons, List.foldlM_cons, bind_eq_ok, Prod.map_apply, id_eq, allowAt_iff]
    constructor
    · rintro ⟨_, ⟨next, hnext, rfl⟩, hrest⟩
      obtain ⟨after, hafter, rfl⟩ := ih.mp hrest
      exact ⟨after, ⟨next, hnext, hafter⟩, rfl⟩
    · rintro ⟨after, ⟨next, hnext, hafter⟩, rfl⟩
      exact ⟨_, ⟨next, hnext, rfl⟩, ih.mpr ⟨after, hafter, rfl⟩⟩

/-- The owners that are required are among those whose accounts are open. -/
theorem requireCreated_iff {created required : List Pubkey} :
    requireCreated (required.map Bytes.toBase58) (created.map Bytes.toBase58) = .ok () ↔
      ∀ owner ∈ required, owner ∈ created := by
  induction required with
  | nil => simp [requireCreated, pure, Except.pure]
  | cons owner required ih =>
    have hrest : requireCreated ((owner :: required).map Bytes.toBase58)
        (created.map Bytes.toBase58) = .ok () ↔
          ¬ owner.toBase58 ∉ created.map Bytes.toBase58 ∧
            requireCreated (required.map Bytes.toBase58) (created.map Bytes.toBase58) =
              .ok () := by
      show (throwIf _ _ >>= fun _ => _) = _ ↔ _
      rw [bind_eq_ok]
      simp only [rejectIf_eq_ok]
      exact ⟨fun ⟨_, h⟩ => h, fun h => ⟨(), h⟩⟩
    rw [hrest, not_not, toBase58_mem, ih, List.forall_mem_cons]

/-- **The allowlists agree.** -/
theorem allowlist_iff {mint program feePayer : Option Pubkey} {required : List Pubkey} :
    validateInstructionAllowlist find (.ofRust tx.message) matched
        (.ofKeys allowed mint program feePayer required) = .ok () ↔
      MppSdk.validateInstructionAllowlist find tx.message.staticAccountKeys matched mint allowed
        program tx feePayer required = .ok () := by
  have hzip : (CompiledMessage.ofRust tx.message).instructions.zipIdx =
      tx.message.instructions.zipIdx.map (Prod.map CompiledInstruction.ofRust id) :=
    List.zipIdx_map ..
  have hhead : ∀ payer : Pubkey, tx.message.staticAccountKeys.head? = some payer →
      truthy (CompiledMessage.ofRust tx.message).staticAccounts.head? = some payer.toBase58 := by
    intro payer hpayer
    show truthy (tx.message.staticAccountKeys.map Bytes.toBase58).head? = _
    rw [List.head?_map, hpayer]
    exact truthy_toBase58 payer
  rcases hpayer : tx.message.staticAccountKeys.head? with _ | payer
  · have hnone : truthy (CompiledMessage.ofRust tx.message).staticAccounts.head? = none := by
      show truthy (tx.message.staticAccountKeys.map Bytes.toBase58).head? = _
      rw [List.head?_map, hpayer]
      rfl
    simp [validateInstructionAllowlist, MppSdk.validateInstructionAllowlist, hnone, hpayer,
      bind_eq_ok]
  have hget : (AllowlistOptions.ofKeys allowed mint program feePayer required).feePayer.getD
      payer.toBase58 = (feePayer.getD payer).toBase58 := by
    cases feePayer <;> rfl
  simp only [validateInstructionAllowlist, MppSdk.validateInstructionAllowlist, hhead payer hpayer,
    hpayer, okOrElse, ok_bind, hget, hzip, bind_eq_ok]
  have hstart : ∀ texts, (tx.message.instructions.zipIdx.map
        (Prod.map CompiledInstruction.ofRust id)).foldlM (allowAt find (.ofRust tx.message) matched
          (.ofKeys allowed mint program feePayer required) (feePayer.getD payer).toBase58)
            (([] : List Pubkey).map Bytes.toBase58) = .ok texts ↔ _ :=
    fun texts => foldlM_allowAt_iff
  simp only [List.map_nil] at hstart
  simp only [hstart, forM_rejectIf_eq_ok]
  constructor
  · rintro ⟨_, ⟨created, hcreated, rfl⟩, h⟩
    exact ⟨created, hcreated, requireCreated_iff.mp h⟩
  · rintro ⟨created, hcreated, h⟩
    exact ⟨_, ⟨created, hcreated, rfl⟩, requireCreated_iff.mpr h⟩

end Allowlist

end Ts
end MppSdk
