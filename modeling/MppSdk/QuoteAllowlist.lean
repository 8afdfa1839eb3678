import MppSdk.QuoteMatching

/-! # The allowlist over a quote

An instruction passes the allowlist if it is a payment that is matched, sets the compute
budget within its bounds, or opens the account of an owner the quote allows
(`allowAt_eq_ok`).  So a transaction passes if all instructions do, and the accounts the
quote requires are among those opened (`allowlist_eq_ok`). -/

namespace MppSdk
open Sponsorship

/-! ## One instruction -/

section Budget
variable {ix : CompiledInstruction}

theorem leBytes_fromLeBytes (bytes : List UInt8) : leBytes bytes.length (fromLeBytes bytes) = bytes := by
  induction bytes with
  | nil => rfl
  | cons b bytes ih =>
    have hb : b.toNat < 256 := b.toNat_lt
    have hhead : UInt8.ofNat (b.toNat + 256 * fromLeBytes bytes) = b := by
      apply UInt8.toNat_inj.mp
      rw [UInt8.toNat_ofNat']
      omega
    have htail : (b.toNat + 256 * fromLeBytes bytes) / 256 = fromLeBytes bytes := by omega
    rw [List.length_cons, leBytes, fromLeBytes, hhead, htail, ih]

theorem fromLeBytes_leBytes_of_lt {k n : Nat} (h : n < 256 ^ k) :
    fromLeBytes (leBytes k n) = n := by
  rw [fromLeBytes_leBytes, Nat.mod_eq_of_lt h]

/-- The compute-budget check accepts exactly the instructions within the bounds. -/
theorem validateComputeBudget_eq_ok :
    validateComputeBudgetInstruction ix = .ok () ↔ ix.accounts = [] ∧
      ((∃ units ≤ MAX_COMPUTE_UNIT_LIMIT, ix.data = 2 :: leBytes 4 units) ∨
        ∃ price ≤ MAX_COMPUTE_UNIT_PRICE_MICROLAMPORTS, ix.data = 3 :: leBytes 8 price) := by
  constructor
  · intro h
    simp only [validateComputeBudgetInstruction, bind_eq_ok, rejectIf_eq_ok, ne_eq, not_not] at h
    obtain ⟨-, haccounts, h⟩ := h
    refine ⟨haccounts, ?_⟩
    by_cases hlimit : ix.data.head? = some 2 ∧ ix.data.length = 5
    · rw [if_pos hlimit, rejectIf_eq_ok] at h
      obtain ⟨data, hdata⟩ := List.head?_eq_some_iff.mp hlimit.1
      have hlength : data.length = 4 := by
        have hlen := hlimit.2
        rw [hdata, List.length_cons] at hlen
        omega
      have hslice : slice ix.data 1 5 = data := by
        rw [hdata]
        exact List.take_of_length_le (Nat.le_of_eq hlength)
      rw [hslice] at h
      refine Or.inl ⟨fromLeBytes data, Nat.le_of_not_lt h, ?_⟩
      rw [hdata, ← hlength, leBytes_fromLeBytes]
    · rw [if_neg hlimit] at h
      by_cases hprice : ix.data.head? = some 3 ∧ ix.data.length = 9
      · rw [if_pos hprice, rejectIf_eq_ok] at h
        obtain ⟨data, hdata⟩ := List.head?_eq_some_iff.mp hprice.1
        have hlength : data.length = 8 := by
          have hlen := hprice.2
          rw [hdata, List.length_cons] at hlen
          omega
        have hslice : slice ix.data 1 9 = data := by
          rw [hdata]
          exact List.take_of_length_le (Nat.le_of_eq hlength)
        rw [hslice] at h
        refine Or.inr ⟨fromLeBytes data, Nat.le_of_not_lt h, ?_⟩
        rw [hdata, ← hlength, leBytes_fromLeBytes]
      · rw [if_neg hprice] at h
        cases h
  · rintro ⟨haccounts, ⟨units, hunits, hdata⟩ | ⟨price, hprice, hdata⟩⟩
    · have hbound : units < 256 ^ 4 := Nat.lt_of_le_of_lt hunits (by decide)
      have hslice : slice ix.data 1 5 = leBytes 4 units := by
        rw [hdata]
        exact List.take_of_length_le (Nat.le_of_eq (leBytes_length 4 units))
      have hlimit : ix.data.head? = some 2 ∧ ix.data.length = 5 := by
        rw [hdata]
        exact ⟨rfl, by rw [List.length_cons, leBytes_length]⟩
      simp only [validateComputeBudgetInstruction, haccounts, if_pos hlimit, bind_eq_ok,
        rejectIf_eq_ok, ne_eq, not_true, not_false_eq_true, true_and, exists_const]
      rw [hslice, fromLeBytes_leBytes_of_lt hbound]
      exact Nat.not_lt.mpr hunits
    · have hbound : price < 256 ^ 8 := Nat.lt_of_le_of_lt hprice (by decide)
      have hslice : slice ix.data 1 9 = leBytes 8 price := by
        rw [hdata]
        exact List.take_of_length_le (Nat.le_of_eq (leBytes_length 8 price))
      have hnot : ¬ (ix.data.head? = some 2 ∧ ix.data.length = 5) := by
        rw [hdata]
        exact fun h => absurd h.1 (by simp)
      have hsome : ix.data.head? = some 3 ∧ ix.data.length = 9 := by
        rw [hdata]
        exact ⟨rfl, by rw [List.length_cons, leBytes_length]⟩
      simp only [validateComputeBudgetInstruction, haccounts, if_neg hnot, if_pos hsome,
        bind_eq_ok, rejectIf_eq_ok, ne_eq, not_true, not_false_eq_true, true_and, exists_const]
      rw [hslice, fromLeBytes_leBytes_of_lt hbound]
      exact Nat.not_lt.mpr hprice

end Budget

section Opens
variable {find : FindProgramAddress} {keys : List Pubkey} {q : Quote} {ix : CompiledInstruction}
  {payer owner : Pubkey} {allowed : List Pubkey}

/-- The account check accepts exactly the instructions that open the account of an allowed
owner. -/
theorem validateCreateAta_eq_ok (hpayer : keys.head? = some payer)
    (hcalls : keys[ix.programIdIndex.toNat]? = some programs.associatedTokenKey) :
    validateCreateAtaIdempotentInstruction find keys (q.token.map (·.mint)) allowed
        (q.token.bind (·.program)) payer ix = .ok owner ↔
      owner ∈ allowed ∧ q.Opens find keys owner ix := by
  constructor
  · intro h
    simp only [validateCreateAtaIdempotentInstruction, bind_eq_ok, rejectIf_eq_ok, okOrElse_eq_ok,
      ne_eq, not_not, Option.map_eq_some_iff] at h
    obtain ⟨mint, ⟨token, htoken, rfl⟩, -, hdata, h⟩ := h
    split at h
    case h_2 => cases h
    rename_i payerIndex ataIndex ownerIndex mintIndex systemIndex tokenIndex haccounts
    simp only [bind_eq_ok, rejectIf_eq_ok, accountKey_eq_ok, not_not, not_and_or] at h
    obtain ⟨payer', hpayer', ata, hata, owner', howner, mint', hmint, system, hsystem, program,
      hprogram, -, rfl, -, rfl, -, hallowed, -, hsystemKey, -, hprograms, -, hfits, -, rfl,
      hreturn⟩ := h
    obtain rfl : owner' = owner := by cases hreturn; rfl
    obtain rfl : system = programs.systemKey := pubkeyOf_eq_iff.mp hsystemKey
    refine ⟨hallowed, ⟨programs.associatedTokenKey, List.mem_singleton.mpr rfl, hcalls⟩, hdata,
      token, htoken, payer', hpayer, program, ?_, ?_, ?_⟩
    · exact hprograms.imp pubkeyOf_eq_iff.mp pubkeyOf_eq_iff.mp
    · intro expected he
      refine not_not.mp fun hne => hfits ⟨expected, ?_, hne⟩
      rw [htoken]
      exact he
    · rw [haccounts]
      simp only [List.map_cons, List.map_nil, hpayer', hata, howner, hmint, hsystem, hprogram]
  · rintro ⟨hallowed, -, hdata, token, htoken, payer', hpayer', program, hprogram, hexpected,
      haccounts⟩
    obtain rfl : payer' = payer := Option.some.inj (hpayer'.symm.trans hpayer)
    have hlayout : ∃ a b c d e f, ix.accounts = [a, b, c, d, e, f] := by
      have hlength := congrArg List.length haccounts
      rw [List.length_map] at hlength
      match hix : ix.accounts, hlength with
      | [a, b, c, d, e, f], _ => exact ⟨a, b, c, d, e, f, rfl⟩
    obtain ⟨a, b, c, d, e, f, hix⟩ := hlayout
    rw [hix] at haccounts
    simp only [List.map_cons, List.map_nil, List.cons.injEq, and_true] at haccounts
    obtain ⟨ha, hb, hc, hd, he, hf⟩ := haccounts
    have hsystem : programs.systemKey.toBase58 = programs.SYSTEM_PROGRAM := pubkeyOf_eq_iff.mpr rfl
    have hprogram' : ¬ (program.toBase58 ≠ programs.TOKEN_PROGRAM ∧
        program.toBase58 ≠ programs.TOKEN_2022_PROGRAM) := by
      rw [not_and_or, not_not, not_not]
      exact hprogram.imp pubkeyOf_eq_iff.mpr pubkeyOf_eq_iff.mpr
    have hexpected' : ¬ ∃ expected ∈ q.token.bind (·.program), program ≠ expected := by
      rintro ⟨expected, hmem, hne⟩
      have hsome : q.token = some token := htoken
      rw [hsome] at hmem
      exact hne (hexpected expected hmem)
    have hmint : q.token.map (·.mint) = some token.mint := by
      rw [show q.token = some token from htoken]
      rfl
    simp only [validateCreateAtaIdempotentInstruction, bind_eq_ok, rejectIf_eq_ok, okOrElse_eq_ok,
      ne_eq, not_not]
    refine ⟨token.mint, hmint, (), hdata, ?_⟩
    rw [hix]
    simp only [bind_eq_ok, rejectIf_eq_ok, accountKey_eq_ok, ne_eq, not_not]
    exact ⟨payer', ha, _, hb, owner, hc, token.mint, hd, _, he, program, hf, (), rfl, (), rfl, (),
      hallowed, (), hsystem, (), hprogram', (), hexpected', (), rfl, rfl⟩

/-- An instruction opens the account of one owner only. -/
theorem Quote.Opens.unique {owner' : Pubkey} (h : q.Opens find keys owner ix)
    (h' : q.Opens find keys owner' ix) : owner = owner' := by
  obtain ⟨-, -, token, -, payer, -, program, -, -, haccounts⟩ := h
  obtain ⟨-, -, token', -, payer', -, program', -, -, haccounts'⟩ := h'
  rw [haccounts] at haccounts'
  injection haccounts' with _ haccounts'
  injection haccounts' with _ haccounts'
  injection haccounts' with howner _
  exact Option.some.inj howner

end Opens

/-! ## Every instruction -/

section Allowlist
variable {find : FindProgramAddress} {keys : List Pubkey} {q : Quote} {payer : Pubkey}
  {matched : List Nat} {allowed : List Pubkey}

/-- The owners whose accounts are open after an instruction that passes the allowlist. -/
inductive Passes (find : FindProgramAddress) (keys : List Pubkey) (q : Quote)
    (matched : List Nat) (allowed created : List Pubkey) (ix : CompiledInstruction) (i : Nat) :
    List Pubkey → Prop
  | payment (hpays : ix.IsPayment keys) (hmatched : i ∈ matched) :
      Passes find keys q matched allowed created ix i created
  | budget (hbudget : ix.IsBudget keys) : Passes find keys q matched allowed created ix i created
  | opens (owner : Pubkey) (hallowed : owner ∈ allowed) (hopens : q.Opens find keys owner ix) :
      Passes find keys q matched allowed created ix i (owner :: created)

theorem requireMatched_eq_ok {i : Nat} {program : String} :
    requireMatched matched i program = .ok () ↔ i ∈ matched := by
  rw [requireMatched, rejectIf_eq_ok, not_not]

/-- The program of an instruction that opens an account is that of accounts. -/
theorem Quote.Opens.calls {owner : Pubkey} {ix : CompiledInstruction}
    (h : q.Opens find keys owner ix) :
    keys[ix.programIdIndex.toNat]? = some programs.associatedTokenKey := by
  obtain ⟨program, hmem, hcalls⟩ := h.1
  obtain rfl := List.mem_singleton.mp hmem
  exact hcalls

/-- The allowlist lets an instruction through exactly if it passes. -/
theorem allowAt_eq_ok {created after : List Pubkey} {ix : CompiledInstruction} {i : Nat}
    (hpayer : keys.head? = some payer) :
    allowAt find keys matched (q.token.map (·.mint)) allowed (q.token.bind (·.program)) payer
        created (ix, i) = .ok after ↔
      Passes find keys q matched allowed created ix i after := by
  constructor
  · intro h
    obtain ⟨program, hprogram, h⟩ := bind_eq_ok.mp h
    have hcalls := programIdOf_eq_ok.mp hprogram
    have hpayment : ∀ name, program ∈ [programs.memoKey, programs.systemKey, programs.tokenKey,
          programs.token2022Key] →
        (requireMatched matched i name >>= fun _ => (return created : Verified _)) = .ok after →
        Passes find keys q matched allowed created ix i after := by
      intro name hmem h
      obtain ⟨u, hrequire, h⟩ := bind_eq_ok.mp h
      obtain rfl : created = after := by cases h; rfl
      exact .payment (isPayment_of_mem hcalls hmem) (requireMatched_eq_ok.mp hrequire)
    by_cases hbudget : program = programs.computeBudgetKey
    · rw [if_pos hbudget] at h
      obtain ⟨u, hvalid, h⟩ := bind_eq_ok.mp h
      obtain rfl : created = after := by cases h; rfl
      obtain ⟨haccounts, hdata⟩ := validateComputeBudget_eq_ok.mp hvalid
      exact .budget ⟨⟨program, List.mem_singleton.mpr hbudget, hcalls⟩, haccounts, hdata⟩
    rw [if_neg hbudget] at h
    by_cases hmemo : program = programs.memoKey
    · rw [if_pos hmemo] at h
      exact hpayment _ (by simp [hmemo]) h
    rw [if_neg hmemo] at h
    by_cases hsystem : program = programs.systemKey
    · rw [if_pos hsystem] at h
      exact hpayment _ (by simp [hsystem]) h
    rw [if_neg hsystem] at h
    by_cases htoken : program = programs.tokenKey ∨ program = programs.token2022Key
    · rw [if_pos htoken] at h
      exact hpayment _ (by rcases htoken with rfl | rfl <;> simp) h
    rw [if_neg htoken] at h
    by_cases hassociated : program = programs.associatedTokenKey
    · subst hassociated
      rw [if_pos rfl] at h
      obtain ⟨owner, hvalid, h⟩ := bind_eq_ok.mp h
      obtain rfl : owner :: created = after := by cases h; rfl
      obtain ⟨hallowed, hopens⟩ := (validateCreateAta_eq_ok hpayer hcalls).mp hvalid
      exact .opens owner hallowed hopens
    · rw [if_neg hassociated] at h
      cases h
  · intro h
    cases h with
    | payment hpays hmatched =>
      obtain ⟨program, hmem, hcalls⟩ := hpays
      have hrequire : ∀ name, requireMatched matched i name = .ok () :=
        fun name => requireMatched_eq_ok.mpr hmatched
      rw [allowAt, programIdOf_eq_ok.mpr hcalls, ok_bind]
      simp only [List.mem_cons, List.not_mem_nil, or_false] at hmem
      obtain ⟨hmemo, hsystem, htoken, htoken2022, -⟩ := programs.computeBudgetKey_ne
      rcases hmem with rfl | rfl | rfl | rfl
      · rw [if_neg hmemo.symm, if_pos rfl, hrequire]
        rfl
      · rw [if_neg hsystem.symm, if_neg programs.memoKey_ne.1.symm, if_pos rfl, hrequire]
        rfl
      · rw [if_neg htoken.symm, if_neg programs.memoKey_ne.2.1.symm,
          if_neg programs.systemKey_ne.1.symm, if_pos (Or.inl rfl), hrequire]
        rfl
      · rw [if_neg htoken2022.symm, if_neg programs.memoKey_ne.2.2.1.symm,
          if_neg programs.systemKey_ne.2.1.symm, if_pos (Or.inr rfl), hrequire]
        rfl
    | budget hbudget =>
      obtain ⟨⟨program, hmem, hcalls⟩, hvalid⟩ := hbudget
      obtain rfl := List.mem_singleton.mp hmem
      rw [allowAt, programIdOf_eq_ok.mpr hcalls, ok_bind, if_pos rfl,
        validateComputeBudget_eq_ok.mpr hvalid]
      rfl
    | opens owner hallowed hopens =>
      have hnot : ¬ (programs.associatedTokenKey = programs.tokenKey ∨
          programs.associatedTokenKey = programs.token2022Key) := by
        rw [not_or]
        exact programs.associatedTokenKey_ne
      rw [allowAt, programIdOf_eq_ok.mpr hopens.calls, ok_bind,
        if_neg programs.computeBudgetKey_ne.2.2.2.2.symm, if_neg programs.memoKey_ne.2.2.2.symm,
        if_neg programs.systemKey_ne.2.2.symm, if_neg hnot, if_pos rfl,
        (validateCreateAta_eq_ok hpayer hopens.calls).mpr ⟨hallowed, hopens⟩]
      rfl

/-- An instruction that opens an account is no payment and sets no budget. -/
theorem Quote.Opens.other {owner : Pubkey} {ix : CompiledInstruction}
    (h : q.Opens find keys owner ix) : ¬ ix.IsPayment keys ∧ ¬ ix.IsBudget keys := by
  have hcalls := h.calls
  constructor
  · rintro ⟨program, hmem, hcalled⟩
    obtain rfl := Option.some.inj (hcalls.symm.trans hcalled)
    simp only [List.mem_cons, List.not_mem_nil, or_false] at hmem
    rcases hmem with he | he | he | he
    · exact programs.memoKey_ne.2.2.2 he.symm
    · exact programs.systemKey_ne.2.2 he.symm
    · exact programs.associatedTokenKey_ne.1 he
    · exact programs.associatedTokenKey_ne.2 he
  · rintro ⟨⟨program, hmem, hcalled⟩, -⟩
    obtain rfl := Option.some.inj (hcalls.symm.trans hcalled)
    exact programs.computeBudgetKey_ne.2.2.2.2 (List.mem_singleton.mp hmem).symm

/-- The owners open after an instruction are those open before and the one it opens. -/
theorem Passes.mem_iff {created after : List Pubkey} {ix : CompiledInstruction} {i : Nat}
    (h : Passes find keys q matched allowed created ix i after) (owner : Pubkey) :
    owner ∈ after ↔ owner ∈ created ∨ q.Opens find keys owner ix := by
  cases h with
  | payment hpays _ => exact (or_iff_left fun h => h.other.1 hpays).symm
  | budget hbudget => exact (or_iff_left fun h => h.other.2 hbudget).symm
  | opens owner' _ hopens =>
    rw [List.mem_cons, or_comm]
    refine or_congr_right ⟨?_, fun h => h.unique hopens⟩
    rintro rfl
    exact hopens

/-- What the allowlist asks of an instruction. -/
def Quote.Lets (find : FindProgramAddress) (keys : List Pubkey) (q : Quote) (matched : List Nat)
    (allowed : List Pubkey) (ix : CompiledInstruction) (i : Nat) : Prop :=
  (ix.IsPayment keys ∧ i ∈ matched) ∨ ix.IsBudget keys ∨
    ∃ owner ∈ allowed, q.Opens find keys owner ix

theorem Quote.lets_iff {created : List Pubkey} {ix : CompiledInstruction} {i : Nat} :
    q.Lets find keys matched allowed ix i ↔
      ∃ after, Passes find keys q matched allowed created ix i after := by
  constructor
  · rintro (⟨hpays, hmatched⟩ | hbudget | ⟨owner, hallowed, hopens⟩)
    · exact ⟨_, .payment hpays hmatched⟩
    · exact ⟨_, .budget hbudget⟩
    · exact ⟨_, .opens owner hallowed hopens⟩
  · rintro ⟨after, h⟩
    cases h with
    | payment hpays hmatched => exact Or.inl ⟨hpays, hmatched⟩
    | budget hbudget => exact Or.inr (Or.inl hbudget)
    | opens owner hallowed hopens => exact Or.inr (Or.inr ⟨owner, hallowed, hopens⟩)

/-- The loop of the allowlist passes exactly if all instructions do, and gathers the owners
whose accounts are opened. -/
theorem exists_foldlM_allowAt (hpayer : keys.head? = some payer)
    {items : List (CompiledInstruction × Nat)} :
    ∀ {created : List Pubkey} (required : List Pubkey),
      (∃ after, items.foldlM (allowAt find keys matched (q.token.map (·.mint)) allowed
          (q.token.bind (·.program)) payer) created = .ok after ∧ ∀ owner ∈ required, owner ∈ after) ↔
      (∀ item ∈ items, q.Lets find keys matched allowed item.1 item.2) ∧
        ∀ owner ∈ required, owner ∈ created ∨ ∃ item ∈ items, q.Opens find keys owner item.1 := by
  induction items with
  | nil =>
    intro created required
    simp [List.foldlM_nil, pure, Except.pure]
  | cons item items ih =>
    intro created required
    constructor
    · rintro ⟨after, hfold, hrequired⟩
      rw [List.foldlM_cons] at hfold
      obtain ⟨next, hnext, hfold⟩ := bind_eq_ok.mp hfold
      have hstep := (allowAt_eq_ok hpayer).mp hnext
      obtain ⟨hall, hopened⟩ := (ih required).mp ⟨after, hfold, hrequired⟩
      refine ⟨List.forall_mem_cons.mpr ⟨Quote.lets_iff.mpr ⟨next, hstep⟩, hall⟩, ?_⟩
      intro owner howner
      rcases hopened owner howner with hcreated | ⟨item', hitem', hopens⟩
      · rcases (hstep.mem_iff owner).mp hcreated with hcreated | hopens
        · exact Or.inl hcreated
        · exact Or.inr ⟨item, List.mem_cons_self, hopens⟩
      · exact Or.inr ⟨item', List.mem_cons_of_mem item hitem', hopens⟩
    · rintro ⟨hall, hopened⟩
      obtain ⟨hhead, htail⟩ := List.forall_mem_cons.mp hall
      obtain ⟨next, hstep⟩ : ∃ next, Passes find keys q matched allowed created item.1 item.2 next :=
        Quote.lets_iff.mp hhead
      have hopened' : ∀ owner ∈ required, owner ∈ next ∨
          ∃ item ∈ items, q.Opens find keys owner item.1 := by
        intro owner howner
        rw [hstep.mem_iff]
        rcases hopened owner howner with hcreated | ⟨item', hitem', hopens⟩
        · exact Or.inl (Or.inl hcreated)
        · rcases List.mem_cons.mp hitem' with rfl | hitem'
          · exact Or.inl (Or.inr hopens)
          · exact Or.inr ⟨item', hitem', hopens⟩
      obtain ⟨after, hfold, hrequired⟩ := (ih required).mpr ⟨htail, hopened'⟩
      refine ⟨after, ?_, hrequired⟩
      rw [List.foldlM_cons, (allowAt_eq_ok hpayer).mpr hstep]
      exact hfold

theorem forM_rejectIf_eq_ok {created : List Pubkey} {e : Pubkey → VerificationError} :
    ∀ {required : List Pubkey},
      (required.forM fun owner => rejectIf (owner ∉ created) (e owner)) = .ok () ↔
        ∀ owner ∈ required, owner ∈ created := by
  intro required
  induction required with
  | nil => simp [pure, Except.pure]
  | cons owner required ih =>
    show (rejectIf _ _ >>= fun _ => required.forM _) = _ ↔ _
    rw [bind_eq_ok]
    simp only [rejectIf_eq_ok, not_not, ih, List.forall_mem_cons]
    exact ⟨fun ⟨_, h⟩ => h, fun h => ⟨(), h⟩⟩

/-- **The allowlist** passes exactly if every instruction is a matched payment, sets the
budget, or opens an account the quote allows, and all required accounts are opened. -/
theorem allowlist_eq_ok {tx : VersionedTransaction} {feePayer : Option Pubkey}
    {required : List Pubkey} (hpayer : tx.message.staticAccountKeys.head? = some payer)
    (hfee : ∀ key ∈ feePayer, key = payer) :
    validateInstructionAllowlist find tx.message.staticAccountKeys matched
        (q.token.map (·.mint)) allowed (q.token.bind (·.program)) tx feePayer required = .ok () ↔
      (∀ i ix, tx.message.instructions[i]? = some ix →
        q.Lets find tx.message.staticAccountKeys matched allowed ix i) ∧
      ∀ owner ∈ required, ∃ ix ∈ tx.message.instructions,
        q.Opens find tx.message.staticAccountKeys owner ix := by
  have hget : feePayer.getD payer = payer := by
    cases hkey : feePayer with
    | none => rfl
    | some key => exact hfee key hkey
  have hitems : (∀ item ∈ tx.message.instructions.zipIdx,
      q.Lets find tx.message.staticAccountKeys matched allowed item.1 item.2) ↔
        ∀ i ix, tx.message.instructions[i]? = some ix →
          q.Lets find tx.message.staticAccountKeys matched allowed ix i := by
    constructor
    · intro h i ix hix
      exact h (ix, i) (List.mem_zipIdx_iff_getElem?.mpr hix)
    · intro h item hitem
      exact h item.2 item.1 (List.mem_zipIdx_iff_getElem?.mp hitem)
  have hopened : ∀ owner, (∃ item ∈ tx.message.instructions.zipIdx,
      q.Opens find tx.message.staticAccountKeys owner item.1) ↔
        ∃ ix ∈ tx.message.instructions, q.Opens find tx.message.staticAccountKeys owner ix := by
    intro owner
    constructor
    · rintro ⟨item, hitem, hopens⟩
      exact ⟨item.1, List.mem_of_getElem? (List.mem_zipIdx_iff_getElem?.mp hitem), hopens⟩
    · rintro ⟨ix, hix, hopens⟩
      obtain ⟨i, hi⟩ := List.mem_iff_getElem?.mp hix
      exact ⟨(ix, i), List.mem_zipIdx_iff_getElem?.mpr hi, hopens⟩
  have hloop : (∃ after, tx.message.instructions.zipIdx.foldlM
      (allowAt find tx.message.staticAccountKeys matched (q.token.map (·.mint)) allowed
        (q.token.bind (·.program)) payer) [] = .ok after ∧ ∀ owner ∈ required, owner ∈ after) ↔
      _ := exists_foldlM_allowAt hpayer required
  rw [hitems] at hloop
  simp only [List.not_mem_nil, false_or, hopened] at hloop
  rw [← hloop, validateInstructionAllowlist, hpayer, okOrElse, ok_bind, hget, bind_eq_ok]
  simp only [forM_rejectIf_eq_ok]

end Allowlist
end MppSdk
