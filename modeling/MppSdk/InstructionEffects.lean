import MppSdk.Solana
import MppSdk.Sponsorship
import MppSdk.Transaction

/-! # What an instruction does

The part of the Solana programs that payments use, as the effect of an instruction given
the keys its indexes point at.  Everything else is unknown: other programs, other
instructions of these programs, data that is too short and indexes out of range. -/

namespace MppSdk
open Sponsorship

/-- `ComputeBudgetInstruction`: 2 is `SetComputeUnitLimit`, 3 is `SetComputeUnitPrice`. -/
def computeBudgetEffect : List UInt8 → Effect Pubkey
  | 2 :: data => if 4 ≤ data.length then .computeUnitLimit (fromLeBytes (data.take 4)) else .unknown
  | 3 :: data => if 8 ≤ data.length then .computeUnitPrice (fromLeBytes (data.take 8)) else .unknown
  | _ => .unknown

/-- `SystemInstruction`: 2, as four bytes, is `Transfer`. -/
def systemEffect (keys : List Pubkey) (accounts data : List UInt8) : Effect Pubkey :=
  if 12 ≤ data.length ∧ fromLeBytes (data.take 4) = 2 then
    match accounts with
    | source :: destination :: _ =>
        match keys[source.toNat]?, keys[destination.toNat]? with
        | some source, some destination =>
            .transfer source destination (fromLeBytes ((data.drop 4).take 8))
        | _, _ => .unknown
    | _ => .unknown
  else .unknown

/-- `TokenInstruction`: 12 is `TransferChecked`. -/
def tokenEffect (keys : List Pubkey) (program : Pubkey) :
    (accounts data : List UInt8) → Effect Pubkey
  | source :: mint :: destination :: authority :: _, 12 :: data =>
      match keys[source.toNat]?, keys[mint.toNat]?, keys[destination.toNat]?,
        keys[authority.toNat]?, data[8]? with
      | some source, some mint, some destination, some authority, some decimals =>
          .tokenTransfer program source mint destination authority (fromLeBytes (data.take 8))
            decimals
      | _, _, _, _, _ => .unknown
  | _, _ => .unknown

/-- `AssociatedTokenAccountInstruction`: 1 is `CreateIdempotent`. -/
def associatedTokenEffect (keys : List Pubkey) : (accounts data : List UInt8) → Effect Pubkey
  | payer :: account :: owner :: mint :: _ :: program :: _, [1] =>
      match keys[payer.toNat]?, keys[account.toNat]?, keys[owner.toNat]?, keys[mint.toNat]?,
        keys[program.toNat]? with
      | some payer, some account, some owner, some mint, some program =>
          .openAccount payer account owner mint program
      | _, _, _, _, _ => .unknown
  | _, _ => .unknown

/-- The effect of an instruction of a program. -/
def programEffect (keys : List Pubkey) (program : Pubkey) (accounts data : List UInt8) :
    Effect Pubkey :=
  if program = programs.computeBudgetKey then computeBudgetEffect data
  else if program = programs.memoKey then .memo data
  else if program = programs.systemKey then systemEffect keys accounts data
  else if program = programs.tokenKey ∨ program = programs.token2022Key then
    tokenEffect keys program accounts data
  else if program = programs.associatedTokenKey then associatedTokenEffect keys accounts data
  else .unknown

/-- The effect of an instruction of a message with these account keys. -/
def CompiledInstruction.effect (keys : List Pubkey) (ix : CompiledInstruction) : Effect Pubkey :=
  match keys[ix.programIdIndex.toNat]? with
  | some program => programEffect keys program ix.accounts ix.data
  | none => .unknown

theorem CompiledInstruction.effect_eq {keys : List Pubkey} {ix : CompiledInstruction}
    {program : Pubkey} (h : keys[ix.programIdIndex.toNat]? = some program) :
    ix.effect keys = programEffect keys program ix.accounts ix.data := by
  rw [effect, h]

section Programs
variable (keys : List Pubkey) (accounts data : List UInt8)

@[simp] theorem programEffect_computeBudget :
    programEffect keys programs.computeBudgetKey accounts data = computeBudgetEffect data :=
  if_pos rfl

@[simp] theorem programEffect_memo :
    programEffect keys programs.memoKey accounts data = .memo data := by
  rw [programEffect, if_neg programs.computeBudgetKey_ne.1.symm, if_pos rfl]

@[simp] theorem programEffect_system :
    programEffect keys programs.systemKey accounts data = systemEffect keys accounts data := by
  rw [programEffect, if_neg programs.computeBudgetKey_ne.2.1.symm,
    if_neg programs.memoKey_ne.1.symm, if_pos rfl]

theorem programEffect_token {program : Pubkey}
    (h : program = programs.tokenKey ∨ program = programs.token2022Key) :
    programEffect keys program accounts data = tokenEffect keys program accounts data := by
  obtain ⟨-, -, htoken, htoken2022, -⟩ := programs.computeBudgetKey_ne
  have hother : program ≠ programs.computeBudgetKey ∧ program ≠ programs.memoKey ∧
      program ≠ programs.systemKey := by
    rcases h with rfl | rfl
    · exact ⟨htoken.symm, programs.memoKey_ne.2.1.symm, programs.systemKey_ne.1.symm⟩
    · exact ⟨htoken2022.symm, programs.memoKey_ne.2.2.1.symm, programs.systemKey_ne.2.1.symm⟩
  rw [programEffect, if_neg hother.1, if_neg hother.2.1, if_neg hother.2.2, if_pos h]

@[simp] theorem programEffect_associatedToken :
    programEffect keys programs.associatedTokenKey accounts data =
      associatedTokenEffect keys accounts data := by
  have hnot : ¬ (programs.associatedTokenKey = programs.tokenKey ∨
      programs.associatedTokenKey = programs.token2022Key) := by
    rw [not_or]
    exact programs.associatedTokenKey_ne
  rw [programEffect, if_neg programs.computeBudgetKey_ne.2.2.2.2.symm,
    if_neg programs.memoKey_ne.2.2.2.symm, if_neg programs.systemKey_ne.2.2.symm, if_neg hnot,
    if_pos rfl]

end Programs

/-! ## What an effect says about its instruction -/

section Inversion
variable {keys : List Pubkey} {ix : CompiledInstruction}

/-- The effect moves nothing and says nothing. -/
def IsSilent (e : Effect Pubkey) : Prop :=
  (∀ text, e ≠ .memo text) ∧ (∀ source destination n, e ≠ .transfer source destination n) ∧
    ∀ program source mint destination authority n d,
      e ≠ .tokenTransfer program source mint destination authority n d

theorem isSilent_computeBudgetEffect (data : List UInt8) : IsSilent (computeBudgetEffect data) := by
  unfold computeBudgetEffect
  split
  · split <;> simp [IsSilent]
  · split <;> simp [IsSilent]
  · simp [IsSilent]

theorem isSilent_associatedTokenEffect (accounts data : List UInt8) :
    IsSilent (associatedTokenEffect keys accounts data) := by
  unfold associatedTokenEffect
  split
  · split <;> simp [IsSilent]
  · simp [IsSilent]

theorem systemEffect_eq_transfer {accounts data : List UInt8} {source destination : Pubkey}
    {n : Nat} :
    systemEffect keys accounts data = .transfer source destination n ↔
      12 ≤ data.length ∧ fromLeBytes (data.take 4) = 2 ∧
        n = fromLeBytes ((data.drop 4).take 8) ∧ ∃ i j rest, accounts = i :: j :: rest ∧
          keys[i.toNat]? = some source ∧ keys[j.toNat]? = some destination := by
  constructor
  · intro h
    unfold systemEffect at h
    split at h
    case isFalse => cases h
    rename_i hdata
    split at h
    case h_2 => cases h
    rename_i i j rest
    split at h
    case h_2 => cases h
    rename_i s d hs hd
    cases h
    exact ⟨hdata.1, hdata.2, rfl, i, j, rest, rfl, hs, hd⟩
  · rintro ⟨hlength, htype, rfl, i, j, rest, rfl, hs, hd⟩
    simp only [systemEffect, if_pos (And.intro hlength htype), hs, hd]

theorem tokenEffect_eq_transfer {program program' : Pubkey} {accounts data : List UInt8}
    {source mint destination authority : Pubkey} {n : Nat} {d : UInt8} :
    tokenEffect keys program accounts data =
        .tokenTransfer program' source mint destination authority n d ↔
      program = program' ∧ ∃ i j k l rest tail, accounts = i :: j :: k :: l :: rest ∧
        data = 12 :: tail ∧ keys[i.toNat]? = some source ∧ keys[j.toNat]? = some mint ∧
        keys[k.toNat]? = some destination ∧ keys[l.toNat]? = some authority ∧
        tail[8]? = some d ∧ n = fromLeBytes (tail.take 8) := by
  constructor
  · intro h
    unfold tokenEffect at h
    split at h
    case h_2 => cases h
    rename_i i j k l rest tail
    split at h
    case h_2 => cases h
    rename_i hs hm hd ha ht
    cases h
    exact ⟨rfl, i, j, k, l, rest, tail, rfl, rfl, hs, hm, hd, ha, ht, rfl⟩
  · rintro ⟨rfl, i, j, k, l, rest, tail, rfl, rfl, hs, hm, hd, ha, ht, rfl⟩
    simp only [tokenEffect, hs, hm, hd, ha, ht]

/-- The programs of transfers and memos. -/
theorem programEffect_cases {program : Pubkey} {accounts data : List UInt8} {e : Effect Pubkey}
    (h : programEffect keys program accounts data = e) :
    (program = programs.memoKey ∧ e = .memo data) ∨
    (program = programs.systemKey ∧ systemEffect keys accounts data = e) ∨
    ((program = programs.tokenKey ∨ program = programs.token2022Key) ∧
      tokenEffect keys program accounts data = e) ∨
    IsSilent e := by
  unfold programEffect at h
  by_cases hbudget : program = programs.computeBudgetKey
  · rw [if_pos hbudget] at h
    exact Or.inr (Or.inr (Or.inr (h ▸ isSilent_computeBudgetEffect data)))
  rw [if_neg hbudget] at h
  by_cases hmemo : program = programs.memoKey
  · rw [if_pos hmemo] at h
    exact Or.inl ⟨hmemo, h.symm⟩
  rw [if_neg hmemo] at h
  by_cases hsystem : program = programs.systemKey
  · rw [if_pos hsystem] at h
    exact Or.inr (Or.inl ⟨hsystem, h⟩)
  rw [if_neg hsystem] at h
  by_cases htoken : program = programs.tokenKey ∨ program = programs.token2022Key
  · rw [if_pos htoken] at h
    exact Or.inr (Or.inr (Or.inl ⟨htoken, h⟩))
  rw [if_neg htoken] at h
  by_cases haccount : program = programs.associatedTokenKey
  · rw [if_pos haccount] at h
    exact Or.inr (Or.inr (Or.inr (h ▸ isSilent_associatedTokenEffect accounts data)))
  · rw [if_neg haccount] at h
    subst h
    exact Or.inr (Or.inr (Or.inr (by simp [IsSilent])))

namespace CompiledInstruction

theorem effect_eq_memo {text : List UInt8} :
    ix.effect keys = .memo text ↔
      keys[ix.programIdIndex.toNat]? = some programs.memoKey ∧ ix.data = text := by
  rcases hprogram : keys[ix.programIdIndex.toNat]? with _ | program
  · simp [effect, hprogram]
  rw [effect_eq hprogram]
  constructor
  · intro h
    rcases programEffect_cases h with ⟨rfl, he⟩ | ⟨rfl, he⟩ | ⟨-, he⟩ | ⟨hnot, -⟩
    · cases he
      exact ⟨rfl, rfl⟩
    · unfold systemEffect at he
      split at he
      · split at he
        · split at he <;> cases he
        · cases he
      · cases he
    · unfold tokenEffect at he
      split at he
      · split at he <;> cases he
      · cases he
    · exact absurd rfl (hnot text)
  · rintro ⟨hmemo, rfl⟩
    obtain rfl := Option.some.inj hmemo
    exact programEffect_memo keys _ _

theorem effect_eq_transfer {source destination : Pubkey} {n : Nat} :
    ix.effect keys = .transfer source destination n ↔
      keys[ix.programIdIndex.toNat]? = some programs.systemKey ∧
        systemEffect keys ix.accounts ix.data = .transfer source destination n := by
  rcases hprogram : keys[ix.programIdIndex.toNat]? with _ | program
  · simp [effect, hprogram]
  rw [effect_eq hprogram]
  constructor
  · intro h
    rcases programEffect_cases h with ⟨rfl, he⟩ | ⟨rfl, he⟩ | ⟨-, he⟩ | ⟨-, hnot, -⟩
    · cases he
    · exact ⟨rfl, he⟩
    · unfold tokenEffect at he
      split at he
      · split at he <;> cases he
      · cases he
    · exact absurd rfl (hnot source destination n)
  · rintro ⟨hsystem, he⟩
    obtain rfl := Option.some.inj hsystem
    rwa [programEffect_system]

theorem effect_eq_tokenTransfer {program source mint destination authority : Pubkey} {n : Nat}
    {d : UInt8} :
    ix.effect keys = .tokenTransfer program source mint destination authority n d ↔
      keys[ix.programIdIndex.toNat]? = some program ∧
        (program = programs.tokenKey ∨ program = programs.token2022Key) ∧
        tokenEffect keys program ix.accounts ix.data =
          .tokenTransfer program source mint destination authority n d := by
  rcases hprogram : keys[ix.programIdIndex.toNat]? with _ | called
  · simp [effect, hprogram]
  rw [effect_eq hprogram]
  constructor
  · intro h
    rcases programEffect_cases h with ⟨rfl, he⟩ | ⟨rfl, he⟩ | ⟨htoken, he⟩ | ⟨-, -, hnot⟩
    · cases he
    · unfold systemEffect at he
      split at he
      · split at he
        · split at he <;> cases he
        · cases he
      · cases he
    · obtain ⟨rfl, -⟩ := tokenEffect_eq_transfer.mp he
      exact ⟨rfl, htoken, he⟩
    · exact absurd rfl (hnot program source mint destination authority n d)
  · rintro ⟨hcalled, htoken, he⟩
    obtain rfl := Option.some.inj hcalled
    rwa [programEffect_token _ _ _ htoken]

end CompiledInstruction
end Inversion
end MppSdk
