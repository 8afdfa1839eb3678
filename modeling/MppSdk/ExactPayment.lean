import MppSdk.QuoteAllowlist

/-! # A payment is exact

What `verifyPreBroadcast` accepts is what pays the quote of the request (`accepts_iff`):
nothing else, and everything that does, in whatever order.  The amount it expects for the
recipient is the amount less the splits as machine integers, so it is the one the request
says unless the sum of the splits does not fit (`accepts_iff_paid_iff`). -/

namespace MppSdk
open Sponsorship Matching

/-- No two of the owners share a token account. -/
def DistinctAccounts (find : FindProgramAddress) (owners : List Pubkey) : Prop :=
  ∀ owner ∈ owners, ∀ owner' ∈ owners, ∀ program mint,
    associatedTokenAddress find owner program mint =
      associatedTokenAddress find owner' program mint → owner = owner'

/-! ## The quote -/

namespace Quote

/-- `verify_versioned_transaction_pre_broadcast` once the request is read: match what is
asked for, then run the allowlist. -/
def verify (find : FindProgramAddress) (q : Quote) (tx : VersionedTransaction) : Verified Unit := do
  let matched ← q.demands.foldlM (q.pick find tx) []
  validateInstructionAllowlist find tx.message.staticAccountKeys matched (q.token.map (·.mint))
    q.allowedOwners (q.token.bind (·.program)) tx q.feePayer q.requiredOwners

section Verify
variable {find : FindProgramAddress} {q : Quote} {tx : VersionedTransaction} {payer : Pubkey}

theorem payout_of_mem_demands {recipient : Pubkey} {amount : UInt64}
    (h : Demand.payout recipient amount ∈ q.demands) : (recipient, amount) ∈ q.payouts := by
  rcases List.mem_append.mp h with h | h
  · obtain ⟨⟨recipient', amount'⟩, hmem, he⟩ := List.mem_map.mp h
    cases he
    exact hmem
  · obtain ⟨memo, -, he⟩ := List.mem_map.mp h
    cases he

theorem memo_of_mem_demands {label memo : String} (h : Demand.memo label memo ∈ q.demands) :
    (label, memo) ∈ q.memos := by
  rcases List.mem_append.mp h with h | h
  · obtain ⟨payout, -, he⟩ := List.mem_map.mp h
    cases he
  · obtain ⟨⟨label', memo'⟩, hmem, he⟩ := List.mem_map.mp h
    cases he
    exact hmem

/-- What fits a demand is a payment. -/
theorem isPayment_of_fits {keys : List Pubkey} {ix : CompiledInstruction} {d : Demand}
    (h : q.Fits find keys d ix) : ix.IsPayment keys := by
  cases d with
  | payout recipient amount =>
    rcases htoken : q.token with _ | token
    · simp only [Fits, htoken] at h
      obtain ⟨source, heffect, -⟩ := h
      exact isPayment_of_mem (CompiledInstruction.effect_eq_transfer.mp heffect).1 (by simp)
    · simp only [Fits, htoken] at h
      obtain ⟨program, source, authority, d, heffect, hprogram, -⟩ := h
      refine isPayment_of_mem (CompiledInstruction.effect_eq_tokenTransfer.mp heffect).1 ?_
      rcases hprogram with rfl | rfl <;> simp
  | memo label memo =>
    exact isPayment_of_mem (CompiledInstruction.effect_eq_memo.mp h).1 (by simp)

/-- The demands an instruction fits are met by the same instructions. -/
theorem fits_of_fits (hdistinct : DistinctAccounts find (q.payouts.map Prod.fst)) {keys : List Pubkey} {d d' : Demand}
    (hd : d ∈ q.demands) (hd' : d' ∈ q.demands) {ix ix' : CompiledInstruction}
    (h : q.Fits find keys d ix) (h' : q.Fits find keys d' ix) (hother : q.Fits find keys d ix') :
    q.Fits find keys d' ix' := by
  cases d with
  | payout recipient amount =>
    cases d' with
    | payout recipient' amount' =>
      -- the transfer says which recipient and which amount it is for
      have hsame : recipient = recipient' ∧ amount = amount' := by
        rcases htoken : q.token with _ | token
        · simp only [Fits, htoken] at h h'
          obtain ⟨source, heffect, -⟩ := h
          obtain ⟨source', heffect', -⟩ := h'
          rw [heffect] at heffect'
          injection heffect' with _ hrecipient hamount
          exact ⟨hrecipient, UInt64.toNat_inj.mp hamount⟩
        · simp only [Fits, htoken] at h h'
          obtain ⟨program, source, authority, decimals, heffect, -⟩ := h
          obtain ⟨program', source', authority', decimals', heffect', -⟩ := h'
          rw [heffect] at heffect'
          injection heffect' with hprogram _ _ haccount _ hamount
          subst hprogram
          have howner : recipient ∈ q.payouts.map Prod.fst :=
            List.mem_map.mpr ⟨_, payout_of_mem_demands hd, rfl⟩
          have howner' : recipient' ∈ q.payouts.map Prod.fst :=
            List.mem_map.mpr ⟨_, payout_of_mem_demands hd', rfl⟩
          exact ⟨hdistinct _ howner _ howner' _ _ haccount, UInt64.toNat_inj.mp hamount⟩
      rw [← hsame.1, ← hsame.2]
      exact hother
    | memo label memo =>
      simp only [Fits] at h'
      rcases htoken : q.token with _ | token
      · simp only [Fits, htoken] at h
        obtain ⟨source, heffect, -⟩ := h
        rw [heffect] at h'
        cases h'
      · simp only [Fits, htoken] at h
        obtain ⟨program, source, authority, decimals, heffect, -⟩ := h
        rw [heffect] at h'
        cases h'
  | memo label memo =>
    cases d' with
    | payout recipient amount =>
      simp only [Fits] at h
      rcases htoken : q.token with _ | token
      · simp only [Fits, htoken] at h'
        obtain ⟨source, heffect, -⟩ := h'
        rw [heffect] at h
        cases h
      · simp only [Fits, htoken] at h'
        obtain ⟨program, source, authority, decimals, heffect, -⟩ := h'
        rw [heffect] at h
        cases h
    | memo label' memo' =>
      simp only [Fits] at h h' hother ⊢
      rw [hother, ← h, h']

/-- Rounds that take what fits, and an allowlist that lets everything through, pay the quote. -/
theorem paidBy_of_rounds {matched : List Nat}
    (hlookups : ∀ lookups ∈ tx.message.addressTableLookups, lookups = [])
    (hfirst : tx.message.staticAccountKeys.head? = some payer)
    (hfee : ∀ feePayer ∈ q.feePayer, feePayer = payer)
    (hrounds : ∃ picks, matched = picks.reverse ++ [] ∧ matched.Nodup ∧
      List.Forall₂ (At (q.Fits find tx.message.staticAccountKeys) tx.message.instructions)
        q.demands picks)
    (hallow : validateInstructionAllowlist find tx.message.staticAccountKeys matched
      (q.token.map (·.mint)) q.allowedOwners (q.token.bind (·.program)) tx q.feePayer
      q.requiredOwners = .ok ()) : q.PaidBy find tx := by
  obtain ⟨hlets, hopened⟩ := (allowlist_eq_ok hfirst hfee).mp hallow
  obtain ⟨picks, rfl, hnodup, hfits⟩ := hrounds
  rw [List.append_nil] at hnodup hlets
  refine ⟨hlookups, ⟨payer, hfirst, hfee⟩, ⟨picks, List.nodup_reverse.mp hnodup, hfits, ?_⟩, ?_,
    hopened⟩
  · intro i ix hix hpays
    rcases hlets i ix hix with ⟨-, hmem⟩ | hbudget | ⟨owner, -, hopens⟩
    · exact List.mem_reverse.mp hmem
    · -- the program of the budget is used for no payment
      obtain ⟨program, hmem, hcalls⟩ := hpays
      obtain ⟨⟨program', hmem', hcalls'⟩, -⟩ := hbudget
      obtain rfl := Option.some.inj (hcalls.symm.trans hcalls')
      obtain rfl := List.mem_singleton.mp hmem'
      obtain ⟨hmemo, hsystem, htoken, htoken2022, -⟩ := programs.computeBudgetKey_ne
      simp [hmemo, hsystem, htoken, htoken2022] at hmem
    · exact absurd hpays hopens.other.1
  · intro ix hix
    obtain ⟨i, hi⟩ := List.mem_iff_getElem?.mp hix
    rcases hlets i ix hi with ⟨hpays, -⟩ | hrest
    · exact Or.inl hpays
    · exact Or.inr hrest

/-- Every payment of a transaction that pays a quote fits something it asks for. -/
theorem PaidBy.exists_demand (h : q.PaidBy find tx) {ix : CompiledInstruction}
    (hix : ix ∈ tx.message.instructions) (hpays : ix.IsPayment tx.message.staticAccountKeys) :
    ∃ d ∈ q.demands, q.Fits find tx.message.staticAccountKeys d ix := by
  obtain ⟨picks, -, hfits, hcomplete⟩ := h.payment
  obtain ⟨i, hi⟩ := List.mem_iff_getElem?.mp hix
  obtain ⟨d, hd, ix', hix', hfit⟩ := exists_of_mem hfits i (hcomplete i ix hi hpays)
  obtain rfl := Option.some.inj (hi.symm.trans hix')
  exact ⟨d, hd, hfit⟩

theorem PaidBy.readable (h : q.PaidBy find tx) :
    ∀ ix ∈ tx.message.instructions, Readable find tx.message.staticAccountKeys q ix := by
  intro ix hix
  constructor
  · rcases h.others ix hix with ⟨program, -, hcalls⟩ | ⟨⟨program, -, hcalls⟩, -⟩ |
      ⟨owner, -, hopens⟩
    · exact ⟨program, hcalls⟩
    · exact ⟨program, hcalls⟩
    · exact ⟨_, hopens.calls⟩
  · intro hpays
    obtain ⟨d, -, hd⟩ := h.exists_demand hix hpays
    exact ⟨d, hd⟩

/-- **Soundness.**  A transaction that is accepted pays the quote. -/
theorem paidBy_of_verify (hlookups : ∀ lookups ∈ tx.message.addressTableLookups, lookups = [])
    (hfirst : tx.message.staticAccountKeys.head? = some payer)
    (hfee : ∀ feePayer ∈ q.feePayer, feePayer = payer) (h : q.verify find tx = .ok ()) :
    q.PaidBy find tx := by
  obtain ⟨matched, hmatched, hallow⟩ := bind_eq_ok.mp h
  refine paidBy_of_rounds hlookups hfirst hfee ?_ hallow
  exact exists_of_foldlM (fun matched d after hpick => exists_of_pick hpick) List.nodup_nil hmatched

/-- **Completeness.**  A transaction that pays the quote is accepted. -/
theorem verify_of_paidBy (hmemos : ∀ memo ∈ q.memos, (utf8 memo.2).length ≤ 566)
    (hdistinct : DistinctAccounts find (q.payouts.map Prod.fst)) (h : q.PaidBy find tx) : q.verify find tx = .ok () := by
  have hread := h.readable
  obtain ⟨-, ⟨payer, hfirst, hfee⟩, ⟨picks, hnodup, hfits, hcomplete⟩, hothers, hopened⟩ := h
  have hrounds : ∃ matched, q.demands.foldlM (q.pick find tx) [] = .ok matched ∧
      matched.Perm (picks ++ []) := by
    refine foldlM_of_forall₂ ?_ ?_ hnodup (fun i _ => List.not_mem_nil) ?_ hfits
    · intro d hd d' hd' ix ix'
      exact fits_of_fits hdistinct hd hd'
    · intro d hd matched hfree
      refine exists_pick hread ?_ hfree
      rintro label memo rfl
      exact hmemos _ (memo_of_mem_demands hd)
    · rintro d - i ⟨ix, hix, hd⟩ -
      exact hcomplete i ix hix (isPayment_of_fits hd)
  obtain ⟨matched, hfold, hperm⟩ := hrounds
  rw [List.append_nil] at hperm
  have hlets : ∀ i ix, tx.message.instructions[i]? = some ix →
      q.Lets find tx.message.staticAccountKeys matched q.allowedOwners ix i := by
    intro i ix hix
    rcases hothers ix (List.mem_of_getElem? hix) with hpays | hrest
    · exact Or.inl ⟨hpays, hperm.mem_iff.mpr (hcomplete i ix hix hpays)⟩
    · exact Or.inr hrest
  rw [verify, hfold]
  exact (allowlist_eq_ok hfirst hfee).mpr ⟨hlets, hopened⟩

/-- The rounds for what is asked for: the recipient, the splits, the memos. -/
theorem foldlM_demands_eq_ok {verifyTransfer : Pubkey → UInt64 → List Nat → Verified (List Nat)}
    {recipient : Pubkey} {primary : UInt64} {due : List (Pubkey × UInt64)} {noted : List Nat}
    (htransfer : ∀ owner amount matched,
      q.pick find tx matched (.payout owner amount) = verifyTransfer owner amount matched)
    (hpayouts : q.payouts = (recipient, primary) :: due) :
    q.demands.foldlM (q.pick find tx) [] = .ok noted ↔
      ∃ first, verifyTransfer recipient primary [] = .ok first ∧
        ∃ paid, due.foldlM (fun matched payout => verifyTransfer payout.1 payout.2 matched) first =
          .ok paid ∧
        q.memos.foldlM (fun matched memo =>
          verifyMemo tx.message.staticAccountKeys matched tx memo.1 memo.2) paid = .ok noted := by
  have hmemo : ∀ label memo matched, q.pick find tx matched (.memo label memo) =
      verifyMemo tx.message.staticAccountKeys matched tx label memo := fun _ _ _ => rfl
  simp only [demands, List.foldlM_append, List.foldlM_map, hpayouts, List.foldlM_cons, htransfer,
    hmemo, bind_eq_ok]
  constructor
  · rintro ⟨paid, ⟨first, hfirst, hpaid⟩, hnoted⟩
    exact ⟨first, hfirst, paid, hpaid, hnoted⟩
  · rintro ⟨first, hfirst, paid, hpaid, hnoted⟩
    exact ⟨paid, ⟨first, hfirst, hpaid⟩, hnoted⟩

end Verify
end Quote

/-! ## The request -/

section Request
variable {request : ChargeRequest} {details : MethodDetails} {find : FindProgramAddress}
  {tx : VersionedTransaction}

theorem splitDue_eq_some {split : Split} {payout : Pubkey × UInt64} :
    splitDue split = some payout ↔ split.recipient = payout.1.toBase58 ∧
      parseU64 split.amount = some payout.2 := by
  obtain ⟨recipient, amount⟩ := payout
  simp only [splitDue, Option.bind_eq_bind, Option.bind_eq_some_iff, Bytes.fromBase58_eq_some,
    Option.pure_def, Option.some.injEq, Prod.mk.injEq]
  constructor
  · rintro ⟨_, hrecipient, _, hamount, rfl, rfl⟩
    exact ⟨hrecipient, hamount⟩
  · rintro ⟨hrecipient, hamount⟩
    exact ⟨recipient, hrecipient, amount, hamount, rfl, rfl⟩

/-- What is due to the splits, one by one. -/
theorem mapM_splitDue {splits : List Split} :
    ∀ {due : List (Pubkey × UInt64)}, splits.mapM splitDue = some due ↔
      List.Forall₂ (fun payout split => splitDue split = some payout) due splits := by
  induction splits with
  | nil =>
    intro due
    rw [List.forall₂_nil_right_iff, List.mapM_nil, eq_comm]
    exact Option.some_inj
  | cons split splits ih =>
    intro due
    rw [List.forall₂_cons_right_iff, List.mapM_cons]
    simp only [Option.bind_eq_bind, Option.bind_eq_some_iff, Option.pure_def, Option.some.injEq]
    constructor
    · rintro ⟨payout, hsplit, rest, hrest, rfl⟩
      exact ⟨payout, rest, hsplit, ih.mp hrest, rfl⟩
    · rintro ⟨payout, rest, hsplit, hrest, rfl⟩
      exact ⟨payout, hsplit, rest, ih.mpr hrest, rfl⟩

/-- The splits are paid if all of them can be read, and what is due is found. -/
theorem verifySplits_eq_ok {verifyTransfer : Pubkey → UInt64 → List Nat → Verified (List Nat)}
    {after : List Nat} {splits : List Split} :
    ∀ {matched : List Nat}, verifySplits matched verifyTransfer splits = .ok after ↔
      ∃ due, splits.mapM splitDue = some due ∧
        due.foldlM (fun matched payout => verifyTransfer payout.1 payout.2 matched) matched =
          .ok after := by
  simp only [mapM_splitDue]
  induction splits with
  | nil =>
    intro matched
    simp [verifySplits]
  | cons split splits ih =>
    intro matched
    rw [verifySplits, List.foldlM_cons]
    simp only [bind_eq_ok, parseKey_eq_ok, okOrElse_eq_ok]
    constructor
    · rintro ⟨next, ⟨recipient, hrecipient, amount, hamount, hnext⟩, hrest⟩
      obtain ⟨due, hdue, hfold⟩ := ih.mp hrest
      have hsplit : splitDue split = some (recipient, amount) :=
        splitDue_eq_some.mpr ⟨hrecipient, hamount⟩
      refine ⟨(recipient, amount) :: due, List.Forall₂.cons hsplit hdue, ?_⟩
      rw [List.foldlM_cons, hnext]
      exact hfold
    · rintro ⟨all, hall, hfold⟩
      obtain ⟨payout, due, hsplit, hdue, rfl⟩ := List.forall₂_cons_right_iff.mp hall
      obtain ⟨hrecipient, hamount⟩ := splitDue_eq_some.mp hsplit
      rw [List.foldlM_cons] at hfold
      obtain ⟨next, hnext, hfold⟩ := bind_eq_ok.mp hfold
      exact ⟨next, ⟨payout.1, hrecipient, payout.2, hamount, hnext⟩, ih.mpr ⟨due, hdue, hfold⟩⟩

/-- The owners of the splits, and which of their accounts are required. -/
theorem mapM_owner_eq_ok {due : List (Pubkey × UInt64)} {splits : List Split}
    (hdue : List.Forall₂ (fun payout split => splitDue split = some payout) due splits) :
    (splits.mapM fun split => do
      let owner ← parseKey split.recipient (.invalidRecipient "Invalid split recipient")
      return (owner, decide (split.ataCreationRequired = some true)) : Verified _) =
    .ok ((due.zip splits).map fun entry =>
      (entry.1.1, decide (entry.2.ataCreationRequired = some true))) := by
  induction hdue with
  | nil => rfl
  | @cons payout split due splits hsplit hrest ih =>
    have hkey : parseKey split.recipient (.invalidRecipient "Invalid split recipient") =
        .ok payout.1 := parseKey_eq_ok.mpr (splitDue_eq_some.mp hsplit).1
    rw [List.mapM_cons, hkey, ih]
    rfl

/-- The accounts that may be opened, and those that have to be. -/
theorem policy_eq {due : List (Pubkey × UInt64)} {feePayer : Option Pubkey} {splits : List Split}
    (hdue : splits.mapM splitDue = some due) :
    expectedAtaCreationPolicy splits feePayer = .ok {
      allowedOwners := if feePayer.isSome then requiredOwners due splits else due.map Prod.fst
      requiredOwners := requiredOwners due splits } := by
  have hdue := mapM_splitDue.mp hdue
  have hlength := hdue.length_eq
  rw [expectedAtaCreationPolicy, mapM_owner_eq_ok hdue, ok_bind]
  have hrequired : ((((due.zip splits).map fun entry =>
      (entry.1.1, decide (entry.2.ataCreationRequired = some true))).filter Prod.snd).map
        Prod.fst) = requiredOwners due splits := by
    rw [List.filter_map, List.map_map]
    rfl
  have howners : ((due.zip splits).map fun entry =>
      (entry.1.1, decide (entry.2.ataCreationRequired = some true))).map Prod.fst =
        due.map Prod.fst := by
    rw [List.map_map]
    calc (due.zip splits).map (fun entry => entry.1.1)
        = ((due.zip splits).map Prod.fst).map Prod.fst := by rw [List.map_map]; rfl
      _ = due.map Prod.fst := by rw [List.map_fst_zip (Nat.le_of_eq hlength)]
  show (Except.ok _ : Verified AtaCreationPolicy) = _
  rw [hrequired, howners]

/-- Accounts are required if some split asks for its own. -/
theorem requiredOwners_ne_nil {splits : List Split} :
    ∀ {due : List (Pubkey × UInt64)}, due.length = splits.length →
      (requiredOwners due splits ≠ [] ↔ requiresAta splits) := by
  intro due hlength
  rw [requiredOwners, ne_eq, List.map_eq_nil_iff, List.filter_eq_nil_iff]
  push Not
  constructor
  · rintro ⟨⟨payout, split⟩, hmem, h⟩
    exact ⟨split, (List.of_mem_zip hmem).2, of_decide_eq_true h⟩
  · rintro ⟨split, hsplit, h⟩
    obtain ⟨i, hi⟩ := List.mem_iff_getElem?.mp hsplit
    obtain ⟨hlt, -⟩ := List.getElem?_eq_some_iff.mp hi
    have hpayout : due[i]? = some due[i] := List.getElem?_eq_getElem (hlength ▸ hlt)
    refine ⟨(due[i], split), List.mem_of_getElem? (List.getElem?_zip_eq_some.mpr ⟨hpayout, hi⟩), ?_⟩
    exact decide_eq_true h

theorem expectedFeePayer_eq_ok {feePayer : Option Pubkey} :
    expectedFeePayer tx details = .ok feePayer ↔ quotedFeePayer details = some feePayer ∧
      ∀ key ∈ feePayer, tx.message.staticAccountKeys.head? = some key := by
  unfold expectedFeePayer quotedFeePayer
  by_cases hfee : details.feePayer.getD false = false
  · rw [if_pos hfee, if_pos hfee]
    constructor
    · intro h
      obtain rfl : none = feePayer := by cases h; rfl
      exact ⟨rfl, fun key hkey => nomatch hkey⟩
    · rintro ⟨h, -⟩
      obtain rfl : none = feePayer := by cases h; rfl
      rfl
  · rw [if_neg hfee, if_neg hfee]
    simp only [bind_eq_ok, okOrElse_eq_ok, parseKey_eq_ok, rejectIf_eq_ok, ne_eq, not_not,
      Option.map_eq_some_iff, Option.bind_eq_some_iff, Bytes.fromBase58_eq_some]
    constructor
    · rintro ⟨text, htext, key, hkey, first, hfirst, -, rfl, h⟩
      obtain rfl : some first = feePayer := by cases h; rfl
      refine ⟨⟨first, ⟨text, htext, hkey⟩, rfl⟩, ?_⟩
      rintro key ⟨⟩
      exact hfirst
    · rintro ⟨⟨key, ⟨text, htext, hkey⟩, rfl⟩, hfirst⟩
      exact ⟨text, htext, key, hkey, key, hfirst key rfl, (), rfl, rfl⟩

theorem expectedTokenProgram_eq_ok {program : Option Pubkey} :
    expectedTokenProgram details = .ok program ↔ quotedProgram details = some program := by
  unfold expectedTokenProgram quotedProgram
  rcases details.tokenProgram with _ | text
  · simp
  · simp only [bind_eq_ok, rejectIf_eq_ok, parseKey_eq_ok, not_and_or, not_not]
    by_cases htext : text = programs.TOKEN_PROGRAM ∨ text = programs.TOKEN_2022_PROGRAM
    · rw [if_pos htext, Option.map_eq_some_iff]
      simp only [Bytes.fromBase58_eq_some]
      constructor
      · rintro ⟨-, -, key, hkey, h⟩
        exact ⟨key, hkey, by cases h; rfl⟩
      · rintro ⟨key, hkey, rfl⟩
        exact ⟨(), htext, key, hkey, rfl⟩
    · rw [if_neg htext]
      simp [htext]

theorem resolveExpectedMint_eq_ok {mint : Pubkey} :
    resolveExpectedMint request.currency details.network = .ok mint ↔
      (resolveStablecoinMint request.currency details.network).bind (Bytes.fromBase58 32) =
        some mint := by
  simp only [resolveExpectedMint, bind_eq_ok, okOrElse_eq_ok, parseKey_eq_ok,
    Option.bind_eq_some_iff, Bytes.fromBase58_eq_some]

/-- No memo that is matched is too long. -/
theorem length_of_verifyMemos {accountKeys : List Pubkey} {matched after : List Nat}
    {externalId : Option String} {splits : List Split}
    (h : verifyMemoInstructions accountKeys matched tx externalId splits = .ok after) :
    ∀ memo ∈ expectedMemos externalId splits, (utf8 memo.2).length ≤ 566 := by
  refine (foldlM_eq_ok (P := fun _ => True) (fun memo _ before after _ h => ⟨trivial, ?_⟩)
    trivial h).2
  obtain ⟨u, hlength, -⟩ := bind_eq_ok.mp h
  exact Nat.le_of_not_lt (rejectIf_eq_ok.mp hlength)

/-- The quote is verified by the steps of the code. -/
theorem Quote.verify_eq_ok {q : Quote}
    {verifyTransfer : Pubkey → UInt64 → List Nat → Verified (List Nat)} {recipient : Pubkey}
    {primary : UInt64} {due : List (Pubkey × UInt64)} {splits : List Split}
    {externalId : Option String}
    (htransfer : ∀ owner amount matched,
      q.pick find tx matched (.payout owner amount) = verifyTransfer owner amount matched)
    (hpayouts : q.payouts = (recipient, primary) :: due)
    (hdue : splits.mapM splitDue = some due) (hmemos : q.memos = expectedMemos externalId splits) :
    q.verify find tx = .ok () ↔
      ∃ first, verifyTransfer recipient primary [] = .ok first ∧
        ∃ paid, verifySplits first verifyTransfer splits = .ok paid ∧
        ∃ noted, verifyMemoInstructions tx.message.staticAccountKeys paid tx externalId splits =
          .ok noted ∧
        validateInstructionAllowlist find tx.message.staticAccountKeys noted
          (q.token.map (·.mint)) q.allowedOwners (q.token.bind (·.program)) tx q.feePayer
          q.requiredOwners = .ok () := by
  rw [Quote.verify, bind_eq_ok]
  simp only [Quote.foldlM_demands_eq_ok htransfer hpayouts, hmemos, verifySplits_eq_ok, hdue]
  constructor
  · rintro ⟨noted, ⟨first, hfirst, paid, hpaid, hnoted⟩, hallow⟩
    exact ⟨first, hfirst, paid, ⟨due, rfl, hpaid⟩, noted, hnoted, hallow⟩
  · rintro ⟨first, hfirst, paid, ⟨_, ⟨⟩, hpaid⟩, noted, hnoted, hallow⟩
    exact ⟨noted, ⟨first, hfirst, paid, hpaid, hnoted⟩, hallow⟩

/-- What a request has to say to be one that can be paid. -/
theorem quoteOf_eq_some {primary : UInt64} {q : Quote} :
    quoteOf request details primary = some q ↔
      ∃ recipient, request.recipient.bind (Bytes.fromBase58 32) = some recipient ∧
      ∃ due, details.splitList.mapM splitDue = some due ∧
      ∃ feePayer, quotedFeePayer details = some feePayer ∧
      ∃ token, quotedToken request details = some token ∧
      (details.splitList.length ≤ 8 ∧
        (∀ memo ∈ expectedMemos request.externalId details.splitList,
          (utf8 memo.2).length ≤ 566) ∧
        (requiresAta details.splitList →
          ∃ quoted ∈ token, request.currency = quoted.mint.toBase58)) ∧
      q = {
        feePayer
        token
        payouts := (recipient, primary) :: due
        memos := expectedMemos request.externalId details.splitList
        allowedOwners :=
          if feePayer.isSome then requiredOwners due details.splitList else due.map Prod.fst
        requiredOwners := requiredOwners due details.splitList } := by
  simp only [quoteOf, Option.bind_eq_bind, Option.bind_eq_some_iff]
  constructor
  · rintro ⟨recipient, hrecipient, due, hdue, feePayer, hfee, token, htoken, h⟩
    split at h
    · rename_i hallowed
      obtain rfl := Option.some.inj h
      exact ⟨recipient, hrecipient, due, hdue, feePayer, hfee, token, htoken, hallowed, rfl⟩
    · exact nomatch h
  · rintro ⟨recipient, hrecipient, due, hdue, feePayer, hfee, token, htoken, hallowed, rfl⟩
    exact ⟨recipient, hrecipient, due, hdue, feePayer, hfee, token, htoken, if_pos hallowed⟩

/-- The first account of a transaction that passes the allowlist. -/
theorem exists_payer_of_allowlist {matched : List Nat} {mint program : Option Pubkey}
    {allowed required : List Pubkey} {feePayer : Option Pubkey}
    (h : validateInstructionAllowlist find tx.message.staticAccountKeys matched mint allowed
      program tx feePayer required = .ok ()) :
    ∃ payer, tx.message.staticAccountKeys.head? = some payer := by
  obtain ⟨payer, hpayer, -⟩ := bind_eq_ok.mp h
  exact ⟨payer, okOrElse_eq_ok.mp hpayer⟩

/-- **What the code accepts**: a transaction whose first account is the fee payer that is
asked for and which verifies against the quote of the request. -/
theorem verifyPreBroadcast_eq_ok :
    verifyPreBroadcast find tx request details = .ok () ↔
      (∀ lookups ∈ tx.message.addressTableLookups, lookups = []) ∧
      ∃ primary, primaryAmount request details.splitList = .ok primary ∧
      ∃ q, quoteOf request details primary = some q ∧
      ∃ payer, tx.message.staticAccountKeys.head? = some payer ∧
        (∀ feePayer ∈ q.feePayer, feePayer = payer) ∧ q.verify find tx = .ok () := by
  have hlookups : rejectAddressLookupTables tx = .ok () ↔
      ∀ lookups ∈ tx.message.addressTableLookups, lookups = [] := by
    rw [rejectAddressLookupTables, rejectIf_eq_ok]
    push Not
    rfl
  constructor
  · intro h
    simp only [verifyPreBroadcast, bind_eq_ok, rejectIf_eq_ok, okOrElse_eq_ok, parseKey_eq_ok,
      expectedFeePayer_eq_ok] at h
    obtain ⟨_, hlookup, -, hlength, primary, hprimary, recipient, hrecipient, recipientPk, hpk,
      feePayer, ⟨hfee, hfirst⟩, -, hnative, policy, hpolicy, h⟩ := h
    have hrecipient' : request.recipient.bind (Bytes.fromBase58 32) = some recipientPk := by
      rw [hrecipient]
      exact Bytes.fromBase58_eq_some.mpr hpk
    refine ⟨hlookups.mp hlookup, primary, hprimary, ?_⟩
    by_cases hsol : request.IsNativeSol
    · rw [if_pos hsol] at h
      simp only [bind_eq_ok] at h
      obtain ⟨first, hfirstPaid, paid, hpaid, noted, hnoted, hallow⟩ := h
      obtain ⟨due, hdue, -⟩ := verifySplits_eq_ok.mp hpaid
      obtain ⟨payer, hpayer⟩ := exists_payer_of_allowlist hallow
      obtain rfl := Except.ok.inj ((policy_eq hdue).symm.trans hpolicy)
      have hallowed : requiresAta details.splitList →
          ∃ quoted ∈ (none : Option QuotedToken), request.currency = quoted.mint.toBase58 :=
        fun hata => absurd ⟨hsol, hata⟩ hnative
      refine ⟨_, quoteOf_eq_some.mpr ⟨recipientPk, hrecipient', due, hdue, feePayer, hfee, none,
        if_pos hsol, ⟨Nat.le_of_not_lt hlength, length_of_verifyMemos hnoted, hallowed⟩, rfl⟩,
        payer, hpayer, ?_, ?_⟩
      · intro key hkey
        exact Option.some.inj ((hfirst key hkey).symm.trans hpayer)
      · exact (Quote.verify_eq_ok (fun _ _ _ => rfl) rfl hdue rfl).mpr
          ⟨first, hfirstPaid, paid, hpaid, noted, hnoted, hallow⟩
    · rw [if_neg hsol] at h
      simp only [bind_eq_ok, rejectIf_eq_ok, resolveExpectedMint_eq_ok] at h
      obtain ⟨mint, hmint, -, hcurrency, program, hprogram, first, hfirstPaid, paid, hpaid, noted,
        hnoted, hallow⟩ := h
      obtain ⟨due, hdue, -⟩ := verifySplits_eq_ok.mp hpaid
      obtain ⟨payer, hpayer⟩ := exists_payer_of_allowlist hallow
      obtain rfl := Except.ok.inj ((policy_eq hdue).symm.trans hpolicy)
      have htoken : quotedToken request details =
          some (some { mint, program, decimals := details.decimals }) := by
        rw [quotedToken, if_neg hsol, hmint, expectedTokenProgram_eq_ok.mp hprogram]
        rfl
      have hallowed : requiresAta details.splitList → ∃ quoted ∈ some (⟨mint, program,
          details.decimals⟩ : QuotedToken), request.currency = quoted.mint.toBase58 := by
        intro hata
        refine ⟨_, rfl, not_not.mp fun hne => hcurrency ⟨?_, hne⟩⟩
        exact (requiredOwners_ne_nil (mapM_splitDue.mp hdue).length_eq).mpr hata
      refine ⟨_, quoteOf_eq_some.mpr ⟨recipientPk, hrecipient', due, hdue, feePayer, hfee,
        some ⟨mint, program, details.decimals⟩, htoken,
        ⟨Nat.le_of_not_lt hlength, length_of_verifyMemos hnoted, hallowed⟩, rfl⟩, payer, hpayer,
        ?_, ?_⟩
      · intro key hkey
        exact Option.some.inj ((hfirst key hkey).symm.trans hpayer)
      · exact (Quote.verify_eq_ok (fun _ _ _ => rfl) rfl hdue rfl).mpr
          ⟨first, hfirstPaid, paid, hpaid, noted, hnoted, hallow⟩
  · rintro ⟨hlookup, primary, hprimary, q, hq, payer, hpayer, hfirst, hverify⟩
    obtain ⟨recipientPk, hrecipient, due, hdue, feePayer, hfee, token, htoken,
      ⟨hlength, hmemos, hallowed⟩, rfl⟩ := quoteOf_eq_some.mp hq
    obtain ⟨recipient, hrecipient, hpk⟩ := Option.bind_eq_some_iff.mp hrecipient
    simp only [verifyPreBroadcast, bind_eq_ok, rejectIf_eq_ok, okOrElse_eq_ok, parseKey_eq_ok,
      expectedFeePayer_eq_ok, policy_eq hdue]
    have hfirst' : ∀ key ∈ feePayer, tx.message.staticAccountKeys.head? = some key := by
      intro key hkey
      rw [hpayer, hfirst key hkey]
    by_cases hsol : request.IsNativeSol
    · rw [quotedToken, if_pos hsol] at htoken
      obtain rfl : none = token := Option.some.inj htoken
      have hnative : ¬ (request.IsNativeSol ∧ requiresAta details.splitList) := by
        rintro ⟨-, hata⟩
        obtain ⟨quoted, hquoted, -⟩ := hallowed hata
        cases hquoted
      obtain ⟨first, hfirstPaid, paid, hpaid, noted, hnoted, hallow⟩ :=
        (Quote.verify_eq_ok (fun _ _ _ => rfl) rfl hdue rfl).mp hverify
      refine ⟨(), hlookups.mpr hlookup, (), Nat.not_lt.mpr hlength, primary, hprimary, recipient,
        hrecipient, recipientPk, Bytes.fromBase58_eq_some.mp hpk, feePayer, ⟨hfee, hfirst'⟩, (),
        hnative, _, rfl, ?_⟩
      rw [if_pos hsol]
      simp only [bind_eq_ok]
      exact ⟨first, hfirstPaid, paid, hpaid, noted, hnoted, hallow⟩
    · rw [quotedToken, if_neg hsol] at htoken
      simp only [Option.bind_eq_bind, Option.bind_eq_some_iff, Option.pure_def,
        Option.some.injEq] at htoken
      obtain ⟨mint, ⟨text, htext, hmint⟩, program, hprogram, rfl⟩ := htoken
      have hmint' : resolveExpectedMint request.currency details.network = .ok mint :=
        resolveExpectedMint_eq_ok.mpr (Option.bind_eq_some_iff.mpr ⟨text, htext, hmint⟩)
      have hnative : ¬ (request.IsNativeSol ∧ requiresAta details.splitList) := fun h => hsol h.1
      have hcurrency : ¬ (requiredOwners due details.splitList ≠ [] ∧
          request.currency ≠ mint.toBase58) := by
        rintro ⟨hrequired, hne⟩
        obtain ⟨quoted, hquoted, he⟩ :=
          hallowed ((requiredOwners_ne_nil (mapM_splitDue.mp hdue).length_eq).mp hrequired)
        obtain rfl := Option.some.inj hquoted
        exact hne he
      obtain ⟨first, hfirstPaid, paid, hpaid, noted, hnoted, hallow⟩ :=
        (Quote.verify_eq_ok (fun _ _ _ => rfl) rfl hdue rfl).mp hverify
      refine ⟨(), hlookups.mpr hlookup, (), Nat.not_lt.mpr hlength, primary, hprimary, recipient,
        hrecipient, recipientPk, Bytes.fromBase58_eq_some.mp hpk, feePayer, ⟨hfee, hfirst'⟩, (),
        hnative, _, rfl, ?_⟩
      rw [if_neg hsol]
      simp only [bind_eq_ok, rejectIf_eq_ok]
      exact ⟨mint, hmint', (), hcurrency, program, expectedTokenProgram_eq_ok.mpr hprogram, first,
        hfirstPaid, paid, hpaid, noted, hnoted, hallow⟩

end Request

/-! ## What is paid -/

/-- The sum of the splits that can be read. -/
def splitsSum (splits : List Split) : Nat :=
  ((splits.filterMap fun split => parseU64 split.amount).map UInt64.toNat).sum

/-- The keys a request pays. -/
def recipients (request : ChargeRequest) (details : MethodDetails) : List Pubkey :=
  (request.recipient.toList ++ details.splitList.map (·.recipient)).filterMap (Bytes.fromBase58 32)

/-- The transaction pays what the request asks for, the amount less `deducted` for the
recipient. -/
def PaysAfter (deducted : Nat) (find : FindProgramAddress) (tx : VersionedTransaction)
    (request : ChargeRequest) (details : MethodDetails) : Prop :=
  ∃ total primary q, parseU64 request.amount = some total ∧ 0 < primary ∧
    primary.toNat + deducted = total.toNat ∧ quoteOf request details primary = some q ∧
    q.PaidBy find tx

section Paid
variable {find : FindProgramAddress} {tx : VersionedTransaction} {request : ChargeRequest}
  {details : MethodDetails}

/-- Machine integers add up modulo `2 ^ 64`. -/
theorem toNat_splitsTotal (splits : List Split) :
    (splitsTotal splits).toNat = splitsSum splits % 2 ^ 64 := by
  rw [splitsTotal, splitsSum]
  exact toNat_sum _

/-- The amount the code leaves for the recipient. -/
theorem primaryAmount_eq_ok {primary : UInt64} {splits : List Split} :
    primaryAmount request splits = .ok primary ↔
      ∃ total, parseU64 request.amount = some total ∧ 0 < primary ∧
        primary.toNat + splitsSum splits % 2 ^ 64 = total.toNat := by
  simp only [primaryAmount, bind_eq_ok, okOrElse_eq_ok, rejectIf_eq_ok, UInt64.not_lt]
  constructor
  · rintro ⟨total, htotal, -, hle, -, hpositive, h⟩
    obtain rfl : total - splitsTotal splits = primary := by cases h; rfl
    refine ⟨total, htotal, UInt64.pos_iff_ne_zero.mpr hpositive, ?_⟩
    rw [UInt64.toNat_sub_of_le _ _ hle, ← toNat_splitsTotal]
    exact Nat.sub_add_cancel (UInt64.le_iff_toNat_le.mp hle)
  · rintro ⟨total, htotal, hpositive, hsum⟩
    rw [← toNat_splitsTotal] at hsum
    have hle : splitsTotal splits ≤ total := by
      rw [UInt64.le_iff_toNat_le, ← hsum]
      exact Nat.le_add_left _ _
    have hprimary : total - splitsTotal splits = primary := by
      apply UInt64.toNat_inj.mp
      rw [UInt64.toNat_sub_of_le _ _ hle, ← hsum, Nat.add_sub_cancel]
    refine ⟨total, htotal, (), hle, (), ?_, ?_⟩
    · rw [hprimary]
      exact UInt64.pos_iff_ne_zero.mp hpositive
    · rw [hprimary]
      rfl

/-- The keys a quote pays are those of its request. -/
theorem mem_recipients_of_quoteOf {primary : UInt64} {q : Quote}
    (h : quoteOf request details primary = some q) :
    ∀ owner ∈ q.payouts.map Prod.fst, owner ∈ recipients request details := by
  obtain ⟨recipient, hrecipient, due, hdue, feePayer, -, token, -, -, rfl⟩ := quoteOf_eq_some.mp h
  obtain ⟨text, htext, hkey⟩ := Option.bind_eq_some_iff.mp hrecipient
  intro owner howner
  rw [recipients, List.mem_filterMap]
  rcases List.mem_cons.mp howner with rfl | howner
  · refine ⟨text, List.mem_append_left _ ?_, hkey⟩
    rw [htext]
    exact List.mem_singleton.mpr rfl
  · obtain ⟨payout, hpayout, rfl⟩ := List.mem_map.mp howner
    have hdue : List.Forall₂ (fun split payout => splitDue split = some payout)
        details.splitList due := (mapM_splitDue.mp hdue).flip
    obtain ⟨split, hsplit, hdue⟩ := exists_of_mem hdue payout hpayout
    refine ⟨split.recipient, List.mem_append_right _ (List.mem_map.mpr ⟨split, hsplit, rfl⟩), ?_⟩
    exact Bytes.fromBase58_eq_some.mpr (splitDue_eq_some.mp hdue).1

/-- **The code accepts what pays the request**, with the sum of the splits taken modulo
`2 ^ 64`. -/
theorem accepts_iff (hdistinct : DistinctAccounts find (recipients request details)) :
    verifyPreBroadcast find tx request details = .ok () ↔
      PaysAfter (splitsSum details.splitList % 2 ^ 64) find tx request details := by
  rw [verifyPreBroadcast_eq_ok]
  constructor
  · rintro ⟨hlookups, primary, hprimary, q, hq, payer, hpayer, hfee, hverify⟩
    obtain ⟨total, htotal, hpositive, hsum⟩ := primaryAmount_eq_ok.mp hprimary
    exact ⟨total, primary, q, htotal, hpositive, hsum, hq,
      Quote.paidBy_of_verify hlookups hpayer hfee hverify⟩
  · rintro ⟨total, primary, q, htotal, hpositive, hsum, hq, hpaid⟩
    obtain ⟨payer, hpayer, hfee⟩ := hpaid.first
    have hmemos : ∀ memo ∈ q.memos, (utf8 memo.2).length ≤ 566 := by
      obtain ⟨recipient, -, due, -, feePayer, -, token, -, hallowed, rfl⟩ := quoteOf_eq_some.mp hq
      exact hallowed.2.1
    have howners : DistinctAccounts find (q.payouts.map Prod.fst) := by
      intro owner howner owner' howner'
      exact hdistinct owner (mem_recipients_of_quoteOf hq owner howner) owner'
        (mem_recipients_of_quoteOf hq owner' howner')
    exact ⟨hpaid.noLookups, primary, primaryAmount_eq_ok.mpr ⟨total, htotal, hpositive, hsum⟩, q,
      hq, payer, hpayer, hfee, Quote.verify_of_paidBy hmemos howners hpaid⟩

/-- **Exactness**, for the inputs that have it: what is accepted is what pays the request,
unless the splits overflow and the transaction pays the amount less their wrapped sum. -/
theorem exact_iff (find : FindProgramAddress) (tx : VersionedTransaction)
    (request : ChargeRequest) (details : MethodDetails)
    (hdistinct : DistinctAccounts find (recipients request details)) :
    (verifyPreBroadcast find tx request details = .ok () ↔
      PaysAfter (splitsSum details.splitList) find tx request details) ↔
    (splitsSum details.splitList < 2 ^ 64 ∨
      ¬ PaysAfter (splitsSum details.splitList % 2 ^ 64) find tx request details) := by
  rw [accepts_iff hdistinct]
  by_cases hsum : splitsSum details.splitList < 2 ^ 64
  · rw [Nat.mod_eq_of_lt hsum]
    exact ⟨fun _ => Or.inl hsum, fun _ => Iff.rfl⟩
  · -- an amount holds no sum that overflows
    have hnever : ¬ PaysAfter (splitsSum details.splitList) find tx request details := by
      rintro ⟨total, primary, q, -, -, htotal, -⟩
      have hlt : total.toNat < 2 ^ 64 := total.toNat_lt
      omega
    constructor
    · intro h
      exact Or.inr fun hpays => hnever (h.mp hpays)
    · rintro (hlt | hnot)
      · exact absurd hlt hsum
      · exact ⟨fun h => absurd h hnot, fun h => absurd h hnever⟩

end Paid

namespace Sample

/-- Splits of all but one of the 2 ^ 64 lamports there can be, and of 101. -/
def wrappedDetails : MethodDetails where
  splits := some [{ recipient := (key 4).toBase58, amount := "18446744073709551615" },
    { recipient := (key 5).toBase58, amount := "101" }]

/-- A charge of 1000 lamports: with the splits wrapped to 100, 900 are left. -/
def wrappedRequest : ChargeRequest where
  amount := "1000"
  currency := "SOL"
  recipient := some (key 2).toBase58

/-- A payment of 900, and of the splits. -/
def wrappedPayment : VersionedTransaction where
  signatures := [⟨List.replicate 64 3, rfl⟩]
  message := .legacy ⟨1, 0, 1⟩ {
    accountKeys := [key 3, key 2, key 4, key 5, programs.systemKey]
    recentBlockhash := key 9
    instructions := [
      ⟨4, [0, 1], [2, 0, 0, 0, 132, 3, 0, 0, 0, 0, 0, 0]⟩,
      ⟨4, [0, 2], [2, 0, 0, 0, 255, 255, 255, 255, 255, 255, 255, 255]⟩,
      ⟨4, [0, 3], [2, 0, 0, 0, 101, 0, 0, 0, 0, 0, 0, 0]⟩] }

/-- A payment of 900 for a charge of 1000 is accepted, because the splits overflow. -/
theorem wrappedPayment_accepted_not_exact :
    ¬ (verifyPreBroadcast find wrappedPayment wrappedRequest wrappedDetails = .ok () ↔
      PaysAfter (splitsSum wrappedDetails.splitList) find wrappedPayment wrappedRequest
        wrappedDetails) := by
  have haccepted :
      verifyPreBroadcast find wrappedPayment wrappedRequest wrappedDetails = .ok () := by
    decide +kernel
  have hsum : ¬ splitsSum wrappedDetails.splitList < 2 ^ 64 := by decide
  intro h
  obtain ⟨total, primary, q, -, -, htotal, -⟩ := h.mp haccepted
  have hlt : total.toNat < 2 ^ 64 := total.toNat_lt
  omega

/-- The two recipients of the sample charge have token accounts of their own. -/
theorem distinctAccounts : DistinctAccounts find (recipients request details) := by
  have hrecipients : recipients request details = [key 2, key 4] := by decide +kernel
  have hne : recipientAta ≠ vendorAta := by decide +kernel
  rw [hrecipients]
  intro owner howner owner' howner' program mint
  rcases List.mem_pair.mp howner with rfl | rfl <;> rcases List.mem_pair.mp howner' with rfl | rfl
  · exact fun _ => rfl
  · exact fun h => absurd h hne
  · exact fun h => absurd h.symm hne
  · exact fun _ => rfl

/-- The sample payment is accepted exactly if it pays the sample charge. -/
theorem payment_exact : splitsSum details.splitList < 2 ^ 64 ∧
    (verifyPreBroadcast find payment request details = .ok () ↔
      PaysAfter (splitsSum details.splitList) find payment request details) := by
  have hsum : splitsSum details.splitList < 2 ^ 64 := by decide
  exact ⟨hsum, (exact_iff find payment request details distinctAccounts).mpr (Or.inl hsum)⟩

end Sample
end MppSdk
