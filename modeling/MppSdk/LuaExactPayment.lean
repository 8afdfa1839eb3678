import MppSdk.LuaVerify
import MppSdk.Matching

/-! # What the Lua verifier accepts

A confirmed token payment is accepted exactly when the expected transfers can be given transfers
of their own and the memos are the expected ones (`verify_spl_iff`).  The transfers are taken
greedily; as a parsed transfer pays one owner one amount, no round takes what only another
expected transfer could use. -/

namespace MppSdk
namespace Lua
namespace Verify
open Matching

/-- The number an amount denotes. -/
abbrev amountOf (text : String) : Nat := Decimal.value text.toList

/-- The parsed token transfers carry their amount as digits. -/
def WellFormed (instructions : List Instruction) : Prop :=
  ∀ ix ∈ instructions, parsedType ix = some "transferChecked" → ∀ info,
    instructionInfo ix = some info → ∃ amount, info.tokenAmount = some amount ∧
      allDigits amount.toList

/-- The amounts of a request are digits, and the splits leave something to the recipient. -/
structure Request.Payable (request : Request) : Prop where
  amount : allDigits request.amount.toList
  splits : ∀ split ∈ request.splits, allDigits split.amount.toList
  rest : (request.splits.map fun split => amountOf split.amount).sum < amountOf request.amount

/-- What is owed to whom. -/
def Request.demands (request : Request) : List (String × Nat) :=
  (request.recipient, amountOf request.amount -
      (request.splits.map fun split => amountOf split.amount).sum) ::
    request.splits.map fun split => (split.recipient, amountOf split.amount)

/-- The instruction transfers an amount of the mint to a token account of the owner. -/
def Pays (fetch : Option String → Option TokenAccount) (programId mint : Option String)
    (demand : String × Nat) (ix : Instruction) : Prop :=
  IsTransfer programId ix ∧ ∃ info amount account, instructionInfo ix = some info ∧
    info.mint = mint ∧ info.tokenAmount = some amount ∧ amountOf amount = demand.2 ∧
    fetch info.destination = some account ∧ account.owner = some demand.1 ∧ account.mint = mint

/-- The texts of the memo instructions. -/
def memoTexts (instructions : List Instruction) : List (Option String) :=
  (instructions.filter IsMemo).map parsedMemoText

/-! ## The expected transfers -/

theorem sumSplitAmounts_eq {splits : List Split}
    (h : ∀ split ∈ splits, allDigits split.amount.toList) : ∃ total : String,
      sumSplitAmounts splits = .ok total ∧ allDigits total.toList ∧
        amountOf total = (splits.map fun split => amountOf split.amount).sum := by
  have hloop : ∀ (splits : List Split) (start : String), allDigits start.toList →
      (∀ split ∈ splits, allDigits split.amount.toList) → ∃ total : String,
        splits.foldlM (fun total split => Uint.add total split.amount) start = .ok total ∧
          allDigits total.toList ∧
          amountOf total =
            amountOf start + (splits.map fun split => amountOf split.amount).sum := by
    intro splits
    induction splits with
    | nil => exact fun start hstart _ => ⟨start, rfl, hstart, rfl⟩
    | cons split splits ih =>
      intro start hstart hall
      obtain ⟨hsplit, hsplits⟩ := List.forall_mem_cons.mp hall
      obtain ⟨next, hadd, hnext, hvalue⟩ := Uint.add_eq hstart hsplit
      obtain ⟨total, htotal, hdigits, hsum⟩ := ih next hnext hsplits
      refine ⟨total, ?_, hdigits, ?_⟩
      · rw [List.foldlM_cons, hadd]
        exact htotal
      · rw [hsum, List.map_cons, List.sum_cons]
        show Decimal.value next.toList + _ = _
        rw [hvalue, Nat.add_assoc]
  obtain ⟨total, htotal, hdigits, hsum⟩ := hloop splits "0" rfl h
  exact ⟨total, htotal, hdigits, by rw [hsum]; exact Nat.zero_add _⟩

/-- The transfers that are expected of a payable request. -/
theorem buildExpectedTransfers_of_payable {request : Request} (h : request.Payable) :
    buildExpectedTransfers request = .ok (⟨request.recipient, toString
        (amountOf request.amount - (request.splits.map fun split => amountOf split.amount).sum)⟩ ::
      request.splits.map fun split => ⟨split.recipient, split.amount⟩) := by
  obtain ⟨total, htotal, hdigits, hsum⟩ := sumSplitAmounts_eq h.splits
  have hrest := h.rest
  rw [← hsum] at hrest ⊢
  have hcompare : Uint.compare request.amount total = .ok 1 := by
    rw [Uint.compare_eq h.amount hdigits, if_neg (Nat.lt_asymm hrest), if_pos hrest]
  have hsub := (Uint.sub_exact h.amount hdigits).trans (if_pos hrest.le)
  simp only [buildExpectedTransfers, primaryAmount, htotal, hcompare, hsub, Bind.bind, Except.bind]
  rfl

/-- The demand of an expected transfer. -/
def Expected.demand (want : Expected) : String × Nat := (want.recipient, amountOf want.amount)

/-- **The expected transfers** are what is owed. -/
theorem buildExpectedTransfers_eq {request : Request} (h : request.Payable) : ∃ expected,
    buildExpectedTransfers request = .ok expected ∧
      (∀ want ∈ expected, allDigits want.amount.toList) ∧
      expected.map Expected.demand = request.demands := by
  refine ⟨_, buildExpectedTransfers_of_payable h, ?_, ?_⟩
  · rw [List.forall_mem_cons]
    refine ⟨Uint.allDigits_toString _, fun want hwant => ?_⟩
    obtain ⟨split, hsplit, rfl⟩ := List.mem_map.mp hwant
    exact h.splits split hsplit
  · rw [List.map_cons, List.map_map, Request.demands]
    exact congrArg (fun n => (request.recipient, n) :: _) (Uint.value_toString _)

/-- Only digits are summed. -/
theorem digits_of_sumSplitAmounts {splits : List Split} {total : String}
    (h : sumSplitAmounts splits = .ok total) :
    ∀ split ∈ splits, allDigits split.amount.toList := by
  have hloop : ∀ (splits : List Split) (start : String),
      splits.foldlM (fun total split => Uint.add total split.amount) start = .ok total →
        ∀ split ∈ splits, allDigits split.amount.toList := by
    intro splits
    induction splits with
    | nil => exact fun start _ split hsplit => (nomatch hsplit)
    | cons split splits ih =>
      intro start hstart
      rw [List.foldlM_cons] at hstart
      obtain ⟨next, hadd, hrest⟩ := Uint.of_bind_eq_ok hstart
      exact List.forall_mem_cons.mpr ⟨(Uint.allDigits_of_add hadd).2, ih next hrest⟩
  exact hloop splits "0" h

/-- Transfers are expected of no other requests. -/
theorem payable_of_buildExpectedTransfers {request : Request} {expected : List Expected}
    (h : buildExpectedTransfers request = .ok expected) : request.Payable := by
  obtain ⟨primary, hprimary, -⟩ := Uint.of_bind_eq_ok h
  obtain ⟨total, htotal, hprimary⟩ := Uint.of_bind_eq_ok hprimary
  obtain ⟨order, horder, hprimary⟩ := Uint.of_bind_eq_ok hprimary
  have hsplits := digits_of_sumSplitAmounts htotal
  obtain ⟨hamount, hdigits⟩ := Uint.allDigits_of_compare horder
  refine ⟨hamount, hsplits, ?_⟩
  obtain ⟨total', htotal', -, hsum⟩ := sumSplitAmounts_eq hsplits
  obtain rfl := Except.ok.inj (htotal.symm.trans htotal')
  rw [Uint.compare_eq hamount hdigits] at horder
  rw [← hsum]
  by_contra hnot
  -- an order that is not positive ends the function
  have hle : order ≤ 0 := by
    rw [← Except.ok.inj horder, if_neg fun h => hnot h]
    split <;> decide
  rw [if_pos hle] at hprimary
  cases hprimary

/-- **Amounts are exact.**  The sum, the order and the difference of texts of digits are those of
their numbers, written without leading zeros, and only a difference below zero is an error.  So
the expected transfers, which only a payable request has, are the recipient's with what the
splits leave of the amount, and the splits'. -/
theorem amounts_exact (left right : String) (hleft : allDigits left.toList)
    (hright : allDigits right.toList) (request : Request) :
    Uint.add left right = .ok (toString (amountOf left + amountOf right)) ∧
    Uint.compare left right = .ok (if amountOf left < amountOf right then -1
      else if amountOf right < amountOf left then 1 else 0) ∧
    Uint.sub left right = (if amountOf right ≤ amountOf left then
        .ok (toString (amountOf left - amountOf right))
      else .error "unsigned subtraction underflow") ∧
    ((∃ expected, buildExpectedTransfers request = .ok expected) ↔ request.Payable) ∧
    ∀ expected, buildExpectedTransfers request = .ok expected →
      (∀ want ∈ expected, allDigits want.amount.toList) ∧
      (expected.map fun want => amountOf want.amount).sum = amountOf request.amount ∧
      ∃ primary : Nat, 0 < primary ∧
        expected = ⟨request.recipient, toString primary⟩ ::
          request.splits.map fun split => ⟨split.recipient, split.amount⟩ := by
  refine ⟨Uint.add_exact hleft hright, Uint.compare_eq hleft hright, Uint.sub_exact hleft hright,
    ⟨fun ⟨_, h⟩ => payable_of_buildExpectedTransfers h, fun h => ?_⟩, fun expected h => ?_⟩
  · exact ⟨_, buildExpectedTransfers_of_payable h⟩
  · have hpayable := payable_of_buildExpectedTransfers h
    have hrest := hpayable.rest
    obtain ⟨expected', hexpected, hdigits, hdemands⟩ := buildExpectedTransfers_eq hpayable
    obtain rfl := Except.ok.inj (h.symm.trans hexpected)
    refine ⟨hdigits, ?_, _, Nat.sub_pos_of_lt hrest,
      Except.ok.inj (h.symm.trans (buildExpectedTransfers_of_payable hpayable))⟩
    calc (expected.map fun want => amountOf want.amount).sum
        = ((expected.map Expected.demand).map Prod.snd).sum := by
          rw [List.map_map]
          rfl
      _ = amountOf request.amount := by
          rw [hdemands, Request.demands, List.map_cons, List.map_map, List.sum_cons]
          exact Nat.sub_add_cancel hrest.le

/-! ## The transfers that are taken -/

/-- The test of a round says whether the transfer is wanted. -/
def Answers (accepts : Instruction → Result Bool) (P : Instruction → Prop) (ix : Instruction) :
    Prop :=
  ∃ b, accepts ix = .ok b ∧ (b = true ↔ P ix)

/-- **What a round does**, over transfers that its test answers for. -/
theorem removeFirst_cases {accepts : Instruction → Result Bool} {P : Instruction → Prop}
    {transfers : List Instruction} (h : ∀ ix ∈ transfers, Answers accepts P ix) :
    ((∀ ix ∈ transfers, ¬ P ix) ∧ removeFirst accepts transfers = .ok none) ∨
      ∃ ix rest, P ix ∧ transfers.Perm (ix :: rest) ∧
        removeFirst accepts transfers = .ok (some rest) := by
  induction transfers with
  | nil => exact Or.inl ⟨fun ix hix => (nomatch hix), rfl⟩
  | cons ix transfers ih =>
    obtain ⟨⟨b, hanswer, hb⟩, htransfers⟩ := List.forall_mem_cons.mp h
    by_cases hP : P ix
    · obtain rfl := hb.mpr hP
      refine Or.inr ⟨ix, transfers, hP, List.Perm.refl _, ?_⟩
      simp only [removeFirst, hanswer, Bind.bind, Except.bind, if_true]
      rfl
    · obtain rfl : b = false := by simpa [hP] using hb
      rcases ih htransfers with ⟨hnone, hloop⟩ | ⟨ix', rest, hP', hperm, hloop⟩
      · refine Or.inl ⟨List.forall_mem_cons.mpr ⟨hP, hnone⟩, ?_⟩
        simp only [removeFirst, hanswer, hloop, Bind.bind, Except.bind]
        rfl
      · refine Or.inr ⟨ix', ix :: rest, hP', ?_, ?_⟩
        · exact (hperm.cons ix).trans (List.Perm.swap ix' ix rest)
        · simp only [removeFirst, hanswer, hloop, Bind.bind, Except.bind]
          rfl

/-- **The transfers that the rounds take**: every demand has one of its own, where the tests
answer for the transfers that are kept and a transfer pays one demand only. -/
theorem takeAll_iff_of {accepts : Expected → Instruction → Result Bool} {kind : String}
    {P : String × Nat → Instruction → Prop} {keep : Instruction → Bool}
    {instructions : List Instruction} {expected : List Expected}
    (hanswers : ∀ want ∈ expected, ∀ ix ∈ instructions.filter keep,
      Answers (accepts want) (P want.demand) ix)
    (hkeep : ∀ demand ix, P demand ix → keep ix = true)
    (hunique : ∀ demand demand' ix, P demand ix → P demand' ix → demand = demand') :
    (∃ rest, takeAll accepts kind (instructions.filter keep) expected = .ok rest) ↔
      ∃ picks, picks.Nodup ∧ List.Forall₂ (At P instructions) (expected.map Expected.demand)
        picks := by
  have hround : ∀ (items : List Instruction) (want : Expected),
      (∀ ix ∈ items, ix ∈ instructions.filter keep) → want ∈ expected →
        ((∀ ix ∈ items, ¬ P want.demand ix) ∧
          ∃ e, takeOne accepts kind items want = .error e) ∨
        ∃ ix rest, P want.demand ix ∧ items.Perm (ix :: rest) ∧
          takeOne accepts kind items want = .ok rest := by
    intro items want hitems hwant
    rcases removeFirst_cases fun ix hix => hanswers want hwant ix (hitems ix hix) with
      ⟨hnone, hloop⟩ | ⟨ix, rest, hpays, hperm, hloop⟩
    · refine Or.inl ⟨hnone, ?_⟩
      rw [takeOne, hloop]
      exact ⟨_, rfl⟩
    · refine Or.inr ⟨ix, rest, hpays, hperm, ?_⟩
      rw [takeOne, hloop]
      rfl
  have hloop : (∃ after, expected.foldlM (takeOne accepts kind) (instructions.filter keep) =
      .ok after) ↔ ∃ chosen, chosen.Subperm (instructions.filter keep) ∧ List.Forall₂
        (fun want ix => P (Expected.demand want) ix) expected chosen := by
    refine foldlM_take_iff ?_ ?_ ?_ (fun want hwant => hwant) fun ix hix => hix
    · intro items want after hitems hwant hok
      rcases hround items want hitems hwant with ⟨-, e, herror⟩ | ⟨ix, rest, hpays, hperm, hrest⟩
      · rw [herror] at hok
        cases hok
      · obtain rfl := Except.ok.inj (hrest.symm.trans hok)
        exact ⟨ix, hpays, hperm⟩
    · rintro items want hitems hwant ⟨ix, hix, hpays⟩
      rcases hround items want hitems hwant with ⟨hnone, -⟩ | ⟨ix, rest, -, -, hrest⟩
      · exact absurd hpays (hnone ix hix)
      · exact ⟨rest, hrest⟩
    · intro want want' a b ha ha' hb
      rwa [hunique _ _ _ ha' ha]
  rw [takeAll, hloop]
  constructor
  · rintro ⟨chosen, hpart, hfits⟩
    have hpart : chosen.Subperm instructions := hpart.trans List.filter_sublist.subperm
    obtain ⟨picks, hnodup, hat⟩ := exists_picks hpart hfits
    exact ⟨picks, hnodup, List.forall₂_map_left_iff.mpr hat⟩
  · rintro ⟨picks, hnodup, hat⟩
    have hat : List.Forall₂ (At (fun want ix => P (Expected.demand want) ix) instructions)
        expected picks := by
      rw [List.forall₂_map_left_iff] at hat
      exact hat
    obtain ⟨chosen, hpart, hfits⟩ := exists_chosen hnodup hat
    have hkept : chosen.filter keep = chosen := by
      refine List.filter_eq_self.mpr fun ix hix => ?_
      obtain ⟨want, -, hpays⟩ := exists_of_mem hfits ix hix
      exact hkeep _ _ hpays
    have hpart := hpart.filter keep
    rw [hkept] at hpart
    exact ⟨chosen, hpart, hfits⟩

section Tokens
variable {fetch : Option String → Option TokenAccount} {programId mint : Option String}
  {request : Request} {details : MethodDetails} {instructions : List Instruction}

/-- A transfer pays one owner one amount. -/
theorem Pays.unique {demand demand' : String × Nat} {ix : Instruction}
    (h : Pays fetch programId mint demand ix) (h' : Pays fetch programId mint demand' ix) :
    demand = demand' := by
  obtain ⟨-, info, amount, account, hinfo, -, hamount, hvalue, haccount, howner, -⟩ := h
  obtain ⟨-, info', amount', account', hinfo', -, hamount', hvalue', haccount', howner', -⟩ := h'
  obtain rfl := Option.some.inj (hinfo.symm.trans hinfo')
  obtain rfl := Option.some.inj (hamount.symm.trans hamount')
  obtain rfl := Option.some.inj (haccount.symm.trans haccount')
  exact Prod.ext (Option.some.inj (howner.symm.trans howner')) (hvalue.symm.trans hvalue')

/-- The transfer carries its amount as digits. -/
def HasAmount (ix : Instruction) : Prop :=
  ∀ info, instructionInfo ix = some info → ∃ amount, info.tokenAmount = some amount ∧
    allDigits amount.toList

/-- The test of a round is whether the transfer pays. -/
theorem paysToken_answers {want : Expected} {ix : Instruction}
    (hwant : allDigits want.amount.toList) (hix : IsTransfer programId ix) (hform : HasAmount ix) :
    Answers (paysToken fetch mint want) (Pays fetch programId mint want.demand) ix := by
  unfold Answers paysToken
  rcases hinfo : instructionInfo ix with _ | info
  · refine ⟨false, rfl, fun h => (nomatch h), ?_⟩
    rintro ⟨-, info, -, -, h, -⟩
    exact nomatch hinfo.symm.trans h
  obtain ⟨amount, hamount, hdigits⟩ := hform info hinfo
  have hpays : Pays fetch programId mint want.demand ix ↔ info.mint = mint ∧
      amountOf amount = amountOf want.amount ∧ ∃ account, fetch info.destination = some account ∧
        account.owner = some want.recipient ∧ account.mint = mint := by
    constructor
    · rintro ⟨-, info', amount', account, hinfo', hmint, hamount', hvalue, haccount⟩
      obtain rfl := Option.some.inj (hinfo.symm.trans hinfo')
      obtain rfl := Option.some.inj (hamount.symm.trans hamount')
      exact ⟨hmint, hvalue, account, haccount⟩
    · rintro ⟨hmint, hvalue, account, haccount⟩
      exact ⟨hix, info, amount, account, hinfo, hmint, hamount, hvalue, haccount⟩
  simp only [hpays, hamount, Uint.compare_eq hdigits hwant, Bind.bind, Except.bind]
  by_cases hmint : info.mint = mint
  · rw [if_pos hmint]
    rcases Nat.lt_trichotomy (amountOf amount) (amountOf want.amount) with hlt | heq | hgt
    · rw [if_pos hlt, if_neg (by decide)]
      exact ⟨false, rfl, fun h => (nomatch h), fun h => absurd h.2.1 hlt.ne⟩
    · rw [if_neg heq.not_lt, if_neg heq.symm.not_lt, if_pos rfl]
      rcases fetch info.destination with _ | account
      · exact ⟨false, rfl, fun h => (nomatch h), fun ⟨_, _, account, h, _⟩ => (nomatch h)⟩
      · refine ⟨_, rfl, ?_⟩
        simp [hmint, heq]
    · rw [if_neg (Nat.lt_asymm hgt), if_pos hgt, if_neg (by decide)]
      exact ⟨false, rfl, fun h => (nomatch h), fun h => absurd h.2.1 hgt.ne'⟩
  · rw [if_neg hmint]
    exact ⟨false, rfl, fun h => (nomatch h), fun h => absurd h.1 hmint⟩

/-- **The transfers that the rounds take**: every demand has one of its own. -/
theorem takeAll_iff {expected : List Expected} (hform : WellFormed instructions)
    (hexpected : ∀ want ∈ expected, allDigits want.amount.toList) :
    (∃ rest, takeAll (paysToken fetch mint) "token" (instructions.filter (IsTransfer programId))
      expected = .ok rest) ↔
      ∃ picks, picks.Nodup ∧ List.Forall₂ (At (Pays fetch programId mint) instructions)
        (expected.map Expected.demand) picks := by
  refine takeAll_iff_of (fun want hwant ix hix => ?_) (fun demand ix hpays => ?_)
    fun demand demand' ix h h' => h.unique h'
  · obtain ⟨hmem, htransfer⟩ := List.mem_filter.mp hix
    have htransfer : IsTransfer programId ix := of_decide_eq_true htransfer
    exact paysToken_answers (hexpected want hwant) htransfer (hform ix hmem htransfer.1)
  · exact decide_eq_true hpays.1

end Tokens

/-! ## The memos -/

section Memos
variable {instructions : List Instruction}

/-- The instruction is a memo with this text. -/
def Says (text : Option String) (ix : Instruction) : Prop := IsMemo ix ∧ parsedMemoText ix = text

theorem memoTexts_eq (instructions : List Instruction) : memoTexts instructions =
    instructions.filterMap fun ix => if IsMemo ix then some (parsedMemoText ix) else none := by
  unfold memoTexts
  induction instructions with
  | nil => rfl
  | cons ix instructions ih =>
    by_cases hmemo : IsMemo ix
    · rw [List.filter_cons_of_pos (by simpa using hmemo), List.filterMap_cons, if_pos hmemo,
        List.map_cons, ih]
    · rw [List.filter_cons_of_neg (by simpa using hmemo), List.filterMap_cons, if_neg hmemo, ih]

/-- **What a round takes**: a free memo instruction with the text, and the text is short. -/
theorem matchMemo_eq_ok {matched after : List Nat} {want : ExpectedMemo}
    (h : matchMemo instructions matched want = .ok after) :
    want.value.utf8ByteSize ≤ 566 ∧ ∃ i, after = i :: matched ∧ i ∉ matched ∧
      At (fun want ix => Says (some (ExpectedMemo.value want)) ix) instructions want i := by
  unfold matchMemo at h
  by_cases hlong : 566 < want.value.utf8ByteSize
  · rw [if_pos hlong] at h
    cases h
  rw [if_neg hlong] at h
  refine ⟨Nat.not_lt.mp hlong, ?_⟩
  split at h
  · next item hfound =>
    obtain rfl := Except.ok.inj h
    have hmem := List.mem_zipIdx_iff_getElem?.mp (List.mem_of_find?_eq_some hfound)
    have htest := List.find?_some hfound
    obtain ⟨hfree, hmemo, htext⟩ : item.2 ∉ matched ∧ IsMemo item.1 ∧
        parsedMemoText item.1 = some want.value := by simpa using htest
    exact ⟨item.2, rfl, hfree, item.1, hmem, hmemo, htext⟩
  · cases h

/-- A round finds what there is. -/
theorem exists_matchMemo {matched : List Nat} {want : ExpectedMemo}
    (hshort : want.value.utf8ByteSize ≤ 566)
    (h : ∃ i, i ∉ matched ∧
      At (fun want ix => Says (some (ExpectedMemo.value want)) ix) instructions want i) :
    ∃ after, matchMemo instructions matched want = .ok after := by
  unfold matchMemo
  rw [if_neg (Nat.not_lt.mpr hshort)]
  split
  · exact ⟨_, rfl⟩
  · next hnone =>
    obtain ⟨i, hfree, ix, hix, hmemo, htext⟩ := h
    have hfails := List.find?_eq_none.mp hnone (ix, i) (List.mem_zipIdx_iff_getElem?.mpr hix)
    exact absurd (decide_eq_true ⟨hfree, hmemo, htext⟩) hfails

/-- All the memos of a successful loop are short. -/
theorem short_of_loop {expected : List ExpectedMemo} : ∀ {matched after : List Nat},
    expected.foldlM (matchMemo instructions) matched = .ok after →
      ∀ want ∈ expected, want.value.utf8ByteSize ≤ 566 := by
  induction expected with
  | nil => exact fun _ want hwant => (nomatch hwant)
  | cons want expected ih =>
    intro matched after h
    rw [List.foldlM_cons] at h
    rcases hround : matchMemo instructions matched want with e | next
    · rw [hround] at h
      cases h
    · rw [hround] at h
      exact List.forall_mem_cons.mpr ⟨(matchMemo_eq_ok hround).1, ih h⟩

/-- **The memos that are accepted**: those that are expected, in any order, and none is long. -/
theorem verifyMemoInstructions_iff {request : Request} {details : MethodDetails} :
    verifyMemoInstructions instructions request details = .ok () ↔
      (memoTexts instructions).Perm
          ((expectedMemos request details).map fun want => some want.value) ∧
        ∀ want ∈ expectedMemos request details, want.value.utf8ByteSize ≤ 566 := by
  unfold verifyMemoInstructions
  generalize expectedMemos request details = expected
  constructor
  · intro h
    rcases hloop : expected.foldlM (matchMemo instructions) [] with e | matched
    · rw [hloop] at h
      cases h
    rw [hloop] at h
    have hswept : ∀ i ix, instructions[i]? = some ix → IsMemo ix → i ∈ matched := by
      intro i ix hix hmemo
      by_contra hfree
      have hany : instructions.zipIdx.any (fun item => item.2 ∉ matched ∧ IsMemo item.1) = true :=
        List.any_eq_true.mpr ⟨(ix, i), List.mem_zipIdx_iff_getElem?.mpr hix,
          decide_eq_true ⟨hfree, hmemo⟩⟩
      have h : (if instructions.zipIdx.any (fun item => item.2 ∉ matched ∧ IsMemo item.1) = true
        then throw "unexpected Memo Program instruction in payment transaction"
        else pure ()) = (.ok () : Result Unit) := h
      rw [if_pos hany] at h
      cases h
    obtain ⟨picks, rfl, hnodup, hfits⟩ :=
      exists_of_foldlM (fun _ _ _ hround => (matchMemo_eq_ok hround).2) List.nodup_nil hloop
    rw [List.append_nil, List.nodup_reverse] at hnodup
    have hmatching : OneToOne _ IsMemo instructions expected picks :=
      ⟨hnodup, hfits, fun i ix hix hmemo => by simpa using hswept i ix hix hmemo⟩
    exact ⟨hmatching.perm fun want ix hsays => hsays, short_of_loop hloop⟩
  · rintro ⟨hperm, hshort⟩
    -- what each instruction is there for
    let parts : List (Option (Option String)) := instructions.map fun ix =>
      if IsMemo ix then some (parsedMemoText ix) else none
    have hcovers : List.Forall₂ (Covers Says IsMemo) parts instructions := by
      refine List.forall₂_map_left_iff.mpr (List.forall₂_same.mpr fun ix _ => ?_)
      by_cases hmemo : IsMemo ix
      · rw [if_pos hmemo]
        exact ⟨hmemo, rfl⟩
      · rw [if_neg hmemo]
        exact hmemo
    have htexts : parts.filterMap id = memoTexts instructions := by
      rw [memoTexts_eq, List.filterMap_map]
      rfl
    obtain ⟨picks, hmatching⟩ := oneToOne_of_parts hcovers (htexts ▸ hperm)
    have hfits := hmatching.fit
    rw [List.forall₂_map_left_iff] at hfits
    have hrounds : ∃ after, expected.foldlM (matchMemo instructions) [] = .ok after ∧
        after.Perm (picks ++ []) := by
      refine foldlM_of_forall₂ ?_ ?_ hmatching.nodup (fun i _ => List.not_mem_nil) ?_ hfits
      · rintro want - want' - ix ix' ⟨-, htext⟩ ⟨-, htext'⟩ ⟨hmemo, hother⟩
        exact ⟨hmemo, hother.trans (htext.symm.trans htext')⟩
      · intro want hwant matched hfree
        obtain ⟨after, hround⟩ := exists_matchMemo (hshort want hwant) hfree
        obtain ⟨-, i, rfl, hi, hat⟩ := matchMemo_eq_ok hround
        exact ⟨i, hi, hat, hround⟩
      · rintro want - i ⟨ix, hix, hmemo, -⟩ -
        exact hmatching.complete i ix hix hmemo
    obtain ⟨after, hloop, hafter⟩ := hrounds
    rw [hloop]
    have hswept : ¬ instructions.zipIdx.any (fun item => item.2 ∉ after ∧ IsMemo item.1) = true := by
      intro hany
      obtain ⟨item, hitem, htest⟩ := List.any_eq_true.mp hany
      obtain ⟨hfree, hmemo⟩ := of_decide_eq_true htest
      refine hfree (hafter.mem_iff.mpr ?_)
      rw [List.append_nil]
      exact hmatching.complete _ _ (List.mem_zipIdx_iff_getElem?.mp hitem) hmemo
    exact if_neg hswept

end Memos

/-! ## The verifier -/

/-- The program is one of the token programs. -/
def IsTokenProgram (programId : Option String) : Prop :=
  programId = some TOKEN_PROGRAM ∨ programId = some TOKEN_2022_PROGRAM

/-- When `verify_spl_transfers` succeeds. -/
theorem verifySplTransfers_iff {fetch : Option String → Option TokenAccount} {request : Request}
    {details : MethodDetails} {instructions : List Instruction} (hform : WellFormed instructions)
    (hpayable : request.Payable) :
    verifySplTransfers fetch instructions request details = .ok () ↔
      IsTokenProgram (tokenProgram request details) ∧ ∃ picks, picks.Nodup ∧
        List.Forall₂ (At (Pays fetch (tokenProgram request details)
          (resolveMint request.currency details.network)) instructions) request.demands picks := by
  obtain ⟨expected, hbuild, hdigits, hdemands⟩ := buildExpectedTransfers_eq hpayable
  rw [← hdemands, ← takeAll_iff hform hdigits, IsTokenProgram]
  simp only [verifySplTransfers, hbuild, Bind.bind, Except.bind]
  by_cases hprogram : tokenProgram request details ≠ some TOKEN_PROGRAM ∧
      tokenProgram request details ≠ some TOKEN_2022_PROGRAM
  · rw [if_pos hprogram]
    exact ⟨fun h => (nomatch h), fun ⟨h, _⟩ => absurd h (not_or.mpr hprogram)⟩
  · rw [if_neg hprogram]
    have hsupported : tokenProgram request details = some TOKEN_PROGRAM ∨
        tokenProgram request details = some TOKEN_2022_PROGRAM := by
      simpa only [ne_eq, not_and_or, not_not] using hprogram
    rw [and_iff_right hsupported]
    rcases takeAll (paysToken fetch (resolveMint request.currency details.network)) "token"
      (instructions.filter (IsTransfer (tokenProgram request details))) expected with e | rest
    · exact ⟨fun h => (nomatch h), fun ⟨_, h⟩ => (nomatch h)⟩
    · exact ⟨fun _ => ⟨rest, rfl⟩, fun _ => rfl⟩

/-- **Exactness of the token-payment verifier.**  A transaction that did not fail is accepted for
a token payment exactly when the token program is one of the two, every expected transfer has a
parsed transfer of its own, and the memos are the expected ones, none of them too long. -/
theorem verify_spl_iff (reference : String) (tx : Tx) (request : Request) (details : MethodDetails)
    (fetch : Option String → Option TokenAccount) (hconfirmed : tx.err = none)
    (htoken : ¬ isNativeSol request.currency) (hform : WellFormed (tx.instructions.getD []))
    (hpayable : request.Payable) :
    (∃ r, verifyConfirmedTransaction reference (some tx) request details ⟨some fetch⟩ = .ok r) ↔
      IsTokenProgram (tokenProgram request details) ∧
      (∃ picks, picks.Nodup ∧
        List.Forall₂ (At (Pays fetch (tokenProgram request details)
          (resolveMint request.currency details.network)) (tx.instructions.getD []))
            request.demands picks) ∧
      (memoTexts (tx.instructions.getD [])).Perm
        ((expectedMemos request details).map fun want => some want.value) ∧
      ∀ want ∈ expectedMemos request details, want.value.utf8ByteSize ≤ 566 := by
  have hnot : ¬ tx.err ≠ none := not_not.mpr hconfirmed
  rw [← and_assoc, ← verifySplTransfers_iff hform hpayable, ← verifyMemoInstructions_iff]
  simp only [verifyConfirmedTransaction, if_neg hnot, if_neg htoken, Bind.bind, Except.bind]
  rcases verifySplTransfers fetch (tx.instructions.getD []) request details with e | _
  · exact ⟨fun ⟨_, h⟩ => (nomatch h), fun ⟨h, _⟩ => (nomatch h)⟩
  · rcases verifyMemoInstructions (tx.instructions.getD []) request details with e | _
    · exact ⟨fun ⟨_, h⟩ => (nomatch h), fun ⟨_, h⟩ => (nomatch h)⟩
    · exact ⟨fun _ => ⟨rfl, rfl⟩, fun _ => ⟨reference, rfl⟩⟩

/-! ## A sample -/

/-- A charge of 1000 with a split of 200 and a memo. -/
def sampleRequest : Request where
  amount := "1000"
  currency := "mint-1"
  recipient := "seller"
  methodDetails := some {
    splits := some [{ recipient := "seller", amount := "0200", memo := "fee" }] }

/-- A parsed transfer under a program. -/
def sampleTransfer (programId amount : String) : Instruction where
  programId := programId
  parsed := some (.table "transferChecked"
    (some { destination := "seller-tokens", mint := "mint-1", tokenAmount := amount }))

/-- The two transfers of the sample, the split first, and its memo. -/
def sampleTx (programId : String) : Tx where
  instructions := some [sampleTransfer programId "200", sampleTransfer programId "00800",
    { program := "spl-memo", parsed := some (.text "fee") }]

/-- The one token account of the sample. -/
def sampleAccounts (address : Option String) : Option TokenAccount :=
  if address = some "seller-tokens" then some { owner := "seller", mint := "mint-1" } else none

theorem sample_payable : sampleRequest.Payable where
  amount := by decide
  splits := by decide
  rest := by decide

/-- The amounts of the sample, and a carry through leading zeros. -/
theorem sample_amounts_exact :
    Uint.add "0999" "01" = .ok (toString (amountOf "0999" + amountOf "01")) ∧
    Uint.compare "0999" "01" = .ok (if amountOf "0999" < amountOf "01" then -1
      else if amountOf "01" < amountOf "0999" then 1 else 0) ∧
    Uint.sub "0999" "01" = (if amountOf "01" ≤ amountOf "0999" then
        .ok (toString (amountOf "0999" - amountOf "01"))
      else .error "unsigned subtraction underflow") ∧
    ((∃ expected, buildExpectedTransfers sampleRequest = .ok expected) ↔ sampleRequest.Payable) ∧
    ∀ expected, buildExpectedTransfers sampleRequest = .ok expected →
      (∀ want ∈ expected, allDigits want.amount.toList) ∧
      (expected.map fun want => amountOf want.amount).sum = amountOf sampleRequest.amount ∧
      ∃ primary : Nat, 0 < primary ∧
        expected = ⟨sampleRequest.recipient, toString primary⟩ ::
          sampleRequest.splits.map fun split => ⟨split.recipient, split.amount⟩ :=
  amounts_exact "0999" "01" rfl rfl sampleRequest

theorem sample_wellFormed (programId : String) :
    WellFormed ((sampleTx programId).instructions.getD []) := by
  intro ix hix htype info hinfo
  simp only [sampleTx, Option.getD_some, List.mem_cons, List.not_mem_nil, or_false] at hix
  rcases hix with rfl | rfl | rfl
  · obtain rfl := Option.some.inj hinfo
    exact ⟨_, rfl, by decide⟩
  · obtain rfl := Option.some.inj hinfo
    exact ⟨_, rfl, by decide⟩
  · cases hinfo

theorem sample_exact :
    (∃ r, verifyConfirmedTransaction "signature" (some (sampleTx TOKEN_PROGRAM)) sampleRequest {}
      ⟨some sampleAccounts⟩ = .ok r) ↔
      IsTokenProgram (tokenProgram sampleRequest {}) ∧
      (∃ picks, picks.Nodup ∧
        List.Forall₂ (At (Pays sampleAccounts (tokenProgram sampleRequest {})
          (resolveMint sampleRequest.currency none))
            ((sampleTx TOKEN_PROGRAM).instructions.getD [])) sampleRequest.demands picks) ∧
      (memoTexts ((sampleTx TOKEN_PROGRAM).instructions.getD [])).Perm
        ((expectedMemos sampleRequest {}).map fun want => some want.value) ∧
      ∀ want ∈ expectedMemos sampleRequest {}, want.value.utf8ByteSize ≤ 566 :=
  verify_spl_iff "signature" (sampleTx TOKEN_PROGRAM) sampleRequest {} sampleAccounts rfl
    (by decide +kernel) (sample_wellFormed TOKEN_PROGRAM) sample_payable

/-- The transfers of the sample under another program. -/
theorem other_pays (demand : String × Nat) (amount : String)
    (hdemand : demand = ("seller", amountOf amount)) :
    Pays sampleAccounts (some "Other") (some "mint-1") demand (sampleTransfer "Other" amount) := by
  subst hdemand
  exact ⟨⟨rfl, rfl⟩, _, amount, _, rfl, rfl, rfl, rfl, rfl, rfl, rfl⟩

/-- A token program other than the two is refused, although every transfer is there. -/
theorem other_program_refused :
    ¬ ((∃ r, verifyConfirmedTransaction "signature" (some (sampleTx "Other")) sampleRequest
        { tokenProgram := some "Other" } ⟨some sampleAccounts⟩ = .ok r) ↔
      (∃ picks, picks.Nodup ∧
        List.Forall₂ (At (Pays sampleAccounts
          (tokenProgram sampleRequest { tokenProgram := some "Other" })
          (resolveMint sampleRequest.currency none)) ((sampleTx "Other").instructions.getD []))
            sampleRequest.demands picks) ∧
      (memoTexts ((sampleTx "Other").instructions.getD [])).Perm
        ((expectedMemos sampleRequest { tokenProgram := some "Other" }).map
          fun want => some want.value) ∧
      ∀ want ∈ expectedMemos sampleRequest { tokenProgram := some "Other" },
        want.value.utf8ByteSize ≤ 566) := by
  intro h
  have hrefused : ¬ ∃ r, verifyConfirmedTransaction "signature" (some (sampleTx "Other"))
      sampleRequest { tokenProgram := some "Other" } ⟨some sampleAccounts⟩ = .ok r := by
    rintro ⟨r, hr⟩
    have herror : verifyConfirmedTransaction "signature" (some (sampleTx "Other")) sampleRequest
        { tokenProgram := some "Other" } ⟨some sampleAccounts⟩ =
          .error "unsupported token program: Other" := by decide +kernel
    exact nomatch herror.symm.trans hr
  refine hrefused (h.mpr ⟨⟨[1, 0], by decide, ?_⟩, ?_, ?_⟩)
  · have hdemands : sampleRequest.demands = [("seller", 800), ("seller", 200)] := by
      decide +kernel
    have hmint : resolveMint sampleRequest.currency none = some "mint-1" := by decide +kernel
    rw [hdemands, hmint]
    refine List.Forall₂.cons ⟨_, rfl, other_pays _ "00800" ?_⟩
      (List.Forall₂.cons ⟨_, rfl, other_pays _ "200" ?_⟩ List.Forall₂.nil)
    · decide +kernel
    · decide +kernel
  · have hsame : memoTexts ((sampleTx "Other").instructions.getD []) =
        (expectedMemos sampleRequest { tokenProgram := some "Other" }).map
          fun want => some want.value := by decide +kernel
    rw [hsame]
  · decide +kernel

end Verify
end Lua
end MppSdk
