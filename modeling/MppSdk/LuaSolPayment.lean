import MppSdk.LuaExactPayment

/-! # What an accepted transaction has paid

Whatever the node says of a transaction, one that `verify_confirmed_transaction` accepts did
not fail, every demand of the request has a parsed transfer of its own, and the memos are the
expected ones (`paid_of_verify`).  Where the parsed SOL transfers carry their lamports as
digits, these are exactly the transactions that are accepted for a SOL payment
(`verify_sol_iff`). -/

namespace MppSdk
namespace Lua
namespace Verify
open Matching

/-- A parsed SOL transfer. -/
def IsSolTransfer (ix : Instruction) : Prop :=
  normalizeProgram ix = "system" ∧ parsedType ix = some "transfer"

instance (ix : Instruction) : Decidable (IsSolTransfer ix) := inferInstanceAs (Decidable (_ ∧ _))

/-- The parsed SOL transfers carry their lamports as digits. -/
def SolWellFormed (instructions : List Instruction) : Prop :=
  ∀ ix ∈ instructions, IsSolTransfer ix → ∀ info, instructionInfo ix = some info →
    ∃ lamports, info.lamports = some lamports ∧ allDigits lamports.toList

/-- The instruction transfers lamports to the recipient. -/
def PaysSol (demand : String × Nat) (ix : Instruction) : Prop :=
  IsSolTransfer ix ∧ ∃ info lamports, instructionInfo ix = some info ∧
    info.destination = some demand.1 ∧ info.lamports = some lamports ∧
    amountOf lamports = demand.2

/-- The instruction pays the demand in the currency of the request. -/
def Request.PaidBy (request : Request) (details : MethodDetails) (hooks : Hooks)
    (demand : String × Nat) (ix : Instruction) : Prop :=
  if isNativeSol request.currency then PaysSol demand ix
  else IsTokenProgram (tokenProgram request details) ∧
    ∃ fetch, hooks.fetchTokenAccount = some fetch ∧
      Pays fetch (tokenProgram request details) (resolveMint request.currency details.network)
        demand ix

/-- The transaction pays the request: it did not fail, and every demand has an instruction of
its own, and the memos are the expected ones, none of them too long. -/
structure Tx.Pays (tx : Tx) (request : Request) (details : MethodDetails) (hooks : Hooks) :
    Prop where
  confirmed : tx.err = none
  payable : request.Payable
  paid : ∃ picks, picks.Nodup ∧
    List.Forall₂ (At (request.PaidBy details hooks) (tx.instructions.getD [])) request.demands
      picks
  memos : (memoTexts (tx.instructions.getD [])).Perm
    ((expectedMemos request details).map fun want => some want.value)
  short : ∀ want ∈ expectedMemos request details, want.value.utf8ByteSize ≤ 566

/-! ## What the rounds take -/

/-- A round removes a transfer that its test accepts. -/
theorem removeFirst_eq_some {accepts : Instruction → Result Bool} :
    ∀ {transfers rest : List Instruction}, removeFirst accepts transfers = .ok (some rest) →
      ∃ ix, accepts ix = .ok true ∧ transfers.Perm (ix :: rest) := by
  intro transfers
  induction transfers with
  | nil =>
    intro rest h
    cases h
  | cons ix transfers ih =>
    intro rest h
    obtain ⟨b, haccepts, h⟩ := Uint.of_bind_eq_ok h
    cases b with
    | true =>
      obtain rfl := Option.some.inj (Except.ok.inj h)
      exact ⟨ix, haccepts, List.Perm.refl _⟩
    | false =>
      obtain ⟨found, hloop, h⟩ := Uint.of_bind_eq_ok h
      cases found with
      | none => cases h
      | some rest' =>
        obtain rfl := Option.some.inj (Except.ok.inj h)
        obtain ⟨ix', haccepts', hperm⟩ := ih hloop
        exact ⟨ix', haccepts', (hperm.cons ix).trans (List.Perm.swap ix' ix rest')⟩

/-- Rounds that succeed have taken a transfer for each expected one, none of them twice. -/
theorem taken_of_takeAll {accepts : Expected → Instruction → Result Bool} {kind : String} :
    ∀ {expected : List Expected} {transfers rest : List Instruction},
      takeAll accepts kind transfers expected = .ok rest →
      ∃ chosen, (chosen ++ rest).Perm transfers ∧
        List.Forall₂ (fun want ix => accepts want ix = .ok true ∧ ix ∈ transfers) expected
          chosen := by
  intro expected
  induction expected with
  | nil =>
    intro transfers rest h
    obtain rfl := Except.ok.inj h
    exact ⟨[], List.Perm.refl _, List.Forall₂.nil⟩
  | cons want expected ih =>
    intro transfers rest h
    rw [takeAll, List.foldlM_cons] at h
    obtain ⟨left, hround, h⟩ := Uint.of_bind_eq_ok h
    obtain ⟨found, hremove, hround⟩ := Uint.of_bind_eq_ok hround
    cases found with
    | none => cases hround
    | some left' =>
      obtain rfl := Except.ok.inj hround
      obtain ⟨ix, haccepts, hperm⟩ := removeFirst_eq_some hremove
      obtain ⟨chosen, hchosen, hfits⟩ := ih h
      have hkept : ∀ ix' ∈ ix :: left', ix' ∈ transfers := hperm.symm.subset
      refine ⟨ix :: chosen, (hchosen.cons ix).trans hperm.symm, List.Forall₂.cons ?_ ?_⟩
      · exact ⟨haccepts, hkept ix List.mem_cons_self⟩
      · exact hfits.imp fun want ix' h => ⟨h.1, hkept ix' (List.mem_cons_of_mem ix h.2)⟩

/-- Equal numbers compare as zero, and only those. -/
theorem amountOf_eq_of_compare {left right : String} (h : Uint.compare left right = .ok 0) :
    amountOf left = amountOf right := by
  obtain ⟨hleft, hright⟩ := Uint.allDigits_of_compare h
  rw [Uint.compare_eq hleft hright] at h
  have h := Except.ok.inj h
  by_cases hlt : amountOf left < amountOf right
  · rw [if_pos hlt] at h
    cases h
  by_cases hgt : amountOf right < amountOf left
  · rw [if_neg hlt, if_pos hgt] at h
    cases h
  exact Nat.le_antisymm (Nat.not_lt.mp hgt) (Nat.not_lt.mp hlt)

/-- A SOL transfer that the test accepts pays the demand. -/
theorem paysSol_sound {want : Expected} {ix : Instruction} (hix : IsSolTransfer ix)
    (h : paysSol want ix = .ok true) : PaysSol want.demand ix := by
  unfold paysSol at h
  rcases hinfo : instructionInfo ix with _ | info
  · rw [hinfo] at h
    cases h
  simp only [hinfo] at h
  split at h
  · next hdestination =>
    obtain ⟨order, hcompare, h⟩ := Uint.of_bind_eq_ok h
    obtain rfl : order = 0 := of_decide_eq_true (Except.ok.inj h)
    have hdigits := (Uint.allDigits_of_compare hcompare).1
    rcases hlamports : info.lamports with _ | lamports
    · rw [hlamports] at hdigits
      cases hdigits
    · rw [hlamports] at hcompare
      exact ⟨hix, info, lamports, hinfo, hdestination, hlamports,
        amountOf_eq_of_compare hcompare⟩
  · cases h

/-- A token transfer that the test accepts pays the demand. -/
theorem paysToken_sound {fetch : Option String → Option TokenAccount}
    {programId mint : Option String} {want : Expected} {ix : Instruction}
    (hix : IsTransfer programId ix) (h : paysToken fetch mint want ix = .ok true) :
    Pays fetch programId mint want.demand ix := by
  unfold paysToken at h
  rcases hinfo : instructionInfo ix with _ | info
  · rw [hinfo] at h
    cases h
  simp only [hinfo] at h
  split at h
  · next hmint =>
    rcases hamount : info.tokenAmount with _ | amount
    · rw [hamount] at h
      cases h
    rw [hamount] at h
    obtain ⟨order, hcompare, h⟩ := Uint.of_bind_eq_ok h
    split at h
    · next horder =>
      subst horder
      rcases haccount : fetch info.destination with _ | account
      · rw [haccount] at h
        cases h
      rw [haccount] at h
      have howns : account.owner = some want.recipient ∧ account.mint = mint :=
        of_decide_eq_true (Except.ok.inj h)
      exact ⟨hix, info, amount, account, hinfo, hmint, hamount, amountOf_eq_of_compare hcompare,
        haccount, howns⟩
    · cases h
  · cases h

/-- Transfers that are taken among the instructions of a kind pay the demands. -/
theorem picks_of_takeAll {accepts : Expected → Instruction → Result Bool} {kind : String}
    {P : String × Nat → Instruction → Prop} {keep : Instruction → Bool}
    {instructions rest : List Instruction} {expected : List Expected}
    (hsound : ∀ want ix, keep ix = true → accepts want ix = .ok true → P want.demand ix)
    (h : takeAll accepts kind (instructions.filter keep) expected = .ok rest) :
    ∃ picks, picks.Nodup ∧
      List.Forall₂ (At P instructions) (expected.map Expected.demand) picks := by
  obtain ⟨chosen, hchosen, hfits⟩ := taken_of_takeAll h
  have hpart : chosen.Subperm (instructions.filter keep) :=
    (List.sublist_append_left chosen rest).subperm.trans hchosen.subperm
  refine exists_picks (hpart.trans List.filter_sublist.subperm)
    (List.forall₂_map_left_iff.mpr ?_)
  exact hfits.imp fun want ix h => hsound want ix (List.mem_filter.mp h.2).2 h.1

/-! ## The verifier -/

theorem Request.paidBy_sol {request : Request} (hsol : isNativeSol request.currency)
    (details : MethodDetails) (hooks : Hooks) : request.PaidBy details hooks = PaysSol :=
  funext fun _ => funext fun _ => if_pos hsol

theorem verifySolTransfers_sound {instructions : List Instruction} {request : Request}
    (h : verifySolTransfers instructions request = .ok ()) : request.Payable ∧
      ∃ picks, picks.Nodup ∧ List.Forall₂ (At PaysSol instructions) request.demands picks := by
  obtain ⟨expected, hbuild, h⟩ := Uint.of_bind_eq_ok h
  obtain ⟨rest, htake, -⟩ := Uint.of_bind_eq_ok h
  have hpayable := payable_of_buildExpectedTransfers hbuild
  obtain ⟨expected', hexpected, -, hdemands⟩ := buildExpectedTransfers_eq hpayable
  obtain rfl := Except.ok.inj (hbuild.symm.trans hexpected)
  rw [← hdemands]
  exact ⟨hpayable, picks_of_takeAll
    (fun want ix hix haccepts => paysSol_sound (of_decide_eq_true hix) haccepts) htake⟩

theorem verifySplTransfers_sound {fetch : Option String → Option TokenAccount}
    {instructions : List Instruction} {request : Request} {details : MethodDetails}
    (h : verifySplTransfers fetch instructions request details = .ok ()) :
    request.Payable ∧ IsTokenProgram (tokenProgram request details) ∧
      ∃ picks, picks.Nodup ∧
        List.Forall₂ (At (Pays fetch (tokenProgram request details)
          (resolveMint request.currency details.network)) instructions) request.demands picks := by
  obtain ⟨expected, hbuild, h⟩ := Uint.of_bind_eq_ok h
  have hpayable := payable_of_buildExpectedTransfers hbuild
  obtain ⟨expected', hexpected, -, hdemands⟩ := buildExpectedTransfers_eq hpayable
  obtain rfl := Except.ok.inj (hbuild.symm.trans hexpected)
  rw [← hdemands]
  by_cases hprogram : tokenProgram request details ≠ some TOKEN_PROGRAM ∧
      tokenProgram request details ≠ some TOKEN_2022_PROGRAM
  · simp only [if_pos hprogram] at h
    cases h
  · simp only [if_neg hprogram] at h
    obtain ⟨rest, htake, -⟩ := Uint.of_bind_eq_ok h
    refine ⟨hpayable, ?_, picks_of_takeAll
      (fun want ix hix haccepts => paysToken_sound (of_decide_eq_true hix) haccepts) htake⟩
    simpa only [IsTokenProgram, ne_eq, not_and_or, not_not] using hprogram

/-- **What an accepted transaction has paid.** -/
theorem paid_of_verify {reference r : String} {tx : Option Tx} {request : Request}
    {details : MethodDetails} {hooks : Hooks}
    (h : verifyConfirmedTransaction reference tx request details hooks = .ok r) :
    r = reference ∧ ∃ tx', tx = some tx' ∧ tx'.Pays request details hooks := by
  cases tx with
  | none => cases h
  | some tx =>
    have hconfirmed : tx.err = none := by
      by_contra hfailed
      simp only [verifyConfirmedTransaction, if_pos hfailed] at h
      cases h
    have hnot : ¬ tx.err ≠ none := not_not.mpr hconfirmed
    simp only [verifyConfirmedTransaction, if_neg hnot] at h
    by_cases hsol : isNativeSol request.currency
    · rw [if_pos hsol] at h
      obtain ⟨_, htransfers, h⟩ := Uint.of_bind_eq_ok h
      obtain ⟨_, hmemos, h⟩ := Uint.of_bind_eq_ok h
      obtain ⟨hpayable, hpicks⟩ := verifySolTransfers_sound htransfers
      obtain ⟨hperm, hshort⟩ := verifyMemoInstructions_iff.mp hmemos
      refine ⟨(Except.ok.inj h).symm, tx, rfl, hconfirmed, hpayable, ?_, hperm, hshort⟩
      rw [Request.paidBy_sol hsol]
      exact hpicks
    · rw [if_neg hsol] at h
      rcases hfetch : hooks.fetchTokenAccount with _ | fetch
      · rw [hfetch] at h
        cases h
      rw [hfetch] at h
      obtain ⟨_, htransfers, h⟩ := Uint.of_bind_eq_ok h
      obtain ⟨_, hmemos, h⟩ := Uint.of_bind_eq_ok h
      obtain ⟨hpayable, hprogram, picks, hnodup, hpicks⟩ := verifySplTransfers_sound htransfers
      obtain ⟨hperm, hshort⟩ := verifyMemoInstructions_iff.mp hmemos
      refine ⟨(Except.ok.inj h).symm, tx, rfl, hconfirmed, hpayable, ⟨picks, hnodup, ?_⟩, hperm,
        hshort⟩
      refine hpicks.imp fun demand i hat => ?_
      obtain ⟨ix, hix, hpays⟩ := hat
      exact ⟨ix, hix, (if_neg hsol).mpr ⟨hprogram, fetch, hfetch, hpays⟩⟩

/-! ## SOL payments -/

/-- A transfer pays one recipient one amount. -/
theorem PaysSol.unique {demand demand' : String × Nat} {ix : Instruction} (h : PaysSol demand ix)
    (h' : PaysSol demand' ix) : demand = demand' := by
  obtain ⟨-, info, lamports, hinfo, hdestination, hlamports, hvalue⟩ := h
  obtain ⟨-, info', lamports', hinfo', hdestination', hlamports', hvalue'⟩ := h'
  obtain rfl := Option.some.inj (hinfo.symm.trans hinfo')
  obtain rfl := Option.some.inj (hlamports.symm.trans hlamports')
  exact Prod.ext (Option.some.inj (hdestination.symm.trans hdestination'))
    (hvalue.symm.trans hvalue')

/-- The test of a round is whether the transfer pays. -/
theorem paysSol_answers {want : Expected} {ix : Instruction} (hwant : allDigits want.amount.toList)
    (hix : IsSolTransfer ix) (hform : ∀ info, instructionInfo ix = some info →
      ∃ lamports, info.lamports = some lamports ∧ allDigits lamports.toList) :
    Answers (paysSol want) (PaysSol want.demand) ix := by
  have hanswer : ∃ b, paysSol want ix = .ok b ∧ (PaysSol want.demand ix → b = true) := by
    -- the comparison of the amounts raises unless both are digits
    unfold paysSol
    rcases hinfo : instructionInfo ix with _ | info
    · refine ⟨false, rfl, ?_⟩
      rintro ⟨-, info, -, h, -⟩
      cases hinfo.symm.trans h
    obtain ⟨lamports, hlamports, hdigits⟩ := hform info hinfo
    by_cases hdestination : info.destination = some want.recipient
    · simp only [if_pos hdestination, hlamports, Option.getD_some, Uint.compare_eq hdigits hwant]
      refine ⟨_, rfl, ?_⟩
      rintro ⟨-, info', lamports', hinfo', -, hlamports', hvalue⟩
      obtain rfl := Option.some.inj (hinfo.symm.trans hinfo')
      obtain rfl := Option.some.inj (hlamports.symm.trans hlamports')
      have hvalue : amountOf lamports = amountOf want.amount := hvalue
      simp [hvalue]
    · simp only [if_neg hdestination]
      refine ⟨false, rfl, ?_⟩
      rintro ⟨-, info', -, hinfo', hdestination', -⟩
      obtain rfl := Option.some.inj (hinfo.symm.trans hinfo')
      exact absurd hdestination' hdestination
  obtain ⟨b, hb, hcomplete⟩ := hanswer
  refine ⟨b, hb, fun htrue => ?_, hcomplete⟩
  subst htrue
  exact paysSol_sound hix hb

/-- **Exactness of the SOL-payment verifier.**  Where the parsed SOL transfers carry digits, a
transaction is accepted for a SOL payment exactly when it pays the request. -/
theorem verify_sol_iff (reference : String) (tx : Tx) (request : Request) (details : MethodDetails)
    (hooks : Hooks) (hsol : isNativeSol request.currency)
    (hform : SolWellFormed (tx.instructions.getD [])) :
    (∃ r, verifyConfirmedTransaction reference (some tx) request details hooks = .ok r) ↔
      tx.Pays request details hooks := by
  constructor
  · rintro ⟨r, h⟩
    obtain ⟨-, tx', htx, hpays⟩ := paid_of_verify h
    obtain rfl := Option.some.inj htx
    exact hpays
  · intro h
    have hnot : ¬ tx.err ≠ none := not_not.mpr h.confirmed
    obtain ⟨expected, hbuild, hdigits, hdemands⟩ := buildExpectedTransfers_eq h.payable
    have hpicks := h.paid
    rw [Request.paidBy_sol hsol, ← hdemands] at hpicks
    -- no transfer fits two different demands, so that a greedy choice is as good as any
    have htake : ∃ rest, takeAll paysSol "SOL" ((tx.instructions.getD []).filter fun ix =>
        normalizeProgram ix = "system" ∧ parsedType ix = some "transfer") expected = .ok rest := by
      refine (takeAll_iff_of (fun want hwant ix hix => ?_) (fun demand ix hpays => ?_)
        fun demand demand' ix h h' => h.unique h').mpr hpicks
      · obtain ⟨hmem, htransfer⟩ := List.mem_filter.mp hix
        have htransfer : IsSolTransfer ix := of_decide_eq_true htransfer
        exact paysSol_answers (hdigits want hwant) htransfer (hform ix hmem htransfer)
      · exact decide_eq_true hpays.1
    obtain ⟨rest, htake⟩ := htake
    have htransfers : verifySolTransfers (tx.instructions.getD []) request = .ok () := by
      simp only [verifySolTransfers, hbuild, htake, Bind.bind, Except.bind]
      rfl
    have hmemos := verifyMemoInstructions_iff.mpr ⟨h.memos, h.short⟩
    refine ⟨reference, ?_⟩
    simp only [verifyConfirmedTransaction, if_neg hnot, if_pos hsol, htransfers, hmemos, Bind.bind,
      Except.bind]
    rfl

/-- A SOL charge of 1000 with a split of 200. -/
def solRequest : Request where
  amount := "1000"
  currency := "SOL"
  recipient := "seller"
  methodDetails := some { splits := some [{ recipient := "fees", amount := "200" }] }

/-- A parsed SOL transfer. -/
def solTransfer (destination lamports : String) : Instruction where
  program := "system"
  parsed := some (.table "transfer" (some { destination := destination, lamports := lamports }))

/-- The two transfers, the split first. -/
def solTx : Tx where
  instructions := some [solTransfer "fees" "0200", solTransfer "seller" "800"]

theorem solTx_wellFormed : SolWellFormed (solTx.instructions.getD []) := by
  intro ix hix htype info hinfo
  simp only [solTx, Option.getD_some, List.mem_cons, List.not_mem_nil, or_false] at hix
  rcases hix with rfl | rfl
  · obtain rfl := Option.some.inj hinfo
    exact ⟨_, rfl, by decide⟩
  · obtain rfl := Option.some.inj hinfo
    exact ⟨_, rfl, by decide⟩

theorem solTx_exact :
    (∃ r, verifyConfirmedTransaction "signature" (some solTx) solRequest {} ⟨none⟩ = .ok r) ↔
      solTx.Pays solRequest {} ⟨none⟩ :=
  verify_sol_iff "signature" solTx solRequest {} ⟨none⟩ (by decide +kernel) solTx_wellFormed

example : verifyConfirmedTransaction "signature" (some solTx) solRequest {} ⟨none⟩ =
    .ok "signature" := by decide +kernel

end Verify
end Lua
end MppSdk
