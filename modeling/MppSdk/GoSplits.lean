import MppSdk.GoFeePayer
import MppSdk.ParseExact

/-! # Splits of a charge in Go

`SplitAmounts` scans the amount of each split with `Sscanf("%d")`, which skips blanks in front
and stops after the digits, and adds the amounts as `uint64`.  So it returns what is left of
the total exactly when the amounts are plain and their sum does not wrap, or when it refuses
(`splitsExactly_iff`). -/

namespace MppSdk
namespace Go

/-- A plain decimal `uint64`. -/
def IsUint64 (s : String) : Prop :=
  s.toList ≠ [] ∧ Decimal.Digits s.toList ∧ Decimal.value s.toList < 2 ^ 64

/-- The sum of the amounts, over unbounded integers. -/
def splitsSum (splits : List Split) : Nat :=
  (splits.map fun split => Decimal.value split.amount.toList).sum

/-- `SplitAmounts` returns the total less the sum if there are at most eight splits, their
amounts are plain and their sum is less than the total, and nothing else. -/
def SplitsExactly (libraries : Libraries) (total : UInt64) (splits : List Split) : Prop :=
  ∀ primary, splitAmounts libraries total splits = .ok primary ↔
    splits.length ≤ 8 ∧ (∀ split ∈ splits, IsUint64 split.amount) ∧
      splitsSum splits < total.toNat ∧ primary.toNat = total.toNat - splitsSum splits

/-- Each amount is scanned. -/
def Scans (splits : List Split) : Prop := ∀ split ∈ splits, (sscanUint64 split.amount).isSome

/-- The sum of the scanned amounts, as the code adds them. -/
def scannedTotal (splits : List Split) : UInt64 :=
  (splits.filterMap fun split => sscanUint64 split.amount).sum

theorem scannedTotal_cons {split : Split} {splits : List Split} {amount : UInt64}
    (hscan : sscanUint64 split.amount = some amount) :
    scannedTotal (split :: splits) = amount + scannedTotal splits := by
  simp [scannedTotal, hscan]

/-- What is scanned is added up. -/
theorem foldlM_scanned {libraries : Libraries} {splits : List Split} {start after : UInt64} :
    splits.foldlM (fun splitTotal split => do
      let amount ← okOrElse (sscanUint64 split.amount)
        (GoError.mk none ("invalid split amount " ++ libraries.quote split.amount))
      return splitTotal + amount) start = (.ok after : Result UInt64) ↔
    Scans splits ∧ after = start + scannedTotal splits := by
  induction splits generalizing start with
  | nil =>
    constructor
    · intro h
      obtain rfl := Except.ok.inj h
      exact ⟨fun _ h => (nomatch h), (UInt64.add_zero start).symm⟩
    · rintro ⟨-, rfl⟩
      exact congrArg Except.ok (UInt64.add_zero start).symm
  | cons split splits ih =>
    rw [List.foldlM_cons]
    simp only [bind_eq_ok, okOrElse_eq_ok, ih, Scans, List.forall_mem_cons]
    constructor
    · rintro ⟨next, ⟨amount, hscan, hnext⟩, hscans, rfl⟩
      obtain rfl := Except.ok.inj hnext
      refine ⟨⟨by rw [hscan]; rfl, hscans⟩, ?_⟩
      rw [scannedTotal_cons hscan, UInt64.add_assoc]
    · rintro ⟨⟨hsome, hscans⟩, rfl⟩
      obtain ⟨amount, hscan⟩ := Option.isSome_iff_exists.mp hsome
      refine ⟨start + amount, ⟨amount, hscan, rfl⟩, hscans, ?_⟩
      rw [scannedTotal_cons hscan, UInt64.add_assoc]

/-- When `SplitAmounts` succeeds. -/
theorem splitAmounts_eq_ok {libraries : Libraries} {total primary : UInt64} {splits : List Split} :
    splitAmounts libraries total splits = .ok primary ↔ splits.length ≤ 8 ∧ Scans splits ∧
      scannedTotal splits < total ∧ primary = total - scannedTotal splits := by
  simp only [splitAmounts, bind_eq_ok, rejectIf_eq_ok, foldlM_scanned]
  constructor
  · rintro ⟨-, hfew, splitTotal, ⟨hscans, rfl⟩, -, hless, hprimary⟩
    rw [UInt64.zero_add] at hless hprimary
    exact ⟨Nat.not_lt.mp hfew, hscans, UInt64.not_le.mp hless, (Except.ok.inj hprimary).symm⟩
  · rintro ⟨hfew, hscans, hless, rfl⟩
    refine ⟨(), Nat.not_lt.mpr hfew, scannedTotal splits, ⟨hscans, (UInt64.zero_add _).symm⟩, (),
      UInt64.not_le.mpr hless, rfl⟩

/-- A plain amount is scanned as its value. -/
theorem sscan_of_isUint64 {s : String} (h : IsUint64 s) :
    sscanUint64 s = some (UInt64.ofNat (Decimal.value s.toList)) := by
  obtain ⟨hne, hdigits, hlt⟩ := h
  have hskip : skipSpace s.toList = some s.toList := by
    obtain ⟨c, cs, hcs⟩ := List.exists_cons_of_ne_nil hne
    have hc : c.isDigit := hdigits c (hcs ▸ List.mem_cons_self)
    have hline : c ≠ '\n' := by
      rintro rfl
      cases hc
    have hreturn : c ≠ '\r' := by
      rintro rfl
      cases hc
    rw [hcs, skipSpace, if_neg hline, if_neg fun h => hreturn h.1, (Numeral.isSpace_digit hc).1]
    rfl
  unfold sscanUint64
  rw [hskip]
  simp only [Option.bind_eq_bind, Option.bind_some]
  rw [List.takeWhile_eq_self_iff.mpr hdigits, if_neg hne, Numeral.digitsValue_eq hdigits,
    Option.bind_some, if_pos hlt]

/-- On plain amounts the scanner and `ParseAmount` agree. -/
theorem parseAmount_of_isUint64 {s : String} (h : IsUint64 s) :
    parseAmount s = .ok (UInt64.ofNat (Decimal.value s.toList)) := by
  obtain ⟨hne, hdigits, hlt⟩ := h
  rw [parseAmount, okOrElse_eq_ok]
  split
  · next ds hs => exact absurd (hdigits '-' (hs ▸ List.mem_cons_self)) (by decide)
  · next ds hs => exact absurd (hdigits '+' (hs ▸ List.mem_cons_self)) (by decide)
  · rw [if_neg hne, Numeral.digitsValue_eq hdigits, Option.filter_some, if_pos (decide_eq_true hlt)]
    rfl

/-- The scanned sum of plain amounts. -/
theorem scannedTotal_of_plain {splits : List Split} (h : ∀ split ∈ splits, IsUint64 split.amount) :
    Scans splits ∧ (scannedTotal splits).toNat = splitsSum splits % 2 ^ 64 := by
  induction splits with
  | nil => exact ⟨fun _ h => (nomatch h), rfl⟩
  | cons split splits ih =>
    obtain ⟨hplain, hsplits⟩ := List.forall_mem_cons.mp h
    obtain ⟨hscans, hsum⟩ := ih hsplits
    have hscan := sscan_of_isUint64 hplain
    refine ⟨List.forall_mem_cons.mpr ⟨by rw [hscan]; rfl, hscans⟩, ?_⟩
    rw [scannedTotal_cons hscan, UInt64.toNat_add, UInt64.toNat_ofNat', hsum, splitsSum, splitsSum, List.map_cons,
      List.sum_cons]
    omega

/-- **Exact condition for `SplitAmounts`**: it refuses, or the amounts are plain and their sum
is a `uint64`. -/
theorem splitsExactly_iff (libraries : Libraries) (total : UInt64) (splits : List Split) :
    SplitsExactly libraries total splits ↔
      (8 < splits.length ∨ ¬ Scans splits ∨ total ≤ scannedTotal splits) ∨
        (∀ split ∈ splits, IsUint64 split.amount) ∧ splitsSum splits < 2 ^ 64 := by
  have htotal : total.toNat < 2 ^ 64 := total.toNat_lt
  unfold SplitsExactly
  simp only [splitAmounts_eq_ok]
  constructor
  · intro h
    by_cases haccepts : splits.length ≤ 8 ∧ Scans splits ∧ scannedTotal splits < total
    · obtain ⟨-, hplain, hless, -⟩ :=
        (h _).mp ⟨haccepts.1, haccepts.2.1, haccepts.2.2, rfl⟩
      exact Or.inr ⟨hplain, by omega⟩
    · refine Or.inl ?_
      by_contra hnot
      obtain ⟨hfew, hscans, hless⟩ := not_or.mp hnot |>.imp_right not_or.mp
      exact haccepts ⟨Nat.not_lt.mp hfew, not_not.mp hscans, UInt64.not_le.mp hless⟩
  · rintro (hrefuses | ⟨hplain, hsum⟩) primary
    · constructor
      · rintro ⟨hfew, hscans, hless, -⟩
        rcases hrefuses with h | h | h
        · omega
        · exact absurd hscans h
        · exact absurd hless (UInt64.not_lt.mpr h)
      · rintro ⟨hfew, hplain, hless, -⟩
        obtain ⟨hscans, hsum⟩ := scannedTotal_of_plain hplain
        rw [Nat.mod_eq_of_lt (by omega)] at hsum
        rcases hrefuses with h | h | h
        · omega
        · exact absurd hscans h
        · rw [UInt64.le_iff_toNat_le] at h
          omega
    · obtain ⟨hscans, hscanned⟩ := scannedTotal_of_plain hplain
      rw [Nat.mod_eq_of_lt hsum] at hscanned
      rw [UInt64.lt_iff_toNat_lt, hscanned]
      refine and_congr_right fun _ => ?_
      rw [and_iff_right hscans, and_iff_right hplain]
      refine and_congr_right fun hless => ?_
      have hle : scannedTotal splits ≤ total := by
        rw [UInt64.le_iff_toNat_le]
        omega
      rw [← UInt64.toNat_inj, UInt64.toNat_sub_of_le _ _ hle, hscanned]

/-- Two splits of more than a `uint64`. -/
def wrappingSplits : List Split :=
  [{ amount := "18446744073709551615" }, { amount := "5" }]

/-- They leave 6 of a total of 10. -/
theorem wrappingSplits_accepted :
    splitAmounts Mpp.Sample.libraries 10 wrappingSplits = .ok 6 ∧
      ¬ SplitsExactly Mpp.Sample.libraries 10 wrappingSplits := by
  have hok : splitAmounts Mpp.Sample.libraries 10 wrappingSplits = .ok 6 := by decide +kernel
  refine ⟨hok, fun hexact => ?_⟩
  obtain ⟨-, -, hless, -⟩ := (hexact 6).mp hok
  exact absurd hless (by decide +kernel)

end Go
end MppSdk
