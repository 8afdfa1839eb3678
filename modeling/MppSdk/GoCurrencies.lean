import MppSdk.GoTypes

/-! # Currencies in Go and in Rust

`strings.ToUpper` maps a character to one character and `str::to_uppercase` to several, and
`strings.EqualFold` compares after folding.  All three name the same currencies
(`isNativeSOL_iff`, `resolveMint_eq`): no name has two letters next to each other that one
character can be in upper case. -/

namespace MppSdk
namespace Go

/-! ## Upper case -/

/-- One character in upper case, for comparison with ASCII names. -/
def upperOf (c : Char) : Char :=
  if c.toNat = 0x17F then 'S' else if c.toNat = 0x131 then 'I' else c.toUpper

/-- The pairs of letters that one character can be in upper case. -/
def pairs : List (List Char) := [['S', 'S'], ['F', 'F'], ['F', 'I'], ['F', 'L'], ['S', 'T']]

theorem exists_lower {c : Char} (h : 'a' ≤ c ∧ c ≤ 'z') : ∃ n < 26, c = Char.ofNat (97 + n) := by
  have hlo : 97 ≤ c.toNat := h.1
  have hhi : c.toNat ≤ 122 := h.2
  refine ⟨c.toNat - 97, by omega, ?_⟩
  rw [Nat.add_sub_cancel' hlo, Char.ofNat_toNat]

theorem toUpper_of_not_lower {c : Char} (h : ¬ ('a' ≤ c ∧ c ≤ 'z')) : c.toUpper = c := by
  have h' : ¬ ('a'.val ≤ c.val ∧ c.val ≤ 'z'.val) := h
  unfold Char.toUpper
  exact dif_neg h'

/-- Both languages have the same upper case, or it is no single character. -/
theorem upperChar_cases (c : Char) : upperChar c = [upperOf c] ∨
    127 < (upperOf c).toNat ∧ ∃ pair ∈ pairs, pair <:+: upperChar c := by
  by_cases hlower : 'a' ≤ c ∧ c ≤ 'z'
  · obtain ⟨n, hn, rfl⟩ := exists_lower hlower
    have hall : ∀ n < 26, upperChar (Char.ofNat (97 + n)) = [upperOf (Char.ofNat (97 + n))] := by
      decide
    exact Or.inl (hall n hn)
  by_cases hs : c.toNat = 0x17F
  · refine Or.inl ?_
    unfold upperChar upperOf
    rw [if_neg hlower, if_pos hs, hs]
    rfl
  by_cases hi : c.toNat = 0x131
  · refine Or.inl ?_
    unfold upperChar upperOf
    rw [if_neg hlower, if_neg hs, if_pos hi, hi]
    rfl
  have hupper : upperOf c = c := by
    unfold upperOf
    rw [if_neg hs, if_neg hi, toUpper_of_not_lower hlower]
  rw [hupper]
  unfold upperChar
  rw [if_neg hlower]
  split
  case h_2 hc => exact absurd hc hi
  case h_3 hc => exact absurd hc hs
  case h_11 => exact Or.inl rfl
  all_goals
    rename_i hc
    refine Or.inr ⟨?_, ?_⟩
    · rw [hc]
      decide
    · decide

/-- Both languages have the same upper case of a text, or neither has one that is an ASCII name
without such pairs. -/
theorem toUppercase_eq_iff {s name : String} (hascii : name.toList.all (·.toNat ≤ 127) = true)
    (hpairs : ∀ pair ∈ pairs, ¬ pair <:+: name.toList) :
    toUppercase s = name ↔ toUpper s = name := by
  have hupper : (toUpper s).toList = s.toList.map upperOf := by
    rw [toUpper, String.toList_ofList]
    rfl
  have hupper' : (toUppercase s).toList = s.toList.flatMap upperChar := by
    rw [toUppercase, String.toList_ofList]
  rw [← String.toList_inj, ← String.toList_inj, hupper, hupper']
  by_cases hone : ∀ c ∈ s.toList, upperChar c = [upperOf c]
  · have hsame : s.toList.flatMap upperChar = s.toList.map upperOf := by
      rw [← List.flatMap_singleton' (s.toList.map upperOf), List.flatMap_map]
      exact List.flatMap_congr hone
    rw [hsame]
  · push Not at hone
    obtain ⟨c, hc, hne⟩ := hone
    obtain ⟨hlarge, pair, hpair, hin⟩ := (upperChar_cases c).resolve_left hne
    constructor
    · intro h
      refine absurd ?_ (hpairs pair hpair)
      rw [← h]
      exact hin.trans (List.infix_flatMap_of_mem hc upperChar)
    · intro h
      have hmem : upperOf c ∈ name.toList := h ▸ List.mem_map_of_mem hc
      exact absurd (of_decide_eq_true (List.all_eq_true.mp hascii _ hmem)) (Nat.not_le.mpr hlarge)

theorem exists_upper {c : Char} (h : 'A' ≤ c ∧ c ≤ 'Z') : ∃ n < 26, c = Char.ofNat (65 + n) := by
  have hlo : 65 ≤ c.toNat := h.1
  have hhi : c.toNat ≤ 90 := h.2
  refine ⟨c.toNat - 65, by omega, ?_⟩
  rw [Nat.add_sub_cancel' hlo, Char.ofNat_toNat]

/-- The character is folded to a letter exactly if it is that letter in upper case. -/
def Folds (c letter : Char) : Prop := foldChar c = letter ↔ upperOf c = letter.toUpper

instance (c letter : Char) : Decidable (Folds c letter) := inferInstanceAs (Decidable (_ ↔ _))

theorem folds (c : Char) : Folds c 's' ∧ Folds c 'o' ∧ Folds c 'l' := by
  by_cases hlower : 'a' ≤ c ∧ c ≤ 'z'
  · obtain ⟨n, hn, rfl⟩ := exists_lower hlower
    have hall : ∀ n < 26, Folds (Char.ofNat (97 + n)) 's' ∧ Folds (Char.ofNat (97 + n)) 'o' ∧
        Folds (Char.ofNat (97 + n)) 'l' := by decide
    exact hall n hn
  by_cases hupper : 'A' ≤ c ∧ c ≤ 'Z'
  · obtain ⟨n, hn, rfl⟩ := exists_upper hupper
    have hall : ∀ n < 26, Folds (Char.ofNat (65 + n)) 's' ∧ Folds (Char.ofNat (65 + n)) 'o' ∧
        Folds (Char.ofNat (65 + n)) 'l' := by decide
    exact hall n hn
  by_cases hspecial : c.toNat ∈ [0x212A, 0x17F, 0x131]
  · obtain ⟨n, hn, rfl⟩ : ∃ n ∈ [0x212A, 0x17F, 0x131], c = Char.ofNat n :=
      ⟨c.toNat, hspecial, (Char.ofNat_toNat c).symm⟩
    have hall : ∀ n ∈ [0x212A, 0x17F, 0x131], Folds (Char.ofNat n) 's' ∧
        Folds (Char.ofNat n) 'o' ∧ Folds (Char.ofNat n) 'l' := by decide
    exact hall n hn
  · obtain ⟨hkelvin, hlong, hdotless⟩ : c.toNat ≠ 0x212A ∧ c.toNat ≠ 0x17F ∧ c.toNat ≠ 0x131 := by
      simpa only [List.mem_cons, List.not_mem_nil, or_false, not_or] using hspecial
    have hfold : foldChar c = c := by
      have hupper' : ¬ (c.val ≥ 'A'.val ∧ c.val ≤ 'Z'.val) := hupper
      unfold foldChar
      rw [if_neg hkelvin, if_neg hlong]
      unfold Char.toLower
      exact dif_neg hupper'
    have hsame : upperOf c = c := by
      unfold upperOf
      rw [if_neg hlong, if_neg hdotless, toUpper_of_not_lower hlower]
    have hother : ∀ letter : Char, ('a' ≤ letter ∧ letter ≤ 'z') →
        ('A' ≤ letter.toUpper ∧ letter.toUpper ≤ 'Z') → Folds c letter := by
      intro letter hin hin'
      rw [Folds, hfold, hsame]
      constructor
      · rintro rfl
        exact absurd hin hlower
      · rintro rfl
        exact absurd hin' hupper
    exact ⟨hother 's' (by decide) (by decide), hother 'o' (by decide) (by decide),
      hother 'l' (by decide) (by decide)⟩

/-! ## Names -/

/-- Both languages take the same currencies for SOL. -/
theorem isNativeSOL_iff (currency : String) :
    isNativeSOL currency = true ↔ toUppercase currency = "SOL" := by
  rw [toUppercase_eq_iff (by decide) (by decide), ← String.toList_inj, toUpper,
    String.toList_ofList]
  have hname : "sol".toList.map foldChar = ['s', 'o', 'l'] := by decide
  simp only [isNativeSOL, equalFold, hname, decide_eq_true_eq]
  show _ ↔ currency.toList.map upperOf = ['S', 'O', 'L']
  rcases currency.toList with _ | ⟨a, _ | ⟨b, _ | ⟨c, _ | ⟨d, rest⟩⟩⟩⟩
  case cons.cons.cons.nil =>
    simp only [List.map_cons, List.map_nil, List.cons.injEq, and_true]
    exact and_congr (folds a).1 (and_congr (folds b).2.1 (folds c).2.2)
  all_goals simp

theorem lookup_mainnet (network mainnet : String) :
    ([("mainnet-beta", mainnet)].lookup network).getD mainnet = mainnet := by
  by_cases hnetwork : network = "mainnet-beta"
  · rw [hnetwork]
    rfl
  · rw [List.lookup_cons, beq_false_of_ne hnetwork]
    rfl

theorem lookup_networks (network : Option String) (devnet mainnet : String) :
    ([("devnet", devnet), ("testnet", devnet), ("mainnet-beta", mainnet)].lookup
      (network.getD "")).getD mainnet =
        match network with
        | some "devnet" => devnet
        | some "testnet" => devnet
        | _ => mainnet := by
  split
  · rfl
  · rfl
  · rename_i hdevnet htestnet
    have hdevnet : network.getD "" ≠ "devnet" := by
      rcases network with _ | network
      · decide
      · rintro rfl
        exact hdevnet rfl
    have htestnet : network.getD "" ≠ "testnet" := by
      rcases network with _ | network
      · decide
      · rintro rfl
        exact htestnet rfl
    rw [List.lookup_cons, beq_false_of_ne hdevnet, List.lookup_cons, beq_false_of_ne htestnet]
    exact lookup_mainnet _ mainnet

/-- Both languages resolve a currency to the same mint. -/
theorem resolveMint_eq {currency : String} {network : Option String} {mint : String}
    (h : resolveStablecoinMint currency network = some mint) :
    resolveMint currency (network.getD "") = mint := by
  have hname : ∀ name ∈ ["SOL", "USDC", "USDT", "USDG", "PYUSD", "CASH"],
      (toUppercase currency = name ↔ toUpper currency = name) := by
    intro name hname
    have hall : ∀ name ∈ ["SOL", "USDC", "USDT", "USDG", "PYUSD", "CASH"],
        name.toList.all (·.toNat ≤ 127) = true ∧ ∀ pair ∈ pairs, ¬ pair <:+: name.toList := by decide
    exact toUppercase_eq_iff (hall name hname).1 (hall name hname).2
  unfold resolveStablecoinMint at h
  split at h
  · cases h
  · rename_i hupper
    rw [resolveMint, (hname "USDC" (by decide)).mp hupper, ← Option.some.inj h]
    exact lookup_networks network mints.USDC_DEVNET mints.USDC_MAINNET
  · rename_i hupper
    rw [resolveMint, (hname "USDT" (by decide)).mp hupper, ← Option.some.inj h]
    exact lookup_mainnet _ mints.USDT_MAINNET
  · rename_i hupper
    rw [resolveMint, (hname "USDG" (by decide)).mp hupper, ← Option.some.inj h]
    exact lookup_networks network mints.USDG_DEVNET mints.USDG_MAINNET
  · rename_i hupper
    rw [resolveMint, (hname "PYUSD" (by decide)).mp hupper, ← Option.some.inj h]
    exact lookup_networks network mints.PYUSD_DEVNET mints.PYUSD_MAINNET
  · rename_i hupper
    rw [resolveMint, (hname "CASH" (by decide)).mp hupper, ← Option.some.inj h]
    exact lookup_mainnet _ mints.CASH_MAINNET
  · rename_i hsol husdc husdt husdg hpyusd hcash
    have hsol' : toUpper currency ≠ "SOL" := mt (hname "SOL" (by decide)).mpr hsol
    have hnone : knownMints.lookup (toUpper currency) = none := by
      rw [List.lookup_eq_none_iff]
      have hall : ∀ name ∈ knownMints.map Prod.fst, toUpper currency ≠ name := by
        simp only [knownMints, List.map_cons, List.map_nil, List.forall_mem_cons]
        exact ⟨mt (hname "USDC" (by decide)).mpr husdc, mt (hname "USDT" (by decide)).mpr husdt,
          mt (hname "USDG" (by decide)).mpr husdg, mt (hname "PYUSD" (by decide)).mpr hpyusd,
          mt (hname "CASH" (by decide)).mpr hcash, fun _ h => nomatch h⟩
      intro entry hentry
      exact bne_iff_ne.mpr (hall entry.1 (List.mem_map_of_mem hentry))
    rw [resolveMint, if_neg hsol', hnone]
    exact Option.some.inj h

end Go
end MppSdk
