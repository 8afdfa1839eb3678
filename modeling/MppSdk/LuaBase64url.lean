import MppSdk.Base64Url
import MppSdk.LuaStd

/-! # Base64url in Lua

`util/base64url.lua` encodes three bytes at a time and decodes four characters at a time.  The
decoder looks every character up in a map, and past the end of the text it finds nothing there,
as for a character outside the alphabet.  Two such characters in a group of four are refused only
in the first two places (`lossless_and_sound_iff`). -/

namespace MppSdk
namespace Lua
namespace Base64url

/-- `alphabet`. -/
def alphabet : Str := Base64Url.alphabet.map Char.toUInt8

/-- `alphabet:sub(n + 1, n + 1)`, of an index in the alphabet. -/
def char (n : Nat) : UInt8 := alphabet.getD n 0

/-- `decode_map`. -/
def decodeMap (c : UInt8) : Option Nat := alphabet.idxOf? c

/-- What `encode` writes for the bytes `a`, `b` and `c`, of which the last may be missing. -/
def encodeGroup (a : UInt8) (b c : Option UInt8) : Str :=
  let triple := a.toNat * 65536 + (b.elim 0 UInt8.toNat) * 256 + c.elim 0 UInt8.toNat
  char (triple / 262144) :: char (triple / 4096 % 64) ::
    ((b.elim [] fun _ => [char (triple / 64 % 64)]) ++ c.elim [] fun _ => [char (triple % 64)])

/-- `encode`. -/
def encode : Str → Str
  | [] => []
  | [a] => encodeGroup a none none
  | [a, b] => encodeGroup a (some b) none
  | a :: b :: c :: rest => encodeGroup a (some b) (some c) ++ encode rest

/-- What `decode` makes of the four map entries of a group. -/
def decodeGroup (c1 c2 c3 c4 : Option Nat) : Throws Str :=
  match c1, c2 with
  | some c1, some c2 =>
      let triple := c1 * 262144 + c2 * 4096 + c3.getD 0 * 64 + c4.getD 0
      .ok (UInt8.ofNat (triple / 65536 % 256) ::
        ((c3.elim [] fun _ => [UInt8.ofNat (triple / 256 % 256)]) ++
          c4.elim [] fun _ => [UInt8.ofNat (triple % 256)]))
  | _, _ => error (lit "invalid base64url input")

/-- The loop of `decode`. -/
def decodeLoop : Str → Throws Str
  | [] => .ok []
  | [a] => decodeGroup (decodeMap a) none none none
  | [a, b] => decodeGroup (decodeMap a) (decodeMap b) none none
  | [a, b, c] => decodeGroup (decodeMap a) (decodeMap b) (decodeMap c) none
  | a :: b :: c :: d :: rest => do
      let out ← decodeGroup (decodeMap a) (decodeMap b) (decodeMap c) (decodeMap d)
      let more ← decodeLoop rest
      return out ++ more

/-- `input:gsub('%+', '-'):gsub('/', '_'):gsub('=', '')`. -/
def normalized (input : Str) : Str :=
  ((input.map fun c => if c = byte '+' then byte '-' else c).map
    fun c => if c = byte '/' then byte '_' else c).filter (· ≠ byte '=')

/-- `decode`. -/
def decode (input : Str) : Throws Str := decodeLoop (normalized input)

/-! ## The alphabet -/

theorem decodeMap_char : ∀ n < 64, decodeMap (char n) = some n := by decide +kernel

theorem char_plain : ∀ n < 64,
    char n ≠ byte '+' ∧ char n ≠ byte '/' ∧ char n ≠ byte '=' := by decide +kernel

theorem mem_alphabet {c : UInt8} : c ∈ alphabet ↔ ∃ n, decodeMap c = some n := by
  rw [← Option.isSome_iff_exists, decodeMap, List.isSome_idxOf?]

/-- Characters of the alphabet are those of some digits. -/
theorem exists_digits {cs : Str} (h : ∀ c ∈ cs, c ∈ alphabet) :
    (∀ d ∈ cs.map alphabet.idxOf, d < 64) ∧ (cs.map alphabet.idxOf).map char = cs := by
  have hchar : ∀ c ∈ cs, alphabet.idxOf c < 64 ∧ char (alphabet.idxOf c) = c := by
    intro c hc
    have hlt : alphabet.idxOf c < alphabet.length := List.idxOf_lt_length_of_mem (h c hc)
    exact ⟨hlt, by simp [char, hlt]⟩
  constructor
  · intro d hd
    obtain ⟨c, hc, rfl⟩ := List.mem_map.mp hd
    exact (hchar c hc).1
  · rw [List.map_map]
    exact (List.map_congr_left fun c hc => (hchar c hc).2).trans (List.map_id cs)

/-! ## Encoding and decoding digits -/

/-- **The encoder writes the digits of the bytes.** -/
theorem encode_eq (bytes : Str) : encode bytes = (Base64Url.encodeDigits bytes).map char := by
  induction bytes using Base64Url.encodeDigits.induct with
  | case1 a b c rest ih =>
    have hb := b.toNat_lt
    have hc := c.toNat_lt
    have h1 : (a.toNat * 65536 + b.toNat * 256 + c.toNat) / 262144 = a.toNat / 4 := by omega
    have h2 : (a.toNat * 65536 + b.toNat * 256 + c.toNat) / 4096 % 64 =
        a.toNat % 4 * 16 + b.toNat / 16 := by omega
    have h3 : (a.toNat * 65536 + b.toNat * 256 + c.toNat) / 64 % 64 =
        b.toNat % 16 * 4 + c.toNat / 64 := by omega
    have h4 : (a.toNat * 65536 + b.toNat * 256 + c.toNat) % 64 = c.toNat % 64 := by omega
    simp only [encode, encodeGroup, Base64Url.encodeDigits, ih, Option.elim_some, h1, h2, h3, h4]
    rfl
  | case2 a b =>
    have hb := b.toNat_lt
    have h1 : (a.toNat * 65536 + b.toNat * 256 + 0) / 262144 = a.toNat / 4 := by omega
    have h2 : (a.toNat * 65536 + b.toNat * 256 + 0) / 4096 % 64 =
        a.toNat % 4 * 16 + b.toNat / 16 := by omega
    have h3 : (a.toNat * 65536 + b.toNat * 256 + 0) / 64 % 64 = b.toNat % 16 * 4 := by omega
    simp only [encode, encodeGroup, Base64Url.encodeDigits, Option.elim_some, Option.elim_none, h1,
      h2, h3]
    rfl
  | case3 a =>
    have h1 : (a.toNat * 65536 + 0 * 256 + 0) / 262144 = a.toNat / 4 := by omega
    have h2 : (a.toNat * 65536 + 0 * 256 + 0) / 4096 % 64 = a.toNat % 4 * 16 := by omega
    simp only [encode, encodeGroup, Base64Url.encodeDigits, Option.elim_none, h1, h2]
    rfl
  | case4 => rfl

/-- **The decoder reads digits**, unless the last of them is alone in its group. -/
theorem decodeLoop_digits (ds : List Nat) (h : ∀ d ∈ ds, d < 64) (hlength : ds.length % 4 ≠ 1) :
    decodeLoop (ds.map char) = .ok (Base64Url.decodeDigits ds) := by
  induction ds using Base64Url.decodeDigits.induct with
  | case1 p q r s rest ih =>
    simp only [List.forall_mem_cons] at h
    obtain ⟨hp, hq, hr, hs, hrest⟩ := h
    have h1 : (p * 262144 + q * 4096 + r * 64 + s) / 65536 % 256 = p * 4 + q / 16 := by omega
    have h2 : (p * 262144 + q * 4096 + r * 64 + s) / 256 % 256 = q % 16 * 16 + r / 4 := by omega
    have h3 : (p * 262144 + q * 4096 + r * 64 + s) % 256 = r % 4 * 64 + s := by omega
    have hlength : rest.length % 4 ≠ 1 := by
      simp only [List.length_cons] at hlength
      omega
    simp only [List.map_cons, decodeLoop, decodeMap_char p hp, decodeMap_char q hq,
      decodeMap_char r hr, decodeMap_char s hs, ih hrest hlength, decodeGroup, Option.getD_some,
      Option.elim_some, h1, h2, h3, Base64Url.decodeDigits]
    rfl
  | case2 p q r =>
    simp only [List.forall_mem_cons] at h
    obtain ⟨hp, hq, hr, -⟩ := h
    have h1 : (p * 262144 + q * 4096 + r * 64 + 0) / 65536 % 256 = p * 4 + q / 16 := by omega
    have h2 : (p * 262144 + q * 4096 + r * 64 + 0) / 256 % 256 = q % 16 * 16 + r / 4 := by omega
    simp only [List.map_cons, List.map_nil, decodeLoop, decodeMap_char p hp, decodeMap_char q hq,
      decodeMap_char r hr, decodeGroup, Option.getD_some, Option.getD_none, Option.elim_some,
      Option.elim_none, h1, h2, Base64Url.decodeDigits]
    rfl
  | case3 p q =>
    simp only [List.forall_mem_cons] at h
    obtain ⟨hp, hq, -⟩ := h
    have h1 : (p * 262144 + q * 4096 + 0 * 64 + 0) / 65536 % 256 = p * 4 + q / 16 := by omega
    simp only [List.map_cons, List.map_nil, decodeLoop, decodeMap_char p hp, decodeMap_char q hq,
      decodeGroup, Option.getD_none, Option.elim_none, h1, Base64Url.decodeDigits]
    rfl
  | case4 ds h4 h3 h2 =>
    rcases ds with _ | ⟨p, _ | ⟨q, _ | ⟨r, _ | ⟨s, rest⟩⟩⟩⟩
    · rfl
    · exact absurd rfl hlength
    · exact absurd rfl (h2 p q)
    · exact absurd rfl (h3 p q r)
    · exact absurd rfl (h4 p q r s rest)

/-! ## What is accepted -/

theorem decodeGroup_isOk {c1 c2 c3 c4 : Option Nat} :
    (∃ out, decodeGroup c1 c2 c3 c4 = .ok out) ↔ c1.isSome ∧ c2.isSome := by
  rcases c1 with _ | p <;> rcases c2 with _ | q <;> simp [decodeGroup, error]

/-- Whatever holds of each place holds of the first and of each later one. -/
theorem forall_places_cons {P : Nat → UInt8 → Prop} {a : UInt8} {cs : Str} :
    (∀ i c, (a :: cs)[i]? = some c → P i c) ↔ P 0 a ∧ ∀ i c, cs[i]? = some c → P (i + 1) c := by
  constructor
  · exact fun h => ⟨h 0 a rfl, fun i c hc => h (i + 1) c hc⟩
  · rintro ⟨hhead, htail⟩ (_ | i) c hc
    · obtain rfl := Option.some.inj hc
      exact hhead
    · exact htail i c hc

/-- The first two characters of every group are of the alphabet, and there are two of them. -/
def Starts (cs : Str) : Prop :=
  cs.length % 4 ≠ 1 ∧ ∀ i c, cs[i]? = some c → i % 4 < 2 → c ∈ alphabet

/-- **The decoder looks at the first two characters of every group only.** -/
theorem decodeLoop_isOk (cs : Str) : (∃ out, decodeLoop cs = .ok out) ↔ Starts cs := by
  have hmem : ∀ c : UInt8, (decodeMap c).isSome = true ↔ c ∈ alphabet := by
    intro c
    rw [mem_alphabet, Option.isSome_iff_exists]
  unfold Starts
  induction cs using decodeLoop.induct with
  | case1 => simp [decodeLoop]
  | case2 a => simp [decodeLoop, decodeGroup_isOk]
  | case3 a b =>
    rw [decodeLoop, decodeGroup_isOk, hmem, hmem]
    simp [forall_places_cons]
  | case4 a b c =>
    rw [decodeLoop, decodeGroup_isOk, hmem, hmem]
    simp [forall_places_cons]
  | case5 a b c d rest ih =>
    have hloop : (∃ out, decodeLoop (a :: b :: c :: d :: rest) = .ok out) ↔
        (∃ out, decodeGroup (decodeMap a) (decodeMap b) (decodeMap c) (decodeMap d) = .ok out) ∧
          ∃ more, decodeLoop rest = .ok more := by
      rw [decodeLoop]
      rcases decodeGroup (decodeMap a) (decodeMap b) (decodeMap c) (decodeMap d) with e | out
      · simp [Bind.bind, Except.bind]
      · rcases decodeLoop rest with e | more <;> simp [Bind.bind, Except.bind, pure, Except.pure]
    have hplace : ∀ i, (i + 1 + 1 + 1 + 1) % 4 = i % 4 := by omega
    rw [hloop, decodeGroup_isOk, hmem, hmem]
    simp only [ih, forall_places_cons, hplace, List.length_cons]
    simp
    constructor
    · rintro ⟨⟨ha, hb⟩, hlength, hrest⟩
      exact ⟨hlength, ha, hb, hrest⟩
    · rintro ⟨hlength, ha, hb, hrest⟩
      exact ⟨⟨ha, hb⟩, hlength, hrest⟩

/-! ## The claim of the decoder -/

/-- What is decoded is a whole text of the alphabet, and it is decoded to the bytes of its
sextets. -/
def Sound (input : Str) : Prop :=
  ∀ out, decode input = .ok out → (∀ c ∈ normalized input, c ∈ alphabet) ∧
    (normalized input).length % 4 ≠ 1 ∧
    out = Base64Url.decodeDigits ((normalized input).map alphabet.idxOf)

theorem normalized_map_char {ds : List Nat} (h : ∀ d ∈ ds, d < 64) :
    normalized (ds.map char) = ds.map char := by
  have hplain : ∀ c ∈ ds.map char, c ≠ byte '+' ∧ c ≠ byte '/' ∧ c ≠ byte '=' := by
    intro c hc
    obtain ⟨d, hd, rfl⟩ := List.mem_map.mp hc
    exact char_plain d (h d hd)
  have hkeep : ∀ (x y : UInt8), (∀ c ∈ ds.map char, c ≠ x) →
      ((ds.map char).map fun c => if c = x then y else c) = ds.map char := fun x y hx =>
    (List.map_congr_left fun c hc => if_neg (hx c hc)).trans (List.map_id _)
  rw [normalized, hkeep _ _ fun c hc => (hplain c hc).1, hkeep _ _ fun c hc => (hplain c hc).2.1]
  exact List.filter_eq_self.mpr fun c hc => decide_eq_true (hplain c hc).2.2

/-- **Every byte string survives.** -/
theorem decode_encode (bytes : Str) : decode (encode bytes) = .ok bytes := by
  have hdigits := Base64Url.lt_of_mem_encodeDigits bytes
  rw [decode, encode_eq, normalized_map_char hdigits,
    decodeLoop_digits _ hdigits (Base64Url.length_encodeDigits bytes),
    Base64Url.decodeDigits_encodeDigits]

theorem sound_iff (input : Str) : Sound input ↔
    (∀ c ∈ normalized input, c ∈ alphabet) ∨ ¬ Starts (normalized input) := by
  unfold Sound decode
  generalize normalized input = cs
  constructor
  · intro h
    by_cases hstarts : Starts cs
    · obtain ⟨out, hout⟩ := (decodeLoop_isOk cs).mpr hstarts
      exact Or.inl (h out hout).1
    · exact Or.inr hstarts
  · intro h out hout
    have hstarts : Starts cs := (decodeLoop_isOk cs).mp ⟨out, hout⟩
    have hall := h.resolve_right (not_not.mpr hstarts)
    obtain ⟨hlt, hchars⟩ := exists_digits hall
    refine ⟨hall, hstarts.1, ?_⟩
    rw [← hchars, decodeLoop_digits _ hlt (by rw [List.length_map]; exact hstarts.1)] at hout
    exact (Except.ok.inj hout).symm

/-- **Exact condition for the decoder**, which reads back every byte string that was encoded. -/
theorem lossless_and_sound_iff (bytes input : Str) : decode (encode bytes) = .ok bytes ∧
    (Sound input ↔ (∀ c ∈ normalized input, c ∈ alphabet) ∨ ¬ Starts (normalized input)) :=
  ⟨decode_encode bytes, sound_iff input⟩

/-- A character outside the alphabet in the third place is dropped. -/
theorem hash_accepted : decode (lit "QU#B") = .ok [65, 1] ∧ ¬ Sound (lit "QU#B") := by
  have hok : decode (lit "QU#B") = .ok [65, 1] := by decide +kernel
  refine ⟨hok, fun h => ?_⟩
  have hhash := (h _ hok).1 (byte '#') (by decide +kernel)
  exact absurd hhash (by decide +kernel)

end Base64url
end Lua
end MppSdk
