import MppSdk.LuaJsonReading

/-! # JSON round trips

Encoding writes fourteen significant digits of a number and everything else in full, so a value
comes back with its numbers rounded (`decode_encode`).  The values that come back unchanged are
those whose integers have at most fourteen significant digits (`round_trip_iff`). -/

namespace MppSdk
namespace Lua
namespace Json

open Json.Parser

/-! ## Values -/

/-- A value that can be encoded: finite numbers, and tables that are sequences or have string
keys only, each key once. -/
inductive Encodable : Value → Prop
  | null : Encodable .null
  | boolean (b : Bool) : Encodable (.boolean b)
  | number (q : ℚ) : Encodable (.number (.finite q))
  | string (s : Str) : Encodable (.string s)
  | array {items : List Value} (h : ∀ item ∈ items, Encodable item) : Encodable (.table items [])
  | object {fields : List (Str × Value)} (h : ∀ field ∈ fields, Encodable field.2)
    (sorted : fields.Pairwise fun a b => a.1 < b.1) : Encodable (.table [] fields)

/-- A number as it comes back. -/
def Number.rounded : Number → Number
  | .finite q => .ofRat ((if q < 0 then -1 else 1) * round14 q)
  | n => n

mutual

/-- The value with its numbers as they come back. -/
def Value.rounded : Value → Value
  | .number n => .number (Number.rounded n)
  | .table items fields => .table (roundedItems items) (roundedFields fields)
  | value => value

def roundedItems : List Value → List Value
  | [] => []
  | item :: items => item.rounded :: roundedItems items

def roundedFields : List (Str × Value) → List (Str × Value)
  | [] => []
  | (key, value) :: fields => (key, value.rounded) :: roundedFields fields

end

mutual

/-- The numbers in a value. -/
def Value.numbers : Value → List Number
  | .number n => [n]
  | .table items fields => itemNumbers items ++ fieldNumbers fields
  | _ => []

def itemNumbers : List Value → List Number
  | [] => []
  | item :: items => item.numbers ++ itemNumbers items

def fieldNumbers : List (Str × Value) → List Number
  | [] => []
  | (_, value) :: fields => value.numbers ++ fieldNumbers fields

end

theorem roundedItems_eq (items : List Value) : roundedItems items = items.map Value.rounded := by
  induction items with
  | nil => rfl
  | cons item items ih => rw [roundedItems, ih, List.map_cons]

theorem roundedFields_eq (fields : List (Str × Value)) :
    roundedFields fields = fields.map fun field => (field.1, field.2.rounded) := by
  induction fields with
  | nil => rfl
  | cons field fields ih => rw [roundedFields, ih, List.map_cons]

theorem itemNumbers_eq (items : List Value) : itemNumbers items = items.flatMap Value.numbers := by
  induction items with
  | nil => rfl
  | cons item items ih => rw [itemNumbers, ih, List.flatMap_cons]

theorem fieldNumbers_eq (fields : List (Str × Value)) :
    fieldNumbers fields = fields.flatMap fun field => field.2.numbers := by
  induction fields with
  | nil => rfl
  | cons field fields ih => rw [fieldNumbers, ih, List.flatMap_cons]

/-! ## Strings -/

/-- A control character's code unit. -/
theorem format04x_control : ∀ n < 32, (format04x n).length = 4 ∧ (format04x n).all isHex = true ∧
    encodeUnit (hexValue (format04x n)) = [UInt8.ofNat n] := by
  decide

theorem chunk_format04x {n : Nat} (h : n < 32) :
    Chunk (lit "\\u" ++ format04x n) [UInt8.ofNat n] := by
  obtain ⟨hlength, hhex, hunit⟩ := format04x_control n h
  obtain ⟨a, b, c, d, habcd⟩ := List.length_eq_four.mp hlength
  rw [habcd] at hhex hunit ⊢
  rw [← hunit]
  exact chunk_unit hhex

theorem chunk_replacement {ch : UInt8} {text : Str} (h : replacements ch = some text) :
    Chunk text [ch] := by
  unfold replacements at h
  split_ifs at h with hslash hquote hb hf hn hr ht <;> obtain rfl := Option.some.inj h
  · exact hslash ▸ chunk_escape (byte '\\') rfl
  · exact hquote ▸ chunk_escape (byte '"') rfl
  · exact hb ▸ chunk_escape (byte 'b') rfl
  · exact hf ▸ chunk_escape (byte 'f') rfl
  · exact hn ▸ chunk_escape (byte 'n') rfl
  · exact hr ▸ chunk_escape (byte 'r') rfl
  · exact ht ▸ chunk_escape (byte 't') rfl

/-- Every byte of a string comes back. -/
theorem chunk_escape_byte (ch : UInt8) : Chunk (escape ch) [ch] := by
  unfold escape
  by_cases hescaped : isEscaped ch = true
  · rw [if_pos hescaped]
    cases hshort : replacements ch with
    | some text => exact chunk_replacement hshort
    | none =>
      have hne : ch ≠ byte '\\' ∧ ch ≠ byte '"' := by
        constructor <;>
          · rintro rfl
            exact absurd hshort (by decide)
      simp only [isEscaped, decide_eq_true_eq] at hescaped
      have hcontrol : ch < 32 := by tauto
      have hchunk := chunk_format04x (n := ch.toNat) hcontrol
      rwa [UInt8.ofNat_toNat] at hchunk
  · rw [if_neg hescaped]
    simp only [isEscaped, decide_eq_true_eq, not_or] at hescaped
    exact chunk_byte hescaped.2.2 hescaped.2.1

theorem chunk_escape_string (s : Str) : Chunk (s.flatMap escape) s := by
  have h : Chunk (s.flatMap escape) (s.flatMap fun ch => [ch]) :=
    chunk_flatMap fun ch _ => chunk_escape_byte ch
  rwa [List.flatMap_singleton'] at h

/-! ## Tables -/

/-- Keys in their order stay where they are. -/
theorem sortKeys_eq {α : Type} {fields : List (Str × α)}
    (h : fields.Pairwise fun a b => a.1 < b.1) : sortKeys fields = fields := by
  refine List.Pairwise.insertionSort_eq (h.imp fun hab => ?_)
  exact List.le_of_lt hab

/-- A key after all others is put at the end. -/
theorem setField_append {key : Str} {value : Value} : ∀ {fields : List (Str × Value)},
    (∀ field ∈ fields, field.1 < key) → setField key value fields = fields ++ [(key, value)]
  | [], _ => rfl
  | (k, v) :: fields, h => by
    obtain ⟨hk, hfields⟩ := List.forall_mem_cons.mp h
    have hnot : ¬ key < k := fun hlt => List.lt_irrefl _ (List.lt_trans hk hlt)
    have hne : key ≠ k := by
      rintro rfl
      exact List.lt_irrefl _ hk
    rw [setField, if_neg hnot, if_neg hne, setField_append hfields, List.cons_append]

theorem fieldsOf_sorted : ∀ {members : List Member} {out : List (Str × Value)},
    (out ++ members.map fun member => (member.key, member.item.value)).Pairwise
      (fun a b => a.1 < b.1) →
    fieldsOf out members = out ++ members.map fun member => (member.key, member.item.value)
  | [], out, _ => by rw [List.map_nil, List.append_nil]; rfl
  | member :: members, out, h => by
    have hkey : ∀ field ∈ out, field.1 < member.key := fun field hfield =>
      (List.pairwise_append.mp h).2.2 field hfield _ (List.mem_cons_self ..)
    rw [List.map_cons, List.append_cons] at h ⊢
    refine Eq.trans ?_ (fieldsOf_sorted h)
    rw [fieldsOf, List.foldl_cons, setField_append hkey]
    rfl

/-! ## Values come back -/

/-- What encoding a value comes to. -/
def Sends (value : Value) : Prop :=
  ∃ text, encodeValue value = .ok text ∧ Reads text value.rounded

theorem sends_number (q : ℚ) : Sends (.number (.finite q)) := by
  obtain ⟨n, htext, hvalue⟩ := format14g_numeral q
  refine ⟨_, rfl, ?_⟩
  rw [← htext, Value.rounded, Number.rounded, ← hvalue]
  exact reads_numeral n

theorem sends_string (s : Str) : Sends (.string s) :=
  ⟨_, rfl, reads_string (chunk_escape_string s)⟩

/-- A value's text, without whitespace. -/
def Item.of {text : Str} {value : Value} (h : Reads text value) : Item :=
  ⟨[], text, [], value, spaces_nil, spaces_nil, h⟩

theorem Item.layout_of {text : Str} {value : Value} (h : Reads text value) :
    (Item.of h).layout = text := List.append_nil text

/-- The items of an array, as they are read. -/
theorem exists_items : ∀ {values : List Value}, (∀ value ∈ values, Sends value) →
    ∃ items : List Item, encodeItems values = .ok (items.map Item.layout) ∧
      items.map Item.value = values.map Value.rounded
  | [], _ => ⟨[], rfl, rfl⟩
  | value :: values, h => by
    obtain ⟨⟨text, hencode, hreads⟩, hvalues⟩ := List.forall_mem_cons.mp h
    obtain ⟨items, hitems, hrounded⟩ := exists_items hvalues
    refine ⟨Item.of hreads :: items, ?_, ?_⟩
    · rw [encodeItems, hencode, hitems, List.map_cons, Item.layout_of]
      rfl
    · rw [List.map_cons, hrounded]
      rfl

theorem sends_array {items : List Value} (h : ∀ item ∈ items, Sends item) :
    Sends (.table items []) := by
  obtain ⟨read, hencode, hvalues⟩ := exists_items h
  refine ⟨byte '[' :: (concat (read.map Item.layout) ++ [byte ']']), ?_, ?_⟩
  · rw [encodeValue, hencode]
    rfl
  · rw [Value.rounded, roundedItems_eq, ← hvalues]
    by_cases hempty : read = []
    · subst hempty
      exact reads_empty_array spaces_nil
    · exact reads_array hempty

/-- A name and its value, without whitespace. -/
def Member.of (key : Str) {text : Str} {value : Value} (h : Reads text value) : Member where
  before := []
  body := key.flatMap escape
  key := key
  between := []
  item := Item.of h
  before_spaces := spaces_nil
  between_spaces := spaces_nil
  chunk := chunk_escape_string key

/-- The text of a name and its value. -/
def fieldText (field : Str × Throws Str) : Throws Str := do
  return encodeString field.1 ++ byte ':' :: (← field.2)

/-- The members of an object, as they are read. -/
theorem exists_members : ∀ {fields : List (Str × Value)}, (∀ field ∈ fields, Sends field.2) →
    ∃ members : List Member,
      (encodeFields fields).mapM fieldText = .ok (members.map Member.layout) ∧
      (members.map fun member => (member.key, member.item.value)) =
        fields.map fun field => (field.1, field.2.rounded)
  | [], _ => ⟨[], rfl, rfl⟩
  | (key, value) :: fields, h => by
    obtain ⟨⟨text, hencode, hreads⟩, hfields⟩ := List.forall_mem_cons.mp h
    obtain ⟨members, hmembers, hrounded⟩ := exists_members hfields
    refine ⟨Member.of key hreads :: members, ?_, ?_⟩
    · have htext : (Member.of key hreads).layout = encodeString key ++ byte ':' :: text := by
        rw [Member.layout]
        exact congrArg (fun text => encodeString key ++ byte ':' :: text) (Item.layout_of hreads)
      rw [encodeFields, List.mapM_cons, fieldText, hencode, hmembers, List.map_cons, htext]
      rfl
    · rw [List.map_cons, hrounded]
      rfl

theorem pairwise_encodeFields {fields : List (Str × Value)}
    (h : fields.Pairwise fun a b => a.1 < b.1) :
    (encodeFields fields).Pairwise fun a b => a.1 < b.1 := by
  have hmap : encodeFields fields = fields.map fun field => (field.1, encodeValue field.2) := by
    clear h
    induction fields with
    | nil => rfl
    | cons field fields ih => rw [encodeFields, ih, List.map_cons]
  rw [hmap]
  exact List.pairwise_map.mpr h

theorem sends_object {fields : List (Str × Value)} (h : ∀ field ∈ fields, Sends field.2)
    (hsorted : fields.Pairwise fun a b => a.1 < b.1) : Sends (.table [] fields) := by
  cases fields with
  | nil => exact sends_array nofun
  | cons field fields =>
    obtain ⟨members, hencode, hvalues⟩ := exists_members h
    have hne : members ≠ [] := by
      rintro rfl
      exact nomatch hvalues
    refine ⟨byte '\x7b' :: (concat (members.map Member.layout) ++ [byte '\x7d']), ?_, ?_⟩
    · rw [encodeValue, sortKeys_eq (pairwise_encodeFields hsorted)]
      · exact congrArg (· >>= _) hencode
      · nofun
    · have hread : Value.rounded (.table [] (field :: fields)) =
          .table [] (fieldsOf [] members) := by
        rw [Value.rounded, roundedFields_eq, fieldsOf_sorted, hvalues]
        · rfl
        · rw [List.nil_append, hvalues]
          exact List.pairwise_map.mpr hsorted
      rw [hread]
      exact reads_object hne

theorem sends {value : Value} (h : Encodable value) : Sends value := by
  induction h with
  | null => exact ⟨_, rfl, reads_null⟩
  | boolean b => exact ⟨_, rfl, reads_boolean b⟩
  | number q => exact sends_number q
  | string s => exact sends_string s
  | array _ ih => exact sends_array ih
  | object _ hsorted ih => exact sends_object ih hsorted

/-- **What is encoded is decoded to the value with its numbers rounded.** -/
theorem decode_encode {value : Value} (h : Encodable value) :
    (encode value >>= decode) = .ok value.rounded := by
  obtain ⟨text, hencode, hreads⟩ := sends h
  have hdecode := decode_item (Item.of hreads)
  rw [Item.layout_of] at hdecode
  rw [encode, hencode]
  exact hdecode

/-! ## Integers -/

/-- A value whose numbers are integers of at most 53 bits. -/
def Integral (value : Value) : Prop :=
  ∀ n ∈ value.numbers, ∃ z : ℤ, n = .finite z ∧ |z| ≤ 2 ^ 53

/-- Every integer in a value has at most fourteen significant digits. -/
def AllShort (value : Value) : Prop := ∀ z : ℤ, .finite z ∈ value.numbers → Short z

theorem map_eq_self_iff {α : Type} {f : α → α} {xs : List α} :
    xs.map f = xs ↔ ∀ x ∈ xs, f x = x := by
  conv_lhs => rhs; rw [← List.map_id xs]
  exact List.map_inj_left

/-- What holds part by part holds of all that the parts contain. -/
theorem forall_flatMap_iff {α β : Type} {p : α → Prop} {q : β → Prop} {f : α → List β}
    {xs : List α} (h : ∀ x ∈ xs, (p x ↔ ∀ y ∈ f x, q y)) :
    (∀ x ∈ xs, p x) ↔ ∀ y ∈ xs.flatMap f, q y := by
  constructor
  · intro hall y hy
    obtain ⟨x, hx, hy⟩ := List.mem_flatMap.mp hy
    exact (h x hx).mp (hall x hx) y hy
  · exact fun hall x hx => (h x hx).mpr fun y hy => hall y (List.mem_flatMap.mpr ⟨x, hx, hy⟩)

/-- Rounding changes nothing if it changes no number. -/
theorem rounded_eq_iff {value : Value} (h : Encodable value) :
    value.rounded = value ↔ ∀ n ∈ value.numbers, Number.rounded n = n := by
  induction h with
  | null => exact iff_of_true rfl nofun
  | boolean b => exact iff_of_true rfl nofun
  | string s => exact iff_of_true rfl nofun
  | number q => simp [Value.rounded, Value.numbers]
  | @array items _ ih =>
    have hitems : items.map Value.rounded = items ↔
        ∀ n ∈ items.flatMap Value.numbers, Number.rounded n = n := by
      rw [map_eq_self_iff]
      exact forall_flatMap_iff ih
    simpa [Value.rounded, Value.numbers, roundedItems_eq, itemNumbers_eq, roundedFields,
      fieldNumbers] using hitems
  | @object fields _ _ ih =>
    have hfields : (fields.map fun field => (field.1, field.2.rounded)) = fields ↔
        ∀ n ∈ fields.flatMap fun field => field.2.numbers, Number.rounded n = n := by
      rw [map_eq_self_iff]
      refine forall_flatMap_iff fun field hfield => ?_
      rw [← ih field hfield, Prod.ext_iff]
      exact and_iff_right rfl
    simpa [Value.rounded, Value.numbers, roundedItems, itemNumbers, roundedFields_eq,
      fieldNumbers_eq] using hfields

/-- **Exactly the values without long integers survive.** -/
theorem round_trip_iff {value : Value} (h : Encodable value) (hint : Integral value) :
    (encode value >>= decode) = .ok value ↔ AllShort value := by
  rw [decode_encode h, Except.ok.injEq, rounded_eq_iff h]
  constructor
  · intro hall z hz
    obtain ⟨z', hz', hsize⟩ := hint _ hz
    obtain rfl : z = z' := by simpa using hz'
    exact (ofRat_round14_iff hsize).mp (hall _ hz)
  · intro hshort n hn
    obtain ⟨z, rfl, hsize⟩ := hint n hn
    exact (ofRat_round14_iff hsize).mpr (hshort z hn)

/-- An object with an integer and an array in it. -/
def sampleValue : Value :=
  .table [] [(lit "amount", .number (.finite 1000000)), (lit "splits", .table [.null] [])]

theorem sampleValue_encodable : Encodable sampleValue := by
  refine Encodable.object (fun field hfield => ?_) (by decide)
  rcases List.mem_cons.mp hfield with rfl | hfield
  · exact Encodable.number 1000000
  · obtain rfl := List.mem_singleton.mp hfield
    exact Encodable.array fun item hitem => List.mem_singleton.mp hitem ▸ Encodable.null

theorem sampleValue_integral : Integral sampleValue := by
  intro n hn
  obtain rfl := List.mem_singleton.mp hn
  exact ⟨1000000, by norm_num, by norm_num⟩

theorem sampleValue_round_trip :
    (encode sampleValue >>= decode) = .ok sampleValue ↔ AllShort sampleValue :=
  round_trip_iff sampleValue_encodable sampleValue_integral

/-- The last digit of `123456789012346` is lost. -/
theorem long_integer_lost : Encodable (.number (.finite 123456789012346)) ∧
    Integral (.number (.finite 123456789012346)) ∧
    (encode (.number (.finite 123456789012346)) >>= decode) ≠
      .ok (.number (.finite 123456789012346)) := by
  refine ⟨Encodable.number _, ?_, ?_⟩
  · intro n hn
    obtain rfl := List.mem_singleton.mp hn
    exact ⟨123456789012346, by norm_num, by norm_num⟩
  · rw [decode_encode (Encodable.number _), Ne, Except.ok.injEq, Value.rounded,
      Value.number.injEq]
    have hlog : Nat.log 10 123456789012346 = 14 := (Nat.log_eq_iff (by norm_num)).mpr (by norm_num)
    have hlong : ¬ Short 123456789012346 := by
      show ¬ (10 : ℤ) ^ (Nat.log 10 123456789012346 - 13) ∣ 123456789012346
      rw [hlog]
      decide
    exact fun h => hlong ((ofRat_round14_iff (by norm_num)).mp (by exact_mod_cast h))

end Json
end Lua
end MppSdk
