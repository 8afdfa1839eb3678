import Mathlib.Data.List.Nodup
import MppSdk.Json

/-! # JSON on its way

Between the party that serializes a value and the one that deserializes it the JSON text is
canonicalized, put into a header and parsed again.  On that way the fields of an object may
change their order, and an integer that no double represents may become another number; all
else arrives as it was sent.  A type survives when each of its values is read back from what
arrives (`Survives`), and a struct is read field by field (`Arrived.required_eq`,
`Arrived.optional_eq`, `Arrived.defaulted_eq`). -/

namespace MppSdk.Json

/-- The last of the integers that doubles represent without a gap, `2^53`. -/
def maxSafe : UInt64 := 9007199254740992

/-- What becomes of a JSON value on its way. -/
structure Carriage where
  carry : Json → Json
  carry_str : ∀ s, carry (str s) = str s
  carry_unsigned : ∀ n, n ≤ maxSafe → carry (unsigned n) = unsigned n
  carry_arr : ∀ items, carry (arr items) = arr (items.map carry)
  carry_obj : ∀ fields, (fields.map Prod.fst).Nodup → ∃ arrived, carry (obj fields) = obj arrived ∧
    ∀ key, field arrived key = (field fields key).map carry

/-- The carriage that changes nothing. -/
def Carriage.direct : Carriage where
  carry v := v
  carry_str _ := rfl
  carry_unsigned _ _ := rfl
  carry_arr _ := by rw [List.map_id']
  carry_obj fields _ := ⟨fields, rfl, fun _ => Option.map_id'.symm⟩

/-- What `write` makes of a value, `read` takes for that value on arrival; and it reads
nothing from `null`. -/
structure Survives {α : Type} (c : Carriage) (write : α → Json) (read : Json → Option α) :
    Prop where
  read_carry : ∀ a, read (c.carry (write a)) = some a
  read_null : read null = none

/-! ## Values -/

section Values
variable {α : Type} (c : Carriage)

theorem survives_str : Survives c str asStr where
  read_carry s := by rw [c.carry_str]; rfl
  read_null := rfl

theorem survives_u8 : Survives c (fun n : UInt8 => unsigned n.toUInt64) asU8 where
  read_carry n := by
    have hlt : n.toUInt64 ≤ 255 := UInt64.le_iff_toNat_le.mpr (Nat.le_of_lt_succ n.toNat_lt)
    have hsafe : n.toUInt64 ≤ maxSafe := UInt64.le_trans hlt (by decide)
    rw [c.carry_unsigned _ hsafe, asU8, if_pos hlt, UInt8.toUInt8_toUInt64]
  read_null := rfl

theorem survives_u16 : Survives c (fun n : UInt16 => unsigned n.toUInt64) asU16 where
  read_carry n := by
    have hlt : n.toUInt64 ≤ 65535 := UInt64.le_iff_toNat_le.mpr (Nat.le_of_lt_succ n.toNat_lt)
    have hsafe : n.toUInt64 ≤ maxSafe := UInt64.le_trans hlt (by decide)
    rw [c.carry_unsigned _ hsafe, asU16, if_pos hlt, UInt16.toUInt16_toUInt64]
  read_null := rfl

theorem survives_u32 : Survives c (fun n : UInt32 => unsigned n.toUInt64) asU32 where
  read_carry n := by
    have hlt : n.toUInt64 ≤ 4294967295 :=
      UInt64.le_iff_toNat_le.mpr (Nat.le_of_lt_succ n.toNat_lt)
    have hsafe : n.toUInt64 ≤ maxSafe := UInt64.le_trans hlt (by decide)
    rw [c.carry_unsigned _ hsafe, asU32, if_pos hlt, UInt32.toUInt32_toUInt64]
  read_null := rfl

variable {c} {write : α → Json} {read : Json → Option α}

theorem Survives.read_items (h : Survives c write read) : ∀ items : List α,
    ((items.map write).map c.carry).mapM read = some items
  | [] => rfl
  | a :: items => by
      rw [List.map_cons, List.map_cons, List.mapM_cons, h.read_carry, h.read_items items]
      rfl

theorem Survives.asVec (h : Survives c write read) :
    Survives c (fun items => arr (items.map write)) (Json.asVec read) where
  read_carry items := by
    rw [c.carry_arr]
    exact h.read_items items
  read_null := rfl

end Values

/-! ## The fields of a struct -/

/-- Fields that are left out are not found, and the others are found once. -/
theorem field_present {fields : List (String × Option Json)} (key : String)
    (h : (fields.map Prod.fst).Nodup) :
    field (fields.filterMap fun f => f.2.map (f.1, ·)) key = (fields.lookup key).join := by
  induction fields with
  | nil => rfl
  | cons f fields ih =>
    obtain ⟨name, v⟩ := f
    obtain ⟨hname, hrest⟩ := List.nodup_cons.mp h
    by_cases hkey : key = name
    · subst hkey
      rw [List.lookup_cons_self]
      cases v with
      | some v => exact List.lookup_cons_self
      | none =>
        have habsent : fields.lookup key = none := by
          refine List.lookup_eq_none_iff.mpr fun p hp => ?_
          have hmem : p.1 ∈ fields.map Prod.fst := List.mem_map_of_mem hp
          have hne : key ≠ p.1 := fun he => hname (by rwa [← he] at hmem)
          simpa using hne
        rw [List.filterMap_cons, Option.map_none, ih hrest, habsent]
        rfl
    · have hfalse : (key == name) = false := beq_eq_false_iff_ne.mpr hkey
      rw [List.lookup_cons, hfalse, ← ih hrest]
      cases v with
      | none => rfl
      | some v => simp only [List.filterMap_cons, Option.map_some, field, List.lookup_cons, hfalse]

/-- The names of the fields that are not left out. -/
theorem names_present (fields : List (String × Option Json)) :
    ((fields.filterMap fun f => f.2.map (f.1, ·)).map Prod.fst).Sublist (fields.map Prod.fst) := by
  induction fields with
  | nil => exact List.Sublist.slnil
  | cons f fields ih =>
    obtain ⟨name, v⟩ := f
    cases v with
    | none => exact ih.cons name
    | some v => exact ih.cons_cons name

/-- What has arrived of the fields of a struct. -/
def Carriage.Arrived (c : Carriage) (fields : List (String × Option Json))
    (arrived : List (String × Json)) : Prop :=
  ∀ key, field arrived key = (fields.lookup key).join.map c.carry

/-- The object of a struct arrives as an object, with each of its fields. -/
theorem Carriage.carry_object (c : Carriage) {fields : List (String × Option Json)}
    (h : (fields.map Prod.fst).Nodup) :
    ∃ arrived, c.carry (object fields) = obj arrived ∧ c.Arrived fields arrived := by
  obtain ⟨arrived, hobj, hfield⟩ := c.carry_obj _ (h.sublist (names_present fields))
  exact ⟨arrived, hobj, fun key => by rw [hfield, field_present key h]⟩

section Fields
variable {α : Type} {c : Carriage} {write : α → Json} {read : Json → Option α}
  {fields : List (String × Option Json)} {arrived : List (String × Json)} {key : String}

/-- What is written is not `null` when it arrives. -/
theorem Survives.ne_null (h : Survives c write read) (a : α) : c.carry (write a) ≠ null := by
  intro hnull
  have hread := h.read_carry a
  rw [hnull, h.read_null] at hread
  cases hread

theorem Carriage.Arrived.required_eq (harrived : c.Arrived fields arrived) (h : Survives c write read)
    {a : α} (hkey : fields.lookup key = some (some (write a))) :
    required read arrived key = some a := by
  rw [required, harrived, hkey]
  exact h.read_carry a

theorem optional_of_ne_null {v : Json} (hfield : field arrived key = some v) (hnull : v ≠ null) :
    optional read arrived key = (read v).map some := by
  unfold optional
  rw [hfield]
  cases v with
  | null => exact absurd rfl hnull
  | _ => rfl

theorem Carriage.Arrived.optional_eq (harrived : c.Arrived fields arrived) (h : Survives c write read)
    {v : Option α} (hkey : fields.lookup key = some (v.map write)) :
    optional read arrived key = some v := by
  have hfield : field arrived key = v.map fun a => c.carry (write a) := by
    rw [harrived, hkey]
    cases v <;> rfl
  cases v with
  | none =>
    unfold optional
    rw [hfield]
    rfl
  | some a =>
    rw [optional_of_ne_null hfield (h.ne_null a), h.read_carry]
    rfl

theorem Carriage.Arrived.defaulted_eq (harrived : c.Arrived fields arrived) (h : Survives c write read)
    {items : List α} (hkey : fields.lookup key = some (nonEmpty write items)) :
    defaulted read arrived key = some items := by
  unfold defaulted
  rw [harrived, hkey, nonEmpty]
  cases items with
  | nil => rfl
  | cons a items => exact h.asVec.read_carry (a :: items)

end Fields

end MppSdk.Json
