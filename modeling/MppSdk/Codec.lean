import Mathlib.Data.List.Infix

/-! # Prefix codecs

A codec writes a value as symbols and reads one from the front of a list of symbols.  Its
two laws say that it reads what it writes, whatever follows, and reads nothing else; so
reading succeeds exactly on the lists that begin with the encoding of a valid value, and
what is read is that value (`decode_eq_some_iff`, `decode_isSome_iff`).  Formats are put
together from symbols by pairs, counted lists and changes of representation. -/

/-- Values of type `α` as symbols; `valid` are the values that have an encoding. -/
structure Codec (Sym α : Type) where
  valid : α → Prop
  encode : α → List Sym
  decode : List Sym → Option (α × List Sym)
  decode_encode : ∀ a rest, valid a → decode (encode a ++ rest) = some (a, rest)
  of_decode : ∀ l a rest, decode l = some (a, rest) → valid a ∧ l = encode a ++ rest

namespace Codec
variable {Sym α β : Type}

/-- **Reading** a value is finding its encoding in front. -/
theorem decode_eq_some_iff (c : Codec Sym α) {l rest : List Sym} {a : α} :
    c.decode l = some (a, rest) ↔ c.valid a ∧ l = c.encode a ++ rest := by
  constructor
  · exact c.of_decode l a rest
  · intro ⟨ha, hl⟩
    rw [hl]
    exact c.decode_encode a rest ha

/-- Reading succeeds exactly when an encoding is in front. -/
theorem decode_isSome_iff (c : Codec Sym α) {l : List Sym} :
    (c.decode l).isSome ↔ ∃ a, c.valid a ∧ c.encode a <+: l := by
  constructor
  · intro h
    obtain ⟨⟨a, rest⟩, hl⟩ := Option.isSome_iff_exists.mp h
    obtain ⟨ha, hl⟩ := c.of_decode l a rest hl
    exact ⟨a, ha, rest, hl.symm⟩
  · intro ⟨a, ha, rest, hl⟩
    rw [← hl, c.decode_encode a rest ha]
    rfl

/-! ## Building blocks -/

/-- One symbol. -/
def symbol : Codec Sym Sym where
  valid _ := True
  encode s := [s]
  decode
    | [] => none
    | s :: rest => some (s, rest)
  decode_encode _ _ _ := rfl
  of_decode l a rest h := by
    rcases l with _ | ⟨s, l⟩
    · cases h
    · cases h
      exact ⟨trivial, rfl⟩

/-- One value after another. -/
def pair (c : Codec Sym α) (d : Codec Sym β) : Codec Sym (α × β) where
  valid p := c.valid p.1 ∧ d.valid p.2
  encode p := c.encode p.1 ++ d.encode p.2
  decode l := do
    let (a, l) ← c.decode l
    let (b, l) ← d.decode l
    return ((a, b), l)
  decode_encode p rest h := by
    obtain ⟨ha, hb⟩ := h
    rw [List.append_assoc, c.decode_encode _ _ ha]
    show (d.decode _).bind _ = _
    rw [d.decode_encode _ _ hb]
    rfl
  of_decode l p rest h := by
    obtain ⟨⟨a, l₁⟩, ha, h⟩ := Option.bind_eq_some_iff.mp h
    obtain ⟨⟨b, l₂⟩, hb, h⟩ := Option.bind_eq_some_iff.mp h
    cases h
    obtain ⟨hva, rfl⟩ := c.of_decode l a l₁ ha
    obtain ⟨hvb, rfl⟩ := d.of_decode l₁ b rest hb
    exact ⟨⟨hva, hvb⟩, (List.append_assoc _ _ _).symm⟩

/-- The same symbols for another representation of the values. -/
def iso (c : Codec Sym α) (f : α → β) (g : β → α) (hfg : ∀ b, f (g b) = b)
    (hgf : ∀ a, g (f a) = a) : Codec Sym β where
  valid b := c.valid (g b)
  encode b := c.encode (g b)
  decode l := (c.decode l).map fun r => (f r.1, r.2)
  decode_encode b rest h := by
    rw [c.decode_encode _ rest h, Option.map_some, hfg]
  of_decode l b rest h := by
    obtain ⟨⟨a, l'⟩, ha, he⟩ := Option.map_eq_some_iff.mp h
    cases he
    rw [hgf]
    exact c.of_decode l a l' ha

/-- Read `n` values. -/
def decodeMany (c : Codec Sym α) : Nat → List Sym → Option (List α × List Sym)
  | 0, l => some ([], l)
  | n + 1, l => do
      let (a, l) ← c.decode l
      let (as, l) ← decodeMany c n l
      return (a :: as, l)

theorem decodeMany_encode (c : Codec Sym α) (as : List α) (rest : List Sym)
    (h : ∀ a ∈ as, c.valid a) :
    c.decodeMany as.length (as.flatMap c.encode ++ rest) = some (as, rest) := by
  induction as with
  | nil => rfl
  | cons a as ih =>
    obtain ⟨ha, has⟩ := List.forall_mem_cons.mp h
    rw [List.length_cons, List.flatMap_cons, List.append_assoc]
    show (c.decode _).bind _ = _
    rw [c.decode_encode a _ ha]
    show (c.decodeMany as.length _).bind _ = _
    rw [ih has]
    rfl

theorem of_decodeMany (c : Codec Sym α) (n : Nat) (l : List Sym) (as : List α) (rest : List Sym)
    (h : c.decodeMany n l = some (as, rest)) :
    as.length = n ∧ (∀ a ∈ as, c.valid a) ∧ l = as.flatMap c.encode ++ rest := by
  induction n generalizing l as with
  | zero =>
    cases h
    exact ⟨rfl, by simp, rfl⟩
  | succ n ih =>
    obtain ⟨⟨a, l₁⟩, ha, h⟩ := Option.bind_eq_some_iff.mp h
    obtain ⟨⟨as', l₂⟩, has, h⟩ := Option.bind_eq_some_iff.mp h
    cases h
    obtain ⟨hva, rfl⟩ := c.of_decode l a l₁ ha
    obtain ⟨hlen, hvas, rfl⟩ := ih l₁ as' has
    refine ⟨by rw [List.length_cons, hlen], List.forall_mem_cons.mpr ⟨hva, hvas⟩, ?_⟩
    rw [List.flatMap_cons, List.append_assoc]

/-- A list: its length, then its elements. -/
def counted (len : Codec Sym Nat) (c : Codec Sym α) : Codec Sym (List α) where
  valid as := len.valid as.length ∧ ∀ a ∈ as, c.valid a
  encode as := len.encode as.length ++ as.flatMap c.encode
  decode l := do
    let (n, l) ← len.decode l
    c.decodeMany n l
  decode_encode as rest h := by
    obtain ⟨hlen, has⟩ := h
    rw [List.append_assoc, len.decode_encode _ _ hlen]
    exact c.decodeMany_encode as rest has
  of_decode l as rest h := by
    obtain ⟨⟨n, l₁⟩, hn, hmany⟩ := Option.bind_eq_some_iff.mp h
    obtain ⟨hvn, rfl⟩ := len.of_decode l n l₁ hn
    obtain ⟨rfl, has, rfl⟩ := c.of_decodeMany n l₁ as rest hmany
    exact ⟨⟨hvn, has⟩, (List.append_assoc _ _ _).symm⟩

/-- What a pair reads after its first part. -/
theorem pair_decode_append (c : Codec Sym α) (d : Codec Sym β) {a : α} (ha : c.valid a)
    (l : List Sym) :
    (c.pair d).decode (c.encode a ++ l) = (d.decode l).map fun r => ((a, r.1), r.2) := by
  show (c.decode _).bind _ = _
  rw [c.decode_encode a l ha]
  show (d.decode l).bind _ = _
  cases d.decode l <;> rfl

end Codec
