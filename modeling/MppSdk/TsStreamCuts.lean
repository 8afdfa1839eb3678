import MppSdk.TsHttpStream

/-! # Cuts of a stream in TypeScript

What the chunk-by-chunk line ends of the TypeScript decoder do to a stream.  A `\r\n` whose
halves arrive in different chunks becomes two line ends, and the block is cut behind its line
(`splitOn_flatMap_normalize`).  The events are the same exactly when, in each block, at most
one piece is an event and it has all that the block has (`survivesCuts_iff`). -/

namespace MppSdk
namespace Ts

/-- The characters of a chunk; the last one is marked. -/
def markLast : List Char → List (Char × Bool)
  | [] => []
  | [c] => [(c, true)]
  | c :: cs => (c, false) :: markLast cs

/-- The lines of marked text, each with whether its end is a `\r\n` cut in the middle. -/
def markedLines : List (Char × Bool) → List (List Char × Bool)
  | [] => [([], false)]
  | ('\r', cut) :: ('\n', _) :: cs => ([], cut) :: markedLines cs
  | (c, _) :: cs =>
      if c = '\r' ∨ c = '\n' then ([], false) :: markedLines cs
      else (markedLines cs).modifyHead fun line => (c :: line.1, line.2)

/-- The lines of a stream that arrives in chunks, each with whether its end is a `\r\n` cut in
the middle. -/
def streamLines (chunks : List (List Char)) : List (List Char × Bool) :=
  markedLines (chunks.flatMap markLast)

/-- The blocks of such a stream. -/
def streamBlocks (chunks : List (List Char)) : List (List (List Char × Bool)) :=
  (streamLines chunks).splitOnP fun line => line.1.isEmpty

/-- A block in pieces: one ends after each line whose end is cut. -/
def pieces : List (List Char × Bool) → List (List (List Char))
  | [] => [[]]
  | (line, cut) :: lines =>
      if cut then [line] :: pieces lines else (pieces lines).modifyHead (line :: ·)

/-- The lines hold data or name an event. -/
def IsEvent (lines : List (List Char)) : Prop :=
  (readLines lines).data ≠ [] ∨ ∃ name, (readLines lines).event = some name ∧ name ≠ []

instance (lines : List (List Char)) : Decidable (IsEvent lines) :=
  decidable_of_iff ((readLines lines).data ≠ [] ∨ (readLines lines).event.any (· ≠ [])) (by
    rw [IsEvent, Option.any_eq_true]
    simp)

/-- At most one piece of the block is an event, and the event name, the id and the retry time
that are read last in the block are those that are read last in that piece. -/
def Whole (block : List (List Char × Bool)) : Prop :=
  ((pieces block).filter IsEvent).length ≤ 1 ∧
    ∀ piece ∈ pieces block, IsEvent piece →
      (readLines piece).event = (readLines (block.map Prod.fst)).event ∧
        (readLines piece).id = (readLines (block.map Prod.fst)).id ∧
        (readLines piece).retry.join = (readLines (block.map Prod.fst)).retry.join

theorem map_fst_markLast (chunk : List Char) : (markLast chunk).map Prod.fst = chunk := by
  fun_induction markLast chunk with
  | case1 => rfl
  | case2 c => rfl
  | case3 c cs hcs ih => rw [List.map_cons, ih]

theorem splitOn_feed (text : List Char) :
    ('\n' :: text).splitOn '\n' = [] :: text.splitOn '\n' :=
  List.splitOn_append_cons_self [] text

theorem splitOn_cons_of_ne {c : Char} (hc : c ≠ '\n') (text : List Char) :
    (c :: text).splitOn '\n' = (text.splitOn '\n').modifyHead (c :: ·) := by
  simp [List.splitOn_cons_eq_if_modifyHead, hc]

theorem normalize_return_feed (cs : List Char) :
    normalize ('\r' :: '\n' :: cs) = '\n' :: normalize cs := rfl

theorem normalize_cons {c : Char} {cs : List Char} (h : ¬ (c = '\r' ∧ cs.head? = some '\n')) :
    normalize (c :: cs) = (if c = '\r' then '\n' else c) :: normalize cs := by
  have hreplace : replaceReturnFeeds (c :: cs) = c :: replaceReturnFeeds cs := by
    rw [replaceReturnFeeds]
    rintro cs' rfl rfl
    exact h ⟨rfl, rfl⟩
  rw [normalize, hreplace, List.map_cons]
  rfl

theorem markedLines_cons {c : Char} {mark : Bool} {cs : List (Char × Bool)}
    (h : ¬ (c = '\r' ∧ (cs.map Prod.fst).head? = some '\n')) :
    markedLines ((c, mark) :: cs) = if c = '\r' ∨ c = '\n' then ([], false) :: markedLines cs
      else (markedLines cs).modifyHead fun line => (c :: line.1, line.2) := by
  rw [markedLines]
  rintro mark' cs' rfl rfl
  exact h ⟨rfl, rfl⟩

/-- Without their marks the lines are those of the text. -/
theorem map_fst_markedLines (text : List (Char × Bool)) :
    (markedLines text).map Prod.fst = (normalize (text.map Prod.fst)).splitOn '\n' := by
  fun_induction markedLines text with
  | case1 => rfl
  | case2 cut mark cs ih =>
    rw [List.map_cons, List.map_cons, List.map_cons, normalize_return_feed, splitOn_feed, ih]
  | case3 c mark cs hpair hc ih =>
    have h : ¬ (c = '\r' ∧ (cs.map Prod.fst).head? = some '\n') := by
      rintro ⟨rfl, hhead⟩
      cases cs with
      | nil => cases hhead
      | cons d cs => exact hpair d.2 cs (by rw [← Option.some.inj hhead]) rfl
    have hfeed : (if c = '\r' then '\n' else c) = '\n' := by
      rcases hc with rfl | rfl <;> rfl
    rw [List.map_cons, List.map_cons, normalize_cons h, hfeed, splitOn_feed, ih]
  | case4 c mark cs hpair hc ih =>
    obtain ⟨hreturn, hfeed⟩ := not_or.mp hc
    rw [List.map_cons, normalize_cons (fun h => hreturn h.1), if_neg hreturn,
      splitOn_cons_of_ne hfeed, ← ih]
    cases markedLines cs <;> rfl

/-- A line whose end was cut, and the empty line that the cut makes. -/
def doubled (line : List Char × Bool) : List (List Char) :=
  if line.2 then [line.1, []] else [line.1]

theorem flatMap_doubled_modifyHead (c : Char) (lines : List (List Char × Bool)) :
    (lines.modifyHead fun line => (c :: line.1, line.2)).flatMap doubled =
      (lines.flatMap doubled).modifyHead (c :: ·) := by
  cases lines with
  | nil => rfl
  | cons line lines =>
    obtain ⟨cs, cut⟩ := line
    cases cut <;> rfl

/-- A character that starts no `\r\n` adds the same to the lines of both texts. -/
theorem splitOn_cons_marked {c : Char} {mark : Bool} {after : List (Char × Bool)} {text : List Char}
    (h : text.splitOn '\n' = (markedLines after).flatMap doubled)
    (hpair : ¬ (c = '\r' ∧ (after.map Prod.fst).head? = some '\n')) :
    ((if c = '\r' then '\n' else c) :: text).splitOn '\n' =
      (markedLines ((c, mark) :: after)).flatMap doubled := by
  rw [markedLines_cons hpair]
  by_cases hc : c = '\r' ∨ c = '\n'
  · have hfeed : (if c = '\r' then '\n' else c) = '\n' := by
      rcases hc with rfl | rfl <;> rfl
    rw [if_pos hc, hfeed, splitOn_feed, h]
    rfl
  · obtain ⟨hreturn, hfeed⟩ := not_or.mp hc
    rw [if_neg hc, if_neg hreturn, splitOn_cons_of_ne hfeed, h, flatMap_doubled_modifyHead]

/-- **A chunk of a stream.**  Normalized by itself, a chunk in front of a text has the lines of
the stream with one more for each line end that its own end cuts. -/
theorem splitOn_normalize_append {after : List (Char × Bool)} {text : List Char}
    (h : text.splitOn '\n' = (markedLines after).flatMap doubled) (chunk : List Char) :
    (normalize chunk ++ text).splitOn '\n' =
      (markedLines (markLast chunk ++ after)).flatMap doubled := by
  fun_induction markLast chunk with
  | case1 => exact h
  | case2 c =>
    by_cases hpair : c = '\r' ∧ (after.map Prod.fst).head? = some '\n'
    · -- the end of the chunk cuts the line end
      obtain ⟨rfl, hhead⟩ := hpair
      cases after with
      | nil => cases hhead
      | cons d after =>
        obtain ⟨d, mark⟩ := d
        obtain rfl : d = '\n' := Option.some.inj hhead
        exact (splitOn_feed text).trans (congrArg _ h)
    · rw [normalize_cons (by simp)]
      exact splitOn_cons_marked h hpair
  | case3 c cs hcs ih =>
    cases cs with
    | nil => exact absurd rfl hcs
    | cons d cs =>
      have hmark : ((markLast (d :: cs) ++ after).map Prod.fst).head? = some d := by
        rw [List.map_append, map_fst_markLast]
        rfl
      by_cases hpair : c = '\r' ∧ d = '\n'
      · obtain ⟨rfl, rfl⟩ := hpair
        have hfirst : ∃ mark rest, markLast ('\n' :: cs) = ('\n', mark) :: rest := by
          cases cs with
          | nil => exact ⟨true, [], rfl⟩
          | cons e cs => exact ⟨false, markLast (e :: cs), rfl⟩
        obtain ⟨mark, rest, hfirst⟩ := hfirst
        rw [hfirst] at ih ⊢
        rw [normalize_cons (by simp)] at ih
        exact ih
      · have hhead : ¬ (c = '\r' ∧ ((markLast (d :: cs) ++ after).map Prod.fst).head? = some '\n') := by
          rw [hmark]
          exact fun hc => hpair ⟨hc.1, Option.some.inj hc.2⟩
        have hnormal := @normalize_cons c (d :: cs) fun hc => hpair ⟨hc.1, Option.some.inj hc.2⟩
        rw [hnormal]
        exact splitOn_cons_marked ih hhead

theorem splitOn_flatMap_normalize (chunks : List (List Char)) :
    (chunks.flatMap normalize).splitOn '\n' = (streamLines chunks).flatMap doubled := by
  induction chunks with
  | nil => rfl
  | cons chunk chunks ih => exact splitOn_normalize_append ih chunk

/-! ## Blocks in pieces -/

theorem pieces_ne_nil (block : List (List Char × Bool)) : pieces block ≠ [] := by
  induction block with
  | nil => exact List.cons_ne_nil _ _
  | cons line block ih =>
    obtain ⟨line, cut⟩ := line
    cases cut with
    | true => exact List.cons_ne_nil _ _
    | false =>
      rw [pieces, if_neg Bool.false_ne_true]
      cases hpieces : pieces block with
      | nil => exact absurd hpieces ih
      | cons piece rest => exact List.cons_ne_nil _ _

theorem flatMap_pieces_modifyHead (line : List Char) {blocks : List (List (List Char × Bool))}
    (h : blocks ≠ []) :
    (blocks.modifyHead ((line, false) :: ·)).flatMap pieces =
      (blocks.flatMap pieces).modifyHead (line :: ·) := by
  cases blocks with
  | nil => exact absurd rfl h
  | cons block blocks =>
    rw [List.modifyHead_cons, List.flatMap_cons, List.flatMap_cons, pieces,
      if_neg Bool.false_ne_true]
    cases hpieces : pieces block with
    | nil => exact absurd hpieces (pieces_ne_nil block)
    | cons piece rest => rfl

/-- The pieces of the blocks are the blocks of the doubled lines, the same in front and, but for
empty ones, behind. -/
theorem exists_pieces {ε : Type} {read : List (List Char) → Option ε} (hnil : read [] = none)
    (lines : List (List Char × Bool)) :
    ∃ first rest later, Blocks.ofLines (lines.flatMap doubled) = first :: rest ∧
      (lines.splitOnP fun line => line.1.isEmpty).flatMap pieces = first :: later ∧
      rest.filterMap read = later.filterMap read := by
  induction lines with
  | nil => exact ⟨[], [], [], rfl, rfl, rfl⟩
  | cons line lines ih =>
    obtain ⟨first, rest, later, hblocks, hpieces, hread⟩ := ih
    obtain ⟨line, cut⟩ := line
    rw [List.flatMap_cons, List.splitOnP_cons_eq_if_modifyHead]
    by_cases hline : line = []
    · subst hline
      have hempty : (([], cut) : List Char × Bool).1.isEmpty = true := rfl
      rw [if_pos hempty, List.flatMap_cons, hpieces]
      cases cut with
      | false =>
        refine ⟨[], first :: rest, first :: later, ?_, rfl, ?_⟩
        · rw [← hblocks]
          exact Blocks.ofLines_nil_cons _
        · rw [List.filterMap_cons, List.filterMap_cons, hread]
      | true =>
        refine ⟨[], [] :: first :: rest, first :: later, ?_, rfl, ?_⟩
        · rw [← hblocks]
          exact (Blocks.ofLines_nil_cons _).trans (congrArg _ (Blocks.ofLines_nil_cons _))
        · rw [List.filterMap_cons, hnil, List.filterMap_cons, List.filterMap_cons, hread]
    · have hne := List.splitOnP_ne_nil (fun line : List Char × Bool => line.1.isEmpty) lines
      rw [if_neg (by simpa using hline)]
      cases cut with
      | false =>
        refine ⟨line :: first, rest, later, ?_, ?_, hread⟩
        · refine (Blocks.ofLines_cons_of_ne hline _).trans ?_
          show (Blocks.ofLines (lines.flatMap doubled)).modifyHead (line :: ·) = _
          rw [hblocks]
          rfl
        · rw [flatMap_pieces_modifyHead line hne, hpieces]
          rfl
      | true =>
        refine ⟨[line], first :: rest, first :: later, ?_, ?_, ?_⟩
        · refine (Blocks.ofLines_cons_of_ne hline _).trans ?_
          show (Blocks.ofLines ([] :: lines.flatMap doubled)).modifyHead (line :: ·) = _
          rw [Blocks.ofLines_nil_cons, hblocks]
          rfl
        · cases hblocks' : lines.splitOnP fun line => line.1.isEmpty with
          | nil => exact absurd hblocks' hne
          | cons block blocks =>
            rw [hblocks'] at hpieces
            rw [← hpieces]
            rfl
        · rw [List.filterMap_cons, List.filterMap_cons, hread]

theorem flatten_pieces (block : List (List Char × Bool)) :
    (pieces block).flatten = block.map Prod.fst := by
  induction block with
  | nil => rfl
  | cons line block ih =>
    obtain ⟨line, cut⟩ := line
    rw [List.map_cons, ← ih]
    cases cut with
    | true => rfl
    | false =>
      rw [pieces, if_neg Bool.false_ne_true]
      cases hpieces : pieces block with
      | nil => exact absurd hpieces (pieces_ne_nil block)
      | cons piece rest => rfl

/-- Without their marks the blocks of a stream are those of its text. -/
theorem splitOnP_map_fst (lines : List (List Char × Bool)) :
    (lines.splitOnP fun line => line.1.isEmpty).map (List.map Prod.fst) =
      Blocks.ofLines (lines.map Prod.fst) := by
  induction lines with
  | nil => rfl
  | cons line lines ih =>
    rw [List.splitOnP_cons_eq_if_modifyHead, List.map_cons]
    by_cases hline : line.1 = []
    · have hempty : line.1.isEmpty = true := by rw [hline]; rfl
      rw [if_pos hempty, hline, Blocks.ofLines_nil_cons, List.map_cons, ih]
      rfl
    · rw [Blocks.ofLines_cons_of_ne hline, if_neg (by simpa using hline), ← ih]
      cases lines.splitOnP fun line => line.1.isEmpty <;> rfl

/-! ## Events of a block -/

theorem toEvent_eq_none {lines : List (List Char)} :
    (readLines lines).toEvent = none ↔ ¬ IsEvent lines := by
  unfold SseFields.toEvent IsEvent
  split_ifs with h
  · obtain ⟨hdata, hevent⟩ := h
    simp only [true_iff, not_or, not_exists, not_and, not_not]
    refine ⟨hdata, fun name hname => ?_⟩
    rw [hname] at hevent
    exact of_decide_eq_true hevent
  · simp only [false_iff, not_not]
    by_cases hdata : (readLines lines).data = []
    · cases hevent : (readLines lines).event with
      | none => exact absurd ⟨hdata, by rw [hevent]; rfl⟩ h
      | some name =>
        refine Or.inr ⟨name, rfl, fun hname => h ⟨hdata, ?_⟩⟩
        rw [hevent, hname]
        rfl
    · exact Or.inl hdata

theorem toEvent_of_isEvent {lines : List (List Char)} (h : IsEvent lines) :
    (readLines lines).toEvent = some
      { data := ['\n'].intercalate (readLines lines).data, event := (readLines lines).event,
        id := (readLines lines).id, retry := (readLines lines).retry.join } := by
  rw [SseFields.toEvent, if_neg]
  intro hnone
  exact toEvent_eq_none.mp (by rw [SseFields.toEvent, if_pos hnone]) h

theorem not_isEvent_append {before after : List (List Char)} (hbefore : ¬ IsEvent before)
    (hafter : ¬ IsEvent after) : ¬ IsEvent (before ++ after) := by
  obtain ⟨hdata, hevent⟩ := not_or.mp hbefore
  obtain ⟨hdata', hevent'⟩ := not_or.mp hafter
  rw [IsEvent, readLines_append]
  rintro (h | ⟨name, hname, hne⟩)
  · exact h (List.append_eq_nil_iff.mpr ⟨not_not.mp hdata, not_not.mp hdata'⟩)
  · rcases Option.or_eq_some_iff.mp hname with hlater | ⟨-, hearlier⟩
    · exact hevent' ⟨name, hlater, hne⟩
    · exact hevent ⟨name, hearlier, hne⟩

theorem not_isEvent_flatten {parts : List (List (List Char))} (h : ∀ part ∈ parts, ¬ IsEvent part) :
    ¬ IsEvent parts.flatten := by
  induction parts with
  | nil => exact of_decide_eq_true rfl
  | cons part parts ih =>
    obtain ⟨hpart, hparts⟩ := List.forall_mem_cons.mp h
    exact not_isEvent_append hpart (ih hparts)

/-- Only parts that are events hold data. -/
theorem data_flatten (parts : List (List (List Char))) :
    (readLines parts.flatten).data =
      (parts.filter IsEvent).flatMap fun part => (readLines part).data := by
  induction parts with
  | nil => rfl
  | cons part parts ih =>
    have hdata : (readLines (part :: parts).flatten).data =
        (readLines part).data ++ (readLines parts.flatten).data := by
      rw [List.flatten_cons, readLines_append]
      rfl
    by_cases hpart : IsEvent part
    · rw [hdata, ih, List.filter_cons_of_pos (by simpa using hpart), List.flatMap_cons]
    · rw [hdata, ih, List.filter_cons_of_neg (by simpa using hpart)]
      rw [not_not.mp (not_or.mp hpart).1, List.nil_append]

/-- The events of parts are those of the parts that are events. -/
theorem filterMap_toEvent (parts : List (List (List Char))) :
    (parts.filterMap fun lines => (readLines lines).toEvent) =
      (parts.filter IsEvent).filterMap fun lines => (readLines lines).toEvent := by
  induction parts with
  | nil => rfl
  | cons part parts ih =>
    by_cases hpart : IsEvent part
    · rw [List.filter_cons_of_pos (by simpa using hpart), List.filterMap_cons, List.filterMap_cons, ih]
    · rw [List.filter_cons_of_neg (by simpa using hpart), List.filterMap_cons,
        toEvent_eq_none.mpr hpart, ih]

/-- The events of the pieces of a block. -/
def cutEvents (block : List (List Char × Bool)) : List SseEvent :=
  (pieces block).filterMap fun lines => (readLines lines).toEvent

/-- The event of a whole block. -/
def blockEvents (block : List (List Char × Bool)) : List SseEvent :=
  (readLines (block.map Prod.fst)).toEvent.toList

theorem length_cutEvents (block : List (List Char × Bool)) :
    (cutEvents block).length = ((pieces block).filter IsEvent).length := by
  rw [cutEvents, filterMap_toEvent]
  induction pieces block with
  | nil => rfl
  | cons part parts ih =>
    by_cases hpart : IsEvent part
    · rw [List.filter_cons_of_pos (by simpa using hpart), List.filterMap_cons,
        toEvent_of_isEvent hpart, List.length_cons, List.length_cons, ih]
    · rw [List.filter_cons_of_neg (by simpa using hpart), ih]

/-- A block that is an event has a piece that is one. -/
theorem length_blockEvents_le (block : List (List Char × Bool)) :
    (blockEvents block).length ≤ (cutEvents block).length := by
  rw [length_cutEvents]
  by_cases hevent : IsEvent (block.map Prod.fst)
  · have hpiece : ∃ piece ∈ pieces block, IsEvent piece := by
      by_contra hnone
      rw [← flatten_pieces] at hevent
      exact not_isEvent_flatten (fun piece hmem hp => hnone ⟨piece, hmem, hp⟩) hevent
    obtain ⟨piece, hmem, hp⟩ := hpiece
    have hfilter : piece ∈ (pieces block).filter IsEvent :=
      List.mem_filter.mpr ⟨hmem, decide_eq_true hp⟩
    rw [blockEvents, toEvent_of_isEvent hevent]
    exact List.length_pos_of_mem hfilter
  · rw [blockEvents, toEvent_eq_none.mpr hevent]
    exact Nat.zero_le _

/-- **A block in pieces.**  The events of the pieces are the event of the block exactly when
one piece is the whole event. -/
theorem cutEvents_eq_iff (block : List (List Char × Bool)) :
    cutEvents block = blockEvents block ↔ Whole block := by
  have hcut : cutEvents block =
      ((pieces block).filter IsEvent).filterMap fun lines => (readLines lines).toEvent :=
    filterMap_toEvent (pieces block)
  have hdata := data_flatten (pieces block)
  rw [flatten_pieces] at hdata
  have hmem : ∀ piece, piece ∈ (pieces block).filter IsEvent ↔ piece ∈ pieces block ∧ IsEvent piece := by
    intro piece
    rw [List.mem_filter, decide_eq_true_iff]
  rcases hloud : (pieces block).filter IsEvent with _ | ⟨piece, _ | ⟨second, rest⟩⟩
  · -- no piece is an event, and the block is none either
    have hnone : ∀ piece ∈ pieces block, ¬ IsEvent piece := by
      intro piece hp hevent
      have := (hmem piece).mpr ⟨hp, hevent⟩
      rw [hloud] at this
      cases this
    have hblock : blockEvents block = [] := by
      have := not_isEvent_flatten hnone
      rw [flatten_pieces] at this
      rw [blockEvents, toEvent_eq_none.mpr this]
      rfl
    rw [hcut, hloud, hblock]
    refine iff_of_true rfl ⟨by rw [hloud]; exact Nat.zero_le 1, ?_⟩
    exact fun piece hp hevent => absurd hevent (hnone piece hp)
  · -- one piece is an event and holds the data of the block
    have hpiece := (hmem piece).mp (hloud ▸ List.mem_cons_self)
    have hall : ∀ other ∈ pieces block, IsEvent other → other = piece := by
      intro other hp hevent
      have := (hmem other).mpr ⟨hp, hevent⟩
      rw [hloud] at this
      exact List.mem_singleton.mp this
    have hsame : (readLines (block.map Prod.fst)).data = (readLines piece).data := by
      rw [hdata, hloud, List.flatMap_singleton]
    have hwhole : Whole block ↔
        (readLines piece).event = (readLines (block.map Prod.fst)).event ∧
          (readLines piece).id = (readLines (block.map Prod.fst)).id ∧
          (readLines piece).retry.join = (readLines (block.map Prod.fst)).retry.join := by
      constructor
      · exact fun h => h.2 piece hpiece.1 hpiece.2
      · intro h
        refine ⟨by rw [hloud]; exact le_rfl, fun other hp hevent => ?_⟩
        rw [hall other hp hevent]
        exact h
    rw [hcut, hloud, List.filterMap_cons, toEvent_of_isEvent hpiece.2, hwhole]
    constructor
    · intro h
      by_cases hevent : IsEvent (block.map Prod.fst)
      · rw [blockEvents, toEvent_of_isEvent hevent] at h
        obtain ⟨-, he, hid, hretry⟩ := SseEvent.mk.inj (List.head_eq_of_cons_eq h)
        exact ⟨he, hid, hretry⟩
      · rw [blockEvents, toEvent_eq_none.mpr hevent] at h
        cases h
    · rintro ⟨he, hid, hretry⟩
      have hevent : IsEvent (block.map Prod.fst) := by
        rw [IsEvent, hsame, ← he]
        exact hpiece.2
      rw [blockEvents, toEvent_of_isEvent hevent, hsame, he, hid, hretry]
      rfl
  · -- two pieces are events
    have hlength := length_cutEvents block
    rw [hloud] at hlength
    refine iff_of_false (fun h => ?_) (fun h => ?_)
    · have hone : (blockEvents block).length ≤ 1 := by
        rw [blockEvents]
        cases (readLines (block.map Prod.fst)).toEvent with
        | none => exact Nat.zero_le 1
        | some event => exact Nat.le_refl 1
      rw [h] at hlength
      simp only [List.length_cons] at hlength
      omega
    · have := h.1
      rw [hloud] at this
      simp at this

/-- **Cuts of a stream.**  A stream decodes to the same events in chunks as in one exactly when
each of its blocks is whole. -/
theorem survivesCuts_iff (chunks : List (List Char)) :
    SseDecoder.decode chunks = SseDecoder.decode [chunks.flatten] ↔
      ∀ block ∈ streamBlocks chunks, Whole block := by
  have hcut : SseDecoder.decode chunks = (streamBlocks chunks).flatMap cutEvents := by
    obtain ⟨first, rest, later, hblocks, hpieces, hread⟩ :=
      @exists_pieces SseEvent (fun lines => (readLines lines).toEvent) rfl (streamLines chunks)
    have hall : (streamBlocks chunks).flatMap cutEvents =
        ((streamBlocks chunks).flatMap pieces).filterMap fun lines => (readLines lines).toEvent :=
      (List.filterMap_flatMap ..).symm
    rw [SseDecoder.decode_eq, eventsOf, Blocks.blocks, splitOn_flatMap_normalize, hblocks, hall]
    rw [streamBlocks, hpieces, List.filterMap_cons, List.filterMap_cons, hread]
  have hwhole : SseDecoder.decode [chunks.flatten] = (streamBlocks chunks).flatMap blockEvents := by
    have hchars : (chunks.flatMap markLast).map Prod.fst = chunks.flatten := by
      rw [List.map_flatMap]
      simp only [map_fst_markLast]
      exact List.flatMap_id'
    have hlines : (streamLines chunks).map Prod.fst = (normalize chunks.flatten).splitOn '\n' := by
      rw [streamLines, map_fst_markedLines, hchars]
    rw [SseDecoder.decode_eq, List.flatMap_singleton, eventsOf, Blocks.blocks, ← hlines,
      ← splitOnP_map_fst, List.filterMap_map]
    exact List.filterMap_eq_flatMap_toList ..
  rw [hcut, hwhole, flatMap_eq_iff fun block _ => length_blockEvents_le block]
  exact forall_congr' fun block => imp_congr_right fun _ => cutEvents_eq_iff block

/-- An event name, its `\r\n` cut in the middle, and the data behind it. -/
def cutReturnFeed : List (List Char) :=
  ["event: a\r".toList, "\ndata: b\r\n\r\n".toList]

/-- A stream may decode to two events in chunks and to one as a whole. -/
theorem cutReturnFeed_splits :
    ¬ ∀ chunks, SseDecoder.decode chunks = SseDecoder.decode [chunks.flatten] := by
  intro h
  have hcut := h cutReturnFeed
  rw [SseDecoder.decode_eq, SseDecoder.decode_eq] at hcut
  exact absurd hcut (by decide)

end Ts
end MppSdk
