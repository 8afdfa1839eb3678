import MppSdk.HttpStream
import MppSdk.TsHttpStream

/-! # The two decoders of server-sent events

Both decoders read a block field by field, and the last event name, id and retry time win.
They join the data lines differently: the Rust decoder puts a line feed in front of a value
only if there is data already, and it takes a block for no event if it has neither data nor an
event name, an id or a retry time.  `decodersAgree_iff` says on which streams the events are
the same. -/

namespace MppSdk

/-- The fields of the lines of a block, with their values. -/
def fieldsOf (lines : List (List Char)) : List (List Char × List Char) :=
  lines.filterMap fun line =>
    if line = [] ∨ line.head? = some ':' then none else some (Ts.fieldOf line)

/-- The values of the fields of this name. -/
def fieldValues (name : List Char) (fields : List (List Char × List Char)) : List (List Char) :=
  fields.filterMap fun field => if field.1 = name then some field.2 else none

theorem fieldValues_cons_self (name value : List Char) (fields : List (List Char × List Char)) :
    fieldValues name ((name, value) :: fields) = value :: fieldValues name fields := by
  simp [fieldValues]

theorem fieldValues_cons_of_ne {name field : List Char} (h : field ≠ name) (value : List Char)
    (fields : List (List Char × List Char)) :
    fieldValues name ((field, value) :: fields) = fieldValues name fields := by
  simp [fieldValues, h]

theorem getLast?_cons_or {α : Type} (a : α) (as : List α) (b : Option α) :
    (a :: as).getLast?.or b = as.getLast?.or (some a) := by
  rw [List.getLast?_cons]
  cases as.getLast? <;> rfl

theorem splitField_eq (line : List Char) : PartialSseEvent.splitField line = Ts.fieldOf line := by
  unfold PartialSseEvent.splitField Ts.fieldOf Ts.trimOneLeadingSpace
  cases line.dropWhile (· ≠ ':') with
  | nil => rfl
  | cons colon value =>
    cases value with
    | nil => rfl
    | cons c value =>
      by_cases hc : c = ' '
      · subst hc
        rfl
      · simp [hc]

/-! ## Blocks in Rust -/

namespace PartialSseEvent

/-- A line of a block. -/
def readLine (current : PartialSseEvent) (line : List Char) : PartialSseEvent :=
  if line = [] ∨ line.head? = some ':' then current
  else current.setField (splitField line).1 (splitField line).2

theorem processLine_of_ne {line : List Char} (h : line ≠ []) (current : PartialSseEvent) :
    current.processLine line = (none, current.readLine line) := by
  unfold processLine readLine
  rw [if_neg h]
  split_ifs <;> simp_all

/-- Whatever is dispatched, nothing is kept. -/
theorem dispatchCurrent_snd (current : PartialSseEvent) : current.dispatchCurrent.2 = {} := by
  unfold dispatchCurrent
  split_ifs with h
  · obtain ⟨event, data, id, retry⟩ := current
    obtain ⟨hevent, rfl, hid, hretry⟩ := h
    simp_all [Option.isNone_iff_eq_none]
  · rfl

/-- A value joined to the data. -/
def joinData (data value : List Char) : List Char :=
  (if data = [] then [] else data ++ ['\n']) ++ value

/-- What fields make of what was read before: the last value of each, and all data. -/
theorem foldl_setField (fields : List (List Char × List Char)) : ∀ current : PartialSseEvent,
    fields.foldl (fun current field => current.setField field.1 field.2) current =
      { event := (fieldValues "event".toList fields).getLast?.or current.event
        data := (fieldValues "data".toList fields).foldl joinData current.data
        id := (fieldValues "id".toList fields).getLast?.or current.id
        retry := ((fieldValues "retry".toList fields).getLast?.map fun value =>
          parseU64 (String.ofList value)).getD current.retry } := by
  induction fields with
  | nil => exact fun current => rfl
  | cons field fields ih =>
    intro current
    obtain ⟨name, value⟩ := field
    rw [List.foldl_cons, ih]
    unfold setField
    dsimp only
    by_cases hevent : name = "event".toList
    · subst hevent
      rw [if_pos rfl, fieldValues_cons_self, fieldValues_cons_of_ne (by decide),
        fieldValues_cons_of_ne (by decide), fieldValues_cons_of_ne (by decide), getLast?_cons_or]
    by_cases hdata : name = "data".toList
    · subst hdata
      rw [if_neg (by decide), if_pos rfl, fieldValues_cons_self, fieldValues_cons_of_ne (by decide),
        fieldValues_cons_of_ne (by decide), fieldValues_cons_of_ne (by decide)]
      rfl
    by_cases hid : name = "id".toList
    · subst hid
      rw [if_neg (by decide), if_neg (by decide), if_pos rfl, fieldValues_cons_self,
        fieldValues_cons_of_ne (by decide), fieldValues_cons_of_ne (by decide),
        fieldValues_cons_of_ne (by decide), getLast?_cons_or]
    by_cases hretry : name = "retry".toList
    · subst hretry
      rw [if_neg (by decide), if_neg (by decide), if_neg (by decide), if_pos rfl,
        fieldValues_cons_self, fieldValues_cons_of_ne (by decide),
        fieldValues_cons_of_ne (by decide), fieldValues_cons_of_ne (by decide), List.getLast?_cons]
      cases (fieldValues "retry".toList fields).getLast? <;> rfl
    rw [if_neg hevent, if_neg hdata, if_neg hid, if_neg hretry, fieldValues_cons_of_ne hevent,
      fieldValues_cons_of_ne hdata, fieldValues_cons_of_ne hid, fieldValues_cons_of_ne hretry]

theorem foldl_readLine (lines : List (List Char)) (current : PartialSseEvent) :
    lines.foldl readLine current =
      (fieldsOf lines).foldl (fun current field => current.setField field.1 field.2) current := by
  rw [fieldsOf, List.foldl_filterMap]
  congr 1
  funext current line
  unfold readLine
  rw [splitField_eq]
  split_ifs <;> rfl

end PartialSseEvent

/-- The event that the Rust decoder makes of the lines of a block. -/
def rustEvents (lines : List (List Char)) : List SseEvent :=
  (lines.foldl PartialSseEvent.readLine {}).dispatchCurrent.1.toList

namespace SseDecoder

/-- The events of complete lines, one line after the other, and of what is kept at the end. -/
def feed (current : PartialSseEvent) : List (List Char) → List SseEvent
  | [] => current.dispatchCurrent.1.toList
  | line :: lines =>
    (current.processLine line).1.toList ++ feed (current.processLine line).2 lines

theorem feed_eq (lines : List (List Char)) : ∀ current : PartialSseEvent,
    ∃ first rest, Blocks.ofLines lines = first :: rest ∧
      feed current lines =
        (first.foldl PartialSseEvent.readLine current).dispatchCurrent.1.toList ++
          rest.flatMap rustEvents := by
  induction lines with
  | nil => exact fun current => ⟨[], [], rfl, (List.append_nil _).symm⟩
  | cons line lines ih =>
    intro current
    by_cases hline : line = []
    · subst hline
      obtain ⟨first, rest, hblocks, hfeed⟩ := ih {}
      refine ⟨[], first :: rest, by rw [Blocks.ofLines_nil_cons, hblocks], ?_⟩
      have hprocess : current.processLine [] = current.dispatchCurrent := rfl
      rw [feed, hprocess, current.dispatchCurrent_snd, hfeed]
      rfl
    · obtain ⟨first, rest, hblocks, hfeed⟩ := ih (current.readLine line)
      refine ⟨line :: first, rest, by rw [Blocks.ofLines_cons_of_ne hline, hblocks]; rfl, ?_⟩
      rw [feed, PartialSseEvent.processLine_of_ne hline, hfeed]
      rfl

theorem feed_eq_flatMap (lines : List (List Char)) :
    feed {} lines = (Blocks.ofLines lines).flatMap rustEvents := by
  obtain ⟨first, rest, hblocks, hfeed⟩ := feed_eq lines {}
  rw [hfeed, hblocks]
  rfl

/-- Complete lines without a carriage return are fed one after the other. -/
theorem drainLines_feed {lines : List (List Char)} (h : ∀ line ∈ lines, '\n' ∉ line ∧ '\r' ∉ line) :
    ∀ current : PartialSseEvent,
      (drainLines current (lines.flatMap (· ++ ['\n']))).1 ++
          (drainLines current (lines.flatMap (· ++ ['\n']))).2.finish.1 =
        feed current lines := by
  induction lines with
  | nil =>
    intro current
    show (drainLines current []).1 ++ (drainLines current []).2.finish.1 = _
    rw [drainLines_of_not_mem (by simp)]
    rfl
  | cons line lines ih =>
    intro current
    obtain ⟨⟨hfeed, hreturn⟩, hlines⟩ := List.forall_mem_cons.mp h
    have htext : (line :: lines).flatMap (· ++ ['\n']) =
        line ++ '\n' :: lines.flatMap (· ++ ['\n']) := by
      rw [List.flatMap_cons, List.append_assoc, List.singleton_append]
    have hpop : popReturn line = line :=
      if_neg fun hlast => hreturn (List.mem_of_getLast? hlast)
    rw [htext, drainLines_line hfeed, hpop, List.append_assoc]
    exact congrArg _ (ih hlines _)

/-- **Blocks in Rust.**  A stream of such lines decodes to the events of its blocks. -/
theorem decode_lines {lines : List (List Char)} (h : ∀ line ∈ lines, '\n' ∉ line ∧ '\r' ∉ line) :
    decode [(String.ofList (lines.flatMap (· ++ ['\n']))).toByteArray] =
      .ok ((Blocks.ofLines lines).flatMap rustEvents) := by
  have hdecode := decode_texts [String.ofList (lines.flatMap (· ++ ['\n']))]
  rw [List.map_singleton, List.flatMap_singleton, String.toList_ofList] at hdecode
  rw [hdecode, ← feed_eq_flatMap]
  exact congrArg _ (drainLines_feed h {})

end SseDecoder

/-! ## Blocks in TypeScript -/

namespace Ts

theorem SseFields.foldl_setField (fields : List (List Char × List Char)) : ∀ read : SseFields,
    fields.foldl (fun read field => read.setField field.1 field.2) read =
      { data := read.data ++ fieldValues "data".toList fields
        event := (fieldValues "event".toList fields).getLast?.or read.event
        id := (fieldValues "id".toList fields).getLast?.or read.id
        retry := ((fieldValues "retry".toList fields).getLast?.map parseInt).or read.retry } := by
  induction fields with
  | nil =>
    intro read
    simp [fieldValues]
  | cons field fields ih =>
    intro read
    obtain ⟨name, value⟩ := field
    rw [List.foldl_cons, ih]
    unfold setField
    dsimp only
    by_cases hdata : name = "data".toList
    · subst hdata
      rw [if_pos rfl, fieldValues_cons_self, fieldValues_cons_of_ne (by decide),
        fieldValues_cons_of_ne (by decide), fieldValues_cons_of_ne (by decide)]
      dsimp only
      rw [List.append_assoc, List.singleton_append]
    by_cases hevent : name = "event".toList
    · subst hevent
      rw [if_neg (by decide), if_pos rfl, fieldValues_cons_self, fieldValues_cons_of_ne (by decide),
        fieldValues_cons_of_ne (by decide), fieldValues_cons_of_ne (by decide), getLast?_cons_or]
    by_cases hid : name = "id".toList
    · subst hid
      rw [if_neg (by decide), if_neg (by decide), if_pos rfl, fieldValues_cons_self,
        fieldValues_cons_of_ne (by decide), fieldValues_cons_of_ne (by decide),
        fieldValues_cons_of_ne (by decide), getLast?_cons_or]
    by_cases hretry : name = "retry".toList
    · subst hretry
      rw [if_neg (by decide), if_neg (by decide), if_neg (by decide), if_pos rfl,
        fieldValues_cons_self, fieldValues_cons_of_ne (by decide),
        fieldValues_cons_of_ne (by decide), fieldValues_cons_of_ne (by decide), List.getLast?_cons]
      cases (fieldValues "retry".toList fields).getLast? <;> rfl
    rw [if_neg hdata, if_neg hevent, if_neg hid, if_neg hretry, fieldValues_cons_of_ne hdata,
      fieldValues_cons_of_ne hevent, fieldValues_cons_of_ne hid, fieldValues_cons_of_ne hretry]

theorem readLines_eq_foldl (lines : List (List Char)) :
    readLines lines =
      (fieldsOf lines).foldl (fun read field => read.setField field.1 field.2) {} := by
  rw [readLines, fieldsOf, List.foldl_filterMap]
  congr 1
  funext read line
  unfold SseFields.readLine
  split_ifs <;> rfl

/-- **Blocks in TypeScript.**  A stream of such lines decodes to the events of its blocks. -/
theorem SseDecoder.decode_lines {lines : List (List Char)}
    (h : ∀ line ∈ lines, '\n' ∉ line ∧ '\r' ∉ line) :
    decode [lines.flatMap (· ++ ['\n'])] =
      (Blocks.ofLines lines).flatMap fun block => (readLines block).toEvent.toList := by
  have hreturn : '\r' ∉ lines.flatMap (· ++ ['\n']) := by
    intro hmem
    obtain ⟨line, hline, hmem⟩ := List.mem_flatMap.mp hmem
    rcases List.mem_append.mp hmem with hmem | hmem
    · exact (h line hline).2 hmem
    · exact absurd (List.mem_singleton.mp hmem) (by decide)
  have hnormal : normalize (lines.flatMap (· ++ ['\n'])) = lines.flatMap (· ++ ['\n']) := by
    have happend := normalize_append hreturn []
    rw [List.append_nil] at happend
    exact happend.trans (List.append_nil _)
  have hblocks : Blocks.ofLines (lines ++ [[]]) = Blocks.ofLines lines ++ [[]] :=
    Blocks.ofLines_append lines []
  rw [decode_eq, List.flatMap_singleton, hnormal, eventsOf, Blocks.blocks,
    Blocks.splitOn_flatMap fun line hline => (h line hline).1, hblocks, List.filterMap_append]
  exact (List.append_nil _).trans (List.filterMap_eq_flatMap_toList ..)

end Ts

/-! ## Agreement -/

section Agreement
open PartialSseEvent

theorem joinData_of_ne {data : List Char} (h : data ≠ []) (value : List Char) :
    joinData data value = data ++ '\n' :: value := by
  rw [joinData, if_neg h, List.append_assoc, List.singleton_append]

/-- Behind data every value is joined as in TypeScript. -/
theorem foldl_joinData_of_ne {data : List Char} (h : data ≠ []) (values : List (List Char)) :
    values.foldl joinData data = ['\n'].intercalate (data :: values) := by
  induction values generalizing data with
  | nil => simp [List.intercalate]
  | cons value values ih =>
    rw [List.foldl_cons, joinData_of_ne h, ih (by simp)]
    cases values <;> simp [List.intercalate]

/-- Only empty values make no data. -/
theorem foldl_joinData_eq_nil {value : List Char} {values : List (List Char)}
    (h : (value :: values).foldl joinData [] = []) : value = [] := by
  by_contra hvalue
  have hjoin : (value :: values).foldl joinData [] = ['\n'].intercalate (value :: values) :=
    foldl_joinData_of_ne hvalue values
  rw [hjoin] at h
  cases values with
  | nil => exact hvalue (by simpa using h)
  | cons next values =>
    rw [List.intercalate_cons_cons] at h
    simp at h

theorem length_foldl_joinData_le (values : List (List Char)) :
    (values.foldl joinData []).length ≤ (['\n'].intercalate values).length := by
  induction values with
  | nil => exact Nat.le_refl 0
  | cons value values ih =>
    by_cases hvalue : value = []
    · subst hvalue
      refine ih.trans ?_
      cases values with
      | nil => exact Nat.le_refl 0
      | cons next values =>
        rw [List.intercalate_cons_cons, List.nil_append, List.length_append]
        exact Nat.le_add_left ..
    · have hfirst : (value :: values).foldl joinData [] = ['\n'].intercalate (value :: values) :=
        foldl_joinData_of_ne hvalue values
      rw [hfirst]

/-- Values are joined alike exactly when the first is not empty, or the only one. -/
theorem foldl_joinData_eq_iff (value : List Char) (values : List (List Char)) :
    (value :: values).foldl joinData [] = ['\n'].intercalate (value :: values) ↔
      value ≠ [] ∨ values = [] := by
  by_cases hvalue : value = []
  · subst hvalue
    cases values with
    | nil => exact iff_of_true rfl (Or.inr rfl)
    | cons next values =>
      refine iff_of_false (fun h => ?_) (by simp)
      have hle := length_foldl_joinData_le (next :: values)
      have hlength := congrArg List.length h
      rw [List.intercalate_cons_cons, List.nil_append, List.length_append] at hlength
      exact absurd hlength (Nat.ne_of_lt (Nat.lt_of_le_of_lt hle (by simp)))
  · exact iff_of_true (foldl_joinData_of_ne hvalue values) (Or.inl hvalue)

/-- What is compared of an event. -/
def SseEvent.triple (e : SseEvent) : Option (List Char) × Option (List Char) × List Char :=
  (e.event.map String.toList, e.id.map String.toList, e.data.toList)

def Ts.SseEvent.triple (e : Ts.SseEvent) : Option (List Char) × Option (List Char) × List Char :=
  (e.event, e.id, e.data)

theorem triple_dispatched (event id : Option (List Char)) (data : List Char)
    (retry : Option UInt64) :
    SseEvent.triple
        { event := event.map String.ofList
          data := String.ofList data
          id := id.map String.ofList
          retry := retry } = (event, id, data) := by
  cases event <;> cases id <;> simp [SseEvent.triple]

variable {block : List (List Char)}

/-- A block with an event name, an id or a retry time has a data field. -/
def HasData (block : List (List Char)) : Prop :=
  fieldValues "data".toList (fieldsOf block) = [] →
    fieldValues "event".toList (fieldsOf block) = [] ∧
      fieldValues "id".toList (fieldsOf block) = [] ∧
      fieldValues "retry".toList (fieldsOf block) = []

/-- The first data value of the block is not empty, or it is the only one and the block has an
event name, an id or, as its last retry time, an integer of 64 bits. -/
def KeepsData (block : List (List Char)) : Prop :=
  ∀ value values, fieldValues "data".toList (fieldsOf block) = value :: values →
    value ≠ [] ∨ values = [] ∧
      (fieldValues "event".toList (fieldsOf block) ≠ [] ∨
        fieldValues "id".toList (fieldsOf block) ≠ [] ∨
        ∃ retry ∈ (fieldValues "retry".toList (fieldsOf block)).getLast?,
          (parseU64 (String.ofList retry)).isSome)

theorem rustEvents_eq (block : List (List Char)) :
    rustEvents block = (PartialSseEvent.dispatchCurrent
      { event := (fieldValues "event".toList (fieldsOf block)).getLast?
        data := (fieldValues "data".toList (fieldsOf block)).foldl joinData []
        id := (fieldValues "id".toList (fieldsOf block)).getLast?
        retry := (fieldValues "retry".toList (fieldsOf block)).getLast?.bind fun value =>
          parseU64 (String.ofList value) }).1.toList := by
  rw [rustEvents, PartialSseEvent.foldl_readLine, foldl_setField, Option.or_none, Option.or_none]
  cases (fieldValues "retry".toList (fieldsOf block)).getLast? <;> rfl

/-- A block with a data field is an event in TypeScript. -/
theorem Ts.toEvent_eq {value : List Char} {values : List (List Char)}
    (h : fieldValues "data".toList (fieldsOf block) = value :: values) :
    (Ts.readLines block).toEvent.toList.map Ts.SseEvent.triple =
      [((fieldValues "event".toList (fieldsOf block)).getLast?,
        (fieldValues "id".toList (fieldsOf block)).getLast?,
        ['\n'].intercalate (value :: values))] := by
  rw [Ts.readLines_eq_foldl, Ts.SseFields.foldl_setField, h, Ts.SseFields.toEvent,
    if_neg (fun hnone => nomatch hnone.1), Option.or_none, Option.or_none]
  rfl

theorem events_of_no_data (hhas : HasData block)
    (h : fieldValues "data".toList (fieldsOf block) = []) :
    rustEvents block = [] ∧ (Ts.readLines block).toEvent = none := by
  obtain ⟨hevent, hid, hretry⟩ := hhas h
  constructor
  · rw [rustEvents_eq, h, hevent, hid, hretry]
    rfl
  · rw [Ts.readLines_eq_foldl, Ts.SseFields.foldl_setField, h, hevent, hid, hretry]
    rfl

/-- **A block.**  Both decoders make the same event of a block exactly when it keeps its data. -/
theorem triples_eq_iff (hhas : HasData block) :
    (Ts.readLines block).toEvent.toList.map Ts.SseEvent.triple =
        (rustEvents block).map SseEvent.triple ↔ KeepsData block := by
  cases hdata : fieldValues "data".toList (fieldsOf block) with
  | nil =>
    obtain ⟨hrust, hts⟩ := events_of_no_data hhas hdata
    rw [hrust, hts]
    exact iff_of_true rfl fun value values h => nomatch hdata.symm.trans h
  | cons value values =>
    have hkeeps : KeepsData block ↔ value ≠ [] ∨ values = [] ∧
        (fieldValues "event".toList (fieldsOf block) ≠ [] ∨
          fieldValues "id".toList (fieldsOf block) ≠ [] ∨
          ∃ retry ∈ (fieldValues "retry".toList (fieldsOf block)).getLast?,
            (parseU64 (String.ofList retry)).isSome) := by
      constructor
      · exact fun h => h value values hdata
      · intro h value' values' h'
        obtain ⟨rfl, rfl⟩ := List.cons.inj (hdata.symm.trans h')
        exact h
    rw [Ts.toEvent_eq hdata, rustEvents_eq, hdata, hkeeps, PartialSseEvent.dispatchCurrent]
    split_ifs with hnone
    · -- the Rust decoder takes the block for none
      obtain ⟨hevent, hjoined, hid, hretry⟩ := hnone
      refine iff_of_false (fun h => nomatch h) ?_
      rintro (hvalue | ⟨-, hfields | hfields | ⟨retry, hlast, hread⟩⟩)
      · exact hvalue (foldl_joinData_eq_nil hjoined)
      · exact hfields (List.getLast?_eq_none_iff.mp (Option.isNone_iff_eq_none.mp hevent))
      · exact hfields (List.getLast?_eq_none_iff.mp (Option.isNone_iff_eq_none.mp hid))
      · rw [Option.mem_def.mp hlast] at hretry
        have hunread : parseU64 (String.ofList retry) = none := Option.isNone_iff_eq_none.mp hretry
        rw [hunread] at hread
        cases hread
    · -- both make an event, of the values as each joins them
      rw [Option.toList_some, List.map_singleton, triple_dispatched]
      have hsame : ([((fieldValues "event".toList (fieldsOf block)).getLast?,
            (fieldValues "id".toList (fieldsOf block)).getLast?,
            ['\n'].intercalate (value :: values))] : List _) =
          [((fieldValues "event".toList (fieldsOf block)).getLast?,
            (fieldValues "id".toList (fieldsOf block)).getLast?,
            (value :: values).foldl joinData [])] ↔ value ≠ [] ∨ values = [] := by
        rw [← foldl_joinData_eq_iff]
        simp [eq_comm]
      refine hsame.trans (or_congr_right' fun hvalue => ⟨?_, fun h => h.1⟩)
      obtain rfl := not_not.mp hvalue
      rintro rfl
      refine ⟨rfl, ?_⟩
      by_contra hfields
      obtain ⟨hevent, hfields⟩ := not_or.mp hfields
      obtain ⟨hid, hretry⟩ := not_or.mp hfields
      refine hnone ⟨?_, rfl, ?_, ?_⟩
      · rw [not_not.mp hevent]
        rfl
      · rw [not_not.mp hid]
        rfl
      · cases hlast : (fieldValues "retry".toList (fieldsOf block)).getLast? with
        | none => rfl
        | some retry =>
          cases hread : parseU64 (String.ofList retry) with
          | none =>
            show (parseU64 (String.ofList retry)).isNone = true
            rw [hread]
            rfl
          | some number => exact absurd ⟨retry, hlast, by rw [hread]; rfl⟩ hretry

/-- **Agreement of the decoders.**  Of a stream of lines that each end in a line feed, in which
every event has a data field, both decoders make the same events, in the same order, exactly
when each of its blocks keeps its data. -/
theorem decodersAgree_iff {lines : List (List Char)}
    (hlines : ∀ line ∈ lines, '\n' ∉ line ∧ '\r' ∉ line)
    (hhas : ∀ block ∈ Blocks.ofLines lines, HasData block) :
    (∃ events, SseDecoder.decode [(String.ofList (lines.flatMap (· ++ ['\n']))).toByteArray] =
          .ok events ∧
        (Ts.SseDecoder.decode [lines.flatMap (· ++ ['\n'])]).map Ts.SseEvent.triple =
          events.map SseEvent.triple) ↔
      ∀ block ∈ Blocks.ofLines lines, KeepsData block := by
  have hle : ∀ block ∈ Blocks.ofLines lines, ((rustEvents block).map SseEvent.triple).length ≤
      ((Ts.readLines block).toEvent.toList.map Ts.SseEvent.triple).length := by
    intro block hblock
    rw [List.length_map]
    cases hdata : fieldValues "data".toList (fieldsOf block) with
    | nil =>
      rw [(events_of_no_data (hhas block hblock) hdata).1]
      exact Nat.zero_le _
    | cons value values =>
      rw [Ts.toEvent_eq hdata, rustEvents]
      cases (block.foldl PartialSseEvent.readLine {}).dispatchCurrent.1 with
      | none => exact Nat.zero_le _
      | some event => exact Nat.le_refl 1
  rw [SseDecoder.decode_lines hlines, Ts.SseDecoder.decode_lines hlines]
  simp only [Except.ok.injEq, exists_eq_left', List.map_flatMap]
  rw [flatMap_eq_iff hle]
  exact forall₂_congr fun block hblock => triples_eq_iff (hhas block hblock)

/-- An event with a name, a data line, one without a colon and an empty one. -/
def namedEvent : List (List Char) :=
  ["event: a".toList, "data: b".toList, "data".toList, "data:".toList, []]

theorem namedEvent_agrees :
    ∃ events, SseDecoder.decode [(String.ofList (namedEvent.flatMap (· ++ ['\n']))).toByteArray] =
        .ok events ∧
      (Ts.SseDecoder.decode [namedEvent.flatMap (· ++ ['\n'])]).map Ts.SseEvent.triple =
        events.map SseEvent.triple := by
  have hblocks : Blocks.ofLines namedEvent = [namedEvent.dropLast, []] := rfl
  have hdata : fieldValues "data".toList (fieldsOf namedEvent.dropLast) = ["b".toList, [], []] := rfl
  refine (decodersAgree_iff (by decide) ?_).mpr ?_
  · rw [hblocks]
    refine List.forall_mem_cons.mpr ⟨fun h => (nomatch hdata.symm.trans h), ?_⟩
    exact List.forall_mem_singleton.mpr fun _ => ⟨rfl, rfl, rfl⟩
  · rw [hblocks]
    refine List.forall_mem_cons.mpr ⟨fun value values h => ?_, ?_⟩
    · obtain ⟨rfl, -⟩ := List.cons.inj (hdata.symm.trans h)
      exact Or.inl (by decide)
    · exact List.forall_mem_singleton.mpr fun value values h => nomatch h

/-- A data line without a colon in front of another one. -/
def emptyFirst : List (List Char) := ["data".toList, "data: x".toList, []]

/-- The Rust decoder drops the empty value in front. -/
theorem emptyFirst_disagrees : ¬ ∀ lines : List (List Char),
    (∀ line ∈ lines, '\n' ∉ line ∧ '\r' ∉ line) →
    (∀ block ∈ Blocks.ofLines lines, HasData block) →
    ∃ events, SseDecoder.decode [(String.ofList (lines.flatMap (· ++ ['\n']))).toByteArray] =
        .ok events ∧
      (Ts.SseDecoder.decode [lines.flatMap (· ++ ['\n'])]).map Ts.SseEvent.triple =
        events.map SseEvent.triple := by
  intro h
  have hlines : ∀ line ∈ emptyFirst, '\n' ∉ line ∧ '\r' ∉ line := by decide
  have hblocks : Blocks.ofLines emptyFirst = [emptyFirst.dropLast, []] := rfl
  have hdata : fieldValues "data".toList (fieldsOf emptyFirst.dropLast) = [[], "x".toList] := rfl
  obtain ⟨events, hevents, htriples⟩ := h emptyFirst hlines (by
    rw [hblocks]
    refine List.forall_mem_cons.mpr ⟨fun h => (nomatch hdata.symm.trans h), ?_⟩
    exact List.forall_mem_singleton.mpr fun _ => ⟨rfl, rfl, rfl⟩)
  rw [SseDecoder.decode_lines hlines] at hevents
  obtain rfl := Except.ok.inj hevents
  rw [Ts.SseDecoder.decode_lines hlines] at htriples
  exact absurd htriples (by decide)

end Agreement

end MppSdk
