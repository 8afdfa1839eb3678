import MppSdk.TsTypes
import MppSdk.Blocks

/-! # The TypeScript decoder of server-sent events

`SseDecoder` of `HttpStream.ts` joins the text that is pushed to its buffer, makes every line
end a line feed and parses each block in front of two line feeds.  So a stream decodes to the
events of its blocks (`decode_eq`), but of the text whose line ends were made line feeds
chunk by chunk: a `\r\n` cut in the middle becomes two line ends, and the second ends the
block.  `survivesCuts_iff` says which cuts do no harm.  Texts are lists of characters. -/

namespace MppSdk
namespace Ts

/-- A raw server-sent event. -/
structure SseEvent where
  data : List Char
  event : Option (List Char)
  id : Option (List Char)
  retry : Option Int
deriving DecidableEq

/-- `Number.parseInt(value, 10)`, where it is a finite number. -/
def parseInt (value : List Char) : Option Int :=
  let text := value.dropWhile isWhiteSpace
  let digits := (match text with
    | '-' :: cs => cs
    | '+' :: cs => cs
    | cs => cs).takeWhile Char.isDigit
  let number := toDouble (Nat.ofDigitChars 10 digits 0)
  if digits = [] ∨ 2 ^ 1024 ≤ number then none
  else some (if text.head? = some '-' then -number else number)

/-- What `parseSseEventBlock` has read of a block; `retry` may be read and not be finite. -/
structure SseFields where
  data : List (List Char) := []
  event : Option (List Char) := none
  id : Option (List Char) := none
  retry : Option (Option Int) := none

def trimOneLeadingSpace (value : List Char) : List Char :=
  if value.head? = some ' ' then value.tail else value

/-- The field and the value of a line. -/
def fieldOf (line : List Char) : List Char × List Char :=
  match line.dropWhile (· ≠ ':') with
  | [] => (line, [])
  | _ :: value => (line.takeWhile (· ≠ ':'), trimOneLeadingSpace value)

namespace SseFields

/-- The `switch` on the name of a field. -/
def setField (fields : SseFields) (field value : List Char) : SseFields :=
  if field = "data".toList then { fields with data := fields.data ++ [value] }
  else if field = "event".toList then { fields with event := some value }
  else if field = "id".toList then { fields with id := some value }
  else if field = "retry".toList then { fields with retry := some (parseInt value) }
  else fields

/-- The body of the loop over the lines of a block. -/
def readLine (fields : SseFields) (line : List Char) : SseFields :=
  if line = [] ∨ line.head? = some ':' then fields
  else fields.setField (fieldOf line).1 (fieldOf line).2

/-- The event of a block, if there is one. -/
def toEvent (fields : SseFields) : Option SseEvent :=
  if fields.data = [] ∧ fields.event.all (· = []) then none
  else some { data := ['\n'].intercalate fields.data, event := fields.event, id := fields.id,
              retry := fields.retry.join }

end SseFields

/-- The loop over the lines of a block. -/
def readLines (lines : List (List Char)) : SseFields := lines.foldl SseFields.readLine {}

def parseSseEventBlock (block : List Char) : Option SseEvent :=
  (readLines (block.splitOn '\n')).toEvent

/-- `replace(/\r\n/g, '\n')`. -/
def replaceReturnFeeds : List Char → List Char
  | '\r' :: '\n' :: cs => '\n' :: replaceReturnFeeds cs
  | c :: cs => c :: replaceReturnFeeds cs
  | [] => []

/-- The line ends of a text made line feeds. -/
def normalize (text : List Char) : List Char :=
  (replaceReturnFeeds text).map fun c => if c = '\r' then '\n' else c

namespace SseDecoder

/-- The loop of `drainCompleteEvents`: the events of the complete blocks and what is behind
them. -/
def drainBlocks (buffer : List Char) : List SseEvent × List Char :=
  match _hblock : Blocks.boundary '\n' buffer with
  | none => ([], buffer)
  | some (block, rest) =>
    let later := drainBlocks rest
    ((parseSseEventBlock block).toList ++ later.1, later.2)
termination_by buffer.length
decreasing_by
  rw [(Blocks.boundary_eq_some _hblock).1, List.length_append]
  simp only [List.length_cons]
  omega

def drainCompleteEvents (buffer : List Char) : List SseEvent × List Char :=
  drainBlocks (normalize buffer)

/-- `pushChunk` of a text; the decoder is its buffer. -/
def pushChunk (buffer chunk : List Char) : List SseEvent × List Char :=
  drainCompleteEvents (buffer ++ chunk)

def finish (buffer : List Char) : List SseEvent :=
  let drained := drainCompleteEvents buffer
  if trimMatches isWhiteSpace drained.2 = [] then drained.1
  else drained.1 ++ (parseSseEventBlock drained.2).toList

/-- The events of the chunks, one after the other, and of the rest. -/
def decodeFrom (buffer : List Char) : List (List Char) → List SseEvent
  | [] => finish buffer
  | chunk :: chunks =>
    let pushed := pushChunk buffer chunk
    pushed.1 ++ decodeFrom pushed.2 chunks

/-- The events of a stream that arrives in these chunks. -/
def decode (chunks : List (List Char)) : List SseEvent := decodeFrom [] chunks

end SseDecoder

/-! ## Fields -/

namespace SseFields

/-- Fields read after others. -/
def append (before after : SseFields) : SseFields where
  data := before.data ++ after.data
  event := after.event.or before.event
  id := after.id.or before.id
  retry := after.retry.or before.retry

theorem setField_eq (fields : SseFields) (field value : List Char) :
    fields.setField field value = fields.append (({} : SseFields).setField field value) := by
  unfold setField
  split_ifs <;> simp [append]

theorem readLine_eq (fields : SseFields) (line : List Char) :
    fields.readLine line = fields.append (({} : SseFields).readLine line) := by
  unfold readLine
  split_ifs
  · simp [append]
  · exact setField_eq fields _ _

theorem append_assoc (a b c : SseFields) : (a.append b).append c = a.append (b.append c) := by
  simp [append, List.append_assoc, Option.or_assoc]

theorem foldl_readLine (lines : List (List Char)) : ∀ fields : SseFields,
    lines.foldl readLine fields = fields.append (readLines lines) := by
  induction lines with
  | nil =>
    intro fields
    simp [readLines, append]
  | cons line lines ih =>
    intro fields
    rw [readLines, List.foldl_cons, List.foldl_cons, ih, ih, readLine_eq fields, append_assoc]

end SseFields

theorem readLines_append (before after : List (List Char)) :
    readLines (before ++ after) = (readLines before).append (readLines after) := by
  rw [readLines, List.foldl_append, SseFields.foldl_readLine]
  rfl

theorem readLines_cons (line : List Char) (lines : List (List Char)) :
    readLines (line :: lines) = (({} : SseFields).readLine line).append (readLines lines) :=
  SseFields.foldl_readLine lines _

/-- Empty lines of a block are skipped. -/
theorem readLines_filter (lines : List (List Char)) :
    readLines lines = readLines (lines.filter (· ≠ [])) := by
  induction lines with
  | nil => rfl
  | cons line lines ih =>
    by_cases hline : line = []
    · subst hline
      rw [List.filter_cons_of_neg (by simp), ← ih, readLines_cons]
      simp [SseFields.readLine, SseFields.append]
    · rw [List.filter_cons_of_pos (by simpa using hline), readLines_cons, readLines_cons, ih]

/-- Lines of white space set no field. -/
theorem readLines_of_blank {lines : List (List Char)}
    (h : ∀ line ∈ lines, ∀ c ∈ line, isWhiteSpace c = true) : readLines lines = {} := by
  induction lines with
  | nil => rfl
  | cons line lines ih =>
    obtain ⟨hline, hlines⟩ := List.forall_mem_cons.mp h
    have hcolon : ':' ∉ line := fun hmem => absurd (hline ':' hmem) (by decide)
    have hfield : fieldOf line = (line, []) := by
      have hdrop : line.dropWhile (· ≠ ':') = [] := by
        rw [List.dropWhile_eq_nil_iff]
        exact fun c hc => decide_eq_true fun he => hcolon (he ▸ hc)
      rw [fieldOf, hdrop]
    have hname : ∀ name : List Char, name.all isWhiteSpace = false → line ≠ name := by
      rintro name hall rfl
      exact Bool.false_ne_true (hall.symm.trans (List.all_eq_true.mpr hline))
    have hskip : ({} : SseFields).readLine line = {} := by
      unfold SseFields.readLine
      split_ifs with hempty
      · rfl
      · rw [hfield]
        show ({} : SseFields).setField line [] = {}
        rw [SseFields.setField, if_neg (hname "data".toList (by decide)),
          if_neg (hname "event".toList (by decide)), if_neg (hname "id".toList (by decide)),
          if_neg (hname "retry".toList (by decide))]
    rw [readLines_cons, hskip, ih hlines]
    rfl

/-! ## The events of a text -/

theorem not_mem_normalize (text : List Char) : '\r' ∉ normalize text := by
  intro h
  obtain ⟨c, -, hc⟩ := List.mem_map.mp h
  split at hc
  · exact absurd hc (by decide)
  · exact absurd hc ‹_›

/-- Text without a carriage return is left alone, and no pair starts in it. -/
theorem normalize_append {before : List Char} (h : '\r' ∉ before) (after : List Char) :
    normalize (before ++ after) = before ++ normalize after := by
  induction before with
  | nil => rfl
  | cons c before ih =>
    obtain ⟨hc, hbefore⟩ := not_or.mp fun hmem => h (List.mem_cons.mpr hmem)
    have hreplace : replaceReturnFeeds (c :: (before ++ after)) =
        c :: replaceReturnFeeds (before ++ after) := by
      rw [replaceReturnFeeds]
      rintro cs rfl
      exact absurd rfl hc
    rw [List.cons_append, normalize, hreplace, List.map_cons, if_neg (Ne.symm hc), List.cons_append]
    exact congrArg _ (ih hbefore)

/-- The events of the blocks of a text. -/
def eventsOf (text : List Char) : List SseEvent :=
  (Blocks.blocks '\n' text).filterMap fun lines => (readLines lines).toEvent

theorem eventsOf_single {text : List Char} (h : Blocks.Single '\n' text) :
    eventsOf text = (parseSseEventBlock text).toList :=
  Blocks.filterMap_blocks (fun lines => by rw [← readLines_filter]) rfl h

namespace SseDecoder

/-- **Complete blocks.**  What is drained of a text are its first events; the others are
those of what is kept and what follows. -/
theorem drainBlocks_spec (text : List Char) :
    (∃ before, text = before ++ (drainBlocks text).2) ∧
      Blocks.Single '\n' (drainBlocks text).2 ∧
      ∀ more, eventsOf (text ++ more) = (drainBlocks text).1 ++ eventsOf ((drainBlocks text).2 ++ more) := by
  fun_induction drainBlocks text with
  | case1 buffer hnone => exact ⟨⟨[], rfl⟩, Blocks.boundary_eq_none hnone, fun more => rfl⟩
  | case2 buffer block rest hsome later ih =>
    obtain ⟨rfl, hsingle⟩ := Blocks.boundary_eq_some hsome
    obtain ⟨⟨before, hrest⟩, hlast, hevents⟩ := ih
    refine ⟨⟨block ++ '\n' :: '\n' :: before, ?_⟩, hlast, fun more => ?_⟩
    · rw [List.append_assoc, List.cons_append, List.cons_append, ← hrest]
    · have hsplit : eventsOf (block ++ '\n' :: '\n' :: (rest ++ more)) =
          eventsOf block ++ eventsOf (rest ++ more) := by
        rw [eventsOf, Blocks.blocks_append, List.filterMap_append]
        rfl
      rw [List.append_assoc, List.cons_append, List.cons_append, hsplit, eventsOf_single hsingle,
        hevents more, List.append_assoc]

/-- White space holds no event, so the test before the rest is parsed saves only the parsing. -/
theorem parseSseEventBlock_of_blank {text : List Char} (h : trimMatches isWhiteSpace text = []) :
    parseSseEventBlock text = none := by
  have hlines : ∀ line ∈ text.splitOn '\n', ∀ c ∈ line, isWhiteSpace c = true :=
    fun line hline c hc => forall_of_trimMatches h c (Blocks.mem_of_mem_splitOn hc hline)
  rw [parseSseEventBlock, readLines_of_blank hlines]
  rfl

theorem finish_eq {buffer : List Char} (h : '\r' ∉ buffer) : finish buffer = eventsOf buffer := by
  have hnormal : normalize buffer = buffer := by
    have happend := normalize_append h []
    rw [List.append_nil] at happend
    exact happend.trans (List.append_nil buffer)
  obtain ⟨-, hsingle, hevents⟩ := drainBlocks_spec buffer
  have hrest := hevents []
  rw [List.append_nil, List.append_nil, eventsOf_single hsingle] at hrest
  rw [finish, drainCompleteEvents, hnormal, hrest]
  split_ifs with hblank
  · rw [parseSseEventBlock_of_blank hblank, Option.toList_none, List.append_nil]
  · rfl

theorem decodeFrom_eq (chunks : List (List Char)) : ∀ {buffer : List Char}, '\r' ∉ buffer →
    decodeFrom buffer chunks = eventsOf (buffer ++ chunks.flatMap normalize) := by
  induction chunks with
  | nil =>
    intro buffer h
    rw [List.flatMap_nil, List.append_nil]
    exact finish_eq h
  | cons chunk chunks ih =>
    intro buffer h
    have hpushed : pushChunk buffer chunk = drainBlocks (buffer ++ normalize chunk) := by
      rw [pushChunk, drainCompleteEvents, normalize_append h]
    obtain ⟨⟨before, hbefore⟩, -, hevents⟩ := drainBlocks_spec (buffer ++ normalize chunk)
    have hkept : '\r' ∉ (drainBlocks (buffer ++ normalize chunk)).2 := by
      intro hmem
      have htext : '\r' ∈ buffer ++ normalize chunk :=
        hbefore ▸ List.mem_append_right before hmem
      exact (List.mem_append.mp htext).elim h (not_mem_normalize chunk)
    rw [decodeFrom, hpushed, ih hkept, ← hevents, List.flatMap_cons, List.append_assoc]

/-- A stream decodes to the events of its chunks with their line ends made line feeds. -/
theorem decode_eq (chunks : List (List Char)) :
    decode chunks = eventsOf (chunks.flatMap normalize) :=
  decodeFrom_eq chunks (fun hmem => nomatch hmem)

end SseDecoder

end Ts
end MppSdk
