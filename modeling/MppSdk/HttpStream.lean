import MppSdk.MeteredStream
import MppSdk.Blocks

/-! # The Rust decoder of server-sent events

`SseDecoder` of the crate's HTTP streaming helpers: bytes are pushed chunk by chunk, complete
lines are processed and an unfinished one is kept.  The kept state is all a decoder remembers
of what it read, so a cut between two characters is never seen (`pushChunks_texts`).  Each
chunk is decoded on its own, though, and a cut inside a character is an error
(`decodesAlike_iff`).  Texts are lists of characters. -/

namespace MppSdk

/-- The fields read since the last event. -/
structure PartialSseEvent where
  event : Option (List Char) := none
  data : List Char := []
  id : Option (List Char) := none
  retry : Option UInt64 := none
deriving DecidableEq

structure SseDecoder where
  buffer : List Char := []
  current : PartialSseEvent := {}

namespace PartialSseEvent

/-- `dispatch_current`: the event, if there is one, and what is kept. -/
def dispatchCurrent (current : PartialSseEvent) : Option SseEvent × PartialSseEvent :=
  if current.event.isNone ∧ current.data = [] ∧ current.id.isNone ∧ current.retry.isNone then
    (none, current)
  else
    (some { event := current.event.map String.ofList, data := String.ofList current.data,
            id := current.id.map String.ofList, retry := current.retry }, {})

/-- `line.split_once(':')`, with one leading space of the value stripped. -/
def splitField (line : List Char) : List Char × List Char :=
  match line.dropWhile (· ≠ ':') with
  | _ :: ' ' :: value => (line.takeWhile (· ≠ ':'), value)
  | _ :: value => (line.takeWhile (· ≠ ':'), value)
  | [] => (line, [])

/-- The `match` on the name of a field. -/
def setField (current : PartialSseEvent) (field value : List Char) : PartialSseEvent :=
  if field = "event".toList then { current with event := some value }
  else if field = "data".toList then
    { current with
      data := (if current.data = [] then [] else current.data ++ ['\n']) ++ value }
  else if field = "id".toList then { current with id := some value }
  else if field = "retry".toList then { current with retry := parseU64 (String.ofList value) }
  else current

/-- `process_line`, which never fails. -/
def processLine (current : PartialSseEvent) (line : List Char) :
    Option SseEvent × PartialSseEvent :=
  if line = [] then current.dispatchCurrent
  else if line.head? = some ':' then (none, current)
  else (none, current.setField (splitField line).1 (splitField line).2)

end PartialSseEvent

/-- `line.ends_with('\r')` and `line.pop()`. -/
def popReturn (line : List Char) : List Char :=
  if line.getLast? = some '\r' then line.dropLast else line

namespace SseDecoder

/-- The loop of `push_chunk`: the events of the complete lines, and the decoder behind them. -/
def drainLines (current : PartialSseEvent) (buffer : List Char) : List SseEvent × SseDecoder :=
  match _hline : buffer.dropWhile (· ≠ '\n') with
  | [] => ([], { buffer, current })
  | _ :: rest =>
    let line := current.processLine (popReturn (buffer.takeWhile (· ≠ '\n')))
    let later := drainLines line.2 rest
    (line.1.toList ++ later.1, later.2)
termination_by buffer.length
decreasing_by
  have := (List.dropWhile_sublist (l := buffer) (· ≠ '\n')).length_le
  rw [_hline] at this
  exact this

/-- `push_chunk`.  The crate's text names the offending byte as well. -/
def pushChunk (d : SseDecoder) (chunk : ByteArray) :
    RustResult Error (List SseEvent × SseDecoder) := do
  let text ← okOrElse (String.fromUTF8? chunk) (.other "SSE chunk is not valid UTF-8")
  return drainLines d.current (d.buffer ++ text.toList)

/-- `finish`: an unfinished line is processed and what was read is dispatched. -/
def finish (d : SseDecoder) : List SseEvent × SseDecoder :=
  let line := if d.buffer = [] then (none, d.current)
    else d.current.processLine (d.buffer.reverse.dropWhile (· = '\r')).reverse
  let last := line.2.dispatchCurrent
  (line.1.toList ++ last.1.toList, { buffer := [], current := last.2 })

/-- Successive calls of `push_chunk`. -/
def pushChunks (d : SseDecoder) : List ByteArray → RustResult Error (List SseEvent × SseDecoder)
  | [] => .ok ([], d)
  | chunk :: chunks => do
      let now ← d.pushChunk chunk
      let later ← now.2.pushChunks chunks
      return (now.1 ++ later.1, later.2)

/-- The events of a stream that arrives in these chunks. -/
def decode (chunks : List ByteArray) : RustResult Error (List SseEvent) := do
  let pushed ← pushChunks {} chunks
  return pushed.1 ++ pushed.2.finish.1

/-! ## Lines -/

theorem drainLines_of_not_mem {current : PartialSseEvent} {buffer : List Char}
    (h : '\n' ∉ buffer) : drainLines current buffer = ([], { buffer, current }) := by
  have hline : buffer.dropWhile (· ≠ '\n') = [] := by
    rw [List.dropWhile_eq_nil_iff]
    intro c hc
    exact decide_eq_true fun he => h (he ▸ hc)
  unfold drainLines
  split
  · rfl
  · next heq => rw [hline] at heq; cases heq

/-- The first line is processed and the rest drained. -/
theorem drainLines_line {current : PartialSseEvent} {line rest : List Char} (h : '\n' ∉ line) :
    drainLines current (line ++ '\n' :: rest) =
      ((current.processLine (popReturn line)).1.toList ++
          (drainLines (current.processLine (popReturn line)).2 rest).1,
        (drainLines (current.processLine (popReturn line)).2 rest).2) := by
  have hall : ∀ c ∈ line, decide (c ≠ '\n') = true := by
    intro c hc
    exact decide_eq_true fun he => h (he ▸ hc)
  have hdrop : (line ++ '\n' :: rest).dropWhile (· ≠ '\n') = '\n' :: rest := by
    rw [List.dropWhile_append_of_pos hall]
    rfl
  have htake : (line ++ '\n' :: rest).takeWhile (· ≠ '\n') = line := by
    rw [List.takeWhile_append_of_pos hall]
    simp
  rw [drainLines]
  split
  · next heq => rw [hdrop] at heq; cases heq
  · next heq =>
    rw [hdrop] at heq
    obtain ⟨-, rfl⟩ := List.cons.inj heq
    rw [htake]

/-- A kept buffer holds no complete line. -/
theorem not_mem_buffer (current : PartialSseEvent) (text : List Char) :
    '\n' ∉ (drainLines current text).2.buffer := by
  by_cases hmem : '\n' ∈ text
  · obtain ⟨line, rest, rfl, hline⟩ := List.eq_append_cons_of_mem hmem
    rw [drainLines_line hline]
    exact not_mem_buffer _ rest
  · rw [drainLines_of_not_mem hmem]
    exact hmem
termination_by text.length
decreasing_by
  subst_vars
  simp only [List.length_append, List.length_cons]
  omega

/-- Draining a text and then what follows is draining both. -/
theorem drainLines_append (current : PartialSseEvent) (text more : List Char) :
    drainLines current (text ++ more) =
      let now := drainLines current text
      let later := drainLines now.2.current (now.2.buffer ++ more)
      (now.1 ++ later.1, later.2) := by
  by_cases hmem : '\n' ∈ text
  · obtain ⟨line, rest, rfl, hline⟩ := List.eq_append_cons_of_mem hmem
    rw [List.append_assoc, List.cons_append, drainLines_line hline, drainLines_line hline]
    rw [drainLines_append _ rest more]
    simp only [List.append_assoc]
  · rw [drainLines_of_not_mem hmem]
    rfl
termination_by text.length
decreasing_by
  subst_vars
  simp only [List.length_append, List.length_cons]
  omega

/-! ## Chunks -/

/-- The stream that arrives in these chunks. -/
def stream (chunks : List ByteArray) : ByteArray := chunks.foldr (· ++ ·) ByteArray.empty

theorem pushChunk_text (d : SseDecoder) (text : String) :
    d.pushChunk text.toByteArray = .ok (drainLines d.current (d.buffer ++ text.toList)) := by
  have htext : String.fromUTF8? text.toByteArray = some text := dif_pos text.isValidUTF8
  rw [pushChunk, htext]
  rfl

theorem isValidUTF8_of_pushChunk {d : SseDecoder} {chunk : ByteArray}
    {pushed : List SseEvent × SseDecoder} (h : d.pushChunk chunk = .ok pushed) :
    chunk.IsValidUTF8 := by
  obtain ⟨text, htext, -⟩ := bind_eq_ok.mp h
  by_contra hvalid
  rw [okOrElse_eq_ok, String.fromUTF8?, dif_neg hvalid] at htext
  cases htext

/-- **Chunks of whole characters.**  Pushing texts one after the other is draining them all. -/
theorem pushChunks_texts (texts : List String) : ∀ d : SseDecoder, '\n' ∉ d.buffer →
    d.pushChunks (texts.map String.toByteArray) =
      .ok (drainLines d.current (d.buffer ++ texts.flatMap String.toList)) := by
  induction texts with
  | nil =>
    intro d hd
    rw [List.flatMap_nil, List.append_nil, drainLines_of_not_mem hd]
    rfl
  | cons text texts ih =>
    intro d hd
    have hnow := not_mem_buffer d.current (d.buffer ++ text.toList)
    rw [List.map_cons, pushChunks, pushChunk_text, ok_bind, ih _ hnow, ok_bind]
    rw [List.flatMap_cons, ← List.append_assoc, drainLines_append _ (d.buffer ++ text.toList)]
    rfl

theorem isValidUTF8_of_pushChunks {chunks : List ByteArray} : ∀ {d : SseDecoder}
    {pushed : List SseEvent × SseDecoder}, d.pushChunks chunks = .ok pushed →
      ∀ chunk ∈ chunks, chunk.IsValidUTF8 := by
  induction chunks with
  | nil => exact fun _ _ hmem => (nomatch hmem)
  | cons chunk chunks ih =>
    intro d pushed h
    obtain ⟨now, hnow, h⟩ := bind_eq_ok.mp h
    obtain ⟨later, hlater, -⟩ := bind_eq_ok.mp h
    exact List.forall_mem_cons.mpr ⟨isValidUTF8_of_pushChunk hnow, ih hlater⟩

/-- Chunks of valid UTF-8 are the encodings of texts. -/
theorem exists_texts {chunks : List ByteArray} (h : ∀ chunk ∈ chunks, chunk.IsValidUTF8) :
    ∃ texts : List String, chunks = texts.map String.toByteArray := by
  induction chunks with
  | nil => exact ⟨[], rfl⟩
  | cons chunk chunks ih =>
    obtain ⟨hchunk, hchunks⟩ := List.forall_mem_cons.mp h
    obtain ⟨texts, rfl⟩ := ih hchunks
    exact ⟨String.ofByteArray chunk hchunk :: texts, rfl⟩

theorem stream_texts (texts : List String) :
    stream (texts.map String.toByteArray) =
      (String.ofList (texts.flatMap String.toList)).toByteArray := by
  induction texts with
  | nil => rfl
  | cons text texts ih =>
    have htext : String.ofList ((text :: texts).flatMap String.toList) =
        text ++ String.ofList (texts.flatMap String.toList) := by
      simp [String.ofList_append]
    rw [htext, String.toByteArray_append, ← ih]
    rfl

/-- Texts decode to the events of the whole text. -/
theorem decode_texts (texts : List String) :
    decode (texts.map String.toByteArray) =
      .ok (let d := drainLines {} (texts.flatMap String.toList); d.1 ++ d.2.finish.1) := by
  have h := pushChunks_texts texts {} (fun hmem => nomatch hmem)
  rw [decode, h, ok_bind]
  rfl

/-- **Chunks of a stream.**  A stream of valid UTF-8 is decoded, without an error, to the same
events in chunks as in one exactly when no cut falls inside a character. -/
theorem decodesAlike_iff {chunks : List ByteArray} (hvalid : (stream chunks).IsValidUTF8) :
    (∃ events, decode chunks = .ok events ∧ decode [stream chunks] = .ok events) ↔
      ∀ chunk ∈ chunks, chunk.IsValidUTF8 := by
  constructor
  · rintro ⟨events, hevents, -⟩
    obtain ⟨pushed, hpushed, -⟩ := bind_eq_ok.mp hevents
    exact isValidUTF8_of_pushChunks hpushed
  · intro h
    obtain ⟨texts, rfl⟩ := exists_texts h
    refine ⟨_, decode_texts texts, ?_⟩
    have hwhole := decode_texts [String.ofList (texts.flatMap String.toList)]
    rw [stream_texts]
    simpa using hwhole

/-- An event in two chunks. -/
def twoChunks : List ByteArray := ["event: a\nda".toByteArray, "ta: b\n\n".toByteArray]

theorem twoChunks_decodeAlike :
    ∃ events, decode twoChunks = .ok events ∧ decode [stream twoChunks] = .ok events := by
  have hvalid : (stream twoChunks).IsValidUTF8 := by
    have hstream : stream twoChunks = "event: a\ndata: b\n\n".toByteArray := by decide
    rw [hstream]
    exact String.isValidUTF8 _
  refine (decodesAlike_iff hvalid).mpr ?_
  exact List.forall_mem_cons.mpr ⟨String.isValidUTF8 _, List.forall_mem_cons.mpr
    ⟨String.isValidUTF8 _, fun _ h => nomatch h⟩⟩

/-- A comment of one character of two bytes. -/
def comment : ByteArray := ⟨#[0x3A, 0xC3, 0xA9, 0x0A]⟩

/-- The same cut inside its character. -/
def cutComment : List ByteArray := [⟨#[0x3A, 0xC3]⟩, ⟨#[0xA9, 0x0A]⟩]

/-- A character may arrive in two parts, and the first is an error. -/
theorem cutComment_rejected : ¬ ∀ chunks, (stream chunks).IsValidUTF8 →
    ∃ events, decode chunks = .ok events ∧ decode [stream chunks] = .ok events := by
  intro h
  have hvalid : (stream cutComment).IsValidUTF8 := by
    have hstream : stream cutComment = (":é\n").toByteArray := by decide
    rw [hstream]
    exact String.isValidUTF8 _
  obtain ⟨events, hevents, -⟩ := h cutComment hvalid
  obtain ⟨pushed, hpushed, -⟩ := bind_eq_ok.mp hevents
  have hfirst := isValidUTF8_of_pushChunks hpushed ⟨#[0x3A, 0xC3]⟩ (List.mem_cons_self)
  exact absurd hfirst (by decide)

end SseDecoder
end MppSdk
