import Esdiag.LineStreams
import Esdiag.LossyText

/-!
Server-sent events out of a stream of bytes that arrives in chunks. A line ends at a
line feed wherever the chunks were cut, and a block of lines ends at an empty one. The
data of a block is dispatched when it ends; a name waits for data, and so a block
without data leaves its name to the next one.
-/
namespace Esdiag.SseDecoding

open Texts LossyText LineStreams

structure SseEvent where
  name : String
  data : String
  deriving DecidableEq, Repr

/-- The fields of the block that is being read. -/
structure Fields where
  name : Option String
  data : List String
  deriving DecidableEq, Repr

structure SseDecoder extends Fields where
  pending : List UInt8
  deriving DecidableEq, Repr

/-- `SseDecoder::default`. -/
def SseDecoder.empty : SseDecoder := ⟨⟨none, []⟩, []⟩

def trimStart (text : String) : String := String.ofList (text.toList.dropWhile isWhitespace)

def Fields.dispatch (fields : Fields) : Option SseEvent × Fields :=
  if fields.data = [] then (none, fields)
  else (some ⟨fields.name.getD "message", join "\n" fields.data⟩, ⟨none, []⟩)

def Fields.line (fields : Fields) (line : String) : Option SseEvent × Fields :=
  if line = "" then fields.dispatch
  else if line.toList.head? = some ':' then (none, fields)
  else
    match stripPrefix "event:" line with
    | some value => (none, { fields with name := some (trimStart value) })
    | none =>
      match stripPrefix "data:" line with
      | some value => (none, { fields with data := fields.data ++ [trimStart value] })
      | none => (none, fields)

/-- The text of a line without the carriage return at its end. -/
def lineText (bytes : List UInt8) : String :=
  fromUtf8Lossy (if bytes.getLast? = some 13 then bytes.dropLast else bytes)

def Fields.read (fields : Fields) (line : String) : List SseEvent × Fields :=
  ((fields.line line).1.toList, (fields.line line).2)

namespace SseDecoder

def push (decoder : SseDecoder) (chunk : List UInt8) : List SseEvent × SseDecoder :=
  let drained := drain 10 (fun fields bytes => fields.read (lineText bytes)) decoder.toFields
    (decoder.pending ++ chunk)
  (drained.1, ⟨drained.2.1, drained.2.2⟩)

def finish (decoder : SseDecoder) : List SseEvent × SseDecoder :=
  let read := decoder.toFields.line (lineText decoder.pending)
  let last := read.2.dispatch
  (read.1.toList ++ last.1.toList, ⟨last.2, []⟩)

/-- The events of a stream from a state of the decoder on. -/
def decode (decoder : SseDecoder) : List (List UInt8) → List SseEvent
  | [] => decoder.finish.1
  | chunk :: chunks =>
    let pushed := decoder.push chunk
    pushed.1 ++ pushed.2.decode chunks

end SseDecoder

/-- The events of a stream in the chunks that it came in. -/
def eventsOf (chunks : List (List UInt8)) : List SseEvent := SseDecoder.empty.decode chunks

section Blocks

/-- The lines of a stream. -/
def linesOf (bytes : List UInt8) : List String := (splitList 10 bytes).map lineText

/-- The text of a line in UTF-8. -/
theorem lineText_encode (chars : List Char) :
    lineText (encode chars) =
      String.ofList (if chars.getLast? = some '\r' then chars.dropLast else chars) := by
  unfold lineText
  rcases List.eq_nil_or_concat' chars with rfl | ⟨init, last, rfl⟩
  · rfl
  by_cases hlast : last = '\r'
  · subst hlast
    have hbytes : encode (init ++ ['\r']) = encode init ++ [13] := encode_append init ['\r']
    rw [hbytes, List.getLast?_concat, List.dropLast_concat, List.getLast?_concat,
      List.dropLast_concat, if_pos rfl, if_pos rfl, fromUtf8Lossy_encode]
  · have hbytes : (encode (init ++ [last])).getLast? ≠ some 13 := by
      rw [encode_append, encode, encode, List.flatMap_singleton,
        List.getLast?_append_of_ne_nil _ String.utf8EncodeChar_ne_nil]
      intro hbyte
      have hcode := toNat_eq_of_mem_utf8EncodeChar (by decide) (List.mem_of_getLast? hbyte)
      exact hlast (Char.toNat_inj.mp hcode)
    rw [if_neg hbytes, List.getLast?_concat, if_neg (by simpa using hlast), fromUtf8Lossy_encode]

/-- The lines of a stream in UTF-8 are those of its text. -/
theorem linesOf_toUTF8 (text : String) :
    linesOf text.toUTF8.toList = (splitList '\n' text.toList).map fun line =>
      String.ofList (if line.getLast? = some '\r' then line.dropLast else line) := by
  have hsplit := @splitList_encode '\n' (by decide) text.toList
  have hbytes : text.toUTF8.toList = encode text.toList := toList_toUTF8 text
  rw [linesOf, hbytes, show (10 : UInt8) = UInt8.ofNat '\n'.toNat from rfl, hsplit, List.map_map]
  exact List.map_congr_left fun line _ => lineText_encode line

/-- The blocks of a stream: the lines between two empty ones. -/
def blocksOf (bytes : List UInt8) : List (List String) := splitList "" (linesOf bytes)

def nameField (line : String) : Option String := (stripPrefix "event:" line).map trimStart

def dataField (line : String) : Option String := (stripPrefix "data:" line).map trimStart

/-- The last event field of a block. -/
def blockName (block : List String) : Option String := (block.filterMap nameField).getLast?

def blockData (block : List String) : List String := block.filterMap dataField

/-- The event of a block on its own: the lines of its data under its last name. -/
def blockEvent (block : List String) : Option SseEvent :=
  if blockData block = [] then none
  else some ⟨(blockName block).getD "message", join "\n" (blockData block)⟩

/-- The events of blocks where a name waits for data. -/
def waitingEvents (name : Option String) : List (List String) → List SseEvent
  | [] => []
  | block :: blocks =>
    if blockData block = [] then waitingEvents ((blockName block).or name) blocks
    else ⟨((blockName block).or name).getD "message", join "\n" (blockData block)⟩ ::
      waitingEvents none blocks

/-- The next block that has a field at all has data and no event field. -/
def TakesName (blocks : List (List String)) : Prop :=
  ∃ block, blocks.find? (fun block => (blockName block).isSome || blockData block ≠ []) =
    some block ∧ blockName block = none

/-- No block with data takes the name of a block without. -/
def NamesFresh (blocks : List (List String)) : Prop :=
  ∀ before block after name, blocks = before ++ block :: after → blockData block = [] →
    blockName block = some name → TakesName after → name = "message"

end Blocks

section Lines

theorem stripPrefix_eq_none_of_head {start text : String} (hstart : start.toList ≠ [])
    (h : text.toList.head? ≠ start.toList.head?) : stripPrefix start text = none := by
  cases hrest : stripPrefix start text with
  | none => rfl
  | some rest =>
    obtain ⟨c, chars, hchars⟩ := List.exists_cons_of_ne_nil hstart
    refine absurd ?_ h
    rw [stripPrefix_eq_some.mp hrest, String.toList_append, hchars]
    rfl

/-- A line that is not empty adds its field to the block. -/
theorem line_of_ne_empty (fields : Fields) {line : String} (h : line ≠ "") :
    fields.line line = (none,
      ⟨(nameField line).or fields.name, fields.data ++ (dataField line).toList⟩) := by
  unfold Fields.line nameField dataField
  rw [if_neg h]
  split
  · rename_i hcomment
    rw [stripPrefix_eq_none_of_head (by decide) (by rw [hcomment]; decide),
      stripPrefix_eq_none_of_head (by decide) (by rw [hcomment]; decide)]
    simp
  cases hname : stripPrefix "event:" line with
  | some value =>
    have hhead : line.toList.head? = some 'e' := by
      rw [stripPrefix_eq_some.mp hname, String.toList_append]
      rfl
    rw [@stripPrefix_eq_none_of_head "data:" _ (by decide) (by rw [hhead]; decide)]
    simp
  | none =>
    cases hdata : stripPrefix "data:" line with
    | some value => simp
    | none => simp

theorem blockName_cons (line : String) (block : List String) :
    blockName (line :: block) = (blockName block).or (nameField line) := by
  unfold blockName
  cases hname : nameField line with
  | none => rw [List.filterMap_cons_none hname, Option.or_none]
  | some name =>
    rw [List.filterMap_cons_some hname, List.getLast?_cons]
    cases (block.filterMap nameField).getLast? with
    | none => rfl
    | some last => rfl

theorem blockData_cons (line : String) (block : List String) :
    blockData (line :: block) = (dataField line).toList ++ blockData block := by
  unfold blockData
  cases hdata : dataField line with
  | none => rw [List.filterMap_cons_none hdata]; rfl
  | some value => rw [List.filterMap_cons_some hdata]; rfl

/-- The lines of a block fill in its fields and yield nothing. -/
theorem runLines_block {block : List String} (h : "" ∉ block) (fields : Fields) :
    runLines Fields.read fields block =
      ([], ⟨(blockName block).or fields.name, fields.data ++ blockData block⟩) := by
  induction block generalizing fields with
  | nil => simp [runLines, blockName, blockData]
  | cons line block ih =>
    rw [List.mem_cons, not_or] at h
    have hline := line_of_ne_empty fields (Ne.symm h.1)
    rw [runLines, Fields.read, hline, ih h.2, blockName_cons, blockData_cons]
    simp [Option.or_assoc]

/-- A block yields what its end dispatches, and the name that waits after it. -/
theorem waitingEvents_cons (name : Option String) (block : List String)
    (blocks : List (List String)) :
    ∃ waiting,
      (Fields.mk ((blockName block).or name) (blockData block)).dispatch.2 = ⟨waiting, []⟩ ∧
      waitingEvents name (block :: blocks) =
        (Fields.mk ((blockName block).or name) (blockData block)).dispatch.1.toList ++
          waitingEvents waiting blocks := by
  unfold Fields.dispatch
  by_cases hdata : blockData block = []
  · refine ⟨(blockName block).or name, ?_, ?_⟩
    · simp [hdata]
    · simp [waitingEvents, hdata]
  · refine ⟨none, ?_, ?_⟩
    · simp [hdata]
    · simp [waitingEvents, hdata]

theorem run_eq_waitingEvents (name : Option String) (lines : List String) :
    (runLines Fields.read ⟨name, []⟩ lines).1 ++
        (runLines Fields.read ⟨name, []⟩ lines).2.dispatch.1.toList =
      waitingEvents name (splitList "" lines) := by
  generalize hblocks : splitList "" lines = blocks
  induction blocks generalizing name lines with
  | nil => exact absurd hblocks (splitList_ne_nil "" lines)
  | cons block blocks ih =>
    obtain ⟨hblock, hlines⟩ := splitList_eq_cons hblocks
    obtain ⟨waiting, hwaiting, hevents⟩ := waitingEvents_cons name block blocks
    rcases hlines with ⟨rfl, rfl⟩ | ⟨rest, rfl, hrest⟩
    · rw [runLines_block hblock, hevents, waitingEvents, List.append_nil]
      simp only [List.nil_append]
    · have hempty : ∀ fields : Fields, fields.read "" = (fields.dispatch.1.toList,
          fields.dispatch.2) := fun _ => rfl
      rw [runLines_append, runLines_block hblock, runLines, hempty]
      simp only [List.nil_append, hwaiting]
      rw [hevents, ← ih waiting rest hrest.symm, List.append_assoc]

theorem decode_eq_feed (decoder : SseDecoder) (chunks : List (List UInt8)) :
    ∃ fed, feed 10 (fun (fields : Fields) bytes => fields.read (lineText bytes))
        decoder.toFields decoder.pending chunks = fed ∧
      decoder.decode chunks = fed.1 ++ (SseDecoder.mk fed.2.1 fed.2.2).finish.1 := by
  refine ⟨_, rfl, ?_⟩
  induction chunks generalizing decoder with
  | nil => rfl
  | cons chunk chunks ih =>
    rw [SseDecoder.decode, ih]
    simp only [feed, SseDecoder.push, List.append_assoc]

/-- A decoder between lines yields the events of the stream's lines, wherever it was cut. -/
theorem decode_eq (decoder : SseDecoder) (hpending : 10 ∉ decoder.pending)
    (chunks : List (List UInt8)) {texts : List String}
    (htexts : linesOf (decoder.pending ++ chunks.flatten) = texts) :
    decoder.decode chunks = (runLines Fields.read decoder.toFields texts).1 ++
      (runLines Fields.read decoder.toFields texts).2.dispatch.1.toList := by
  obtain ⟨fed, hfed, hdecode⟩ := decode_eq_feed decoder chunks
  obtain ⟨lines, last, hlines, heq⟩ := feed_eq
    (fun (fields : Fields) bytes => fields.read (lineText bytes)) decoder.toFields hpending chunks
  rw [runLines_map Fields.read lineText lines] at heq
  rw [linesOf, hlines, List.map_append] at htexts
  rw [hdecode, ← hfed, heq, ← htexts, runLines_append]
  simp [SseDecoder.finish, runLines, Fields.read]

/-- The events of a stream depend on its bytes alone. -/
theorem eventsOf_eq (chunks : List (List UInt8)) :
    eventsOf chunks = waitingEvents none (blocksOf chunks.flatten) := by
  rw [eventsOf, decode_eq _ (by decide) chunks rfl, blocksOf, ← run_eq_waitingEvents]
  rfl

theorem data_waitingEvents (name : Option String) (blocks : List (List String)) :
    (waitingEvents name blocks).map SseEvent.data =
      (blocks.filterMap blockEvent).map SseEvent.data := by
  induction blocks generalizing name with
  | nil => rfl
  | cons block blocks ih =>
    by_cases hdata : blockData block = []
    · rw [waitingEvents, if_pos hdata, ih,
        List.filterMap_cons_none (show blockEvent block = none by simp [blockEvent, hdata])]
    · rw [waitingEvents, if_neg hdata, List.map_cons, ih,
        List.filterMap_cons_some (by rw [blockEvent, if_neg hdata]), List.map_cons]

/-- Whatever its name, each block has its own data, and all of it. -/
theorem data_eventsOf (chunks : List (List UInt8)) :
    (eventsOf chunks).map SseEvent.data =
      ((blocksOf chunks.flatten).filterMap blockEvent).map SseEvent.data := by
  rw [eventsOf_eq, data_waitingEvents]

end Lines

section Freshness

variable {name : Option String} {block : List String} {blocks : List (List String)}

theorem not_takesName_nil : ¬TakesName [] := by
  rintro ⟨block, hfound, -⟩
  cases hfound

theorem takesName_cons_iff : TakesName (block :: blocks) ↔
    if (blockName block).isSome || blockData block ≠ [] then blockName block = none
    else TakesName blocks := by
  unfold TakesName
  rw [List.find?_cons]
  split
  · rename_i hfields
    rw [if_pos hfields]
    constructor
    · rintro ⟨found, hfound, hname⟩
      rwa [Option.some.inj hfound]
    · exact fun hname => ⟨block, rfl, hname⟩
  · rename_i hfields
    rw [if_neg (by simpa using hfields)]

theorem namesFresh_cons_iff : NamesFresh (block :: blocks) ↔
    (blockData block = [] → ∀ name, blockName block = some name → TakesName blocks →
      name = "message") ∧ NamesFresh blocks := by
  constructor
  · intro hfresh
    constructor
    · exact fun hdata name hname htakes => hfresh [] block blocks name rfl hdata hname htakes
    · intro before named after name heq
      exact hfresh (block :: before) named after name (by rw [heq, List.cons_append])
  · rintro ⟨hblock, hblocks⟩ before named after name heq hdata hname htakes
    cases before with
    | nil =>
      obtain ⟨rfl, rfl⟩ := List.cons.inj heq
      exact hblock hdata name hname htakes
    | cons first before =>
      obtain ⟨-, hrest⟩ := List.cons.inj heq
      exact hblocks before named after name hrest hdata hname htakes

/-- A waiting name and the names of the blocks show nowhere else. -/
theorem waitingEvents_eq_iff (name : Option String) (blocks : List (List String)) :
    waitingEvents name blocks = blocks.filterMap blockEvent ↔
      NamesFresh blocks ∧ ∀ waiting, name = some waiting → TakesName blocks →
        waiting = "message" := by
  induction blocks generalizing name with
  | nil =>
    constructor
    · intro _
      refine ⟨fun before block after _ heq => ?_, fun _ _ htakes => ?_⟩
      · exact absurd heq.symm (by simp)
      · exact absurd htakes not_takesName_nil
    · exact fun _ => rfl
  | cons block blocks ih =>
    rw [namesFresh_cons_iff, takesName_cons_iff]
    by_cases hdata : blockData block = []
    · have hevent : blockEvent block = none := by simp [blockEvent, hdata]
      rw [List.filterMap_cons_none hevent, waitingEvents, if_pos hdata, ih]
      cases hname : blockName block with
      | none => simp [hdata]
      | some own => simp [hdata, and_comm]
    · have hevent : blockEvent block =
          some ⟨(blockName block).getD "message", join "\n" (blockData block)⟩ := by
        simp [blockEvent, hdata]
      rw [List.filterMap_cons_some hevent, waitingEvents, if_neg hdata, List.cons.injEq, ih]
      cases hname : blockName block with
      | none =>
        cases name with
        | none => simp [hdata]
        | some waiting => simp [hdata, and_comm]
      | some own => simp [hdata]

/-- A stream yields the events of its blocks, in any chunks, exactly when no block takes the
name of another one. -/
theorem events_of_blocks_iff (bytes : List UInt8) :
    (∀ chunks, chunks.flatten = bytes →
      eventsOf chunks = (blocksOf bytes).filterMap blockEvent) ↔ NamesFresh (blocksOf bytes) := by
  have hwaiting := waitingEvents_eq_iff none (blocksOf bytes)
  constructor
  · intro hevents
    have hwhole := hevents [bytes] (by simp)
    rw [eventsOf_eq, List.flatten_singleton] at hwhole
    exact (hwaiting.mp hwhole).1
  · rintro hfresh chunks rfl
    rw [eventsOf_eq]
    exact hwaiting.mpr ⟨hfresh, nofun⟩

/-- A block without data before a block without a name. -/
def strayName : String := "event: error\n\ndata: {}\n\n"

/-- The data is reported under the name of the block before. -/
theorem strayName_not_of_blocks :
    ¬∀ chunks, chunks.flatten = strayName.toUTF8.toList →
      eventsOf chunks = (blocksOf strayName.toUTF8.toList).filterMap blockEvent := by
  intro hevents
  have hwhole := hevents [strayName.toUTF8.toList] (by simp)
  rw [eventsOf_eq, List.flatten_singleton, blocksOf, linesOf_toUTF8] at hwhole
  exact absurd hwhole (by decide +kernel)

end Freshness

end Esdiag.SseDecoding
