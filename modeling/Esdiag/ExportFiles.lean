import Mathlib.Data.List.Perm.Subperm
import Esdiag.Interleavings
import Esdiag.KeyedMaps
import Esdiag.RecordFiles

/-!
What a parent and its children write into one directory or file. Each of them
resolves the export target for itself, so each has writers of its own, and a
writer that is created truncates its file. The children run after the documents
of their parent, and together. Every place is followed by itself: the steps that
concern it, its content, the offsets of its writers and what was counted for it.
-/
namespace Esdiag.ExportFiles

open KeyedMaps Interleavings RecordFiles

/-- The export targets that write files. -/
inductive FileTarget where
  | directory
  | file (path : String)
  deriving DecidableEq

/-- A file of the target, or the reports of the last run in the home directory. -/
inductive Place where
  | inTarget (name : String)
  | lastRun
  deriving DecidableEq

def ndjsonFile (index : String) : String := index ++ ".ndjson"

def reportFile : String := "metrics-diagnostic-esdiag.ndjson"

/-- The file that the documents of an index go to. -/
def FileTarget.fileOf : FileTarget → String → String
  | directory, index => ndjsonFile index
  | file path, _ => path

/-- One batch of documents, with the pieces in which its bytes reach the file. -/
structure Batch where
  index : String
  docs : List Record
  chunks : List Bytes
  complete : chunks.flatten = encode docs

/-- One diagnostic of a family: the batches that it sends and the report that it
saves at the end. -/
structure Diagnostic where
  batches : List Batch
  report : Option Record

inductive ExportStep where
  | resolve
  | write (index : String) (chunk : Bytes)
  | created (index : String) (docs : List Record)
  | saveReport (report : Record)

/-- A batch fetches its writer, writes, and counts its documents as created. -/
def Batch.steps (self : Batch) : List ExportStep :=
  .write self.index [] ::
    (self.chunks.map (ExportStep.write self.index) ++ [.created self.index self.docs])

def Diagnostic.steps (self : Diagnostic) : List ExportStep :=
  .resolve :: (self.batches.flatMap Batch.steps ++ self.report.toList.map .saveReport)

/-- A diagnostic and the number under which its exporter is known. -/
abbrev Member := ℕ × Diagnostic

def memberSteps (one : Member) : List (ℕ × ExportStep) :=
  one.2.steps.map fun step => (one.1, step)

/-- A parent and its children; without a report of the parent there are none. -/
structure Family where
  parent : Diagnostic
  children : List Diagnostic
  fanOut : children ≠ [] → parent.report.isSome = true

namespace Family

def childMembers (self : Family) : List Member :=
  (self.children.zipIdx 1).map Prod.swap

/-- The steps of a family: the children follow their parent, merged by schedules. -/
def steps (self : Family) (schedule : ℕ → List Bool) : List (ℕ × ExportStep) :=
  memberSteps (0, self.parent) ++
    interleaveAll (self.childMembers.map fun child => (schedule child.1, memberSteps child))

end Family

structure ExportState where
  files : KeyedMap Place Bytes
  writers : KeyedMap (ℕ × Place) ℕ
  counted : List (Place × Bytes)

namespace ExportState

def contentOf (self : ExportState) (place : Place) : Bytes := (self.files.find? place).getD []

/-- Create or truncate a file, for a writer that begins at its start. -/
def openWriter (self : ExportState) (member : ℕ) (place : Place) : ExportState :=
  { self with
    files := self.files.insert place []
    writers := self.writers.insert (member, place) 0 }

/-- The writer of an exporter for a file, created when it is first asked for. -/
def getWriter (self : ExportState) (member : ℕ) (place : Place) : ExportState :=
  match self.writers.find? (member, place) with
  | some _ => self
  | none => self.openWriter member place

def writeChunk (self : ExportState) (member : ℕ) (place : Place) (chunk : Bytes) : ExportState :=
  let offset := (self.writers.find? (member, place)).getD 0
  { self with
    files := self.files.insert place (writeAt (self.contentOf place) offset chunk)
    writers := self.writers.insert (member, place) (offset + chunk.length) }

def count (self : ExportState) (place : Place) (records : List Record) : ExportState :=
  { self with counted := self.counted ++ records.map fun record => (place, record.bytes) }

end ExportState

/-- One step of one member. A file exporter truncates when it is resolved, and
appends its reports to the last run in the home directory. -/
def applyStep (target : FileTarget) (state : ExportState) (step : ℕ × ExportStep) :
    ExportState :=
  match step.2, target with
  | .resolve, .directory => state
  | .resolve, .file path => state.openWriter step.1 (.inTarget path)
  | .write index chunk, _ =>
    (state.getWriter step.1 (.inTarget (target.fileOf index))).writeChunk step.1
      (.inTarget (target.fileOf index)) chunk
  | .created index docs, _ => state.count (.inTarget (target.fileOf index)) docs
  | .saveReport report, .directory =>
    { state with files := state.files.insert (.inTarget reportFile) report.bytes }.count
      (.inTarget reportFile) [report]
  | .saveReport report, .file _ =>
    { state with
      files := state.files.insert .lastRun (state.contentOf .lastRun ++ encode [report]) }.count
      .lastRun [report]

def runSteps (target : FileTarget) (state : ExportState) (steps : List (ℕ × ExportStep)) :
    ExportState :=
  steps.foldl (applyStep target) state

/-- The state before a job: whatever the target holds, the reports of earlier
runs, and no writers. -/
def initialState (files : KeyedMap Place Bytes) (earlier : List Record) : ExportState :=
  ⟨files.insert .lastRun (encode earlier), .empty, []⟩

/-- Everything that was counted for a place is among its lines. -/
def AllPresent (state : ExportState) : Prop :=
  ∀ place, ((state.counted.filter fun entry => entry.1 = place).map Prod.snd).Subperm
    (lines (state.contentOf place))

/-- What a step does to one place. -/
inductive FileOp where
  | truncate (member : ℕ)
  | write (member : ℕ) (chunk : Bytes)
  | created (docs : List Record)
  | replace (report : Record)
  | append (report : Record)

def opOn (target : FileTarget) (place : Place) (step : ℕ × ExportStep) : Option FileOp :=
  match step.2, target with
  | .resolve, .directory => none
  | .resolve, .file path => if .inTarget path = place then some (.truncate step.1) else none
  | .write index chunk, _ =>
    if .inTarget (target.fileOf index) = place then some (.write step.1 chunk) else none
  | .created index docs, _ =>
    if .inTarget (target.fileOf index) = place then some (.created docs) else none
  | .saveReport report, .directory =>
    if .inTarget reportFile = place then some (.replace report) else none
  | .saveReport report, .file _ => if .lastRun = place then some (.append report) else none

/-- One place as its writers see it. -/
structure FileView where
  content : Bytes
  offset : ℕ → Option ℕ
  counted : List Bytes

namespace FileView

def opened (self : FileView) (member : ℕ) : FileView :=
  { self with content := [], offset := Function.update self.offset member (some 0) }

def fetched (self : FileView) (member : ℕ) : FileView :=
  match self.offset member with
  | some _ => self
  | none => self.opened member

def written (self : FileView) (member : ℕ) (chunk : Bytes) : FileView :=
  let offset := (self.offset member).getD 0
  { self with
    content := writeAt self.content offset chunk
    offset := Function.update self.offset member (some (offset + chunk.length)) }

def count (self : FileView) (records : List Record) : FileView :=
  { self with counted := self.counted ++ records.map Record.bytes }

def apply (self : FileView) : FileOp → FileView
  | .truncate member => self.opened member
  | .write member chunk => (self.fetched member).written member chunk
  | .created docs => self.count docs
  | .replace report => { self with content := report.bytes }.count [report]
  | .append report => { self with content := self.content ++ encode [report] }.count [report]

def run (self : FileView) (ops : List FileOp) : FileView := ops.foldl apply self

theorem run_append (self : FileView) (first second : List FileOp) :
    self.run (first ++ second) = (self.run first).run second := List.foldl_append

end FileView

def view (place : Place) (state : ExportState) : FileView :=
  ⟨state.contentOf place, fun member => state.writers.find? (member, place),
    (state.counted.filter fun entry => entry.1 = place).map Prod.snd⟩

section Views

variable {place other : Place}

theorem view_count_self (state : ExportState) (records : List Record) :
    view place (state.count place records) = (view place state).count records := by
  simp [view, ExportState.count, FileView.count, ExportState.contentOf, List.filter_map,
    Function.comp_def]

theorem view_count_of_ne (state : ExportState) (records : List Record) (hne : other ≠ place) :
    view place (state.count other records) = view place state := by
  simp [view, ExportState.count, ExportState.contentOf, hne]

theorem contentOf_insert_self (state : ExportState) (content : Bytes) :
    { state with files := state.files.insert place content }.contentOf place = content := by
  rw [ExportState.contentOf, KeyedMap.find?_insert_self, Option.getD_some]

theorem contentOf_insert_of_ne (state : ExportState) (content : Bytes) (hne : other ≠ place) :
    { state with files := state.files.insert other content }.contentOf place =
      state.contentOf place := by
  rw [ExportState.contentOf, KeyedMap.find?_insert_of_ne _ hne.symm, ExportState.contentOf]

theorem view_insertFile_self (place : Place) (state : ExportState) (content : Bytes) :
    view place { state with files := state.files.insert place content } =
      { view place state with content := content } := by
  simp only [view, contentOf_insert_self]

theorem view_insertFile_of_ne (state : ExportState) (content : Bytes) (hne : other ≠ place) :
    view place { state with files := state.files.insert other content } = view place state := by
  simp only [view, contentOf_insert_of_ne state content hne]

theorem view_insertWriter_self (state : ExportState) (member offset : ℕ) :
    view place { state with writers := state.writers.insert (member, place) offset } =
      { view place state with
        offset := Function.update (view place state).offset member (some offset) } := by
  have hoffset : (fun one => (state.writers.insert (member, place) offset).find? (one, place)) =
      Function.update (view place state).offset member (some offset) := by
    funext one
    by_cases hone : one = member
    · rw [hone, Function.update_self, KeyedMap.find?_insert_self]
    · have hne : (one, place) ≠ (member, place) := fun heq => hone (congrArg Prod.fst heq)
      rw [Function.update_of_ne hone, KeyedMap.find?_insert_of_ne _ hne, view]
  simp only [view, ExportState.contentOf] at hoffset ⊢
  rw [hoffset]

theorem view_insertWriter_of_ne (state : ExportState) (member offset : ℕ)
    (hne : other ≠ place) :
    view place { state with writers := state.writers.insert (member, other) offset } =
      view place state := by
  have hoffset : (fun one => (state.writers.insert (member, other) offset).find? (one, place)) =
      fun one => state.writers.find? (one, place) := by
    funext one
    have hpair : (one, place) ≠ (member, other) := fun heq => hne (congrArg Prod.snd heq).symm
    exact KeyedMap.find?_insert_of_ne _ hpair offset
  simp only [view, ExportState.contentOf, hoffset]

theorem view_openWriter_self (place : Place) (state : ExportState) (member : ℕ) :
    view place (state.openWriter member place) = (view place state).opened member := by
  have h := view_insertFile_self place
    { state with writers := state.writers.insert (member, place) 0 } []
  rw [view_insertWriter_self] at h
  exact h

theorem view_openWriter_of_ne (state : ExportState) (member : ℕ) (hne : other ≠ place) :
    view place (state.openWriter member other) = view place state := by
  have h := view_insertFile_of_ne
    { state with writers := state.writers.insert (member, other) 0 } [] hne
  rw [view_insertWriter_of_ne state member 0 hne] at h
  exact h

theorem view_getWriter_self (state : ExportState) (member : ℕ) :
    view place (state.getWriter member place) = (view place state).fetched member := by
  cases h : state.writers.find? (member, place) with
  | some offset => simp only [ExportState.getWriter, FileView.fetched, view, h]
  | none =>
    have hopen := view_openWriter_self place state member
    simp only [ExportState.getWriter, h, hopen, FileView.fetched]
    simp only [view, h]

theorem view_getWriter_of_ne (state : ExportState) (member : ℕ) (hne : other ≠ place) :
    view place (state.getWriter member other) = view place state := by
  unfold ExportState.getWriter
  split
  · rfl
  · exact view_openWriter_of_ne state member hne

theorem view_writeChunk_self (state : ExportState) (member : ℕ) (chunk : Bytes) :
    view place (state.writeChunk member place chunk) =
      (view place state).written member chunk := by
  let offset := (state.writers.find? (member, place)).getD 0
  have h := view_insertFile_self place
    { state with writers := state.writers.insert (member, place) (offset + chunk.length) }
    (writeAt (state.contentOf place) offset chunk)
  rw [view_insertWriter_self] at h
  exact h

theorem view_writeChunk_of_ne (state : ExportState) (member : ℕ) (chunk : Bytes)
    (hne : other ≠ place) :
    view place (state.writeChunk member other chunk) = view place state := by
  let offset := (state.writers.find? (member, other)).getD 0
  have h := view_insertFile_of_ne
    { state with writers := state.writers.insert (member, other) (offset + chunk.length) }
    (writeAt (state.contentOf other) offset chunk) hne
  rw [view_insertWriter_of_ne state member _ hne] at h
  exact h

/-- A step acts on the view of a place by its operation there, or not at all. -/
theorem view_applyStep (target : FileTarget) (state : ExportState) (step : ℕ × ExportStep) :
    view place (applyStep target state step) =
      ((opOn target place step).toList.foldl FileView.apply (view place state)) := by
  obtain ⟨member, step⟩ := step
  cases step with
  | resolve =>
    cases target with
    | directory => rfl
    | file path =>
      by_cases h : Place.inTarget path = place
      · subst h
        simp only [applyStep, opOn, if_true]
        exact view_openWriter_self _ state member
      · simp only [applyStep, opOn, if_neg h]
        exact view_openWriter_of_ne state member h
  | write index chunk =>
    by_cases h : Place.inTarget (target.fileOf index) = place
    · subst h
      simp only [applyStep, opOn, if_true, view_writeChunk_self, view_getWriter_self]
      rfl
    · simp only [applyStep, opOn, if_neg h, view_writeChunk_of_ne _ _ _ h,
        view_getWriter_of_ne _ _ h]
      rfl
  | created index docs =>
    by_cases h : Place.inTarget (target.fileOf index) = place
    · subst h
      simp only [applyStep, opOn, if_true, view_count_self]
      rfl
    · simp only [applyStep, opOn, if_neg h, view_count_of_ne _ _ h]
      rfl
  | saveReport report =>
    cases target with
    | directory =>
      by_cases h : Place.inTarget reportFile = place
      · subst h
        simp only [applyStep, opOn, if_true, view_count_self, view_insertFile_self]
        rfl
      · simp only [applyStep, opOn, if_neg h, view_count_of_ne _ _ h,
          view_insertFile_of_ne _ _ h]
        rfl
    | file path =>
      by_cases h : Place.lastRun = place
      · subst h
        simp only [applyStep, opOn, if_true, view_count_self, view_insertFile_self]
        rfl
      · simp only [applyStep, opOn, if_neg h, view_count_of_ne _ _ h,
          view_insertFile_of_ne _ _ h]
        rfl

theorem view_runSteps (target : FileTarget) (state : ExportState)
    (steps : List (ℕ × ExportStep)) :
    view place (runSteps target state steps) =
      (view place state).run (steps.filterMap (opOn target place)) := by
  induction steps generalizing state with
  | nil => rfl
  | cons step rest ih =>
    have hrest := ih (applyStep target state step)
    rw [view_applyStep] at hrest
    cases h : opOn target place step with
    | none =>
      rw [List.filterMap_cons_none h]
      rw [h] at hrest
      exact hrest
    | some op =>
      rw [List.filterMap_cons_some h]
      rw [h] at hrest
      exact hrest

end Views

end Esdiag.ExportFiles
