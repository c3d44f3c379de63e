import Esdiag.FailingPrograms
import Esdiag.FramedRecords
import Esdiag.KeyedMaps

/-!
The installation of the embedded skill into a directory of a coding agent. An installer
leaves a marker with a digest of the files that it has written, by which a later one
tells them from files that a user has changed. The new directory is written beside the
old one and validated; the old one is renamed away, the new one into its place, and the
old one removed. Any call to the file system may fail.
-/
namespace Esdiag.SkillInstall

open KeyedMaps FramedRecords FailingPrograms

section Paths

/-- A unit of a file name: a character, or bytes that encode none. -/
inductive NameUnit where
  | char (c : Char)
  | invalid (bytes : List UInt8)
  deriving DecidableEq

structure FileName where
  units : List NameUnit
  valid : ∀ unit ∈ units, unit ≠ .char '\x00' ∧ unit ≠ .char '/'
  deriving DecidableEq

/-- A relative path, by its components. -/
abbrev SkillPath := List FileName

def installerMarker : FileName := ⟨".esdiag-installer.json".toList.map .char, by decide⟩

def skillMd : FileName := ⟨"SKILL.md".toList.map .char, by decide⟩

def scripts : FileName := ⟨"scripts".toList.map .char, by decide⟩

def NameUnit.bytes : NameUnit → List UInt8
  | char c => String.utf8EncodeChar c
  | invalid bytes => bytes

def FileName.bytes (name : FileName) : List UInt8 := name.units.flatMap NameUnit.bytes

/-- Bytes that encode no character are shown as the replacement character. -/
def NameUnit.lossy : NameUnit → Char
  | char c => c
  | invalid _ => '\uFFFD'

def toStringLossy (path : SkillPath) : String :=
  String.ofList ((path.map fun name => name.units.map NameUnit.lossy).intersperse ['/']).flatten

end Paths

section Files

abbrev Contents := {bytes : List UInt8 // bytes.length < 256 ^ 8}

abbrev Files := KeyedMap SkillPath Contents

/-- The files in the order of their paths. -/
def inPathOrder (files : Files) : List (SkillPath × Contents) :=
  files.entries.insertionSort fun a b => a.1.map FileName.bytes ≤ b.1.map FileName.bytes

def manifestText (files : Files) : List UInt8 :=
  bytes 8 ((inPathOrder files).map fun file =>
    ⟨(toStringLossy file.1).toByteArray.data.toList, file.2.1⟩)

structure InstallerMarker where
  installer : String
  version : String
  digest : String
  deriving DecidableEq

/-- The hash, the reader and the writer of markers, and the version of the binary. -/
structure Installer where
  sha256 : List UInt8 → String
  parseMarker : Contents → Option InstallerMarker
  renderMarker : InstallerMarker → Contents
  version : String

def installerId : String := "esdiag"

variable (installer : Installer)

def manifestDigest (files : Files) : String := installer.sha256 (manifestText files)

/-- A skill that can be embedded: it has its main file and neither scripts nor a marker. -/
structure EmbeddedSkill where
  files : Files
  hasSkillMd : (files.find? [skillMd]).isSome = true
  noScripts : ∀ file ∈ files.entries, file.1.head? ≠ some scripts
  noMarker : ∀ file ∈ files.entries, file.1 ≠ [installerMarker]

def EmbeddedSkill.digest (embedded : EmbeddedSkill) : String :=
  manifestDigest installer embedded.files

/-- What stands under a name. -/
inductive Node where
  | file (contents : Contents)
  | dir (entries : List (FileName × Node))
  | symlink (resolves : Bool)
  | other

abbrev Entries := List (FileName × Node)

def lookup (name : FileName) (entries : Entries) : Option Node :=
  (entries.find? fun entry => entry.1 = name).map Prod.snd

end Files

section Inspecting

inductive SkillError where
  | io (path : SkillPath)
  | symlinkEntry (path : SkillPath)
  | unsupportedEntry (path : SkillPath)
  | parent
  | stageTaken
  | stageWrite
  | invalidStage
  | preserve
  | activate
  | backup
  deriving DecidableEq

/-- The calls of an inspection that fail. A failed check for existence finds nothing. -/
structure InspectAnswers where
  existsReported : Bool
  metadata : Bool
  readable : SkillPath → Bool
  markerReported : Bool
  markerReadable : Bool

/-- An inspection of which no call fails. -/
def InspectAnswers.smooth : InspectAnswers := ⟨true, true, fun _ => true, true, true⟩

/-- Whether a node is found where links are followed. -/
def Node.present : Node → Bool
  | symlink resolves => resolves
  | _ => true

def pathExists (reported : Bool) (node : Option Node) : Bool := reported && node.any Node.present

mutual
/-- Collect the files below a directory. -/
def collectSkillFiles (readable : SkillPath → Bool) (directory : SkillPath) :
    List (FileName × Node) → Files → Except SkillError Files
  | [], files => .ok files
  | (name, node) :: rest, files =>
    match collectEntry readable (directory ++ [name]) node files with
    | .error error => .error error
    | .ok files => collectSkillFiles readable directory rest files

def collectEntry (readable : SkillPath → Bool) (path : SkillPath) :
    Node → Files → Except SkillError Files
  | .symlink _, _ => .error (if readable path then .symlinkEntry path else .io path)
  | .dir entries, files =>
    if readable path then collectSkillFiles readable path entries files else .error (.io path)
  | .file contents, files =>
    if readable path = false then .error (.io path)
    else if path = [installerMarker] then .ok files
    else .ok (files.insert path contents)
  | .other, _ => .error (if readable path then .unsupportedEntry path else .io path)
end

def readSkillFiles (readable : SkillPath → Bool) (entries : Entries) : Except SkillError Files :=
  if readable [] then collectSkillFiles readable [] entries .empty else .error (.io [])

inductive SkillState where
  | missing
  | exact
  | managedIntact (version : String)
  | modified
  | unrecognized
  deriving DecidableEq

variable (installer : Installer)

def readMarker (answers : InspectAnswers) (entries : Entries) :
    Except SkillError (Option InstallerMarker) :=
  let node := lookup installerMarker entries
  if pathExists answers.markerReported node = false then .ok none
  else if answers.markerReadable = false then .error (.io [installerMarker])
  else
    match node with
    | some (.file contents) => .ok (installer.parseMarker contents)
    | _ => .ok none

def inspect (answers : InspectAnswers) (embedded : EmbeddedSkill) (destination : Option Node) :
    Except SkillError SkillState :=
  if pathExists answers.existsReported destination = false then .ok .missing
  else if answers.metadata = false then .error (.io [])
  else
    match destination with
    | some (.dir entries) =>
      match readSkillFiles answers.readable entries with
      | .error error => .error error
      | .ok files =>
        match readMarker installer answers entries with
        | .error error => .error error
        | .ok marker =>
          if inPathOrder files = inPathOrder embedded.files then .ok .exact
          else
            match marker with
            | some marker =>
              if marker.installer = installerId then
                if marker.digest = manifestDigest installer files then
                  .ok (.managedIntact marker.version)
                else .ok .modified
              else .ok .unrecognized
            | none => .ok .unrecognized
    | _ => .ok .unrecognized

end Inspecting

section Installing

/-- The destination, and the two names beside it that an installation uses. -/
structure Siblings where
  destination : Option Node
  stage : Option Node
  backup : Option Node

abbrev Action (α : Type) := EStateM SkillError Siblings α

/-- The calls of an installation that fail, and what a failed one leaves of the stage and of the
backup. -/
structure InstallAnswers where
  inspected : InspectAnswers
  parentReady : Bool
  stageReported : Bool
  stageWritten : Bool
  stageLeft : Option Node
  validated : InspectAnswers
  destinationReported : Bool
  preserved : Bool
  activated : Bool
  restored : Bool
  backupRemoved : Bool
  backupLeft : Option Node

/-- Whether one node can be renamed to the name of another. -/
def replaceable : Option Node → Option Node → Bool
  | none, _ => false
  | some _, none => true
  | some (.dir _), some (.dir []) => true
  | some (.dir _), some _ => false
  | some _, some (.dir _) => false
  | some _, some _ => true

def putEntry (name : FileName) (node : Node) : Entries → Entries
  | [] => [(name, node)]
  | entry :: rest =>
    if entry.1 = name then (name, node) :: rest else entry :: putEntry name node rest

/-- Write a file into a directory, with the directories on its path. -/
def writeFile (contents : Contents) : SkillPath → Entries → Option Entries
  | [], _ => none
  | [name], entries =>
    match lookup name entries with
    | none => some (putEntry name (.file contents) entries)
    | some (.file _) => some (putEntry name (.file contents) entries)
    | some _ => none
  | name :: next :: rest, entries =>
    match lookup name entries with
    | none =>
      (writeFile contents (next :: rest) []).map fun inner => putEntry name (.dir inner) entries
    | some (.dir below) =>
      (writeFile contents (next :: rest) below).map fun inner => putEntry name (.dir inner) entries
    | some _ => none

def writeFiles : List (SkillPath × Contents) → Entries → Option Entries
  | [], entries => some entries
  | (path, contents) :: rest, entries => (writeFile contents path entries).bind (writeFiles rest)

variable (installer : Installer)

/-- The files of the skill, and the marker last. -/
def stagedSkill (embedded : EmbeddedSkill) : Option Entries :=
  let marker := ⟨installerId, installer.version, embedded.digest installer⟩
  (writeFiles (inPathOrder embedded.files) []).bind
    (writeFile (installer.renderMarker marker) [installerMarker])

def writeStagedSkill (embedded : EmbeddedSkill) (answers : InstallAnswers) : Action Unit :=
  fun siblings =>
    if pathExists answers.stageReported siblings.stage then .error .stageTaken siblings
    else if siblings.stage.isSome then .error .stageWrite siblings
    else if answers.stageWritten = false then
      .error .stageWrite { siblings with stage := answers.stageLeft }
    else
      match stagedSkill installer embedded with
      | some entries => .ok () { siblings with stage := some (.dir entries) }
      | none => .error .stageWrite { siblings with stage := answers.stageLeft }

def preserve (answers : InstallAnswers) : Action Unit := fun siblings =>
  if answers.preserved && replaceable siblings.destination siblings.backup then
    .ok () { siblings with destination := none, backup := siblings.destination }
  else .error .preserve siblings

/-- The stage takes its place; otherwise the backup, if there is one, is renamed back. -/
def activate (answers : InstallAnswers) (preserved : Bool) : Action Unit := fun siblings =>
  if answers.activated && replaceable siblings.stage siblings.destination then
    .ok () { siblings with destination := siblings.stage, stage := none }
  else if preserved && answers.restored && replaceable siblings.backup siblings.destination then
    .error .activate
      { destination := siblings.backup, stage := answers.stageLeft, backup := none }
  else .error .activate { siblings with stage := answers.stageLeft }

/-- Remove the old directory, or the old link. What is neither is not removed. -/
def removeBackup (answers : InstallAnswers) : Action Unit := fun siblings =>
  match siblings.backup with
  | some (.dir _) =>
    if answers.backupRemoved then .ok () { siblings with backup := none }
    else .error .backup { siblings with backup := answers.backupLeft }
  | some (.symlink _) =>
    if answers.backupRemoved then .ok () { siblings with backup := none }
    else .error .backup siblings
  | _ => .error .backup siblings

inductive SkillAction where
  | installed
  | updated
  | unchanged
  | forceUpdated
  | conflict
  deriving DecidableEq

/-- Whether the destination is left alone or replaced, and what that is called. -/
inductive Decision where
  | leave (action : SkillAction)
  | replace (action : SkillAction)

def decision (force : Bool) : SkillState → Decision
  | .missing => .replace .installed
  | .exact => .leave .unchanged
  | .managedIntact _ => .replace .updated
  | .modified => if force then .replace .forceUpdated else .leave .conflict
  | .unrecognized => if force then .replace .forceUpdated else .leave .conflict

/-- Stage, validate and replace. -/
def replaceSkill (embedded : EmbeddedSkill) (answers : InstallAnswers) : Action Unit := do
  stopUnless answers.parentReady .parent
  writeStagedSkill installer embedded answers
  let staged ← get
  let state ← liftResult (inspect installer answers.validated embedded staged.stage)
  stopUnless (state = .exact) .invalidStage
  let preserved := pathExists answers.destinationReported staged.destination
  whenever preserved (preserve answers)
  activate answers preserved
  whenever preserved (removeBackup answers)

def install (embedded : EmbeddedSkill) (force : Bool) (answers : InstallAnswers) :
    Action SkillAction := do
  let before ← get
  let current ← liftResult (inspect installer answers.inspected embedded before.destination)
  match decision force current with
  | .leave action => pure action
  | .replace action => do
    replaceSkill installer embedded answers
    pure action

end Installing

end Esdiag.SkillInstall
