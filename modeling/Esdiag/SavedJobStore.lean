import Esdiag.SavedJobFiles
import Mathlib.Logic.Function.Basic

/-!
The operations on the saved jobs of any number of clients. Each one loads the
file, changes the map and writes the file again. A process has one lock for the
file: an update holds it from its load to its write, while saving and deleting
a job take it once for the load and once more for the write. Other processes
know nothing of the lock. The schedule says whose step is next and whether the
file system fails it; a client that waits for the lock does nothing.
-/
namespace Esdiag.SavedJobStore

open KeyedMaps YamlValues JobModel SavedJobFiles

inductive Operation where
  | saveJob (name : String) (job : Job)
  | deleteJob (name : String)
  | withSavedJobs (operation : SavedJobs → Except String (SavedJobs × Bool))

inductive OperationError where
  | emptyName
  | unsupportedName
  | invalidJob (error : JobValidationError)
  | store (error : SavedJobsError)
  | notFound (name : String)
  | operation (message : String)
  | io

def OperationError.message : OperationError → Option String
  | emptyName => some "Job name cannot be empty"
  | unsupportedName => some "Job name contains unsupported path characters"
  | invalidJob error => some error.message
  | store error => error.message
  | notFound name => some ("Saved job '" ++ name ++ "' not found")
  | operation message => some message
  | io => none

def isControl (c : Char) : Bool := c.toNat < 32 || (127 ≤ c.toNat && c.toNat < 160)

def validateSavedJobName (name : String) : Except OperationError Unit :=
  let trimmed := Texts.trim name
  if trimmed = "" then .error .emptyName
  else if trimmed.toList.any fun c => isControl c || ['/', '\\', '?', '#', '%'].contains c then
    .error .unsupportedName
  else .ok ()

namespace Operation

/-- What is checked before the file is read. -/
def precheck : Operation → Except OperationError Unit
  | saveJob name job =>
    match validateSavedJobName name with
    | .error error => .error error
    | .ok () => job.validateForPersistence.mapError .invalidJob
  | deleteJob _ | withSavedJobs _ => .ok ()

/-- The changed map, and whether it is to be written. -/
def change (jobs : SavedJobs) : Operation → Except OperationError (SavedJobs × Bool)
  | saveJob name job => .ok (jobs.insert (Texts.trim name) job, true)
  | deleteJob name =>
    match jobs.find? name with
    | none => .error (.notFound name)
    | some _ => .ok (jobs.remove name, true)
  | withSavedJobs operation => (operation jobs).mapError .operation

/-- Only an update keeps the lock between its load and its write. -/
def holdsLock : Operation → Bool
  | withSavedJobs _ => true
  | saveJob .. | deleteJob _ => false

end Operation

inductive Outcome where
  | failed (error : OperationError)
  | unchanged
  | saved

/-- Where a client is. The jobs it read and the count of writes at its last
access to the file stay with it. -/
inductive Phase where
  | ready
  | migrating (jobs : SavedJobs) (readAt : ℕ)
  | writing (jobs : SavedJobs) (readAt : ℕ)
  | finished (outcome : Outcome)

structure Client where
  process : ℕ
  operation : Operation
  phase : Phase

structure World where
  file : JobsFile
  clients : ℕ → Client
  lockHolder : ℕ → Option ℕ
  writes : ℕ
  commits : List ℕ

namespace World

def canEnter (w : World) (c : ℕ) : Bool :=
  match w.lockHolder (w.clients c).process with
  | none => true
  | some holder => holder == c

/-- Move a client on; it then holds the lock of its process or has released it. -/
def advance (w : World) (c : ℕ) (phase : Phase) (locked : Bool) : World :=
  { w with
    clients := Function.update w.clients c { w.clients c with phase := phase }
    lockHolder :=
      Function.update w.lockHolder (w.clients c).process (if locked then some c else none) }

def finish (w : World) (c : ℕ) (outcome : Outcome) : World := w.advance c (.finished outcome) false

def replaceFile (w : World) (file : JobsFile) : World :=
  { w with file := file, writes := w.writes + 1 }

/-- Change the loaded jobs; a changed map waits for its write. -/
def afterLoad (w : World) (c : ℕ) (jobs : SavedJobs) : World :=
  match (w.clients c).operation.change jobs with
  | .error error => w.finish c (.failed error)
  | .ok (_, false) => w.finish c .unchanged
  | .ok (changed, true) =>
    w.advance c (.writing changed w.writes) (w.clients c).operation.holdsLock

def writeFile (env : Environment) (jobs : SavedJobs) (ioFails : Bool) :
    Except OperationError JobsFile :=
  if ioFails then .error .io else (writeSavedJobsDocument env jobs).mapError .store

def begin (env : Environment) (w : World) (c : ℕ) (ioFails : Bool) : World :=
  match (w.clients c).operation.precheck with
  | .error error => w.finish c (.failed error)
  | .ok () =>
    if ioFails then w.finish c (.failed .io)
    else
      match readJobsFile env w.file with
      | .error error => w.finish c (.failed (.store error))
      | .ok (jobs, false) => w.afterLoad c jobs
      | .ok (jobs, true) => w.advance c (.migrating jobs w.writes) true

def migrate (env : Environment) (w : World) (c : ℕ) (jobs : SavedJobs) (ioFails : Bool) : World :=
  match writeFile env jobs ioFails with
  | .error error => w.finish c (.failed error)
  | .ok file => (w.replaceFile file).afterLoad c jobs

def commit (env : Environment) (w : World) (c : ℕ) (jobs : SavedJobs) (ioFails : Bool) : World :=
  match writeFile env jobs ioFails with
  | .error error => w.finish c (.failed error)
  | .ok file =>
    let written := (w.replaceFile file).finish c .saved
    { written with commits := w.commits ++ [c] }

/-- The next step of a client. -/
def step (env : Environment) (w : World) (turn : ℕ × Bool) : World :=
  if w.canEnter turn.1 then
    match (w.clients turn.1).phase with
    | .ready => w.begin env turn.1 turn.2
    | .migrating jobs _ => w.migrate env turn.1 jobs turn.2
    | .writing jobs _ => w.commit env turn.1 jobs turn.2
    | .finished _ => w
  else w

def run (env : Environment) (w : World) (schedule : List (ℕ × Bool)) : World :=
  schedule.foldl (step env) w

/-- Nobody has started yet. -/
def initial (file : JobsFile) (clients : ℕ → ℕ × Operation) : World :=
  { file := file
    clients := fun c => ⟨(clients c).1, (clients c).2, .ready⟩
    lockHolder := fun _ => none
    writes := 0
    commits := [] }

end World

/-- An operation run with nobody else: the file after it. -/
def runAlone (env : Environment) (operation : Operation) (file : JobsFile) : JobsFile :=
  match operation.precheck with
  | .error _ => file
  | .ok () =>
    match loadSavedJobsFromPath env file with
    | (.error _, loaded) => loaded
    | (.ok jobs, loaded) =>
      match operation.change jobs with
      | .error _ | .ok (_, false) => loaded
      | .ok (changed, true) =>
        match writeSavedJobsDocument env changed with
        | .error _ => loaded
        | .ok written => written

end Esdiag.SavedJobStore
