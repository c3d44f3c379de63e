import Esdiag.JobModel
import Esdiag.Reports

/-!
What one execution of a job leaves behind: a status for each stage, the
collection, the report, the executions of included diagnostics and the verdict
over all of them. The events that an observer sees carry the identity of the
execution and the stage they are about.
-/
namespace Esdiag.ExecutionOutcomes

open Deployments Reports JobModel

inductive Stage where
  | collect
  | load
  | save
  | process
  | export
  | send
  deriving DecidableEq

inductive StageStatus where
  | succeeded
  | failed (message : String)
  | blocked (message : String)
  | skipped (message : String)
  deriving DecidableEq

namespace StageStatus

def isUnsuccessful : StageStatus → Bool
  | failed _ | blocked _ => true
  | succeeded | skipped _ => false

/-- The text of an unsuccessful status. -/
def error : StageStatus → Option String
  | failed message | blocked message => some message
  | succeeded | skipped _ => none

def message : StageStatus → Option String
  | failed message | blocked message | skipped message => some message
  | succeeded => none

end StageStatus

structure StageOutcome where
  stage : Stage
  status : StageStatus
  deriving DecidableEq

structure ExecutionIdentity where
  jobId : ℕ
  owner : String
  parentJobId : Option ℕ
  deriving DecidableEq

structure CollectionResult where
  path : String
  deriving DecidableEq

structure SendResult where
  slug : String
  deriving DecidableEq

/-- The execution of an included diagnostic, with the context that its parent
gave it. -/
structure ChildExecutionOutcome (E : Type) where
  path : String
  execution : E
  diagnosticOutcome : DiagnosticOutcome
  application : Option Application
  platform : Platform

structure ExecutionOutcome where
  identity : ExecutionIdentity
  stages : List StageOutcome
  collection : Option CollectionResult
  report : Option DiagnosticReport
  children : List (ChildExecutionOutcome ExecutionOutcome)
  retainedBundle : Option PathBuf
  send : Option SendResult

abbrev ChildOutcome := ChildExecutionOutcome ExecutionOutcome

namespace ExecutionOutcome

def new (identity : ExecutionIdentity) : ExecutionOutcome :=
  { identity := identity
    stages := []
    collection := none
    report := none
    children := []
    retainedBundle := none
    send := none }

def stage (self : ExecutionOutcome) (stage : Stage) : Option StageStatus :=
  (self.stages.find? fun outcome => outcome.stage == stage).map StageOutcome.status

def record (self : ExecutionOutcome) (stage : Stage) (status : StageStatus) :
    ExecutionOutcome :=
  { self with stages := self.stages ++ [⟨stage, status⟩] }

def succeeded (self : ExecutionOutcome) : Bool :=
  !self.stages.any fun outcome => outcome.status.isUnsuccessful

/-- The first unsuccessful status, in the order of recording. -/
def executionError (self : ExecutionOutcome) : Option String :=
  self.stages.findSome? fun outcome => outcome.status.error

def exportError (self : ExecutionOutcome) : Option String :=
  (self.stage .export).bind StageStatus.error

def diagnosticOutcome (self : ExecutionOutcome) : Option DiagnosticOutcome :=
  self.report.map DiagnosticReport.outcome

/-- The stages that have a status. -/
def recorded (self : ExecutionOutcome) : List Stage := self.stages.map StageOutcome.stage

@[simp] theorem recorded_new (identity : ExecutionIdentity) : (new identity).recorded = [] := rfl

@[simp] theorem recorded_record (self : ExecutionOutcome) (stage : Stage)
    (status : StageStatus) :
    (self.record stage status).recorded = self.recorded ++ [stage] := by
  simp only [recorded, record, List.map_append, List.map_cons, List.map_nil]

theorem isSome_stage (self : ExecutionOutcome) (stage : Stage) :
    (self.stage stage).isSome = decide (stage ∈ self.recorded) := by
  rw [Bool.eq_iff_iff, decide_eq_true_iff, ExecutionOutcome.stage, Option.isSome_map,
    List.find?_isSome, recorded, List.mem_map]
  constructor
  · rintro ⟨outcome, hmem, heq⟩
    exact ⟨outcome, hmem, beq_iff_eq.mp heq⟩
  · rintro ⟨outcome, hmem, heq⟩
    exact ⟨outcome, hmem, beq_iff_eq.mpr heq⟩

end ExecutionOutcome

namespace ChildExecutionOutcome

def jobId (self : ChildOutcome) : ℕ := self.execution.identity.jobId

/-- Failed exports and failed diagnostics fail the parent; skips and other
failed stages of a child do not. -/
def failure (self : ChildOutcome) : Option String :=
  match self.diagnosticOutcome with
  | .skipped _ => none
  | .failed => some (self.execution.executionError.getD "included diagnostic failed")
  | .complete | .partly => self.execution.exportError

end ChildExecutionOutcome

namespace ExecutionOutcome

def childFailures (self : ExecutionOutcome) : List String :=
  self.children.filterMap fun child =>
    child.failure.map fun error => "Included diagnostic " ++ child.path ++ " failed: " ++ error

def hasChildFailures (self : ExecutionOutcome) : Bool := self.childFailures.head?.isSome

/-- The verdict shared by every caller. -/
def failed (self : ExecutionOutcome) : Bool :=
  !self.succeeded || self.diagnosticOutcome == some .failed || self.hasChildFailures

theorem hasChildFailures_iff (self : ExecutionOutcome) :
    self.hasChildFailures = true ↔ ∃ child ∈ self.children, child.failure.isSome := by
  have hhead : self.hasChildFailures = true ↔ ∃ error, error ∈ self.childFailures := by
    unfold hasChildFailures
    cases self.childFailures with
    | nil => simp
    | cons error errors => exact ⟨fun _ => ⟨error, List.mem_cons_self⟩, fun _ => rfl⟩
  rw [hhead]
  simp only [childFailures, List.mem_filterMap, Option.map_eq_some_iff]
  constructor
  · rintro ⟨_, child, hchild, error, herror, _⟩
    exact ⟨child, hchild, Option.isSome_iff_exists.mpr ⟨error, herror⟩⟩
  · rintro ⟨child, hchild, hfailure⟩
    obtain ⟨error, herror⟩ := Option.isSome_iff_exists.mp hfailure
    exact ⟨_, child, hchild, error, herror, rfl⟩

theorem failed_iff (self : ExecutionOutcome) :
    self.failed = true ↔
      (∃ outcome ∈ self.stages, outcome.status.isUnsuccessful = true) ∨
        self.diagnosticOutcome = some .failed ∨ ∃ child ∈ self.children, child.failure.isSome := by
  have hsucceeded : self.succeeded = false ↔
      ∃ outcome ∈ self.stages, outcome.status.isUnsuccessful = true := by
    rw [succeeded, Bool.not_eq_false', List.any_eq_true]
  rw [← hasChildFailures_iff, ← hsucceeded]
  simp [failed, or_assoc]

end ExecutionOutcome

inductive Lifecycle where
  | queued
  | started
  | progress
  | completed
  deriving DecidableEq

structure ExecutionEvent where
  identity : ExecutionIdentity
  stage : Stage
  lifecycle : Lifecycle
  message : Option String
  deriving DecidableEq

namespace ExecutionEvent

def new (identity : ExecutionIdentity) (stage : Stage) (lifecycle : Lifecycle) :
    ExecutionEvent :=
  ⟨identity, stage, lifecycle, none⟩

def withMessage (self : ExecutionEvent) (message : String) : ExecutionEvent :=
  { self with message := some message }

end ExecutionEvent

end Esdiag.ExecutionOutcomes
