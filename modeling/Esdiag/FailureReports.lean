import Esdiag.Executor

/-!
What a command reports of an execution that failed. A saved-job run goes through
the executor, which looks for the first unsuccessful stage; the process command
names the stage itself. Both hand the outcome on as one failure, and the command
line projects that failure onto its stable result: a category, the failed stage,
a message that repeats nothing of the error, and the parts that were completed.
-/
namespace Esdiag.FailureReports

open BatchResponses Deployments Reports JobModel ExecutionOutcomes Executor

inductive FailedStage where
  | collect
  | process
  | send
  deriving DecidableEq

/-- What one job execution produced. -/
structure JobOutcome where
  bundlePath : Option PathBuf
  bundleRetained : Bool
  bundleCreated : Bool
  sendSlug : Option String
  processed : Bool
  execution : Option ExecutionOutcome

def JobOutcome.default : JobOutcome := ⟨none, false, false, none, false, none⟩

/-- The completed portion of a failed execution, with the text of the error. -/
structure JobExecutionFailure where
  stage : FailedStage
  outcome : JobOutcome
  message : String

def jobOutcome (outcome : ExecutionOutcome) : JobOutcome :=
  { bundlePath := outcome.retainedBundle
    bundleRetained := outcome.retainedBundle.isSome
    bundleCreated := outcome.collection.isSome
    sendSlug := outcome.send.map fun send => send.slug
    processed := outcome.report.isSome
    execution := some outcome }

def FailedStage.ofStage : Stage → FailedStage
  | .send => .send
  | .process | .export => .process
  | .collect | .load | .save => .collect

def failedStage (outcome : ExecutionOutcome) : FailedStage :=
  ((outcome.stages.find? fun stage => stage.status.isUnsuccessful).map
    fun stage => FailedStage.ofStage stage.stage).getD .process

def stageName : Stage → String
  | .collect => "Collect"
  | .load => "Load"
  | .save => "Save"
  | .process => "Process"
  | .export => "Export"
  | .send => "Send"

/-- The failed stages and the failed children, in one line. -/
def joinedFailures (outcome : ExecutionOutcome) : String :=
  let failures := (outcome.stages.filterMap fun stage =>
    match stage.status with
    | .failed error => some (stageName stage.stage ++ ": " ++ error)
    | _ => none) ++ outcome.childFailures
  if failures.isEmpty then "diagnostic report failed" else "; ".intercalate failures

/-- The failure of a saved-job run, as the executor raises it. -/
def executionFailure (outcome : ExecutionOutcome) : JobExecutionFailure :=
  { stage := failedStage outcome
    outcome := jobOutcome outcome
    message := "Job execution failed: " ++ joinedFailures outcome }

def formatExecutionFailure (outcome : ExecutionOutcome) : String :=
  let failures := (outcome.stages.filterMap fun stage =>
    match stage.status with
    | .failed error => some (stageName stage.stage ++ " failed: " ++ error)
    | .blocked reason => some (stageName stage.stage ++ " blocked: " ++ reason)
    | .succeeded | .skipped _ => none) ++ outcome.childFailures
  if failures.isEmpty then "Job did not complete successfully" else "\n".intercalate failures

/-- The failure of the process command. -/
def processCommandFailure (outcome : ExecutionOutcome) : JobExecutionFailure :=
  { stage := .process
    outcome :=
      { JobOutcome.default with
        processed := outcome.report.isSome
        execution := some outcome }
    message := formatExecutionFailure outcome }

inductive CliFailureCategory where
  | invalidInput
  | conflict
  | notFound
  | authenticationFailed
  | collectionFailed
  | processingFailed
  | sendFailed
  | setupFailed
  | keystoreFailed
  | internal
  deriving DecidableEq

def CliFailureCategory.asStr : CliFailureCategory → String
  | invalidInput => "invalid_input"
  | conflict => "conflict"
  | notFound => "not_found"
  | authenticationFailed => "authentication_failed"
  | collectionFailed => "collection_failed"
  | processingFailed => "processing_failed"
  | sendFailed => "send_failed"
  | setupFailed => "setup_failed"
  | keystoreFailed => "keystore_failed"
  | internal => "internal"

/-- The classes of an error that carries no typed cause, by its text. -/
def classifyFailure (error : String) : CliFailureCategory :=
  let message := Texts.toAsciiLowercase error
  if Texts.contains message "not found" then .notFound
  else if Texts.contains message "auth" || Texts.contains message "credential" then
    .authenticationFailed
  else if Texts.contains message "collect" then .collectionFailed
  else if Texts.contains message "process" then .processingFailed
  else if Texts.contains message "Elastic Upload Service" || Texts.contains message "send" then
    .sendFailed
  else if Texts.contains message "keystore" || Texts.contains message "secret" then
    .keystoreFailed
  else .invalidInput

def safeFailureMessage (error : String) : String :=
  match classifyFailure error with
  | .conflict => "requested resource already exists"
  | .notFound => "requested resource was not found"
  | .authenticationFailed => "authentication failed"
  | .collectionFailed => "diagnostic collection failed"
  | .processingFailed => "diagnostic processing failed"
  | .sendFailed => "diagnostic send failed"
  | .keystoreFailed => "keystore operation failed"
  | .setupFailed => "setup failed"
  | .internal | .invalidInput => "command execution failed"

inductive JobStage where
  | collect
  | save
  | process
  | send
  deriving DecidableEq

structure IndexingFailure where
  index : String
  documentsFailed : U32
  category : String

structure DiagnosticResult where
  id : String
  product : String
  documents : U32
  documentsFailed : U32
  outcome : DiagnosticOutcome
  indexingFailures : List IndexingFailure
  source : String
  output : String

inductive IncludedDiagnosticResult where
  | completed (source : String) (diagnostic : DiagnosticResult)
  | skipped (source : String) (product : Option String) (reason : String)
  | failed (source error : String)

namespace IncludedDiagnosticResult

def source : IncludedDiagnosticResult → String
  | completed source _ | skipped source _ _ | failed source _ => source

def isCompleted : IncludedDiagnosticResult → Bool
  | completed _ _ => true
  | skipped _ _ _ | failed _ _ => false

end IncludedDiagnosticResult

structure ProcessResult where
  diagnostic : DiagnosticResult
  included : List IncludedDiagnosticResult

structure CompletedStages where
  save : Option PathBuf
  process : Option ProcessResult
  send : Option String

structure CliFailure where
  result : String
  category : String
  message : String
  failedStage : Option JobStage
  retrySafe : Option Bool
  completed : Option CompletedStages

def CliFailure.new (category : CliFailureCategory) (message : String) : CliFailure :=
  ⟨"command_failed", category.asStr, message, none, none, none⟩

def applicationLabel : Application → String
  | .elasticsearch => "Elasticsearch"
  | .kibana => "Kibana"
  | .logstash => "Logstash"
  | .agent => "Agent"

def platformLabel : Platform → String
  | .selfManaged => "SelfManaged"
  | .elasticCloudHosted => "ElasticCloudHosted"
  | .ece => "ECE"
  | .eck => "ECK"
  | .kubernetesPlatform => "KubernetesPlatform"
  | .unknown => "Unknown"

/-- The application when there is one, else the platform. -/
def displayLabel (application : Option Application) (platform : Platform) : String :=
  (application.map applicationLabel).getD (platformLabel platform)

def diagnosticResult (report : DiagnosticReport) (source : String) : DiagnosticResult :=
  { id := report.metadataId
    product := displayLabel report.application report.platform
    documents := report.docs.created
    documentsFailed := report.docs.errors
    outcome := report.outcome
    indexingFailures := report.rejectedIndices.map fun rejected =>
      ⟨rejected.1, rejected.2, "document_rejected"⟩
    source := source
    output := "" }

def childLabel (child : ChildOutcome) : String :=
  displayLabel ((child.execution.report.bind DiagnosticReport.application).or child.application)
    ((child.execution.report.map DiagnosticReport.platform).getD child.platform)

def includedResult (child : ChildOutcome) : IncludedDiagnosticResult :=
  match child.diagnosticOutcome, child.execution.report, child.failure with
  | _, some _, some error => .failed child.path error
  | .skipped _, _, _ =>
    .skipped child.path (some (childLabel child))
      (child.execution.executionError.getD "diagnostic processing skipped")
  | _, some report, none => .completed child.path (diagnosticResult report child.path)
  | _, none, _ =>
    .failed child.path
      (child.execution.executionError.getD "included diagnostic processing failed")

/-- The processed part of an execution: nothing without a report. -/
def executionProcessResult (outcome : ExecutionOutcome) : Option ProcessResult :=
  outcome.report.map fun report =>
    ⟨diagnosticResult report "primary", outcome.children.map includedResult⟩

def failureStage : FailedStage → CliFailureCategory × JobStage
  | .collect => (.collectionFailed, .collect)
  | .process => (.processingFailed, .process)
  | .send => (.sendFailed, .send)

def completedStages (outcome : JobOutcome) : CompletedStages :=
  { save := outcome.bundlePath.filter fun _ => outcome.bundleRetained && outcome.bundleCreated
    process := outcome.execution.bind executionProcessResult
    send := outcome.sendSlug.map fun slug => "https://upload.elastic.co/g/" ++ slug }

def structuredFailure (failure : JobExecutionFailure) : CliFailure :=
  let stage := failureStage failure.stage
  let completed := completedStages failure.outcome
  { CliFailure.new stage.1 (safeFailureMessage failure.message) with
    failedStage := some stage.2
    retrySafe := some false
    completed :=
      if completed.save.isSome || completed.process.isSome || completed.send.isSome then
        some completed
      else none }

section Projections

variable (failure : JobExecutionFailure)

theorem failedStage_structuredFailure :
    (structuredFailure failure).failedStage = some (failureStage failure.stage).2 := rfl

theorem category_structuredFailure :
    (structuredFailure failure).category = (failureStage failure.stage).1.asStr := rfl

/-- A completed part is reported whenever there is one. -/
theorem completed_bind {α : Type} (part : CompletedStages → Option α)
    (h : ∀ completed, (part completed).isSome = true →
      (completed.save.isSome || completed.process.isSome || completed.send.isSome) = true) :
    (structuredFailure failure).completed.bind part =
      part (completedStages failure.outcome) := by
  unfold structuredFailure
  dsimp only
  split
  · rfl
  · rename_i hnothing
    cases hpart : part (completedStages failure.outcome) with
    | none => rfl
    | some value => exact absurd (h _ (by rw [hpart]; rfl)) hnothing

theorem completed_save :
    ((structuredFailure failure).completed.bind CompletedStages.save) =
      (completedStages failure.outcome).save := by
  refine completed_bind failure CompletedStages.save ?_
  intro completed h
  rw [h, Bool.true_or, Bool.true_or]

theorem completed_process :
    ((structuredFailure failure).completed.bind CompletedStages.process) =
      (completedStages failure.outcome).process := by
  refine completed_bind failure CompletedStages.process ?_
  intro completed h
  rw [h, Bool.or_true, Bool.true_or]

theorem completed_send :
    ((structuredFailure failure).completed.bind CompletedStages.send) =
      (completedStages failure.outcome).send := by
  refine completed_bind failure CompletedStages.send ?_
  intro completed h
  rw [h, Bool.or_true]

end Projections

end Esdiag.FailureReports
