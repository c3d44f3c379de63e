import Mathlib.Logic.Relation
import Esdiag.ExecutionOutcomes
import Esdiag.Interleavings
import Esdiag.KnownHosts

/-!
The job executor. What it calls outside of itself (hosts, bundles, exporters,
the processors, the upload service) answers through adapters; every answer is
keyed by the job that asks, so that any combination of results occurs. An
execution collects a trace of the observed events and of the work it began.
The futures that run together are merged by schedules, and children finish in
an order of their own.
-/
namespace Esdiag.Executor

open KeyedMaps Deployments Reports SourceRegistry ProcessSelections JobModel
  ExecutionOutcomes Interleavings
open KnownHosts (HostRole)

/-- A host of the configuration, and what connecting to it gives. -/
structure ConfiguredHost (T : Type) where
  roles : List HostRole
  application : Application
  connect : Except String T

inductive RuntimeInput (R : Type) where
  | receiver (receiver : R) (application : Option Application) (bundlePath : Option PathBuf)
  | nested (parent : R) (path : String) (application : Option Application)
  | uri (uri : Uri) (application : Option Application)

structure ResolvedInput (R : Type) where
  receiver : R
  application : Option Application
  bundlePath : Option PathBuf

structure CollectOptions where
  application : Application
  diagnosticType : String
  included : Option (List String)
  excluded : Option (List String)
  identifiers : Identifiers

structure DiagPath where
  diagType : String
  diagPath : String
  deriving DecidableEq

/-- What the executor reads of a manifest: the platform that manifest and
receiver suggest, and the diagnostics it includes. -/
structure BundleManifest where
  detectedPlatform : Platform
  platformBundle : Bool
  includedDiagnostics : Option (List DiagPath)

/-- Only platform bundles spawn children. -/
def BundleManifest.childDiagnostics (self : BundleManifest) : List DiagPath :=
  if self.platformBundle then self.includedDiagnostics.getD [] else []

/-- The job ids that an execution draws from the counter of the process, which
others draw from as well. -/
structure JobIds where
  drawn : ℕ → ℕ
  increasing : StrictMono drawn

namespace JobIds

def draw (self : JobIds) : ℕ × JobIds :=
  (self.drawn 0, ⟨fun n => self.drawn (n + 1), fun _ _ h => self.increasing (by omega)⟩)

end JobIds

/-- What the surroundings answer to the calls of one execution. -/
structure Answers (R X : Type) where
  collectHost : String → Except String (Option (Except String (ConfiguredHost R)))
  exportHost : String → Except String (Option (Except String (ConfiguredHost X)))
  openUri : Uri → Except String R
  download : String → Except String PathBuf
  openSubdir : R → String → Except String R
  tempBundleDir : Except String PathBuf
  archive : PathBuf → Except String Unit
  collectBundle : R → PathBuf → CollectOptions → Except String CollectionResult
  openBundle : PathBuf → Except String R
  environmentExporter : Except String X
  uriExporter : Uri → Except String X
  manifest : R → Except String BundleManifest
  process : R → X → BundleManifest → Identifiers → Option ProcessSelection →
    Except String (DiagnosticReport × Option String)
  sendBundle : PathBuf → String → Except String SendResult

structure Adapters (R X : Type) where
  registry : Registry
  jobIds : JobIds
  answers : ℕ → Answers R X
  outputSchedule : ℕ → List Bool
  childSchedule : ℕ → List Bool
  completionRank : ℕ → ℕ

inductive RetentionPolicy where
  | ephemeral
  | retainLoadedBundle
  deriving DecidableEq

structure ExecutionContext (R X : Type) where
  inputs : KeyedMap BindingKey (RuntimeInput R)
  documentExporters : KeyedMap BindingKey X
  identity : ExecutionIdentity
  retention : RetentionPolicy
  inheritedPlatform : Option Platform
  childDepth : ℕ

variable {R X : Type}

section Inputs

variable (answers : Answers R X)

def resolveStableCollect (hostName : String) : Except String (ResolvedInput R) :=
  let hostKey := Texts.trim hostName
  match answers.collectHost hostKey with
  | .error error => .error error
  | .ok none =>
    .error ("Host '" ++ hostKey ++ "' referenced by job is no longer configured")
  | .ok (some (.error error)) => .error error
  | .ok (some (.ok host)) =>
    if host.roles.contains .collect then
      host.connect.map fun receiver => ⟨receiver, some host.application, none⟩
    else .error ("Collect host '" ++ hostKey ++ "' is missing the collect role")

def resolveStableLoad (uri : Uri) (materializeRemote : Bool) :
    Except String (ResolvedInput R) :=
  match uri, materializeRemote with
  | .file path, _ =>
    (answers.openUri uri).map fun receiver => ⟨receiver, none, some path⟩
  | .serviceLink url, true =>
    match answers.download url with
    | .error error => .error error
    | .ok bundlePath =>
      (answers.openUri (.file bundlePath)).map fun receiver =>
        ⟨receiver, none, some bundlePath⟩
  | _, _ => (answers.openUri uri).map fun receiver => ⟨receiver, none, none⟩

def resolveBinding (inputs : KeyedMap BindingKey (RuntimeInput R)) (key : BindingKey)
    (materializeRemote requireLocalBundle : Bool) : Except String (ResolvedInput R) :=
  match inputs.find? key with
  | none => .error ("Runtime input binding '" ++ key.text ++ "' was not supplied")
  | some (.receiver receiver application bundlePath) =>
    if requireLocalBundle && bundlePath.isNone then
      .error ("Runtime input binding '" ++ key.text ++ "' does not provide a local bundle")
    else .ok ⟨receiver, application, bundlePath⟩
  | some (.nested parent path application) =>
    if requireLocalBundle then
      .error ("Nested runtime input binding '" ++ key.text ++
        "' is not a standalone local bundle")
    else
      (answers.openSubdir parent path).map fun receiver => ⟨receiver, application, none⟩
  | some (.uri uri application) =>
    match resolveStableLoad answers uri materializeRemote with
    | .error error => .error error
    | .ok resolved =>
      if requireLocalBundle && resolved.bundlePath.isNone then
        .error ("Runtime URI binding '" ++ key.text ++ "' did not materialize a local bundle")
      else .ok { resolved with application := application }

def resolve (inputs : KeyedMap BindingKey (RuntimeInput R)) (input : Input)
    (materializeRemote requireLocalBundle : Bool) : Except String (ResolvedInput R) :=
  match input with
  | .collect host .. => resolveStableCollect answers host
  | .collectBinding binding .. | .loadBinding binding =>
    resolveBinding answers inputs binding materializeRemote requireLocalBundle
  | .load uri => resolveStableLoad answers uri materializeRemote

end Inputs

namespace ExecutionContext

def bindNested (self : ExecutionContext R X) (key : BindingKey) (parent : R) (path : String)
    (application : Option Application) : ExecutionContext R X :=
  { self with inputs := self.inputs.insert key (.nested parent path application) }

def resolveDocumentExporter (answers : Answers R X) (self : ExecutionContext R X)
    (target : ExportTarget) : Except String X :=
  match target with
  | .binding binding =>
    match self.documentExporters.find? binding with
    | some exporter => .ok exporter
    | none =>
      .error ("Runtime document exporter binding '" ++ binding.text ++ "' was not supplied")
  | .knownHost name =>
    let hostKey := Texts.trim name
    match answers.exportHost hostKey with
    | .error error => .error error
    | .ok none => .error ("Export host '" ++ hostKey ++ "' is no longer configured")
    | .ok (some (.error error)) => .error error
    | .ok (some (.ok host)) =>
      if !host.roles.contains .send then
        .error ("Export host '" ++ hostKey ++ "' is missing the send role")
      else if host.application ≠ .elasticsearch then
        .error ("Export host '" ++ hostKey ++ "' must be an Elasticsearch host")
      else host.connect
  | .environment => answers.environmentExporter
  | .file path => answers.uriExporter (.file path)
  | .directory outputDir => answers.uriExporter (.directory outputDir)
  | .stdout => answers.uriExporter .stream

end ExecutionContext

/-- Draw until an id differs from the parent's. -/
def nextDistinctJobId (parentJobId : ℕ) : ℕ → JobIds → Option (ℕ × JobIds)
  | 0, _ => none
  | fuel + 1, ids =>
    if ids.draw.1 ≠ parentJobId then some ids.draw
    else nextDistinctJobId parentJobId fuel ids.draw.2

/-- The counter only grows, so the second id differs from the first. -/
theorem isSome_nextDistinctJobId (parentJobId : ℕ) (ids : JobIds) :
    (nextDistinctJobId parentJobId 2 ids).isSome = true := by
  by_cases hfirst : ids.drawn 0 = parentJobId
  · have hgrows : ids.drawn 0 < ids.drawn 1 := ids.increasing (by omega)
    have hsecond : ids.drawn 1 ≠ parentJobId := by omega
    simp [nextDistinctJobId, JobIds.draw, hfirst, hsecond]
  · simp [nextDistinctJobId, JobIds.draw, hfirst]

def ExecutionContext.child (self : ExecutionContext R X) (inheritedPlatform : Platform)
    (ids : JobIds) : Except String (ExecutionContext R X × JobIds) :=
  if 1 ≤ self.childDepth then
    .error "Included diagnostic fan-out is limited to one child level"
  else
    let allocated := (nextDistinctJobId self.identity.jobId 2 ids).get
      (isSome_nextDistinctJobId self.identity.jobId ids)
    .ok ({ self with
        identity := ⟨allocated.1, self.identity.owner, some self.identity.jobId⟩
        inheritedPlatform := some inheritedPlatform
        childDepth := self.childDepth + 1 }, allocated.2)

/-- A step of an execution: an event, or the beginning of a stage's own work. -/
inductive TraceEntry where
  | observed (event : ExecutionEvent)
  | ran (jobId : ℕ) (stage : Stage)
  deriving DecidableEq

def TraceEntry.jobId : TraceEntry → ℕ
  | observed event => event.identity.jobId
  | ran jobId _ => jobId

structure Traced (T : Type) where
  trace : List TraceEntry
  result : T

structure Execution where
  trace : List TraceEntry
  outcome : ExecutionOutcome

namespace Execution

def append (self : Execution) (trace : List TraceEntry) : Execution :=
  { self with trace := self.trace ++ trace }

def observe (self : Execution) (identity : ExecutionIdentity) (stage : Stage)
    (lifecycle : Lifecycle) : Execution :=
  self.append [.observed (.new identity stage lifecycle)]

def run (self : Execution) (jobId : ℕ) (stage : Stage) : Execution :=
  self.append [.ran jobId stage]

/-- A stage has one status: what comes later is dropped with its event. -/
def recordStage (self : Execution) (identity : ExecutionIdentity) (stage : Stage)
    (status : StageStatus) : Execution :=
  if (self.outcome.stage stage).isSome then self
  else
    { trace := self.trace ++ [.observed ⟨identity, stage, .completed, status.message⟩]
      outcome := self.outcome.record stage status }

theorem outcome_recordStage (self : Execution) (identity : ExecutionIdentity) (stage : Stage)
    (status : StageStatus) :
    (self.recordStage identity stage status).outcome =
      if (self.outcome.stage stage).isSome then self.outcome
      else self.outcome.record stage status := by
  unfold recordStage
  split <;> rfl

def recordBlocked (self : Execution) (identity : ExecutionIdentity) (reason : String)
    (stage : Stage) : Execution :=
  if (self.outcome.stage stage).isNone then self.recordStage identity stage (.blocked reason)
  else self

def recordBlockedOutputs (self : Execution) (identity : ExecutionIdentity) (job : Job)
    (reason : String) : Execution :=
  let processed :=
    if job.process.isSome then
      (self.recordBlocked identity reason .process).recordBlocked identity reason .export
    else self
  if job.send.isSome then processed.recordBlocked identity reason .send else processed

end Execution

structure ProcessStageExecution where
  report : DiagnosticReport
  includedDiagnostics : List DiagPath
  exportError : Option String

/-- An explicit platform of the identifiers wins over a detected one, and the
report carries the identifiers it was made under. -/
def processDocuments (answers : Answers R X) (receiver : R) (exporter : X)
    (identifiers : Identifiers) (selection : Option ProcessSelection)
    (discoverIncludedDiagnostics : Bool) : Except String ProcessStageExecution :=
  match answers.manifest receiver with
  | .error error => .error error
  | .ok manifest =>
    let platform := identifiers.platform.getD manifest.detectedPlatform
    let identifiers := identifiers.withPlatform platform
    match answers.process receiver exporter manifest identifiers selection with
    | .error error => .error error
    | .ok (report, exportError) =>
      .ok
        { report := report.addIdentifiers identifiers
          includedDiagnostics :=
            if discoverIncludedDiagnostics then manifest.childDiagnostics else []
          exportError := exportError }

def kibanaProcessingNotImplemented : String := "Kibana processing is not yet implemented"

def agentProcessingNotImplemented : String := "Elastic Agent processing is not yet implemented"

def unsupportedProductOrDiagnosticBundle : String := "Unsupported product or diagnostic bundle"

/-- A missing processor is not the same skip as a bundle out of scope. -/
def skipKindFor (error : String) : Option SkipKind :=
  if error = kibanaProcessingNotImplemented ∨ error = agentProcessingNotImplemented then
    some .notImplemented
  else if error = unsupportedProductOrDiagnosticBundle then some .byDesign
  else none

def skippedApplication (error : String) : Option Application :=
  if error = kibanaProcessingNotImplemented then some .kibana
  else if error = agentProcessingNotImplemented then some .agent
  else none

def failedChildExecution (identity : ExecutionIdentity) (path error : String)
    (platform : Platform) : ChildOutcome :=
  { path := path
    execution := (ExecutionOutcome.new identity).record .load (.failed error)
    diagnosticOutcome := .failed
    application := none
    platform := platform }

/-- The verdict of a child: that of its report, else a skip that its error
names, else a failure. -/
def childOutcome (path : String) (execution : ExecutionOutcome)
    (inheritedPlatform : Platform) : ChildOutcome :=
  let error := execution.executionError
  { path := path
    execution := execution
    diagnosticOutcome :=
      (execution.diagnosticOutcome.or
        ((error.bind skipKindFor).map DiagnosticOutcome.skipped)).getD .failed
    application :=
      (execution.report.bind DiagnosticReport.application).or (error.bind skippedApplication)
    platform := (execution.report.map DiagnosticReport.platform).getD inheritedPlatform }

/-- What the stages of a parent hand to its children. -/
structure Inheritance (R : Type) where
  parentReceiver : R
  exportTarget : ExportTarget
  identifiers : Identifiers
  platform : Platform

section Children

variable (runChild : Job → ExecutionContext R X → Execution)

def runChildJob (inheritance : Inheritance R) (path : String)
    (context : ExecutionContext R X) : Traced ChildOutcome :=
  match BindingKey.tryNew ("included-" ++ toString context.identity.jobId) with
  | .error error =>
    ⟨[], failedChildExecution context.identity path error.message inheritance.platform⟩
  | .ok binding =>
    match Job.tryNew inheritance.identifiers (.loadBinding binding) none
      (some ⟨none, inheritance.exportTarget⟩) none with
    | .error error =>
      ⟨[], failedChildExecution context.identity path error.message inheritance.platform⟩
    | .ok job =>
      let execution :=
        runChild job (context.bindNested binding inheritance.parentReceiver path none)
      ⟨execution.trace, childOutcome path execution.outcome inheritance.platform⟩

/-- The children of a parent, each with a context of its own; all ids are drawn
before the first child runs. -/
def launchChildren (inheritance : Inheritance R) (context : ExecutionContext R X) :
    JobIds → List DiagPath → List (Traced ChildOutcome)
  | _, [] => []
  | ids, declaration :: rest =>
    match context.child inheritance.platform ids with
    | .error error =>
      let identity := ⟨ids.draw.1, context.identity.owner, some context.identity.jobId⟩
      ⟨[], failedChildExecution identity declaration.diagPath error inheritance.platform⟩ ::
        launchChildren inheritance context ids.draw.2 rest
    | .ok (child, remaining) =>
      runChildJob runChild inheritance declaration.diagPath child ::
        launchChildren inheritance context remaining rest

def runChildJobs (adapters : Adapters R X) (context : ExecutionContext R X)
    (inheritance : Inheritance R) (declarations : List DiagPath) :
    Traced (List ChildOutcome) :=
  let children := launchChildren runChild inheritance context adapters.jobIds declarations
  { trace := interleaveAll (children.map fun child =>
      (adapters.childSchedule child.result.jobId, child.trace))
    result := (children.map Traced.result).insertionSort fun left right =>
      adapters.completionRank left.jobId ≤ adapters.completionRank right.jobId }

end Children

structure ProcessExecution where
  report : DiagnosticReport
  children : List ChildOutcome
  exportError : Option String

/-- The events that open processing and export, and the beginning of their work. -/
def processingBegun (identity : ExecutionIdentity) : List TraceEntry :=
  [.observed (.new identity .process .queued),
    .observed (.new identity .process .started),
    .observed ((ExecutionEvent.new identity .process .progress).withMessage
      "Transforming diagnostic"),
    .observed (.new identity .export .queued),
    .observed (.new identity .export .started),
    .ran identity.jobId .process,
    .ran identity.jobId .export]

/-- The process stage up to its children: exporter, selection and documents. -/
def processStage (adapters : Adapters R X) (context : ExecutionContext R X)
    (receiver : R) (process : Process) (identifiers : Identifiers)
    (derived : Option ProcessSelection) : Except String ProcessStageExecution :=
  match context.resolveDocumentExporter (adapters.answers context.identity.jobId)
      process.exportTarget with
  | .error error => .error error
  | .ok exporter =>
    match processingSelection adapters.registry process.selection derived with
    | .error error => .error error
    | .ok selection =>
      processDocuments (adapters.answers context.identity.jobId) receiver exporter identifiers
        selection (context.childDepth == 0)

/-- Children take their platform and their parent id from the parent's report. -/
def Inheritance.ofProcessed (receiver : R) (process : Process) (identifiers : Identifiers)
    (processed : ProcessStageExecution) : Inheritance R :=
  { parentReceiver := receiver
    exportTarget := process.exportTarget
    identifiers := (identifiers.withParentId processed.report.metadataId).withPlatform
      processed.report.platform
    platform := processed.report.platform }

section Outputs

variable (runChild : Job → ExecutionContext R X → Execution) (adapters : Adapters R X)

def runProcessResult (context : ExecutionContext R X) (receiver : R) (process : Process)
    (identifiers : Identifiers) (derived : Option ProcessSelection) :
    Traced (Except String ProcessExecution) :=
  match processStage adapters context receiver process identifiers derived with
  | .error error => ⟨processingBegun context.identity, .error error⟩
  | .ok processed =>
    let inheritance := Inheritance.ofProcessed receiver process identifiers processed
    let children :=
      runChildJobs runChild adapters context inheritance processed.includedDiagnostics
    { trace := processingBegun context.identity ++ children.trace
      result := .ok ⟨processed.report, children.result, processed.exportError⟩ }

def processFuture (context : ExecutionContext R X) (receiver : R) (job : Job)
    (derived : Except String (Option ProcessSelection)) :
    Traced (Option (Except String ProcessExecution)) :=
  match job.process with
  | none => ⟨[], none⟩
  | some process =>
    match derived with
    | .error error => ⟨[], some (.error error)⟩
    | .ok derived =>
      let processed := runProcessResult runChild adapters context receiver process
        job.identifiers derived
      ⟨processed.trace, some processed.result⟩

def sendingBegun (identity : ExecutionIdentity) : List TraceEntry :=
  [.observed (.new identity .send .queued),
    .observed (.new identity .send .started),
    .observed ((ExecutionEvent.new identity .send .progress).withMessage
      "Sending resolved bundle"),
    .ran identity.jobId .send]

def sendFuture (context : ExecutionContext R X) (bundlePath : Option PathBuf) (job : Job) :
    Traced (Option (Except String SendResult)) :=
  match job.send, bundlePath with
  | some send, some path =>
    ⟨sendingBegun context.identity,
      some ((adapters.answers context.identity.jobId).sendBundle path send.uploadId)⟩
  | some _, none => ⟨[], some (.error "Send requires a resolved local bundle")⟩
  | none, _ => ⟨[], none⟩

def applyProcessResult (identity : ExecutionIdentity) (execution : Execution)
    (result : Option (Except String ProcessExecution)) : Execution :=
  match result with
  | none => execution
  | some (.ok processed) =>
    let reported : Execution :=
      { execution with
        outcome :=
          { execution.outcome with
            report := some processed.report
            children := processed.children } }
    let recorded := reported.recordStage identity .process .succeeded
    match processed.exportError with
    | some error => recorded.recordStage identity .export (.failed error)
    | none => recorded.recordStage identity .export .succeeded
  | some (.error error) =>
    (execution.recordStage identity .process (.failed error)).recordStage identity .export
      (.blocked "Process did not complete")

def applySendResult (identity : ExecutionIdentity) (execution : Execution)
    (result : Option (Except String SendResult)) : Execution :=
  match result with
  | none => execution
  | some (.ok upload) =>
    { execution with
      outcome := { execution.outcome with send := some upload } }.recordStage identity .send
        .succeeded
  | some (.error error) => execution.recordStage identity .send (.failed error)

def runProcessStage (context : ExecutionContext R X) (receiver : R) (process : Process)
    (identifiers : Identifiers) (derived : Option ProcessSelection) (execution : Execution) :
    Execution :=
  let processed := runProcessResult runChild adapters context receiver process identifiers
    derived
  applyProcessResult context.identity (execution.append processed.trace)
    (some processed.result)

/-- Processing and sending run together; their results are recorded when both
are done. -/
def runIndependentOutputs (context : ExecutionContext R X) (job : Job)
    (resolved : ResolvedInput R) (derived : Except String (Option ProcessSelection))
    (execution : Execution) : Execution :=
  let processed := processFuture runChild adapters context resolved.receiver job derived
  let sent := sendFuture adapters context resolved.bundlePath job
  let joined := execution.append
    (interleave (adapters.outputSchedule context.identity.jobId) processed.trace sent.trace)
  applySendResult context.identity
    (applyProcessResult context.identity joined processed.result) sent.result

end Outputs

def inputStage (job : Job) : Stage := if job.input.isCollect then .collect else .load

def materializeRemote (job : Job) (retention : RetentionPolicy) : Bool :=
  !job.input.isCollect &&
    (job.process.isSome || job.send.isSome || retention == .retainLoadedBundle)

def requireLocalBundle (job : Job) : Bool := !job.input.isCollect && job.send.isSome

def resolveInput (adapters : Adapters R X) (context : ExecutionContext R X) (job : Job) :
    Except String (ResolvedInput R) :=
  resolve (adapters.answers context.identity.jobId) context.inputs job.input
    (materializeRemote job context.retention) (requireLocalBundle job)

def derivedSelection (adapters : Adapters R X) (job : Job) (resolved : ResolvedInput R) :
    Except String (Option ProcessSelection) :=
  match job.input.isCollect, job.process with
  | true, some process =>
    collectProcessSelection adapters.registry (resolved.application.getD .agent)
      job.input.collectDiagnosticType job.input.collectInclude job.input.collectExclude
      process.selection
  | _, _ => .ok none

def bundleDir (answers : Answers R X) (save : SaveTarget) :
    Except String PathBuf :=
  match save.dir with
  | some dir => .ok dir
  | none => answers.tempBundleDir

def collectOptions (job : Job) (application : Application) : CollectOptions :=
  { application := application
    diagnosticType := job.input.collectDiagnosticType
    included := job.input.collectInclude
    excluded := job.input.collectExclude
    identifiers := job.identifiers }

section Staging

variable (adapters : Adapters R X) (context : ExecutionContext R X) (job : Job)

/-- Collect into the archive and open what was written. An execution that ends
here is the error. -/
def collectArchive (save : SaveTarget) (outputDir : PathBuf) (receiver : R)
    (application : Application) (execution : Execution) :
    Except Execution (Execution × ResolvedInput R) :=
  let identity := context.identity
  let running := (execution.run identity.jobId .collect).run identity.jobId .save
  match (adapters.answers identity.jobId).collectBundle receiver outputDir
      (collectOptions job application) with
  | .error error =>
    .error (((running.recordStage identity .collect (.failed error)).recordStage identity .save
      (.failed error)).recordBlockedOutputs identity job "Collect failed")
  | .ok collection =>
    let bundlePath := PathBuf.ofString collection.path
    let recorded := (running.recordStage identity .collect .succeeded).recordStage identity .save
      .succeeded
    let collected : Execution :=
      { recorded with
        outcome :=
          { recorded.outcome with
            collection := some collection
            retainedBundle := if save.isRetained then some bundlePath else none } }
    match (adapters.answers identity.jobId).openBundle bundlePath with
    | .error error =>
      .error (collected.recordBlockedOutputs identity job
        ("Saved bundle could not be loaded: " ++ error))
    | .ok receiver => .ok (collected, ⟨receiver, none, some bundlePath⟩)

/-- The staged collection. A failure while the save is set up ends it with the
statuses that were recorded by then. -/
def stagedCollection (resolved : ResolvedInput R) (execution : Execution) :
    Except Execution (Execution × ResolvedInput R) :=
  let identity := context.identity
  match job.save with
  | none =>
    .error ((execution.recordStage identity .collect
      (.failed "Staged Collect requires Save")).recordBlockedOutputs identity job
        "Collect did not produce a bundle")
  | some save =>
    match bundleDir (adapters.answers identity.jobId) save with
    | .error error =>
      .error ((execution.recordStage identity .save (.failed error)).recordBlockedOutputs
        identity job "Save setup failed")
    | .ok outputDir =>
      let saving := (execution.observe identity .save .queued).observe identity .save .started
      match resolved.application with
      | none =>
        .error ((saving.recordStage identity .collect
          (.failed "Collect input did not resolve an application")).recordBlockedOutputs
            identity job "Collect application resolution failed")
      | some application =>
        match (adapters.answers identity.jobId).archive outputDir with
        | .error error =>
          .error ((saving.recordStage identity .save (.failed error)).recordBlockedOutputs
            identity job "Save setup failed")
        | .ok () =>
          collectArchive adapters context job save outputDir resolved.receiver application saving

/-- A loaded bundle is kept when the policy or a local file says so. -/
def loadedBundle (resolved : ResolvedInput R) : Option PathBuf :=
  if context.retention = .retainLoadedBundle then resolved.bundlePath
  else
    match job.input with
    | .load (.file _) => resolved.bundlePath
    | _ => none

def stagedInput (resolved : ResolvedInput R) (execution : Execution) :
    Except Execution (Execution × ResolvedInput R) :=
  if job.input.isCollect then stagedCollection adapters context job resolved execution
  else
    let recorded := execution.recordStage context.identity .load .succeeded
    .ok ({ recorded with
      outcome :=
        { recorded.outcome with retainedBundle := loadedBundle context job resolved } }, resolved)

end Staging

section Execute

variable (runChild : Job → ExecutionContext R X → Execution) (adapters : Adapters R X)

def inputBegun (job : Job) (context : ExecutionContext R X) : Execution :=
  let fresh : Execution := ⟨[], .new context.identity⟩
  ((fresh.observe context.identity (inputStage job) .queued).observe context.identity
    (inputStage job) .started).run context.identity.jobId (inputStage job)

def executeStreaming (job : Job) (context : ExecutionContext R X) (resolved : ResolvedInput R)
    (execution : Execution) : Execution :=
  let identity := context.identity
  let collected := execution.recordStage identity .collect .succeeded
  match job.process with
  | none => collected.recordBlockedOutputs identity job "Streaming execution requires Process"
  | some process =>
    match derivedSelection adapters job resolved with
    | .error error =>
      (collected.recordStage identity .process (.failed error)).recordStage identity .export
        (.blocked "Process selection is invalid")
    | .ok derived =>
      runProcessStage runChild adapters context resolved.receiver process job.identifiers
        derived collected

def executeStaged (job : Job) (context : ExecutionContext R X) (resolved : ResolvedInput R)
    (execution : Execution) : Execution :=
  match stagedInput adapters context job resolved execution with
  | .error ended => ended
  | .ok (staged, bundle) =>
    runIndependentOutputs runChild adapters context job bundle
      (derivedSelection adapters job resolved) staged

/-- One execution whose children are run by `runChild`. -/
def executeWith (job : Job) (context : ExecutionContext R X) : Execution :=
  let begun := inputBegun job context
  match resolveInput adapters context job with
  | .error error =>
    (begun.recordStage context.identity (inputStage job) (.failed error)).recordBlockedOutputs
      context.identity job "Phase-1 input failed"
  | .ok resolved =>
    match job.executionMode with
    | .streaming => executeStreaming runChild adapters job context resolved begun
    | .staged => executeStaged runChild adapters job context resolved begun

end Execute

/-- Included diagnostics have no included diagnostics: two levels of executions
are all there are. -/
def execute (adapters : Adapters R X) : Job → ExecutionContext R X → Execution :=
  executeWith (executeWith (fun _ context => ⟨[], .new context.identity⟩) adapters) adapters

section Levels

variable {adapters : Adapters R X} {first second : Job → ExecutionContext R X → Execution}

theorem childDepth_child {context child : ExecutionContext R X} {platform : Platform}
    {ids remaining : JobIds} (h : context.child platform ids = .ok (child, remaining)) :
    child.childDepth = context.childDepth + 1 := by
  unfold ExecutionContext.child at h
  split at h
  · cases h
  · cases h
    rfl

theorem launchChildren_congr
    (h : ∀ job (context : ExecutionContext R X), context.childDepth ≠ 0 →
      first job context = second job context)
    (inheritance : Inheritance R) (context : ExecutionContext R X) (ids : JobIds)
    (declarations : List DiagPath) :
    launchChildren first inheritance context ids declarations =
      launchChildren second inheritance context ids declarations := by
  induction declarations generalizing ids with
  | nil => rfl
  | cons declaration rest ih =>
    unfold launchChildren
    cases hchild : context.child inheritance.platform ids with
    | error error => simp only [ih]
    | ok allocated =>
      obtain ⟨child, remaining⟩ := allocated
      have hdeep : child.childDepth ≠ 0 := by
        have hdepth := childDepth_child hchild
        omega
      have hsame : ∀ job (inputs : KeyedMap BindingKey (RuntimeInput R)),
          first job { child with inputs := inputs } = second job { child with inputs := inputs } :=
        fun job inputs => h job _ hdeep
      simp only [ih, runChildJob, ExecutionContext.bindNested, hsame]

/-- Children come from a manifest that is read at the first level only. -/
theorem includedDiagnostics_of_deep {context : ExecutionContext R X}
    (hdeep : context.childDepth ≠ 0) {receiver : R} {process : Process}
    {identifiers : Identifiers} {derived : Option ProcessSelection}
    {processed : ProcessStageExecution}
    (h : processStage adapters context receiver process identifiers derived = .ok processed) :
    processed.includedDiagnostics = [] := by
  have hdiscover : (context.childDepth == 0) = false := by
    simpa using hdeep
  simp only [processStage, processDocuments, hdiscover] at h
  split at h
  · cases h
  · split at h
    · cases h
    · split at h
      · cases h
      · split at h
        · cases h
        · cases h
          rfl

theorem runProcessResult_congr (context : ExecutionContext R X)
    (h : context.childDepth ≠ 0 ∨ ∀ job (context : ExecutionContext R X),
      context.childDepth ≠ 0 → first job context = second job context)
    (receiver : R) (process : Process) (identifiers : Identifiers)
    (derived : Option ProcessSelection) :
    runProcessResult first adapters context receiver process identifiers derived =
      runProcessResult second adapters context receiver process identifiers derived := by
  unfold runProcessResult
  cases hstage : processStage adapters context receiver process identifiers derived with
  | error error => rfl
  | ok processed =>
    simp only [runChildJobs]
    rcases h with hdeep | hagree
    · simp only [includedDiagnostics_of_deep hdeep hstage, launchChildren]
    · simp only [launchChildren_congr hagree]

theorem executeWith_congr (job : Job) (context : ExecutionContext R X)
    (h : context.childDepth ≠ 0 ∨ ∀ job (context : ExecutionContext R X),
      context.childDepth ≠ 0 → first job context = second job context) :
    executeWith first adapters job context = executeWith second adapters job context := by
  simp only [executeWith, executeStreaming, executeStaged, runProcessStage,
    runIndependentOutputs, processFuture, runProcessResult_congr context h]

/-- The equation of the recursion: children run as their parent does. -/
theorem execute_eq (adapters : Adapters R X) (job : Job) (context : ExecutionContext R X) :
    execute adapters job context = executeWith (execute adapters) adapters job context := by
  refine executeWith_congr job context (.inr ?_)
  intro job child hdeep
  exact executeWith_congr job child (.inl hdeep)

end Levels

section OwnSteps

/-- A step that an execution takes on its own account. -/
inductive OwnStep (identity : ExecutionIdentity) : Execution → Execution → Prop
  | observed (execution : Execution) (stage : Stage) (lifecycle : Lifecycle) :
      OwnStep identity execution (execution.observe identity stage lifecycle)
  | ran (execution : Execution) (stage : Stage) :
      OwnStep identity execution (execution.run identity.jobId stage)
  | recorded (execution : Execution) (stage : Stage) (status : StageStatus) :
      OwnStep identity execution (execution.recordStage identity stage status)
  | kept (execution : Execution) (collection : Option CollectionResult)
      (bundle : Option PathBuf) :
      OwnStep identity execution
        { execution with
          outcome :=
            { execution.outcome with collection := collection, retainedBundle := bundle } }

abbrev OwnSteps (identity : ExecutionIdentity) : Execution → Execution → Prop :=
  Relation.ReflTransGen (OwnStep identity)

/-- What every own step preserves, own steps preserve. -/
theorem OwnSteps.preserve {identity : ExecutionIdentity} {first last : Execution} {T : Type}
    (f : Execution → T)
    (hstep : ∀ before after, OwnStep identity before after → f after = f before)
    (h : OwnSteps identity first last) : f last = f first := by
  induction h with
  | refl => rfl
  | tail _ hlast ih => rw [hstep _ _ hlast, ih]

theorem ownSteps_recordStage (execution : Execution) (identity : ExecutionIdentity)
    (stage : Stage) (status : StageStatus) :
    OwnSteps identity execution (execution.recordStage identity stage status) :=
  .single (.recorded execution stage status)

theorem ownSteps_recordBlocked (execution : Execution) (identity : ExecutionIdentity)
    (reason : String) (stage : Stage) :
    OwnSteps identity execution (execution.recordBlocked identity reason stage) := by
  unfold Execution.recordBlocked
  split
  · exact ownSteps_recordStage execution identity stage _
  · exact .refl

theorem ownSteps_recordBlockedOutputs (execution : Execution) (identity : ExecutionIdentity)
    (job : Job) (reason : String) :
    OwnSteps identity execution (execution.recordBlockedOutputs identity job reason) := by
  have hblocked := fun one => ownSteps_recordBlocked one identity reason
  have hprocessed : OwnSteps identity execution
      (if job.process.isSome then
        (execution.recordBlocked identity reason .process).recordBlocked identity reason .export
      else execution) := by
    split
    · exact (hblocked execution .process).trans (hblocked _ .export)
    · exact .refl
  simp only [Execution.recordBlockedOutputs]
  split
  · exact hprocessed.trans (hblocked _ .send)
  · exact hprocessed

/-- The execution at the end of a phase, whether it goes on or not. -/
def reached : Except Execution (Execution × ResolvedInput R) → Execution
  | .error ended => ended
  | .ok (execution, _) => execution

variable (adapters : Adapters R X) (job : Job) (context : ExecutionContext R X)

theorem ownSteps_inputBegun :
    OwnSteps context.identity ⟨[], .new context.identity⟩ (inputBegun job context) :=
  ((Relation.ReflTransGen.single (.observed _ _ _)).tail (.observed _ _ _)).tail (.ran _ _)

theorem ownSteps_collectArchive (save : SaveTarget) (outputDir : PathBuf) (receiver : R)
    (application : Application) (execution : Execution) :
    OwnSteps context.identity execution
      (reached (collectArchive adapters context job save outputDir receiver application
        execution)) := by
  have hran : OwnSteps context.identity execution
      ((execution.run context.identity.jobId .collect).run context.identity.jobId .save) :=
    (Relation.ReflTransGen.single (.ran _ _)).tail (.ran _ _)
  simp only [collectArchive]
  split
  · exact ((hran.tail (.recorded _ _ _)).tail (.recorded _ _ _)).trans
      (ownSteps_recordBlockedOutputs _ _ _ _)
  · have hkept := fun collection bundle =>
      ((hran.tail (.recorded _ .collect .succeeded)).tail (.recorded _ .save .succeeded)).tail
        (.kept _ collection bundle)
    split
    · exact (hkept _ _).trans (ownSteps_recordBlockedOutputs _ _ _ _)
    · exact hkept _ _

theorem ownSteps_stagedCollection (resolved : ResolvedInput R) (execution : Execution) :
    OwnSteps context.identity execution
      (reached (stagedCollection adapters context job resolved execution)) := by
  have hended := fun one stage status reason =>
    (ownSteps_recordStage one context.identity stage status).trans
      (ownSteps_recordBlockedOutputs _ context.identity job reason)
  have hsaving : OwnSteps context.identity execution
      ((execution.observe context.identity .save .queued).observe context.identity .save
        .started) :=
    (Relation.ReflTransGen.single (.observed _ _ _)).tail (.observed _ _ _)
  cases hsave : job.save with
  | none =>
    simp only [stagedCollection, hsave]
    exact hended execution _ _ _
  | some save =>
    cases hdir : bundleDir (adapters.answers context.identity.jobId) save with
    | error error =>
      simp only [stagedCollection, hsave, hdir]
      exact hended execution _ _ _
    | ok outputDir =>
      cases happlication : resolved.application with
      | none =>
        simp only [stagedCollection, hsave, hdir, happlication]
        exact hsaving.trans (hended _ _ _ _)
      | some application =>
        cases harchive : (adapters.answers context.identity.jobId).archive outputDir with
        | error error =>
          simp only [stagedCollection, hsave, hdir, happlication, harchive]
          exact hsaving.trans (hended _ _ _ _)
        | ok _ =>
          simp only [stagedCollection, hsave, hdir, happlication, harchive]
          exact hsaving.trans (ownSteps_collectArchive adapters job context save outputDir
            resolved.receiver application _)

theorem ownSteps_stagedInput (resolved : ResolvedInput R) (execution : Execution) :
    OwnSteps context.identity execution
      (reached (stagedInput adapters context job resolved execution)) := by
  unfold stagedInput
  split
  · exact ownSteps_stagedCollection adapters job context resolved execution
  · have hrecorded : OwnSteps context.identity execution
        (execution.recordStage context.identity .load .succeeded) :=
      ownSteps_recordStage execution context.identity .load .succeeded
    exact hrecorded.tail (.kept _ _ _)

end OwnSteps

end Esdiag.Executor
