import Mathlib.Data.List.Sort
import Esdiag.Executor

/-!
The fan-out of a job over the diagnostics that its bundle includes. The report
and the children of an execution are those of one processing of its resolved
input; the children run in contexts that differ in their ids alone, and they
are sorted by the order in which they finish. Only the answers to a child's own
calls reach its outcome.
-/
namespace Esdiag.ChildJobs

open KeyedMaps Deployments Reports ProcessSelections JobModel ExecutionOutcomes Interleavings
  Executor

variable {R X : Type}

section Results

/-- What recording statuses leaves alone. -/
def results (execution : Execution) :
    ExecutionIdentity × Option DiagnosticReport × List ChildOutcome :=
  (execution.outcome.identity, execution.outcome.report, execution.outcome.children)

variable (execution : Execution) (identity : ExecutionIdentity)

theorem results_append (trace : List TraceEntry) :
    results (execution.append trace) = results execution := rfl

@[simp] theorem results_recordStage (stage : Stage) (status : StageStatus) :
    results (execution.recordStage identity stage status) = results execution := by
  unfold results
  rw [Execution.outcome_recordStage]
  split <;> rfl

theorem results_ownStep {before after : Execution} (h : OwnStep identity before after) :
    results after = results before := by
  cases h with
  | observed => rfl
  | ran => rfl
  | recorded stage status => exact results_recordStage before identity stage status
  | kept => rfl

theorem results_ownSteps {first last : Execution} (h : OwnSteps identity first last) :
    results last = results first :=
  h.preserve results fun _ _ => results_ownStep identity

theorem results_applySendResult (result : Option (Except String SendResult)) :
    results (applySendResult identity execution result) = results execution := by
  cases result with
  | none => rfl
  | some result =>
    cases result with
    | error error => exact results_recordStage execution identity .send _
    | ok upload => simp only [applySendResult, results_recordStage]; rfl

theorem results_applyProcessResult (result : Option (Except String ProcessExecution))
    (hfresh : results execution = (identity, none, [])) :
    results (applyProcessResult identity execution result) =
      match result with
      | some (.ok processed) => (identity, some processed.report, processed.children)
      | _ => (identity, none, []) := by
  cases result with
  | none => exact hfresh
  | some result =>
    cases result with
    | error error => simp only [applyProcessResult, results_recordStage, hfresh]
    | ok processed =>
      have hidentity : execution.outcome.identity = identity := congrArg Prod.fst hfresh
      cases hexport : processed.exportError <;>
        simp only [applyProcessResult, hexport, results_recordStage] <;>
        simp only [results, hidentity]

end Results

section Processing

variable (adapters : Adapters R X) (job : Job) (context : ExecutionContext R X)

/-- The input that the outputs of a job work on, when its first phase succeeds. -/
def outputInput (resolved : ResolvedInput R) : Option (ResolvedInput R) :=
  match job.executionMode with
  | .streaming => some resolved
  | .staged =>
    match stagedInput adapters context job resolved (inputBegun job context) with
    | .error _ => none
    | .ok (_, staged) => some staged

structure Processing (R : Type) where
  receiver : R
  process : Process
  processed : ProcessStageExecution

/-- The processing of a job, where it comes to a report. -/
def processing : Option (Processing R) :=
  match job.process, resolveInput adapters context job with
  | some process, .ok resolved =>
    match derivedSelection adapters job resolved, outputInput adapters job context resolved with
    | .ok derived, some input =>
      match processStage adapters context input.receiver process job.identifiers derived with
      | .ok processed => some ⟨input.receiver, process, processed⟩
      | .error _ => none
    | _, _ => none
  | _, _ => none

/-- The diagnostics that the manifest of the processed bundle includes. Without
a report there is no processed bundle, and nothing to fan out over. -/
def includedDiagnostics : List DiagPath :=
  match processing adapters job context with
  | none => []
  | some one =>
    match (adapters.answers context.identity.jobId).manifest one.receiver with
    | .error _ => []
    | .ok manifest => if context.childDepth = 0 then manifest.childDiagnostics else []

def inheritance (job : Job) (one : Processing R) : Inheritance R :=
  .ofProcessed one.receiver one.process job.identifiers one.processed

/-- The children of a job, with the trace of their executions. -/
def childJobs (runChild : Job → ExecutionContext R X → Execution) : Traced (List ChildOutcome) :=
  match processing adapters job context with
  | none => ⟨[], []⟩
  | some one =>
    runChildJobs runChild adapters context (inheritance job one)
      one.processed.includedDiagnostics

/-- The processing of a run: its trace is the job's own up to the children, and
its result is the report with the children. -/
def Processed (runChild : Job → ExecutionContext R X → Execution)
    (processed : Traced (Option (Except String ProcessExecution))) : Prop :=
  match processing adapters job context with
  | none =>
    (∀ entry ∈ processed.trace, entry.jobId = context.identity.jobId) ∧
      ∀ one, processed.result ≠ some (.ok one)
  | some one =>
    processed.trace =
        processingBegun context.identity ++ (childJobs adapters job context runChild).trace ∧
      processed.result = some (.ok ⟨one.processed.report,
        (childJobs adapters job context runChild).result, one.processed.exportError⟩)

theorem jobId_of_mem_processingBegun {identity : ExecutionIdentity} {entry : TraceEntry}
    (h : entry ∈ processingBegun identity) : entry.jobId = identity.jobId := by
  have hall : ∀ one ∈ processingBegun identity, one.jobId = identity.jobId := by
    unfold processingBegun
    repeat' refine List.forall_mem_cons.mpr ⟨rfl, ?_⟩
    exact fun _ hmem => by cases hmem
  exact hall entry h

theorem jobId_of_mem_sendFuture {bundlePath : Option PathBuf} {entry : TraceEntry}
    (h : entry ∈ (sendFuture adapters context bundlePath job).trace) :
    entry.jobId = context.identity.jobId := by
  unfold sendFuture at h
  split at h
  · have hall : ∀ one ∈ sendingBegun context.identity, one.jobId = context.identity.jobId := by
      unfold sendingBegun
      repeat' refine List.forall_mem_cons.mpr ⟨rfl, ?_⟩
      exact fun _ hmem => by cases hmem
    exact hall entry h
  · cases h
  · cases h

theorem processFuture_processed (runChild : Job → ExecutionContext R X → Execution)
    {resolved input : ResolvedInput R} (hresolve : resolveInput adapters context job = .ok resolved)
    (hinput : outputInput adapters job context resolved = some input) :
    Processed adapters job context runChild (processFuture runChild adapters context
      input.receiver job (derivedSelection adapters job resolved)) := by
  cases hprocess : job.process with
  | none => simp [Processed, processing, processFuture, hprocess]
  | some process =>
    cases hderived : derivedSelection adapters job resolved with
    | error error =>
      simp [Processed, processing, processFuture, hprocess, hresolve, hderived]
    | ok derived =>
      cases hstage : processStage adapters context input.receiver process job.identifiers
          derived with
      | error error =>
        simp only [Processed, processing, processFuture, runProcessResult, hprocess, hresolve,
          hderived, hinput, hstage]
        exact ⟨fun _ => jobId_of_mem_processingBegun, fun one h => by cases h⟩
      | ok processed =>
        simp only [Processed, processing, processFuture, runProcessResult, childJobs, hprocess,
          hresolve, hderived, hinput, hstage, inheritance]
        exact ⟨trivial, trivial⟩

/-- Without outputs there is nothing to apply, and no processing. -/
theorem processed_nothing (runChild : Job → ExecutionContext R X → Execution)
    (h : processing adapters job context = none) :
    Processed adapters job context runChild ⟨[], none⟩ := by
  simp [Processed, h]

/-- The parts of a run: own steps, then the processing and the sending merged,
then their results. -/
structure RunParts (runChild : Job → ExecutionContext R X → Execution) (before : Execution)
    (choices : List Bool) (processed : Traced (Option (Except String ProcessExecution)))
    (sent : Traced (Option (Except String SendResult))) : Prop where
  steps : OwnSteps context.identity ⟨[], .new context.identity⟩ before
  processing : Processed adapters job context runChild processed
  sending : ∀ entry ∈ sent.trace, entry.jobId = context.identity.jobId
  run : executeWith runChild adapters job context =
    applySendResult context.identity (applyProcessResult context.identity
      (before.append (interleave choices processed.trace sent.trace)) processed.result)
      sent.result

/-- A run that ends before its outputs. -/
theorem runParts_ended (runChild : Job → ExecutionContext R X → Execution) {ended : Execution}
    (hsteps : OwnSteps context.identity ⟨[], .new context.identity⟩ ended)
    (hprocessing : processing adapters job context = none)
    (hrun : executeWith runChild adapters job context = ended) :
    RunParts adapters job context runChild ended [] ⟨[], none⟩ ⟨[], none⟩ where
  steps := hsteps
  processing := processed_nothing adapters job context runChild hprocessing
  sending := fun _ hmem => by cases hmem
  run := by
    rw [hrun]
    simp only [interleave, Execution.append, List.append_nil, applyProcessResult,
      applySendResult]

theorem exists_runParts (runChild : Job → ExecutionContext R X → Execution) :
    ∃ before choices processed sent,
      RunParts adapters job context runChild before choices processed sent := by
  have hbegun := ownSteps_inputBegun job context
  cases hresolve : resolveInput adapters context job with
  | error error =>
    have hprocessing : processing adapters job context = none := by
      unfold processing
      rw [hresolve]
      cases job.process <;> rfl
    have hended := (hbegun.tail (.recorded _ (inputStage job) (.failed error))).trans
      (ownSteps_recordBlockedOutputs _ context.identity job "Phase-1 input failed")
    exact ⟨_, _, _, _, runParts_ended adapters job context runChild hended hprocessing
      (by simp only [executeWith, hresolve])⟩
  | ok resolved =>
    cases hmode : job.executionMode with
    | streaming =>
      have hcollected := hbegun.tail (.recorded _ .collect .succeeded)
      cases hprocess : job.process with
      | none =>
        have hprocessing : processing adapters job context = none := by
          simp only [processing, hprocess]
        have hended := hcollected.trans (ownSteps_recordBlockedOutputs _ context.identity job
          "Streaming execution requires Process")
        exact ⟨_, _, _, _, runParts_ended adapters job context runChild hended hprocessing
          (by simp only [executeWith, executeStreaming, hresolve, hmode, hprocess])⟩
      | some process =>
        cases hderived : derivedSelection adapters job resolved with
        | error error =>
          have hprocessing : processing adapters job context = none := by
            simp only [processing, hprocess, hresolve, hderived]
          have hended := (hcollected.tail (.recorded _ .process (.failed error))).tail
            (.recorded _ .export (.blocked "Process selection is invalid"))
          exact ⟨_, _, _, _, runParts_ended adapters job context runChild hended hprocessing
            (by simp only [executeWith, executeStreaming, hresolve, hmode, hprocess, hderived])⟩
        | ok derived =>
          have hinput : outputInput adapters job context resolved = some resolved := by
            simp only [outputInput, hmode]
          refine ⟨_, [], _, ⟨[], none⟩, hcollected, processFuture_processed adapters job context
            runChild hresolve hinput, (fun _ hmem => by cases hmem), ?_⟩
          simp only [executeWith, executeStreaming, runProcessStage, processFuture, hresolve,
            hmode, hprocess, hderived, interleave, List.append_nil, applySendResult]
    | staged =>
      have hstaging := hbegun.trans
        (ownSteps_stagedInput adapters job context resolved (inputBegun job context))
      cases hstaged : stagedInput adapters context job resolved (inputBegun job context) with
      | error ended =>
        rw [hstaged] at hstaging
        have hprocessing : processing adapters job context = none := by
          cases hprocess : job.process with
          | none => simp only [processing, hprocess]
          | some process =>
            cases hderived : derivedSelection adapters job resolved <;>
              simp only [processing, hprocess, hresolve, hderived, outputInput, hmode, hstaged]
        exact ⟨_, _, _, _, runParts_ended adapters job context runChild hstaging hprocessing
          (by simp only [executeWith, executeStaged, hresolve, hmode, hstaged]; rfl)⟩
      | ok staged =>
        rw [hstaged] at hstaging
        have hinput : outputInput adapters job context resolved = some staged.2 := by
          simp only [outputInput, hmode, hstaged]
        refine ⟨_, adapters.outputSchedule context.identity.jobId, _,
          sendFuture adapters context staged.2.bundlePath job, hstaging,
          processFuture_processed adapters job context runChild hresolve hinput,
          (fun _ hmem => jobId_of_mem_sendFuture adapters job context hmem), ?_⟩
        simp only [executeWith, executeStaged, runIndependentOutputs, hresolve, hmode, hstaged]
        rfl

/-- An execution reports its processing and holds the children of it. -/
theorem results_executeWith (runChild : Job → ExecutionContext R X → Execution) :
    results (executeWith runChild adapters job context) =
      (context.identity,
        (processing adapters job context).map fun one => one.processed.report,
        (childJobs adapters job context runChild).result) := by
  obtain ⟨before, choices, processed, sent, hparts⟩ :=
    exists_runParts adapters job context runChild
  have hbefore := results_ownSteps context.identity hparts.steps
  have hjoined := fun trace => (results_append before trace).trans hbefore
  rw [hparts.run, results_applySendResult,
    results_applyProcessResult _ context.identity _ (hjoined _)]
  have hprocessed := hparts.processing
  unfold Processed at hprocessed
  cases hprocessing : processing adapters job context with
  | none =>
    rw [hprocessing] at hprocessed
    simp only [childJobs, hprocessing, Option.map_none]
    cases hresult : processed.result with
    | none => rfl
    | some result =>
      cases result with
      | error error => rfl
      | ok one => exact absurd hresult (hprocessed.2 one)
  | some one =>
    rw [hprocessing] at hprocessed
    rw [hprocessed.2, Option.map_some]

theorem processing_spec {one : Processing R} (h : processing adapters job context = some one) :
    ∃ derived, job.process = some one.process ∧
      processStage adapters context one.receiver one.process job.identifiers derived =
        .ok one.processed := by
  unfold processing at h
  split at h
  · rename_i process resolved hprocess _
    split at h
    · rename_i derived input _ _
      split at h
      · rename_i processed hstage
        cases h
        exact ⟨derived, hprocess, hstage⟩
      · cases h
    · cases h
  · cases h

/-- What the process stage reports: the identifiers of the job, on one platform,
and the diagnostics of the manifest at the first level. -/
theorem processed_spec {one : Processing R} (h : processing adapters job context = some one) :
    ∃ manifest,
      (adapters.answers context.identity.jobId).manifest one.receiver = .ok manifest ∧
      one.processed.report.identifiers = job.identifiers.withPlatform
        (job.identifiers.platform.getD manifest.detectedPlatform) ∧
      one.processed.includedDiagnostics =
        if context.childDepth = 0 then manifest.childDiagnostics else [] := by
  obtain ⟨derived, _, hstage⟩ := processing_spec adapters job context h
  unfold processStage at hstage
  split at hstage
  · cases hstage
  · split at hstage
    · cases hstage
    · simp only [processDocuments] at hstage
      split at hstage
      · cases hstage
      · rename_i manifest hmanifest
        split at hstage
        · cases hstage
        · have hprocessed := Except.ok.inj hstage
          refine ⟨manifest, hmanifest, ?_, ?_⟩
          · rw [← hprocessed]
            rfl
          · rw [← hprocessed]
            simp only [beq_iff_eq]

theorem includedDiagnostics_eq :
    includedDiagnostics adapters job context =
      ((processing adapters job context).map fun one =>
        one.processed.includedDiagnostics).getD [] := by
  unfold includedDiagnostics
  cases hprocessing : processing adapters job context with
  | none => rfl
  | some one =>
    obtain ⟨manifest, hmanifest, _, hincluded⟩ := processed_spec adapters job context hprocessing
    simp only [hmanifest, Option.map_some, Option.getD_some, hincluded]

theorem childJobs_of_deep (hdeep : context.childDepth ≠ 0)
    (runChild : Job → ExecutionContext R X → Execution) :
    childJobs adapters job context runChild = ⟨[], []⟩ := by
  unfold childJobs
  cases hprocessing : processing adapters job context with
  | none => rfl
  | some one =>
    obtain ⟨manifest, _, _, hincluded⟩ := processed_spec adapters job context hprocessing
    rw [if_neg hdeep] at hincluded
    simp only [hincluded, runChildJobs, launchChildren, List.map_nil, List.insertionSort_nil]
    rfl

end Processing

section Launch

/-- The ids of the children of a parent, in the order of the declarations. -/
def childIds (parentJobId : ℕ) : JobIds → ℕ → List ℕ
  | _, 0 => []
  | ids, n + 1 =>
    let allocated := (nextDistinctJobId parentJobId 2 ids).get
      (isSome_nextDistinctJobId parentJobId ids)
    allocated.1 :: childIds parentJobId allocated.2 n

def childContext (context : ExecutionContext R X) (platform : Platform) (jobId : ℕ) :
    ExecutionContext R X :=
  { context with
    identity := ⟨jobId, context.identity.owner, some context.identity.jobId⟩
    inheritedPlatform := some platform
    childDepth := context.childDepth + 1 }

theorem length_childIds (parentJobId n : ℕ) (ids : JobIds) :
    (childIds parentJobId ids n).length = n := by
  induction n generalizing ids with
  | zero => rfl
  | succ n ih => simp only [childIds, List.length_cons, ih]

/-- At the first level, children differ from their context in the ids alone. -/
theorem launchChildren_eq (runChild : Job → ExecutionContext R X → Execution)
    (inheritance : Inheritance R) (context : ExecutionContext R X)
    (hdepth : context.childDepth = 0) (ids : JobIds) (declarations : List DiagPath) :
    launchChildren runChild inheritance context ids declarations =
      (declarations.zip (childIds context.identity.jobId ids declarations.length)).map
        fun one => runChildJob runChild inheritance one.1.diagPath
          (childContext context inheritance.platform one.2) := by
  induction declarations generalizing ids with
  | nil => rfl
  | cons declaration rest ih =>
    have hchild : ¬ 1 ≤ context.childDepth := by omega
    simp only [launchChildren, ExecutionContext.child, if_neg hchild, ih, List.length_cons,
      childIds, List.zip_cons_cons, List.map_cons]
    rfl

theorem nextDistinctJobId_spec {parentJobId fuel jobId : ℕ} {ids remaining : JobIds}
    (h : nextDistinctJobId parentJobId fuel ids = some (jobId, remaining)) :
    ids.drawn 0 ≤ jobId ∧ jobId ≠ parentJobId ∧ jobId < remaining.drawn 0 := by
  induction fuel generalizing ids with
  | zero => cases h
  | succ fuel ih =>
    have hgrows : ids.drawn 0 < ids.drawn 1 := ids.increasing (by omega)
    unfold nextDistinctJobId at h
    by_cases hfirst : ids.drawn 0 = parentJobId
    · rw [if_neg (by simpa [JobIds.draw] using hfirst)] at h
      obtain ⟨hle, hne, hlt⟩ := ih h
      have hdraw : ids.draw.2.drawn 0 = ids.drawn 1 := rfl
      rw [hdraw] at hle
      exact ⟨by omega, hne, hlt⟩
    · rw [if_pos (by simpa [JobIds.draw] using hfirst)] at h
      cases h
      exact ⟨le_refl _, hfirst, hgrows⟩

/-- Later ids are greater, and none is the parent's. -/
theorem childIds_spec (parentJobId n : ℕ) (ids : JobIds) :
    (childIds parentJobId ids n).Pairwise (· < ·) ∧
      ∀ jobId ∈ childIds parentJobId ids n, ids.drawn 0 ≤ jobId ∧ jobId ≠ parentJobId := by
  induction n generalizing ids with
  | zero => exact ⟨.nil, fun _ hmem => by cases hmem⟩
  | succ n ih =>
    obtain ⟨⟨jobId, remaining⟩, hallocated⟩ :=
      Option.isSome_iff_exists.mp (isSome_nextDistinctJobId parentJobId ids)
    obtain ⟨hle, hne, hlt⟩ := nextDistinctJobId_spec hallocated
    obtain ⟨hsorted, hbound⟩ := ih remaining
    simp only [childIds, hallocated, Option.get_some]
    constructor
    · refine List.pairwise_cons.mpr ⟨fun later hmem => ?_, hsorted⟩
      have hlater := (hbound later hmem).1
      omega
    · intro later hmem
      rcases List.mem_cons.mp hmem with rfl | hmem
      · exact ⟨hle, hne⟩
      · obtain ⟨hlater, hdistinct⟩ := hbound later hmem
        exact ⟨by omega, hdistinct⟩

theorem nodup_childIds (parentJobId n : ℕ) (ids : JobIds) :
    (childIds parentJobId ids n).Nodup :=
  (childIds_spec parentJobId n ids).1.imp fun hlt => Nat.ne_of_lt hlt

end Launch

section Children

variable (adapters : Adapters R X) (job : Job) (context : ExecutionContext R X)

theorem results_execute :
    results (execute adapters job context) =
      (context.identity,
        (processing adapters job context).map fun one => one.processed.report,
        (childJobs adapters job context (execute adapters)).result) := by
  rw [execute_eq]
  exact results_executeWith adapters job context (execute adapters)

theorem identity_execute :
    (execute adapters job context).outcome.identity = context.identity :=
  congrArg Prod.fst (results_execute adapters job context)

theorem report_execute :
    (execute adapters job context).outcome.report =
      (processing adapters job context).map fun one => one.processed.report :=
  congrArg (fun all => all.2.1) (results_execute adapters job context)

theorem children_execute :
    (execute adapters job context).outcome.children =
      (childJobs adapters job context (execute adapters)).result :=
  congrArg (fun all => all.2.2) (results_execute adapters job context)

theorem children_of_deep (hdeep : context.childDepth ≠ 0) :
    (execute adapters job context).outcome.children = [] := by
  rw [children_execute, childJobs_of_deep adapters job context hdeep]

/-- The report of a job whose platform is given carries the job's identifiers. -/
theorem report_identifiers_of_platform {platform : Platform} {report : DiagnosticReport}
    (hplatform : job.identifiers.platform = some platform)
    (hreport : (execute adapters job context).outcome.report = some report) :
    report.identifiers = job.identifiers := by
  rw [report_execute, Option.map_eq_some_iff] at hreport
  obtain ⟨one, hprocessing, rfl⟩ := hreport
  obtain ⟨manifest, _, hidentifiers, _⟩ := processed_spec adapters job context hprocessing
  rw [hidentifiers, hplatform, Option.getD_some, Identifiers.withPlatform, ← hplatform]

/-- What a child owes to its context and to its parent's report. -/
structure Inherited (identity : ExecutionIdentity) (inheritance : Inheritance R)
    (child : ChildOutcome) : Prop where
  identity : child.execution.identity = identity
  platform : child.platform = inheritance.platform
  reported : ∀ report, child.execution.report = some report →
    report.identifiers = inheritance.identifiers
  noGrandchildren : child.execution.children = []

theorem runChildJob_inherited (inheritance : Inheritance R)
    (hplatform : inheritance.identifiers.platform = some inheritance.platform) (path : String)
    (hdeep : context.childDepth ≠ 0) :
    (runChildJob (execute adapters) inheritance path context).result.path = path ∧
      Inherited context.identity inheritance
        (runChildJob (execute adapters) inheritance path context).result := by
  have hfailed : ∀ error, Inherited context.identity inheritance
      (failedChildExecution context.identity path error inheritance.platform) := by
    intro error
    exact ⟨rfl, rfl, (fun report h => by cases h), rfl⟩
  unfold runChildJob
  split
  · exact ⟨rfl, hfailed _⟩
  · rename_i binding _
    split
    · exact ⟨rfl, hfailed _⟩
    · rename_i child hchild
      have hidentifiers : child.identifiers = inheritance.identifiers := by
        unfold Job.tryNew at hchild
        split at hchild
        · cases hchild
        · cases hchild
          rfl
      have hreported : ∀ report, (execute adapters child (context.bindNested binding
          inheritance.parentReceiver path none)).outcome.report = some report →
          report.identifiers = inheritance.identifiers := by
        intro report hreport
        rw [← hidentifiers]
        exact report_identifiers_of_platform adapters child _ (hidentifiers ▸ hplatform) hreport
      refine ⟨rfl, identity_execute adapters child _, ?_, hreported,
        children_of_deep adapters child _ hdeep⟩
      simp only [childOutcome]
      cases hreport : (execute adapters child (context.bindNested binding
          inheritance.parentReceiver path none)).outcome.report with
      | none => rfl
      | some report =>
        simp only [Option.map_some, Option.getD_some, DiagnosticReport.platform,
          hreported report hreport, hplatform]

/-- The children of a job in the order of their declarations. -/
def launched : List ChildOutcome :=
  match processing adapters job context with
  | none => []
  | some one =>
    (one.processed.includedDiagnostics.zip (childIds context.identity.jobId adapters.jobIds
      one.processed.includedDiagnostics.length)).map fun declared =>
        (runChildJob (execute adapters) (inheritance job one) declared.1.diagPath
          (childContext context (inheritance job one).platform declared.2)).result

/-- A launched child: its declaration and its id, and what it inherits. -/
theorem launched_spec (one : Processing R) (declared : DiagPath × ℕ) :
    let child := (runChildJob (execute adapters) (inheritance job one) declared.1.diagPath
      (childContext context (inheritance job one).platform declared.2)).result
    child.path = declared.1.diagPath ∧ child.jobId = declared.2 ∧
      Inherited ⟨declared.2, context.identity.owner, some context.identity.jobId⟩
        (inheritance job one) child := by
  have hdeep : (childContext context (inheritance job one).platform declared.2).childDepth ≠ 0 :=
    Nat.succ_ne_zero _
  obtain ⟨hpath, hinherited⟩ := runChildJob_inherited adapters _ (inheritance job one) rfl
    declared.1.diagPath hdeep
  exact ⟨hpath, congrArg ExecutionIdentity.jobId hinherited.identity, hinherited⟩

theorem map_path_launched :
    (launched adapters job context).map (fun child => child.path) =
      (includedDiagnostics adapters job context).map DiagPath.diagPath := by
  rw [includedDiagnostics_eq]
  unfold launched
  cases processing adapters job context with
  | none => rfl
  | some one =>
    have hpath := fun declared => (launched_spec adapters job context one declared).1
    have hfst : (one.processed.includedDiagnostics.zip (childIds context.identity.jobId
        adapters.jobIds one.processed.includedDiagnostics.length)).map Prod.fst =
          one.processed.includedDiagnostics :=
      List.map_fst_zip (le_of_eq (length_childIds _ _ _).symm)
    simp only [List.map_map, Function.comp_def, hpath, Option.map_some, Option.getD_some]
    conv_rhs => rw [← hfst, List.map_map]
    rfl

theorem map_jobId_launched :
    (launched adapters job context).map ChildExecutionOutcome.jobId =
      childIds context.identity.jobId adapters.jobIds
        (includedDiagnostics adapters job context).length := by
  rw [includedDiagnostics_eq]
  unfold launched
  cases processing adapters job context with
  | none => rfl
  | some one =>
    have hjobId := fun declared => (launched_spec adapters job context one declared).2.1
    simp only [List.map_map, Function.comp_def, hjobId, Option.map_some, Option.getD_some]
    exact List.map_snd_zip (le_of_eq (length_childIds _ _ _))

theorem children_perm :
    (execute adapters job context).outcome.children.Perm (launched adapters job context) := by
  by_cases hdepth : context.childDepth = 0
  · rw [children_execute]
    unfold childJobs launched
    cases processing adapters job context with
    | none => exact .refl _
    | some one =>
      simp only [runChildJobs, launchChildren_eq _ _ _ hdepth, List.map_map]
      exact List.perm_insertionSort _ _
  · have hincluded : includedDiagnostics adapters job context = [] := by
      unfold includedDiagnostics
      split
      · rfl
      · split
        · rfl
        · exact if_neg hdepth
    have hpaths := map_path_launched adapters job context
    rw [hincluded, List.map_nil, List.map_eq_nil_iff] at hpaths
    rw [children_of_deep adapters job context hdepth, hpaths]

theorem mem_launched {child : ChildOutcome} (h : child ∈ launched adapters job context) :
    ∃ one jobId, processing adapters job context = some one ∧
      Inherited ⟨jobId, context.identity.owner, some context.identity.jobId⟩
        (inheritance job one) child := by
  unfold launched at h
  split at h
  · cases h
  · rename_i one hprocessing
    obtain ⟨declared, _, rfl⟩ := List.mem_map.mp h
    exact ⟨one, declared.2, hprocessing, (launched_spec adapters job context one declared).2.2⟩

end Children

section Isolation

/-- The outcome of an execution without its children. -/
def ownOutcome (execution : Execution) : ExecutionOutcome :=
  { execution.outcome with children := [] }

theorem ownOutcome_of_childless (execution : Execution) (h : execution.outcome.children = []) :
    ownOutcome execution = execution.outcome := by
  obtain ⟨trace, outcome⟩ := execution
  cases outcome with
  | mk identity stages collection report children retainedBundle send =>
    change children = [] at h
    subst h
    rfl

theorem ownOutcome_recordStage (execution : Execution) (identity : ExecutionIdentity)
    (stage : Stage) (status : StageStatus) :
    ownOutcome (execution.recordStage identity stage status) =
      if ((ownOutcome execution).stage stage).isSome then ownOutcome execution
      else (ownOutcome execution).record stage status := by
  have hstage : (ownOutcome execution).stage stage = execution.outcome.stage stage := rfl
  rw [hstage]
  unfold ownOutcome
  rw [Execution.outcome_recordStage]
  split <;> rfl

variable {first second : Execution} (identity : ExecutionIdentity)

theorem recordStage_congr (h : ownOutcome first = ownOutcome second) (stage : Stage)
    (status : StageStatus) :
    ownOutcome (first.recordStage identity stage status) =
      ownOutcome (second.recordStage identity stage status) := by
  rw [ownOutcome_recordStage, ownOutcome_recordStage, h]

/-- What a process result says about its own job. -/
def ownResult (result : Except String ProcessExecution) :
    Except String (DiagnosticReport × Option String) :=
  result.map fun processed => (processed.report, processed.exportError)

theorem applyProcessResult_congr {one other : Option (Except String ProcessExecution)}
    (h : ownOutcome first = ownOutcome second) (hresult : one.map ownResult = other.map ownResult) :
    ownOutcome (applyProcessResult identity first one) =
      ownOutcome (applyProcessResult identity second other) := by
  cases one with
  | none =>
    cases other with
    | none => exact h
    | some other => cases hresult
  | some one =>
    cases other with
    | none => cases hresult
    | some other =>
      rw [Option.map_some, Option.map_some, Option.some.injEq] at hresult
      cases one with
      | error error =>
        cases other with
        | ok processed => cases hresult
        | error error' =>
          cases hresult
          exact recordStage_congr identity (recordStage_congr identity h _ _) _ _
      | ok processed =>
        cases other with
        | error error => cases hresult
        | ok processed' =>
          have hfields := Except.ok.inj hresult
          have hreport : processed.report = processed'.report := congrArg Prod.fst hfields
          have hexport : processed.exportError = processed'.exportError :=
            congrArg Prod.snd hfields
          have hreported : ownOutcome { first with
              outcome := { first.outcome with
                report := some processed.report, children := processed.children } } =
              ownOutcome { second with
                outcome := { second.outcome with
                  report := some processed'.report, children := processed'.children } } := by
            rw [hreport]
            exact congrArg (fun outcome : ExecutionOutcome =>
              { outcome with report := some processed'.report }) h
          simp only [applyProcessResult, hexport]
          cases processed'.exportError <;>
            exact recordStage_congr identity (recordStage_congr identity hreported _ _) _ _

theorem applySendResult_congr (h : ownOutcome first = ownOutcome second)
    (result : Option (Except String SendResult)) :
    ownOutcome (applySendResult identity first result) =
      ownOutcome (applySendResult identity second result) := by
  cases result with
  | none => exact h
  | some result =>
    cases result with
    | error error => exact recordStage_congr identity h _ _
    | ok upload =>
      refine recordStage_congr identity ?_ _ _
      exact congrArg (fun outcome : ExecutionOutcome => { outcome with send := some upload }) h

variable {adapters other : Adapters R X} {context : ExecutionContext R X}

/-- An execution reads the registry and the answers to its own calls. -/
structure AgreeOn (adapters other : Adapters R X) (jobId : ℕ) : Prop where
  registry : other.registry = adapters.registry
  answers : other.answers jobId = adapters.answers jobId

/-- Up to the upload, an execution does not read what the sender answers. -/
structure ProcessesAlike (adapters other : Adapters R X) (jobId : ℕ) : Prop where
  registry : other.registry = adapters.registry
  answers : ∃ sendBundle, other.answers jobId =
    { adapters.answers jobId with sendBundle := sendBundle }

theorem AgreeOn.processesAlike {jobId : ℕ} (h : AgreeOn adapters other jobId) :
    ProcessesAlike adapters other jobId :=
  ⟨h.registry, (adapters.answers jobId).sendBundle, h.answers⟩

theorem resolveInput_congr (h : ProcessesAlike adapters other context.identity.jobId)
    (job : Job) : resolveInput other context job = resolveInput adapters context job := by
  obtain ⟨sendBundle, hanswers⟩ := h.answers
  simp only [resolveInput, hanswers]
  rfl

theorem derivedSelection_congr (h : ProcessesAlike adapters other context.identity.jobId)
    (job : Job) (resolved : ResolvedInput R) :
    derivedSelection other job resolved = derivedSelection adapters job resolved := by
  simp only [derivedSelection, h.registry]

theorem stagedInput_congr (h : ProcessesAlike adapters other context.identity.jobId) (job : Job)
    (resolved : ResolvedInput R) (execution : Execution) :
    stagedInput other context job resolved execution =
      stagedInput adapters context job resolved execution := by
  obtain ⟨sendBundle, hanswers⟩ := h.answers
  simp only [stagedInput, stagedCollection, collectArchive, bundleDir, hanswers]

theorem processStage_congr (h : ProcessesAlike adapters other context.identity.jobId)
    (receiver : R) (process : Process) (identifiers : Identifiers)
    (derived : Option ProcessSelection) :
    processStage other context receiver process identifiers derived =
      processStage adapters context receiver process identifiers derived := by
  obtain ⟨sendBundle, hanswers⟩ := h.answers
  simp only [processStage, hanswers, h.registry]
  rfl

theorem processing_congr (h : ProcessesAlike adapters other context.identity.jobId) (job : Job) :
    processing other job context = processing adapters job context := by
  simp only [processing, outputInput, resolveInput_congr h, derivedSelection_congr h,
    stagedInput_congr h, processStage_congr h]

/-- A job without an upload never asks the sender. -/
theorem sendFuture_of_unsent {job : Job} (hsend : job.send = none)
    (adapters : Adapters R X) (context : ExecutionContext R X) (bundlePath : Option PathBuf) :
    sendFuture adapters context bundlePath job = ⟨[], none⟩ := by
  unfold sendFuture
  rw [hsend]

variable (runFirst runSecond : Job → ExecutionContext R X → Execution)

theorem runProcessResult_own (h : ProcessesAlike adapters other context.identity.jobId)
    (receiver : R) (process : Process) (identifiers : Identifiers)
    (derived : Option ProcessSelection) :
    ownResult (runProcessResult runSecond other context receiver process identifiers
        derived).result =
      ownResult (runProcessResult runFirst adapters context receiver process identifiers
        derived).result := by
  simp only [runProcessResult, processStage_congr h]
  cases processStage adapters context receiver process identifiers derived <;> rfl

theorem processFuture_own (h : ProcessesAlike adapters other context.identity.jobId)
    (receiver : R) (job : Job) (derived : Except String (Option ProcessSelection)) :
    (processFuture runSecond other context receiver job derived).result.map ownResult =
      (processFuture runFirst adapters context receiver job derived).result.map ownResult := by
  unfold processFuture
  cases job.process with
  | none => rfl
  | some process =>
    cases derived with
    | error error => rfl
    | ok derived => exact congrArg some (runProcessResult_own runFirst runSecond h _ _ _ _)

/-- Apart from its children, the outcome of an execution does not depend on what
others are answered, on the schedule or on who runs the children. -/
theorem ownOutcome_executeWith (h : ProcessesAlike adapters other context.identity.jobId)
    (job : Job) (hsend : ∀ bundlePath, (sendFuture other context bundlePath job).result =
      (sendFuture adapters context bundlePath job).result) :
    ownOutcome (executeWith runSecond other job context) =
      ownOutcome (executeWith runFirst adapters job context) := by
  simp only [executeWith, resolveInput_congr h]
  cases resolveInput adapters context job with
  | error error => rfl
  | ok resolved =>
    cases job.executionMode with
    | streaming =>
      simp only [executeStreaming, derivedSelection_congr h]
      cases job.process with
      | none => rfl
      | some process =>
        cases derivedSelection adapters job resolved with
        | error error => rfl
        | ok derived =>
          refine applyProcessResult_congr context.identity rfl ?_
          exact congrArg some (runProcessResult_own runFirst runSecond h _ _ _ _)
    | staged =>
      simp only [executeStaged, stagedInput_congr h, derivedSelection_congr h]
      cases stagedInput adapters context job resolved (inputBegun job context) with
      | error ended => rfl
      | ok staged =>
        simp only [runIndependentOutputs, hsend]
        refine applySendResult_congr context.identity ?_ _
        exact applyProcessResult_congr context.identity rfl
          (processFuture_own runFirst runSecond h _ _ _)

theorem outcome_congr_of_deep (context : ExecutionContext R X)
    (h : ProcessesAlike adapters other context.identity.jobId) (job : Job)
    (hunsent : job.send = none) (hdeep : context.childDepth ≠ 0) :
    (execute other job context).outcome = (execute adapters job context).outcome := by
  have hown := ownOutcome_executeWith (execute adapters) (execute other) h job
    fun bundlePath => by rw [sendFuture_of_unsent hunsent, sendFuture_of_unsent hunsent]
  rw [← execute_eq, ← execute_eq] at hown
  rwa [ownOutcome_of_childless _ (children_of_deep other job context hdeep),
    ownOutcome_of_childless _ (children_of_deep adapters job context hdeep)] at hown

/-- All answers but those to the calls of one job are the same; schedules and
finishing orders are free. -/
structure AgreeExcept (jobId : ℕ) (adapters other : Adapters R X) : Prop where
  registry : other.registry = adapters.registry
  jobIds : other.jobIds = adapters.jobIds
  answers : ∀ one, one ≠ jobId → other.answers one = adapters.answers one

theorem AgreeExcept.agreeOn {jobId one : ℕ} (h : AgreeExcept jobId adapters other)
    (hne : one ≠ jobId) : AgreeOn adapters other one := ⟨h.registry, h.answers one hne⟩

/-- The children other than the one with a given id. -/
def siblings (jobId : ℕ) (children : List ChildOutcome) : List ChildOutcome :=
  children.filter fun child => child.jobId ≠ jobId

/-- Children send nothing, so that the sender does not reach them. -/
theorem runChildJob_congr (context : ExecutionContext R X)
    (h : ProcessesAlike adapters other context.identity.jobId) (inheritance : Inheritance R)
    (path : String) (hdeep : context.childDepth ≠ 0) :
    (runChildJob (execute other) inheritance path context).result =
      (runChildJob (execute adapters) inheritance path context).result := by
  have houtcome : ∀ (job : Job) (inputs : KeyedMap BindingKey (RuntimeInput R)),
      job.send = none →
        (execute other job { context with inputs := inputs }).outcome =
          (execute adapters job { context with inputs := inputs }).outcome := by
    intro job inputs hunsent
    exact outcome_congr_of_deep { context with inputs := inputs } h job hunsent hdeep
  unfold runChildJob
  split
  · rfl
  · split
    · rfl
    · rename_i job hjob
      obtain ⟨-, -, -, -, hunsent⟩ := Job.tryNew_eq_ok hjob
      simp only [ExecutionContext.bindNested, houtcome job _ hunsent]

private theorem filter_map_congr {S T : Type} {p : T → Bool} {f g : S → T} {all : List S}
    (h : ∀ a ∈ all, g a = f a ∨ p (g a) = false ∧ p (f a) = false) :
    (all.map g).filter p = (all.map f).filter p := by
  induction all with
  | nil => rfl
  | cons a rest ih =>
    have hrest := ih fun b hb => h b (List.mem_cons_of_mem a hb)
    rw [List.map_cons, List.map_cons]
    rcases h a List.mem_cons_self with heq | ⟨hg, hf⟩
    · rw [heq, List.filter_cons, List.filter_cons, hrest]
    · rw [List.filter_cons_of_neg (by simp [hg]), List.filter_cons_of_neg (by simp [hf]), hrest]

theorem siblings_launched {jobId : ℕ} (h : AgreeExcept jobId adapters other) (job : Job)
    (hne : context.identity.jobId ≠ jobId) :
    siblings jobId (launched other job context) =
      siblings jobId (launched adapters job context) := by
  unfold launched
  rw [processing_congr (h.agreeOn hne).processesAlike, h.jobIds]
  cases processing adapters job context with
  | none => rfl
  | some one =>
    refine filter_map_congr fun declared _ => ?_
    by_cases hchild : declared.2 = jobId
    · have hjobId := fun any : Adapters R X =>
        (launched_spec any job context one declared).2.1
      have hout := fun any => decide_eq_false (not_not.mpr ((hjobId any).trans hchild))
      exact .inr ⟨hout other, hout adapters⟩
    · exact .inl (runChildJob_congr _ (h.agreeOn hchild).processesAlike _ _
        (Nat.succ_ne_zero _))

end Isolation

section FanOut

variable (adapters : Adapters R X) (job : Job) (context : ExecutionContext R X)

/-- What a child of an outcome inherits: the owner and the id of its parent's
execution, the platform of its parent's report, and the parent id in its own. -/
structure InheritsFrom (outcome : ExecutionOutcome) (child : ChildOutcome) : Prop where
  owner : child.execution.identity.owner = outcome.identity.owner
  parentJobId : child.execution.identity.parentJobId = some outcome.identity.jobId
  report : ∃ report, outcome.report = some report ∧ child.platform = report.platform ∧
    ∀ own, child.execution.report = some own → own.platform = report.platform ∧
      own.identifiers.parentId = normalizeIdentifier (some report.metadataId)

/-- The fan-out of an outcome over the diagnostics that were included. -/
structure FanOut (included : List DiagPath) (outcome : ExecutionOutcome) : Prop where
  lossless : (outcome.children.map fun child => child.path).Perm
    (included.map DiagPath.diagPath)
  distinct : (outcome.identity.jobId ::
    outcome.children.map ChildExecutionOutcome.jobId).Nodup
  inherited : ∀ child ∈ outcome.children, InheritsFrom outcome child
  noGrandchildren : ∀ child ∈ outcome.children, child.execution.children = []
  verdict : outcome.failed = true ↔
    (∃ stage ∈ outcome.stages, stage.status.isUnsuccessful = true) ∨
      outcome.diagnosticOutcome = some .failed ∨
      ∃ child ∈ outcome.children, child.failure.isSome = true

theorem inheritsFrom_of_launched {child : ChildOutcome}
    (h : child ∈ launched adapters job context) :
    InheritsFrom (execute adapters job context).outcome child := by
  obtain ⟨one, jobId, hprocessing, hinherited⟩ := mem_launched adapters job context h
  have hidentity := identity_execute adapters job context
  refine ⟨?_, ?_, one.processed.report, ?_, hinherited.platform, ?_⟩
  · rw [hinherited.identity, hidentity]
  · rw [hinherited.identity, hidentity]
  · rw [report_execute, hprocessing, Option.map_some]
  · intro own hown
    have hidentifiers := hinherited.reported own hown
    constructor
    · rw [DiagnosticReport.platform, hidentifiers]
      rfl
    · simp only [hidentifiers, inheritance, Inheritance.ofProcessed, Identifiers.withPlatform,
        Identifiers.withParentId]

/-- Included diagnostics become one child each, whatever the schedule and the
order of completion; what one child is answered stays with that child. -/
theorem fanOut_isolated :
    FanOut (includedDiagnostics adapters job context) (execute adapters job context).outcome ∧
      ∀ (jobId : ℕ) (other : Adapters R X), jobId ≠ context.identity.jobId →
        AgreeExcept jobId adapters other →
        (execute other job context).outcome.stages =
            (execute adapters job context).outcome.stages ∧
          (siblings jobId (execute other job context).outcome.children).Perm
            (siblings jobId (execute adapters job context).outcome.children) := by
  have hperm := children_perm adapters job context
  constructor
  · refine ⟨?_, ?_, ?_, ?_, ExecutionOutcome.failed_iff _⟩
    · rw [← map_path_launched]
      exact hperm.map _
    · have hids := hperm.map ChildExecutionOutcome.jobId
      rw [map_jobId_launched] at hids
      rw [identity_execute, List.nodup_cons, hids.nodup_iff, hids.mem_iff]
      refine ⟨fun hmem => ?_, nodup_childIds _ _ _⟩
      exact ((childIds_spec _ _ _).2 _ hmem).2 rfl
    · intro child hchild
      exact inheritsFrom_of_launched adapters job context (hperm.mem_iff.mp hchild)
    · intro child hchild
      obtain ⟨one, jobId, _, hinherited⟩ :=
        mem_launched adapters job context (hperm.mem_iff.mp hchild)
      exact hinherited.noGrandchildren
  · intro jobId other hne hagree
    constructor
    · have hagreeOn := hagree.agreeOn hne.symm
      have hown := ownOutcome_executeWith (execute adapters) (execute other)
        hagreeOn.processesAlike job fun bundlePath => by simp only [sendFuture, hagreeOn.answers]
      rw [← execute_eq, ← execute_eq] at hown
      have hstages := congrArg ExecutionOutcome.stages hown
      exact hstages
    · have hother := (children_perm other job context).filter fun child => child.jobId ≠ jobId
      have hthis := hperm.filter fun child => child.jobId ≠ jobId
      have hsame := siblings_launched hagree job hne.symm
      unfold siblings at hsame ⊢
      rw [hsame] at hother
      exact hother.trans hthis.symm

/-- A platform bundle with two included diagnostics, whose children finish in
the opposite order. -/
def platformAdapters : Adapters Unit Unit :=
  { registry := .empty
    jobIds := ⟨fun n => n + 17, fun _ _ h => Nat.add_lt_add_right h 17⟩
    answers := fun _ =>
      { collectHost := fun _ => .ok none
        exportHost := fun _ => .ok none
        openUri := fun _ => .ok ()
        download := fun _ => .error "connection refused"
        openSubdir := fun _ _ => .ok ()
        tempBundleDir := .error "read-only file system"
        archive := fun _ => .error "read-only file system"
        collectBundle := fun _ _ _ => .error "no collector"
        openBundle := fun _ => .ok ()
        environmentExporter := .ok ()
        uriExporter := fun _ => .ok ()
        manifest := fun _ => .ok ⟨.eck, true, some [⟨"elasticsearch", "es"⟩, ⟨"kibana", "kb"⟩]⟩
        process := fun _ _ _ _ _ => .ok
          ({ metadataId := "eck@2026"
             application := none
             docs := Docs.none
             origin := ⟨"file", "eck.zip"⟩
             lookup := .empty .empty
             processor := .empty .empty
             identifiers := .default none
             events := []
             outcome := .complete }, none)
        sendBundle := fun _ _ => .error "upload rejected" }
    outputSchedule := fun _ => []
    childSchedule := fun _ => [false, true]
    completionRank := fun jobId => 100 - jobId }

def platformJob : Job :=
  { identifiers := .default none
    input := .load (.file (.ofString "eck.zip"))
    save := none
    process := some ⟨none, .stdout⟩
    send := none
    valid := by rfl }

def platformContext : ExecutionContext Unit Unit :=
  ⟨.empty, .empty, ⟨17, "CLI", none⟩, .ephemeral, none, 0⟩

example : (execute platformAdapters platformJob platformContext).outcome.children.map
    (fun child => (child.path, child.jobId)) = [("kb", 19), ("es", 18)] := by
  decide +kernel

/-- The surroundings in which the first child finds no manifest. -/
def unreadableChild : Adapters Unit Unit :=
  { platformAdapters with
    answers := fun jobId =>
      if jobId = 18 then
        { platformAdapters.answers jobId with manifest := fun _ => .error "manifest.json not found" }
      else platformAdapters.answers jobId }

/-- A child without a manifest leaves its parent's stages and its sibling alone. -/
theorem unreadable_child_isolated :
    (execute unreadableChild platformJob platformContext).outcome.stages =
        (execute platformAdapters platformJob platformContext).outcome.stages ∧
      (siblings 18 (execute unreadableChild platformJob platformContext).outcome.children).Perm
        (siblings 18 (execute platformAdapters platformJob platformContext).outcome.children) :=
  (fanOut_isolated platformAdapters platformJob platformContext).2 18 unreadableChild (by decide)
    ⟨rfl, rfl, fun _ hne => if_neg hne⟩

end FanOut

end Esdiag.ChildJobs
