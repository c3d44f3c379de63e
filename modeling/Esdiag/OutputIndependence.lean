import Esdiag.FailureTruth

/-!
The independence of the two outputs of a job. Processing and sending share one
bundle and write into one outcome: what the sender answers leaves everything
but the Send status and the upload alone, and what becomes of the processing
leaves these two alone. The upload is there exactly if Send succeeded.
-/
namespace Esdiag.OutputIndependence

open Deployments Reports ProcessSelections JobModel ExecutionOutcomes Executor StageRecords
  ChildJobs FailureTruth

variable {R X : Type}

/-- The outcome of an execution without what its upload leaves in it. -/
def withoutSend (outcome : ExecutionOutcome) : ExecutionOutcome :=
  { outcome with
    stages := outcome.stages.filter fun one => one.stage ≠ .send
    send := none }

/-- The upload is there exactly if the stage succeeded. -/
def SentExactly (outcome : ExecutionOutcome) : Prop :=
  outcome.send.isSome = true ↔ outcome.stage .send = some .succeeded

/-- Nothing was sent yet. -/
structure SendOpen (outcome : ExecutionOutcome) : Prop where
  stage : outcome.stage .send = none
  send : outcome.send = none

/-- The two outcomes agree on what processing leaves in them. -/
structure SameProcessed (outcome other : ExecutionOutcome) : Prop where
  process : other.stage .process = outcome.stage .process
  exported : other.stage .export = outcome.stage .export
  report : other.report = outcome.report
  children : other.children = outcome.children

structure SameSent (outcome other : ExecutionOutcome) : Prop where
  stage : other.stage .send = outcome.stage .send
  send : other.send = outcome.send

/-- Two surroundings that differ in what the sender answers. Where its steps
fall between those of the processor is free. -/
structure DifferInSender (adapters other : Adapters R X) : Prop where
  alike : ∀ jobId, ProcessesAlike adapters other jobId
  jobIds : other.jobIds = adapters.jobIds
  completionRank : other.completionRank = adapters.completionRank

/-- The outputs of a job whose children run as it does. -/
def outputs (adapters : Adapters R X) (context : ExecutionContext R X) (job : Job)
    (resolved : ResolvedInput R) (derived : Except String (Option ProcessSelection))
    (execution : Execution) : ExecutionOutcome :=
  (runIndependentOutputs (execute adapters) adapters context job resolved derived
    execution).outcome

section Recording

variable (execution : Execution) (identity : ExecutionIdentity)

/-- A stage keeps the first status that it gets. -/
theorem stage_recordStage (stage : Stage) (status : StageStatus) :
    (execution.recordStage identity stage status).outcome.stage stage =
      (execution.outcome.stage stage).or (some status) := by
  rw [Execution.outcome_recordStage]
  cases hstage : execution.outcome.stage stage with
  | some first => exact hstage
  | none =>
    have hfind : (execution.outcome.stages.find? fun one => one.stage == stage) = none :=
      Option.map_eq_none_iff.mp hstage
    simp [ExecutionOutcome.stage, ExecutionOutcome.record, List.find?_append, hfind]

/-- The other stages keep theirs. -/
theorem stage_recordStage_of_ne {stage other : Stage} (status : StageStatus)
    (hne : other ≠ stage) :
    (execution.recordStage identity other status).outcome.stage stage =
      execution.outcome.stage stage := by
  rw [Execution.outcome_recordStage]
  split
  · rfl
  · simp [ExecutionOutcome.stage, ExecutionOutcome.record, List.find?_append, hne]

theorem send_recordStage (stage : Stage) (status : StageStatus) :
    (execution.recordStage identity stage status).outcome.send = execution.outcome.send := by
  rw [Execution.outcome_recordStage]
  split <;> rfl

theorem withoutSend_recordStage (status : StageStatus) :
    withoutSend (execution.recordStage identity .send status).outcome =
      withoutSend execution.outcome := by
  rw [Execution.outcome_recordStage]
  split
  · rfl
  · simp [withoutSend, ExecutionOutcome.record]

/-- The statuses of the other stages are those without the upload. -/
theorem stage_withoutSend (outcome : ExecutionOutcome) {stage : Stage} (hne : stage ≠ .send) :
    (withoutSend outcome).stage stage = outcome.stage stage := by
  have hfind : ((outcome.stages.filter fun one => one.stage ≠ .send).find?
      fun one => one.stage == stage) = outcome.stages.find? fun one => one.stage == stage := by
    induction outcome.stages with
    | nil => rfl
    | cons one rest ih =>
      by_cases hsend : one.stage = .send
      · have hother : (one.stage == stage) = false := by simp [hsend, hne.symm]
        rw [List.filter_cons_of_neg (by simp [hsend]), List.find?_cons_of_neg (by simp [hother]),
          ih]
      · rw [List.filter_cons_of_pos (by simp [hsend])]
        simp only [List.find?_cons, ih]
  unfold ExecutionOutcome.stage withoutSend
  rw [hfind]

theorem SameProcessed.of_withoutSend {outcome other : ExecutionOutcome}
    (h : withoutSend other = withoutSend outcome) : SameProcessed outcome other where
  process := by
    rw [← stage_withoutSend other (by decide), h, stage_withoutSend outcome (by decide)]
  exported := by
    rw [← stage_withoutSend other (by decide), h, stage_withoutSend outcome (by decide)]
  report := congrArg (fun one => one.report) h
  children := congrArg (fun one => one.children) h

end Recording

section Results

variable (identity : ExecutionIdentity)

/-- What is recorded of a processing does not depend on the trace before it. -/
theorem outcome_applyProcessResult_append (execution : Execution) (trace : List TraceEntry)
    (result : Option (Except String ProcessExecution)) :
    (applyProcessResult identity (execution.append trace) result).outcome =
      (applyProcessResult identity execution result).outcome := by
  match result with
  | none => rfl
  | some (.error error) => simp only [applyProcessResult, Execution.outcome_recordStage]; rfl
  | some (.ok processed) =>
    cases hexport : processed.exportError <;>
      simp only [applyProcessResult, hexport, Execution.outcome_recordStage] <;>
      rfl

/-- Processing leaves the upload alone. -/
theorem sameSent_applyProcessResult (execution : Execution)
    (result : Option (Except String ProcessExecution)) :
    SameSent execution.outcome (applyProcessResult identity execution result).outcome := by
  have hrecorded : ∀ (one : Execution) (stage : Stage) (status : StageStatus), stage ≠ .send →
      SameSent one.outcome (one.recordStage identity stage status).outcome := by
    intro one stage status hne
    exact ⟨stage_recordStage_of_ne one identity status hne, send_recordStage one identity _ _⟩
  have htwice : ∀ (one : Execution) (first second : StageStatus),
      SameSent one.outcome ((one.recordStage identity .process first).recordStage identity
        .export second).outcome := by
    intro one first second
    have hprocess := hrecorded one .process first (by decide)
    have hexport := hrecorded (one.recordStage identity .process first) .export second (by decide)
    exact ⟨hexport.stage.trans hprocess.stage, hexport.send.trans hprocess.send⟩
  match result with
  | none => exact ⟨rfl, rfl⟩
  | some (.error error) => exact htwice _ _ _
  | some (.ok processed) =>
    let reported : Execution :=
      { execution with
        outcome :=
          { execution.outcome with
            report := some processed.report
            children := processed.children } }
    have hreported : ∀ second, SameSent execution.outcome ((reported.recordStage identity
        .process .succeeded).recordStage identity .export second).outcome :=
      fun second => ⟨(htwice reported _ second).stage, (htwice reported _ second).send⟩
    cases hexport : processed.exportError <;>
      simp only [applyProcessResult, hexport] <;>
      exact hreported _

/-- Sending leaves everything else alone. -/
theorem withoutSend_applySendResult (execution : Execution)
    (result : Option (Except String SendResult)) :
    withoutSend (applySendResult identity execution result).outcome =
      withoutSend execution.outcome := by
  match result with
  | none => rfl
  | some (.error error) => exact withoutSend_recordStage execution identity _
  | some (.ok upload) =>
    let uploaded : Execution :=
      { execution with outcome := { execution.outcome with send := some upload } }
    exact withoutSend_recordStage uploaded identity .succeeded

/-- The upload follows from the result of sending and the upload before. -/
theorem sameSent_applySendResult {first second : Execution}
    (h : SameSent first.outcome second.outcome) (result : Option (Except String SendResult)) :
    SameSent (applySendResult identity first result).outcome
      (applySendResult identity second result).outcome := by
  match result with
  | none => exact h
  | some (.error error) =>
    constructor
    · simp only [applySendResult, stage_recordStage, h.stage]
    · simp only [applySendResult, send_recordStage, h.send]
  | some (.ok upload) =>
    have hstage := h.stage
    constructor
    · simp only [applySendResult, stage_recordStage]
      exact congrArg (fun status : Option StageStatus => status.or (some .succeeded)) hstage
    · simp only [applySendResult, send_recordStage]

theorem sentExactly_applySendResult {execution : Execution} (h : SendOpen execution.outcome)
    (result : Option (Except String SendResult)) :
    SentExactly (applySendResult identity execution result).outcome := by
  have hstage := h.stage
  unfold SentExactly
  match result with
  | none => simp [applySendResult, h.stage, h.send]
  | some (.error error) =>
    simp [applySendResult, stage_recordStage, send_recordStage, h.stage, h.send]
  | some (.ok upload) =>
    let uploaded : Execution :=
      { execution with outcome := { execution.outcome with send := some upload } }
    have hopen : uploaded.outcome.stage .send = none := hstage
    have hsucceeded := stage_recordStage uploaded identity .send .succeeded
    rw [hopen, Option.none_or] at hsucceeded
    have hsend := send_recordStage uploaded identity .send .succeeded
    exact iff_of_true (by rw [applySendResult, hsend]; rfl) hsucceeded

end Results

section TwoRuns

variable {adapters other : Adapters R X} {context : ExecutionContext R X}

theorem launchChildren_alike (h : ∀ jobId, ProcessesAlike adapters other jobId)
    (inheritance : Inheritance R) (context : ExecutionContext R X) (ids : JobIds)
    (declarations : List DiagPath) :
    (launchChildren (execute other) inheritance context ids declarations).map Traced.result =
      (launchChildren (execute adapters) inheritance context ids declarations).map
        Traced.result := by
  induction declarations generalizing ids with
  | nil => rfl
  | cons declaration rest ih =>
    cases hchild : context.child inheritance.platform ids with
    | error error => simp only [launchChildren, hchild, List.map_cons, ih]
    | ok allocated =>
      have hdeep : allocated.1.childDepth ≠ 0 := by
        have hdepth := childDepth_child hchild
        omega
      simp only [launchChildren, hchild, List.map_cons, ih,
        runChildJob_congr allocated.1 (h _) inheritance declaration.diagPath hdeep]

/-- The processing of a job does not depend on the sender. -/
theorem processFuture_alike (h : DifferInSender adapters other)
    (context : ExecutionContext R X) (receiver : R) (job : Job)
    (derived : Except String (Option ProcessSelection)) :
    (processFuture (execute other) other context receiver job derived).result =
      (processFuture (execute adapters) adapters context receiver job derived).result := by
  unfold processFuture
  cases job.process with
  | none => rfl
  | some process =>
    cases derived with
    | error error => rfl
    | ok derived =>
      simp only [runProcessResult, processStage_congr (h.alike _)]
      cases processStage adapters context receiver process job.identifiers derived with
      | error error => rfl
      | ok processed =>
        simp only [runChildJobs, launchChildren_alike h.alike, h.jobIds, h.completionRank]

/-- Nor do the outputs of a job, up to the upload. -/
theorem withoutSend_outputs (h : DifferInSender adapters other) (job : Job)
    (resolved : ResolvedInput R) (derived : Except String (Option ProcessSelection))
    (execution : Execution) :
    withoutSend (outputs other context job resolved derived execution) =
      withoutSend (outputs adapters context job resolved derived execution) := by
  unfold outputs
  simp only [runIndependentOutputs, withoutSend_applySendResult, processFuture_alike h,
    outcome_applyProcessResult_append]

/-- Nor does a whole execution. -/
theorem withoutSend_execute (h : DifferInSender adapters other) (job : Job) :
    withoutSend (execute other job context).outcome =
      withoutSend (execute adapters job context).outcome := by
  have halike := h.alike context.identity.jobId
  rw [execute_eq, execute_eq adapters]
  simp only [executeWith, resolveInput_congr halike]
  cases resolveInput adapters context job with
  | error error => rfl
  | ok resolved =>
    cases job.executionMode with
    | streaming =>
      simp only [executeStreaming, derivedSelection_congr halike]
      cases hprocess : job.process with
      | none => rfl
      | some process =>
        cases derivedSelection adapters job resolved with
        | error error => rfl
        | ok derived =>
          have hprocessed := processFuture_alike h context resolved.receiver job (.ok derived)
          simp only [processFuture, hprocess, Option.some.injEq] at hprocessed
          simp only [runProcessStage, hprocessed, outcome_applyProcessResult_append]
    | staged =>
      simp only [executeStaged, stagedInput_congr halike, derivedSelection_congr halike]
      cases stagedInput adapters context job resolved (inputBegun job context) with
      | error ended => rfl
      | ok staged => exact withoutSend_outputs h job staged.2 _ staged.1

/-- What becomes of the processing does not reach the upload. -/
theorem sameSent_outputs (job : Job) (resolved : ResolvedInput R)
    (derived otherDerived : Except String (Option ProcessSelection)) (execution : Execution)
    (hsender : (other.answers context.identity.jobId).sendBundle =
      (adapters.answers context.identity.jobId).sendBundle) :
    SameSent (outputs adapters context job resolved derived execution)
      (outputs other context job resolved otherDerived execution) := by
  have hsend : (sendFuture other context resolved.bundlePath job).result =
      (sendFuture adapters context resolved.bundlePath job).result := by
    unfold sendFuture
    rw [hsender]
  unfold outputs
  simp only [runIndependentOutputs, hsend]
  refine sameSent_applySendResult context.identity ?_ _
  simp only [outcome_applyProcessResult_append]
  have hprocessed := sameSent_applyProcessResult context.identity execution
  exact ⟨(hprocessed _).stage.trans (hprocessed _).stage.symm,
    (hprocessed _).send.trans (hprocessed _).send.symm⟩

/-- From nothing sent, the outputs send exactly what they record. -/
theorem sentExactly_outputs (job : Job) (resolved : ResolvedInput R)
    (derived : Except String (Option ProcessSelection)) (execution : Execution)
    (hopen : SendOpen execution.outcome) :
    SentExactly (outputs adapters context job resolved derived execution) := by
  refine sentExactly_applySendResult context.identity ?_ _
  simp only [outcome_applyProcessResult_append]
  have hprocessed := sameSent_applyProcessResult context.identity execution
  exact ⟨(hprocessed _).stage.trans hopen.stage, (hprocessed _).send.trans hopen.send⟩

theorem sentExactly_execute (adapters : Adapters R X) (job : Job)
    (context : ExecutionContext R X) : SentExactly (execute adapters job context).outcome := by
  have hsucceeded := send_succeeded_iff (finished_execute adapters job context)
  exact hsucceeded.symm.trans
    (stage_eq_some_iff (nodup_recorded_execute adapters job context)).symm

end TwoRuns

section Outputs

variable (adapters other : Adapters R X) (context : ExecutionContext R X) (job : Job)
  (resolved : ResolvedInput R) (derived : Except String (Option ProcessSelection))
  (execution : Execution)

/-- Two runs that differ in the sender agree on what was processed, and two runs
that differ in their processing agree on what was sent. -/
theorem outputs_independent :
    (DifferInSender adapters other →
      SameProcessed (outputs adapters context job resolved derived execution)
          (outputs other context job resolved derived execution) ∧
        withoutSend (execute other job context).outcome =
          withoutSend (execute adapters job context).outcome) ∧
      ((other.answers context.identity.jobId).sendBundle =
          (adapters.answers context.identity.jobId).sendBundle →
        ∀ otherDerived, SameSent (outputs adapters context job resolved derived execution)
          (outputs other context job resolved otherDerived execution)) ∧
      (SendOpen execution.outcome →
        SentExactly (outputs adapters context job resolved derived execution)) ∧
      SentExactly (execute adapters job context).outcome := by
  refine ⟨fun h => ⟨?_, withoutSend_execute h job⟩, fun hsender otherDerived => ?_,
    sentExactly_outputs job resolved derived execution, sentExactly_execute adapters job context⟩
  · exact .of_withoutSend (withoutSend_outputs h job resolved derived execution)
  · exact sameSent_outputs job resolved derived otherDerived execution hsender

end Outputs

def uploadJob : Job :=
  { platformJob with
    send := some ⟨"diagnostics"⟩
    valid := by rfl }

/-- The platform bundle with a sender that accepts it, after the first step. -/
def acceptingSender : Adapters Unit Unit :=
  { platformAdapters with
    answers := fun jobId =>
      { platformAdapters.answers jobId with sendBundle := fun _ uploadId => .ok ⟨uploadId⟩ }
    outputSchedule := fun _ => [true, false] }

def uploadedBundle : ResolvedInput Unit := ⟨(), none, some (.ofString "eck.zip")⟩

/-- An upload that is accepted and one that is rejected leave the same report and
the same children, and so does an upload beside an invalid selection. -/
theorem outputs_independent_platform :
    (outputs acceptingSender platformContext uploadJob uploadedBundle (.ok none)
        (inputBegun uploadJob platformContext)).stage .send = some .succeeded ∧
      (outputs platformAdapters platformContext uploadJob uploadedBundle (.ok none)
        (inputBegun uploadJob platformContext)).stage .send = some (.failed "upload rejected") ∧
      SameProcessed
        (outputs platformAdapters platformContext uploadJob uploadedBundle (.ok none)
          (inputBegun uploadJob platformContext))
        (outputs acceptingSender platformContext uploadJob uploadedBundle (.ok none)
          (inputBegun uploadJob platformContext)) ∧
      SameSent
        (outputs acceptingSender platformContext uploadJob uploadedBundle (.ok none)
          (inputBegun uploadJob platformContext))
        (outputs acceptingSender platformContext uploadJob uploadedBundle
          (.error "unknown source") (inputBegun uploadJob platformContext)) ∧
      SentExactly (outputs acceptingSender platformContext uploadJob uploadedBundle (.ok none)
        (inputBegun uploadJob platformContext)) := by
  have hsender := outputs_independent platformAdapters acceptingSender platformContext uploadJob
    uploadedBundle (.ok none) (inputBegun uploadJob platformContext)
  have hprocessing := outputs_independent acceptingSender acceptingSender platformContext
    uploadJob uploadedBundle (.ok none) (inputBegun uploadJob platformContext)
  refine ⟨by decide +kernel, by decide +kernel, ?_, ?_, ?_⟩
  · exact (hsender.1 ⟨fun _ => ⟨rfl, _, rfl⟩, rfl, rfl⟩).1
  · exact hprocessing.2.1 rfl (.error "unknown source")
  · exact hprocessing.2.2.1 ⟨rfl, rfl⟩

end Esdiag.OutputIndependence
