import Esdiag.DepthFirstClosure
import Esdiag.Executor

/-!
The statuses of a finished execution. Recording a stage is an insertion without
duplicates, so an execution is determined, as far as its recorded stages go, by
the stages its input phase records: the outputs follow on every path. The input
phase records all its stages unless setting up the save fails first.
-/
namespace Esdiag.StageRecords

open Deployments ProcessSelections JobModel ExecutionOutcomes DepthFirstClosure Executor

variable {R X : Type}

/-- The stages of the output phase that a job selects. -/
def outputStages (job : Job) : List Stage :=
  (if job.process.isSome then [.process, .export] else []) ++
    if job.send.isSome then [.send] else []

def selectedStages (job : Job) : List Stage :=
  inputStage job :: (if job.save.isSome then [.save] else []) ++ outputStages job

section Recording

variable (execution : Execution) (identity : ExecutionIdentity)

@[simp] theorem recorded_append (trace : List TraceEntry) :
    (execution.append trace).outcome.recorded = execution.outcome.recorded := rfl

@[simp] theorem recorded_observe (stage : Stage) (lifecycle : Lifecycle) :
    (execution.observe identity stage lifecycle).outcome.recorded =
      execution.outcome.recorded := rfl

@[simp] theorem recorded_run (jobId : ℕ) (stage : Stage) :
    (execution.run jobId stage).outcome.recorded = execution.outcome.recorded := rfl

@[simp] theorem recorded_recordStage (stage : Stage) (status : StageStatus) :
    (execution.recordStage identity stage status).outcome.recorded =
      insertNew execution.outcome.recorded stage := by
  rw [Execution.outcome_recordStage, ExecutionOutcome.isSome_stage]
  unfold insertNew
  by_cases hmem : stage ∈ execution.outcome.recorded
  · simp only [hmem, decide_true, if_true]
  · simp only [hmem, decide_false, Bool.false_eq_true, if_false,
      ExecutionOutcome.recorded_record]

@[simp] theorem recorded_recordBlocked (reason : String) (stage : Stage) :
    (execution.recordBlocked identity reason stage).outcome.recorded =
      insertNew execution.outcome.recorded stage := by
  unfold Execution.recordBlocked
  by_cases hmem : stage ∈ execution.outcome.recorded
  · have hsome : (execution.outcome.stage stage).isSome = true := by
      rw [ExecutionOutcome.isSome_stage, decide_eq_true hmem]
    rw [if_neg (by simp [Option.isNone_iff_eq_none, ← Option.isSome_iff_ne_none, hsome]),
      insertNew, if_pos hmem]
  · have hnone : (execution.outcome.stage stage).isNone = true := by
      rw [← Option.not_isSome, ExecutionOutcome.isSome_stage, decide_eq_false hmem]
      rfl
    rw [if_pos hnone, recorded_recordStage]

@[simp] theorem recorded_recordBlockedOutputs (job : Job) (reason : String) :
    (execution.recordBlockedOutputs identity job reason).outcome.recorded =
      (outputStages job).foldl insertNew execution.outcome.recorded := by
  unfold Execution.recordBlockedOutputs outputStages
  cases job.process.isSome <;> cases job.send.isSome <;> simp

theorem recorded_applyProcessResult (result : Option (Except String ProcessExecution)) :
    (applyProcessResult identity execution result).outcome.recorded =
      (if result.isSome then [.process, .export] else []).foldl insertNew
        execution.outcome.recorded := by
  cases result with
  | none => rfl
  | some result =>
    cases result with
    | error error => simp only [applyProcessResult, recorded_recordStage]; rfl
    | ok processed =>
      cases hexport : processed.exportError <;>
        simp only [applyProcessResult, hexport, recorded_recordStage] <;> rfl

theorem recorded_applySendResult (result : Option (Except String SendResult)) :
    (applySendResult identity execution result).outcome.recorded =
      (if result.isSome then [.send] else []).foldl insertNew execution.outcome.recorded := by
  cases result with
  | none => rfl
  | some result =>
    cases result <;> simp only [applySendResult, recorded_recordStage] <;> rfl

end Recording

section Futures

variable (runChild : Job → ExecutionContext R X → Execution) (adapters : Adapters R X)
  (context : ExecutionContext R X) (job : Job)

theorem isSome_processFuture (receiver : R)
    (derived : Except String (Option ProcessSelection)) :
    (processFuture runChild adapters context receiver job derived).result.isSome =
      job.process.isSome := by
  unfold processFuture
  cases job.process with
  | none => rfl
  | some process => cases derived <;> rfl

theorem isSome_sendFuture (bundlePath : Option PathBuf) :
    (sendFuture adapters context bundlePath job).result.isSome = job.send.isSome := by
  unfold sendFuture
  cases job.send with
  | none => rfl
  | some send => cases bundlePath <;> rfl

/-- The outputs record every output stage, whatever becomes of them. -/
theorem recorded_runIndependentOutputs (resolved : ResolvedInput R)
    (derived : Except String (Option ProcessSelection)) (execution : Execution) :
    (runIndependentOutputs runChild adapters context job resolved derived
        execution).outcome.recorded =
      (outputStages job).foldl insertNew execution.outcome.recorded := by
  simp only [runIndependentOutputs, recorded_applySendResult, recorded_applyProcessResult,
    recorded_append, isSome_processFuture, isSome_sendFuture, outputStages, List.foldl_append]

end Futures

section InputPhase

variable (adapters : Adapters R X) (job : Job) (context : ExecutionContext R X)

/-- The stages that the input phase records. -/
def inputRecords : List Stage :=
  match resolveInput adapters context job, job.save with
  | .error _, _ => [inputStage job]
  | .ok _, none => [inputStage job]
  | .ok resolved, some save =>
    match bundleDir (adapters.answers context.identity.jobId) save, resolved.application with
    | .error _, _ => [.save]
    | .ok _, none => [.collect]
    | .ok outputDir, some _ =>
      match (adapters.answers context.identity.jobId).archive outputDir with
      | .error _ => [.save]
      | .ok () => [.collect, .save]

/-- What an input phase leaves: an ended execution has its outputs recorded. -/
def PhaseRecords (records : List Stage) (staged : Except Execution (Execution × ResolvedInput R)) :
    Prop :=
  match staged with
  | .error ended => ended.outcome.recorded = (outputStages job).foldl insertNew records
  | .ok (execution, _) => execution.outcome.recorded = records

theorem collectArchive_records (save : SaveTarget) (outputDir : PathBuf) (receiver : R)
    (application : Application) (execution : Execution)
    (hfresh : execution.outcome.recorded = []) :
    PhaseRecords job [.collect, .save]
      (collectArchive adapters context job save outputDir receiver application execution) := by
  simp only [collectArchive]
  split
  · simp [PhaseRecords, hfresh, insertNew]
  · split
    · simp only [PhaseRecords, recorded_recordBlockedOutputs]
      change (outputStages job).foldl insertNew
        (((_ : Execution).recordStage _ _ _).recordStage _ _ _).outcome.recorded = _
      simp [hfresh, insertNew]
    · simp only [PhaseRecords]
      change (((_ : Execution).recordStage _ _ _).recordStage _ _ _).outcome.recorded = _
      simp [hfresh, insertNew]

theorem stagedCollection_records (resolved : ResolvedInput R) (execution : Execution)
    (save : SaveTarget) (hsave : job.save = some save)
    (hresolve : resolveInput adapters context job = .ok resolved)
    (hfresh : execution.outcome.recorded = []) :
    PhaseRecords job (inputRecords adapters job context)
      (stagedCollection adapters context job resolved execution) := by
  cases hdir : bundleDir (adapters.answers context.identity.jobId) save with
  | error error =>
    simp [stagedCollection, inputRecords, hsave, hresolve, hdir, PhaseRecords, hfresh, insertNew]
  | ok outputDir =>
    cases happlication : resolved.application with
    | none =>
      simp [stagedCollection, inputRecords, hsave, hresolve, hdir, happlication, PhaseRecords,
        hfresh, insertNew]
    | some application =>
      cases harchive : (adapters.answers context.identity.jobId).archive outputDir with
      | error error =>
        simp [stagedCollection, inputRecords, hsave, hresolve, hdir, happlication, harchive,
          PhaseRecords, hfresh, insertNew]
      | ok _ =>
        simp only [stagedCollection, inputRecords, hsave, hresolve, hdir, happlication, harchive]
        exact collectArchive_records adapters job context save outputDir resolved.receiver
          application _ hfresh

theorem recorded_executeStreaming (runChild : Job → ExecutionContext R X → Execution)
    (resolved : ResolvedInput R) (hcollect : job.input.isCollect = true)
    (hsave : job.save = none) (hresolve : resolveInput adapters context job = .ok resolved)
    {execution : Execution} (hfresh : execution.outcome.recorded = []) :
    (executeStreaming runChild adapters job context resolved execution).outcome.recorded =
      (outputStages job).foldl insertNew (inputRecords adapters job context) := by
  obtain ⟨hsome, hsend⟩ := job.collect_without_save hcollect hsave
  obtain ⟨process, hprocess⟩ := Option.isSome_iff_exists.mp hsome
  simp only [executeStreaming, hprocess, inputRecords, hresolve, hsave, inputStage, hcollect,
    outputStages, hsend]
  cases derivedSelection adapters job resolved with
  | error error => simp [hfresh, insertNew]
  | ok derived =>
    simp only [runProcessStage, recorded_applyProcessResult, recorded_append,
      recorded_recordStage, hfresh]
    rfl

theorem stagedInput_records (resolved : ResolvedInput R) (execution : Execution)
    (hsaved : job.input.isCollect = true → job.save.isSome = true)
    (hresolve : resolveInput adapters context job = .ok resolved)
    (hfresh : execution.outcome.recorded = []) :
    PhaseRecords job (inputRecords adapters job context)
      (stagedInput adapters context job resolved execution) := by
  unfold stagedInput
  cases hcollect : job.input.isCollect with
  | true =>
    obtain ⟨save, hsave⟩ := Option.isSome_iff_exists.mp (hsaved hcollect)
    rw [if_pos rfl]
    exact stagedCollection_records adapters job context resolved execution save hsave hresolve
      hfresh
  | false =>
    have hsave := job.save_eq_none hcollect
    rw [if_neg (by simp)]
    simp only [PhaseRecords, inputRecords, hresolve, hsave, inputStage, hcollect]
    change ((_ : Execution).recordStage _ _ _).outcome.recorded = _
    rw [recorded_recordStage, hfresh]
    rfl

/-- The recorded stages of an execution: those of its input phase, then every
output stage. -/
theorem recorded_executeWith (runChild : Job → ExecutionContext R X → Execution) :
    (executeWith runChild adapters job context).outcome.recorded =
      (outputStages job).foldl insertNew (inputRecords adapters job context) := by
  have hfresh : (inputBegun job context).outcome.recorded = [] := rfl
  simp only [executeWith]
  cases hresolve : resolveInput adapters context job with
  | error error => simp [inputRecords, hresolve, hfresh, insertNew]
  | ok resolved =>
    cases hmode : job.executionMode with
    | streaming =>
      obtain ⟨hcollect, hsave⟩ := job.streaming_spec hmode
      exact recorded_executeStreaming adapters job context runChild resolved hcollect hsave
        hresolve hfresh
    | staged =>
      have hphase := stagedInput_records adapters job context resolved (inputBegun job context)
        (job.staged_spec hmode) hresolve hfresh
      simp only [executeStaged]
      cases hstaged : stagedInput adapters context job resolved (inputBegun job context) with
      | error ended =>
        rw [hstaged] at hphase
        exact hphase
      | ok staged =>
        rw [hstaged] at hphase
        simp only [recorded_runIndependentOutputs]
        exact congrArg (fun records => (outputStages job).foldl insertNew records) hphase

theorem nodup_inputRecords : (inputRecords adapters job context).Nodup := by
  unfold inputRecords
  split
  · exact List.nodup_singleton _
  · exact List.nodup_singleton _
  · split
    · exact List.nodup_singleton _
    · exact List.nodup_singleton _
    · split
      · exact List.nodup_singleton _
      · decide

/-- The save of a job is set up: the input resolves with its application, and
there is a directory in which an archive can be begun. -/
def SaveSetUp : Prop :=
  ∀ save, job.save = some save → ∃ resolved outputDir,
    resolveInput adapters context job = .ok resolved ∧
      bundleDir (adapters.answers context.identity.jobId) save = .ok outputDir ∧
      resolved.application.isSome = true ∧
      (adapters.answers context.identity.jobId).archive outputDir = .ok ()

theorem mem_inputRecords_iff (stage : Stage) (h : SaveSetUp adapters job context) :
    stage ∈ inputRecords adapters job context ↔
      stage = inputStage job ∨ (job.save.isSome = true ∧ stage = .save) := by
  cases hsave : job.save with
  | none =>
    have hrecords : inputRecords adapters job context = [inputStage job] := by
      unfold inputRecords
      rw [hsave]
      cases resolveInput adapters context job <;> rfl
    simp [hrecords]
  | some save =>
    obtain ⟨resolved, outputDir, hresolve, hdir, happlication, harchive⟩ := h save hsave
    obtain ⟨application, happlication⟩ := Option.isSome_iff_exists.mp happlication
    have hcollect : job.input.isCollect = true := by
      by_contra hload
      have hnone := job.save_eq_none (by simpa using hload)
      rw [hnone] at hsave
      cases hsave
    simp [inputRecords, hresolve, hsave, hdir, happlication, harchive, inputStage, hcollect]

/-- Without the setup of the save, one of the two stages before the outputs has
no status. -/
theorem exists_missing_record (h : ¬ SaveSetUp adapters job context) :
    ∃ stage ∈ selectedStages job, stage ∉ outputStages job ∧
      stage ∉ inputRecords adapters job context := by
  obtain ⟨save, hsave, hfails⟩ : ∃ save, job.save = some save ∧ ¬ ∃ resolved outputDir,
      resolveInput adapters context job = .ok resolved ∧
        bundleDir (adapters.answers context.identity.jobId) save = .ok outputDir ∧
        resolved.application.isSome = true ∧
        (adapters.answers context.identity.jobId).archive outputDir = .ok () := by
    by_contra hall
    refine h fun save hsave => ?_
    by_contra hnone
    exact hall ⟨save, hsave, hnone⟩
  have hcollect : job.input.isCollect = true := by
    by_contra hload
    have hnone := job.save_eq_none (by simpa using hload)
    rw [hnone] at hsave
    cases hsave
  have houtputs : Stage.collect ∉ outputStages job ∧ Stage.save ∉ outputStages job := by
    unfold outputStages
    cases job.process.isSome <;> cases job.send.isSome <;> decide
  have hselected : Stage.collect ∈ selectedStages job ∧ Stage.save ∈ selectedStages job := by
    simp [selectedStages, inputStage, hcollect, hsave]
  have hmissing : Stage.collect ∉ inputRecords adapters job context ∨
      Stage.save ∉ inputRecords adapters job context := by
    cases hresolve : resolveInput adapters context job with
    | error error => simp [inputRecords, hresolve, inputStage, hcollect]
    | ok resolved =>
      cases hdir : bundleDir (adapters.answers context.identity.jobId) save with
      | error error => simp [inputRecords, hresolve, hsave, hdir]
      | ok outputDir =>
        cases happlication : resolved.application with
        | none => simp [inputRecords, hresolve, hsave, hdir, happlication]
        | some application =>
          cases harchive : (adapters.answers context.identity.jobId).archive outputDir with
          | error error => simp [inputRecords, hresolve, hsave, hdir, happlication, harchive]
          | ok _ =>
            exact absurd ⟨resolved, outputDir, hresolve, hdir, by rw [happlication]; rfl, harchive⟩
              hfails
  rcases hmissing with hmissing | hmissing
  · exact ⟨.collect, hselected.1, houtputs.1, hmissing⟩
  · exact ⟨.save, hselected.2, houtputs.2, hmissing⟩

/-- Each selected stage has one status, and no other stage has any. -/
def StagesRecordedOnce (outcome : ExecutionOutcome) : Prop :=
  ∀ stage, outcome.recorded.count stage = if stage ∈ selectedStages job then 1 else 0

/-- Every selected stage gets its one status exactly when the save is set up. -/
theorem stagesRecordedOnce_iff :
    StagesRecordedOnce job (execute adapters job context).outcome ↔
      SaveSetUp adapters job context := by
  have hrecorded := recorded_executeWith adapters job context (execute adapters)
  rw [← execute_eq] at hrecorded
  constructor
  · intro honce
    by_contra hfails
    obtain ⟨stage, hselected, houtput, hmissing⟩ :=
      exists_missing_record adapters job context hfails
    have hcount := honce stage
    rw [if_pos hselected, hrecorded] at hcount
    have hmem : stage ∈ (outputStages job).foldl insertNew (inputRecords adapters job context) :=
      List.count_pos_iff.mp (by omega)
    rcases mem_foldl_insertNew.mp hmem with hinput | hout
    · exact hmissing hinput
    · exact houtput hout
  · intro hsetUp stage
    have hnodup := nodup_foldl_insertNew (outputStages job)
      (nodup_inputRecords adapters job context)
    have hmem : stage ∈ (execute adapters job context).outcome.recorded ↔
        stage ∈ selectedStages job := by
      rw [hrecorded, mem_foldl_insertNew, mem_inputRecords_iff adapters job context stage hsetUp]
      cases hsave : job.save <;> simp [selectedStages, hsave, or_assoc]
    rw [hrecorded] at hmem ⊢
    rw [hnodup.count]
    by_cases hselected : stage ∈ selectedStages job
    · rw [if_pos hselected, if_pos (hmem.mpr hselected)]
    · rw [if_neg hselected, if_neg (fun hin => hselected (hmem.mp hin))]

end InputPhase

/-- A host that can be collected from, while no bundle can be processed or sent. -/
def collectingAnswers : Answers Unit Unit :=
  { collectHost := fun _ => .ok (some (.ok ⟨[.collect], .elasticsearch, .ok ()⟩))
    exportHost := fun _ => .ok none
    openUri := fun _ => .error "connection refused"
    download := fun _ => .error "connection refused"
    openSubdir := fun _ _ => .error "not a bundle"
    tempBundleDir := .ok (.ofString "/tmp/esdiag-job")
    archive := fun _ => .ok ()
    collectBundle := fun _ _ _ => .ok ⟨"/tmp/esdiag-job/bundle.zip"⟩
    openBundle := fun _ => .ok ()
    environmentExporter := .error "ESDIAG_OUTPUT_URL is not set"
    uriExporter := fun _ => .error "output is not writable"
    manifest := fun _ => .error "manifest.json not found"
    process := fun _ _ _ _ _ => .error "no processor"
    sendBundle := fun _ _ => .error "upload rejected" }

/-- The same answers to every job, one thing after the other. -/
def sequentialAdapters (answers : Answers Unit Unit) : Adapters Unit Unit :=
  { registry := .empty
    jobIds := ⟨fun n => n + 1, fun _ _ h => Nat.succ_lt_succ h⟩
    answers := fun _ => answers
    outputSchedule := fun _ => []
    childSchedule := fun _ => []
    completionRank := id }

def commandLineContext : ExecutionContext Unit Unit :=
  { inputs := .empty
    documentExporters := .empty
    identity := ⟨17, "CLI", none⟩
    retention := .ephemeral
    inheritedPlatform := none
    childDepth := 0 }

/-- Collect from a host into a directory that is kept. -/
def savingJob : Job :=
  { identifiers := .default none
    input := .collect "es" "standard" none none
    save := some (.retained (.ofString "/srv/bundles"))
    process := none
    send := none
    valid := by rfl }

/-- No archive can be begun in the directory: the collection, whose events have
started, gets no status. -/
theorem collect_without_status :
    ¬ StagesRecordedOnce savingJob
      (execute (sequentialAdapters
        { collectingAnswers with archive := fun _ => .error "permission denied" })
        savingJob commandLineContext).outcome := by
  intro honce
  have hcollect := honce .collect
  revert hcollect
  decide

end Esdiag.StageRecords
