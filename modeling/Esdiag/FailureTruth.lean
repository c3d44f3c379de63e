import Esdiag.ChildJobs
import Esdiag.FailureReports
import Esdiag.StageRecords

/-!
The failure report against the execution it is about. The statuses of a finished
execution come in one of four shapes, which say what became of the save and of
the upload as well. From the shapes follows what each report says: the run of a
saved job is always true to its execution, while the process command names the
process stage even where its input was never read.
-/
namespace Esdiag.FailureTruth

open Deployments Reports JobModel ExecutionOutcomes Executor ProcessSelections StageRecords
  ChildJobs FailureReports

variable {R X : Type}

section Recording

variable (execution : Execution) (identity : ExecutionIdentity)

theorem outcome_recordStage (stage : Stage) (status : StageStatus)
    (hfresh : stage ∉ execution.outcome.recorded) :
    (execution.recordStage identity stage status).outcome =
      execution.outcome.record stage status := by
  rw [Execution.outcome_recordStage, ExecutionOutcome.isSome_stage, decide_eq_false hfresh]
  rfl

theorem outcome_recordBlocked {stage : Stage} (reason : String)
    (hfresh : stage ∉ execution.outcome.recorded) :
    (execution.recordBlocked identity reason stage).outcome =
      execution.outcome.record stage (.blocked reason) := by
  have hnone : (execution.outcome.stage stage).isNone = true := by
    rw [← Option.not_isSome, ExecutionOutcome.isSome_stage, decide_eq_false hfresh]
    rfl
  unfold Execution.recordBlocked
  rw [if_pos hnone, outcome_recordStage execution identity _ _ hfresh]

def blockedOutputs (job : Job) (reason : String) : List StageOutcome :=
  (outputStages job).map fun stage => ⟨stage, .blocked reason⟩

/-- No output of a job has a status. -/
def OutputsOpen (execution : Execution) : Prop :=
  Stage.process ∉ execution.outcome.recorded ∧ Stage.export ∉ execution.outcome.recorded ∧
    Stage.send ∉ execution.outcome.recorded

theorem outcome_recordBlockedOutputs (job : Job) (reason : String)
    (hopen : OutputsOpen execution) :
    (execution.recordBlockedOutputs identity job reason).outcome =
      { execution.outcome with
        stages := execution.outcome.stages ++ blockedOutputs job reason } := by
  obtain ⟨hprocess, hexport, hsend⟩ := hopen
  have hprocessed := outcome_recordBlocked execution identity reason hprocess
  have hboth : ((execution.recordBlocked identity reason .process).recordBlocked identity reason
      .export).outcome = (execution.outcome.record .process (.blocked reason)).record .export
        (.blocked reason) := by
    rw [outcome_recordBlocked _ identity reason (by rw [hprocessed]; simpa using hexport),
      hprocessed]
  unfold Execution.recordBlockedOutputs blockedOutputs outputStages
  cases job.process.isSome <;> cases job.send.isSome
  · simp only [Bool.false_eq_true, if_false, List.append_nil, List.map_nil]
    generalize execution.outcome = outcome
    cases outcome
    rfl
  · simp only [Bool.false_eq_true, if_false, if_true]
    rw [outcome_recordBlocked execution identity reason hsend]
    rfl
  · simp only [Bool.false_eq_true, if_false, if_true]
    rw [hboth]
    simp [ExecutionOutcome.record]
  · simp only [if_true]
    rw [outcome_recordBlocked _ identity reason (by rw [hboth]; simpa using hsend), hboth]
    simp [ExecutionOutcome.record]

end Recording

/-- The statuses of processing and export. -/
inductive ProcessRecords : List StageOutcome → Prop
  | notSelected : ProcessRecords []
  | exported : ProcessRecords [⟨.process, .succeeded⟩, ⟨.export, .succeeded⟩]
  | exportFailed (error : String) :
      ProcessRecords [⟨.process, .succeeded⟩, ⟨.export, .failed error⟩]
  | failed (error reason : String) :
      ProcessRecords [⟨.process, .failed error⟩, ⟨.export, .blocked reason⟩]

inductive SendRecords : Option SendResult → List StageOutcome → Prop
  | notSelected : SendRecords none []
  | sent (upload : SendResult) : SendRecords (some upload) [⟨.send, .succeeded⟩]
  | failed (error : String) : SendRecords none [⟨.send, .failed error⟩]

/-- The statuses of an input phase that came to an input. -/
inductive InputRecords (job : Job) :
    Option CollectionResult → Option PathBuf → List StageOutcome → Prop
  | read (bundle : Option PathBuf) (hsave : job.save = none) :
      InputRecords job none bundle [⟨inputStage job, .succeeded⟩]
  | collected (save : SaveTarget) (collection : CollectionResult) (hsave : job.save = some save) :
      InputRecords job (some collection)
        (if save.isRetained then some (PathBuf.ofString collection.path) else none)
        [⟨.collect, .succeeded⟩, ⟨.save, .succeeded⟩]

/-- The statuses of an input phase that a save ended. -/
inductive SaveFailed : List StageOutcome → Prop
  | setUp (error : String) : SaveFailed [⟨.save, .failed error⟩]
  | application (error : String) : SaveFailed [⟨.collect, .failed error⟩]
  | collection (error : String) : SaveFailed [⟨.collect, .failed error⟩, ⟨.save, .failed error⟩]

theorem SaveFailed.not_output {records : List StageOutcome} (h : SaveFailed records) :
    ∀ one ∈ records, one.stage ∉ [Stage.process, .export, .send] := by
  cases h <;> simp

theorem InputRecords.not_output {job : Job} {collection : Option CollectionResult}
    {bundle : Option PathBuf} {records : List StageOutcome}
    (h : InputRecords job collection bundle records) :
    ∀ one ∈ records, one.stage ∉ [Stage.process, .export, .send] := by
  cases h with
  | read => cases hcollect : job.input.isCollect <;> simp [inputStage, hcollect]
  | collected => simp

/-- How an execution ends. -/
inductive Finished (adapters : Adapters R X) (job : Job) (context : ExecutionContext R X)
    (outcome : ExecutionOutcome) : Prop
  | unresolved (error reason : String)
      (hresolve : resolveInput adapters context job = .error error)
      (hstages : outcome.stages =
        ⟨inputStage job, .failed error⟩ :: blockedOutputs job reason)
      (hcollection : outcome.collection = none) (hsend : outcome.send = none)
  | unsaved (save : SaveTarget) (records : List StageOutcome) (reason : String)
      (hsave : job.save = some save) (hrecords : SaveFailed records)
      (hstages : outcome.stages = records ++ blockedOutputs job reason)
      (hcollection : outcome.collection = none) (hsend : outcome.send = none)
  | unopened (save : SaveTarget) (records : List StageOutcome) (reason : String)
      (hsave : job.save = some save)
      (hinput : InputRecords job outcome.collection outcome.retainedBundle records)
      (hstages : outcome.stages = records ++ blockedOutputs job reason)
      (hsend : outcome.send = none)
  | ran (records processed sent : List StageOutcome)
      (hresolve : ∃ resolved, resolveInput adapters context job = .ok resolved)
      (hinput : InputRecords job outcome.collection outcome.retainedBundle records)
      (hprocessed : ProcessRecords processed) (hsent : SendRecords outcome.send sent)
      (hstages : outcome.stages = records ++ processed ++ sent)

section Outputs

variable (identity : ExecutionIdentity) (execution : Execution)

/-- The results of processing touch neither the save nor the upload. -/
theorem exists_processRecords (result : Option (Except String ProcessExecution))
    (hopen : OutputsOpen execution) :
    ∃ processed, ProcessRecords processed ∧
      (applyProcessResult identity execution result).outcome.stages =
        execution.outcome.stages ++ processed ∧
      (applyProcessResult identity execution result).outcome.collection =
        execution.outcome.collection ∧
      (applyProcessResult identity execution result).outcome.retainedBundle =
        execution.outcome.retainedBundle ∧
      (applyProcessResult identity execution result).outcome.send = execution.outcome.send := by
  obtain ⟨hprocess, hexport, -⟩ := hopen
  match result with
  | none => exact ⟨[], .notSelected, by rw [List.append_nil]; rfl, rfl, rfl, rfl⟩
  | some (.error error) =>
    have hfirst := outcome_recordStage execution identity .process (.failed error) hprocess
    have hfresh : Stage.export ∉
        (execution.recordStage identity .process (.failed error)).outcome.recorded := by
      rw [hfirst]
      simpa using hexport
    refine ⟨_, .failed error "Process did not complete", ?_⟩
    rw [applyProcessResult, outcome_recordStage _ identity _ _ hfresh, hfirst]
    exact ⟨List.append_assoc _ _ _, rfl, rfl, rfl⟩
  | some (.ok one) =>
    let reported : Execution :=
      { execution with
        outcome :=
          { execution.outcome with
            report := some one.report
            children := one.children } }
    have hfirst := outcome_recordStage reported identity .process .succeeded hprocess
    have hopen : Stage.export ∉ reported.outcome.recorded := hexport
    have hfresh : Stage.export ∉
        (reported.recordStage identity .process .succeeded).outcome.recorded := by
      rw [hfirst]
      simpa using hopen
    have hsecond := fun status =>
      (outcome_recordStage _ identity .export status hfresh).trans
        (congrArg (fun outcome => outcome.record .export status) hfirst)
    cases hexported : one.exportError with
    | none =>
      refine ⟨_, .exported, ?_⟩
      simp only [applyProcessResult, hexported]
      rw [hsecond .succeeded]
      exact ⟨List.append_assoc _ _ _, rfl, rfl, rfl⟩
    | some error =>
      refine ⟨_, .exportFailed error, ?_⟩
      simp only [applyProcessResult, hexported]
      rw [hsecond (.failed error)]
      exact ⟨List.append_assoc _ _ _, rfl, rfl, rfl⟩

theorem exists_sendRecords (result : Option (Except String SendResult))
    (hsend : Stage.send ∉ execution.outcome.recorded) (hnone : execution.outcome.send = none) :
    ∃ sent, SendRecords (applySendResult identity execution result).outcome.send sent ∧
      (applySendResult identity execution result).outcome.stages =
        execution.outcome.stages ++ sent ∧
      (applySendResult identity execution result).outcome.collection =
        execution.outcome.collection ∧
      (applySendResult identity execution result).outcome.retainedBundle =
        execution.outcome.retainedBundle := by
  match result with
  | none =>
    refine ⟨[], ?_, by rw [List.append_nil]; rfl, rfl, rfl⟩
    rw [applySendResult, hnone]
    exact .notSelected
  | some (.error error) =>
    have hrecord := outcome_recordStage execution identity .send (.failed error) hsend
    refine ⟨[⟨.send, .failed error⟩], ?_, ?_⟩
    · rw [applySendResult, hrecord]
      exact hnone ▸ .failed error
    · rw [applySendResult, hrecord]
      exact ⟨rfl, rfl, rfl⟩
  | some (.ok upload) =>
    let uploaded : Execution :=
      { execution with outcome := { execution.outcome with send := some upload } }
    have hrecord := outcome_recordStage uploaded identity .send .succeeded hsend
    refine ⟨[⟨.send, .succeeded⟩], ?_, ?_⟩
    · rw [applySendResult, hrecord]
      exact .sent upload
    · rw [applySendResult, hrecord]
      exact ⟨rfl, rfl, rfl⟩

end Outputs

section Shapes

variable (adapters : Adapters R X) (job : Job) (context : ExecutionContext R X)

/-- What an input phase leaves behind: an ended execution has its outputs blocked. -/
def PhaseShape (staged : Except Execution (Execution × ResolvedInput R)) : Prop :=
  match staged with
  | .error ended => Finished adapters job context ended.outcome
  | .ok (execution, _) =>
    OutputsOpen execution ∧ execution.outcome.send = none ∧
      InputRecords job execution.outcome.collection execution.outcome.retainedBundle
        execution.outcome.stages

theorem outputsOpen_of_stages {execution : Execution} {stages : List StageOutcome}
    (hstages : execution.outcome.stages = stages)
    (hinput : ∀ one ∈ stages, one.stage ∉ [Stage.process, .export, .send]) :
    OutputsOpen execution := by
  have hnotin : ∀ stage ∈ [Stage.process, .export, .send],
      stage ∉ execution.outcome.recorded := by
    intro stage hstage hmem
    obtain ⟨one, hone, rfl⟩ := List.mem_map.mp hmem
    rw [hstages] at hone
    exact hinput one hone hstage
  exact ⟨hnotin _ (by simp), hnotin _ (by simp), hnotin _ (by simp)⟩

/-- A failed stage of the save, with the outputs blocked behind it. -/
theorem finished_unsaved {save : SaveTarget} (hsave : job.save = some save) (reason : String)
    {execution : Execution} (hrecords : SaveFailed execution.outcome.stages)
    (hcollection : execution.outcome.collection = none)
    (hsend : execution.outcome.send = none) :
    Finished adapters job context
      (execution.recordBlockedOutputs context.identity job reason).outcome := by
  have hopen : OutputsOpen execution := outputsOpen_of_stages rfl hrecords.not_output
  have hblocked := outcome_recordBlockedOutputs execution context.identity job reason hopen
  refine .unsaved save execution.outcome.stages reason hsave hrecords ?_ ?_ ?_
  · rw [hblocked]
  · rw [hblocked]
    exact hcollection
  · rw [hblocked]
    exact hsend

theorem collectArchive_shape {save : SaveTarget} (hsave : job.save = some save)
    (outputDir : PathBuf) (receiver : R) (application : Application) (execution : Execution)
    (hstages : execution.outcome.stages = []) (hcollection : execution.outcome.collection = none)
    (hsend : execution.outcome.send = none) :
    PhaseShape adapters job context
      (collectArchive adapters context job save outputDir receiver application execution) := by
  let running := (execution.run context.identity.jobId .collect).run context.identity.jobId .save
  have hnew : running.outcome.stages = [] := hstages
  have hboth : ∀ first second : StageStatus,
      ((running.recordStage context.identity .collect first).recordStage context.identity .save
        second).outcome = (running.outcome.record .collect first).record .save second := by
    intro first second
    have hfirst := outcome_recordStage running context.identity .collect first
      (by rw [ExecutionOutcome.recorded, hnew]; exact List.not_mem_nil)
    rw [outcome_recordStage _ context.identity .save second
      (by rw [hfirst, ExecutionOutcome.recorded_record, ExecutionOutcome.recorded, hnew]; simp),
      hfirst]
  unfold collectArchive
  dsimp only
  cases (adapters.answers context.identity.jobId).collectBundle receiver outputDir
      (collectOptions job application) with
  | error error =>
    have hrecords : ((running.recordStage context.identity .collect (.failed error)).recordStage
        context.identity .save (.failed error)).outcome.stages =
          [⟨.collect, .failed error⟩, ⟨.save, .failed error⟩] := by
      rw [hboth, ExecutionOutcome.record, ExecutionOutcome.record, hnew]
      rfl
    refine finished_unsaved adapters job context hsave "Collect failed" ?_ ?_ ?_
    · exact hrecords ▸ .collection error
    · rw [hboth]
      exact hcollection
    · rw [hboth]
      exact hsend
  | ok collection =>
    have hinput : InputRecords job (some collection)
        (if save.isRetained then some (PathBuf.ofString collection.path) else none)
        ((running.recordStage context.identity .collect .succeeded).recordStage context.identity
          .save .succeeded).outcome.stages := by
      rw [hboth, ExecutionOutcome.record, ExecutionOutcome.record, hnew]
      exact .collected save collection hsave
    let recorded :=
      (running.recordStage context.identity .collect .succeeded).recordStage context.identity .save
        .succeeded
    let collected : Execution :=
      { recorded with
        outcome :=
          { recorded.outcome with
            collection := some collection
            retainedBundle :=
              if save.isRetained then some (PathBuf.ofString collection.path) else none } }
    have hopen : OutputsOpen collected := outputsOpen_of_stages rfl hinput.not_output
    have hunsent : collected.outcome.send = none :=
      (congrArg ExecutionOutcome.send (hboth .succeeded .succeeded)).trans hsend
    dsimp only
    cases (adapters.answers context.identity.jobId).openBundle
        (PathBuf.ofString collection.path) with
    | error error =>
      have hblocked := outcome_recordBlockedOutputs collected context.identity job
        ("Saved bundle could not be loaded: " ++ error) hopen
      show Finished adapters job context (collected.recordBlockedOutputs context.identity job
        ("Saved bundle could not be loaded: " ++ error)).outcome
      rw [hblocked]
      exact .unopened save collected.outcome.stages _ hsave hinput rfl hunsent
    | ok receiver => exact ⟨hopen, hunsent, hinput⟩

theorem stagedCollection_shape {save : SaveTarget} (hsave : job.save = some save)
    (resolved : ResolvedInput R) (execution : Execution)
    (hstages : execution.outcome.stages = []) (hcollection : execution.outcome.collection = none)
    (hsend : execution.outcome.send = none) :
    PhaseShape adapters job context
      (stagedCollection adapters context job resolved execution) := by
  -- A stage that fails before anything was recorded.
  have hended : ∀ (one : Execution) (stage : Stage) (error reason : String),
      one.outcome = execution.outcome → SaveFailed [⟨stage, .failed error⟩] →
        Finished adapters job context ((one.recordStage context.identity stage
          (.failed error)).recordBlockedOutputs context.identity job reason).outcome := by
    intro one stage error reason hsame hfailed
    have hrecord := outcome_recordStage one context.identity stage (.failed error)
      (by rw [ExecutionOutcome.recorded, hsame, hstages]; exact List.not_mem_nil)
    refine finished_unsaved adapters job context hsave reason ?_ ?_ ?_
    · rw [hrecord, ExecutionOutcome.record, hsame, hstages]
      exact hfailed
    · rw [hrecord, ExecutionOutcome.record, hsame]
      exact hcollection
    · rw [hrecord, ExecutionOutcome.record, hsame]
      exact hsend
  unfold stagedCollection
  simp only [hsave]
  cases bundleDir (adapters.answers context.identity.jobId) save with
  | error error => exact hended execution .save error _ rfl (.setUp error)
  | ok outputDir =>
    cases resolved.application with
    | none => exact hended _ .collect _ _ rfl (.application _)
    | some application =>
      dsimp only
      cases (adapters.answers context.identity.jobId).archive outputDir with
      | error error => exact hended _ .save error _ rfl (.setUp error)
      | ok _ =>
        exact collectArchive_shape adapters job context hsave outputDir resolved.receiver
          application _ hstages hcollection hsend

theorem stagedInput_shape (resolved : ResolvedInput R)
    (hsaved : job.input.isCollect = true → job.save.isSome = true) :
    PhaseShape adapters job context
      (stagedInput adapters context job resolved (inputBegun job context)) := by
  unfold stagedInput
  cases hcollect : job.input.isCollect with
  | true =>
    obtain ⟨save, hsave⟩ := Option.isSome_iff_exists.mp (hsaved hcollect)
    rw [if_pos rfl]
    exact stagedCollection_shape adapters job context hsave resolved _ rfl rfl rfl
  | false =>
    have hload : inputStage job = .load := by rw [inputStage, hcollect]; rfl
    have hrecord := outcome_recordStage (inputBegun job context) context.identity .load .succeeded
      List.not_mem_nil
    have hinput : InputRecords job none (loadedBundle context job resolved)
        [⟨.load, .succeeded⟩] :=
      hload ▸ .read _ (job.save_eq_none hcollect)
    rw [if_neg Bool.false_ne_true]
    have hstages := congrArg ExecutionOutcome.stages hrecord
    have hunsent := congrArg ExecutionOutcome.send hrecord
    refine ⟨outputsOpen_of_stages hstages hinput.not_output, hunsent, ?_⟩
    · dsimp only
      rw [hrecord]
      exact hinput

/-- The outputs of an execution whose input came to be. -/
theorem finished_outputs {before : Execution} (trace : List TraceEntry)
    (hresolve : ∃ resolved, resolveInput adapters context job = .ok resolved)
    (hshape : OutputsOpen before ∧ before.outcome.send = none ∧
      InputRecords job before.outcome.collection before.outcome.retainedBundle
        before.outcome.stages)
    (processed : Option (Except String ProcessExecution))
    (sent : Option (Except String SendResult)) :
    Finished adapters job context (applySendResult context.identity
      (applyProcessResult context.identity (before.append trace) processed) sent).outcome := by
  obtain ⟨hopen, hunsent, hinput⟩ := hshape
  obtain ⟨records, hrecords, hstages, hcollection, hretained, hsend⟩ :=
    exists_processRecords context.identity (before.append trace) processed hopen
  have hclosed : Stage.send ∉ (applyProcessResult context.identity (before.append trace)
      processed).outcome.recorded := by
    rw [ExecutionOutcome.recorded, hstages, List.map_append, List.mem_append, not_or]
    refine ⟨hopen.2.2, ?_⟩
    cases hrecords <;> simp
  obtain ⟨uploads, huploads, hstages', hcollection', hretained'⟩ :=
    exists_sendRecords context.identity _ sent hclosed (hsend.trans hunsent)
  refine .ran before.outcome.stages records uploads hresolve ?_ hrecords huploads ?_
  · rw [hcollection', hretained', hcollection, hretained]
    exact hinput
  · rw [hstages', hstages]
    rfl

theorem finished_executeStreaming (runChild : Job → ExecutionContext R X → Execution)
    {resolved : ResolvedInput R} (hresolve : resolveInput adapters context job = .ok resolved)
    (hmode : job.executionMode = .streaming) :
    Finished adapters job context
      (executeStreaming runChild adapters job context resolved
        (inputBegun job context)).outcome := by
  obtain ⟨hcollect, hsave⟩ := job.streaming_spec hmode
  obtain ⟨process, hprocess⟩ :=
    Option.isSome_iff_exists.mp (job.collect_without_save hcollect hsave).1
  let collected := (inputBegun job context).recordStage context.identity .collect .succeeded
  have hrecord : collected.outcome = (inputBegun job context).outcome.record .collect .succeeded :=
    outcome_recordStage _ context.identity .collect .succeeded List.not_mem_nil
  have hstage : inputStage job = .collect := by rw [inputStage, hcollect]; rfl
  have hinput : InputRecords job none none [⟨.collect, .succeeded⟩] := hstage ▸ .read none hsave
  have hopen : OutputsOpen collected :=
    outputsOpen_of_stages (congrArg ExecutionOutcome.stages hrecord) hinput.not_output
  have hshape : OutputsOpen collected ∧ collected.outcome.send = none ∧
      InputRecords job collected.outcome.collection collected.outcome.retainedBundle
        collected.outcome.stages := by
    refine ⟨hopen, congrArg ExecutionOutcome.send hrecord, ?_⟩
    rw [hrecord]
    exact hinput
  unfold executeStreaming
  simp only [hprocess]
  cases derivedSelection adapters job resolved with
  | error error =>
    have hfirst := outcome_recordStage collected context.identity .process (.failed error) hopen.1
    have hfresh : Stage.export ∉ (collected.recordStage context.identity .process
        (.failed error)).outcome.recorded := by
      rw [hfirst]
      simpa using hopen.2.1
    have hsecond := outcome_recordStage _ context.identity .export
      (.blocked "Process selection is invalid") hfresh
    rw [hfirst, hrecord] at hsecond
    dsimp only
    rw [hsecond]
    exact .ran _ _ _ ⟨resolved, hresolve⟩ hinput (.failed error _) .notSelected rfl
  | ok derived =>
    exact finished_outputs adapters job context _ ⟨resolved, hresolve⟩ hshape _ none

/-- Every execution ends in one of the four shapes. -/
theorem finished_executeWith (runChild : Job → ExecutionContext R X → Execution) :
    Finished adapters job context (executeWith runChild adapters job context).outcome := by
  unfold executeWith
  dsimp only
  cases hresolve : resolveInput adapters context job with
  | error error =>
    have hrecord := outcome_recordStage (inputBegun job context) context.identity
      (inputStage job) (.failed error) List.not_mem_nil
    have hopen : OutputsOpen ((inputBegun job context).recordStage context.identity
        (inputStage job) (.failed error)) := by
      refine outputsOpen_of_stages (congrArg ExecutionOutcome.stages hrecord) ?_
      intro one hone
      rw [List.mem_singleton.mp hone]
      unfold inputStage
      split <;> simp
    have hblocked := outcome_recordBlockedOutputs _ context.identity job "Phase-1 input failed" hopen
    dsimp only
    rw [hblocked, hrecord]
    exact .unresolved error _ hresolve rfl rfl rfl
  | ok resolved =>
    cases hmode : job.executionMode with
    | streaming =>
      exact finished_executeStreaming adapters job context runChild hresolve hmode
    | staged =>
      have hshape := stagedInput_shape adapters job context resolved (job.staged_spec hmode)
      dsimp only
      unfold executeStaged
      cases hstaged : stagedInput adapters context job resolved (inputBegun job context) with
      | error ended =>
        rw [hstaged] at hshape
        exact hshape
      | ok staged =>
        rw [hstaged] at hshape
        exact finished_outputs adapters job context _ ⟨resolved, hresolve⟩ hshape _ _

theorem finished_execute :
    Finished adapters job context (execute adapters job context).outcome := by
  rw [execute_eq]
  exact finished_executeWith adapters job context (execute adapters)

end Shapes

section Facts

variable {adapters : Adapters R X} {job : Job} {context : ExecutionContext R X}
  {outcome : ExecutionOutcome}

/-- Stages recorded once have the status that was recorded. -/
theorem stage_eq_some_iff (hnodup : outcome.recorded.Nodup) {stage : Stage}
    {status : StageStatus} :
    outcome.stage stage = some status ↔ ⟨stage, status⟩ ∈ outcome.stages := by
  constructor
  · intro h
    obtain ⟨one, hfind, rfl⟩ := Option.map_eq_some_iff.mp h
    have hstage := List.find?_some hfind
    rw [beq_iff_eq] at hstage
    exact hstage ▸ List.mem_of_find?_eq_some hfind
  · intro hmem
    have hsome : (outcome.stages.find? fun one => one.stage == stage).isSome = true := by
      rw [List.find?_isSome]
      exact ⟨_, hmem, beq_self_eq_true stage⟩
    obtain ⟨one, hfind⟩ := Option.isSome_iff_exists.mp hsome
    have hstage := List.find?_some hfind
    rw [beq_iff_eq] at hstage
    have hsame : one = ⟨stage, status⟩ :=
      List.inj_on_of_nodup_map hnodup (List.mem_of_find?_eq_some hfind) hmem hstage
    rw [ExecutionOutcome.stage, hfind, hsame]
    rfl

theorem nodup_recorded_execute (adapters : Adapters R X) (job : Job)
    (context : ExecutionContext R X) :
    (execute adapters job context).outcome.recorded.Nodup := by
  rw [execute_eq, recorded_executeWith adapters job context (execute adapters)]
  exact DepthFirstClosure.nodup_foldl_insertNew _ (nodup_inputRecords adapters job context)

theorem status_of_mem_blockedOutputs {reason : String} {one : StageOutcome}
    (h : one ∈ blockedOutputs job reason) : one.status = .blocked reason := by
  obtain ⟨stage, -, rfl⟩ := List.mem_map.mp h
  rfl

theorem SaveFailed.failed {records : List StageOutcome} (h : SaveFailed records) :
    ∀ one ∈ records, ∃ error, one.status = .failed error := by
  cases h <;> simp

theorem InputRecords.succeeded {collection : Option CollectionResult} {bundle : Option PathBuf}
    {records : List StageOutcome} (h : InputRecords job collection bundle records) :
    ∀ one ∈ records, one.status = .succeeded := by
  cases h <;> simp

theorem InputRecords.mem_save_iff {collection : Option CollectionResult}
    {bundle : Option PathBuf} {records : List StageOutcome}
    (h : InputRecords job collection bundle records) :
    ⟨.save, .succeeded⟩ ∈ records ↔ collection.isSome = true := by
  cases h with
  | read => cases hcollect : job.input.isCollect <;> simp [inputStage, hcollect]
  | collected => simp

theorem InputRecords.isSome_bundle_iff {collection : Option CollectionResult}
    {bundle : Option PathBuf} {records : List StageOutcome}
    (h : InputRecords job collection bundle records) (hcollected : collection.isSome = true) :
    bundle.isSome = true ↔ ∃ save, job.save = some save ∧ save.isRetained = true := by
  cases h with
  | read => cases hcollected
  | collected save collection hsave =>
    rw [hsave]
    cases hretained : save.isRetained <;> simp [hretained]

/-- The save succeeded exactly if there is a collection. -/
theorem save_succeeded_iff (h : Finished adapters job context outcome) :
    ⟨.save, .succeeded⟩ ∈ outcome.stages ↔ outcome.collection.isSome = true := by
  have hnotBlocked : ∀ reason, ⟨.save, .succeeded⟩ ∉ blockedOutputs job reason := by
    intro reason hmem
    exact absurd (status_of_mem_blockedOutputs hmem) (by simp)
  cases h with
  | unresolved error reason _ hstages hcollection _ =>
    rw [hstages, hcollection]
    simp [hnotBlocked]
  | unsaved save records reason _ hrecords hstages hcollection _ =>
    have hfailed : ⟨.save, .succeeded⟩ ∉ records := by
      intro hmem
      obtain ⟨error, herror⟩ := hrecords.failed _ hmem
      cases herror
    rw [hstages, hcollection, List.mem_append]
    simp [hfailed, hnotBlocked]
  | unopened save records reason _ hinput hstages _ =>
    rw [hstages, List.mem_append, hinput.mem_save_iff, or_iff_left (hnotBlocked reason)]
  | ran records processed sent _ hinput hprocessed hsent hstages =>
    have hprocess : ⟨.save, .succeeded⟩ ∉ processed := by cases hprocessed <;> simp
    have hsend : ⟨.save, .succeeded⟩ ∉ sent := by
      generalize outcome.send = upload at hsent
      cases hsent <;> simp
    rw [hstages, List.mem_append, List.mem_append, hinput.mem_save_iff, or_iff_left hsend,
      or_iff_left hprocess]

/-- A collection is retained exactly if the job saves it for good. -/
theorem isSome_retained_iff (h : Finished adapters job context outcome)
    (hcollected : outcome.collection.isSome = true) :
    outcome.retainedBundle.isSome = true ↔
      ∃ save, job.save = some save ∧ save.isRetained = true := by
  cases h with
  | unresolved error reason _ _ hcollection _ =>
    rw [hcollection] at hcollected
    cases hcollected
  | unsaved save records reason _ _ _ hcollection _ =>
    rw [hcollection] at hcollected
    cases hcollected
  | unopened save records reason _ hinput _ _ => exact hinput.isSome_bundle_iff hcollected
  | ran records processed sent _ hinput _ _ _ => exact hinput.isSome_bundle_iff hcollected

theorem not_mem_send_of_input {records : List StageOutcome} {status : StageStatus}
    (h : ∀ one ∈ records, one.stage ∉ [Stage.process, .export, .send]) :
    ⟨.send, status⟩ ∉ records := fun hmem => h _ hmem (by simp)

/-- The upload succeeded exactly if it has an answer. -/
theorem send_succeeded_iff (h : Finished adapters job context outcome) :
    ⟨.send, .succeeded⟩ ∈ outcome.stages ↔ outcome.send.isSome = true := by
  have hnotBlocked : ∀ reason, ⟨.send, .succeeded⟩ ∉ blockedOutputs job reason := by
    intro reason hmem
    exact absurd (status_of_mem_blockedOutputs hmem) (by simp)
  cases h with
  | unresolved error reason _ hstages _ hsend =>
    rw [hstages, hsend]
    simp [hnotBlocked]
  | unsaved save records reason _ hrecords hstages _ hsend =>
    rw [hstages, hsend, List.mem_append]
    simp [not_mem_send_of_input hrecords.not_output, hnotBlocked]
  | unopened save records reason _ hinput hstages hsend =>
    rw [hstages, hsend, List.mem_append]
    simp [not_mem_send_of_input hinput.not_output, hnotBlocked]
  | ran records processed sent _ hinput hprocessed hsent hstages =>
    have hinput := @not_mem_send_of_input records .succeeded hinput.not_output
    have hprocess : ⟨.send, .succeeded⟩ ∉ processed := by cases hprocessed <;> simp
    rw [hstages, List.mem_append, List.mem_append, or_iff_right (not_or.mpr ⟨hinput, hprocess⟩)]
    generalize outcome.send = upload at hsent
    cases hsent <;> simp

def isFailed (one : StageOutcome) : Prop := ∃ error, one.status = .failed error

/-- A failed stage comes before every blocked one. -/
theorem find_unsuccessful (h : Finished adapters job context outcome)
    (hfailed : ∃ one ∈ outcome.stages, isFailed one) :
    ∃ one, (outcome.stages.find? fun one => one.status.isUnsuccessful) = some one ∧
      isFailed one := by
  have hnone : ∀ records : List StageOutcome, (∀ one ∈ records, one.status = .succeeded) →
      (records.find? fun one => one.status.isUnsuccessful) = none := by
    intro records hrecords
    rw [List.find?_eq_none]
    intro one hone
    rw [hrecords one hone]
    exact Bool.false_ne_true
  cases h with
  | unresolved error reason _ hstages _ _ =>
    rw [hstages]
    exact ⟨_, List.find?_cons_of_pos rfl, error, rfl⟩
  | unsaved save records reason _ hrecords hstages _ _ =>
    rw [hstages]
    cases hrecords with
    | setUp error => exact ⟨_, List.find?_cons_of_pos rfl, error, rfl⟩
    | application error => exact ⟨_, List.find?_cons_of_pos rfl, error, rfl⟩
    | collection error => exact ⟨_, List.find?_cons_of_pos rfl, error, rfl⟩
  | unopened save records reason _ hinput hstages _ =>
    obtain ⟨one, hone, error, herror⟩ := hfailed
    rw [hstages] at hone
    rcases List.mem_append.mp hone with hrecord | hblocked
    · rw [hinput.succeeded one hrecord] at herror
      cases herror
    · rw [status_of_mem_blockedOutputs hblocked] at herror
      cases herror
  | ran records processed sent _ hinput hprocessed hsent hstages =>
    obtain ⟨one, hone, error, herror⟩ := hfailed
    rw [hstages, List.append_assoc] at hone ⊢
    rw [List.find?_append, hnone records hinput.succeeded, Option.none_or]
    have hone : one ∈ processed ++ sent := by
      rcases List.mem_append.mp hone with hrecord | hone
      · rw [hinput.succeeded one hrecord] at herror
        cases herror
      · exact hone
    generalize outcome.send = upload at hsent
    cases hprocessed with
    | failed error reason => exact ⟨_, List.find?_cons_of_pos rfl, error, rfl⟩
    | exportFailed error =>
      exact ⟨_, (List.find?_cons_of_neg (by simp [StageStatus.isUnsuccessful])).trans
        (List.find?_cons_of_pos rfl), error, rfl⟩
    | notSelected =>
      cases hsent with
      | failed error => exact ⟨_, List.find?_cons_of_pos rfl, error, rfl⟩
      | notSelected => cases hone
      | sent upload =>
        rw [List.mem_singleton.mp hone] at herror
        cases herror
    | exported =>
      cases hsent with
      | failed error => exact ⟨⟨.send, .failed error⟩, rfl, error, rfl⟩
      | notSelected =>
        have hsucceeded : one.status = .succeeded := by
          rcases List.mem_cons.mp hone with rfl | hone
          · rfl
          · rw [List.mem_singleton.mp hone]
        rw [hsucceeded] at herror
        cases herror
      | sent upload =>
        have hsucceeded : one.status = .succeeded := by
          simp only [List.cons_append, List.nil_append, List.mem_cons, List.not_mem_nil,
            or_false] at hone
          rcases hone with rfl | rfl | rfl <;> rfl
        rw [hsucceeded] at herror
        cases herror

end Facts

section Children

/-- A child without a report and without a skip is a failed one. -/
def Classified (child : ChildOutcome) : Prop :=
  child.execution.report = none → (∀ kind, child.diagnosticOutcome ≠ .skipped kind) →
    child.failure.isSome = true

theorem classified_childOutcome (path : String) (execution : ExecutionOutcome)
    (platform : Platform) : Classified (childOutcome path execution platform) := by
  intro hreport hunskipped
  have hreport : execution.report = none := hreport
  have houtcome : (childOutcome path execution platform).diagnosticOutcome =
      ((execution.executionError.bind skipKindFor).map DiagnosticOutcome.skipped).getD .failed := by
    simp only [childOutcome, ExecutionOutcome.diagnosticOutcome, hreport, Option.map_none,
      Option.none_or]
  unfold ChildExecutionOutcome.failure
  rw [houtcome] at hunskipped ⊢
  cases hskip : execution.executionError.bind skipKindFor with
  | none => rfl
  | some kind =>
    rw [hskip] at hunskipped
    exact absurd rfl (hunskipped kind)

theorem classified_runChildJob (runChild : Job → ExecutionContext R X → Execution)
    (inheritance : Inheritance R) (path : String) (context : ExecutionContext R X) :
    Classified (runChildJob runChild inheritance path context).result := by
  have hfailed : ∀ error, Classified
      (failedChildExecution context.identity path error inheritance.platform) :=
    fun error _ _ => rfl
  unfold runChildJob
  split
  · exact hfailed _
  · split
    · exact hfailed _
    · exact classified_childOutcome path _ inheritance.platform

theorem classified_children (adapters : Adapters R X) (job : Job)
    (context : ExecutionContext R X) :
    ∀ child ∈ (execute adapters job context).outcome.children, Classified child := by
  intro child hchild
  have hlaunched := (children_perm adapters job context).mem_iff.mp hchild
  unfold launched at hlaunched
  split at hlaunched
  · cases hlaunched
  · obtain ⟨declared, -, rfl⟩ := List.mem_map.mp hlaunched
    exact classified_runChildJob _ _ _ _

/-- The entry of a child: completed exactly if the child neither failed nor was skipped. -/
def EntryFor (child : ChildOutcome) (entry : IncludedDiagnosticResult) : Prop :=
  entry.source = child.path ∧
    (entry.isCompleted = true ↔
      child.failure = none ∧ ∀ kind, child.diagnosticOutcome ≠ .skipped kind)

theorem entryFor_includedResult {child : ChildOutcome} (h : Classified child) :
    EntryFor child (includedResult child) := by
  have hskipped : ∀ kind, child.diagnosticOutcome = .skipped kind → child.failure = none := by
    intro kind hkind
    unfold ChildExecutionOutcome.failure
    rw [hkind]
  unfold EntryFor includedResult
  cases hreport : child.execution.report with
  | some report =>
    cases hfailure : child.failure with
    | some error => simp [IncludedDiagnosticResult.source, IncludedDiagnosticResult.isCompleted]
    | none =>
      cases houtcome : child.diagnosticOutcome <;>
        simp [IncludedDiagnosticResult.source, IncludedDiagnosticResult.isCompleted]
  | none =>
    have hclassified := h hreport
    cases houtcome : child.diagnosticOutcome with
    | skipped kind =>
      simp [IncludedDiagnosticResult.source, IncludedDiagnosticResult.isCompleted]
    | complete | partly | failed =>
      obtain ⟨error, herror⟩ := Option.isSome_iff_exists.mp
        (hclassified (by rw [houtcome]; intro kind hkind; cases hkind))
      simp [IncludedDiagnosticResult.source, IncludedDiagnosticResult.isCompleted, herror]

end Children

section Reports

inductive FailingCommand where
  | process
  | savedJobRun

def isProcessInput : Input → Bool
  | .load (.file _) | .load (.directory _) | .loadBinding _ => true
  | .collectBinding _ diagnosticType none none => diagnosticType == "standard"
  | _ => false

def isProcessTarget : ExportTarget → Bool
  | .file _ | .directory _ | .stdout | .binding _ => true
  | .knownHost _ | .environment => false

/-- The jobs that the process command builds. -/
structure BuiltByProcess (job : Job) : Prop where
  input : isProcessInput job.input = true
  save : job.save = none
  process : ∃ target, job.process = some ⟨none, target⟩ ∧ isProcessTarget target = true
  send : job.send = none

def Executes : FailingCommand → Job → Prop
  | .process, job => BuiltByProcess job
  | .savedJobRun, _ => True

def failureOf : FailingCommand → ExecutionOutcome → CliFailure
  | .process, outcome => structuredFailure (processCommandFailure outcome)
  | .savedJobRun, outcome => structuredFailure (executionFailure outcome)

/-- A report is true to its execution: the failed stage did fail if any stage did, and the
completed parts are those that were completed. -/
structure TrueTo (job : Job) (outcome : ExecutionOutcome) (failure : CliFailure) : Prop where
  stage : (∃ stage error, outcome.stage stage = some (.failed error)) →
    ∃ stage error, outcome.stage stage = some (.failed error) ∧
      failure.failedStage = some (failureStage (.ofStage stage)).2
  save : (failure.completed.bind CompletedStages.save).isSome = true ↔
    outcome.stage .save = some .succeeded ∧ ∃ save, job.save = some save ∧ save.isRetained = true
  send : (failure.completed.bind CompletedStages.send).isSome = true ↔
    outcome.stage .send = some .succeeded
  process : (failure.completed.bind CompletedStages.process).isSome = true →
    outcome.report.isSome = true
  included : ∀ process, failure.completed.bind CompletedStages.process = some process →
    List.Forall₂ EntryFor outcome.children process.included

/-- Every command that can execute a job reports its failure truly, and all the same way. -/
structure ReportedTruly (job : Job) (outcome : ExecutionOutcome) : Prop where
  trueTo : ∀ command, Executes command job → TrueTo job outcome (failureOf command outcome)
  alike : ∀ first second, Executes first job → Executes second job →
    (failureOf first outcome).failedStage = (failureOf second outcome).failedStage ∧
      (failureOf first outcome).category = (failureOf second outcome).category

variable (adapters : Adapters R X) (job : Job) (context : ExecutionContext R X)

theorem process_part {failure : JobExecutionFailure} {outcome : ExecutionOutcome}
    (hexecution : failure.outcome.execution = some outcome)
    (hchildren : ∀ child ∈ outcome.children, Classified child) :
    (((structuredFailure failure).completed.bind CompletedStages.process).isSome = true →
      outcome.report.isSome = true) ∧
    ∀ process, (structuredFailure failure).completed.bind CompletedStages.process = some process →
      List.Forall₂ EntryFor outcome.children process.included := by
  rw [completed_process]
  unfold completedStages
  dsimp only
  rw [hexecution, Option.bind_some, executionProcessResult, Option.isSome_map]
  refine ⟨id, fun process hprocess => ?_⟩
  obtain ⟨report, -, rfl⟩ := Option.map_eq_some_iff.mp hprocess
  rw [List.forall₂_map_right_iff, List.forall₂_same]
  exact fun child hchild => entryFor_includedResult (hchildren child hchild)

/-- The first unsuccessful stage of an execution is a failed one. -/
theorem failedStage_spec {outcome : ExecutionOutcome} (hnodup : outcome.recorded.Nodup)
    (h : Finished adapters job context outcome)
    (hfailed : ∃ stage error, outcome.stage stage = some (.failed error)) :
    ∃ stage error, outcome.stage stage = some (.failed error) ∧
      failedStage outcome = .ofStage stage := by
  obtain ⟨stage, error, hstage⟩ := hfailed
  obtain ⟨⟨found, status⟩, hfind, error', herror⟩ := find_unsuccessful h
    ⟨_, (stage_eq_some_iff hnodup).mp hstage, error, rfl⟩
  have hmem := List.mem_of_find?_eq_some hfind
  cases herror
  refine ⟨found, error', (stage_eq_some_iff hnodup).mpr hmem, ?_⟩
  rw [failedStage, hfind]
  rfl

theorem savedJobRun_trueTo :
    TrueTo job (execute adapters job context).outcome
      (failureOf .savedJobRun (execute adapters job context).outcome) := by
  have hfinished := finished_execute adapters job context
  have hnodup := nodup_recorded_execute adapters job context
  have hpart := @process_part (executionFailure (execute adapters job context).outcome) _ rfl
    (classified_children adapters job context)
  refine ⟨?_, ?_, ?_, hpart.1, hpart.2⟩
  · intro hfailed
    obtain ⟨stage, error, hstage, heq⟩ :=
      failedStage_spec adapters job context hnodup hfinished hfailed
    refine ⟨stage, error, hstage, ?_⟩
    rw [← heq]
    rfl
  · rw [failureOf, completed_save, stage_eq_some_iff hnodup, save_succeeded_iff hfinished]
    have hfilter : (completedStages (executionFailure
        (execute adapters job context).outcome).outcome).save.isSome =
          ((execute adapters job context).outcome.retainedBundle.isSome &&
            (execute adapters job context).outcome.collection.isSome) := by
      unfold completedStages executionFailure jobOutcome
      dsimp only
      cases (execute adapters job context).outcome.retainedBundle <;>
        cases (execute adapters job context).outcome.collection <;> rfl
    rw [hfilter, Bool.and_eq_true, and_comm]
    exact and_congr_right (isSome_retained_iff hfinished)
  · rw [failureOf, completed_send, stage_eq_some_iff hnodup, send_succeeded_iff hfinished]
    unfold completedStages executionFailure jobOutcome
    rw [Option.isSome_map, Option.isSome_map]

section ProcessCommand

variable {adapters job context} (hbuilt : BuiltByProcess job)

include hbuilt in
theorem recorded_of_built {stage : Stage}
    (h : stage ∈ (execute adapters job context).outcome.recorded) :
    stage = inputStage job ∨ stage = .process ∨ stage = .export := by
  obtain ⟨target, hprocess, -⟩ := hbuilt.process
  rw [execute_eq, recorded_executeWith adapters job context (execute adapters),
    DepthFirstClosure.mem_foldl_insertNew] at h
  rcases h with hinput | houtput
  · have hrecords : inputRecords adapters job context = [inputStage job] := by
      unfold inputRecords
      rw [hbuilt.save]
      cases resolveInput adapters context job <;> rfl
    rw [hrecords, List.mem_singleton] at hinput
    exact Or.inl hinput
  · simp only [outputStages, hprocess, hbuilt.send, Option.isSome_some, Option.isSome_none,
      Bool.false_eq_true, if_true, if_false, List.append_nil, List.mem_cons, List.not_mem_nil,
      or_false] at houtput
    exact Or.inr houtput

include hbuilt in
theorem input_succeeded {resolved : ResolvedInput R}
    (hresolve : resolveInput adapters context job = .ok resolved) :
    (execute adapters job context).outcome.stage (inputStage job) = some .succeeded := by
  rw [stage_eq_some_iff (nodup_recorded_execute adapters job context)]
  cases finished_execute adapters job context with
  | unresolved error reason hunresolved =>
    rw [hresolve] at hunresolved
    cases hunresolved
  | unsaved save records reason hsave =>
    rw [hbuilt.save] at hsave
    cases hsave
  | unopened save records reason hsave =>
    rw [hbuilt.save] at hsave
    cases hsave
  | ran records processed sent _ hinput hprocessed hsent hstages =>
    rw [hstages, List.append_assoc, List.mem_append]
    refine Or.inl ?_
    generalize (execute adapters job context).outcome.collection = collection at hinput
    generalize (execute adapters job context).outcome.retainedBundle = bundle at hinput
    cases hinput with
    | read => exact List.mem_singleton_self _
    | collected save collection hsave =>
      rw [hbuilt.save] at hsave
      cases hsave

include hbuilt in
/-- With its input resolved, only the processing of a process command is unsuccessful. -/
theorem ofStage_of_unsuccessful {resolved : ResolvedInput R}
    (hresolve : resolveInput adapters context job = .ok resolved) {one : StageOutcome}
    (hone : one ∈ (execute adapters job context).outcome.stages)
    (hstatus : one.status.isUnsuccessful = true) :
    FailedStage.ofStage one.stage = .process := by
  have hnodup := nodup_recorded_execute adapters job context
  rcases recorded_of_built hbuilt (List.mem_map_of_mem hone) with hinput | hprocess | hexport
  · have hstage := (stage_eq_some_iff hnodup).mpr hone
    rw [hinput, input_succeeded hbuilt hresolve] at hstage
    rw [← Option.some.inj hstage] at hstatus
    cases hstatus
  · rw [hprocess]
    rfl
  · rw [hexport]
    rfl

include hbuilt in
theorem failedStage_of_resolved {resolved : ResolvedInput R}
    (hresolve : resolveInput adapters context job = .ok resolved) :
    failedStage (execute adapters job context).outcome = .process := by
  unfold failedStage
  cases hfind : (execute adapters job context).outcome.stages.find?
      fun one => one.status.isUnsuccessful with
  | none => rfl
  | some one =>
    have hstatus : one.status.isUnsuccessful = true := by
      have hfound := List.find?_some hfind
      exact hfound
    rw [Option.map_some, Option.getD_some]
    exact ofStage_of_unsuccessful hbuilt hresolve (List.mem_of_find?_eq_some hfind) hstatus

include hbuilt in
theorem process_trueTo {resolved : ResolvedInput R}
    (hresolve : resolveInput adapters context job = .ok resolved) :
    TrueTo job (execute adapters job context).outcome
      (failureOf .process (execute adapters job context).outcome) := by
  have hnodup := nodup_recorded_execute adapters job context
  have hpart := @process_part (processCommandFailure (execute adapters job context).outcome) _ rfl
    (classified_children adapters job context)
  refine ⟨?_, ?_, ?_, hpart.1, hpart.2⟩
  · rintro ⟨stage, error, hstage⟩
    refine ⟨stage, error, hstage, ?_⟩
    rw [ofStage_of_unsuccessful hbuilt hresolve ((stage_eq_some_iff hnodup).mp hstage) rfl]
    rfl
  · rw [failureOf, completed_save, hbuilt.save]
    refine ⟨(fun h => by cases h), ?_⟩
    rintro ⟨-, save, hsave, -⟩
    cases hsave
  · rw [failureOf, completed_send]
    refine ⟨(fun h => by cases h), fun hsent => ?_⟩
    have hmem := List.mem_map_of_mem (f := StageOutcome.stage)
      ((stage_eq_some_iff hnodup).mp hsent)
    have hstage := recorded_of_built hbuilt hmem
    unfold inputStage at hstage
    split at hstage <;> simp at hstage

include hbuilt in
/-- Without an input, the stage that failed is the one that reads it. -/
theorem unresolved_stages {error : String}
    (hresolve : resolveInput adapters context job = .error error) :
    (execute adapters job context).outcome.stage (inputStage job) = some (.failed error) ∧
      ∀ stage message, (execute adapters job context).outcome.stage stage =
        some (.failed message) → stage = inputStage job := by
  have hnodup := nodup_recorded_execute adapters job context
  have hstages : ∃ reason, (execute adapters job context).outcome.stages =
      ⟨inputStage job, .failed error⟩ :: blockedOutputs job reason := by
    cases finished_execute adapters job context with
    | unresolved error' reason hresolve' hstages =>
      rw [hresolve] at hresolve'
      cases hresolve'
      exact ⟨reason, hstages⟩
    | unsaved save records reason hsave =>
      rw [hbuilt.save] at hsave
      cases hsave
    | unopened save records reason hsave =>
      rw [hbuilt.save] at hsave
      cases hsave
    | ran records processed sent hresolved =>
      obtain ⟨resolved, hresolved⟩ := hresolved
      rw [hresolve] at hresolved
      cases hresolved
  obtain ⟨reason, hstages⟩ := hstages
  constructor
  · rw [stage_eq_some_iff hnodup, hstages]
    exact List.mem_cons_self
  · intro stage message hstage
    rw [stage_eq_some_iff hnodup, hstages, List.mem_cons] at hstage
    rcases hstage with heq | hblocked
    · exact congrArg StageOutcome.stage heq
    · cases status_of_mem_blockedOutputs hblocked

end ProcessCommand

/-- A failed execution is reported truly, whichever command executed its job, exactly if the input
of a job of the process command resolves. -/
theorem failure_report_true_iff :
    ((execute adapters job context).outcome.failed = true →
        ReportedTruly job (execute adapters job context).outcome) ↔
      (BuiltByProcess job → ∃ resolved, resolveInput adapters context job = .ok resolved) := by
  constructor
  · intro htruly hbuilt
    cases hresolve : resolveInput adapters context job with
    | ok resolved => exact ⟨resolved, rfl⟩
    | error error =>
      exfalso
      obtain ⟨hstage, honly⟩ := unresolved_stages hbuilt hresolve
      have hmem := (stage_eq_some_iff (nodup_recorded_execute adapters job context)).mp hstage
      have hfails : (execute adapters job context).outcome.failed = true :=
        (ExecutionOutcome.failed_iff _).mpr (Or.inl ⟨_, hmem, rfl⟩)
      obtain ⟨stage, message, hfailed, hreported⟩ :=
        ((htruly hfails).trueTo .process hbuilt).stage ⟨_, _, hstage⟩
      have hprocess : (failureStage (.ofStage stage)).2 = JobStage.process :=
        (Option.some.inj hreported).symm
      rw [honly stage message hfailed] at hprocess
      unfold inputStage at hprocess
      split at hprocess <;> cases hprocess
  · intro hresolves _
    have hrun := savedJobRun_trueTo adapters job context
    have hsame : BuiltByProcess job →
        (failureOf .process (execute adapters job context).outcome).failedStage =
          (failureOf .savedJobRun (execute adapters job context).outcome).failedStage ∧
        (failureOf .process (execute adapters job context).outcome).category =
          (failureOf .savedJobRun (execute adapters job context).outcome).category := by
      intro hbuilt
      obtain ⟨resolved, hresolve⟩ := hresolves hbuilt
      have hstage : (executionFailure (execute adapters job context).outcome).stage =
          (processCommandFailure (execute adapters job context).outcome).stage :=
        failedStage_of_resolved hbuilt hresolve
      unfold failureOf
      dsimp only
      rw [failedStage_structuredFailure, failedStage_structuredFailure,
        category_structuredFailure, category_structuredFailure, hstage]
      exact ⟨rfl, rfl⟩
    constructor
    · intro command hcommand
      cases command with
      | savedJobRun => exact hrun
      | process =>
        obtain ⟨resolved, hresolve⟩ := hresolves hcommand
        exact process_trueTo hcommand hresolve
    · intro first second hfirst hsecond
      cases first with
      | process =>
        cases second with
        | process => exact ⟨rfl, rfl⟩
        | savedJobRun => exact hsame hfirst
      | savedJobRun =>
        cases second with
        | process => exact ⟨(hsame hsecond).1.symm, (hsame hsecond).2.symm⟩
        | savedJobRun => exact ⟨rfl, rfl⟩

end Reports

/-- The job of processing a bundle on disk to the standard output. -/
def bundleJob : Job :=
  { identifiers := .default none
    input := .load (.file (.ofString "bundle.zip"))
    save := none
    process := some ⟨none, .stdout⟩
    send := none
    valid := by rfl }

/-- The bundle cannot be opened any more when the executor loads it: processing, which is only
blocked, is the failed stage of the process command. -/
theorem unreadable_bundle_reported :
    ¬ ((execute (sequentialAdapters collectingAnswers) bundleJob
          commandLineContext).outcome.failed = true →
        ReportedTruly bundleJob
          (execute (sequentialAdapters collectingAnswers) bundleJob
            commandLineContext).outcome) := by
  intro htruly
  have hbuilt : BuiltByProcess bundleJob := ⟨rfl, rfl, ⟨.stdout, rfl, rfl⟩, rfl⟩
  have halike := (htruly rfl).alike .process .savedJobRun hbuilt trivial
  exact absurd halike.1 (by decide)

end Esdiag.FailureTruth
