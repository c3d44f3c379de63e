import Esdiag.ChildJobs
import Esdiag.StageRecords

/-!
What an observer sees of each stage of each job. A stage is followed through the
marks that it leaves in a trace: its start, the beginnings of its work and its
completion. Own steps move the view of a stage like a small automaton; the
outputs of a run begin only after its input phase, so that the one place where
a start stays open is the setup of a save.
-/
namespace Esdiag.LifecycleEvents

open KeyedMaps Deployments ProcessSelections JobModel ExecutionOutcomes Interleavings
  Executor StageRecords ChildJobs

variable {R X : Type}

inductive Mark where
  | started
  | ran
  | completed
  deriving DecidableEq

def lifecycleMark : Lifecycle → Option Mark
  | .started => some .started
  | .completed => some .completed
  | .queued | .progress => none

def markOf (jobId : ℕ) (stage : Stage) : TraceEntry → Option Mark
  | .observed event =>
    if event.identity.jobId = jobId ∧ event.stage = stage then lifecycleMark event.lifecycle
    else none
  | .ran one other => if one = jobId ∧ other = stage then some .ran else none

def marks (jobId : ℕ) (stage : Stage) (trace : List TraceEntry) : List Mark :=
  trace.filterMap (markOf jobId stage)

/-- A stage starts and completes at most once, completes after its start if it
ran, and completes once if it started. -/
def Paired (all : List Mark) : Prop :=
  all.count .started ≤ 1 ∧ all.count .completed ≤ 1 ∧
    (.ran ∈ all → ∀ i : Fin all.length, all[i] = .completed → .started ∈ all.take i) ∧
    ∀ i : Fin all.length, all[i] = .started → (all.drop (i + 1)).count .completed = 1

instance (all : List Mark) : Decidable (Paired all) :=
  inferInstanceAs (Decidable (_ ∧ _ ∧ _ ∧ _))

/-- One stage of one job, as far as a trace and an outcome have got. -/
structure StageView where
  marks : List Mark
  recorded : Bool
  deriving DecidableEq

namespace StageView

def push (self : StageView) (marks : List Mark) : StageView :=
  { self with marks := self.marks ++ marks }

def complete (self : StageView) : StageView :=
  if self.recorded then self else ⟨self.marks ++ [.completed], true⟩

end StageView

def view (jobId : ℕ) (stage : Stage) (execution : Execution) : StageView :=
  ⟨marks jobId stage execution.trace, decide (stage ∈ execution.outcome.recorded)⟩

section Views

variable (execution : Execution) (identity : ExecutionIdentity) (stage : Stage)

theorem marks_append (jobId : ℕ) (first second : List TraceEntry) :
    marks jobId stage (first ++ second) = marks jobId stage first ++ marks jobId stage second :=
  List.filterMap_append

theorem view_append (jobId : ℕ) (trace : List TraceEntry) :
    view jobId stage (execution.append trace) =
      (view jobId stage execution).push (marks jobId stage trace) := by
  simp only [view, StageView.push, Execution.append, marks_append]
  rfl

@[simp] theorem view_observe (other : Stage) (lifecycle : Lifecycle) :
    view identity.jobId stage (execution.observe identity other lifecycle) =
      if other = stage then
        (view identity.jobId stage execution).push (lifecycleMark lifecycle).toList
      else view identity.jobId stage execution := by
  unfold Execution.observe
  rw [view_append]
  by_cases h : other = stage
  · cases hmark : lifecycleMark lifecycle <;>
      simp [h, marks, markOf, ExecutionEvent.new, hmark]
  · simp [h, marks, markOf, ExecutionEvent.new, StageView.push]

@[simp] theorem view_run (other : Stage) :
    view identity.jobId stage (execution.run identity.jobId other) =
      if other = stage then (view identity.jobId stage execution).push [.ran]
      else view identity.jobId stage execution := by
  unfold Execution.run
  rw [view_append]
  by_cases h : other = stage <;> simp [h, marks, markOf, StageView.push]

theorem complete_of_recorded (jobId : ℕ) (h : stage ∈ execution.outcome.recorded) :
    (view jobId stage execution).complete = view jobId stage execution :=
  if_pos (decide_eq_true h)

@[simp] theorem view_recordStage (other : Stage) (status : StageStatus) :
    view identity.jobId stage (execution.recordStage identity other status) =
      if other = stage then (view identity.jobId stage execution).complete
      else view identity.jobId stage execution := by
  unfold Execution.recordStage
  rw [ExecutionOutcome.isSome_stage]
  by_cases hmem : other ∈ execution.outcome.recorded
  · rw [if_pos (decide_eq_true hmem)]
    by_cases h : other = stage
    · rw [if_pos h, complete_of_recorded execution stage identity.jobId (h ▸ hmem)]
    · rw [if_neg h]
  · rw [if_neg (by simpa using hmem)]
    by_cases h : other = stage
    · subst h
      simp [view, StageView.complete, hmem, marks, markOf, lifecycleMark]
    · simp [view, h, Ne.symm h, marks, markOf]

@[simp] theorem view_recordBlocked (reason : String) (other : Stage) :
    view identity.jobId stage (execution.recordBlocked identity reason other) =
      if other = stage then (view identity.jobId stage execution).complete
      else view identity.jobId stage execution := by
  unfold Execution.recordBlocked
  by_cases hmem : other ∈ execution.outcome.recorded
  · have hsome : (execution.outcome.stage other).isNone = false := by
      rw [← Option.not_isSome, ExecutionOutcome.isSome_stage, decide_eq_true hmem]
      rfl
    rw [if_neg (by simp [hsome])]
    by_cases h : other = stage
    · rw [if_pos h, complete_of_recorded execution stage identity.jobId (h ▸ hmem)]
    · rw [if_neg h]
  · have hnone : (execution.outcome.stage other).isNone = true := by
      rw [← Option.not_isSome, ExecutionOutcome.isSome_stage, decide_eq_false hmem]
      rfl
    rw [if_pos hnone, view_recordStage]

@[simp] theorem StageView.complete_complete (self : StageView) :
    self.complete.complete = self.complete := by
  unfold StageView.complete
  cases hrecorded : self.recorded <;> simp [hrecorded]

theorem view_recordBlockedOutputs (job : Job) (reason : String) :
    view identity.jobId stage (execution.recordBlockedOutputs identity job reason) =
      if stage ∈ outputStages job then (view identity.jobId stage execution).complete
      else view identity.jobId stage execution := by
  unfold Execution.recordBlockedOutputs outputStages
  cases job.process.isSome <;> cases job.send.isSome <;> cases stage <;> simp

theorem view_applyProcessResult (result : Option (Except String ProcessExecution)) :
    view identity.jobId stage (applyProcessResult identity execution result) =
      if result.isSome ∧ (stage = .process ∨ stage = .export) then
        (view identity.jobId stage execution).complete
      else view identity.jobId stage execution := by
  cases result with
  | none => simp [applyProcessResult]
  | some result =>
    have hreported : ∀ report children, view identity.jobId stage { execution with
        outcome := { execution.outcome with report := report, children := children } } =
          view identity.jobId stage execution := fun _ _ => rfl
    cases result with
    | error error => cases stage <;> simp [applyProcessResult]
    | ok processed =>
      cases hexport : processed.exportError <;> cases stage <;>
        simp [applyProcessResult, hexport, hreported]

theorem view_applySendResult (result : Option (Except String SendResult)) :
    view identity.jobId stage (applySendResult identity execution result) =
      if result.isSome ∧ stage = .send then (view identity.jobId stage execution).complete
      else view identity.jobId stage execution := by
  cases result with
  | none => simp [applySendResult]
  | some result =>
    have hsent : ∀ upload, view identity.jobId stage { execution with
        outcome := { execution.outcome with send := some upload } } =
          view identity.jobId stage execution := fun _ => rfl
    cases result <;> cases stage <;> simp [applySendResult, hsent]

end Views

section InputPhase

variable (adapters : Adapters R X) (job : Job) (context : ExecutionContext R X)

/-- The stages at the end of the input phase, before any output has begun. -/
def phaseView (stage : Stage) : StageView :=
  match resolveInput adapters context job, job.save with
  | .error _, _ | .ok _, none =>
    if stage = inputStage job then ⟨[.started, .ran, .completed], true⟩ else ⟨[], false⟩
  | .ok resolved, some save =>
    match bundleDir (adapters.answers context.identity.jobId) save, resolved.application with
    | .error _, _ =>
      if stage = .collect then ⟨[.started, .ran], false⟩
      else if stage = .save then ⟨[.completed], true⟩
      else ⟨[], false⟩
    | .ok _, none =>
      if stage = .collect then ⟨[.started, .ran, .completed], true⟩
      else if stage = .save then ⟨[.started], false⟩
      else ⟨[], false⟩
    | .ok outputDir, some _ =>
      match (adapters.answers context.identity.jobId).archive outputDir with
      | .error _ =>
        if stage = .collect then ⟨[.started, .ran], false⟩
        else if stage = .save then ⟨[.started, .completed], true⟩
        else ⟨[], false⟩
      | .ok () =>
        if stage = .collect then ⟨[.started, .ran, .ran, .completed], true⟩
        else if stage = .save then ⟨[.started, .ran, .completed], true⟩
        else ⟨[], false⟩

/-- The views at the end of a phase; an ended execution has blocked its outputs. -/
def PhaseViews (staged : Except Execution (Execution × ResolvedInput R)) : Prop :=
  ∀ stage, view context.identity.jobId stage (reached staged) =
    if staged.toOption = none ∧ stage ∈ outputStages job then
      (phaseView adapters job context stage).complete
    else phaseView adapters job context stage

theorem view_inputBegun (stage : Stage) :
    view context.identity.jobId stage (inputBegun job context) =
      if stage = inputStage job then ⟨[.started, .ran], false⟩ else ⟨[], false⟩ := by
  simp only [inputBegun, view_run, view_observe]
  cases stage <;> cases inputStage job <;> rfl

theorem phaseViews_collectArchive (save : SaveTarget) (outputDir : PathBuf)
    (receiver : R) (application : Application) (execution : Execution)
    (hphase : ∀ stage, phaseView adapters job context stage =
      if stage = .collect then ⟨[.started, .ran, .ran, .completed], true⟩
      else if stage = .save then ⟨[.started, .ran, .completed], true⟩
      else ⟨[], false⟩)
    (hview : ∀ stage, view context.identity.jobId stage execution =
      if stage = .collect then ⟨[.started, .ran], false⟩
      else if stage = .save then ⟨[.started], false⟩
      else ⟨[], false⟩) :
    PhaseViews adapters job context
      (collectArchive adapters context job save outputDir receiver application execution) := by
  intro stage
  have hran : ∀ status other, view context.identity.jobId stage
      ((((execution.run context.identity.jobId .collect).run context.identity.jobId
        .save).recordStage context.identity .collect status).recordStage context.identity .save
          other) = phaseView adapters job context stage := by
    intro status other
    rw [hphase]
    simp only [view_recordStage, view_run, hview]
    cases stage <;> rfl
  have hkept : ∀ collection bundle (before : Execution),
      view context.identity.jobId stage { before with outcome := { before.outcome with
        collection := collection, retainedBundle := bundle } } =
          view context.identity.jobId stage before := fun _ _ _ => rfl
  cases hcollected : (adapters.answers context.identity.jobId).collectBundle receiver outputDir
      (collectOptions job application) with
  | error error =>
    simp only [collectArchive, hcollected, reached, view_recordBlockedOutputs, hran,
      Except.toOption, true_and]
  | ok collection =>
    cases hopened : (adapters.answers context.identity.jobId).openBundle
        (PathBuf.ofString collection.path) with
    | error error =>
      simp only [collectArchive, hcollected, hopened, reached, view_recordBlockedOutputs, hkept,
        hran, Except.toOption, true_and]
    | ok receiver =>
      simp only [collectArchive, hcollected, hopened, reached, hkept, hran, Except.toOption,
        reduceCtorEq, false_and, if_false]

theorem phaseViews_stagedCollection (resolved : ResolvedInput R) (save : SaveTarget)
    (hcollect : job.input.isCollect = true) (hsave : job.save = some save)
    (hresolve : resolveInput adapters context job = .ok resolved) :
    PhaseViews adapters job context
      (stagedCollection adapters context job resolved (inputBegun job context)) := by
  have hinput : inputStage job = .collect := by
    rw [inputStage, if_pos hcollect]
  have hbegun := view_inputBegun job context
  rw [hinput] at hbegun
  cases hdir : bundleDir (adapters.answers context.identity.jobId) save with
  | error error =>
    intro stage
    simp only [stagedCollection, hsave, hdir, reached, view_recordBlockedOutputs,
      view_recordStage, hbegun, phaseView, hresolve, Except.toOption, true_and]
    cases stage <;> rfl
  | ok outputDir =>
    cases happlication : resolved.application with
    | none =>
      intro stage
      simp only [stagedCollection, hsave, hdir, happlication, reached,
        view_recordBlockedOutputs, view_recordStage, view_observe, hbegun, phaseView, hresolve,
        Except.toOption, true_and]
      cases stage <;> rfl
    | some application =>
      cases harchive : (adapters.answers context.identity.jobId).archive outputDir with
      | error error =>
        intro stage
        simp only [stagedCollection, hsave, hdir, happlication, harchive, reached,
          view_recordBlockedOutputs, view_recordStage, view_observe, hbegun, phaseView, hresolve,
          Except.toOption, true_and]
        cases stage <;> rfl
      | ok _ =>
        simp only [stagedCollection, hsave, hdir, happlication, harchive]
        refine phaseViews_collectArchive adapters job context save outputDir resolved.receiver
          application _ ?_ ?_
        · intro stage
          simp only [phaseView, hresolve, hsave, hdir, happlication, harchive]
        · intro stage
          simp only [view_observe, hbegun]
          cases stage <;> rfl

theorem phaseViews_stagedInput (resolved : ResolvedInput R)
    (hsaved : job.input.isCollect = true → job.save.isSome = true)
    (hresolve : resolveInput adapters context job = .ok resolved) :
    PhaseViews adapters job context
      (stagedInput adapters context job resolved (inputBegun job context)) := by
  unfold stagedInput
  cases hcollect : job.input.isCollect with
  | true =>
    obtain ⟨save, hsave⟩ := Option.isSome_iff_exists.mp (hsaved hcollect)
    rw [if_pos rfl]
    exact phaseViews_stagedCollection adapters job context resolved save hcollect hsave hresolve
  | false =>
    intro stage
    have hsave := job.save_eq_none hcollect
    have hkept : ∀ collection bundle (before : Execution),
        view context.identity.jobId stage { before with outcome := { before.outcome with
          collection := collection, retainedBundle := bundle } } =
            view context.identity.jobId stage before := fun _ _ _ => rfl
    simp only [Bool.false_eq_true, if_false, reached, hkept, view_recordStage, view_inputBegun,
      phaseView, hresolve, hsave, inputStage, hcollect, Except.toOption, reduceCtorEq, false_and]
    cases stage <;> rfl

end InputPhase

section Foreign

variable (identity : ExecutionIdentity)

/-- The entry of another job. -/
def foreignEntry (jobId : ℕ) (entry : TraceEntry) : Option TraceEntry :=
  if entry.jobId = jobId then none else some entry

/-- What a trace holds of other jobs. -/
def foreign (jobId : ℕ) (trace : List TraceEntry) : List TraceEntry :=
  trace.filterMap (foreignEntry jobId)

theorem foreign_append (jobId : ℕ) (first second : List TraceEntry) :
    foreign jobId (first ++ second) = foreign jobId first ++ foreign jobId second :=
  List.filterMap_append

theorem foreign_eq_nil {jobId : ℕ} {trace : List TraceEntry}
    (h : ∀ entry ∈ trace, entry.jobId = jobId) : foreign jobId trace = [] :=
  filterMap_eq_nil_of_forall fun entry hmem => if_pos (h entry hmem)

theorem foreign_append_own {jobId : ℕ} (trace : List TraceEntry) {entry : TraceEntry}
    (h : entry.jobId = jobId) : foreign jobId (trace ++ [entry]) = foreign jobId trace := by
  have hentry : foreign jobId [entry] = [] :=
    foreign_eq_nil fun other hmem => by rw [List.mem_singleton.mp hmem, h]
  rw [foreign_append, hentry, List.append_nil]

theorem jobId_of_markOf {jobId : ℕ} {stage : Stage} {entry : TraceEntry} {mark : Mark}
    (h : markOf jobId stage entry = some mark) : entry.jobId = jobId := by
  cases entry with
  | observed event =>
    simp only [markOf] at h
    split at h
    · rename_i hevent
      exact hevent.1
    · cases h
  | ran one other =>
    simp only [markOf] at h
    split at h
    · rename_i hran
      exact hran.1
    · cases h

theorem markOf_eq_none {jobId : ℕ} (stage : Stage) {entry : TraceEntry}
    (h : entry.jobId ≠ jobId) : markOf jobId stage entry = none := by
  cases hmark : markOf jobId stage entry with
  | none => rfl
  | some mark => exact absurd (jobId_of_markOf hmark) h

/-- The marks of a job are those of what is foreign to any other job. -/
theorem marks_foreign {jobId own : ℕ} (hne : jobId ≠ own) (stage : Stage)
    (trace : List TraceEntry) : marks jobId stage (foreign own trace) = marks jobId stage trace := by
  unfold marks foreign
  rw [List.filterMap_filterMap]
  refine List.filterMap_congr fun entry _ => ?_
  unfold foreignEntry
  by_cases hown : entry.jobId = own
  · rw [if_pos hown, Option.bind_none, markOf_eq_none stage (by omega)]
  · rw [if_neg hown, Option.bind_some]

theorem foreign_recordStage (execution : Execution) (stage : Stage) (status : StageStatus) :
    foreign identity.jobId (execution.recordStage identity stage status).trace =
      foreign identity.jobId execution.trace := by
  unfold Execution.recordStage
  split
  · rfl
  · exact foreign_append_own _ rfl

theorem foreign_ownSteps {first last : Execution} (h : OwnSteps identity first last) :
    foreign identity.jobId last.trace = foreign identity.jobId first.trace := by
  refine h.preserve (fun execution => foreign identity.jobId execution.trace) ?_
  intro before after hstep
  cases hstep with
  | observed => exact foreign_append_own _ rfl
  | ran => exact foreign_append_own _ rfl
  | recorded stage status => exact foreign_recordStage identity before stage status
  | kept => rfl

theorem foreign_applyProcessResult (execution : Execution)
    (result : Option (Except String ProcessExecution)) :
    foreign identity.jobId (applyProcessResult identity execution result).trace =
      foreign identity.jobId execution.trace := by
  cases result with
  | none => rfl
  | some result =>
    cases result with
    | error error => simp only [applyProcessResult, foreign_recordStage]
    | ok processed =>
      cases hexport : processed.exportError <;>
        simp only [applyProcessResult, hexport, foreign_recordStage]

theorem foreign_applySendResult (execution : Execution)
    (result : Option (Except String SendResult)) :
    foreign identity.jobId (applySendResult identity execution result).trace =
      foreign identity.jobId execution.trace := by
  cases result with
  | none => rfl
  | some result => cases result <;> simp only [applySendResult, foreign_recordStage]

variable (adapters : Adapters R X) (job : Job) (context : ExecutionContext R X)

/-- The trace of an execution holds of other jobs what its children leave. -/
theorem foreign_executeWith (runChild : Job → ExecutionContext R X → Execution) :
    foreign context.identity.jobId (executeWith runChild adapters job context).trace =
      foreign context.identity.jobId (childJobs adapters job context runChild).trace := by
  obtain ⟨before, choices, processed, sent, hparts⟩ :=
    exists_runParts adapters job context runChild
  have hbefore := foreign_ownSteps context.identity hparts.steps
  have hsent : ∀ entry ∈ sent.trace, foreignEntry context.identity.jobId entry = none :=
    fun entry hmem => if_pos (hparts.sending entry hmem)
  have hmerged : foreign context.identity.jobId
      (interleave choices processed.trace sent.trace) =
        foreign context.identity.jobId processed.trace :=
    filterMap_interleave_left choices hsent
  rw [hparts.run, foreign_applySendResult, foreign_applyProcessResult]
  simp only [Execution.append, foreign_append, hbefore, hmerged]
  have hprocessed := hparts.processing
  unfold Processed at hprocessed
  cases hprocessing : processing adapters job context with
  | none =>
    rw [hprocessing] at hprocessed
    rw [foreign_eq_nil hprocessed.1]
    simp only [childJobs, hprocessing]
    rfl
  | some one =>
    rw [hprocessing] at hprocessed
    rw [hprocessed.1, foreign_append,
      foreign_eq_nil (fun entry hmem => jobId_of_mem_processingBegun hmem)]
    rfl

/-- A child leaves nothing of other jobs. -/
theorem jobId_of_mem_trace (hdeep : context.childDepth ≠ 0) {entry : TraceEntry}
    (h : entry ∈ (execute adapters job context).trace) :
    entry.jobId = context.identity.jobId := by
  by_contra hne
  have hforeign := foreign_executeWith adapters job context (execute adapters)
  rw [← execute_eq, childJobs_of_deep adapters job context hdeep] at hforeign
  have hmem : entry ∈ foreign context.identity.jobId (execute adapters job context).trace :=
    List.mem_filterMap.mpr ⟨entry, h, if_neg hne⟩
  rw [hforeign] at hmem
  cases hmem

theorem jobId_of_mem_runChildJob (inheritance : Inheritance R) (path : String)
    (hdeep : context.childDepth ≠ 0) {entry : TraceEntry}
    (h : entry ∈ (runChildJob (execute adapters) inheritance path context).trace) :
    entry.jobId = context.identity.jobId := by
  unfold runChildJob at h
  split at h
  · cases h
  · split at h
    · cases h
    · exact jobId_of_mem_trace adapters _
        (context.bindNested _ inheritance.parentReceiver path none) hdeep h

/-- The trace of one child, with its schedule. -/
def childPart (inheritance : Inheritance R) (declared : DiagPath × ℕ) :
    List Bool × List TraceEntry :=
  let child := runChildJob (execute adapters) inheritance declared.1.diagPath
    (childContext context inheritance.platform declared.2)
  (adapters.childSchedule child.result.jobId, child.trace)

theorem jobId_of_mem_childPart (inheritance : Inheritance R) (declared : DiagPath × ℕ)
    {entry : TraceEntry} (h : entry ∈ (childPart adapters context inheritance declared).2) :
    entry.jobId = declared.2 := by
  have hdeep : (childContext context inheritance.platform declared.2).childDepth ≠ 0 :=
    Nat.succ_ne_zero _
  simp only [childPart] at h
  exact jobId_of_mem_runChildJob adapters _ inheritance declared.1.diagPath hdeep h

theorem runChildJobs_trace (hdepth : context.childDepth = 0) (inheritance : Inheritance R)
    (declarations : List DiagPath) :
    (runChildJobs (execute adapters) adapters context inheritance declarations).trace =
      interleaveAll ((declarations.zip (childIds context.identity.jobId adapters.jobIds
        declarations.length)).map (childPart adapters context inheritance)) := by
  simp only [runChildJobs, launchChildren_eq _ _ _ hdepth, List.map_map]
  rfl

/-- The entries of the children are theirs, so none is their parent's. -/
theorem jobId_of_mem_runChildJobs (hdepth : context.childDepth = 0) (inheritance : Inheritance R)
    (declarations : List DiagPath) {entry : TraceEntry}
    (h : entry ∈ (runChildJobs (execute adapters) adapters context inheritance
      declarations).trace) :
    entry.jobId ≠ context.identity.jobId := by
  rw [runChildJobs_trace adapters context hdepth] at h
  obtain ⟨part, hpart, hmem⟩ := mem_interleaveAll.mp h
  obtain ⟨declared, hdeclared, rfl⟩ := List.mem_map.mp hpart
  rw [jobId_of_mem_childPart adapters context inheritance declared hmem]
  exact ((childIds_spec _ _ _).2 _ (List.of_mem_zip hdeclared).2).2

end Foreign

section Outputs

variable (adapters : Adapters R X) (job : Job) (context : ExecutionContext R X)

theorem marks_runProcessResult (receiver : R) (process : Process) (identifiers : Identifiers)
    (derived : Option ProcessSelection) (stage : Stage) :
    marks context.identity.jobId stage (runProcessResult (execute adapters) adapters context
        receiver process identifiers derived).trace =
      if stage = .process ∨ stage = .export then [.started, .ran] else [] := by
  have hbegun : marks context.identity.jobId stage (processingBegun context.identity) =
      if stage = .process ∨ stage = .export then [.started, .ran] else [] := by
    cases stage <;>
      simp [marks, processingBegun, markOf, ExecutionEvent.new, ExecutionEvent.withMessage,
        lifecycleMark]
  unfold runProcessResult
  cases hstage : processStage adapters context receiver process identifiers derived with
  | error error => exact hbegun
  | ok processed =>
    simp only [marks_append, hbegun]
    have hchildren : marks context.identity.jobId stage (runChildJobs (execute adapters) adapters
        context (.ofProcessed receiver process identifiers processed)
        processed.includedDiagnostics).trace = [] := by
      by_cases hdepth : context.childDepth = 0
      · refine filterMap_eq_nil_of_forall fun entry hmem => markOf_eq_none stage ?_
        exact jobId_of_mem_runChildJobs adapters context hdepth _ _ hmem
      · rw [includedDiagnostics_of_deep hdepth hstage]
        rfl
    rw [hchildren, List.append_nil]

theorem marks_processFuture (receiver : R) (derived : Except String (Option ProcessSelection))
    (stage : Stage) :
    let all := marks context.identity.jobId stage
      (processFuture (execute adapters) adapters context receiver job derived).trace
    all = [] ∨ (all = [.started, .ran] ∧ job.process.isSome = true ∧
      (stage = .process ∨ stage = .export)) := by
  unfold processFuture
  cases job.process with
  | none => exact .inl rfl
  | some process =>
    cases derived with
    | error error => exact .inl rfl
    | ok derived =>
      simp only [marks_runProcessResult]
      by_cases h : stage = .process ∨ stage = .export
      · exact .inr ⟨if_pos h, rfl, h⟩
      · exact .inl (if_neg h)

theorem marks_sendFuture (bundlePath : Option PathBuf) (stage : Stage) :
    let all := marks context.identity.jobId stage
      (sendFuture adapters context bundlePath job).trace
    all = [] ∨ (all = [.started, .ran] ∧ job.send.isSome = true ∧ stage = .send) := by
  unfold sendFuture
  cases job.send with
  | none => exact .inl rfl
  | some send =>
    cases bundlePath with
    | none => exact .inl rfl
    | some path =>
      have hbegun : marks context.identity.jobId stage (sendingBegun context.identity) =
          if stage = .send then [.started, .ran] else [] := by
        cases stage <;>
          simp [marks, sendingBegun, markOf, ExecutionEvent.new, ExecutionEvent.withMessage,
            lifecycleMark]
      simp only [hbegun]
      by_cases h : stage = .send
      · exact .inr ⟨if_pos h, rfl, h⟩
      · exact .inl (if_neg h)

/-- Process and send mark different stages, so merging them mixes no marks. -/
theorem marks_interleave (choices : List Bool) (receiver : R) (bundlePath : Option PathBuf)
    (derived : Except String (Option ProcessSelection)) (stage : Stage) :
    let all := marks context.identity.jobId stage (interleave choices
      (processFuture (execute adapters) adapters context receiver job derived).trace
      (sendFuture adapters context bundlePath job).trace)
    all = [] ∨ (all = [.started, .ran] ∧ stage ∈ outputStages job) := by
  have hmerged := (interleave_interleaving choices
    (processFuture (execute adapters) adapters context receiver job derived).trace
    (sendFuture adapters context bundlePath job).trace).filterMap
      (markOf context.identity.jobId stage)
  have hprocess := marks_processFuture adapters job context receiver derived stage
  have hsend := marks_sendFuture adapters job context bundlePath stage
  unfold marks at hprocess hsend ⊢
  rcases hprocess with hnil | ⟨hbegun, hselected, hstage⟩
  · rw [hnil] at hmerged
    rcases hsend with hnone | ⟨hsent, hselected, rfl⟩
    · exact .inl (hmerged.eq_of_nil_left.trans hnone)
    · refine .inr ⟨hmerged.eq_of_nil_left.trans hsent, ?_⟩
      simp [outputStages, hselected]
  · have hnone : (sendFuture adapters context bundlePath job).trace.filterMap
        (markOf context.identity.jobId stage) = [] := by
      rcases hsend with hnone | ⟨_, _, rfl⟩
      · exact hnone
      · simp at hstage
    rw [hnone] at hmerged
    refine .inr ⟨hmerged.eq_of_nil_right.trans hbegun, ?_⟩
    rcases hstage with rfl | rfl <;> simp [outputStages, hselected]

end Outputs

section Runs

variable (adapters : Adapters R X) (job : Job) (context : ExecutionContext R X)

/-- The stages of a finished execution: an output stage completes, begun or not,
and any other stage is left as the input phase left it. -/
def RunViews (execution : Execution) : Prop :=
  ∀ stage, ∃ begun, (begun = [] ∨ begun = [.started, .ran]) ∧
    view context.identity.jobId stage execution =
      if stage ∈ outputStages job then
        ((phaseView adapters job context stage).push begun).complete
      else phaseView adapters job context stage

theorem runViews_of_blocked {execution : Execution}
    (h : ∀ stage, view context.identity.jobId stage execution =
      if stage ∈ outputStages job then (phaseView adapters job context stage).complete
      else phaseView adapters job context stage) :
    RunViews adapters job context execution := by
  intro stage
  refine ⟨[], .inl rfl, ?_⟩
  rw [h, StageView.push, List.append_nil]

theorem runViews_runIndependentOutputs (resolved : ResolvedInput R)
    (derived : Except String (Option ProcessSelection)) {execution : Execution}
    (hview : ∀ stage, view context.identity.jobId stage execution =
      phaseView adapters job context stage) :
    RunViews adapters job context (runIndependentOutputs (execute adapters) adapters context job
      resolved derived execution) := by
  intro stage
  have hmarks := marks_interleave adapters job context
    (adapters.outputSchedule context.identity.jobId) resolved.receiver resolved.bundlePath derived
    stage
  have hpush : (phaseView adapters job context stage).push [] =
      phaseView adapters job context stage := by
    rw [StageView.push, List.append_nil]
  refine ⟨_, hmarks.imp_right And.left, ?_⟩
  simp only [runIndependentOutputs, view_applySendResult, view_applyProcessResult, view_append,
    hview, isSome_processFuture, isSome_sendFuture]
  rcases hmarks with hnil | ⟨hbegun, hselected⟩
  · rw [hnil, hpush]
    unfold outputStages
    cases job.process.isSome <;> cases job.send.isSome <;> cases stage <;> simp
  · rw [hbegun, if_pos hselected]
    unfold outputStages at hselected
    revert hselected
    cases job.process.isSome <;> cases job.send.isSome <;> cases stage <;> simp

theorem runViews_executeStreaming (resolved : ResolvedInput R)
    (hcollect : job.input.isCollect = true) (hsave : job.save = none)
    (hresolve : resolveInput adapters context job = .ok resolved) :
    RunViews adapters job context (executeStreaming (execute adapters) adapters job context
      resolved (inputBegun job context)) := by
  obtain ⟨hsome, hsend⟩ := job.collect_without_save hcollect hsave
  obtain ⟨process, hprocess⟩ := Option.isSome_iff_exists.mp hsome
  have hinput : inputStage job = .collect := by
    rw [inputStage, if_pos hcollect]
  have houtputs : outputStages job = [.process, .export] := by
    simp [outputStages, hprocess, hsend]
  have hcollected : ∀ stage, view context.identity.jobId stage
      ((inputBegun job context).recordStage context.identity .collect .succeeded) =
        phaseView adapters job context stage := by
    intro stage
    simp only [view_recordStage, view_inputBegun, phaseView, hresolve, hsave, hinput]
    cases stage <;> rfl
  cases hderived : derivedSelection adapters job resolved with
  | error error =>
    refine runViews_of_blocked adapters job context fun stage => ?_
    simp only [executeStreaming, hprocess, hderived, view_recordStage, hcollected, houtputs]
    cases stage <;> rfl
  | ok derived =>
    intro stage
    refine ⟨if stage = .process ∨ stage = .export then [.started, .ran] else [], ?_, ?_⟩
    · split
      · exact .inr rfl
      · exact .inl rfl
    · simp only [executeStreaming, hprocess, hderived, runProcessStage, view_applyProcessResult,
        view_append, hcollected, marks_runProcessResult, houtputs]
      cases stage <;> simp [StageView.push]

theorem runViews_execute : RunViews adapters job context (execute adapters job context) := by
  rw [execute_eq]
  simp only [executeWith]
  cases hresolve : resolveInput adapters context job with
  | error error =>
    refine runViews_of_blocked adapters job context fun stage => ?_
    simp only [view_recordBlockedOutputs, view_recordStage, view_inputBegun, phaseView, hresolve]
    unfold outputStages inputStage
    cases job.input.isCollect <;> cases job.process.isSome <;> cases job.send.isSome <;>
      cases stage <;> rfl
  | ok resolved =>
    cases hmode : job.executionMode with
    | streaming =>
      obtain ⟨hcollect, hsave⟩ := job.streaming_spec hmode
      exact runViews_executeStreaming adapters job context resolved hcollect hsave hresolve
    | staged =>
      have hphase := phaseViews_stagedInput adapters job context resolved
        (job.staged_spec hmode) hresolve
      simp only [executeStaged]
      cases hstaged : stagedInput adapters context job resolved (inputBegun job context) with
      | error ended =>
        rw [hstaged] at hphase
        refine runViews_of_blocked adapters job context fun stage => ?_
        have hended := hphase stage
        simpa only [reached, Except.toOption, true_and] using hended
      | ok staged =>
        rw [hstaged] at hphase
        refine runViews_runIndependentOutputs adapters job context staged.2 _ fun stage => ?_
        have hreached := hphase stage
        simpa only [reached, Except.toOption, reduceCtorEq, false_and, if_false] using hreached

/-- Once the input of a saving job has resolved, there is an application to
collect and a directory in which an archive can be begun. -/
def SaveBegins : Prop :=
  ∀ save resolved, job.save = some save → resolveInput adapters context job = .ok resolved →
    ∃ outputDir, bundleDir (adapters.answers context.identity.jobId) save = .ok outputDir ∧
      resolved.application.isSome = true ∧
      (adapters.answers context.identity.jobId).archive outputDir = .ok ()

/-- The input phase leaves the output stages alone. -/
theorem phaseView_of_output {stage : Stage} (h : stage ∈ outputStages job) :
    phaseView adapters job context stage = ⟨[], false⟩ := by
  have hstage : stage ≠ .collect ∧ stage ≠ .load ∧ stage ≠ .save := by
    unfold outputStages at h
    revert h
    cases job.process.isSome <;> cases job.send.isSome <;> cases stage <;> simp
  have hinput : stage ≠ inputStage job := by
    unfold inputStage
    split
    · exact hstage.1
    · exact hstage.2.1
  unfold phaseView
  split
  · exact if_neg hinput
  · exact if_neg hinput
  · split
    · rw [if_neg hstage.1, if_neg hstage.2.2]
    · rw [if_neg hstage.1, if_neg hstage.2.2]
    · split <;> rw [if_neg hstage.1, if_neg hstage.2.2]

theorem phaseView_paired (h : SaveBegins adapters job context) (stage : Stage) :
    Paired (phaseView adapters job context stage).marks := by
  unfold phaseView
  split
  · split <;> decide
  · split <;> decide
  · rename_i resolved save hresolve hsave
    obtain ⟨outputDir, hdir, happlication, harchive⟩ := h save resolved hsave hresolve
    obtain ⟨application, happlication⟩ := Option.isSome_iff_exists.mp happlication
    simp only [hdir, happlication, harchive]
    split
    · decide
    · split <;> decide

/-- When the setup of a save fails, a stage that started stays open. -/
theorem exists_open_stage (h : ¬ SaveBegins adapters job context) :
    ∃ stage, stage ∉ outputStages job ∧
      ¬ Paired (phaseView adapters job context stage).marks := by
  have houtputs : Stage.collect ∉ outputStages job ∧ Stage.save ∉ outputStages job := by
    unfold outputStages
    cases job.process.isSome <;> cases job.send.isSome <;> decide
  obtain ⟨save, hsave⟩ : ∃ save, job.save = some save := by
    by_contra hnone
    exact h fun save resolved hsave _ => absurd ⟨save, hsave⟩ hnone
  obtain ⟨resolved, hresolve⟩ : ∃ resolved, resolveInput adapters context job = .ok resolved := by
    by_contra hnone
    exact h fun save resolved _ hresolve => absurd ⟨resolved, hresolve⟩ hnone
  cases hdir : bundleDir (adapters.answers context.identity.jobId) save with
  | error error =>
    refine ⟨.collect, houtputs.1, ?_⟩
    simp only [phaseView, hresolve, hsave, hdir]
    decide
  | ok outputDir =>
    cases happlication : resolved.application with
    | none =>
      refine ⟨.save, houtputs.2, ?_⟩
      simp only [phaseView, hresolve, hsave, hdir, happlication]
      decide
    | some application =>
      cases harchive : (adapters.answers context.identity.jobId).archive outputDir with
      | error error =>
        refine ⟨.collect, houtputs.1, ?_⟩
        simp only [phaseView, hresolve, hsave, hdir, happlication, harchive]
        decide
      | ok _ =>
        refine absurd ?_ h
        intro other input hother hinput
        rw [hsave, Option.some.injEq] at hother
        rw [hresolve, Except.ok.injEq] at hinput
        subst hother hinput
        exact ⟨outputDir, hdir, by rw [happlication]; rfl, harchive⟩

theorem own_paired_iff :
    (∀ stage, Paired (marks context.identity.jobId stage
      (execute adapters job context).trace)) ↔ SaveBegins adapters job context := by
  have hruns := runViews_execute adapters job context
  constructor
  · intro hpaired
    by_contra hfails
    obtain ⟨stage, houtput, hopen⟩ := exists_open_stage adapters job context hfails
    obtain ⟨begun, _, hview⟩ := hruns stage
    rw [if_neg houtput] at hview
    have hstage := hpaired stage
    rw [show marks context.identity.jobId stage (execute adapters job context).trace =
      (phaseView adapters job context stage).marks from congrArg StageView.marks hview] at hstage
    exact hopen hstage
  · intro hbegins stage
    obtain ⟨begun, hbegun, hview⟩ := hruns stage
    have hmarks := congrArg StageView.marks hview
    change marks context.identity.jobId stage (execute adapters job context).trace = _ at hmarks
    rw [hmarks]
    by_cases houtput : stage ∈ outputStages job
    · rw [if_pos houtput, phaseView_of_output adapters job context houtput]
      rcases hbegun with rfl | rfl <;> decide
    · rw [if_neg houtput]
      exact phaseView_paired adapters job context hbegins stage

/-- A child has no save, so its stages are paired. -/
theorem paired_runChildJob (inheritance : Inheritance R) (path : String) (stage : Stage) :
    Paired (marks context.identity.jobId stage
      (runChildJob (execute adapters) inheritance path context).trace) := by
  unfold runChildJob
  split
  · exact (by decide : Paired [])
  · split
    · exact (by decide : Paired [])
    · rename_i binding _ _ child hchild
      have hsave : child.save = none := by
        unfold Job.tryNew at hchild
        split at hchild
        · cases hchild
        · cases hchild
          rfl
      refine (own_paired_iff adapters child
        (context.bindNested binding inheritance.parentReceiver path none)).mpr ?_ stage
      intro save resolved hsome
      rw [hsave] at hsome
      cases hsome

/-- Among the children, the marks of a job are those of one child, or none. -/
theorem paired_runChildJobs (hdepth : context.childDepth = 0) (inheritance : Inheritance R)
    (declarations : List DiagPath) (jobId : ℕ) (stage : Stage) :
    Paired (marks jobId stage (runChildJobs (execute adapters) adapters context inheritance
      declarations).trace) := by
  rw [runChildJobs_trace adapters context hdepth]
  have hkeys : ((declarations.zip (childIds context.identity.jobId adapters.jobIds
      declarations.length)).map Prod.snd).Nodup := by
    rw [List.map_snd_zip (le_of_eq (length_childIds _ _ _))]
    exact nodup_childIds _ _ _
  have hsilent : ∀ declared ∈ declarations.zip (childIds context.identity.jobId adapters.jobIds
      declarations.length), declared.2 ≠ jobId →
      ∀ entry ∈ (childPart adapters context inheritance declared).2,
        markOf jobId stage entry = none := by
    intro declared _ hne entry hmem
    have hjobId := jobId_of_mem_childPart adapters context inheritance declared hmem
    exact markOf_eq_none stage (by omega)
  rcases filterMap_interleaveAll_of_key Prod.snd jobId
    (childPart adapters context inheritance) _ hkeys hsilent with hnone | ⟨declared, _, hid, hmarks⟩
  · rw [marks, hnone]
    decide
  · have hpaired := paired_runChildJob adapters
      (childContext context inheritance.platform declared.2) inheritance declared.1.diagPath stage
    simp only [childPart] at hmarks
    rw [marks, hmarks, ← hid]
    exact hpaired

/-- The marks of another job are those of one child, or none. -/
theorem paired_foreign {jobId : ℕ} (hne : jobId ≠ context.identity.jobId) (stage : Stage) :
    Paired (marks jobId stage (execute adapters job context).trace) := by
  have hforeign := foreign_executeWith adapters job context (execute adapters)
  rw [← execute_eq] at hforeign
  rw [← marks_foreign hne, hforeign, marks_foreign hne]
  by_cases hdepth : context.childDepth = 0
  · unfold childJobs
    cases hprocessing : processing adapters job context with
    | none => exact (by decide : Paired [])
    | some one => exact paired_runChildJobs adapters context hdepth _ _ jobId stage
  · rw [childJobs_of_deep adapters job context hdepth]
    exact (by decide : Paired [])

/-- Every stage of every job of a run is paired exactly when a saving job that
resolves its input can also begin its archive. -/
theorem stages_paired_iff :
    (∀ jobId stage, Paired (marks jobId stage (execute adapters job context).trace)) ↔
      SaveBegins adapters job context := by
  constructor
  · intro hpaired
    exact (own_paired_iff adapters job context).mp (hpaired context.identity.jobId)
  · intro hbegins jobId stage
    by_cases hown : jobId = context.identity.jobId
    · rw [hown]
      exact (own_paired_iff adapters job context).mpr hbegins stage
    · exact paired_foreign adapters job context hown stage

end Runs

/-- The collection starts, and no archive can be begun: it never completes. -/
theorem collect_stays_started :
    ¬ ∀ jobId stage, Paired (marks jobId stage
      (execute (sequentialAdapters
        { collectingAnswers with archive := fun _ => .error "permission denied" })
        savingJob commandLineContext).trace) := by
  intro hpaired
  have hcollect := hpaired 17 .collect
  revert hcollect
  decide

end Esdiag.LifecycleEvents
