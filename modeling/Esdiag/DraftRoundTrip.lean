import Esdiag.SavedJobs
import Esdiag.SelectionClosure

/-!
Opening a saved job in the editor and saving it again. A compiled draft has one
of three shapes: it processes, it forwards the raw bundle, or it only collects.
The projection of a job of each shape is again a draft of that shape, so that
the second compilation is compared with the first field by field: the bundle,
the output and the selection.
-/
namespace Esdiag.DraftRoundTrip

open DepthFirstClosure SourceRegistry ApiResolver ProcessSelections SelectionCoverage
  SelectionClosure Deployments JobModel SavedJobs

variable {env : Environment} {registry : Registry} {identifiers : Identifiers}

/-- The draft asks for processed documents. -/
def processes (draft : JobDraft) : Bool :=
  draft.process.enabled && draft.process.mode == .process

section Building

theorem build_eq_ok_iff (builder : JobBuilder) (job : Job) {save : Option SaveTarget}
    {process : Option Process} {send : Option SendTarget} :
    builder.build save process send = .ok job ↔
      job.identifiers = builder.identifiers ∧
        job.input = .collect builder.collect.host builder.collect.diagnosticType none none ∧
        job.save = save ∧ job.process = process ∧ job.send = send := by
  obtain ⟨identifiers, input, jobSave, jobProcess, jobSend, valid⟩ := job
  constructor
  · intro h
    unfold JobBuilder.build Job.tryNew at h
    split at h
    · simp [Except.mapError] at h
    · simp only [Except.mapError, Except.ok.injEq, Job.mk.injEq] at h
      obtain ⟨hidentifiers, hinput, hsave, hprocess, hsend⟩ := h
      exact ⟨hidentifiers.symm, hinput.symm, hsave.symm, hprocess.symm, hsend.symm⟩
  · rintro ⟨hidentifiers, hinput, hsave, hprocess, hsend⟩
    simp only at hidentifiers hinput hsave hprocess hsend
    subst hidentifiers hinput hsave hprocess hsend
    rw [JobBuilder.build, Job.tryNew_ok valid]
    rfl

/-- The save of a job: a retained directory, or a temporary one for a send. -/
def bundleSave (saveDir : Option PathBuf) (sends : Bool) : Option SaveTarget :=
  if sends then some ((saveDir.map SaveTarget.retained).getD .temporary)
  else saveDir.map SaveTarget.retained

theorem processSignals_eq_ok_iff (builder : JobBuilder) (signals : JobDraft) (job : Job)
    (hraw : ∀ uploadId, signals.send.rawRemoteTarget = some uploadId → notBlank uploadId = true) :
    builder.processSignals env registry signals = .ok job ↔
      ∃ output selection, env.fromSignalsSend signals = .ok output ∧
        explicitProcessSelection registry signals = .ok selection ∧
        builder.build
            (bundleSave builder.collect.saveDir signals.send.rawRemoteTarget.isSome)
            (some ⟨selection, output⟩) (signals.send.rawRemoteTarget.map SendTarget.mk) =
          .ok job := by
  unfold JobBuilder.processSignals
  cases houtput : env.fromSignalsSend signals with
  | error message => simp
  | ok output =>
    cases hselection : explicitProcessSelection registry signals with
    | error message => simp
    | ok selection =>
      cases hsend : signals.send.rawRemoteTarget with
      | none => simp [JobBuilder.processToWithSelection, bundleSave]
      | some uploadId =>
        have hblank : Texts.isBlank uploadId = false := by
          have h := hraw uploadId hsend
          simpa [notBlank] using h
        simp [JobBuilder.processAndSendTo, hblank, bundleSave, JobBuilder.bundleForSend]

theorem forwardSignals_eq_ok_iff (builder : JobBuilder) (signals : JobDraft) (job : Job)
    (hremote : signals.send.remoteTarget = none)
    (hraw : ∀ uploadId, signals.send.rawRemoteTarget = some uploadId → notBlank uploadId = true) :
    builder.forwardSignals signals = .ok job ↔
      ∃ uploadId, signals.send.rawRemoteTarget = some uploadId ∧
        builder.build (bundleSave builder.collect.saveDir true) none (some ⟨uploadId⟩) =
          .ok job := by
  unfold JobBuilder.forwardSignals
  rw [hremote, Option.or_none]
  cases hsend : signals.send.rawRemoteTarget with
  | none => simp
  | some uploadId =>
    have hblank : Texts.isBlank uploadId = false := by
      have h := hraw uploadId hsend
      simpa [notBlank] using h
    simp [JobBuilder.sendTo, hblank, bundleSave, JobBuilder.bundleForSend]

theorem not_empty_of_notBlank {text : String} (h : notBlank text = true) : text ≠ "" := by
  intro hempty
  rw [hempty] at h
  exact absurd h (by decide)

theorem collectSignals_eq_ok_iff (builder : JobBuilder) (signals : JobDraft) (job : Job)
    (hdir : builder.collect.saveDir = none) (hlocal : signals.send.localTarget = "") :
    builder.collectSignals signals = .ok job ↔
      ∃ dir, intermediateDownloadDir signals = some dir ∧
        builder.build (some (.retained (.ofString dir))) none none = .ok job := by
  unfold JobBuilder.collectSignals intermediateDownloadDir
  rw [hlocal]
  by_cases h : (signals.collect.save && notBlank signals.collect.downloadDir) = true
  · have hempty : signals.collect.downloadDir ≠ "" :=
      not_empty_of_notBlank (Bool.and_eq_true_iff.mp h).2
    simp [h, JobBuilder.collectTo, hempty, hdir]
  · simp [h]

end Building

section Normalizing

variable (draft : JobDraft)

def adoptsRemoteTarget : Bool :=
  !draft.process.enabled && draft.process.mode == .forward && draft.send.mode == .toRemote &&
    (draft.send.rawRemoteTarget.filter notBlank).isNone

/-- The raw target that a draft names, before its availability is asked. -/
def wantedRawTarget : Option String :=
  if adoptsRemoteTarget draft then draft.send.remoteTarget.filter notBlank
  else draft.send.rawRemoteTarget.filter notBlank

def savesBundle : Bool :=
  draft.collect.save || (draft.send.rawLocal && draft.collect.mode == .collect)

def offersBundle : Bool := draft.collect.mode == .upload || savesBundle draft

theorem adoptForwardTarget_eq :
    draft.dropBlankRawTarget.adoptForwardTarget =
      { draft with send.rawRemoteTarget := wantedRawTarget draft } := by
  unfold wantedRawTarget
  show (if adoptsRemoteTarget draft then _ else _) = _
  cases adoptsRemoteTarget draft <;> rfl

theorem saveRawLocal_eq : draft.saveRawLocal = { draft with collect.save := savesBundle draft } := by
  unfold JobDraft.saveRawLocal savesBundle
  by_cases h : (draft.send.rawLocal && draft.collect.mode == .collect) = true
  · rw [if_pos h, h, Bool.or_true]
  · rw [if_neg h, Bool.eq_false_iff.mpr h, Bool.or_false]

theorem clearDocumentTargets_eq :
    draft.clearDocumentTargets =
      { draft with
        send.remoteTarget := if processes draft then draft.send.remoteTarget else none
        send.localTarget := if processes draft then draft.send.localTarget else ""
        send.localDirectory := if processes draft then draft.send.localDirectory else "" } := by
  unfold JobDraft.clearDocumentTargets
  show (if !processes draft then _ else _) = _
  cases processes draft <;> rfl

theorem clearRawTargets_eq :
    draft.clearRawTargets =
      { draft with
        send.rawRemoteTarget :=
          if draft.targetAvailability.rawBundle then draft.send.rawRemoteTarget else none
        send.rawLocal := draft.targetAvailability.rawBundle && draft.send.rawLocal } := by
  unfold JobDraft.clearRawTargets
  cases draft.targetAvailability.rawBundle <;> rfl

/-- A normalized draft, field by field. -/
theorem normalizeTargets_eq :
    draft.normalizeTargets =
      { collect := { draft.collect with save := savesBundle draft }
        process := draft.process
        send :=
          { mode := draft.send.mode
            remoteTarget := if processes draft then draft.send.remoteTarget else none
            localTarget := if processes draft then draft.send.localTarget else ""
            localDirectory := if processes draft then draft.send.localDirectory else ""
            rawRemoteTarget := if offersBundle draft then wantedRawTarget draft else none
            rawLocal := offersBundle draft && draft.send.rawLocal } } := by
  rw [JobDraft.normalizeTargets, adoptForwardTarget_eq, saveRawLocal_eq, clearDocumentTargets_eq,
    clearRawTargets_eq]
  rfl

theorem notBlank_of_normalized {uploadId : String}
    (h : draft.normalizeTargets.send.rawRemoteTarget = some uploadId) :
    notBlank uploadId = true := by
  rw [normalizeTargets_eq] at h
  have hwanted : wantedRawTarget draft = some uploadId := by
    by_cases hoffers : offersBundle draft = true
    · rwa [if_pos hoffers] at h
    · rw [if_neg hoffers] at h
      exact absurd h (Option.some_ne_none uploadId).symm
  unfold wantedRawTarget at hwanted
  split at hwanted
  · exact (Option.filter_eq_some_iff.mp hwanted).2
  · exact (Option.filter_eq_some_iff.mp hwanted).2

end Normalizing

section Compiling

variable {builder : JobBuilder} {draft : JobDraft} {job : Job}

/-- The stages of a draft whose collection is known. -/
def compileStages (env : Environment) (registry : Registry) (builder : JobBuilder)
    (signals : JobDraft) : Except String Job :=
  if signals.process.enabled && signals.process.mode == .process then
    (builder.saveCollectedBundleTo (intermediateDownloadDir signals)).processSignals env
      registry signals
  else if signals.process.mode == .forward && signals.send.mode == .toRemote then
    (builder.saveCollectedBundleTo (intermediateDownloadDir signals)).forwardSignals signals
  else builder.collectSignals signals

theorem compileSignals_eq_ok_iff :
    compileSignals env registry identifiers draft = .ok job ↔
      draft.collect.mode = .collect ∧ draft.collect.source = .knownHost ∧
        ∃ host, env.parseHostReference draft.collect.knownHost = .ok (some host) ∧
          compileStages env registry
            ⟨identifiers, host, draft.collect.diagnosticType, none⟩ draft = .ok job := by
  unfold compileSignals collectFrom
  by_cases hmode : draft.collect.mode = .collect
  · by_cases hsource : draft.collect.source = .knownHost
    · rw [if_neg (not_not.mpr hmode), if_neg (not_not.mpr hsource)]
      cases hhost : env.parseHostReference draft.collect.knownHost with
      | error message => simp [hmode, hsource]
      | ok name =>
        cases name with
        | none => simp [hmode, hsource]
        | some host =>
          simp only [hmode, hsource, true_and, Except.ok.injEq, Option.some.injEq, exists_eq_left']
          exact Iff.rfl
    · simp [hmode, hsource]
  · simp [hmode]

theorem saveDir_saveCollectedBundleTo (hdir : builder.collect.saveDir = none)
    (dir : Option String) :
    (builder.saveCollectedBundleTo dir).collect.saveDir = dir.map PathBuf.ofString := by
  cases dir with
  | none => exact hdir
  | some dir => rfl

theorem build_saveCollectedBundleTo (dir : Option String) (save : Option SaveTarget)
    (process : Option Process) (send : Option SendTarget) :
    (builder.saveCollectedBundleTo dir).build save process send =
      builder.build save process send := by
  cases dir <;> rfl

/-- A draft that processes compiles to the bundle, the output and the selection
that it names. -/
theorem compileStages_of_processes (hdir : builder.collect.saveDir = none)
    (h : processes draft = true) :
    compileStages env registry builder draft.normalizeTargets = .ok job ↔
      ∃ output selection, env.fromSignalsSend draft.normalizeTargets = .ok output ∧
        explicitProcessSelection registry draft.normalizeTargets = .ok selection ∧
        builder.build
            (bundleSave ((intermediateDownloadDir draft.normalizeTargets).map .ofString)
              draft.normalizeTargets.send.rawRemoteTarget.isSome)
            (some ⟨selection, output⟩)
            (draft.normalizeTargets.send.rawRemoteTarget.map SendTarget.mk) = .ok job := by
  have hprocess : draft.normalizeTargets.process = draft.process := by
    rw [normalizeTargets_eq]
  unfold compileStages
  rw [hprocess]
  unfold processes at h
  rw [if_pos h, processSignals_eq_ok_iff _ _ _ fun _ => notBlank_of_normalized draft,
    saveDir_saveCollectedBundleTo hdir]
  simp only [build_saveCollectedBundleTo]

theorem compileStages_of_forward (hdir : builder.collect.saveDir = none)
    (h : processes draft = false) (hmode : draft.process.mode = .forward)
    (hsend : draft.send.mode = .toRemote) :
    compileStages env registry builder draft.normalizeTargets = .ok job ↔
      ∃ uploadId, draft.normalizeTargets.send.rawRemoteTarget = some uploadId ∧
        builder.build
            (bundleSave ((intermediateDownloadDir draft.normalizeTargets).map .ofString) true)
            none (some ⟨uploadId⟩) = .ok job := by
  have hprocess : draft.normalizeTargets.process = draft.process := by
    rw [normalizeTargets_eq]
  have hmodes : draft.normalizeTargets.send.mode = .toRemote := by
    rw [normalizeTargets_eq, hsend]
  have hremote : draft.normalizeTargets.send.remoteTarget = none := by
    rw [normalizeTargets_eq, h]
    rfl
  have hforwards : (ProcessMode.forward == .forward && SendMode.toRemote == .toRemote) = true := rfl
  unfold compileStages
  rw [hprocess, hmodes, hmode]
  unfold processes at h
  rw [hmode] at h
  rw [if_neg (Bool.eq_false_iff.mp h), if_pos hforwards,
    forwardSignals_eq_ok_iff _ _ _ hremote fun _ => notBlank_of_normalized draft,
    saveDir_saveCollectedBundleTo hdir]
  simp only [build_saveCollectedBundleTo]

theorem compileStages_of_collect (hdir : builder.collect.saveDir = none)
    (h : processes draft = false)
    (hmode : (draft.process.mode == .forward && draft.send.mode == .toRemote) = false) :
    compileStages env registry builder draft.normalizeTargets = .ok job ↔
      ∃ dir, intermediateDownloadDir draft.normalizeTargets = some dir ∧
        builder.build (some (.retained (.ofString dir))) none none = .ok job := by
  have hprocess : draft.normalizeTargets.process = draft.process := by
    rw [normalizeTargets_eq]
  have hmodes : draft.normalizeTargets.send.mode = draft.send.mode := by
    rw [normalizeTargets_eq]
  have hlocal : draft.normalizeTargets.send.localTarget = "" := by
    rw [normalizeTargets_eq, h]
    rfl
  unfold compileStages
  rw [hprocess, hmodes]
  unfold processes at h
  rw [if_neg (Bool.eq_false_iff.mp h), if_neg (Bool.eq_false_iff.mp hmode),
    collectSignals_eq_ok_iff _ _ _ hdir hlocal]

end Compiling

section Projecting

variable {job : Job} {host diagnosticType : String}

/-- The directory of a save, as the form shows it. -/
def shownDir (save : Option SaveTarget) : String :=
  ((save.bind SaveTarget.dir).map PathBuf.shown).getD ""

def retains (save : Option SaveTarget) : Bool := save.any SaveTarget.isRetained

theorem collect_toSignals (hinput : job.input = .collect host diagnosticType none none) :
    (toSignals job).collect =
      ⟨.collect, .knownHost, host, diagnosticType, retains job.save, shownDir job.save⟩ := by
  unfold toSignals
  rw [hinput]
  rcases job.save with _ | save <;> rcases job.process with _ | ⟨selection, output⟩ <;>
    rcases job.send with _ | send <;> try rfl
  all_goals
    rcases selection with _ | selection <;> cases output <;> rfl

theorem processes_toSignals : processes (toSignals job) = job.process.isSome := by
  unfold toSignals
  rcases job.process with _ | ⟨selection, output⟩
  · rcases job.send with _ | send <;> rfl
  · rcases job.send with _ | send <;> rcases selection with _ | selection <;>
      cases output <;> rfl

theorem rawTargets_toSignals (hinput : job.input = .collect host diagnosticType none none) :
    (toSignals job).send.rawRemoteTarget = job.send.map SendTarget.uploadId ∧
      (toSignals job).send.rawLocal = false := by
  unfold toSignals
  rw [hinput]
  rcases job.save with _ | save <;> rcases job.process with _ | ⟨selection, output⟩ <;>
    rcases job.send with _ | send <;> try exact ⟨rfl, rfl⟩
  all_goals
    rcases selection with _ | selection <;> cases output <;> exact ⟨rfl, rfl⟩

/-- The remote target of the form is shown again as the raw target already. -/
theorem adoptsRemoteTarget_toSignals
    (hinput : job.input = .collect host diagnosticType none none)
    (hsend : ∀ send ∈ job.send, notBlank send.uploadId = true) :
    adoptsRemoteTarget (toSignals job) = false := by
  cases h : job.send with
  | some send =>
    have hraw : (toSignals job).send.rawRemoteTarget = some send.uploadId := by
      rw [(rawTargets_toSignals hinput).1, h]
      rfl
    have hblank := hsend send h
    rw [adoptsRemoteTarget, hraw, Option.filter_some, if_pos hblank]
    exact Bool.and_false _
  | none =>
    unfold toSignals
    rw [hinput, h]
    rcases job.save with _ | save <;> rcases job.process with _ | ⟨selection, output⟩ <;>
      try rfl
    all_goals
      rcases selection with _ | selection <;> cases output <;> rfl

theorem savesBundle_toSignals (hinput : job.input = .collect host diagnosticType none none) :
    savesBundle (toSignals job) = retains job.save := by
  rw [savesBundle, collect_toSignals hinput, (rawTargets_toSignals hinput).2, Bool.false_and,
    Bool.or_false]

/-- The raw target survives exactly where the bundle is retained. -/
theorem rawRemoteTarget_toSignals (hinput : job.input = .collect host diagnosticType none none)
    (hsend : ∀ send ∈ job.send, notBlank send.uploadId = true) :
    (toSignals job).normalizeTargets.send.rawRemoteTarget =
      if retains job.save then job.send.map SendTarget.uploadId else none := by
  have hwanted : wantedRawTarget (toSignals job) = job.send.map SendTarget.uploadId := by
    rw [wantedRawTarget, adoptsRemoteTarget_toSignals hinput hsend,
      (rawTargets_toSignals hinput).1]
    cases h : job.send with
    | none => rfl
    | some send =>
      have hblank := hsend send h
      simp [Option.filter, hblank]
  have hoffers : offersBundle (toSignals job) = retains job.save := by
    rw [offersBundle, savesBundle_toSignals hinput, collect_toSignals hinput]
    rfl
  rw [normalizeTargets_eq, hwanted, hoffers]

theorem intermediateDownloadDir_toSignals
    (hinput : job.input = .collect host diagnosticType none none) :
    intermediateDownloadDir (toSignals job).normalizeTargets =
      if retains job.save && notBlank (shownDir job.save) then some (shownDir job.save)
      else none := by
  rw [intermediateDownloadDir, normalizeTargets_eq, savesBundle_toSignals hinput,
    collect_toSignals hinput]

section Processing

variable {selection : Option ProcessSelection} {output : ExportTarget}

/-- The draft in which the output of a job is shown. -/
def outputDraft (output : ExportTarget) : JobDraft := applyToSignals defaultDraft output

/-- The draft in which the selection of a job is shown. -/
def selectionDraft (selection : Option ProcessSelection) : JobDraft :=
  ToSignals.withSelection defaultDraft selection

/-- The form fields of the send stage for a job that processes. -/
theorem send_toSignals (hinput : job.input = .collect host diagnosticType none none)
    (hprocess : job.process = some ⟨selection, output⟩) :
    (toSignals job).send =
      { (outputDraft output).send with
        rawRemoteTarget := job.send.map SendTarget.uploadId } := by
  unfold toSignals
  rw [hinput, hprocess]
  rcases job.save with _ | save <;> rcases job.send with _ | send <;>
    rcases selection with _ | selection <;> cases output <;> rfl

theorem process_toSignals (hinput : job.input = .collect host diagnosticType none none)
    (hprocess : job.process = some ⟨selection, output⟩) :
    (toSignals job).process = (selectionDraft selection).process := by
  unfold toSignals
  rw [hinput, hprocess]
  rcases job.save with _ | save <;> rcases job.send with _ | send <;>
    rcases selection with _ | selection <;> cases output <;> rfl

theorem fromSignalsSend_congr {first second : JobDraft}
    (hmode : first.send.mode = second.send.mode)
    (hremote : first.send.remoteTarget = second.send.remoteTarget)
    (hlocal : first.send.localTarget = second.send.localTarget)
    (hdirectory : first.send.localDirectory = second.send.localDirectory) :
    env.fromSignalsSend first = env.fromSignalsSend second := by
  unfold Environment.fromSignalsSend
  rw [hmode, hremote, hlocal, hdirectory]

theorem explicitProcessSelection_congr {first second : JobDraft}
    (h : first.process = second.process) :
    explicitProcessSelection registry first = explicitProcessSelection registry second := by
  unfold explicitProcessSelection
  rw [h]

theorem fromSignalsSend_toSignals (hinput : job.input = .collect host diagnosticType none none)
    (hprocess : job.process = some ⟨selection, output⟩) :
    env.fromSignalsSend (toSignals job).normalizeTargets =
      env.fromSignalsSend (outputDraft output) := by
  have hprocesses : processes (toSignals job) = true := by
    rw [processes_toSignals, hprocess]
    rfl
  refine fromSignalsSend_congr ?_ ?_ ?_ ?_ <;>
    rw [normalizeTargets_eq, hprocesses, send_toSignals hinput hprocess]
  all_goals rfl

theorem explicitProcessSelection_toSignals
    (hinput : job.input = .collect host diagnosticType none none)
    (hprocess : job.process = some ⟨selection, output⟩) :
    explicitProcessSelection registry (toSignals job).normalizeTargets =
      explicitProcessSelection registry (selectionDraft selection) := by
  refine explicitProcessSelection_congr ?_
  rw [normalizeTargets_eq]
  exact process_toSignals hinput hprocess

end Processing

/-- The form fields of a job that does not process. -/
theorem stages_toSignals (hinput : job.input = .collect host diagnosticType none none)
    (hprocess : job.process = none) :
    (toSignals job).process.mode = .forward ∧
      (toSignals job).send.mode = if job.send.isSome then .toRemote else .toLocal := by
  unfold toSignals
  rw [hinput, hprocess]
  rcases job.save with _ | save <;> rcases job.send with _ | send <;> exact ⟨rfl, rfl⟩

/-- Compiling the projection of a job starts from the same collection. -/
theorem fromSignals_toSignals (hinput : job.input = .collect host diagnosticType none none)
    (hhost : env.parseHostReference host = .ok (some host)) :
    fromSignals env registry (toSignals job) identifiers = .ok job ↔
      compileStages env registry ⟨identifiers, host, diagnosticType, none⟩
        (toSignals job).normalizeTargets = .ok job := by
  have hcollect : (toSignals job).normalizeTargets.collect =
      ⟨.collect, .knownHost, host, diagnosticType, retains job.save, shownDir job.save⟩ := by
    rw [normalizeTargets_eq, savesBundle_toSignals hinput, collect_toSignals hinput]
  rw [fromSignals, compileSignals_eq_ok_iff, hcollect]
  simp [hhost]

end Projecting

section RoundTrips

variable {builder : JobBuilder} {job : Job} {host diagnosticType : String} {dir : Option String}

theorem retains_bundleSave (sends : Bool) :
    retains (bundleSave (dir.map .ofString) sends) = dir.isSome := by
  cases dir <;> cases sends <;> rfl

theorem shownDir_bundleSave (sends : Bool) :
    shownDir (bundleSave (dir.map .ofString) sends) = dir.getD "" := by
  cases dir <;> cases sends <;> rfl

/-- The directory of a job comes back from the form. -/
theorem intermediateDownloadDir_of_save {sends : Bool}
    (hinput : job.input = .collect host diagnosticType none none)
    (hsave : job.save = bundleSave (dir.map .ofString) sends)
    (hdir : ∀ text ∈ dir, notBlank text = true) :
    intermediateDownloadDir (toSignals job).normalizeTargets = dir := by
  rw [intermediateDownloadDir_toSignals hinput, hsave, retains_bundleSave, shownDir_bundleSave]
  cases h : dir with
  | none => rfl
  | some text =>
    have hblank := hdir text h
    simp [hblank]

theorem processing_round_trip {selection : Option ProcessSelection} {output : ExportTarget}
    {raw : Option String} (hhost : env.parseHostReference host = .ok (some host))
    (hdir : ∀ text ∈ dir, notBlank text = true) (hraw : ∀ text ∈ raw, notBlank text = true)
    (hbuild : JobBuilder.build ⟨identifiers, host, diagnosticType, none⟩
      (bundleSave (dir.map .ofString) raw.isSome) (some ⟨selection, output⟩)
      (raw.map SendTarget.mk) = .ok job) :
    fromSignals env registry (toSignals job) identifiers = .ok job ↔
      (raw.isSome = true → dir.isSome = true) ∧
        env.fromSignalsSend (outputDraft output) = .ok output ∧
        explicitProcessSelection registry (selectionDraft selection) = .ok selection := by
  obtain ⟨hidentifiers, hinput, hsave, hprocess, hsend⟩ := (build_eq_ok_iff _ job).mp hbuild
  have hids : ∀ send ∈ job.send, notBlank send.uploadId = true := by
    intro send hmem
    rw [hsend, Option.mem_map] at hmem
    obtain ⟨uploadId, huploadId, rfl⟩ := hmem
    exact hraw uploadId huploadId
  have hprocesses : processes (toSignals job) = true := by
    rw [processes_toSignals, hprocess]
    rfl
  have hmap : job.send.map SendTarget.uploadId = raw := by
    rw [hsend, Option.map_map]
    cases raw <;> rfl
  rw [fromSignals_toSignals hinput hhost, compileStages_of_processes rfl hprocesses,
    fromSignalsSend_toSignals hinput hprocess, explicitProcessSelection_toSignals hinput hprocess,
    intermediateDownloadDir_of_save hinput hsave hdir, rawRemoteTarget_toSignals hinput hids,
    hsave, retains_bundleSave, hmap]
  constructor
  · rintro ⟨again, chosen, houtput, hselection, hagain⟩
    obtain ⟨-, -, hsaved, hprocessed, hsent⟩ := (build_eq_ok_iff _ job).mp hagain
    rw [hprocess, Option.some.injEq, Process.mk.injEq] at hprocessed
    refine ⟨fun hsome => ?_, hprocessed.2 ▸ houtput, hprocessed.1 ▸ hselection⟩
    by_contra hnone
    rw [if_neg hnone, hsend] at hsent
    obtain ⟨uploadId, rfl⟩ := Option.isSome_iff_exists.mp hsome
    exact absurd hsent (by simp)
  · rintro ⟨hbundle, houtput, hselection⟩
    have hkept : (if dir.isSome = true then raw else none) = raw := by
      cases hraws : raw with
      | none => exact ite_self _
      | some uploadId =>
        rw [hraws] at hbundle
        exact if_pos (hbundle rfl)
    refine ⟨output, selection, houtput, hselection, ?_⟩
    rw [hkept]
    exact hbuild

theorem forward_round_trip {uploadId : String}
    (hhost : env.parseHostReference host = .ok (some host))
    (hdir : ∀ text ∈ dir, notBlank text = true) (hraw : notBlank uploadId = true)
    (hbuild : JobBuilder.build ⟨identifiers, host, diagnosticType, none⟩
      (bundleSave (dir.map .ofString) true) none (some ⟨uploadId⟩) = .ok job) :
    fromSignals env registry (toSignals job) identifiers = .ok job ↔ dir.isSome = true := by
  obtain ⟨hidentifiers, hinput, hsave, hprocess, hsend⟩ := (build_eq_ok_iff _ job).mp hbuild
  have hids : ∀ send ∈ job.send, notBlank send.uploadId = true := by
    intro send hmem
    rw [hsend, Option.mem_some_iff] at hmem
    exact hmem ▸ hraw
  have hprocesses : processes (toSignals job) = false := by
    rw [processes_toSignals, hprocess]
    rfl
  obtain ⟨hmode, hsendMode⟩ := stages_toSignals hinput hprocess
  rw [hsend] at hsendMode
  rw [fromSignals_toSignals hinput hhost, compileStages_of_forward rfl hprocesses hmode hsendMode,
    intermediateDownloadDir_of_save hinput hsave hdir, rawRemoteTarget_toSignals hinput hids,
    hsave, retains_bundleSave, hsend]
  constructor
  · rintro ⟨again, hagain, -⟩
    by_contra hnone
    rw [if_neg hnone] at hagain
    exact absurd hagain (by simp)
  · intro hsome
    refine ⟨uploadId, ?_, hbuild⟩
    rw [if_pos hsome]
    rfl

theorem collect_round_trip {text : String} (hhost : env.parseHostReference host = .ok (some host))
    (htext : notBlank text = true)
    (hbuild : JobBuilder.build ⟨identifiers, host, diagnosticType, none⟩
      (some (.retained (.ofString text))) none none = .ok job) :
    fromSignals env registry (toSignals job) identifiers = .ok job := by
  obtain ⟨hidentifiers, hinput, hsave, hprocess, hsend⟩ := (build_eq_ok_iff _ job).mp hbuild
  have hprocesses : processes (toSignals job) = false := by
    rw [processes_toSignals, hprocess]
    rfl
  obtain ⟨hmode, hsendMode⟩ := stages_toSignals hinput hprocess
  have hmodes : ((toSignals job).process.mode == .forward &&
      (toSignals job).send.mode == .toRemote) = false := by
    rw [hmode, hsendMode, hsend]
    rfl
  have hbundle : job.save = bundleSave ((some text).map .ofString) false := hsave
  have hdir : ∀ one ∈ some text, notBlank one = true := by
    intro one hone
    rw [Option.mem_some_iff] at hone
    exact hone ▸ htext
  rw [fromSignals_toSignals hinput hhost, compileStages_of_collect rfl hprocesses hmodes,
    intermediateDownloadDir_of_save hinput hbundle hdir]
  exact ⟨text, rfl, hbuild⟩

end RoundTrips

section Outputs

variable {draft : JobDraft} {output : ExportTarget}

/-- A location whose displayed text, read as a local target, names it again. -/
def UriReadsBack (env : Environment) : Uri → Prop
  | .directory path => path.rawBytes = none ∧ Texts.trim path.shown = path.shown ∧ path.shown ≠ ""
  | .file path =>
    path.shown ≠ "directory" ∧ Texts.trim path.shown ≠ "" ∧
      env.fromCliTarget (Texts.trim path.shown) = .ok (.file path)
  | .stream => env.parseHostReference "-" = .ok none
  | _ => True

/-- What the local target of a draft names, unless it is a host, reads back. -/
def OutputReadsBack (env : Environment) (draft : JobDraft) : Prop :=
  draft.send.mode = .toLocal → draft.send.localTarget ≠ "directory" →
    env.parseHostReference (Texts.trim draft.send.localTarget) = .ok none →
      ∀ uri, env.uriTryFrom (Texts.trim draft.send.localTarget) = .ok uri → UriReadsBack env uri

theorem parseHostReference_ok {value name : String}
    (h : env.parseHostReference value = .ok (some name)) :
    name = Texts.trim value ∧ env.parseHostReference name = .ok (some name) := by
  unfold Environment.parseHostReference at h
  cases hknown : env.isHostReference (Texts.trim value) with
  | error message => simp [hknown, Except.map] at h
  | ok known =>
    cases known with
    | false => simp [hknown, Except.map] at h
    | true =>
      simp only [hknown, Except.map, if_true, Except.ok.injEq, Option.some.injEq] at h
      subst h
      refine ⟨rfl, ?_⟩
      simp only [Environment.parseHostReference, Texts.trim_trim, hknown, Except.map, if_true]

theorem rereads_knownHost {name : String} (hname : Texts.trim name = name) (hempty : name ≠ "")
    (h : env.parseHostReference name = .ok (some name)) :
    env.fromSignalsSend (outputDraft (.knownHost name)) = .ok (.knownHost name) := by
  simp only [Environment.fromSignalsSend, outputDraft, applyToSignals, Option.getD_some, hname,
    if_neg hempty, h]

theorem rereads_directory (path : PathBuf) :
    env.fromSignalsSend (outputDraft (.directory path)) = .ok (.directory path) ↔
      path.rawBytes = none ∧ Texts.trim path.shown = path.shown ∧ path.shown ≠ "" := by
  obtain ⟨shown, rawBytes⟩ := path
  have hread : env.fromSignalsSend (outputDraft (.directory ⟨shown, rawBytes⟩)) =
      if Texts.trim shown = "" then .error "Process jobs require a local output directory"
      else .ok (.directory (.ofString (Texts.trim shown))) := by
    simp only [Environment.fromSignalsSend, outputDraft, applyToSignals, if_true]
    rfl
  rw [hread]
  by_cases hempty : Texts.trim shown = ""
  · rw [if_pos hempty]
    constructor
    · intro h
      exact absurd h (by simp)
    · rintro ⟨-, htrim, hne⟩
      exact absurd (htrim.symm.trans hempty) hne
  · rw [if_neg hempty]
    simp only [PathBuf.ofString, Except.ok.injEq, ExportTarget.directory.injEq, PathBuf.mk.injEq]
    constructor
    · rintro ⟨htrim, hraw⟩
      exact ⟨hraw.symm, htrim, htrim ▸ hempty⟩
    · rintro ⟨hraw, htrim, -⟩
      exact ⟨htrim, hraw.symm⟩

theorem rereads_file (path : PathBuf) :
    env.fromSignalsSend (outputDraft (.file path)) = .ok (.file path) ↔
      path.shown ≠ "directory" ∧ Texts.trim path.shown ≠ "" ∧
        env.fromCliTarget (Texts.trim path.shown) = .ok (.file path) := by
  simp only [Environment.fromSignalsSend, outputDraft, applyToSignals]
  by_cases hdirectory : path.shown = "directory"
  · have hempty : Texts.trim defaultDraft.send.localDirectory = "" := by decide
    simp [hdirectory, hempty]
  · by_cases hempty : Texts.trim path.shown = ""
    · simp [hdirectory, hempty]
    · simp [hdirectory, hempty]

theorem trim_hyphen : Texts.trim "-" = "-" := by decide

theorem rereads_stdout :
    env.fromSignalsSend (outputDraft .stdout) = .ok .stdout ↔
      env.parseHostReference "-" = .ok none := by
  have hstream : env.uriTryFrom "-" = .ok .stream := rfl
  have hne : ¬ ("-" : String) = "directory" := by decide
  have hempty : ¬ ("-" : String) = "" := by decide
  simp only [Environment.fromSignalsSend, outputDraft, applyToSignals, if_neg hne, trim_hyphen,
    if_neg hempty, Environment.fromCliTarget]
  cases h : env.parseHostReference "-" with
  | error message => simp
  | ok name =>
    cases name with
    | none => simp [hstream]
    | some name => simp

/-- A local target that is no host: its location decides. -/
theorem rereads_location {target : String} (hhost : env.parseHostReference target = .ok none)
    (h : env.fromCliTarget target = .ok output) :
    env.fromSignalsSend (outputDraft output) = .ok output ↔
      ∀ uri, env.uriTryFrom target = .ok uri → UriReadsBack env uri := by
  unfold Environment.fromCliTarget at h
  rw [hhost] at h
  cases huri : env.uriTryFrom target with
  | error message => simp [huri] at h
  | ok uri =>
    have hall : (∀ other, Except.ok uri = (.ok other : Except String Uri) → UriReadsBack env other) ↔
        UriReadsBack env uri := by
      constructor
      · intro hother
        exact hother uri rfl
      · rintro hread other hother
        rw [Except.ok.injEq] at hother
        exact hother ▸ hread
    rw [hall]
    cases uri with
    | directory path =>
      simp only [huri, Except.ok.injEq] at h
      rw [← h, rereads_directory]
      exact Iff.rfl
    | file path =>
      simp only [huri, Except.ok.injEq] at h
      rw [← h, rereads_file]
      exact Iff.rfl
    | stream =>
      simp only [huri, Except.ok.injEq] at h
      rw [← h, rereads_stdout]
      exact Iff.rfl
    | _ => simp [huri] at h

/-- The output that a draft names is read back from the form exactly when the
location behind it is. -/
theorem rereads_iff (h : env.fromSignalsSend draft = .ok output) :
    env.fromSignalsSend (outputDraft output) = .ok output ↔ OutputReadsBack env draft := by
  unfold Environment.fromSignalsSend at h
  cases hmode : draft.send.mode with
  | toRemote =>
    simp only [hmode] at h
    have hvacuous : OutputReadsBack env draft := by
      intro hlocal
      rw [hmode] at hlocal
      exact absurd hlocal (by decide)
    by_cases hempty : Texts.trim (draft.send.remoteTarget.getD "") = ""
    · simp [hempty] at h
    · rw [if_neg hempty] at h
      cases hparse : env.parseHostReference (Texts.trim (draft.send.remoteTarget.getD "")) with
      | error message => simp [hparse] at h
      | ok name =>
        cases name with
        | none => simp [hparse] at h
        | some name =>
          simp only [hparse, Except.ok.injEq] at h
          obtain ⟨hname, hagain⟩ := parseHostReference_ok hparse
          rw [Texts.trim_trim] at hname
          have htrim : Texts.trim name = name := by
            rw [hname, Texts.trim_trim]
          rw [← h]
          exact iff_of_true (rereads_knownHost htrim (hname ▸ hempty) hagain) hvacuous
  | toLocal =>
    simp only [hmode] at h
    by_cases hlocal : draft.send.localTarget = "directory"
    · have hvacuous : OutputReadsBack env draft := fun _ hne => absurd hlocal hne
      rw [if_pos hlocal] at h
      by_cases hempty : Texts.trim draft.send.localDirectory = ""
      · simp [hempty] at h
      · rw [if_neg hempty, Except.ok.injEq] at h
        rw [← h]
        refine iff_of_true ((rereads_directory _).mpr ⟨rfl, ?_, hempty⟩) hvacuous
        exact Texts.trim_trim draft.send.localDirectory
    · rw [if_neg hlocal] at h
      by_cases hempty : Texts.trim draft.send.localTarget = ""
      · simp [hempty] at h
      · rw [if_neg hempty] at h
        have htrim := Texts.trim_trim draft.send.localTarget
        cases hparse : env.parseHostReference (Texts.trim draft.send.localTarget) with
        | error message => simp [Environment.fromCliTarget, hparse] at h
        | ok name =>
          cases name with
          | none =>
            rw [rereads_location hparse h]
            constructor
            · intro hread _ _ _ uri huri
              exact hread uri huri
            · intro hread uri huri
              exact hread hmode hlocal hparse uri huri
          | some name =>
            have hvacuous : OutputReadsBack env draft := by
              intro _ _ hnone
              rw [hparse] at hnone
              exact absurd hnone (by simp)
            simp only [Environment.fromCliTarget, hparse, Except.ok.injEq] at h
            obtain ⟨hname, hagain⟩ := parseHostReference_ok hparse
            rw [htrim] at hname
            have hnames : Texts.trim name = name := by
              rw [hname, htrim]
            rw [← h]
            exact iff_of_true (rereads_knownHost hnames (hname ▸ hempty) hagain) hvacuous

/-- A plain path reads back, unless it is a file that is named like the marker
of a directory target. -/
theorem uriReadsBack_of_path {target : String} (htrim : Texts.trim target = target)
    (hempty : target ≠ "") (hne : target ≠ "directory")
    (hhost : env.parseHostReference target = .ok none) (hurl : env.parseUrl target = none)
    (hstream : target ≠ "-" ∧ target ≠ "stdio://stdout") :
    ∀ uri, env.uriTryFrom target = .ok uri → UriReadsBack env uri := by
  have hpath : env.uriTryFrom target = .ok (env.pathUri target) := by
    simp [Environment.uriTryFrom, hstream.1, hstream.2, hhost, hurl]
  intro uri huri
  rw [hpath, Except.ok.injEq] at huri
  have hcli : ∀ path, env.pathUri target = .file path →
      env.fromCliTarget target = .ok (.file path) := by
    intro path hfile
    simp [Environment.fromCliTarget, hhost, hpath, hfile]
  rw [← huri]
  unfold Environment.pathUri at hcli ⊢
  split
  · exact ⟨rfl, htrim, hempty⟩
  · split
    · exact ⟨rfl, htrim, hempty⟩
    · rename_i hdir hext
      refine ⟨hne, ?_, ?_⟩
      · show Texts.trim target ≠ ""
        rwa [htrim]
      · show env.fromCliTarget (Texts.trim target) = _
        rw [htrim]
        exact hcli _ (by rw [if_neg hdir, if_neg hext])

end Outputs

section Selections

/-- The choice of sources is more than the default of the form. -/
def choosesSources (process : JobDraftProcess) : Bool :=
  !((splitSelected process.selected).isEmpty && process.product == "elasticsearch" &&
    process.diagnosticType == "standard")

/-- The keys that a selection resolves to, written as a list, resolve to
themselves. -/
def SelectionReadsBack (registry : Registry) (process : JobDraftProcess) : Prop :=
  choosesSources process = true →
    ∀ keys, resolveProcessingSelection registry process.product process.diagnosticType
        (splitSelected process.selected) = .ok keys →
      choosesSources { process with selected := Texts.join "," keys } = true ∧
        resolveProcessingSelection registry process.product process.diagnosticType
          (splitSelected (Texts.join "," keys)) = .ok keys

theorem explicitProcessSelection_eq (draft : JobDraft) :
    explicitProcessSelection registry draft =
      if choosesSources draft.process then
        (resolveProcessingSelection registry draft.process.product draft.process.diagnosticType
          (splitSelected draft.process.selected)).map fun selected =>
            some ⟨draft.process.product, draft.process.diagnosticType, selected⟩
      else .ok none := by
  unfold explicitProcessSelection
  show (if _ then _ else _) = if !_ then _ else _
  cases (splitSelected draft.process.selected).isEmpty &&
    draft.process.product == "elasticsearch" && draft.process.diagnosticType == "standard" <;> rfl

theorem reselects_iff {draft : JobDraft} {selection : Option ProcessSelection}
    (h : explicitProcessSelection registry draft = .ok selection) :
    explicitProcessSelection registry (selectionDraft selection) = .ok selection ↔
      SelectionReadsBack registry draft.process := by
  rw [explicitProcessSelection_eq] at h
  by_cases hchooses : choosesSources draft.process = true
  · rw [if_pos hchooses] at h
    cases hkeys : resolveProcessingSelection registry draft.process.product
        draft.process.diagnosticType (splitSelected draft.process.selected) with
    | error message => simp [hkeys, Except.map] at h
    | ok keys =>
      simp only [hkeys, Except.map, Except.ok.injEq] at h
      subst h
      have hagain : explicitProcessSelection registry
          (selectionDraft (some ⟨draft.process.product, draft.process.diagnosticType, keys⟩)) =
            if choosesSources { draft.process with selected := Texts.join "," keys } then
              (resolveProcessingSelection registry draft.process.product
                draft.process.diagnosticType (splitSelected (Texts.join "," keys))).map
                fun selected =>
                  some ⟨draft.process.product, draft.process.diagnosticType, selected⟩
            else .ok none := by
        rw [explicitProcessSelection_eq]
        rfl
      rw [hagain]
      constructor
      · intro hread _ other hother
        rw [hkeys, Except.ok.injEq] at hother
        subst hother
        by_cases hchosen :
            choosesSources { draft.process with selected := Texts.join "," keys } = true
        · rw [if_pos hchosen] at hread
          refine ⟨hchosen, ?_⟩
          cases hresolved : resolveProcessingSelection registry draft.process.product
              draft.process.diagnosticType (splitSelected (Texts.join "," keys)) with
          | error message => simp [hresolved, Except.map] at hread
          | ok found => simpa [hresolved, Except.map] using hread
        · rw [if_neg hchosen] at hread
          exact absurd hread (by simp)
      · intro hread
        obtain ⟨hchosen, hresolved⟩ := hread hchooses keys hkeys
        rw [if_pos hchosen, hresolved]
        rfl
  · rw [if_neg hchooses, Except.ok.injEq] at h
    subst h
    exact iff_of_true rfl fun hsome => absurd hsome hchooses

/-- An option key that neither the legacy names nor the written list change. -/
structure PlainKey (product key : String) : Prop where
  canonical : legacyKeyMap product key = key
  trimmed : Texts.trim key = key
  nonempty : key ≠ ""
  noComma : ',' ∉ key.toList

theorem splitSelected_join {product : String} {keys : List String}
    (h : ∀ key ∈ keys, PlainKey product key) : splitSelected (Texts.join "," keys) = keys := by
  by_cases hnil : keys = []
  · subst hnil
    decide
  · have hsplit : Texts.split ',' (Texts.join "," keys) = keys :=
      Texts.split_join ',' hnil fun key hkey => (h key hkey).noComma
    have htrim : keys.map Texts.trim = keys :=
      (List.map_congr_left fun key hkey => (h key hkey).trimmed).trans (List.map_id keys)
    rw [splitSelected, hsplit, htrim, List.filter_eq_self]
    intro key hkey
    simpa using (h key hkey).nonempty

/-- With acyclic option dependencies and plain keys, as in the registries that
are built in, every selection reads back. -/
theorem selectionReadsBack_of_plain {process : JobDraftProcess}
    {defs : List ProcessingOptionDef} (hdefs : processingDefs registry process.product = .ok defs)
    (hacyclic : (optionGraph process.product defs).Acyclic)
    (hplain : ∀ one ∈ defs, PlainKey process.product one.key) :
    SelectionReadsBack registry process := by
  intro hchooses keys hkeys
  have hoptions : AcyclicOptions registry process.product := by
    unfold AcyclicOptions
    rw [dependsOn_eq hdefs]
    exact hacyclic
  have hcanonical : OptionKeysCanonical registry process.product := by
    intro found hfound one hone
    rw [hdefs, Except.ok.injEq] at hfound
    subst hfound
    rw [(hplain one hone).trimmed, (hplain one hone).canonical]
  have hresolved := resolved_of_ok hoptions hkeys
  have hkeysPlain : ∀ key ∈ keys, PlainKey process.product key := by
    intro key hkey
    obtain ⟨found, hfound, one, hone, rfl⟩ := hresolved.offered key hkey
    rw [hdefs, Except.ok.injEq] at hfound
    subst hfound
    exact hplain one hone
  rw [splitSelected_join hkeysPlain]
  refine ⟨?_, resolve_resolved hoptions hcanonical hkeys⟩
  by_cases hnil : keys = []
  · have hselected : splitSelected process.selected = [] := by
      apply List.eq_nil_iff_forall_not_mem.mpr
      intro key hkey
      have hfound := hresolved.requested key hkey
      rw [hnil] at hfound
      exact List.not_mem_nil hfound
    rw [choosesSources, hselected] at hchooses
    rw [choosesSources, splitSelected_join hkeysPlain, hnil]
    exact hchooses
  · rw [choosesSources, splitSelected_join hkeysPlain]
    have hisEmpty : keys.isEmpty = false := by simpa using hnil
    rw [hisEmpty]
    rfl

end Selections

/-- Nothing of a draft is lost when its job is opened and saved again. -/
structure ReadsBack (env : Environment) (registry : Registry) (draft : JobDraft) : Prop where
  bundle : draft.normalizeTargets.send.rawRemoteTarget.isSome = true →
    (intermediateDownloadDir draft.normalizeTargets).isSome = true
  output : processes draft = true → OutputReadsBack env draft
  selection : processes draft = true → SelectionReadsBack registry draft.process

theorem notBlank_intermediateDownloadDir {draft : JobDraft} :
    ∀ text ∈ intermediateDownloadDir draft, notBlank text = true := by
  intro text htext
  unfold intermediateDownloadDir at htext
  by_cases h : (draft.collect.save && notBlank draft.collect.downloadDir) = true
  · rw [if_pos h, Option.mem_some_iff] at htext
    rw [← htext]
    exact (Bool.and_eq_true_iff.mp h).2
  · rw [if_neg h] at htext
    exact absurd htext (by simp)

/-- A job that is opened in the editor and saved again is the same job exactly
when its bundle is kept in a directory if it is sent, and its output and
selection read back. -/
theorem round_trip_iff (env : Environment) (registry : Registry) (draft : JobDraft)
    (identifiers : Identifiers) (job : Job)
    (h : fromSignals env registry draft identifiers = .ok job) :
    fromSignals env registry (toSignals job) identifiers = .ok job ↔
      ReadsBack env registry draft := by
  obtain ⟨-, -, host, hhost, hstages⟩ := compileSignals_eq_ok_iff.mp h
  have hname := (parseHostReference_ok hhost).2
  have hdir : ∀ text ∈ intermediateDownloadDir draft.normalizeTargets, notBlank text = true :=
    notBlank_intermediateDownloadDir
  by_cases hprocesses : processes draft = true
  · rw [compileStages_of_processes rfl hprocesses] at hstages
    obtain ⟨output, selection, houtput, hselection, hbuild⟩ := hstages
    have hsend : env.fromSignalsSend draft = .ok output := by
      rw [← houtput, normalizeTargets_eq, hprocesses]
      exact fromSignalsSend_congr rfl rfl rfl rfl
    have hprocess : explicitProcessSelection registry draft = .ok selection := by
      rw [← hselection]
      refine explicitProcessSelection_congr ?_
      rw [normalizeTargets_eq]
    rw [processing_round_trip hname hdir (fun _ => notBlank_of_normalized draft) hbuild,
      rereads_iff hsend, reselects_iff hprocess]
    constructor
    · rintro ⟨hbundle, houtputs, hselections⟩
      exact ⟨hbundle, fun _ => houtputs, fun _ => hselections⟩
    · rintro ⟨hbundle, houtputs, hselections⟩
      exact ⟨hbundle, houtputs hprocesses, hselections hprocesses⟩
  · have hnot : processes draft = false := Bool.eq_false_iff.mpr hprocesses
    by_cases hforward : (draft.process.mode == .forward && draft.send.mode == .toRemote) = true
    · obtain ⟨hmode, hremote⟩ := Bool.and_eq_true_iff.mp hforward
      rw [compileStages_of_forward rfl hnot (eq_of_beq hmode) (eq_of_beq hremote)] at hstages
      obtain ⟨uploadId, hraw, hbuild⟩ := hstages
      rw [forward_round_trip hname hdir (notBlank_of_normalized draft hraw) hbuild]
      constructor
      · intro hsome
        exact ⟨fun _ => hsome, fun hyes => absurd hyes hprocesses,
          fun hyes => absurd hyes hprocesses⟩
      · intro hread
        exact hread.bundle (by rw [hraw]; rfl)
    · rw [compileStages_of_collect rfl hnot (Bool.eq_false_iff.mpr hforward)] at hstages
      obtain ⟨text, htext, hbuild⟩ := hstages
      have hblank := hdir text (Option.mem_def.mpr htext)
      refine iff_of_true (collect_round_trip hname hblank hbuild) ⟨fun _ => ?_, ?_, ?_⟩
      · rw [htext]
        rfl
      · exact fun hyes => absurd hyes hprocesses
      · exact fun hyes => absurd hyes hprocesses

/-- One configured host, no addresses and an empty filesystem. -/
def sampleEnvironment : Environment where
  isHostReference name := .ok (name == "prod")
  resolveHost _ := .error "unreachable"
  parseUrl _ := none
  pathExists _ := false
  isDir _ := false
  isFile _ := false

def sampleIdentifiers : Identifiers := Identifiers.default none

/-- A draft that processes into a directory, keeps the bundle and sends it. -/
def keepingDraft : JobDraft where
  collect := ⟨.collect, .knownHost, "prod", "standard", true, "/tmp/bundles"⟩
  process := ⟨.process, true, "elasticsearch", "standard", false, ""⟩
  send := ⟨.toLocal, none, "directory", "/tmp/documents", some "abc123", false⟩

def keepingJob : Job where
  identifiers := sampleIdentifiers
  input := .collect "prod" "standard" none none
  save := some (.retained (.ofString "/tmp/bundles"))
  process := some ⟨none, .directory (.ofString "/tmp/documents")⟩
  send := some ⟨"abc123"⟩
  valid := by decide

/-- A draft that keeps nothing comes back as a job. -/
theorem keeping_reads_back :
    fromSignals sampleEnvironment .empty (toSignals keepingJob) sampleIdentifiers =
      .ok keepingJob := by
  refine (round_trip_iff sampleEnvironment .empty keepingDraft sampleIdentifiers keepingJob
    rfl).mpr ⟨fun _ => by decide, fun _ _ hne => absurd rfl hne, fun _ hchooses => ?_⟩
  exact absurd hchooses (by decide)

/-- The bundle is sent from a temporary directory. -/
def forwardingDraft : JobDraft where
  collect := ⟨.collect, .knownHost, "prod", "standard", true, ""⟩
  process := ⟨.forward, false, "elasticsearch", "standard", false, ""⟩
  send := ⟨.toRemote, none, "", "", some "abc123", false⟩

def forwardingJob : Job where
  identifiers := sampleIdentifiers
  input := .collect "prod" "standard" none none
  save := some .temporary
  process := none
  send := some ⟨"abc123"⟩
  valid := by decide

/-- The draft in which that job is opened: the bundle is no longer offered. -/
def reopenedDraft : JobDraft where
  collect := ⟨.collect, .knownHost, "prod", "standard", false, ""⟩
  process := ⟨.forward, false, "elasticsearch", "standard", false, ""⟩
  send := ⟨.toRemote, some "abc123", "", "", some "abc123", false⟩

/-- Its job is refused when it is opened and saved again. -/
theorem forwarding_is_refused :
    fromSignals sampleEnvironment .empty forwardingDraft sampleIdentifiers = .ok forwardingJob ∧
      fromSignals sampleEnvironment .empty (toSignals forwardingJob) sampleIdentifiers =
        .error "Send jobs require a remote target" := by
  have hopened : toSignals forwardingJob = reopenedDraft := rfl
  refine ⟨rfl, ?_⟩
  rw [hopened]
  rfl

end Esdiag.DraftRoundTrip
