import Esdiag.Outcomes
import Esdiag.SavedJobFiles

/-!
The migration of a file of the first version. The loaded jobs are the images of
the legacy entries, under the same names in the same order, and they do what
those entries did. The rewritten file is a versioned document for any job names
and reads back as the same jobs, with the ambient user for a job without one.
-/
namespace Esdiag.LegacyMigration

open KeyedMaps YamlValues Fields Deployments ProcessSelections SourceRegistry JobModel
  JobDocuments SavedJobFiles Outcomes

/-- What running a job leaves behind and where it sends what it collected. -/
structure Effects where
  host : String
  diagnosticType : String
  savedTo : Option PathBuf
  processed : Option (Option ProcessSelection × ExportTarget)
  sentTo : Option String

/-- A legacy job saved, sent or processed what it collected from its host; the
last two kept the bundle only where a directory for it was given. -/
def legacyEffects (registry : Registry) (legacy : LegacyJob) : Effects :=
  { host := legacy.collect.host
    diagnosticType := legacy.collect.diagnosticType
    savedTo :=
      match legacy.action with
      | .collect outputDir => some outputDir
      | .upload _ | .process .. => legacy.collect.saveDir
    processed :=
      match legacy.action with
      | .process output selection =>
        some (canonicalizeLegacySelection registry selection, output)
      | .collect _ | .upload _ => none
    sentTo :=
      match legacy.action with
      | .upload uploadId => some uploadId
      | .collect _ | .process .. => none }

def jobEffects (job : Job) : Effects :=
  { host :=
      match job.input with
      | .collect host .. => host
      | _ => ""
    diagnosticType := job.input.collectDiagnosticType
    savedTo := job.save.bind SaveTarget.dir
    processed := job.process.map fun process => (process.selection, process.exportTarget)
    sentTo := job.send.map SendTarget.uploadId }

section Readers

theorem normalizeIdentifier_ne_empty (value : Option String) :
    normalizeIdentifier value ≠ some "" := by
  cases value with
  | none => simp [normalizeIdentifier]
  | some text =>
    by_cases hblank : Texts.isBlank text = true
    · simp [normalizeIdentifier, hblank]
    · intro h
      apply hblank
      have htrim : Texts.trim text = "" := by simpa [normalizeIdentifier, hblank] using h
      simp [Texts.isBlank, htrim]

theorem readIdentifier_ne_empty {value : Yaml} {out : Option String}
    (h : readIdentifier value = some out) : out ≠ some "" := by
  cases value with
  | null =>
    obtain rfl := Option.some.inj h
    simp
  | string text =>
    obtain rfl := Option.some.inj h
    by_cases htext : text = "" <;> simp [htext]
  | _ => simp [readIdentifier] at h

theorem withDefault_identifier_ne_empty {key : String} {fields : Fields}
    {default out : Option String} (hdefault : default ≠ some "")
    (h : withDefault key readIdentifier default fields = some out) : out ≠ some "" := by
  unfold withDefault at h
  cases hfield : findEntry key fields with
  | none =>
    rw [hfield] at h
    obtain rfl : default = out := Option.some.inj h
    exact hdefault
  | some value =>
    rw [hfield] at h
    exact readIdentifier_ne_empty h

theorem readIdentifiers_noEmptyText {ambientUser : Option String} {value : Yaml}
    {identifiers : Identifiers} (h : readIdentifiers ambientUser value = some identifiers) :
    NoEmptyText identifiers := by
  unfold readIdentifiers at h
  simp only [Option.bind_eq_bind, Option.bind_eq_some_iff, Option.pure_def,
    Option.some.injEq] at h
  obtain ⟨fields, -, account, haccount, caseNumber, hcase, filename, hfilename, opportunity,
    hopportunity, user, huser, parentId, hparent, platform, -, rfl⟩ := h
  have hunset : (none : Option String) ≠ some "" := by simp
  simp only [NoEmptyText, List.mem_cons, List.not_mem_nil, or_false, not_or]
  refine ⟨?_, ?_, ?_, ?_, ?_, ?_⟩
  · exact (withDefault_identifier_ne_empty hunset haccount).symm
  · exact (withDefault_identifier_ne_empty hunset hcase).symm
  · exact (withDefault_identifier_ne_empty hunset hfilename).symm
  · exact (withDefault_identifier_ne_empty hunset hopportunity).symm
  · exact (withDefault_identifier_ne_empty (normalizeIdentifier_ne_empty _) huser).symm
  · exact (withDefault_identifier_ne_empty hunset hparent).symm

theorem default_noEmptyText (ambientUser : Option String) :
    NoEmptyText (Identifiers.default ambientUser) := by
  have huser := normalizeIdentifier_ne_empty ambientUser
  simpa [NoEmptyText, Identifiers.default] using huser.symm

theorem readPath_isText {value : Yaml} {path : PathBuf} (h : readPath value = some path) :
    path.rawBytes = none := by
  obtain ⟨text, -, rfl⟩ := Option.map_eq_some_iff.mp h
  rfl

theorem required_readPath_isText {key : String} {fields : Fields} {path : PathBuf}
    (h : required key readPath fields = some path) : path.rawBytes = none := by
  obtain ⟨value, -, hvalue⟩ := Option.bind_eq_some_iff.mp h
  exact readPath_isText hvalue

theorem ifPresent_readPath_isText {key : String} {fields : Fields} {path : PathBuf}
    (h : ifPresent key readPath fields = some (some path)) : path.rawBytes = none := by
  unfold ifPresent at h
  cases hfield : findEntry key fields with
  | none => simp [hfield] at h
  | some value =>
    by_cases hnull : value.isNull = true
    · simp [hfield, hnull] at h
    · have hread : readPath value = some path := by simpa [hfield, hnull] using h
      exact readPath_isText hread

/-- The file or directory of an export is a text. -/
def TargetIsText (target : ExportTarget) : Prop :=
  ∀ path, target = .file path ∨ target = .directory path → path.rawBytes = none

theorem readExportTarget_isText {value : Yaml} {target : ExportTarget}
    (h : readExportTarget value = some target) : TargetIsText target := by
  unfold readExportTarget at h
  simp only [Option.bind_eq_bind, Option.bind_eq_some_iff] at h
  obtain ⟨fields, -, type, -, h⟩ := h
  intro path hpath
  split_ifs at h
  · obtain ⟨name, -, rfl⟩ := Option.map_eq_some_iff.mp h
    simp at hpath
  · obtain rfl := Option.some.inj h
    simp at hpath
  · obtain ⟨file, hfile, rfl⟩ := Option.map_eq_some_iff.mp h
    obtain rfl : file = path := by simpa using hpath
    exact required_readPath_isText hfile
  · obtain ⟨directory, hdirectory, rfl⟩ := Option.map_eq_some_iff.mp h
    obtain rfl : directory = path := by simpa using hpath
    exact required_readPath_isText hdirectory
  · obtain rfl := Option.some.inj h
    simp at hpath
  · obtain ⟨binding, -, rfl⟩ := Option.map_eq_some_iff.mp h
    simp at hpath

/-- A legacy job as a file can hold it. -/
structure FromText (legacy : LegacyJob) : Prop where
  identifiers : NoEmptyText legacy.identifiers
  saveDir : ∀ dir, legacy.collect.saveDir = some dir → dir.rawBytes = none
  outputDir : ∀ dir, legacy.action = .collect dir → dir.rawBytes = none
  output : ∀ target selection, legacy.action = .process target selection → TargetIsText target

theorem readLegacyAction_fromText {fields : Fields} {action : LegacyJobAction}
    (h : readLegacyAction fields = some action) :
    (∀ dir, action = .collect dir → dir.rawBytes = none) ∧
      ∀ target selection, action = .process target selection → TargetIsText target := by
  unfold readLegacyAction at h
  simp only [Option.bind_eq_bind, Option.bind_eq_some_iff] at h
  obtain ⟨kind, -, h⟩ := h
  split_ifs at h
  · obtain ⟨outputDir, hdir, rfl⟩ := Option.map_eq_some_iff.mp h
    refine ⟨fun dir hcollect => ?_, fun target selection hprocess => (by cases hprocess)⟩
    obtain rfl := LegacyJobAction.collect.inj hcollect
    exact required_readPath_isText hdir
  · obtain ⟨uploadId, -, rfl⟩ := Option.map_eq_some_iff.mp h
    exact ⟨fun dir hcollect => (by cases hcollect),
      fun target selection hprocess => (by cases hprocess)⟩
  · simp only [Option.bind_eq_some_iff, Option.pure_def, Option.some.injEq] at h
    obtain ⟨output, houtput, selection, -, rfl⟩ := h
    refine ⟨fun dir hcollect => (by cases hcollect), fun target other hprocess => ?_⟩
    obtain ⟨rfl, -⟩ := LegacyJobAction.process.inj hprocess
    obtain ⟨value, -, hvalue⟩ := Option.bind_eq_some_iff.mp houtput
    exact readExportTarget_isText hvalue

theorem readLegacyJob_fromText {ambientUser : Option String} {value : Yaml} {legacy : LegacyJob}
    (h : readLegacyJob ambientUser value = some legacy) : FromText legacy := by
  unfold readLegacyJob at h
  simp only [Option.bind_eq_bind, Option.bind_eq_some_iff, Option.pure_def,
    Option.some.injEq] at h
  obtain ⟨fields, -, identifiers, hidentifiers, collect, hcollect, action, haction, rfl⟩ := h
  obtain ⟨hdir, htarget⟩ := readLegacyAction_fromText haction
  refine ⟨?_, ?_, hdir, htarget⟩
  · unfold withDefault at hidentifiers
    cases hfield : findEntry "identifiers" fields with
    | none =>
      rw [hfield] at hidentifiers
      obtain rfl := Option.some.inj hidentifiers
      exact default_noEmptyText ambientUser
    | some value =>
      rw [hfield] at hidentifiers
      exact readIdentifiers_noEmptyText hidentifiers
  · intro dir hsave
    obtain ⟨value, -, hvalue⟩ := Option.bind_eq_some_iff.mp hcollect
    unfold readLegacyCollect at hvalue
    simp only [Option.bind_eq_bind, Option.bind_eq_some_iff, Option.pure_def,
      Option.some.injEq] at hvalue
    obtain ⟨collectFields, -, host, -, diagnosticType, -, saveDir, hsaveDir, rfl⟩ := hvalue
    obtain rfl : saveDir = some dir := hsave
    exact ifPresent_readPath_isText hsaveDir

end Readers

section Conversion

variable {registry : Registry} {legacy : LegacyJob} {job : Job}

/-- A converted job has the effects of the legacy one. -/
theorem tryFrom_effects (h : tryFrom registry legacy = .ok job) :
    jobEffects job = legacyEffects registry legacy := by
  obtain ⟨-, hinput, hsave, hprocess, hsend⟩ := Job.tryNew_eq_ok h
  unfold jobEffects legacyEffects
  rw [hinput, hsave, hprocess, hsend]
  unfold legacyStages
  cases haction : legacy.action with
  | collect outputDir => simp [Input.collectDiagnosticType, SaveTarget.retained]
  | upload uploadId =>
    cases hdir : legacy.collect.saveDir <;>
      simp [Input.collectDiagnosticType, SaveTarget.retained, SaveTarget.temporary]
  | process output selection =>
    cases hdir : legacy.collect.saveDir <;>
      simp [Input.collectDiagnosticType, SaveTarget.retained]

theorem writePath_isSome {path : PathBuf} (h : path.rawBytes = none) :
    (writePath path).isSome = true := by
  simp [writePath, h]

theorem writeExportTarget_isSome {target : ExportTarget} (h : TargetIsText target) :
    (writeExportTarget target).isSome = true := by
  cases target with
  | file path => simpa [writeExportTarget] using writePath_isSome (h path (Or.inl rfl))
  | directory outputDir =>
    simpa [writeExportTarget] using writePath_isSome (h outputDir (Or.inr rfl))
  | _ => rfl

theorem writeSave_isSome {save : SaveTarget}
    (h : ∀ dir, save.dir = some dir → dir.rawBytes = none) : (writeSave save).isSome = true := by
  obtain ⟨dir⟩ := save
  cases dir with
  | none => rfl
  | some dir => simpa [writeSave] using writePath_isSome (h dir rfl)

theorem writeStage_isSome {α : Type*} {write : α → Option Yaml} {stage : Option α}
    (h : ∀ a, stage = some a → (write a).isSome = true) : (writeStage write stage).isSome = true := by
  cases stage with
  | none => rfl
  | some a => simpa [writeStage] using h a rfl

/-- A job converted from a file can be written. -/
theorem writeJob_tryFrom_isSome (uris : UriSerde) (htext : FromText legacy)
    (h : tryFrom registry legacy = .ok job) : (writeJob uris job).isSome = true := by
  obtain ⟨-, hinput, hsave, hprocess, -⟩ := Job.tryNew_eq_ok h
  have hwriteSave : (writeStage writeSave job.save).isSome = true := by
    apply writeStage_isSome
    intro save hstage
    apply writeSave_isSome
    intro dir hdir
    rw [hsave, legacyStages] at hstage
    cases haction : legacy.action with
    | collect outputDir =>
      simp only [haction, Option.some.injEq] at hstage
      subst hstage
      obtain rfl := Option.some.inj hdir
      exact htext.outputDir _ haction
    | upload uploadId =>
      cases hsaveDir : legacy.collect.saveDir with
      | none =>
        simp only [haction, hsaveDir, Option.map_none, Option.getD_none,
          Option.some.injEq] at hstage
        subst hstage
        simp [SaveTarget.temporary] at hdir
      | some saved =>
        simp only [haction, hsaveDir, Option.map_some, Option.getD_some,
          Option.some.injEq] at hstage
        subst hstage
        obtain rfl := Option.some.inj hdir
        exact htext.saveDir _ hsaveDir
    | process output selection =>
      simp only [haction] at hstage
      obtain ⟨saved, hsaveDir, rfl⟩ := Option.map_eq_some_iff.mp hstage
      obtain rfl := Option.some.inj hdir
      exact htext.saveDir _ hsaveDir
  have hwriteProcess : (writeStage writeProcess job.process).isSome = true := by
    apply writeStage_isSome
    intro process hstage
    rw [hprocess, legacyStages] at hstage
    cases haction : legacy.action with
    | collect outputDir => simp [haction] at hstage
    | upload uploadId => simp [haction] at hstage
    | process output selection =>
      simp only [haction, Option.some.injEq] at hstage
      subst hstage
      have htarget := writeExportTarget_isSome (htext.output output selection haction)
      simpa [writeProcess] using htarget
  obtain ⟨save, hsome⟩ := Option.isSome_iff_exists.mp hwriteSave
  obtain ⟨process, hsome'⟩ := Option.isSome_iff_exists.mp hwriteProcess
  unfold writeJob
  rw [hinput, hsome, hsome']
  rfl

end Conversion

section Writing

variable (env : Environment)

/-- The jobs with the ambient user for each one that names none. -/
def withDefaultUsers (jobs : SavedJobs) : SavedJobs :=
  jobs.mapValues fun _ job =>
    { job with identifiers := job.identifiers.defaultUser env.ambientUser }

theorem validateForPersistence_ok {job : Job} (h : job.validateForPersistence = .ok ()) :
    ∃ host diagnosticType included excluded,
      job.input = .collect host diagnosticType included excluded := by
  unfold Job.validateForPersistence at h
  cases hinput : job.input with
  | collect host diagnosticType included excluded =>
    exact ⟨host, diagnosticType, included, excluded, rfl⟩
  | _ => simp [hinput] at h

theorem writeSavedJobsDocument_eq_ok {jobs : SavedJobs} {file : JobsFile}
    (h : writeSavedJobsDocument env jobs = .ok file) :
    (∀ e ∈ jobs.entries, e.2.validateForPersistence = .ok ()) ∧
      ∃ written, writeMap (writeJob env.uris) jobs = some written ∧
        file = .document
          (.mapping [("schema_version", .int currentSchemaVersion), ("jobs", written)]) := by
  unfold writeSavedJobsDocument at h
  cases hvalid : jobs.traverse validatePersistable with
  | error error => simp [hvalid] at h
  | ok valid =>
    cases hwritten : writeMap (writeJob env.uris) jobs with
    | none => simp [hvalid, hwritten] at h
    | some written =>
      refine ⟨fun e he => ?_, written, rfl, ?_⟩
      · obtain ⟨_, hchecked⟩ := KeyedMap.traverse_ok_iff.mp ⟨valid, hvalid⟩ e he
        exact mapError_eq_ok.mp hchecked
      · simpa [hvalid, hwritten] using h.symm

theorem exists_writeSavedJobsDocument {jobs : SavedJobs}
    (hvalid : ∀ e ∈ jobs.entries, e.2.validateForPersistence = .ok ())
    (hwrite : ∀ e ∈ jobs.entries, (writeJob env.uris e.2).isSome = true) :
    ∃ file, writeSavedJobsDocument env jobs = .ok file := by
  obtain ⟨valid, htraverse⟩ : ∃ valid, jobs.traverse validatePersistable = .ok valid :=
    KeyedMap.traverse_ok_iff.mpr fun e he => ⟨(), mapError_eq_ok.mpr (hvalid e he)⟩
  obtain ⟨written, hwritten⟩ := Option.isSome_iff_exists.mp (writeMap_isSome hwrite)
  exact ⟨_, by rw [writeSavedJobsDocument, htraverse, hwritten]⟩

/-- A written file is a document of the current version, whatever the names. -/
theorem schemaVersion_written (written : Yaml) :
    schemaVersion (.mapping [("schema_version", .int currentSchemaVersion), ("jobs", written)]) =
      .ok (some currentSchemaVersion) := rfl

/-- A written file reads back job by job, and needs no rewrite. -/
theorem readJobsFile_write_of_jobs {jobs : SavedJobs} {file : JobsFile} {reread : Job → Job}
    (hreread : ∀ e ∈ jobs.entries, e.2.validateForPersistence = .ok () → ∀ field,
      writeJob env.uris e.2 = some field →
        readJob env.uris env.ambientUser field = some (reread e.2))
    (h : writeSavedJobsDocument env jobs = .ok file) :
    readJobsFile env file = .ok (jobs.mapValues fun _ => reread, false) := by
  obtain ⟨hvalid, written, hwritten, rfl⟩ := writeSavedJobsDocument_eq_ok env h
  have hread : readMap SavedJobsError.yaml (readJob env.uris env.ambientUser) written =
      .ok (jobs.mapValues fun _ => reread) := by
    apply readMap_writeMap SavedJobsError.yaml hwritten
    intro e he field hfield
    exact hreread e he (hvalid e he) field hfield
  simp only [readJobsFile, schemaVersion_written, if_true]
  simp [readSavedJobsDocument, Yaml.asMapping, findEntry, hread]

theorem readJobsFile_write {jobs : SavedJobs} {file : JobsFile}
    (hplain : ∀ e ∈ jobs.entries, NoEmptyText e.2.identifiers)
    (h : writeSavedJobsDocument env jobs = .ok file) :
    readJobsFile env file = .ok (withDefaultUsers env jobs, false) := by
  refine readJobsFile_write_of_jobs env ?_ h
  intro e he hvalid field hfield
  exact readJob_write_of_noEmptyText env.uris env.ambientUser (validateForPersistence_ok hvalid)
    (hplain e he) hfield

/-- A written file is read, with the same names. -/
theorem exists_readJobsFile_write {jobs : SavedJobs} {file : JobsFile}
    (h : writeSavedJobsDocument env jobs = .ok file) :
    ∃ read, readJobsFile env file = .ok (read, false) ∧
      ∀ name, (read.find? name).isSome = (jobs.find? name).isSome := by
  have hreread : ∀ e ∈ jobs.entries, e.2.validateForPersistence = .ok () → ∀ field,
      writeJob env.uris e.2 = some field →
        readJob env.uris env.ambientUser field = some (rereadJob env.ambientUser e.2) :=
    fun e _ hvalid field hfield =>
      readJob_write env.uris env.ambientUser (validateForPersistence_ok hvalid) hfield
  have hread := readJobsFile_write_of_jobs env hreread h
  refine ⟨_, hread, fun name => ?_⟩
  rw [KeyedMap.find?_mapValues, Option.isSome_map]

end Writing

section Migration

variable (env : Environment)

/-- A job named like the version key beside one named like the key of the jobs. -/
def BothNames (legacyJobs : KeyedMap String LegacyJob) : Prop :=
  "schema_version" ∈ legacyJobs.entries.map Prod.fst ∧ "jobs" ∈ legacyJobs.entries.map Prod.fst

theorem readLegacyJobs_eq_ok {value : Yaml} {legacyJobs : KeyedMap String LegacyJob}
    (h : readLegacyJobs env value = .ok legacyJobs) :
    ∃ fields, value = .mapping fields ∧
      fields.map Prod.fst = legacyJobs.entries.map Prod.fst ∧
      (∀ e ∈ fields, ∃ legacy, readLegacyJob env.ambientUser e.2 = some legacy) ∧
      ∀ e ∈ legacyJobs.entries, FromText e.2 := by
  unfold readLegacyJobs readMap at h
  cases hfields : value.asMapping.bind KeyedMap.ofEntries? with
  | none => simp [hfields] at h
  | some fields =>
    rw [hfields] at h
    have htraverse := KeyedMap.traverse_eq_ok_iff.mp h
    obtain ⟨entries, hmapping, hentries⟩ := Option.bind_eq_some_iff.mp hfields
    obtain rfl := KeyedMap.ofEntries?_eq_some hentries
    have hread : ∀ (field : Yaml) (legacy : LegacyJob),
        (readLegacyJob env.ambientUser field).elim (Except.error SavedJobsError.yaml) Except.ok =
          Except.ok legacy → readLegacyJob env.ambientUser field = some legacy := by
      intro field legacy hfield
      cases hlegacy : readLegacyJob env.ambientUser field with
      | none => simp [hlegacy] at hfield
      | some read => simpa [hlegacy] using hfield
    refine ⟨fields.entries, ?_, (keys_traverseEntries htraverse).symm, ?_, ?_⟩
    · cases value with
      | mapping found => rw [Option.some.inj hmapping]
      | _ => simp [Yaml.asMapping] at hmapping
    · intro e he
      obtain ⟨legacy, hlegacy⟩ := traverseEntries_ok_iff.mp ⟨_, htraverse⟩ e he
      exact ⟨legacy, hread _ _ hlegacy⟩
    · intro e he
      obtain ⟨field, -, hfield⟩ := mem_of_mem_traverseEntries htraverse he
      exact readLegacyJob_fromText (hread _ _ hfield)

theorem readLegacyJob_mapping {ambientUser : Option String} {value : Yaml} {legacy : LegacyJob}
    (h : readLegacyJob ambientUser value = some legacy) : ∃ fields, value = .mapping fields := by
  cases value with
  | mapping fields => exact ⟨fields, rfl⟩
  | _ => simp [readLegacyJob, Yaml.asMapping] at h

/-- A file of legacy jobs has no version, unless its names look like one. -/
theorem schemaVersion_legacy {value : Yaml} {legacyJobs : KeyedMap String LegacyJob}
    (h : readLegacyJobs env value = .ok legacyJobs) :
    (BothNames legacyJobs → schemaVersion value = .error .invalidSchemaVersion) ∧
      (¬ BothNames legacyJobs → schemaVersion value = .ok none) := by
  obtain ⟨fields, rfl, hkeys, hread, -⟩ := readLegacyJobs_eq_ok env h
  unfold BothNames
  rw [← hkeys, ← findEntry_isSome_iff, ← findEntry_isSome_iff]
  unfold schemaVersion
  simp only [Yaml.asMapping]
  cases hversion : findEntry "schema_version" fields with
  | none => simp
  | some version =>
    obtain ⟨legacy, hlegacy⟩ := hread _ (mem_of_findEntry hversion)
    obtain ⟨inner, hinner⟩ := readLegacyJob_mapping hlegacy
    obtain rfl : version = .mapping inner := hinner
    cases hjobs : findEntry "jobs" fields <;> simp

theorem convertLegacyJobs_eq_ok {legacyJobs : KeyedMap String LegacyJob} {jobs : SavedJobs}
    (h : convertLegacyJobs env legacyJobs = .ok jobs) :
    traverseEntries (fun _ legacy => tryFrom env.registry legacy) legacyJobs.entries =
      .ok jobs.entries :=
  KeyedMap.traverse_eq_ok_iff.mp (mapError_eq_ok.mp h)

theorem exists_convertLegacyJobs_iff {legacyJobs : KeyedMap String LegacyJob} :
    (∃ jobs, convertLegacyJobs env legacyJobs = .ok jobs) ↔
      ∀ e ∈ legacyJobs.entries, ∃ job, tryFrom env.registry e.2 = .ok job := by
  unfold convertLegacyJobs
  simp only [mapError_eq_ok]
  exact KeyedMap.traverse_ok_iff

/-- Each name keeps its place and gets the image of its entry. -/
theorem converted_images {legacyJobs : KeyedMap String LegacyJob} {jobs : SavedJobs}
    (h : convertLegacyJobs env legacyJobs = .ok jobs) :
    jobs.entries.map (fun e => (e.1, Except.ok e.2)) =
      legacyJobs.entries.map fun e => (e.1, tryFrom env.registry e.2) :=
  map_traverseEntries (convertLegacyJobs_eq_ok env h)

theorem converted_effects {legacyJobs : KeyedMap String LegacyJob} {jobs : SavedJobs}
    (h : convertLegacyJobs env legacyJobs = .ok jobs) :
    jobs.entries.map (fun e => (e.1, jobEffects e.2)) =
      legacyJobs.entries.map fun e => (e.1, legacyEffects env.registry e.2) := by
  have hentries := convertLegacyJobs_eq_ok env h
  generalize jobs.entries = out at hentries
  generalize legacyJobs.entries = entries at hentries
  induction entries generalizing out with
  | nil =>
    obtain rfl : [] = out := by simpa [traverseEntries] using hentries
    rfl
  | cons entry rest ih =>
    obtain ⟨name, legacy⟩ := entry
    obtain ⟨job, others, hjob, hothers, rfl⟩ := traverseEntries_cons_ok hentries
    simp only [List.map_cons, tryFrom_effects hjob, ih others hothers]

theorem converted_entry {legacyJobs : KeyedMap String LegacyJob} {jobs : SavedJobs}
    (h : convertLegacyJobs env legacyJobs = .ok jobs) {e : String × Job} (he : e ∈ jobs.entries) :
    ∃ legacy, (e.1, legacy) ∈ legacyJobs.entries ∧ tryFrom env.registry legacy = .ok e.2 :=
  mem_of_mem_traverseEntries (convertLegacyJobs_eq_ok env h) he

/-- Every converted job can be persisted. -/
def AllPersistable (legacyJobs : KeyedMap String LegacyJob) : Prop :=
  ∀ e ∈ legacyJobs.entries, ∀ job, tryFrom env.registry e.2 = .ok job →
    job.validateForPersistence = .ok ()

theorem rewrite_iff {value : Yaml} {legacyJobs : KeyedMap String LegacyJob} {jobs : SavedJobs}
    (h : readLegacyJobs env value = .ok legacyJobs)
    (hconvert : convertLegacyJobs env legacyJobs = .ok jobs) :
    (∃ file, writeSavedJobsDocument env jobs = .ok file) ↔ AllPersistable env legacyJobs := by
  obtain ⟨fields, -, -, -, htext⟩ := readLegacyJobs_eq_ok env h
  have himages := converted_images env hconvert
  constructor
  · rintro ⟨file, hfile⟩ e he job hjob
    obtain ⟨hvalid, -⟩ := writeSavedJobsDocument_eq_ok env hfile
    have hmem : (e.1, (Except.ok job : Except JobValidationError Job)) ∈
        jobs.entries.map fun e => (e.1, Except.ok e.2) := by
      rw [himages, ← hjob]
      exact List.mem_map.mpr ⟨e, he, rfl⟩
    obtain ⟨converted, hconverted, heq⟩ := List.mem_map.mp hmem
    obtain ⟨-, hsame⟩ := Prod.mk.inj heq
    rw [← Except.ok.inj hsame]
    exact hvalid converted hconverted
  · intro hvalid
    apply exists_writeSavedJobsDocument
    · intro e he
      obtain ⟨legacy, hlegacy, hjob⟩ := converted_entry env hconvert he
      exact hvalid _ hlegacy e.2 hjob
    · intro e he
      obtain ⟨legacy, hlegacy, hjob⟩ := converted_entry env hconvert he
      exact writeJob_tryFrom_isSome env.uris (htext _ hlegacy) hjob

/-- The load of a file of legacy jobs, once its names and entries are known. -/
theorem load_legacy {value : Yaml} {legacyJobs : KeyedMap String LegacyJob}
    (h : readLegacyJobs env value = .ok legacyJobs) (hnames : ¬ BothNames legacyJobs) :
    loadSavedJobsFromPath env (.document value) =
      match convertLegacyJobs env legacyJobs with
      | .error error => (.error error, .document value)
      | .ok jobs =>
        if legacyJobs.isEmpty then (.ok jobs, .document value)
        else
          match writeSavedJobsDocument env jobs with
          | .error error => (.error error, .document value)
          | .ok rewritten => (.ok jobs, rewritten) := by
  have hversion := (schemaVersion_legacy env h).2 hnames
  simp only [loadSavedJobsFromPath, readJobsFile, hversion, h]
  cases hconvert : convertLegacyJobs env legacyJobs with
  | error error => rfl
  | ok jobs =>
    cases hempty : legacyJobs.isEmpty <;> rfl

theorem load_bothNames {value : Yaml} {legacyJobs : KeyedMap String LegacyJob}
    (h : readLegacyJobs env value = .ok legacyJobs) (hnames : BothNames legacyJobs) :
    loadSavedJobsFromPath env (.document value) =
      (.error .invalidSchemaVersion, .document value) := by
  have hversion := (schemaVersion_legacy env h).1 hnames
  simp only [loadSavedJobsFromPath, readJobsFile, hversion]

/-- The claim of a lossless migration, without an exception. -/
structure MigratesExactly (value : Yaml) (legacyJobs : KeyedMap String LegacyJob) : Prop where
  loads : (∃ jobs, (loadSavedJobsFromPath env (.document value)).1 = .ok jobs) ↔
    ∀ e ∈ legacyJobs.entries, ∃ job, tryFrom env.registry e.2 = .ok job
  images : ∀ jobs, (loadSavedJobsFromPath env (.document value)).1 = .ok jobs →
    jobs.entries.map (fun e => (e.1, Except.ok e.2)) =
        legacyJobs.entries.map (fun e => (e.1, tryFrom env.registry e.2)) ∧
      jobs.entries.map (fun e => (e.1, jobEffects e.2)) =
        legacyJobs.entries.map fun e => (e.1, legacyEffects env.registry e.2)
  versioned : ∀ jobs, (loadSavedJobsFromPath env (.document value)).1 = .ok jobs →
    ∃ written, (loadSavedJobsFromPath env (.document value)).2 = .document written ∧
      schemaVersion written = .ok (some currentSchemaVersion)
  stable : ∀ jobs, (loadSavedJobsFromPath env (.document value)).1 = .ok jobs →
    loadSavedJobsFromPath env (loadSavedJobsFromPath env (.document value)).2 =
      (.ok jobs, (loadSavedJobsFromPath env (.document value)).2)

theorem plain_of_converted {value : Yaml} {legacyJobs : KeyedMap String LegacyJob}
    {jobs : SavedJobs} (h : readLegacyJobs env value = .ok legacyJobs)
    (hconvert : convertLegacyJobs env legacyJobs = .ok jobs) :
    ∀ e ∈ jobs.entries, NoEmptyText e.2.identifiers := by
  intro e he
  obtain ⟨fields, -, -, -, htext⟩ := readLegacyJobs_eq_ok env h
  obtain ⟨legacy, hlegacy, hjob⟩ := converted_entry env hconvert he
  rw [(Job.tryNew_eq_ok hjob).1]
  exact (htext _ hlegacy).identifiers

theorem empty_of_converted {legacyJobs : KeyedMap String LegacyJob} {jobs : SavedJobs}
    (hconvert : convertLegacyJobs env legacyJobs = .ok jobs)
    (hempty : legacyJobs.isEmpty = true) : withDefaultUsers env jobs = jobs := by
  have hkeys := keys_traverseEntries (convertLegacyJobs_eq_ok env hconvert)
  rw [KeyedMap.isEmpty, List.isEmpty_iff] at hempty
  rw [hempty, List.map_nil, List.map_eq_nil_iff] at hkeys
  apply KeyedMap.ext_entries
  show jobs.entries.map _ = jobs.entries
  rw [hkeys]
  rfl

/-- What a load of a legacy file does when it succeeds. -/
theorem load_legacy_ok {value : Yaml} {legacyJobs : KeyedMap String LegacyJob} {jobs : SavedJobs}
    (h : readLegacyJobs env value = .ok legacyJobs)
    (hload : (loadSavedJobsFromPath env (.document value)).1 = .ok jobs) :
    ¬ BothNames legacyJobs ∧ convertLegacyJobs env legacyJobs = .ok jobs ∧
      (legacyJobs.isEmpty = true ∧
          (loadSavedJobsFromPath env (.document value)).2 = .document value ∨
        legacyJobs.isEmpty = false ∧
          writeSavedJobsDocument env jobs =
            .ok (loadSavedJobsFromPath env (.document value)).2) := by
  by_cases hnames : BothNames legacyJobs
  · simp [load_bothNames env h hnames] at hload
  · rw [load_legacy env h hnames] at hload ⊢
    refine ⟨hnames, ?_⟩
    cases hconvert : convertLegacyJobs env legacyJobs with
    | error error => simp [hconvert] at hload
    | ok converted =>
      by_cases hempty : legacyJobs.isEmpty = true
      · obtain rfl : converted = jobs := by simpa [hconvert, hempty] using hload
        exact ⟨rfl, Or.inl ⟨hempty, by simp [hempty]⟩⟩
      · cases hwrite : writeSavedJobsDocument env converted with
        | error error => simp [hconvert, hempty, hwrite] at hload
        | ok rewritten =>
          obtain rfl : converted = jobs := by simpa [hconvert, hempty, hwrite] using hload
          refine ⟨rfl, Or.inr ⟨by simpa using hempty, ?_⟩⟩
          simp [hempty, hwrite]

theorem exists_load_legacy_iff {value : Yaml} {legacyJobs : KeyedMap String LegacyJob}
    (h : readLegacyJobs env value = .ok legacyJobs) :
    (∃ jobs, (loadSavedJobsFromPath env (.document value)).1 = .ok jobs) ↔
      ¬ BothNames legacyJobs ∧ ∀ e ∈ legacyJobs.entries, ∃ job,
        tryFrom env.registry e.2 = .ok job ∧ job.validateForPersistence = .ok () := by
  constructor
  · rintro ⟨jobs, hload⟩
    obtain ⟨hnames, hconvert, hfile⟩ := load_legacy_ok env h hload
    refine ⟨hnames, fun e he => ?_⟩
    obtain ⟨job, hjob⟩ := (exists_convertLegacyJobs_iff env).mp ⟨jobs, hconvert⟩ e he
    refine ⟨job, hjob, ?_⟩
    rcases hfile with ⟨hempty, -⟩ | ⟨-, hwrite⟩
    · rw [KeyedMap.isEmpty, List.isEmpty_iff] at hempty
      simp [hempty] at he
    · exact (rewrite_iff env h hconvert).mp ⟨_, hwrite⟩ e he job hjob
  · rintro ⟨hnames, hentries⟩
    obtain ⟨jobs, hconvert⟩ := (exists_convertLegacyJobs_iff env).mpr fun e he =>
      (hentries e he).imp fun job hjob => hjob.1
    have hpersist : AllPersistable env legacyJobs := by
      intro e he job hjob
      obtain ⟨converted, hconverted, hvalid⟩ := hentries e he
      obtain rfl := Except.ok.inj (hconverted.symm.trans hjob)
      exact hvalid
    obtain ⟨file, hwrite⟩ := (rewrite_iff env h hconvert).mpr hpersist
    refine ⟨jobs, ?_⟩
    rw [load_legacy env h hnames, hconvert]
    cases hempty : legacyJobs.isEmpty <;> simp [hwrite]

/-- A legacy file loads exactly when its entries convert to jobs that may be
persisted and its names do not look like a version. Nothing is lost then: the
jobs are the images of the entries, the file is rewritten unless it holds no
job, and it loads again without a rewrite, with the ambient user for a job
without one. -/
theorem legacy_file_migrates {value : Yaml} {legacyJobs : KeyedMap String LegacyJob}
    (h : readLegacyJobs env value = .ok legacyJobs) :
    ((∃ jobs, (loadSavedJobsFromPath env (.document value)).1 = .ok jobs) ↔
      ¬ BothNames legacyJobs ∧ ∀ e ∈ legacyJobs.entries, ∃ job,
        tryFrom env.registry e.2 = .ok job ∧ job.validateForPersistence = .ok ()) ∧
    ∀ jobs, (loadSavedJobsFromPath env (.document value)).1 = .ok jobs →
      jobs.entries.map (fun e => (e.1, Except.ok e.2)) =
          legacyJobs.entries.map (fun e => (e.1, tryFrom env.registry e.2)) ∧
        jobs.entries.map (fun e => (e.1, jobEffects e.2)) =
          legacyJobs.entries.map (fun e => (e.1, legacyEffects env.registry e.2)) ∧
        (legacyJobs.isEmpty = true ∧
            (loadSavedJobsFromPath env (.document value)).2 = .document value ∨
          ∃ written, (loadSavedJobsFromPath env (.document value)).2 = .document written ∧
            schemaVersion written = .ok (some currentSchemaVersion)) ∧
        loadSavedJobsFromPath env (loadSavedJobsFromPath env (.document value)).2 =
          (.ok (withDefaultUsers env jobs), (loadSavedJobsFromPath env (.document value)).2) := by
  refine ⟨exists_load_legacy_iff env h, fun jobs hload => ?_⟩
  obtain ⟨hnames, hconvert, hfile⟩ := load_legacy_ok env h hload
  refine ⟨converted_images env hconvert, converted_effects env hconvert, ?_, ?_⟩
  · rcases hfile with hkept | ⟨-, hwrite⟩
    · exact Or.inl hkept
    · obtain ⟨-, written, -, hwritten⟩ := writeSavedJobsDocument_eq_ok env hwrite
      exact Or.inr ⟨_, hwritten, schemaVersion_written written⟩
  · rcases hfile with ⟨hempty, hkept⟩ | ⟨-, hwrite⟩
    · rw [hkept, empty_of_converted env hconvert hempty]
      exact Prod.ext hload hkept
    · have hread := readJobsFile_write env (plain_of_converted env h hconvert) hwrite
      generalize (loadSavedJobsFromPath env (.document value)).2 = rewritten at hread
      rw [loadSavedJobsFromPath, hread]

end Migration

section Samples

/-- An environment without sources, locations or a user. -/
def bareEnvironment : Environment :=
  { registry := .empty, uris := ⟨fun _ => none, fun _ => none⟩, ambientUser := none }

/-- The written form of a legacy job that collects from a host to a directory. -/
def collectEntry (host outputDir : String) : Yaml :=
  .mapping [("collect", .mapping [("host", .string host)]), ("action", .string "collect"),
    ("output_dir", .string outputDir)]

def collectJob (host outputDir : String) : LegacyJob :=
  { identifiers := .default none
    collect := ⟨host, "standard", none⟩
    action := .collect (.ofString outputDir) }

/-- A file with a job for each name, all of the same kind. -/
def collectFile (names : List String) : Yaml :=
  .mapping (names.map fun name => (name, collectEntry "prod" "/tmp"))

def collectJobs (names : List String) (hnames : names.Nodup) : KeyedMap String LegacyJob :=
  ⟨names.map fun name => (name, collectJob "prod" "/tmp"), by
    simpa [Function.comp_def] using hnames⟩

theorem collectJob_converts : ∃ job,
    tryFrom bareEnvironment.registry (collectJob "prod" "/tmp") = .ok job ∧
      job.validateForPersistence = .ok () := ⟨_, rfl, rfl⟩

theorem collect_file_migrates :
    readLegacyJobs bareEnvironment (collectFile ["nightly"]) =
        .ok (collectJobs ["nightly"] (by decide)) ∧
      ∃ jobs, (loadSavedJobsFromPath bareEnvironment
        (.document (collectFile ["nightly"]))).1 = .ok jobs := by
  have hread : readLegacyJobs bareEnvironment (collectFile ["nightly"]) =
      .ok (collectJobs ["nightly"] (by decide)) := rfl
  refine ⟨hread, (legacy_file_migrates bareEnvironment hread).1.mpr ⟨?_, ?_⟩⟩
  · rintro ⟨hversion, -⟩
    simp [collectJobs] at hversion
  · intro e he
    obtain rfl : e = ("nightly", collectJob "prod" "/tmp") := by simpa [collectJobs] using he
    exact collectJob_converts

/-- Jobs with the two names of a versioned document are taken for a damaged one. -/
theorem both_names_rejected :
    readLegacyJobs bareEnvironment (collectFile ["schema_version", "jobs"]) =
        .ok (collectJobs ["schema_version", "jobs"] (by decide)) ∧
      ¬ MigratesExactly bareEnvironment (collectFile ["schema_version", "jobs"])
        (collectJobs ["schema_version", "jobs"] (by decide)) := by
  refine ⟨rfl, fun hexact => ?_⟩
  obtain ⟨jobs, hjobs⟩ := hexact.loads.mpr (by
    intro e he
    obtain ⟨name, -, rfl⟩ := List.mem_map.mp he
    exact collectJob_converts.imp fun job hjob => hjob.1)
  have hload : (loadSavedJobsFromPath bareEnvironment
      (.document (collectFile ["schema_version", "jobs"]))).1 =
      .error .invalidSchemaVersion := rfl
  rw [hload] at hjobs
  exact absurd hjobs (by simp)

end Samples

end Esdiag.LegacyMigration
