import Esdiag.JobDocuments

/-!
The file of saved jobs. A versioned document holds the version beside the jobs;
a file of the first version is the bare map of jobs in their former shape, with
one fused action each. Loading such a file converts every entry and rewrites
the file; nothing is written when one entry cannot be converted or persisted.
-/
namespace Esdiag.SavedJobFiles

open KeyedMaps YamlValues Fields Deployments ProcessSelections SourceRegistry JobModel
  JobDocuments

abbrev SavedJobs := KeyedMap String Job

def currentSchemaVersion : ℕ := 2

/-- What the loader depends on besides the file. -/
structure Environment where
  registry : Registry
  uris : UriSerde
  ambientUser : Option String

structure LegacyJobCollect where
  host : String
  diagnosticType : String
  saveDir : Option PathBuf

structure LegacyJobProcessSelection where
  product : String
  diagnosticType : String
  selected : List String

inductive LegacyJobAction where
  | collect (outputDir : PathBuf)
  | upload (uploadId : String)
  | process (output : ExportTarget) (selection : Option LegacyJobProcessSelection)

/-- The former shape of a job, read only to migrate it. -/
structure LegacyJob where
  identifiers : Identifiers
  collect : LegacyJobCollect
  action : LegacyJobAction

inductive SavedJobsError where
  | yaml
  | notAMapping
  | invalidSchemaVersion
  | unsupportedSchemaVersion (version : ℕ)
  | invalidJob (error : JobValidationError)
  | notPersistable (name : String) (error : JobValidationError)
  deriving DecidableEq

/-- The text of an error; the parser's own errors have their own texts. -/
def SavedJobsError.message : SavedJobsError → Option String
  | yaml => none
  | notAMapping => some "Saved jobs file must be a YAML mapping"
  | invalidSchemaVersion => some "Invalid saved jobs schema_version value"
  | unsupportedSchemaVersion version =>
    some ("Unsupported saved jobs schema_version " ++ toString version)
  | invalidJob error => some error.message
  | notPersistable name error =>
    some ("Saved job '" ++ name ++ "' is not persistable: " ++ error.message)

inductive JobsFile where
  | absent
  | blank
  | unparsed
  | document (value : Yaml)

def readLegacySelection (value : Yaml) : Option LegacyJobProcessSelection := do
  let fields ← value.asMapping
  let product ← withDefault "product" Yaml.asString "elasticsearch" fields
  let diagnosticType ← withDefault "diagnostic_type" Yaml.asString "standard" fields
  let selected ← withDefault "selected" readStrings [] fields
  pure { product, diagnosticType, selected }

def readLegacyCollect (value : Yaml) : Option LegacyJobCollect := do
  let fields ← value.asMapping
  let host ← required "host" Yaml.asString fields
  let diagnosticType ← withDefault "diagnostic_type" Yaml.asString "standard" fields
  let saveDir ← ifPresent "save_dir" readPath fields
  pure { host, diagnosticType, saveDir }

/-- The action is flattened into the record of the job. -/
def readLegacyAction (fields : Fields) : Option LegacyJobAction := do
  let action ← required "action" Yaml.asString fields
  if action = "collect" then (required "output_dir" readPath fields).map .collect
  else if action = "upload" then (required "upload_id" Yaml.asString fields).map .upload
  else if action = "process" then do
    let output ← required "output" readExportTarget fields
    let selection ← ifPresent "selection" readLegacySelection fields
    pure (.process output selection)
  else none

def readLegacyJob (ambientUser : Option String) (value : Yaml) : Option LegacyJob := do
  let fields ← value.asMapping
  let identifiers ← withDefault "identifiers" (readIdentifiers ambientUser)
    (Identifiers.default ambientUser) fields
  let collect ← required "collect" readLegacyCollect fields
  let action ← readLegacyAction fields
  pure { identifiers, collect, action }

/-- The keys that the registry resolves, or the authored ones when it does not. -/
def canonicalizeLegacySelection (registry : Registry)
    (selection : Option LegacyJobProcessSelection) : Option ProcessSelection :=
  selection.map fun selection =>
    { product := selection.product
      diagnosticType := selection.diagnosticType
      selected :=
        match resolveProcessingSelection registry selection.product selection.diagnosticType
          selection.selected with
        | .ok selected => selected
        | .error _ => selection.selected }

/-- The stages of a legacy job: each action has one target. -/
def legacyStages (registry : Registry) (legacy : LegacyJob) :
    Option SaveTarget × Option Process × Option SendTarget :=
  let retainedSave := legacy.collect.saveDir.map SaveTarget.retained
  match legacy.action with
  | .collect outputDir => (some (SaveTarget.retained outputDir), none, none)
  | .upload uploadId =>
    (some (retainedSave.getD SaveTarget.temporary), none, some ⟨uploadId⟩)
  | .process output selection =>
    (retainedSave, some ⟨canonicalizeLegacySelection registry selection, output⟩, none)

/-- `TryFrom<LegacyJob>`. -/
def tryFrom (registry : Registry) (legacy : LegacyJob) : Except JobValidationError Job :=
  let input := Input.collect legacy.collect.host legacy.collect.diagnosticType none none
  let stages := legacyStages registry legacy
  Job.tryNew legacy.identifiers input stages.1 stages.2.1 stages.2.2

/-- The version of a document; none is the first. A job may be called like the
version key, but then no job may be called like the key beside it. -/
def schemaVersion (value : Yaml) : Except SavedJobsError (Option ℕ) :=
  match value.asMapping with
  | none => .error .notAMapping
  | some fields =>
    match findEntry "schema_version" fields with
    | none => .ok none
    | some (.mapping _) =>
      if (findEntry "jobs" fields).isSome then .error .invalidSchemaVersion else .ok none
    | some version =>
      match version.asUnsigned (2 ^ 32) with
      | none => .error .invalidSchemaVersion
      | some version => .ok (some version)

def readLegacyJobs (env : Environment) (value : Yaml) :
    Except SavedJobsError (KeyedMap String LegacyJob) :=
  readMap .yaml (readLegacyJob env.ambientUser) value

def convertLegacyJobs (env : Environment) (legacyJobs : KeyedMap String LegacyJob) :
    Except SavedJobsError SavedJobs :=
  (legacyJobs.traverse fun _ legacy => tryFrom env.registry legacy).mapError .invalidJob

def readSavedJobsDocument (env : Environment) (value : Yaml) : Except SavedJobsError SavedJobs :=
  match value.asMapping.bind (findEntry "jobs") with
  | none => .error .yaml
  | some jobs => readMap .yaml (readJob env.uris env.ambientUser) jobs

/-- The jobs of a file, and whether the file has to be rewritten. -/
def readJobsFile (env : Environment) : JobsFile → Except SavedJobsError (SavedJobs × Bool)
  | .absent | .blank => .ok (.empty, false)
  | .unparsed => .error .yaml
  | .document value =>
    match schemaVersion value with
    | .error error => .error error
    | .ok none =>
      match readLegacyJobs env value with
      | .error error => .error error
      | .ok legacyJobs =>
        match convertLegacyJobs env legacyJobs with
        | .error error => .error error
        | .ok jobs => .ok (jobs, !legacyJobs.isEmpty)
    | .ok (some version) =>
      if version = currentSchemaVersion then
        match readSavedJobsDocument env value with
        | .error error => .error error
        | .ok jobs => .ok (jobs, false)
      else .error (.unsupportedSchemaVersion version)

def validatePersistable (name : String) (job : Job) : Except SavedJobsError Unit :=
  job.validateForPersistence.mapError (.notPersistable name)

/-- The file that replaces the old one at once, or an error before any write. -/
def writeSavedJobsDocument (env : Environment) (jobs : SavedJobs) :
    Except SavedJobsError JobsFile :=
  match jobs.traverse validatePersistable with
  | .error error => .error error
  | .ok _ =>
    match writeMap (writeJob env.uris) jobs with
    | none => .error .yaml
    | some written =>
      .ok (.document (.mapping [("schema_version", .int currentSchemaVersion), ("jobs", written)]))

/-- The jobs of a file and the file after the load. -/
def loadSavedJobsFromPath (env : Environment) (file : JobsFile) :
    Except SavedJobsError SavedJobs × JobsFile :=
  match readJobsFile env file with
  | .error error => (.error error, file)
  | .ok (jobs, false) => (.ok jobs, file)
  | .ok (jobs, true) =>
    match writeSavedJobsDocument env jobs with
    | .error error => (.error error, file)
    | .ok rewritten => (.ok jobs, rewritten)

end Esdiag.SavedJobFiles
