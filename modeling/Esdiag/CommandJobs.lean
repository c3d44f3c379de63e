import Esdiag.Executor
import Esdiag.HostReferences
import Esdiag.LegacyMigration
import Esdiag.SavedJobStore

/-!
The `collect` and `process` commands with a name to save them under. The direct
run binds the resolved host in an execution context and gives the executor a
job that refers to the binding. The saved job is built apart from it, by the
job builder, from the same arguments, and resolves its host and its output when
it runs. What a job does is read in the same way from both: the host and the
APIs it collects, where it saves, processes and exports, and what it sends.
-/
namespace Esdiag.CommandJobs

open KeyedMaps Deployments KnownHosts SourceRegistry ProcessSelections JobModel SavedJobFiles
  SavedJobStore ApplicationConfigs OutputDeployments HostReferences

structure CollectArgs where
  host : String
  output : String
  diagnosticType : String
  included : Option (List String)
  excluded : Option (List String)
  sources : Option String
  account : Option String
  caseNumber : Option String
  opportunity : Option String
  user : Option String
  sendId : Option String

/-- A prompt for the agent is left out: it is asked about the report once the run ended. -/
structure ProcessArgs where
  input : String
  output : Option String
  account : Option String
  caseNumber : Option String
  opportunity : Option String
  user : Option String
  sources : Option String

inductive Command where
  | collect (args : CollectArgs)
  | process (args : ProcessArgs)

/-- `Identifiers::new`. -/
def newIdentifiers (ambientUser account caseNumber filename opportunity user : Option String) :
    Identifiers where
  account := normalizeIdentifier account
  caseNumber := normalizeIdentifier caseNumber
  filename := normalizeIdentifier filename
  opportunity := normalizeIdentifier opportunity
  user := (normalizeIdentifier user).or (normalizeIdentifier ambientUser)
  parentId := none
  platform := none

/-- What a location text means: a host, or a place that is none. -/
inductive Location (Url : Type) where
  | host (host : ResolvedHost Url)
  | other (uri : Uri)

/-- Where processed documents go. The roles of a host are not part of it. -/
inductive Destination (Url : Type) where
  | cluster (host : KnownHost Url) (attachedViewer : Option (KnownHost Url))
  | file (path : PathBuf)
  | directory (path : PathBuf)
  | stdout

/-- The resources of a run that its job only refers to. -/
structure Context (Url : Type) where
  inputs : KeyedMap BindingKey (Location Url)
  exporters : KeyedMap BindingKey (Destination Url)

/-- What one execution of a job does, apart from generated file names. -/
structure Effects (Url : Type) where
  input : Location Url
  identifiers : Identifiers
  collected : Option (Except String (Finset String))
  savedTo : Option PathBuf
  processed : Option (Except String (Option ProcessSelection))
  exportedTo : Option (Except String (Destination Url))
  sentTo : Option String

section Locations

variable {Url : Type} (world : World Url)

def uriOf (host : ResolvedHost Url) : Uri :=
  match host.host.cloudId with
  | some .elasticCloudAdmin => .elasticCloudAdmin
  | some .elasticGovCloudAdmin => .elasticGovCloudAdmin
  | some .elasticCloud | none => .knownHost

/-- The hosts and files as the draft compiler asks for them. -/
def environment : SavedJobs.Environment where
  isHostReference name := (parseReference world name).map Option.isSome
  resolveHost name :=
    match lookup world name with
    | .error message => .error message
    | .ok none => .error ("Host '" ++ name ++ "' is no longer configured")
    | .ok (some host) => .ok (uriOf host)
  parseUrl := world.parseUrl
  pathExists := world.pathExists
  isDir := world.isDir
  isFile := world.isFile

def isStreamName (value : String) : Bool := value == "-" || value == "stdio://stdout"

/-- `Uri::try_from` for a text, with the host it resolves. -/
def locate (value : String) : Except String (Location Url) :=
  if isStreamName value then .ok (.other .stream)
  else
    match lookup world value with
    | .error message => .error message
    | .ok (some host) => .ok (.host host)
    | .ok none => ((environment world).uriTryFrom value).map .other

variable {Key : Type} (libs : KeystoreOperations.Libraries Key)

/-- A deployment checked for runtime use, with its viewer. -/
def deploymentHost (deployment : Except OutputError (OutputDeployment Url)) :
    Except String (ResolvedHost Url) :=
  match deployment with
  | .error error => .error (world.errorText error)
  | .ok deployment => resolveHost ⟨deployment.elasticsearch, deployment.attachedViewer⟩

/-- `Uri::try_from_default_output`. -/
def defaultOutput : Except String (ResolvedHost Url) :=
  deploymentHost world (OutputDeployments.resolve world.lib libs world.system none false)

/-- `Uri::try_from` for an optional text. -/
def locateOutput (output : Option String) : Except String (Location Url) :=
  match output with
  | some target => locate world target
  | none => (defaultOutput world libs).map .host

/-- `Uri::try_from_output_env`. -/
def environmentOutput : Except String (ResolvedHost Url) :=
  deploymentHost world ((fromEnvironment world.lib (systemAuth libs world.system) world.system
    false).map (.assemble .environment))

end Locations

section Execution

variable {Url Key : Type} (world : World Url) (libs : KeystoreOperations.Libraries Key)
  (env : Environment)

def destinationOf (host : ResolvedHost Url) : Except String (Destination Url) :=
  if uriOf host = .knownHost then
    .ok (.cluster { host.host with roles := [] } host.attachedViewer)
  else .error "Unsupported URI"

def stableCollect (hostName : String) : Except String (Location Url) :=
  let hostKey := Texts.trim hostName
  match lookup world hostKey with
  | .error message => .error message
  | .ok none => .error ("Host '" ++ hostKey ++ "' referenced by job is no longer configured")
  | .ok (some host) =>
    if .collect ∈ host.host.roles then .ok (.host host)
    else .error ("Collect host '" ++ hostKey ++ "' is missing the collect role")

def resolveInput (context : Context Url) : Input → Except String (Location Url)
  | .collect host .. => stableCollect world host
  | .collectBinding binding .. | .loadBinding binding =>
    match context.inputs.find? binding with
    | none => .error ("Runtime input binding '" ++ binding.text ++ "' was not supplied")
    | some input => .ok input
  | .load uri => .ok (.other uri)

def exportHost (name : String) : Except String (Destination Url) :=
  let hostKey := Texts.trim name
  match lookup world hostKey with
  | .error message => .error message
  | .ok none => .error ("Export host '" ++ hostKey ++ "' is no longer configured")
  | .ok (some host) =>
    if .send ∉ host.host.roles then
      .error ("Export host '" ++ hostKey ++ "' is missing the send role")
    else if host.application ≠ .elasticsearch then
      .error ("Export host '" ++ hostKey ++ "' must be an Elasticsearch host")
    else destinationOf host

def resolveDocumentExporter (context : Context Url) :
    ExportTarget → Except String (Destination Url)
  | .binding binding =>
    match context.exporters.find? binding with
    | none =>
      .error ("Runtime document exporter binding '" ++ binding.text ++ "' was not supplied")
    | some destination => .ok destination
  | .knownHost name => exportHost world name
  | .environment =>
    match environmentOutput world libs with
    | .error message => .error message
    | .ok host => destinationOf host
  | .file path => .ok (.file path)
  | .directory outputDir => .ok (.directory outputDir)
  | .stdout => .ok .stdout

/-- The application that a collection is for; what is no host counts as an agent. -/
def applicationOf : Location Url → Application
  | .host host => host.application
  | .other _ => .agent

/-- The sources that the processing stage asks for. -/
def processingEffect (job : Job) (input : Location Url) (process : Process) :
    Except String (Option ProcessSelection) :=
  let derived :=
    if job.input.isCollect then
      collectProcessSelection env.registry (applicationOf input) job.input.collectDiagnosticType
        job.input.collectInclude job.input.collectExclude process.selection
    else .ok none
  match derived with
  | .error message => .error message
  | .ok derived => processingSelection env.registry process.selection derived

/-- A collection that is saved collects its APIs first; one that is not is processed
while it is read, by the selection of the processing stage. -/
def collectionEffect (job : Job) (input : Location Url) :
    Option (Except String (Finset String)) :=
  if job.input.isCollect && job.save.isSome then
    some ((collectorApis env.registry (applicationOf input) job.input.collectDiagnosticType
      job.input.collectInclude job.input.collectExclude).map List.toFinset)
  else none

/-- What the executor does with a job, in the terms of its own steps. -/
def effects (context : Context Url) (job : Job) : Except String (Effects Url) := do
  let input ← resolveInput world context job.input
  pure
    { input
      identifiers := { job.identifiers with filename := none }
      collected := collectionEffect env job input
      savedTo := job.save.bind SaveTarget.dir
      processed := job.process.map (processingEffect env job input)
      exportedTo := job.process.map fun process =>
        resolveDocumentExporter world libs context process.exportTarget
      sentTo := job.send.map SendTarget.uploadId }

end Execution

section Answers

variable {Url Key : Type} (world : World Url) (libs : KeystoreOperations.Libraries Key)

/-- A host as the executor is told of it. -/
def configuredHost {T : Type} (connect : ResolvedHost Url → Except String T)
    (host : ResolvedHost Url) : Executor.ConfiguredHost T where
  roles := host.host.roles
  application := host.application
  connect := connect host

/-- The executor is answered from the configuration; a receiver is the location it reads. -/
structure AnswersFrom (answers : Executor.Answers (Location Url) (Destination Url)) : Prop where
  collectHost (name : String) : answers.collectHost name = (lookup world name).map
    (Option.map fun host => .ok (configuredHost (fun host => .ok (.host host)) host))
  exportHost (name : String) : answers.exportHost name = (lookup world name).map
    (Option.map fun host => .ok (configuredHost destinationOf host))
  openUri (uri : Uri) : answers.openUri uri = .ok (.other uri)
  environmentExporter :
    answers.environmentExporter = (environmentOutput world libs).bind destinationOf
  file (path : PathBuf) : answers.uriExporter (.file path) = .ok (.file path)
  directory (path : PathBuf) : answers.uriExporter (.directory path) = .ok (.directory path)
  stdout : answers.uriExporter .stream = .ok .stdout

variable {world libs} {answers : Executor.Answers (Location Url) (Destination Url)}

theorem executor_resolveDocumentExporter (h : AnswersFrom world libs answers)
    (inputs : KeyedMap BindingKey (Location Url))
    (self : Executor.ExecutionContext (Location Url) (Destination Url)) (target : ExportTarget) :
    self.resolveDocumentExporter answers target =
      resolveDocumentExporter world libs ⟨inputs, self.documentExporters⟩ target := by
  unfold Executor.ExecutionContext.resolveDocumentExporter resolveDocumentExporter
  cases target with
  | binding binding => cases hfound : self.documentExporters.find? binding <;> simp only [hfound]
  | knownHost name =>
    dsimp only
    rw [h.exportHost]
    unfold exportHost
    dsimp only
    generalize lookup world (Texts.trim name) = found
    match found with
    | .error error => rfl
    | .ok none => rfl
    | .ok (some host) =>
      by_cases hsend : .send ∈ host.host.roles
      all_goals simp [Except.map, configuredHost, hsend]
  | environment =>
    simp only [h.environmentExporter]
    cases environmentOutput world libs <;> rfl
  | file path => exact h.file path
  | directory path => exact h.directory path
  | stdout => exact h.stdout

theorem executor_resolveStableCollect (h : AnswersFrom world libs answers) (host : String) :
    (Executor.resolveStableCollect answers host).map Executor.ResolvedInput.receiver =
      stableCollect world host := by
  unfold Executor.resolveStableCollect stableCollect
  dsimp only
  rw [h.collectHost]
  generalize lookup world (Texts.trim host) = found
  match found with
  | .error error => rfl
  | .ok none => rfl
  | .ok (some host) =>
    by_cases hcollect : .collect ∈ host.host.roles
    all_goals simp [Except.map, configuredHost, hcollect]

theorem executor_resolveBinding (inputs : KeyedMap BindingKey (Location Url)) (key : BindingKey)
    (materializeRemote : Bool) :
    (Executor.resolveBinding answers
        (inputs.mapValues fun _ location => .receiver location none none) key materializeRemote
        false).map Executor.ResolvedInput.receiver =
      match inputs.find? key with
      | none => .error ("Runtime input binding '" ++ key.text ++ "' was not supplied")
      | some input => .ok input := by
  unfold Executor.resolveBinding
  rw [KeyedMap.find?_mapValues]
  cases inputs.find? key <;> rfl

/-- The executor reads the input there, unless it downloads it or needs a local bundle. -/
theorem executor_resolve (h : AnswersFrom world libs answers)
    (inputs : KeyedMap BindingKey (Location Url))
    (exporters : KeyedMap BindingKey (Destination Url)) (input : Input) (materializeRemote : Bool)
    (hlocal : ∀ url, input ≠ .load (.serviceLink url)) :
    (Executor.resolve answers (inputs.mapValues fun _ location => .receiver location none none)
        input materializeRemote false).map Executor.ResolvedInput.receiver =
      resolveInput world ⟨inputs, exporters⟩ input := by
  cases input with
  | collect host => exact executor_resolveStableCollect h host
  | collectBinding binding => exact executor_resolveBinding inputs binding materializeRemote
  | loadBinding binding => exact executor_resolveBinding inputs binding materializeRemote
  | load uri =>
    have hopened : (Executor.resolveStableLoad answers uri materializeRemote).map
        Executor.ResolvedInput.receiver = .ok (.other uri) := by
      unfold Executor.resolveStableLoad
      split
      · rw [h.openUri]
        rfl
      · next url => exact absurd rfl (hlocal url)
      · rw [h.openUri]
        rfl
    exact hopened

end Answers

section Sources

variable {Url : Type}

/-- What an override of the sources reads: the file at a path, parsed, and the application
that the manifest of an input names. The registry of a process is set once. -/
structure SourceFiles (Url : Type) where
  read : String → Except String Sources
  manifestApplication : Location Url → Except String (Option Application)
  initialized : Bool

def sourcesApplicationKey (application : Application) : Except String String :=
  if application = .agent then
    .error "--sources is only supported for Elasticsearch, Kibana, and Logstash inputs, got Agent"
  else .ok application.key

def requiredSourceKeys (product : String) : List String :=
  if product = "elasticsearch" then ["version"]
  else if product = "kibana" then ["kibana_status", "kibana_spaces"]
  else if product = "logstash" then ["logstash_node", "logstash_version"]
  else []

def validateSourcesProduct (product : String) (sources : Sources) (label : String) :
    Except String Unit :=
  let missing := (requiredSourceKeys product).filter fun key => (sources.find? key).isNone
  if missing.isEmpty then .ok ()
  else
    .error (label ++ " does not look like a valid " ++ product ++
      " sources.yml; missing required keys: " ++ Texts.join ", " missing)

def initSources (files : SourceFiles Url) (registry : Registry) (product overridePath : String) :
    Except String Registry := do
  let sources ← files.read overridePath
  validateSourcesProduct product sources ("override sources file at " ++ overridePath)
  if files.initialized then .error "Sources already initialized"
  else pure (registry.insert product sources)

/-- The registry of a direct run, with the sources of one product overridden. -/
def runRegistry (files : SourceFiles Url) (registry : Registry)
    (application : Except String Application) : Option String → Except String Registry
  | none => .ok registry
  | some sources => do
    let application ← application
    let product ← sourcesApplicationKey application
    initSources files registry product sources

def detectSourcesApplicationForProcess (files : SourceFiles Url) (input : Location Url) :
    Except String Application :=
  match input with
  | .host host => .ok host.application
  | .other _ =>
    match files.manifestApplication input with
    | .error message => .error message
    | .ok none => .error "--sources is only supported for application diagnostics"
    | .ok (some application) => .ok application

end Sources

section DirectRun

variable {Url Key : Type} (world : World Url) (libs : KeystoreOperations.Libraries Key)
  (env : Environment) (files : SourceFiles Url)

def ensureHostRole (host : ResolvedHost Url) (role : HostRole) (context : String) :
    Except String Unit :=
  if role ∈ host.host.roles then .ok ()
  else
    .error ("Host role validation failed for " ++ context ++ ": required role '" ++ role.key ++
      "' not present")

/-- A job, the resources that it refers to and the registry that it runs with. -/
structure Prepared (Url : Type) where
  job : Job
  context : Context Url
  registry : Registry

def collectInput : BindingKey := ⟨"cli-collect-input"⟩

def processInput : BindingKey := ⟨"cli-process-input"⟩

def processOutput : BindingKey := ⟨"cli-process-output"⟩

def localPath : Location Url → Except String PathBuf
  | .other (.directory path) | .other (.file path) => .ok path
  | _ => .error "Collect output must be a local directory path"

/-- The direct run of `collect`, once its texts are resolved. -/
def collectDirectly (args : CollectArgs) (archiveName : String) (host : ResolvedHost Url)
    (outputDir : PathBuf) (registry : Registry) : Except String (Prepared Url) := do
  let job ← (Job.tryNew
      (newIdentifiers env.ambientUser args.account args.caseNumber (some archiveName)
        args.opportunity args.user)
      (.collectBinding collectInput args.diagnosticType args.included args.excluded)
      (some (.retained outputDir)) none (args.sendId.map SendTarget.mk)).mapError
    JobValidationError.message
  pure ⟨job, ⟨KeyedMap.empty.insert collectInput (.host host), .empty⟩, registry⟩

def prepareCollect (args : CollectArgs) (archiveName : String) :
    Except String (Prepared Url) := do
  let located ← locate world args.host
  let output ← locate world args.output
  match located with
  | .other _ => .error "Collect requires a known host"
  | .host host => do
    ensureHostRole host .collect "collect"
    let registry ← runRegistry files env.registry (.ok host.application) args.sources
    let outputDir ← localPath output
    collectDirectly env args archiveName host outputDir registry

def checkOutputApplication (output : Location Url) (shown : Option String) :
    Except String Unit :=
  match output with
  | .other _ => .ok ()
  | .host host =>
    if uriOf host = .knownHost && host.application ≠ .elasticsearch then
      .error ("Output host '" ++ shown.getD "" ++ "' must be an Elasticsearch host")
    else .ok ()

/-- An output that was named must have the role; a default one was checked before. -/
def checkOutputRole (output : Location Url) (shown : Option String) : Except String Unit :=
  match shown, output with
  | some _, .host host => ensureHostRole host .send "process output"
  | _, _ => .ok ()

/-- Whether a receiver exists for an input. -/
def checkReceiver : Location Url → Except String Unit
  | .host _ | .other (.directory _) | .other (.file _) | .other (.serviceLink _) => .ok ()
  | .other _ => .error "Unsupported URI"

/-- The input of a direct run, and the receiver that it binds. -/
def processJobInput (input : Location Url) : Input × KeyedMap BindingKey (Location Url) :=
  match input with
  | .other (.file path) => (.load (.file path), .empty)
  | .other (.directory path) => (.load (.directory path), .empty)
  | .host _ =>
    (.collectBinding processInput "standard" none none,
      KeyedMap.empty.insert processInput input)
  | .other _ => (.loadBinding processInput, KeyedMap.empty.insert processInput input)

/-- The export of a direct run, and the exporter that it binds. -/
def processExport : Location Url →
    Except String (ExportTarget × KeyedMap BindingKey (Destination Url))
  | .other (.file path) => .ok (.file path, .empty)
  | .other (.directory outputDir) => .ok (.directory outputDir, .empty)
  | .other .stream => .ok (.stdout, .empty)
  | .host host =>
    (destinationOf host).map fun destination =>
      (.binding processOutput, KeyedMap.empty.insert processOutput destination)
  | .other _ => .error "Unsupported URI"

/-- The direct run of `process`, once its texts are resolved. -/
def processDirectly (args : ProcessArgs) (fileName : Option String)
    (input output : Location Url) : Except String (Prepared Url) := do
  checkReceiver input
  let registry ← runRegistry files env.registry
    (detectSourcesApplicationForProcess files input) args.sources
  let exported ← processExport output
  let job ← (Job.tryNew
      (newIdentifiers env.ambientUser args.account args.caseNumber fileName args.opportunity
        args.user)
      (processJobInput input).1 none (some ⟨none, exported.1⟩) none).mapError
    JobValidationError.message
  pure ⟨job, ⟨(processJobInput input).2, exported.2⟩, registry⟩

def prepareProcess (args : ProcessArgs) (fileName : Option String) :
    Except String (Prepared Url) := do
  let input ← locate world args.input
  let output ← locateOutput world libs args.output
  checkOutputApplication output args.output
  checkOutputRole output args.output
  processDirectly env files args fileName input output

/-- The job of a direct run. The name of the archive is generated, the name of the
input comes from its receiver. -/
def prepare (archiveName : String) (fileName : Option String) :
    Command → Except String (Prepared Url)
  | .collect args => prepareCollect world env files args archiveName
  | .process args => prepareProcess world libs env files args fileName

def runDirectly (archiveName : String) (fileName : Option String) (command : Command) :
    Except String (Effects Url) := do
  let prepared ← prepare world libs env files archiveName fileName command
  effects world libs { env with registry := prepared.registry } prepared.context prepared.job

end DirectRun

section SavedRun

variable {Url Key : Type} (world : World Url) (libs : KeystoreOperations.Libraries Key)
  (env : Environment)

def deriveCollectJob (args : CollectArgs) : Except String Job := do
  let builder ← SavedJobs.collectFrom (environment world)
    (newIdentifiers env.ambientUser args.account args.caseNumber none args.opportunity args.user)
    args.host args.diagnosticType
  match args.sendId with
  | some sendId => builder.sendTo sendId
  | none => builder.collectTo args.output

/-- `ElasticOutputContext::host_reference`. -/
def contextReference (context : ElasticOutputContext) : Except String String :=
  let reference := "." ++ context.context ++ ".es"
  if ElasticContextTarget.parse reference =
      .ok (some ⟨some context.context, .elasticsearch, none⟩) then .ok reference
  else
    .error ("Elastic CLI context '" ++ context.context ++ "' cannot be used as an ESDiag output " ++
      "because '" ++ reference ++ "' is not a valid host reference. Context names must not " ++
      "start with '.' or contain '/' or '\\'.")

/-- The output that is saved for a command without one. -/
def configuredOutput : Except String ExportTarget :=
  match ApplicationConfig.load world.system.config with
  | .error error => .error (world.errorText (.config error))
  | .ok config =>
    match config.output.elasticContext with
    | some context => (contextReference context).map .knownHost
    | none =>
      match config.output.default with
      | some name => .ok (.knownHost name)
      | none => .error "Saved jobs require an explicit or configured process output target"

def savedOutput (output : Option String) : Except String ExportTarget :=
  match output with
  | some target => (environment world).fromCliTarget target
  | none => configuredOutput world

def deriveProcessJob (args : ProcessArgs) : Except String Job := do
  let output ← savedOutput world args.output
  let builder ← SavedJobs.collectFrom (environment world)
    (newIdentifiers env.ambientUser args.account args.caseNumber none args.opportunity args.user)
    args.input SavedJobs.defaultDiagnosticType
  builder.processToWithSelection output none

def derive : Command → Except String Job
  | .collect args => deriveCollectJob world env args
  | .process args => deriveProcessJob world env args

/-- `save_job`: the file with the job under the trimmed name. -/
def saveJob (name : String) (job : Job) (file : JobsFile) : Except OperationError JobsFile :=
  match (Operation.saveJob name job).precheck with
  | .error error => .error error
  | .ok () =>
    match (loadSavedJobsFromPath env file).1 with
    | .error error => .error (.store error)
    | .ok jobs =>
      (writeSavedJobsDocument env (jobs.insert (Texts.trim name) job)).mapError .store

def noContext : Context Url := ⟨.empty, .empty⟩

/-- `handle_job_run`. -/
def runSaved (name : String) (file : JobsFile) : Except String (Effects Url) :=
  match (loadSavedJobsFromPath env file).1 with
  | .error error => .error ((SavedJobsError.message error).getD "invalid YAML")
  | .ok jobs =>
    match jobs.find? name with
    | none => .error ("Saved job '" ++ name ++ "' not found")
    | some job =>
      if job.input.hasEmptyHost then
        .error ("Saved job '" ++ name ++ "' has no collection host configured")
      else effects world libs env noContext job

end SavedRun

end Esdiag.CommandJobs
