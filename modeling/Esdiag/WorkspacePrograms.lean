import Esdiag.CommandJobs
import Esdiag.ConfigReferences
import Esdiag.Onboarding
import Esdiag.SharedCells

/-!
The requests that change the saved hosts and the application configuration, as
programs over the files and over what the server keeps in memory. Each request
loads a file whole, changes what it loaded and writes the file whole again, and
no lock is held from the load to the write. The forms of the settings pages, the
selection of the output and the steps of the onboarding are all of this kind.
-/
namespace Esdiag.WorkspacePrograms

open KeyedMaps KeyedUpdates Deployments Keystores KeystoreOperations KnownHosts HostFiles
  HostBuilders JobModel SavedJobFiles ApplicationConfigs OutputDeployments SettingsForms
  SettingsRenames HostReferences ConfigReferences Onboarding SharedCells

/-- What the requests share: the files, and the output that the server has in use. -/
inductive Cell where
  | keystore
  | hosts
  | jobs
  | config
  | settings
  | exporter
  | kibanaUrl
  deriving DecidableEq

structure ElasticsearchExporter (Url : Type) where
  url : Url
  acceptInvalidCerts : Bool
  auth : Auth
  requiresSecret : Bool
  kibanaViewer : Option (KnownHost Url)

inductive Exporter (Url : Type) where
  | elasticsearch (exporter : ElasticsearchExporter Url)
  | other (targetUri : String)

@[reducible] def Content (Url : Type) : Cell → Type
  | .keystore => SealedFile
  | .hosts => HostsFile
  | .jobs => JobsFile
  | .config => ConfigFile
  | .settings => SettingsFile
  | .exporter => Exporter Url
  | .kibanaUrl => String

inductive RequestError where
  | form (error : UpsertError)
  | config (error : ConfigError)
  | jobs (error : SavedJobsError)
  | reference (error : ReferenceError)
  | credential (error : KeystoreMigration.ResolveError)
  | io

/-- What the requests depend on besides the cells. -/
structure Server (Url Key : Type) where
  world : World Url
  libs : Libraries Key
  env : SavedJobFiles.Environment
  userMode : Bool
  onboarding : Bool
  buildsClient : Url → Auth → Bool → Bool
  connects : KnownHost Url → Bool
  exporterFromText : String → Except String (Exporter Url)

/-- How the writes of one request fare. -/
structure Faults extends Disk where
  jobsFail : Bool
  stampFails : Bool
  creation : WriteAttempt
  backupFails : Bool

abbrev Request (Url : Type) (α : Type) := Program (Content Url) RequestError α

section Cells

variable {Url : Type}

def refuse {α : Type} (message : String) : Request Url α :=
  .done (.error (.form (.refused message)))

def lift {ε α : Type} (wrap : ε → RequestError) (result : Except ε α) : Request Url α :=
  .done (result.mapError wrap)

def peek (k : Cell) : Request Url (Content Url k) := .peek k fun content => .done (.ok content)

def load (k : Cell) : Request Url (Content Url k) := .load k fun content => .done (.ok content)

def store (k : Cell) (change : Content Url k → Content Url k) : Request Url Unit :=
  .store k change (.done (.ok ()))

def whenever (condition : Bool) (request : Request Url Unit) : Request Url Unit :=
  if condition then request else pure ()

end Cells

section Files

variable {Url : Type} (lib : UrlLibrary Url)

def loadHosts : Request Url (KeyedMap String (KnownHost Url)) := do
  let file ← load .hosts
  lift (.form ∘ .hosts) (parseHostsYml lib file)

/-- `KnownHost::get_known`. -/
def getKnown (name : String) : Request Url (Option (KnownHost Url)) := do
  let file ← peek .hosts
  pure ((parseHostsYml lib file).toOption.bind fun hosts => hosts.find? name)

/-- A hosts file with its hosts changed and brought into the form in which they are written. -/
def rewriteHosts (change : KeyedMap String (KnownHost Url) → KeyedMap String (KnownHost Url))
    (file : HostsFile) : HostsFile :=
  match parseHostsYml lib file with
  | .error _ => file
  | .ok hosts =>
    match (change hosts).traverse normalizeForWrite with
    | .error _ => file
    | .ok written => hostsDocument lib written

/-- `KnownHost::write_hosts_yml`, for hosts that were loaded and then changed. The file is read
once more, for the reserved names in it. -/
def writeHosts (outcome : HostsWrite) (hosts : KeyedMap String (KnownHost Url))
    (change : KeyedMap String (KnownHost Url) → KeyedMap String (KnownHost Url)) :
    Request Url Unit := do
  let current ← peek .hosts
  match normalizeHosts lib current (change hosts), outcome with
  | .error error, _ => .done (.error (.form (.hosts error)))
  | .ok _, .completes => store .hosts (rewriteHosts lib change)
  | .ok _, .createFails => .done (.error (.form (.hosts .io)))
  | .ok _, .interrupted left => .store .hosts (fun _ => left) (.done (.error (.form (.hosts .io))))
  | .ok _, .unflushed left => store .hosts fun _ => left

def loadConfig : Request Url ApplicationConfig := do
  let file ← load .config
  lift .config (ApplicationConfig.load file)

def rewriteConfig (change : ApplicationConfig → ApplicationConfig) (file : ConfigFile) :
    ConfigFile :=
  match ApplicationConfig.load file with
  | .error _ => file
  | .ok config => .document (change config)

/-- `ApplicationConfig::save`, for a configuration that was loaded and then changed. -/
def saveConfig (ioFails : Bool) (config : ApplicationConfig)
    (change : ApplicationConfig → ApplicationConfig) : Request Url ApplicationConfig := do
  lift .config (change config).validateVersion
  if ioFails then .done (.error (.config .io))
  else
    store .config (rewriteConfig change)
    pure (change config)

def undefer (config : ApplicationConfig) : ApplicationConfig :=
  { config with collectionDeferred := false }

def clearCollectionDeferral (ioFails : Bool) : Request Url Unit := do
  let config ← loadConfig
  whenever config.collectionDeferred do
    let _ ← saveConfig ioFails config undefer

def saveSettings (outcome : SettingsWrite) (settings : Settings) : Request Url Unit :=
  match outcome with
  | .completes => store .settings fun _ => .document settings
  | .fails left => .store .settings (fun _ => left) (.done (.error (.form .settings)))

/-- `load_saved_jobs`; a file in an older layout is rewritten at once. -/
def loadSavedJobs (env : SavedJobFiles.Environment) : Request Url SavedJobs := do
  let file ← load .jobs
  match readJobsFile env file with
  | .error error => .done (.error (.jobs error))
  | .ok (jobs, false) => pure jobs
  | .ok (jobs, true) =>
    let written ← lift .jobs (writeSavedJobsDocument env jobs)
    store .jobs fun _ => written
    pure jobs

def saveSavedJobs (env : SavedJobFiles.Environment) (ioFails : Bool) (jobs : SavedJobs) :
    Request Url Unit := do
  let written ← lift .jobs (writeSavedJobsDocument env jobs)
  if ioFails then .done (.error .io) else store .jobs fun _ => written

/-- `upsert_secret_auth`. -/
def upsertSecret {Key : Type} (libs : Libraries Key) (attempt : WriteAttempt) (secretId : String)
    (auth : SecretAuth) (password : String) : Request Url Unit := do
  let file ← load .keystore
  match (upsertSecretAuth libs file secretId auth password attempt).1 with
  | .error error => .done (.error (.form (.keystore error)))
  | .ok () =>
    store .keystore fun file => (upsertSecretAuth libs file secretId auth password attempt).2

/-- `upsert_secret_auth_batch`. -/
def upsertSecretBatch {Key : Type} (libs : Libraries Key) (attempt : WriteAttempt)
    (entries : List (String × SecretAuth)) (password : String) : Request Url Unit := do
  let file ← load .keystore
  match (upsertSecretAuthBatch libs file entries password attempt).1 with
  | .error error => .done (.error (.form (.keystore error)))
  | .ok () =>
    store .keystore fun file => (upsertSecretAuthBatch libs file entries password attempt).2

/-- `authenticate`: the password of a keystore is checked, or a keystore is made with it. -/
def authenticate {Key : Type} (libs : Libraries Key) (attempt : WriteAttempt) (password : String) :
    Request Url Unit := do
  if keystoreExists (← peek .keystore) then
    let file ← peek .keystore
    lift (.form ∘ .keystore) (validateExistingKeystorePassword libs file password)
  else
    let file ← load .keystore
    match (createKeystore libs file password attempt).1 with
    | .error error => .done (.error (.form (.keystore error)))
    | .ok () => store .keystore fun file => (createKeystore libs file password attempt).2

end Files

section Forms

variable {Url Key : Type} (server : Server Url Key) (faults : Faults)

/-- The hosts after a change, with the names that give way and the entries that come. -/
def changeHosts (change : HostChange Url) :
    KeyedMap String (KnownHost Url) → KeyedMap String (KnownHost Url) :=
  replaceEntries (change.renamed.map Prod.fst) change.added

/-- Save a form of hosts, which is checked against the keystore before. -/
def upsertHosts (checked : SealedFile → Except UpsertError (HostChange Url)) :
    Request Url Unit := do
  let keystore ← peek .keystore
  let change ← lift .form (checked keystore)
  let hosts ← loadHosts server.world.lib.toUrlLibrary
  let settingsFile ← peek .settings
  let settings ← lift .form (Settings.load settingsFile)
  let plan := planHosts change hosts settings
  writeHosts server.world.lib.toUrlLibrary faults.hosts hosts (changeHosts change)
  whenever plan.clearsDeferral (clearCollectionDeferral faults.configFails)
  whenever plan.settingsChanged (saveSettings faults.settings plan.settings)

def applyUpsertHost (session : KeystoreSession) (form : HostUpsertForm) : Request Url Unit :=
  upsertHosts server faults (checkedHost server.world.lib.toQueryLibrary server.libs session form)

def applyUpsertCluster (session : KeystoreSession) (form : ClusterUpsertForm) :
    Request Url Unit :=
  upsertHosts server faults
    (checkedCluster server.world.lib.toQueryLibrary server.libs session form)

end Forms

section Onboarding

variable {Url Key : Type} (server : Server Url Key) (faults : Faults)

def addHosts (added : List (String × KnownHost Url)) :
    KeyedMap String (KnownHost Url) → KeyedMap String (KnownHost Url) :=
  replaceEntries [] added

def validateName (name kind : String) : Request Url Unit :=
  if Texts.isBlank name then refuse (kind ++ " name cannot be empty") else pure ()

/-- What the resolution of an output reads, with the files as they are read for it. -/
def readSystem : Request Url System := do
  let config ← peek .config
  let hosts ← peek .hosts
  let keystore ← peek .keystore
  pure { server.world.system with config, hosts, keystore }

def inspect : Request Url OnboardingReadiness := do
  let configFile ← peek .config
  let config ← lift .config (ApplicationConfig.load configFile)
  let hostsFile ← peek .hosts
  let hosts ← lift (.form ∘ .hosts) (parseHostsYml server.world.lib.toUrlLibrary hostsFile)
  let jobs ← loadSavedJobs server.env
  let system ← readSystem server
  pure (readiness server.world.lib server.libs system config hosts jobs)

def setUser (user : String) (config : ApplicationConfig) : ApplicationConfig :=
  { config with user := some user }

def saveUser (user : String) : Request Url ApplicationConfig := do
  if Texts.trim user = "" then refuse "A default diagnostic user is required"
  else
    let config ← loadConfig
    saveConfig faults.configFails config (setUser (Texts.trim user))

/-- Another workflow has its own collection, which is not put off. -/
def setWorkflow (workflow : OnboardingWorkflow) (config : ApplicationConfig) : ApplicationConfig :=
  { config with
    workflow := some workflow
    collectionDeferred := config.workflow == some workflow && config.collectionDeferred }

def saveWorkflow (workflow : OnboardingWorkflow) : Request Url ApplicationConfig := do
  let config ← loadConfig
  saveConfig faults.configFails config (setWorkflow workflow)

/-- Why the collection of diagnostics may not be put off. -/
def deferralRefusal (readiness : OnboardingReadiness) : Option String :=
  if !readiness.userConfigured then
    some "Configure a diagnostic user before deferring the diagnostic source"
  else
    match readiness.workflow with
    | some .collectOnly =>
      if readiness.collectHostConfigured then some "A diagnostic source is already configured"
      else none
    | some .collectAndProcess =>
      if readiness.outputConfigured && (readiness.outputFromEnvironment ||
          !readiness.outputRequiresKeystore || readiness.keystoreReady) then
        if readiness.collectHostConfigured then some "A diagnostic source is already configured"
        else none
      else some "Configure the diagnostic output before deferring the diagnostic source"
    | some .processExisting | none =>
      some "The selected workflow does not use a diagnostic source"

def defer (config : ApplicationConfig) : ApplicationConfig :=
  { config with collectionDeferred := true }

def deferCollection : Request Url ApplicationConfig := do
  let readiness ← inspect server
  match deferralRefusal readiness with
  | some message => refuse message
  | none =>
    let config ← loadConfig
    saveConfig faults.configFails config defer

structure OutputDeploymentInput (Url : Type) where
  outputName : String
  outputUrl : Url
  viewerName : String
  viewerUrl : Url
  secretId : String
  auth : SecretAuth

structure CollectHostInput (Url : Type) where
  name : String
  app : Application
  url : Url
  secretId : Option String
  auth : Option SecretAuth

def outputHost (input : OutputDeploymentInput Url) : Except String (KnownHost Url) :=
  let builder := { KnownHostBuilder.new input.outputUrl with
    app := some .elasticsearch
    roles := [.send]
    viewer := some input.viewerName
    secret := some input.secretId }
  builder.buildWithSecretAuth server.world.lib.toQueryLibrary

def viewerHost (input : OutputDeploymentInput Url) : Except String (KnownHost Url) :=
  let builder := { KnownHostBuilder.new input.viewerUrl with
    app := some .kibana
    roles := [.view]
    secret := some input.secretId }
  builder.buildWithSecretAuth server.world.lib.toQueryLibrary

/-- `OutputConfig::select_saved_host`. -/
def selectSavedHost (name : String) (config : ApplicationConfig) : ApplicationConfig :=
  { config with output := { config.output with default := some name, elasticContext := none } }

def saveOutputDeployment (input : OutputDeploymentInput Url) (keystorePassword : String) :
    Request Url ApplicationConfig := do
  validateName input.outputName "output host"
  validateName input.viewerName "Kibana viewer"
  validateName input.secretId "secret"
  if input.outputName = input.viewerName then
    refuse "Output host and Kibana viewer names must differ"
  else
    upsertSecret server.libs faults.upsert input.secretId input.auth keystorePassword
    let output ← lift (.form ∘ .refused) (outputHost server input)
    let viewer ← lift (.form ∘ .refused) (viewerHost server input)
    let hosts ← loadHosts server.world.lib.toUrlLibrary
    writeHosts server.world.lib.toUrlLibrary faults.hosts hosts
      (addHosts [(input.outputName, output), (input.viewerName, viewer)])
    let config ← loadConfig
    saveConfig faults.configFails config (selectSavedHost input.outputName)

/-- The secret of a host to collect from, where there is one and it is given. -/
def saveCollectSecret (input : CollectHostInput Url) (keystorePassword : Option String) :
    Request Url Unit :=
  match input.secretId, input.auth, keystorePassword with
  | some secretId, some auth, some password =>
    upsertSecret server.libs faults.upsert secretId auth password
  | some _, none, _ | none, none, _ => pure ()
  | _, _, _ =>
    refuse ("Collect-host credentials require a secret id, authentication value, and unlocked " ++
      "keystore")

def collectHost (input : CollectHostInput Url) : Except String (KnownHost Url) :=
  let builder := { KnownHostBuilder.new input.url with
    app := some input.app
    roles := [.collect]
    secret := input.secretId }
  match input.auth with
  | some _ => builder.buildWithSecretAuth server.world.lib.toQueryLibrary
  | none => builder.build server.world.lib.toQueryLibrary

def withRole (role : HostRole) (host : KnownHost Url) : KnownHost Url :=
  if role ∈ host.roles then host else { host with roles := host.roles ++ [role] }

def saveCollectHost (input : CollectHostInput Url) (keystorePassword : Option String) :
    Request Url Unit := do
  validateName input.name "collect host"
  let hosts ← loadHosts server.world.lib.toUrlLibrary
  match hosts.find? input.name with
  | some existing =>
    writeHosts server.world.lib.toUrlLibrary faults.hosts hosts
      (addHosts [(input.name, withRole .collect existing)])
    clearCollectionDeferral faults.configFails
  | none =>
    saveCollectSecret server faults input keystorePassword
    let host ← lift (.form ∘ .refused) (collectHost server input)
    writeHosts server.world.lib.toUrlLibrary faults.hosts hosts (addHosts [(input.name, host)])
    clearCollectionDeferral faults.configFails

def replaceCollectHost (input : CollectHostInput Url) (keystorePassword : Option String) :
    Request Url Unit := do
  validateName input.name "collect host"
  saveCollectSecret server faults input keystorePassword
  let host ← lift (.form ∘ .refused) (collectHost server input)
  let hosts ← loadHosts server.world.lib.toUrlLibrary
  writeHosts server.world.lib.toUrlLibrary faults.hosts hosts (addHosts [(input.name, host)])
  clearCollectionDeferral faults.configFails

/-- `ApplicationConfig::validate_references`. -/
def validateReferences (config : ApplicationConfig) : Request Url Unit := do
  lift .config config.validateVersion
  let file ← peek .hosts
  let hosts ← lift (.form ∘ .hosts) (parseHostsYml server.world.lib.toUrlLibrary file)
  lift .reference (validateOutput server.world.system.elasticConfig config.output hosts)
  match config.job.default with
  | none => pure ()
  | some jobName =>
    let jobs ← loadSavedJobs server.env
    if (jobs.find? jobName).isNone then
      refuse ("Configured default job '" ++ jobName ++ "' was not found")
    else pure ()

def setDefaultJob (name : String) (config : ApplicationConfig) : ApplicationConfig :=
  { config with job := ⟨some name⟩ }

def saveDefaultJob (name : String) (job : Job) : Request Url ApplicationConfig := do
  validateName name "default job"
  let jobs ← loadSavedJobs server.env
  saveSavedJobs server.env faults.jobsFail (jobs.insert name job)
  let config ← loadConfig
  validateReferences server (setDefaultJob name config)
  saveConfig faults.configFails config (setDefaultJob name)

/-- The job that collects from a host and processes what it collects. -/
def processingJob (system : System) (collectHost : String) (output : ExportTarget) :
    Except String Job := do
  let builder ← SavedJobs.collectFrom
    (CommandJobs.environment { server.world with system }) (.default server.env.ambientUser)
    collectHost SavedJobs.defaultDiagnosticType
  builder.processToWithSelection output none

/-- The output of a default job: the one that the environment declares, or the configured one. -/
def defaultJobOutput (config : ApplicationConfig) : Option ExportTarget :=
  if runtimeOutputIsDeclared server.world.system then some .environment
  else config.output.default.map .knownHost

def saveDefaultProcessingJob (name collectHost : String) : Request Url ApplicationConfig := do
  validateName name "default job"
  match ← getKnown server.world.lib.toUrlLibrary collectHost with
  | none => refuse ("Configured collect host '" ++ collectHost ++ "' was not found")
  | some collect =>
    if .collect ∉ collect.roles then
      refuse ("Configured collect host '" ++ collectHost ++ "' must include role 'collect'")
    else
      let file ← peek .config
      let config ← lift .config (ApplicationConfig.load file)
      match defaultJobOutput server config with
      | none =>
        refuse "A validated output deployment is required before creating a default job"
      | some output =>
        let system ← readSystem server
        let job ← lift (.form ∘ .refused) (processingJob server system collectHost output)
        saveDefaultJob server faults name job

end Onboarding

section Outputs

variable {Url Key : Type} (server : Server Url Key) (faults : Faults)

def Exporter.targetUri (lib : UrlLibrary Url) : Exporter Url → String
  | .elasticsearch exporter => lib.display exporter.url
  | .other targetUri => targetUri

/-- The saved viewer of an output, where it can be one. -/
def savedViewer (host : KnownHost Url) : Request Url (Option (KnownHost Url)) :=
  match host.viewer with
  | none => pure none
  | some viewerName => do
    let viewer ← getKnown server.world.lib.toUrlLibrary viewerName
    pure (viewer.filter fun viewer => hasRole viewer .view && viewer.app = some .kibana)

/-- The credential of a host, from the keystore where it is a reference. -/
def resolveCredential (password : Option String) (host : KnownHost Url) : Request Url Auth := do
  let keystore ← peek .keystore
  lift .credential (KeystoreMigration.resolve server.libs keystore
    (password.or server.world.system.keystorePassword) host.credential)

/-- `Exporter::try_from` for a saved host. -/
def exporterTryFrom (password : Option String) (host : KnownHost Url) :
    Request Url (Exporter Url) :=
  if host.app ≠ some .elasticsearch then refuse "Export requires an Elasticsearch application host"
  else do
    let viewer ← savedViewer server host
    let required ← resolveCredential server password host
    match host.url with
    | none =>
      refuse "Template-backed hosts must be resolved into a concrete URL before runtime use"
    | some url =>
      let _ ← lift (.form ∘ .refused) (resolveHost ⟨host, none⟩)
      let auth ← resolveCredential server password host
      if server.buildsClient url auth host.acceptInvalidCerts then
        pure (.elasticsearch
          { url
            acceptInvalidCerts := host.acceptInvalidCerts
            auth
            requiresSecret := required != .none
            kibanaViewer := viewer.filter fun viewer => viewer.url.isSome })
      else refuse "The client for the output host could not be built"

structure UpdateSettingsForm where
  target : Option String
  kibanaUrl : Option String

/-- A target that is selected is a saved host that sends, with a saved viewer. -/
def checkTarget (target : String) : Request Url Unit := do
  match ← getKnown server.world.lib.toUrlLibrary target with
  | none =>
    refuse ("Output settings now require a saved linked Elasticsearch and Kibana deployment. " ++
      "Use /welcome or /settings.")
  | some host =>
    if !hasRole host .send then
      refuse ("Output target '" ++ target ++ "' is not a send-capable host.")
    else
      match host.viewer with
      | none => refuse ("Output target '" ++ target ++ "' has no linked Kibana viewer.")
      | some viewerName =>
        match ← getKnown server.world.lib.toUrlLibrary viewerName with
        | none => refuse ("Output target '" ++ target ++ "' references an unknown Kibana viewer.")
        | some viewer =>
          if hasRole viewer .view then pure ()
          else refuse ("Output target '" ++ target ++ "' has an invalid Kibana viewer.")

/-- The exporter to a target that is selected; the host is looked up once more. -/
def targetExporter (password : Option String) (target : String) (current : Exporter Url) :
    Request Url (Exporter Url) := do
  match ← getKnown server.world.lib.toUrlLibrary target with
  | some host =>
    if host.credential.secretReference.isSome && password.isNone then
      refuse "Keystore is locked. Unlock it before selecting secure saved outputs."
    else exporterTryFrom server password host
  | none =>
    if target = current.targetUri server.world.lib.toUrlLibrary then pure current
    else lift (.form ∘ .refused) (server.exporterFromText target)

/-- The address of the viewer of a saved host. -/
def viewerAddress (host : Option (KnownHost Url)) : Request Url (Option String) :=
  match host.bind KnownHost.viewer with
  | none => pure none
  | some viewerName => do
    let viewer ← getKnown server.world.lib.toUrlLibrary viewerName
    pure ((viewer.bind KnownHost.url).map server.world.lib.display)

def setKibanaUrl : Option String → Request Url Unit
  | none => pure ()
  | some kibanaUrl => store .kibanaUrl fun _ => kibanaUrl

def targetChanged (config : ApplicationConfig) (current : Exporter Url) (target : String) : Bool :=
  target ≠ "" && target ≠
    config.output.default.getD (current.targetUri server.world.lib.toUrlLibrary)

/-- The exporter is put into use, after the address of the viewer where there is one. -/
def serveTarget (target : String) (exporter : Exporter Url) : Request Url Unit := do
  let host ← getKnown server.world.lib.toUrlLibrary target
  let kibanaUrl ← viewerAddress server host
  setKibanaUrl kibanaUrl
  store .exporter fun _ => exporter

/-- A target other than the one in use is checked, saved and put into use. -/
def selectTarget (password : Option String) (config : ApplicationConfig) (current : Exporter Url)
    (target : String) : Request Url Unit := do
  checkTarget server target
  let exporter ← targetExporter server password target current
  let _ ← saveConfig faults.configFails config (selectSavedHost target)
  serveTarget server target exporter

/-- The same output is saved and put into use once more. -/
def keepTarget (config : ApplicationConfig) (current : Exporter Url) : Request Url Unit := do
  let _ ← saveConfig faults.configFails config id
  store .exporter fun _ => current

def takeTarget (password : Option String) (config : ApplicationConfig) (current : Exporter Url)
    (target : String) : Request Url Unit :=
  if target = "new_host" then
    refuse ("Inline host creation from output settings is no longer supported. " ++
      "Use /settings instead.")
  else if targetChanged server config current target then
    selectTarget server faults password config current target
  else keepTarget faults config current

def updateSettings (password : Option String) (form : UpdateSettingsForm) : Request Url Unit := do
  if !server.userMode then setKibanaUrl form.kibanaUrl
  else
    let config ← loadConfig
    let current ← peek .exporter
    takeTarget server faults password config current (Texts.trim (form.target.getD ""))

structure OutputForm where
  outputName : String
  outputUrl : String
  viewerName : String
  viewerUrl : String
  apiKey : String
  replace : Option String

def OutputForm.deployment (form : OutputForm) (outputUrl viewerUrl : Url) :
    OutputDeploymentInput Url where
  outputName := form.outputName
  outputUrl := outputUrl
  viewerName := form.viewerName
  viewerUrl := viewerUrl
  secretId := form.outputName
  auth := .apiKey (Texts.trim form.apiKey)

/-- Whether a name of the form is the name of a host or of a secret already. -/
def outputNameTaken (form : OutputForm) (keystorePassword : String) : Request Url Bool := do
  let output ← getKnown server.world.lib.toUrlLibrary form.outputName
  let viewer ← getKnown server.world.lib.toUrlLibrary form.viewerName
  let keystore ← peek .keystore
  pure (output.isSome || viewer.isSome ||
    ((listSecretNames server.libs keystore keystorePassword).toOption.getD []).contains
      form.outputName)

/-- A host that is only made to test a connection. -/
def validationHost (url : Url) (app : Application) (auth : SecretAuth) :
    Except String (KnownHost Url) :=
  { KnownHostBuilder.new url with app := some app, auth := .ofSecret auth }.build
    server.world.lib.toQueryLibrary

/-- `Client::try_from` for such a host. -/
def clientTryFrom (host : KnownHost Url) (auth : SecretAuth) : Except String Unit := do
  let resolved ← resolveHost ⟨host, none⟩
  match CommandJobs.uriOf resolved, host.url with
  | .knownHost, some url =>
    if server.buildsClient url (.ofSecret auth) host.acceptInvalidCerts then .ok ()
    else .error "The client for the host could not be built"
  | _, _ => .error "Unsupported URI"

/-- Both endpoints of an output are tested before anything is written. -/
def testEndpoints (outputUrl viewerUrl : Url) (auth : SecretAuth) : Except String Unit := do
  let output ← validationHost server outputUrl .elasticsearch auth
  let viewer ← validationHost server viewerUrl .kibana auth
  clientTryFrom server output auth
  clientTryFrom server viewer auth
  if server.connects output && server.connects viewer then .ok ()
  else
    .error ("The Elasticsearch and Kibana output endpoints must both validate before " ++
      "configuration is changed.")

def stampAuthenticated (now : String) (config : ApplicationConfig) : ApplicationConfig :=
  { config with output := { config.output with authenticatedOn := some now } }

def serveOutput (input : OutputDeploymentInput Url) (keystorePassword : String) :
    Request Url Unit := do
  match ← getKnown server.world.lib.toUrlLibrary input.outputName with
  | none => refuse "The saved Elasticsearch output host could not be reloaded."
  | some output =>
    let exporter ← exporterTryFrom server (some keystorePassword) output
    store .exporter fun _ => exporter
    store .kibanaUrl fun _ => server.world.lib.display input.viewerUrl

/-- An output that was tested is saved, stamped and put into use. -/
def adoptOutput (now : String) (input : OutputDeploymentInput Url) (keystorePassword : String) :
    Request Url Unit := do
  let _ ← saveOutputDeployment server faults input keystorePassword
  let config ← loadConfig
  let _ ← saveConfig faults.stampFails config (stampAuthenticated now)
  serveOutput server input keystorePassword

def saveOutputStage (now : String) (form : OutputForm) (keystorePassword : String) :
    Request Url Unit := do
  let outputUrl ← lift .form
    (parseUrl server.world.lib.toQueryLibrary "Invalid Elasticsearch URL" form.outputUrl)
  let viewerUrl ← lift .form
    (parseUrl server.world.lib.toQueryLibrary "Invalid Kibana URL" form.viewerUrl)
  let input := form.deployment outputUrl viewerUrl
  if Texts.trim form.apiKey = "" then refuse "An output API key is required."
  else
    let taken ← outputNameTaken server form keystorePassword
    if taken && form.replace.isNone then
      refuse "A matching output name already exists. Confirm replacement to continue."
    else
      lift (.form ∘ .refused) (testEndpoints server outputUrl viewerUrl input.auth)
      adoptOutput server faults now input keystorePassword

/-- The exporter to the output of the configuration, with the password where it needs one. -/
def reloadedExporter (password : Option String) (output : KnownHost Url) :
    Request Url (Exporter Url) :=
  if output.credential.secretReference.isSome then
    match password with
    | none => refuse "Unlock the keystore before using the configured output."
    | some password => exporterTryFrom server (some password) output
  else exporterTryFrom server none output

def reloadOutput (password : Option String) (outputName : String) : Request Url Unit := do
  match ← getKnown server.world.lib.toUrlLibrary outputName with
  | none => refuse "The configured Elasticsearch output host could not be reloaded."
  | some output =>
    let kibanaUrl ← viewerAddress server (some output)
    let exporter ← reloadedExporter server password output
    store .exporter fun _ => exporter
    setKibanaUrl kibanaUrl

/-- `reload_configured_output`: the output of the configuration is put into use. -/
def reloadConfiguredOutput (password : Option String) : Request Url Unit :=
  if !server.onboarding || runtimeOutputIsDeclared server.world.system then pure ()
  else do
    let file ← peek .config
    let config ← lift .config (ApplicationConfig.load file)
    if config.workflow.any OnboardingWorkflow.processesDiagnostics then
      match config.output.default with
      | none => pure ()
      | some outputName => reloadOutput server password outputName
    else pure ()

end Outputs

section Keystore

variable {Url Key : Type} (server : Server Url Key) (faults : Faults)

/-- `migration_needed`: there is no keystore, and a host has plaintext. -/
def migrationNeeded : Request Url Bool := do
  if keystoreExists (← peek .keystore) then pure false
  else
    let file ← peek .hosts
    pure ((parseHostsYml server.world.lib.toUrlLibrary file).toOption.any fun hosts =>
      hosts.values.any fun host => host.credential.legacyAuth.isSome)

def migrateHosts (hosts : KeyedMap String (KnownHost Url)) : KeyedMap String (KnownHost Url) :=
  hosts.mapValues KeystoreMigration.migrateHost

/-- The plaintext of hosts goes into the keystore, once the hosts file is backed up. -/
def storePending (pending : List (String × SecretAuth)) (password : String) : Request Url Unit :=
  if faults.backupFails then .done (.error .io)
  else upsertSecretBatch server.libs faults.upsert pending password

def migrateHostsToKeystore (password : String) : Request Url Unit := do
  let hosts ← loadHosts server.world.lib.toUrlLibrary
  let pending := (KeystoreMigration.pendingSecrets hosts).entries
  whenever (!pending.isEmpty) (storePending server faults pending password)
  writeHosts server.world.lib.toUrlLibrary faults.hosts hosts migrateHosts

/-- The keystore is opened or made, plaintext is moved into it where there is any, and the
output is loaded again with what the session then holds for a password. -/
def openKeystore (migrates : Bool) (password : String) (held : Option String) :
    Request Url Unit := do
  authenticate server.libs faults.creation password
  whenever migrates (migrateHostsToKeystore server faults password)
  reloadConfiguredOutput server held

structure KeystoreForm where
  password : String
  confirm : Option String

def minPasswordLength : ℕ := 6

/-- Whether plaintext is to be migrated, which is asked where there is no keystore. -/
def migrationAsked (isPresent : Bool) : Request Url Bool :=
  if isPresent then pure false else migrationNeeded server

/-- Why the form of a keystore is refused. -/
def keystoreRefusal (isPresent : Bool) (form : KeystoreForm) : Option String :=
  let password := Texts.trim form.password
  if !isPresent && form.confirm.isNone then some "Confirm keystore creation to continue."
  else if !isPresent && password.utf8ByteSize < minPasswordLength then
    some "Keystore password must be at least 6 characters."
  else if password = "" then some "Keystore password is required."
  else none

def saveKeystore (form : KeystoreForm) (held : Option String) : Request Url Unit := do
  let keystore ← peek .keystore
  let migrates ← migrationAsked server (keystoreExists keystore)
  match keystoreRefusal (keystoreExists keystore) form with
  | some message => refuse message
  | none => openKeystore server faults migrates (Texts.trim form.password) held

/-- `bootstrap`, on the pages of the keystore. -/
def bootstrapKeystore (form : KeystoreForm) (held : Option String) : Request Url Unit := do
  if keystoreExists (← peek .keystore) then pure ()
  else if form.confirm.isNone then refuse "Please confirm keystore creation to continue."
  else if (Texts.trim form.password).utf8ByteSize < minPasswordLength then refuse ""
  else
    let migrates ← migrationNeeded server
    openKeystore server faults migrates (Texts.trim form.password) held

end Keystore

/-- The requests that change the hosts file or the configuration. -/
inductive Operation (Url : Type) where
  | upsertHost (session : KeystoreSession) (form : HostUpsertForm)
  | upsertCluster (session : KeystoreSession) (form : ClusterUpsertForm)
  | updateSettings (password : Option String) (form : UpdateSettingsForm)
  | saveUser (user : String)
  | saveWorkflow (workflow : OnboardingWorkflow)
  | deferCollection
  | saveOutputDeployment (input : OutputDeploymentInput Url) (keystorePassword : String)
  | saveCollectHost (input : CollectHostInput Url) (keystorePassword : Option String)
  | replaceCollectHost (input : CollectHostInput Url) (keystorePassword : Option String)
  | saveDefaultJob (name : String) (job : Job)
  | saveDefaultProcessingJob (name collectHost : String)
  | saveOutputStage (now : String) (form : OutputForm) (keystorePassword : String)
  | saveKeystore (form : KeystoreForm) (held : Option String)
  | bootstrapKeystore (form : KeystoreForm) (held : Option String)

section Requests

variable {Url Key : Type} (server : Server Url Key) (faults : Faults)

def ignoreResult {α : Type} (request : Request Url α) : Request Url Unit := do
  let _ ← request

def Operation.request : Operation Url → Request Url Unit
  | .upsertHost session form => applyUpsertHost server faults session form
  | .upsertCluster session form => applyUpsertCluster server faults session form
  | .updateSettings password form => WorkspacePrograms.updateSettings server faults password form
  | .saveUser user => ignoreResult (WorkspacePrograms.saveUser faults user)
  | .saveWorkflow workflow => ignoreResult (WorkspacePrograms.saveWorkflow faults workflow)
  | .deferCollection => ignoreResult (WorkspacePrograms.deferCollection server faults)
  | .saveOutputDeployment input keystorePassword =>
    ignoreResult (WorkspacePrograms.saveOutputDeployment server faults input keystorePassword)
  | .saveCollectHost input keystorePassword =>
    WorkspacePrograms.saveCollectHost server faults input keystorePassword
  | .replaceCollectHost input keystorePassword =>
    WorkspacePrograms.replaceCollectHost server faults input keystorePassword
  | .saveDefaultJob name job =>
    ignoreResult (WorkspacePrograms.saveDefaultJob server faults name job)
  | .saveDefaultProcessingJob name collectHost =>
    ignoreResult (WorkspacePrograms.saveDefaultProcessingJob server faults name collectHost)
  | .saveOutputStage now form keystorePassword =>
    WorkspacePrograms.saveOutputStage server faults now form keystorePassword
  | .saveKeystore form held => WorkspacePrograms.saveKeystore server faults form held
  | .bootstrapKeystore form held => WorkspacePrograms.bootstrapKeystore server faults form held

end Requests

section Alone

variable {Url : Type} (memory : Memory (Content Url))

theorem alone_peek (k : Cell) :
    (peek k : Request Url _).alone memory = (.ok (memory.cells k), memory) := rfl

theorem alone_loadHosts (lib : UrlLibrary Url) :
    (loadHosts lib).alone memory =
      ((parseHostsYml lib (memory.cells .hosts)).mapError (.form ∘ .hosts),
        memory.load .hosts) := rfl

theorem alone_loadHosts_of_error {lib : UrlLibrary Url} {error : HostsError}
    (h : parseHostsYml lib (memory.cells .hosts) = .error error) :
    (loadHosts lib).alone memory = (.error (.form (.hosts error)), memory.load .hosts) := by
  rw [alone_loadHosts, h]
  rfl

theorem alone_loadHosts_of_ok {lib : UrlLibrary Url} {hosts : KeyedMap String (KnownHost Url)}
    (h : parseHostsYml lib (memory.cells .hosts) = .ok hosts) :
    (loadHosts lib).alone memory = (.ok hosts, memory.load .hosts) := by
  rw [alone_loadHosts, h]
  rfl

theorem alone_loadConfig :
    (loadConfig : Request Url _).alone memory =
      ((ApplicationConfig.load (memory.cells .config)).mapError .config,
        memory.load .config) := rfl

theorem alone_whenever (condition : Bool) (request : Request Url Unit) :
    (whenever condition request).alone memory =
      if condition then request.alone memory else (.ok (), memory) := by
  unfold whenever
  split <;> rfl

theorem alone_saveSettings (outcome : SettingsWrite) (settings : Settings) :
    (saveSettings outcome settings).alone memory =
      ((settings.save outcome).1.mapError .form,
        memory.store .settings fun _ => (settings.save outcome).2) := by
  cases outcome <;> rfl

/-- A file that is written as it is read once more is written as if it were read once. -/
theorem alone_writeHosts {lib : UrlLibrary Url} {outcome : HostsWrite}
    {hosts : KeyedMap String (KnownHost Url)}
    {change : KeyedMap String (KnownHost Url) → KeyedMap String (KnownHost Url)}
    {memory : Memory (Content Url)} (hcopy : memory.copies .hosts = memory.cells .hosts)
    (hparse : parseHostsYml lib (memory.cells .hosts) = .ok hosts) :
    (writeHosts lib outcome hosts change).alone memory =
      let written := writeHostsYml lib outcome (memory.cells .hosts) (change hosts)
      (written.1.mapError (.form ∘ .hosts), memory.store .hosts fun _ => written.2) := by
  have hself : (memory.store .hosts fun _ => memory.cells .hosts) = memory :=
    memory.store_eq_self rfl
  unfold writeHosts writeHostsYml
  rw [Program.alone_bind_of_ok (alone_peek memory .hosts)]
  cases hnormalized : normalizeHosts lib (memory.cells .hosts) (change hosts) with
  | error error => exact Prod.ext rfl hself.symm
  | ok written =>
    have hrewritten : rewriteHosts lib change (memory.copies .hosts) =
        hostsDocument lib written := by
      have htraverse : (change hosts).traverse normalizeForWrite = .ok written :=
        KeyedMap.traverse_eq_ok_iff.mpr (HostRoundTrip.normalizeHosts_eq_ok hnormalized).1
      unfold rewriteHosts
      rw [hcopy, hparse]
      dsimp only
      rw [htraverse]
    cases outcome with
    | completes =>
      refine Prod.ext rfl ?_
      show memory.store .hosts (rewriteHosts lib change) = _
      unfold Memory.store
      rw [hrewritten]
    | createFails => exact Prod.ext rfl hself.symm
    | interrupted left => rfl
    | unflushed left => rfl

theorem alone_saveConfig {ioFails : Bool} {config : ApplicationConfig}
    {change : ApplicationConfig → ApplicationConfig} {memory : Memory (Content Url)}
    (hload : ApplicationConfig.load (memory.copies .config) = .ok config) :
    (saveConfig ioFails config change).alone memory =
      let saved := (change config).save ioFails (memory.cells .config)
      ((saved.1.map fun _ => change config).mapError .config,
        memory.store .config fun _ => saved.2) := by
  have hself : (memory.store .config fun _ => memory.cells .config) = memory :=
    memory.store_eq_self rfl
  unfold saveConfig ApplicationConfig.save
  cases hversion : (change config).validateVersion with
  | error error => exact Prod.ext rfl hself.symm
  | ok _ =>
    cases ioFails with
    | true => exact Prod.ext rfl hself.symm
    | false =>
      refine Prod.ext rfl ?_
      show memory.store .config (rewriteConfig change) = _
      unfold Memory.store rewriteConfig
      rw [hload]
      rfl

theorem alone_clearCollectionDeferral (ioFails : Bool) :
    (clearCollectionDeferral ioFails).alone memory =
      let cleared := ApplicationConfigs.clearCollectionDeferral ioFails (memory.cells .config)
      (cleared.1.mapError .config, (memory.load .config).store .config fun _ => cleared.2) := by
  have hself : ((memory.load .config).store .config fun _ => memory.cells .config) =
      memory.load .config := Memory.store_eq_self _ rfl
  unfold clearCollectionDeferral ApplicationConfigs.clearCollectionDeferral
  cases hload : ApplicationConfig.load (memory.cells .config) with
  | error error =>
    have hfailed : (loadConfig : Request Url _).alone memory =
        (.error (.config error), memory.load .config) := by
      rw [alone_loadConfig, hload]
      rfl
    rw [Program.alone_bind_of_error hfailed]
    exact Prod.ext rfl hself.symm
  | ok config =>
    have hloaded : (loadConfig : Request Url _).alone memory =
        (.ok config, memory.load .config) := by
      rw [alone_loadConfig, hload]
      rfl
    rw [Program.alone_bind_of_ok hloaded, alone_whenever]
    dsimp only
    split
    · have hcopy : ApplicationConfig.load ((memory.load .config).copies .config) = .ok config := by
        rw [Memory.load_copies, hload]
      rw [Program.alone_bind, alone_saveConfig hcopy, Memory.load_cells]
      show _ = (Except.mapError _ ((undefer config).save ioFails (memory.cells .config)).1,
        (memory.load .config).store .config
          fun _ => ((undefer config).save ioFails (memory.cells .config)).2)
      generalize (undefer config).save ioFails (memory.cells .config) = saved
      obtain ⟨result, left⟩ := saved
      cases result with
      | error error => rfl
      | ok _ => rfl
    · exact Prod.ext rfl hself.symm

end Alone

section Sequential

variable {Url Key : Type} {server : Server Url Key} {faults : Faults}

/-- The files as the requests see them that run one after the other. -/
def workspace (cells : ∀ k, Content Url k) : Workspace where
  files := ⟨cells .hosts, cells .keystore, cells .jobs⟩
  settings := cells .settings
  config := cells .config

def RequestError.toUpsert : RequestError → UpsertError
  | .form error => error
  | .config _ => .config
  | .jobs _ | .reference _ | .credential _ | .io => .settings

/-- What of a request is seen from outside. -/
def observed (result : Except RequestError Unit × Memory (Content Url)) :
    Except UpsertError Unit × Workspace :=
  (result.1.mapError RequestError.toUpsert, workspace result.2.cells)

theorem observed_settings (plan : HostPlan Url) (memory : Memory (Content Url)) :
    observed ((whenever plan.settingsChanged
        (saveSettings faults.settings plan.settings)).alone memory) =
      if plan.settingsChanged then
        ((plan.settings.save faults.settings).1,
          { workspace memory.cells with settings := (plan.settings.save faults.settings).2 })
      else (.ok (), workspace memory.cells) := by
  rw [alone_whenever]
  split
  · rw [alone_saveSettings]
    cases faults.settings <;> rfl
  · rfl

/-- A plan is carried out as it is when no other request is there. -/
theorem observed_carryOut {change : HostChange Url} {hosts : KeyedMap String (KnownHost Url)}
    {settings : Settings} {memory : Memory (Content Url)}
    (hcopy : memory.copies .hosts = memory.cells .hosts)
    (hparse : parseHostsYml server.world.lib.toUrlLibrary (memory.cells .hosts) = .ok hosts) :
    observed ((do
        writeHosts server.world.lib.toUrlLibrary faults.hosts hosts (changeHosts change)
        whenever (planHosts change hosts settings).clearsDeferral
          (clearCollectionDeferral faults.configFails)
        whenever (planHosts change hosts settings).settingsChanged
          (saveSettings faults.settings (planHosts change hosts settings).settings) :
            Request Url Unit).alone memory) =
      carryOut server.world.lib.toQueryLibrary faults.toDisk (planHosts change hosts settings)
        (workspace memory.cells) := by
  have hplan : (planHosts change hosts settings).hosts = changeHosts change hosts := rfl
  have hfile : (workspace memory.cells).files.hosts = memory.cells .hosts := rfl
  rw [Program.alone_bind, alone_writeHosts hcopy hparse]
  unfold carryOut
  rw [hplan, hfile]
  generalize planHosts change hosts settings = plan
  dsimp only
  generalize writeHostsYml server.world.lib.toUrlLibrary faults.hosts (memory.cells .hosts)
    (changeHosts change hosts) = written
  obtain ⟨result, left⟩ := written
  cases result with
  | error error => rfl
  | ok _ =>
    show observed ((whenever plan.clearsDeferral (clearCollectionDeferral faults.configFails) >>=
      fun _ => whenever plan.settingsChanged (saveSettings faults.settings plan.settings)).alone
        (memory.store .hosts fun _ => left)) = _
    dsimp only
    rw [Program.alone_bind, alone_whenever]
    cases plan.clearsDeferral with
    | false => exact observed_settings plan _
    | true =>
      have hconfig : (memory.store .hosts fun _ => left).cells .config =
        (workspace memory.cells).config := rfl
      rw [if_pos rfl, if_pos rfl, alone_clearCollectionDeferral, hconfig]
      dsimp only
      generalize ApplicationConfigs.clearCollectionDeferral faults.configFails
        (workspace memory.cells).config = cleared
      obtain ⟨result, config⟩ := cleared
      cases result with
      | error error => rfl
      | ok _ => exact observed_settings plan _

/-- A form that meets no other request is saved as the pages save it. -/
theorem observed_upsertHosts (checked : SealedFile → Except UpsertError (HostChange Url))
    (memory : Memory (Content Url)) :
    observed ((upsertHosts server faults checked).alone memory) =
      SettingsRenames.upsertHosts server.world.lib.toQueryLibrary faults.toDisk
        (checked (memory.cells .keystore)) (workspace memory.cells) := by
  unfold upsertHosts SettingsRenames.upsertHosts
  rw [Program.alone_bind_of_ok (alone_peek memory .keystore)]
  cases hchecked : checked (memory.cells .keystore) with
  | error error => rfl
  | ok change =>
    have hform : (lift .form (.ok change) : Request Url _).alone memory =
        (.ok change, memory) := rfl
    rw [Program.alone_bind_of_ok hform]
    cases hparse : parseHostsYml server.world.lib.toUrlLibrary (memory.cells .hosts) with
    | error error =>
      rw [Program.alone_bind_of_error (alone_loadHosts_of_error memory hparse)]
      have hseen : parseHostsYml server.world.lib.toUrlLibrary
          (workspace memory.cells).files.hosts = .error error := hparse
      dsimp only
      rw [hseen]
      rfl
    | ok hosts =>
      have hseen : parseHostsYml server.world.lib.toUrlLibrary
          (workspace memory.cells).files.hosts = .ok hosts := hparse
      rw [Program.alone_bind_of_ok (alone_loadHosts_of_ok memory hparse),
        Program.alone_bind_of_ok (alone_peek _ .settings), Memory.load_cells]
      dsimp only
      rw [hseen]
      dsimp only
      cases hsettings : Settings.load (memory.cells .settings) with
      | error error =>
        have hread : Settings.load (workspace memory.cells).settings = .error error := hsettings
        rw [hread]
        rfl
      | ok settings =>
        have hread : Settings.load (workspace memory.cells).settings = .ok settings := hsettings
        rw [hread]
        exact observed_carryOut (Memory.load_copies ..) hparse

/-- Both forms of hosts, run as programs that meet no other, do to the files and report what
they do as one step. -/
theorem forms_alone (session : KeystoreSession) (memory : Memory (Content Url)) :
    (∀ form, observed ((applyUpsertHost server faults session form).alone memory) =
      SettingsRenames.applyUpsertHost server.world.lib.toQueryLibrary server.libs faults.toDisk
        session form (workspace memory.cells)) ∧
    ∀ form, observed ((applyUpsertCluster server faults session form).alone memory) =
      SettingsRenames.applyUpsertCluster server.world.lib.toQueryLibrary server.libs faults.toDisk
        session form (workspace memory.cells) :=
  ⟨fun _ => observed_upsertHosts _ memory, fun _ => observed_upsertHosts _ memory⟩

/-- What of a migration is seen from outside. -/
def migrated {ε α : Type} (result : Except ε α) (files : KeystoreMigration.CredentialFiles) :
    Bool × KeystoreMigration.CredentialFiles := (result.isOk, files)

def credentialFiles (cells : ∀ k, Content Url k) : KeystoreMigration.CredentialFiles :=
  ⟨cells .hosts, cells .keystore⟩

theorem alone_load (k : Cell) (memory : Memory (Content Url)) :
    (load k : Request Url _).alone memory = (.ok (memory.cells k), memory.load k) := rfl

theorem alone_upsertSecretBatch_of_error {entries : List (String × SecretAuth)}
    {password : String} {attempt : WriteAttempt} {memory : Memory (Content Url)}
    {error : KeystoreError} {keystore : SealedFile}
    (h : upsertSecretAuthBatch server.libs (memory.cells .keystore) entries password attempt =
      (.error error, keystore)) :
    (upsertSecretBatch server.libs attempt entries password).alone memory =
      (.error (.form (.keystore error)), memory.load .keystore) := by
  unfold upsertSecretBatch
  rw [Program.alone_bind_of_ok (alone_load _ _), h]
  rfl

theorem alone_upsertSecretBatch_of_ok {entries : List (String × SecretAuth)}
    {password : String} {attempt : WriteAttempt} {memory : Memory (Content Url)}
    {written : SealedFile}
    (h : upsertSecretAuthBatch server.libs (memory.cells .keystore) entries password attempt =
      (.ok (), written)) :
    (upsertSecretBatch server.libs attempt entries password).alone memory =
      (.ok (), (memory.load .keystore).store .keystore fun _ => written) := by
  unfold upsertSecretBatch
  rw [Program.alone_bind_of_ok (alone_load _ _), h]
  refine Prod.ext rfl ?_
  show (memory.load .keystore).store .keystore (fun file =>
    (upsertSecretAuthBatch server.libs file entries password attempt).2) = _
  unfold Memory.store
  rw [Memory.load_copies]
  dsimp only
  rw [h]

theorem alone_storePending (pending : List (String × SecretAuth)) (password : String)
    (memory : Memory (Content Url)) :
    (storePending server faults pending password).alone memory =
      if faults.backupFails then (.error .io, memory)
      else (upsertSecretBatch server.libs faults.upsert pending password).alone memory := by
  unfold storePending
  split <;> rfl

/-- The write that ends a migration, by itself. -/
theorem migrated_writeHosts {hosts : KeyedMap String (KnownHost Url)}
    {memory : Memory (Content Url)} (counts : ℕ × ℕ)
    (hcopy : memory.copies .hosts = memory.cells .hosts)
    (hparse : parseHostsYml server.world.lib.toUrlLibrary (memory.cells .hosts) = .ok hosts) :
    let run := (writeHosts server.world.lib.toUrlLibrary faults.hosts hosts migrateHosts).alone
      memory
    let written := KeystoreMigration.writeMigrated server.world.lib.toUrlLibrary faults.hosts counts
      (migrateHosts hosts) (credentialFiles memory.cells)
    migrated run.1 (credentialFiles run.2.cells) = migrated written.1 written.2 := by
  dsimp only
  rw [alone_writeHosts hcopy hparse]
  unfold KeystoreMigration.writeMigrated
  have hfile : (credentialFiles memory.cells).hosts = memory.cells .hosts := rfl
  rw [hfile]
  generalize writeHostsYml server.world.lib.toUrlLibrary faults.hosts (memory.cells .hosts)
    (migrateHosts hosts) = written
  obtain ⟨result, left⟩ := written
  cases result <;> rfl

/-- A migration that meets no other request does to the files what it does as one step. -/
theorem migration_alone (password : String) (memory : Memory (Content Url)) :
    let run := (migrateHostsToKeystore server faults password).alone memory
    let migration := KeystoreMigration.migrateHostsToKeystore server.world.lib.toUrlLibrary
      server.libs ⟨faults.backupFails, faults.upsert, faults.hosts⟩ password
      (credentialFiles memory.cells)
    migrated run.1 (credentialFiles run.2.cells) = migrated migration.1 migration.2 := by
  have hfile : (credentialFiles memory.cells).hosts = memory.cells .hosts := rfl
  unfold migrateHostsToKeystore KeystoreMigration.migrateHostsToKeystore
  dsimp only
  rw [hfile]
  cases hparse : parseHostsYml server.world.lib.toUrlLibrary (memory.cells .hosts) with
  | error error =>
    rw [Program.alone_bind_of_error (alone_loadHosts_of_error memory hparse)]
    rfl
  | ok hosts =>
    rw [Program.alone_bind_of_ok (alone_loadHosts_of_ok memory hparse)]
    dsimp only
    cases hempty : (KeystoreMigration.pendingSecrets hosts).entries.isEmpty with
    | true =>
      have hnothing : (whenever (!true) (storePending server faults
          (KeystoreMigration.pendingSecrets hosts).entries password)).alone
            (memory.load .hosts) = (.ok (), memory.load .hosts) := rfl
      rw [Program.alone_bind_of_ok hnothing, if_pos rfl]
      exact migrated_writeHosts _ (Memory.load_copies ..) hparse
    | false =>
      have hpending : (KeystoreMigration.pendingSecrets hosts).entries ≠ [] := by
        simpa using hempty
      have hstored : (whenever (!false) (storePending server faults
          (KeystoreMigration.pendingSecrets hosts).entries password)).alone
            (memory.load .hosts) = _ := alone_storePending _ password _
      rw [if_neg Bool.false_ne_true]
      cases hbackup : faults.backupFails with
      | true =>
        rw [hbackup, if_pos rfl] at hstored
        rw [Program.alone_bind_of_error hstored]
        rfl
      | false =>
        rw [hbackup, if_neg Bool.false_ne_true] at hstored
        rw [if_neg Bool.false_ne_true]
        have hkeystore : (credentialFiles memory.cells).keystore = memory.cells .keystore := rfl
        rcases KeystoreMigration.upsertSecretAuthBatch_cases server.libs (memory.cells .keystore)
          password faults.upsert hpending with ⟨error, hmerged, -⟩ | ⟨_, written, -, -, hmerged⟩
        · have hfailed := @alone_upsertSecretBatch_of_error _ _ server _ _ _
            (memory.load .hosts) _ _ hmerged
          rw [Program.alone_bind_of_error (hstored.trans hfailed), hkeystore, hmerged]
          rfl
        · have hdone := @alone_upsertSecretBatch_of_ok _ _ server _ _ _ (memory.load .hosts) _
            hmerged
          rw [Program.alone_bind_of_ok (hstored.trans hdone), hkeystore, hmerged]
          exact migrated_writeHosts _ rfl hparse

/-- Opening a keystore that no other request changes. -/
theorem authentication_alone (libs : Libraries Key) (attempt : WriteAttempt) (password : String)
    (memory : Memory (Content Url)) :
    let run := (authenticate libs attempt password : Request Url Unit).alone memory
    let opened := KeystoreOperations.authenticate libs (memory.cells .keystore) password attempt
    run.1 = opened.1.mapError (.form ∘ .keystore) ∧ run.2.cells .keystore = opened.2 := by
  unfold authenticate KeystoreOperations.authenticate
  dsimp only
  rw [Program.alone_bind_of_ok (alone_peek memory .keystore)]
  by_cases hexists : keystoreExists (memory.cells .keystore) = true
  · rw [if_pos hexists, if_pos hexists]
    exact ⟨rfl, rfl⟩
  · rw [if_neg hexists, if_neg hexists, Program.alone_bind_of_ok (alone_load _ _)]
    have hfailed : (createKeystore libs (memory.cells .keystore) password attempt).1 ≠ .ok () →
        (createKeystore libs (memory.cells .keystore) password attempt).2 =
          memory.cells .keystore := by
      unfold createKeystore
      rw [if_neg hexists]
      cases writeStore libs attempt password .default with
      | error error => exact fun _ => rfl
      | ok written => exact fun h => absurd rfl h
    cases hmade : (createKeystore libs (memory.cells .keystore) password attempt).1 with
    | error error =>
      rw [hmade] at hfailed
      exact ⟨rfl, (hfailed nofun).symm⟩
    | ok _ =>
      refine ⟨rfl, ?_⟩
      show (createKeystore libs ((memory.load .keystore).copies .keystore) password attempt).2 = _
      rw [Memory.load_copies]

/-- What the readiness is told from, where nothing is written meanwhile. -/
def installation (server : Server Url Key) (cells : ∀ k, Content Url k) : Installation where
  toSystem := { server.world.system with
    config := cells .config
    hosts := cells .hosts
    keystore := cells .keystore }
  jobs := cells .jobs
  jobEnvironment := server.env

def inspectError : InspectError → RequestError
  | .config error => .config error
  | .hosts error => .form (.hosts error)
  | .jobs error => .jobs error

theorem alone_loadSavedJobs (env : SavedJobFiles.Environment) (memory : Memory (Content Url)) :
    (loadSavedJobs env : Request Url _).alone memory =
      let read := loadSavedJobsFromPath env (memory.cells .jobs)
      (read.1.mapError .jobs,
        { memory.load .jobs with cells := Function.update memory.cells .jobs read.2 }) := by
  have hself : { memory.load .jobs with
      cells := Function.update memory.cells .jobs (memory.cells .jobs) } = memory.load .jobs := by
    rw [Function.update_eq_self]
    rfl
  unfold loadSavedJobs loadSavedJobsFromPath
  dsimp only
  rw [Program.alone_bind_of_ok (alone_load _ _)]
  match readJobsFile env (memory.cells .jobs) with
  | .error error => exact Prod.ext rfl hself.symm
  | .ok (jobs, false) => exact Prod.ext rfl hself.symm
  | .ok (jobs, true) =>
    dsimp only
    match writeSavedJobsDocument env jobs with
    | .error error => exact Prod.ext rfl hself.symm
    | .ok written => rfl

/-- The readiness that is told where no other request runs. -/
theorem inspection_alone (memory : Memory (Content Url)) :
    ((inspect server).alone memory).1 =
      (Onboarding.inspect server.world.lib server.libs
        (installation server memory.cells)).mapError inspectError := by
  unfold inspect Onboarding.inspect
  rw [Program.alone_bind_of_ok (alone_peek memory .config)]
  have hconfig : (installation server memory.cells).config = memory.cells .config := rfl
  have hhosts : (installation server memory.cells).hosts = memory.cells .hosts := rfl
  rw [hconfig, hhosts]
  cases ApplicationConfig.load (memory.cells .config) with
  | error error => rfl
  | ok config =>
    change ((peek .hosts >>= _ : Request Url OnboardingReadiness).alone memory).1 = _
    rw [Program.alone_bind_of_ok (alone_peek memory .hosts)]
    cases parseHostsYml server.world.lib.toUrlLibrary (memory.cells .hosts) with
    | error error => rfl
    | ok hosts =>
      change ((loadSavedJobs server.env >>= _ : Request Url OnboardingReadiness).alone memory).1 = _
      rw [Program.alone_bind, alone_loadSavedJobs]
      have hjobs : (installation server memory.cells).jobs = memory.cells .jobs := rfl
      have henv : (installation server memory.cells).jobEnvironment = server.env := rfl
      rw [hjobs, henv]
      generalize loadSavedJobsFromPath server.env (memory.cells .jobs) = read
      obtain ⟨jobs, rewritten⟩ := read
      cases jobs with
      | error error => rfl
      | ok jobs => rfl

end Sequential

end Esdiag.WorkspacePrograms
