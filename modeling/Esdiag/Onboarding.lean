import Esdiag.OutputDeployments
import Esdiag.SavedJobFiles

/-!
Onboarding: what an installation still lacks before it is used. The readiness
is read from the configuration, the saved hosts and jobs, the keystore and the
environment. Entry to the application is granted by the readiness, with the
collection of diagnostics put off where the workflow allows it, and the web
journey shows the first stage that is not done.
-/
namespace Esdiag.Onboarding

open KeyedMaps Deployments Keystores KeystoreOperations KnownHosts HostFiles JobModel
  SavedJobFiles ApplicationConfigs ElasticContexts OutputDeployments

/-- All that the inspection reads. -/
structure Installation extends System where
  jobs : JobsFile
  jobEnvironment : Environment

inductive InspectError where
  | config (error : ConfigError)
  | hosts (error : HostsError)
  | jobs (error : SavedJobsError)

structure OnboardingReadiness where
  userConfigured : Bool
  keystoreReady : Bool
  workflow : Option OnboardingWorkflow
  outputConfigured : Bool
  outputFromEnvironment : Bool
  outputRequiresKeystore : Bool
  collectHostConfigured : Bool
  defaultJobConfigured : Bool
  collectionDeferred : Bool
  deriving DecidableEq

namespace OnboardingReadiness

def default : OnboardingReadiness where
  userConfigured := false
  keystoreReady := false
  workflow := none
  outputConfigured := false
  outputFromEnvironment := false
  outputRequiresKeystore := false
  collectHostConfigured := false
  defaultJobConfigured := false
  collectionDeferred := false

variable (self : OnboardingReadiness)

def isComplete : Bool :=
  self.userConfigured &&
    match self.workflow with
    | some .collectOnly => self.collectHostConfigured && self.defaultJobConfigured
    | some .processExisting =>
      self.outputConfigured && (self.outputFromEnvironment || self.keystoreReady)
    | some .collectAndProcess =>
      self.keystoreReady && self.outputConfigured && self.collectHostConfigured &&
        self.defaultJobConfigured
    | none => false

def canEnterApplication : Bool :=
  self.isComplete ||
    (self.collectionDeferred && self.userConfigured && !self.collectHostConfigured &&
      match self.workflow with
      | some .collectOnly => true
      | some .collectAndProcess =>
        self.outputConfigured &&
          (self.outputFromEnvironment || !self.outputRequiresKeystore || self.keystoreReady)
      | some .processExisting | none => false)

end OnboardingReadiness

section Inspection

variable {Url Key : Type} (lib : ServiceLibrary Url) (libs : Libraries Key)

def hasRole (host : KnownHost Url) (role : HostRole) : Bool := decide (role ∈ host.roles)

def validOutputHost (system : System) (host : KnownHost Url) : Bool :=
  decide (host.app = some .elasticsearch) && hasRole host .send &&
    (host.viewer.bind (getKnown lib system)).any fun viewer =>
      decide (viewer.app = some .kibana) && hasRole viewer .view

def environmentOutputIsConfigured (system : System) : Bool :=
  runtimeOutputIsDeclared system && (resolve lib libs system none true).isOk

def workflowJobIsValid (system : System) (job : Job) (hosts : KeyedMap String (KnownHost Url))
    (workflow : Option OnboardingWorkflow) (output : Option String) : Bool :=
  match job.input with
  | .collect host _ _ _ =>
    if (hosts.find? host).any (hasRole · .collect) then
      match workflow with
      | some .collectOnly => job.process.isNone
      | some .collectAndProcess =>
        match job.process.map Process.exportTarget with
        | some .environment => environmentOutputIsConfigured lib libs system
        | some (.knownHost name) => decide (some name = output)
        | _ => false
      | some .processExisting | none => false
    else false
  | _ => false

/-- The saved host that the configuration names as the output. -/
def defaultOutputHost (config : ApplicationConfig) (hosts : KeyedMap String (KnownHost Url)) :
    Option (KnownHost Url) :=
  config.output.default.bind hosts.find?

def collectHostIsSaved (hosts : KeyedMap String (KnownHost Url)) : Bool :=
  hosts.values.any (hasRole · .collect)

def defaultJobIsValid (system : System) (config : ApplicationConfig)
    (hosts : KeyedMap String (KnownHost Url)) (jobs : SavedJobs) : Bool :=
  (config.job.default.bind jobs.find?).any fun job =>
    workflowJobIsValid lib libs system job hosts config.workflow config.output.default

def userIsConfigured (config : ApplicationConfig) : Bool :=
  config.user.any fun user => !Texts.isBlank user

/-- The readiness of what has been read. -/
def readiness (system : System) (config : ApplicationConfig)
    (hosts : KeyedMap String (KnownHost Url)) (jobs : SavedJobs) : OnboardingReadiness :=
  let outputDeclaredByEnvironment := runtimeOutputIsDeclared system
  let outputFromEnvironment :=
    outputDeclaredByEnvironment && (resolve lib libs system none true).isOk
  { userConfigured := userIsConfigured config
    keystoreReady := keystoreExists system.keystore
    workflow := config.workflow
    outputConfigured :=
      if outputDeclaredByEnvironment then outputFromEnvironment
      else (defaultOutputHost config hosts).any (validOutputHost lib system)
    outputFromEnvironment := outputFromEnvironment
    outputRequiresKeystore :=
      !outputFromEnvironment && !outputDeclaredByEnvironment &&
        (defaultOutputHost config hosts).any fun host => host.credential.secretReference.isSome
    collectHostConfigured := collectHostIsSaved hosts
    defaultJobConfigured := defaultJobIsValid lib libs system config hosts jobs
    collectionDeferred := config.collectionDeferred }

def inspect (installation : Installation) : Except InspectError OnboardingReadiness := do
  let config ← (ApplicationConfig.load installation.config).mapError .config
  let hosts ← (parseHostsYml lib.toUrlLibrary installation.hosts).mapError .hosts
  let jobs ←
    (loadSavedJobsFromPath installation.jobEnvironment installation.jobs).1.mapError .jobs
  pure (readiness lib libs installation.toSystem config hosts jobs)

inductive WelcomeStage where
  | identity
  | output
  | collection
  | defaultJob
  | complete
  deriving DecidableEq

def stageOf (workflow : Option OnboardingWorkflow) (readiness : OnboardingReadiness) :
    WelcomeStage :=
  let processesDiagnostics := workflow.any OnboardingWorkflow.processesDiagnostics
  let collectsDiagnostics := workflow.any OnboardingWorkflow.collectsDiagnostics
  if !readiness.userConfigured || readiness.workflow.isNone then .identity
  else if processesDiagnostics && !readiness.outputConfigured then .output
  else if collectsDiagnostics && !readiness.collectHostConfigured &&
      !readiness.collectionDeferred then .collection
  else if collectsDiagnostics && readiness.collectHostConfigured &&
      !readiness.defaultJobConfigured then .defaultJob
  else .complete

/-- The stage that the web journey shows; a failed inspection counts as nothing done. -/
def journeyStage (installation : Installation) : Except ConfigError WelcomeStage :=
  match ApplicationConfig.load installation.config with
  | .error error => .error error
  | .ok config =>
    match inspect lib libs installation with
    | .ok readiness => .ok (stageOf config.workflow readiness)
    | .error _ => .ok (stageOf config.workflow .default)

/-- Entry to the application, which a failed inspection refuses. -/
def entersApplication (installation : Installation) : Bool :=
  match inspect lib libs installation with
  | .ok readiness => readiness.canEnterApplication
  | .error _ => false

end Inspection

end Esdiag.Onboarding
