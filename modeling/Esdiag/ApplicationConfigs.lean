import Mathlib.Data.Nat.Notation

/-!
The application configuration: who uses the program, the workflow chosen for
it, and by reference the output and the job used by default. An output is a host
of the hosts file or a context of the Elastic CLI. The file is replaced at once or
not at all, and one of another version is neither read nor written.
-/
namespace Esdiag.ApplicationConfigs

inductive OnboardingWorkflow where
  | collectOnly
  | processExisting
  | collectAndProcess
  deriving DecidableEq

namespace OnboardingWorkflow

def collectsDiagnostics : OnboardingWorkflow → Bool
  | collectOnly | collectAndProcess => true
  | processExisting => false

def processesDiagnostics : OnboardingWorkflow → Bool
  | processExisting | collectAndProcess => true
  | collectOnly => false

end OnboardingWorkflow

structure ElasticOutputContext where
  context : String
  deriving DecidableEq

structure OutputConfig where
  default : Option String
  elasticContext : Option ElasticOutputContext
  authenticatedOn : Option String
  assetsVersion : Option String
  deriving DecidableEq

structure JobConfig where
  default : Option String
  deriving DecidableEq

structure ApplicationConfig where
  version : ℕ
  user : Option String
  workflow : Option OnboardingWorkflow
  collectionDeferred : Bool
  output : OutputConfig
  job : JobConfig
  deriving DecidableEq

def currentVersion : ℕ := 1

inductive ConfigFile where
  | absent
  | unparsed
  | document (config : ApplicationConfig)

inductive ConfigError where
  | unreadable
  | io
  | unsupportedVersion (version : ℕ)
  deriving DecidableEq

namespace ApplicationConfig

def new : ApplicationConfig where
  version := currentVersion
  user := none
  workflow := none
  collectionDeferred := false
  output := ⟨none, none, none, none⟩
  job := ⟨none⟩

def validateVersion (config : ApplicationConfig) : Except ConfigError Unit :=
  if config.version ≠ currentVersion then .error (.unsupportedVersion config.version) else .ok ()

def load (file : ConfigFile) : Except ConfigError ApplicationConfig :=
  match file with
  | .absent => .ok new
  | .unparsed => .error .unreadable
  | .document config =>
    match config.validateVersion with
    | .error error => .error error
    | .ok () => .ok config

def save (config : ApplicationConfig) (ioFails : Bool) (file : ConfigFile) :
    Except ConfigError Unit × ConfigFile :=
  match config.validateVersion with
  | .error error => (.error error, file)
  | .ok () => if ioFails then (.error .io, file) else (.ok (), .document config)

theorem validateVersion_of_load {file : ConfigFile} {config : ApplicationConfig}
    (h : load file = .ok config) : config.validateVersion = .ok () := by
  unfold load at h
  cases file with
  | absent =>
    obtain rfl := Except.ok.inj h
    rfl
  | unparsed => cases h
  | document stored =>
    cases hversion : stored.validateVersion with
    | error error => simp [hversion] at h
    | ok _ =>
      obtain rfl : stored = config := by simpa [hversion] using h
      exact hversion

end ApplicationConfig

/-- The text of an error, where it is not a library's own. -/
def ConfigError.message : ConfigError → Option String
  | unreadable | io => none
  | unsupportedVersion version =>
    some ("Unsupported application configuration version " ++ toString version ++
      "; this ESDiag version supports version " ++ toString currentVersion)

/-- A source of diagnostics is there, so that it is no longer put off. -/
def clearCollectionDeferral (ioFails : Bool) (file : ConfigFile) :
    Except ConfigError Unit × ConfigFile :=
  match ApplicationConfig.load file with
  | .error error => (.error error, file)
  | .ok config =>
    if config.collectionDeferred then
      ApplicationConfig.save { config with collectionDeferred := false } ioFails file
    else (.ok (), file)

end Esdiag.ApplicationConfigs
