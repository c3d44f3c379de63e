import Esdiag.EnvFiles
import Esdiag.FailingPrograms
import Esdiag.KibanaSpaces

/-!
The local stack. Its state is a file of assignments, with the versions that the stack
was created with or upgraded to and the images pinned for them, and a compose file that
refers to the images and holds the setup command for one of them. A start fills in what
the state lacks and keeps the rest; an upgrade replaces versions and images before it
pulls, and puts the old ones back if the pull fails. Any step may fail.
-/
namespace Esdiag.LocalStacks

open KeyedMaps Texts EnvFiles FailingPrograms WebUrls KibanaSpaces

/-- The version library and the URL library. -/
structure Libraries (V Url : Type) where
  parse : String → Option V
  majorMinor : V → ℕ × ℕ
  urls : Library Url

def isVersionChar (c : Char) : Bool := c.isAlphanum || c = '.' || c = '-' || c = '+'

/-- What one build of the binary carries. -/
structure Binary where
  elasticVersion : String
  esdiagVersion : String
  elastic_chars : ∀ c ∈ elasticVersion.toList, isVersionChar c = true
  esdiag_chars : ∀ c ∈ esdiagVersion.toList, isVersionChar c = true

inductive StackMode where
  | auto
  | core
  | full
  deriving DecidableEq

namespace StackMode

def parse (value : String) : Option StackMode :=
  if value = "auto" then some auto
  else if value = "core" then some core
  else if value = "full" then some full
  else none

def asStr : StackMode → String
  | auto => "auto"
  | core => "core"
  | full => "full"

end StackMode

inductive LocalError where
  | unreadable
  | invalidLine
  | unsupportedMode (mode : String)
  | noRuntime
  | volumesWithoutState
  | credentialsWithoutVolumes
  | missing (key : String)
  | directory
  | user
  | compose (arguments : List String)
  | unreachable
  | security
  | service
  | onboardingOutput
  | browser
  | write
  | startup (error : LocalError)
  | noStack
  | modeChange
  | incomparable (recorded : String)
  | newerRecorded (recorded : String)
  | needsForce
  | noAnswer
  | cancelled
  | status
  | pullFailed
  | unrestored

section Images

def elasticsearchImage (version : String) : String :=
  "docker.elastic.co/elasticsearch/elasticsearch:" ++ version

def kibanaImage (version : String) : String := "docker.elastic.co/kibana/kibana:" ++ version

def esdiagImage (version : String) : String := "docker.elastic.co/esdiag/esdiag:" ++ version

variable {V Url : Type} (lib : Libraries V Url)

/-- The tag of an image, without its digest. -/
def imageTag (image : String) : Option String :=
  let reference := match splitOnce '@' image with
    | some (name, _) => name
    | none => image
  match rsplitOnce ':' reference with
  | some (_, tag) => if '/' ∈ tag.toList then none else some tag
  | none => none

def imageVersion (image : String) : Option V := (imageTag image).bind lib.parse

/-- Images before 0.18 accept the bare command only. -/
def setupCommandForImage (image : String) : String :=
  match imageVersion lib image with
  | some version =>
    let (major, minor) := lib.majorMinor version
    if major = 0 ∧ minor < 18 then "[\"setup\"]" else "[\"setup\", \"env\"]"
  | none => "[\"setup\", \"env\"]"

variable [LinearOrder V]

def isNewerVersion (recorded current : String) : Except LocalError Bool :=
  match lib.parse recorded, lib.parse current with
  | none, _ => .error (.incomparable recorded)
  | some _, none => .error (.incomparable current)
  | some recorded, some current => .ok (current < recorded)

end Images

section Files

/-- A file that is written as a whole: completely, not at all because it cannot be opened, only
up to some character, or completely but without its permissions. -/
inductive WriteFate where
  | complete
  | unopened
  | torn (length : ℕ) (decodable : Bool)
  | unprotected
  deriving DecidableEq

def WriteFate.isTorn : WriteFate → Bool
  | torn _ _ => true
  | _ => false

inductive EnvFile where
  | absent
  | undecodable
  | text (contents : String)

/-- The services of the full mode. -/
structure FullServices where
  setupCommand : String
  runtime : String
  deriving DecidableEq

inductive ComposeFile where
  | absent
  | torn
  | services (full : Option FullServices)
  deriving DecidableEq

def ComposeFile.setupCommand : ComposeFile → Option String
  | services (some full) => some full.setupCommand
  | _ => none

/-- The two files of a stack, with the values that were last written to the first of them. -/
structure Disk where
  env : EnvFile
  compose : ComposeFile
  lastWritten : Option Values

def Disk.fresh : Disk := ⟨.absent, .absent, none⟩

abbrev Action (α : Type) := EStateM LocalError Disk α

def write (values : Values) (fate : WriteFate) : Action Unit := fun disk =>
  match fate with
  | .complete => .ok () { disk with env := .text (envText values), lastWritten := some values }
  | .unopened => .error .write disk
  | .torn length decodable =>
    let start := String.ofList ((envText values).toList.take length)
    .error .write { disk with env := if decodable then .text start else .undecodable }
  | .unprotected =>
    .error .write { disk with env := .text (envText values), lastWritten := some values }

variable {V Url : Type} (lib : Libraries V Url)

def composeServices (mode : StackMode) (values : Values) : Option FullServices :=
  if mode = .full then
    some ⟨setupCommandForImage lib ((values.find? "ESDIAG_IMAGE").getD ""),
      (values.find? "ESDIAG_CONTAINER_RUNTIME").getD "unknown"⟩
  else none

def writeCompose (mode : StackMode) (values : Values) (fate : WriteFate) : Action Unit := fun disk =>
  let contents := ComposeFile.services (composeServices lib mode values)
  match fate with
  | .complete => .ok () { disk with compose := contents }
  | .unopened => .error .write disk
  | .torn _ _ => .error .write { disk with compose := .torn }
  | .unprotected => .error .write { disk with compose := contents }

end Files

section States

structure LocalState where
  values : Values
  hasExistingState : Bool

def load (disk : Disk) : Except LocalError LocalState :=
  match disk.env with
  | .absent => .ok ⟨.empty, false⟩
  | .undecodable => .error .unreadable
  | .text contents =>
    match parseEnv contents with
    | some values => .ok ⟨values, true⟩
    | none => .error .invalidLine

def required (values : Values) (key : String) : Except LocalError String :=
  match values.find? key with
  | some value => .ok value
  | none => .error (.missing key)

def resolveMode (state : LocalState) (requested : StackMode) : Except LocalError StackMode :=
  if requested = .auto then
    match state.values.find? "STACK_MODE" with
    | some mode =>
      if mode = "full" then .ok .full
      else if mode = "core" then .ok .core
      else .error (.unsupportedMode mode)
    | none => .ok (if state.hasExistingState then .full else .core)
  else .ok requested

def activeMode (state : LocalState) : StackMode :=
  ((state.values.find? "STACK_MODE").bind StackMode.parse).getD
    (if state.hasExistingState then .full else .core)

structure Volumes where
  elasticsearch : Bool
  kibana : Bool
  esdiag : Bool

def validateStateCoupling (state : LocalState) (volumes : Volumes) : Except LocalError Unit :=
  if state.hasExistingState = false then
    if volumes.elasticsearch || volumes.kibana || volumes.esdiag then .error .volumesWithoutState
    else .ok ()
  else if (state.values.find? "ESDIAG_OUTPUT_APIKEY").any (fun key => key != "pending") &&
      (!volumes.elasticsearch || !volumes.kibana) then .error .credentialsWithoutVolumes
  else .ok ()

def detectRuntime (requested : Option String) (usable : String → Bool) : Except LocalError String :=
  match (requested.toList ++ ["podman", "docker"]).find? usable with
  | some runtime => .ok runtime
  | none => .error .noRuntime

/-- A secret is written in hexadecimal digits. -/
structure Secret where
  text : String
  hex : ∀ c ∈ text.toList, c.isAlphanum = true

structure Secrets where
  elastic : Secret
  kibanaSystem : Secret
  kibanaEncryption : Secret

/-- Fill in a value that is not there. -/
def setDefault (values : Values) (entry : String × String) : Values :=
  values.upsert entry.1 fun old => old.getD entry.2

variable {V Url : Type} (lib : Libraries V Url) (binary : Binary)

def versionDefaults : List (String × String) :=
  [("STATE_SCHEMA_VERSION", "3"),
    ("STACK_ESDIAG_VERSION", binary.esdiagVersion),
    ("STACK_ELASTIC_VERSION", binary.elasticVersion)]

def stackDefaults (secrets : Secrets) : List (String × String) :=
  [("ELASTIC_SECURITY_ENABLED", "true"),
    ("ELASTIC_PASSWORD", secrets.elastic.text),
    ("KIBANA_SYSTEM_PASSWORD", secrets.kibanaSystem.text),
    ("KIBANA_ENCRYPTION_KEY", secrets.kibanaEncryption.text),
    ("ESDIAG_OUTPUT_APIKEY", "pending"),
    ("ELASTICSEARCH_IMAGE", elasticsearchImage binary.elasticVersion),
    ("KIBANA_IMAGE", kibanaImage binary.elasticVersion),
    ("ESDIAG_IMAGE", esdiagImage binary.esdiagVersion),
    ("ESDIAG_ELASTICSEARCH_PORT", "9200"),
    ("ESDIAG_KIBANA_PORT", "5601"),
    ("ESDIAG_PORT", "2501"),
    ("ESDIAG_KIBANA_SPACE", "esdiag")]

/-- The values that a start fills in before the URL of Kibana. -/
def startValues (runtime : String) (secrets : Secrets) (values : Values) : Values :=
  (stackDefaults binary secrets).foldl setDefault
    (((versionDefaults binary).foldl setDefault values).insert "ESDIAG_CONTAINER_RUNTIME" runtime)

def initializeValues (runtime : String) (secrets : Secrets) (values : Values) :
    Except LocalError Values :=
  let values := startValues binary runtime secrets values
  match required values "ESDIAG_KIBANA_PORT", required values "ESDIAG_KIBANA_SPACE" with
  | .error error, _ => .error error
  | .ok _, .error error => .error error
  | .ok kibanaPort, .ok kibanaSpace =>
    .ok ([("ESDIAG_KIBANA_PUBLIC_URL",
        kibanaUrlWithSpace lib.urls ("http://127.0.0.1:" ++ kibanaPort) (some kibanaSpace)),
      ("LOG_LEVEL", "info")].foldl setDefault values)

end States

section Commands

structure LocalOptions where
  runtime : Option String
  stack : StackMode
  openBrowser : Bool
  startNativeService : Bool
  persistOnboardingOutput : Bool
  pullImages : Bool
  logLevel : Option String
  force : Bool

/-- What a start meets, step by step. -/
structure UpAnswers where
  usable : String → Bool
  volumes : Volumes
  dirReady : Bool
  secrets : Secrets
  composeWrite : WriteFate
  userResolved : Bool
  firstWrite : WriteFate
  previousStopped : Bool
  pulled : Bool
  started : Bool
  elasticsearchReady : Bool
  passwordSet : Bool
  apiKey : Option String
  secondWrite : WriteFate
  kibanaReady : Bool
  assetsInstalled : Bool
  nativeStopped : Bool
  serviceStarted : Bool
  outputPersisted : Bool
  serviceReady : Bool
  lastWrite : WriteFate
  browserOpened : Bool

variable {V Url : Type} (lib : Libraries V Url) (binary : Binary)

/-- The password of Kibana is set, and a key is made unless the state has one. -/
def configureSecurity (answers : UpAnswers) (values : Values) : Except LocalError Values :=
  match required values "ELASTIC_PASSWORD", required values "KIBANA_SYSTEM_PASSWORD",
    required values "ESDIAG_OUTPUT_APIKEY" with
  | .error error, _, _ => .error error
  | .ok _, .error error, _ => .error error
  | .ok _, .ok _, key =>
    if answers.passwordSet = false then .error .security
    else
      match key with
      | .error error => .error error
      | .ok key =>
        if key = "pending" then
          match answers.apiKey with
          | some created => .ok (values.insert "ESDIAG_OUTPUT_APIKEY" created)
          | none => .error .security
        else .ok values

def withLogLevel (options : LocalOptions) (values : Values) : Values :=
  match options.logLevel with
  | some level => values.insert "LOG_LEVEL" level
  | none => values

/-- The services of a mode are started, after the native one was stopped in full mode. -/
def startServices (options : LocalOptions) (answers : UpAnswers) (mode : StackMode) :
    Action Unit := do
  stopUnless (mode != .full || answers.nativeStopped) .service
  stopUnless (mode != .full || answers.serviceStarted) (.compose ["up", "-d", "esdiag"])
  stopUnless (mode = .full || !options.startNativeService || answers.serviceStarted) .service
  stopUnless (!options.persistOnboardingOutput || answers.outputPersisted) .onboardingOutput
  stopUnless (!(mode = .full || options.startNativeService) || answers.serviceReady) .unreachable

def upInner (options : LocalOptions) (answers : UpAnswers) (state : LocalState) : Action Unit := do
  let runtime ← liftResult (detectRuntime options.runtime answers.usable)
  let _ ← liftResult (validateStateCoupling state answers.volumes)
  stopUnless answers.dirReady .directory
  let mode ← liftResult (resolveMode state options.stack)
  let wasFull := state.hasExistingState && activeMode state = .full
  let values ← liftResult (initializeValues lib binary runtime answers.secrets state.values)
  writeCompose lib mode values answers.composeWrite
  stopUnless (mode != .full || answers.userResolved) .user
  let values := (withLogLevel options values).remove "ESDIAG_USER"
  write values answers.firstWrite
  stopUnless (!(wasFull && mode = .core) || answers.previousStopped)
    (.compose ["down", "--remove-orphans"])
  stopUnless (!options.pullImages || answers.pulled) (.compose ["pull", "elasticsearch", "kibana"])
  stopUnless answers.started (.compose ["up", "-d", "elasticsearch", "kibana"])
  let _ ← liftResult (required values "ELASTIC_PASSWORD")
  stopUnless answers.elasticsearchReady .unreachable
  let values ← liftResult (configureSecurity answers values)
  write values answers.secondWrite
  stopUnless answers.kibanaReady .unreachable
  stopUnless answers.assetsInstalled (.compose ["run", "setup"])
  startServices options answers mode
  write (values.insert "STACK_MODE" mode.asStr) answers.lastWrite
  stopUnless (!options.openBrowser || answers.browserOpened) .browser

/-- A start of a stack whose mode is known. -/
def up (options : LocalOptions) (answers : UpAnswers) (state : LocalState) : Action Unit := do
  let _ ← liftResult (if state.hasExistingState then resolveMode state options.stack else .ok .core)
  mapError .startup (upInner lib binary options answers state)

variable [LinearOrder V]

def newerRecordedElastic (values : Values) : Except LocalError (Option String) :=
  match values.find? "STACK_ELASTIC_VERSION" with
  | none => .ok none
  | some recorded =>
    (isNewerVersion lib recorded binary.elasticVersion).map fun newer =>
      if newer then some recorded else none

/-- The changes of an upgrade. The core mode runs the binary, not its image. -/
def pendingUpgrades (mode : StackMode) (values : Values) : List String :=
  let elastic :=
    match values.find? "STACK_ELASTIC_VERSION" with
    | some recorded =>
      if recorded = binary.elasticVersion then []
      else ["Elastic " ++ recorded ++ " to " ++ binary.elasticVersion]
    | none => []
  let esdiag :=
    match values.find? "STACK_ESDIAG_VERSION" with
    | some recorded =>
      if mode = .full ∧ recorded ≠ binary.esdiagVersion then
        ["ESDiag " ++ recorded ++ " to " ++ binary.esdiagVersion]
      else []
    | none => []
  elastic ++ esdiag

def recordCurrentVersions (values : Values) : Values :=
  [("STACK_ELASTIC_VERSION", binary.elasticVersion),
    ("STACK_ESDIAG_VERSION", binary.esdiagVersion),
    ("ELASTICSEARCH_IMAGE", elasticsearchImage binary.elasticVersion),
    ("KIBANA_IMAGE", kibanaImage binary.elasticVersion),
    ("ESDIAG_IMAGE", esdiagImage binary.esdiagVersion)].foldl
      (fun values entry => values.insert entry.1 entry.2) values

/-- What an upgrade meets; a confirmation that cannot be read has no answer. -/
structure UpgradeAnswers where
  interactive : Bool
  approved : Option Bool
  usable : String → Bool
  volumes : Volumes
  running : Option Bool
  recordWrite : WriteFate
  composeWrite : WriteFate
  pulled : Bool
  restoreWrite : WriteFate
  nativeRunning : Bool
  restart : UpAnswers

def upgradeConfirmed (force interactive : Bool) (approved : Option Bool) : Except LocalError Unit :=
  if force then .ok ()
  else if interactive = false then .error .needsForce
  else
    match approved with
    | none => .error .noAnswer
    | some true => .ok ()
    | some false => .error .cancelled

/-- An upgrade that is to be carried out. -/
structure Admitted where
  mode : StackMode
  running : Bool

/-- The part of an upgrade that changes nothing: what is refused, and whether there is anything
to upgrade. -/
def admitUpgrade (options : LocalOptions) (answers : UpgradeAnswers) (state : LocalState) :
    Except LocalError (Option Admitted) :=
  if state.hasExistingState = false then .error .noStack
  else if options.stack ≠ .auto then .error .modeChange
  else
    match resolveMode state .auto, newerRecordedElastic lib binary state.values with
    | .error error, _ => .error error
    | .ok _, .error error => .error error
    | .ok _, .ok (some recorded) => .error (.newerRecorded recorded)
    | .ok mode, .ok none =>
      if (pendingUpgrades binary mode state.values).isEmpty then .ok none
      else
        match upgradeConfirmed options.force answers.interactive answers.approved,
          detectRuntime options.runtime answers.usable,
          validateStateCoupling state answers.volumes, answers.running with
        | .error error, _, _, _ => .error error
        | .ok _, .error error, _, _ => .error error
        | .ok _, .ok _, .error error, _ => .error error
        | .ok _, .ok _, .ok _, none => .error .status
        | .ok _, .ok _, .ok _, some running => .ok (some ⟨mode, running⟩)

/-- The start of the upgraded stack, on images that are pulled already. -/
def restartOptions (options : LocalOptions) (mode : StackMode) (nativeRunning : Bool) :
    LocalOptions :=
  { options with
    stack := mode
    openBrowser := false
    persistOnboardingOutput := false
    pullImages := false
    startNativeService := mode = .core && nativeRunning }

def upgrade (options : LocalOptions) (answers : UpgradeAnswers) (state : LocalState) :
    Action Unit := do
  let admitted ← liftResult (admitUpgrade lib binary options answers state)
  match admitted with
  | none => pure ()
  | some ⟨mode, running⟩ =>
    let values := recordCurrentVersions binary state.values
    write values answers.recordWrite
    writeCompose lib mode values answers.composeWrite
    if answers.pulled then
      whenever running
        (up lib binary (restartOptions options mode answers.nativeRunning) answers.restart
          { state with values := values })
    else
      mapError (fun _ => .unrestored) (write state.values answers.restoreWrite)
      throw .pullFailed

inductive Command where
  | up (options : LocalOptions) (answers : UpAnswers)
  | upgrade (options : LocalOptions) (answers : UpgradeAnswers)

def runCommand (command : Command) (state : LocalState) : Action Unit :=
  match command with
  | .up options answers => up lib binary options answers state
  | .upgrade options answers => upgrade lib binary options answers state

/-- One command of one binary, on the state that it loads. -/
def outcome (disk : Disk) (invocation : Binary × Command) : EStateM.Result LocalError Disk Unit :=
  match load disk with
  | .error error => .error error disk
  | .ok state => runCommand lib invocation.1 invocation.2 state disk

def after : EStateM.Result LocalError Disk Unit → Disk
  | .ok () disk => disk
  | .error _ disk => disk

def step (disk : Disk) (invocation : Binary × Command) : Disk := after (outcome lib disk invocation)

end Commands

end Esdiag.LocalStacks
