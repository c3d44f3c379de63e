import Esdiag.GuardedRuns
import Esdiag.KeyedMaps

/-!
Setup of an Elasticsearch cluster. A run sends the files of a bundle, where it
looks up the installed version of each template first, keeps a newer one and
notes in memory which ones it raises. At its end it rolls over the data streams
of the raised templates, because a write index is shaped by the templates at the
time it is created. A request may fail, its answer may be lost, and a run may
stop between any two requests; data streams come and go at any time.
-/
namespace Esdiag.TemplateUpgrades

open KeyedMaps

/-- Which data streams an index template applies to. -/
structure Scope where
  indexPatterns : List String
  priority : ℕ
  deriving DecidableEq

structure Template where
  version : Option ℕ
  composedOf : List String
  scope : Scope
  deriving DecidableEq

/-- A template of the cluster, with the moment at which its version was installed. -/
structure Installed where
  template : Template
  since : ℕ
  deriving DecidableEq

inductive Endpoint where
  | componentTemplate
  | indexTemplate
  | other
  deriving DecidableEq

structure Asset where
  endpoint : Endpoint
  suffix : Option String
  requiresSecurity : Bool
  deriving DecidableEq

structure AssetFile where
  asset : Asset
  path : String
  stem : String
  contents : Template
  deriving DecidableEq

def isTemplateAsset (asset : Asset) : Bool := decide (asset.endpoint ≠ .other)

def shouldSkipAsset (asset : Asset) (securityEnabled : Bool) : Bool :=
  asset.requiresSecurity && !securityEnabled

def AssetFile.name (file : AssetFile) : String := file.stem ++ file.asset.suffix.getD ""

/-- The version of a bundled template is higher than the installed one. -/
def templateVersionBumped (installed bundled : Option ℕ) : Bool :=
  match installed, bundled with
  | _, none => false
  | none, some _ => true
  | some installed, some bundled => decide (installed < bundled)

def templateVersionDowngrade (installed bundled : Option ℕ) : Bool :=
  match installed, bundled with
  | some installed, some bundled => decide (bundled < installed)
  | some _, none => true
  | none, _ => false

structure TemplateChanges where
  componentTemplates : List String
  indexTemplates : List String
  composedOf : KeyedMap String (List String)

namespace TemplateChanges

def none : TemplateChanges := ⟨[], [], .empty⟩

def record (changes : TemplateChanges) (file : AssetFile) (changed : Bool) : TemplateChanges :=
  let changes :=
    if file.asset.endpoint = .indexTemplate then
      { changes with composedOf := changes.composedOf.insert file.name file.contents.composedOf }
    else changes
  if !changed then changes
  else if file.asset.endpoint = .indexTemplate then
    { changes with indexTemplates := file.name :: changes.indexTemplates }
  else { changes with componentTemplates := file.name :: changes.componentTemplates }

/-- Index templates that changed directly or through a component template. -/
def updatedIndexTemplates (changes : TemplateChanges) : List String :=
  changes.indexTemplates ++ (changes.composedOf.entries.filter fun entry =>
    entry.2.any fun name => decide (name ∈ changes.componentTemplates)).map Prod.fst

end TemplateChanges

/-- The templates and the ESDiag data streams of a cluster, each stream with the moment at
which its write index was created. The clock tells versions apart. -/
structure Cluster where
  now : ℕ
  componentTemplates : KeyedMap String Installed
  indexTemplates : KeyedMap String Installed
  dataStreams : KeyedMap String ℕ

namespace Cluster

def empty : Cluster := ⟨0, .empty, .empty, .empty⟩

variable (cluster : Cluster)

def templates : Endpoint → KeyedMap String Installed
  | .componentTemplate => cluster.componentTemplates
  | .indexTemplate => cluster.indexTemplates
  | .other => .empty

def installedVersion (endpoint : Endpoint) (name : String) : Option ℕ :=
  ((cluster.templates endpoint).find? name).bind fun installed => installed.template.version

def setTemplates (endpoint : Endpoint) (templates : KeyedMap String Installed) : Cluster :=
  match endpoint with
  | .componentTemplate => { cluster with componentTemplates := templates }
  | .indexTemplate => { cluster with indexTemplates := templates }
  | .other => cluster

/-- The moment of an installed version that is the same as the given one. -/
def keptSince (endpoint : Endpoint) (name : String) (template : Template) : Option ℕ :=
  (((cluster.templates endpoint).find? name).filter fun installed =>
    decide (installed.template.version = template.version)).map Installed.since

/-- Install a template; a new version begins at a new moment. -/
def put (endpoint : Endpoint) (name : String) (template : Template) : Cluster :=
  let kept := cluster.keptSince endpoint name template
  { cluster with now := if kept.isSome then cluster.now else cluster.now + 1 }.setTemplates endpoint
    ((cluster.templates endpoint).insert name ⟨template, kept.getD (cluster.now + 1)⟩)

def putFile (file : AssetFile) : Cluster :=
  if isTemplateAsset file.asset then cluster.put file.asset.endpoint file.name file.contents
  else cluster

/-- A new write index, under the templates of the moment. -/
def rollover (stream : String) : Cluster :=
  if (cluster.dataStreams.find? stream).isSome then
    { cluster with dataStreams := cluster.dataStreams.insert stream cluster.now }
  else cluster

def createStream (stream : String) : Cluster :=
  if (cluster.dataStreams.find? stream).isSome then cluster
  else { cluster with dataStreams := cluster.dataStreams.insert stream cluster.now }

def deleteStream (stream : String) : Cluster :=
  { cluster with dataStreams := cluster.dataStreams.remove stream }

/-- The scopes of the installed index templates. -/
def scopes : KeyedMap String Scope :=
  cluster.indexTemplates.filterMap fun _ installed => some installed.template.scope

end Cluster

structure SetupReport where
  failedIndices : List String
  warnings : List String
  deriving DecidableEq

namespace SetupReport

def isComplete (report : SetupReport) : Bool :=
  report.failedIndices.isEmpty && report.warnings.isEmpty

def warn (report : SetupReport) (warning : String) : SetupReport :=
  { report with warnings := report.warnings ++ [warning] }

end SetupReport

/-- Where a run is: before the lookup of a version, before a file is sent with what is known
of its template, after the files, before and in the rollovers, and at the bridge of field
names. -/
inductive Phase where
  | lookup
  | send (template : Option (String × Bool))
  | sent
  | list
  | rollover (streams : List (String × String)) (failures : List String)
  | bridge
  | finished
  deriving DecidableEq

structure SetupRun where
  serverless : Bool
  files : List AssetFile
  changes : TemplateChanges
  report : SetupReport
  phase : Phase

/-- What becomes of a request: it is answered, or done while its answer is lost, or refused. -/
inductive Answer where
  | ok
  | lost
  | refused (forbidden : Bool)
  deriving DecidableEq

inductive Action where
  | begin (serverless securityEnabled : Bool) (files : List AssetFile)
  | request (answer : Answer)
  | bridge (failedIndices : Option (List String))
  | stop
  | createStream (stream : String)
  | rolloverStream (stream : String)
  | deleteStream (stream : String)

structure State where
  cluster : Cluster
  run : Option SetupRun

def State.start : State := ⟨.empty, none⟩

namespace SetupRun

def settle (run : SetupRun) : SetupRun :=
  match run.files with
  | [] => { run with phase := .sent }
  | _ :: _ => { run with phase := .lookup }

def begin (serverless securityEnabled : Bool) (files : List AssetFile) : SetupRun :=
  settle
    { serverless
      files := files.filter fun file => !shouldSkipAsset file.asset securityEnabled
      changes := .none
      report := ⟨[], []⟩
      phase := .lookup }

/-- The version of a template as a run learns of it. -/
def lookUp (cluster : Cluster) (file : AssetFile) : Answer → Option ℕ
  | .ok => cluster.installedVersion file.asset.endpoint file.name
  | .lost | .refused _ => none

/-- Look up the version of the next file, and leave a newer template as it is. -/
def looked (run : SetupRun) (installed : Option ℕ) (file : AssetFile) (rest : List AssetFile) :
    SetupRun :=
  if isTemplateAsset file.asset then
    if templateVersionDowngrade installed file.contents.version then
      settle { run with files := rest }
    else
      { run with
        phase :=
          .send (some (file.name, templateVersionBumped installed file.contents.version)) }
  else { run with phase := .send none }

/-- A file that could not be sent, or so it seems. -/
def unsent (run : SetupRun) (file : AssetFile) (rest : List AssetFile) (forbidden : Bool) :
    SetupRun :=
  if run.serverless && (file.asset.requiresSecurity && forbidden) then
    settle { run with files := rest }
  else
    settle { run with
      files := rest
      report := run.report.warn ("Failed to install elasticsearch asset " ++ file.path ++
        ". Check setup logs and rerun setup.") }

def recorded (run : SetupRun) (template : Option (String × Bool)) (file : AssetFile)
    (rest : List AssetFile) : SetupRun :=
  settle { run with
    files := rest
    changes :=
      match template with
      | some (_, changed) => run.changes.record file changed
      | none => run.changes }

def send (run : SetupRun) (cluster : Cluster) (template : Option (String × Bool))
    (file : AssetFile) (rest : List AssetFile) : Answer → Cluster × SetupRun
  | .ok => (cluster.putFile file, run.recorded template file rest)
  | .lost => (cluster.putFile file, run.unsent file rest false)
  | .refused forbidden => (cluster, run.unsent file rest forbidden)

def unlisted (run : SetupRun) : SetupRun :=
  { run with
    phase := .bridge
    report := run.report.warn ("Could not list ESDiag data streams to apply updated " ++
      "templates. Check connectivity and data stream privileges, then rerun setup.") }

/-- Go on with the rollovers, or report those that failed. -/
def rolled (run : SetupRun) (streams : List (String × String)) (failures : List String) :
    SetupRun :=
  match streams with
  | _ :: _ => { run with phase := .rollover streams failures }
  | [] =>
    if failures.isEmpty then { run with phase := .bridge }
    else
      { run with
        phase := .bridge
        report := run.report.warn ("Could not roll over data streams " ++
          String.intercalate ", " failures ++ " to apply updated templates. Roll them over " ++
          "manually, then rerun failed diagnostics.") }

def rollover (run : SetupRun) (cluster : Cluster) (stream : String)
    (rest : List (String × String)) (failures : List String) : Answer → Cluster × SetupRun
  | .ok => (cluster.rollover stream, run.rolled rest failures)
  | .lost => (cluster.rollover stream, run.rolled rest (failures ++ [stream]))
  | .refused _ => (cluster, run.rolled rest (failures ++ [stream]))

def bridged (run : SetupRun) (failedIndices : Option (List String)) : SetupRun :=
  match failedIndices with
  | some [] => { run with phase := .finished }
  | some failedIndices =>
    { run with
      phase := .finished
      report := { failedIndices, warnings := run.report.warnings ++ ["Check the failed indices " ++
        "for mapping limits or write blocks. For a total-fields-limit error, raise " ++
        "index.mapping.total_fields.limit, then rerun setup."] } }
  | none =>
    { run with
      phase := .finished
      report := run.report.warn ("Could not inspect or update existing index mappings. Check " ++
        "connectivity and mapping privileges, then rerun setup.") }

end SetupRun

section Steps

variable (resolve : KeyedMap String Scope → String → Option String)

/-- The index template that a data stream resolves to. -/
def Cluster.templateOf (cluster : Cluster) (stream : String) : Option String :=
  resolve cluster.scopes stream

/-- The data streams to roll over, by name. -/
def dataStreamsToRollOver (cluster : Cluster) (updatedTemplates : List String) :
    List (String × String) :=
  cluster.dataStreams.inOrder.filterMap fun entry =>
    ((cluster.templateOf resolve entry.1).filter fun template =>
      decide (template ∈ updatedTemplates)).map fun template => (entry.1, template)

/-- The next request of a run, with what becomes of it. -/
def SetupRun.advance (run : SetupRun) (cluster : Cluster) (answer : Answer) :
    Cluster × SetupRun :=
  match run.phase, run.files with
  | .lookup, file :: rest => (cluster, run.looked (lookUp cluster file answer) file rest)
  | .send template, file :: rest => run.send cluster template file rest answer
  | .sent, _ =>
    if run.changes.updatedIndexTemplates.isEmpty then (cluster, { run with phase := .bridge })
    else (cluster, { run with phase := .list })
  | .list, _ =>
    if answer = .ok then
      (cluster, run.rolled
        (dataStreamsToRollOver resolve cluster run.changes.updatedIndexTemplates) [])
    else (cluster, run.unlisted)
  | .rollover ((stream, _) :: rest) failures, _ => run.rollover cluster stream rest failures answer
  | _, _ => (cluster, run)

def step (s : State) : Action → State
  | .begin serverless securityEnabled files =>
    match s.run with
    | none => { s with run := some (.begin serverless securityEnabled files) }
    | some run =>
      if run.phase = .finished then
        { s with run := some (.begin serverless securityEnabled files) }
      else s
  | .request answer =>
    match s.run with
    | none => s
    | some run =>
      let (cluster, run) := run.advance resolve s.cluster answer
      ⟨cluster, some run⟩
  | .bridge failedIndices =>
    match s.run with
    | none => s
    | some run =>
      if run.phase = .bridge then { s with run := some (run.bridged failedIndices) } else s
  | .stop => { s with run := none }
  | .createStream stream => { s with cluster := s.cluster.createStream stream }
  | .rolloverStream stream => { s with cluster := s.cluster.rollover stream }
  | .deleteStream stream => { s with cluster := s.cluster.deleteStream stream }

end Steps

end Esdiag.TemplateUpgrades
