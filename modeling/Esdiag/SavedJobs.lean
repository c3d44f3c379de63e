import Esdiag.JobModel

/-!
Saved jobs and the drafts of the form in which they are edited. A draft is
normalized first: targets that are not available for its stages are cleared.
It is then compiled by the job builder; a job is projected back field by field.
Host references, addresses and the filesystem are asked through an environment
that answers alike both times.
-/
namespace Esdiag.SavedJobs

open SourceRegistry ProcessSelections Deployments JobModel

inductive CollectMode where
  | collect
  | upload
  deriving DecidableEq

inductive CollectSource where
  | knownHost
  | apiKey
  | serviceLink
  | uploadFile
  deriving DecidableEq

inductive ProcessMode where
  | process
  | forward
  deriving DecidableEq

inductive SendMode where
  | toRemote
  | toLocal
  deriving DecidableEq

structure JobDraftCollect where
  mode : CollectMode
  source : CollectSource
  knownHost : String
  diagnosticType : String
  save : Bool
  downloadDir : String

structure JobDraftProcess where
  mode : ProcessMode
  enabled : Bool
  product : String
  diagnosticType : String
  advanced : Bool
  selected : String

structure JobDraftSend where
  mode : SendMode
  remoteTarget : Option String
  localTarget : String
  localDirectory : String
  rawRemoteTarget : Option String
  rawLocal : Bool

/-- The fields of the form, which the signals of the browser carry. -/
structure JobDraft where
  collect : JobDraftCollect
  process : JobDraftProcess
  send : JobDraftSend

def defaultProcessProduct : String := "elasticsearch"

def defaultDiagnosticType : String := "standard"

def defaultDraft : JobDraft where
  collect := ⟨.collect, .knownHost, "", defaultDiagnosticType, false, ""⟩
  process := ⟨.process, true, defaultProcessProduct, defaultDiagnosticType, false, ""⟩
  send := ⟨.toRemote, none, "", "", none, false⟩

structure DraftTargetAvailability where
  processedDocuments : Bool
  rawBundle : Bool

def notBlank (target : String) : Bool := !Texts.isBlank target

namespace JobDraft

def targetAvailability (self : JobDraft) : DraftTargetAvailability where
  processedDocuments := self.process.enabled && self.process.mode == .process
  rawBundle := self.collect.mode == .upload || self.collect.save

def dropBlankRawTarget (self : JobDraft) : JobDraft :=
  { self with send.rawRemoteTarget := self.send.rawRemoteTarget.filter notBlank }

/-- A draft that only forwards takes its remote target for the raw bundle. -/
def adoptForwardTarget (self : JobDraft) : JobDraft :=
  if !self.process.enabled && self.process.mode == .forward && self.send.mode == .toRemote &&
      self.send.rawRemoteTarget.isNone then
    { self with send.rawRemoteTarget := self.send.remoteTarget.filter notBlank }
  else self

def saveRawLocal (self : JobDraft) : JobDraft :=
  if self.send.rawLocal && self.collect.mode == .collect then
    { self with collect.save := true }
  else self

def clearDocumentTargets (self : JobDraft) : JobDraft :=
  if !self.targetAvailability.processedDocuments then
    { self with
      send.remoteTarget := none
      send.localTarget := ""
      send.localDirectory := "" }
  else self

def clearRawTargets (self : JobDraft) : JobDraft :=
  if !self.targetAvailability.rawBundle then
    { self with send.rawRemoteTarget := none, send.rawLocal := false }
  else self

def normalizeTargets (self : JobDraft) : JobDraft :=
  self.dropBlankRawTarget.adoptForwardTarget.saveRawLocal.clearDocumentTargets.clearRawTargets

end JobDraft

/-- What the address parser reads in an address. -/
structure ParsedUrl where
  scheme : String
  filePath : Option PathBuf
  domain : Option String
  username : String
  password : Option String
  text : String

/-- The configured hosts, the address parser and the filesystem. -/
structure Environment where
  isHostReference : String → Except String Bool
  resolveHost : String → Except String Uri
  parseUrl : String → Option ParsedUrl
  pathExists : PathBuf → Bool
  isDir : PathBuf → Bool
  isFile : PathBuf → Bool

namespace Environment

variable (env : Environment)

/-- A host reference keeps the trimmed name. -/
def parseHostReference (value : String) : Except String (Option String) :=
  (env.isHostReference (Texts.trim value)).map fun known =>
    if known then some (Texts.trim value) else none

/-- The last component of a path that names anything. -/
def fileName (path : String) : Option String :=
  match ((Texts.split '/' path).filter fun part => part != "" && part != ".").getLast? with
  | some name => if name = ".." then none else some name
  | none => none

def hasExtension (path : String) : Bool :=
  (fileName path).any fun name =>
    match Texts.rsplitOnce '.' name with
    | some (stem, _) => stem != ""
    | none => false

def fileUri (uri : String) (url : ParsedUrl) : Except String Uri :=
  match url.filePath with
  | none => .error ("Invalid file URI: " ++ uri)
  | some path =>
    if Texts.endsWith uri "/" then .ok (.directory path)
    else if env.pathExists path && env.isDir path then .ok (.directory path)
    else .ok (.file path)

def networkUri (url : ParsedUrl) : Except String Uri :=
  match url.domain with
  | none => .error "URL is missing a domain"
  | some domain =>
    if domain = "upload.elastic.co" && url.username == "token" && url.password.isSome then
      .ok (.serviceLink url.text)
    else if domain = "upload.elastic.co" && url.password.isNone then
      .ok (.serviceLinkNoAuth url.text)
    else .ok (.url url.text)

def pathUri (uri : String) : Uri :=
  if env.isDir (.ofString uri) then .directory (.ofString uri)
  else if !env.isFile (.ofString uri) && !hasExtension uri then .directory (.ofString uri)
  else .file (.ofString uri)

/-- `Uri::try_from` for a text. -/
def uriTryFrom (uri : String) : Except String Uri :=
  if uri = "-" || uri = "stdio://stdout" then .ok .stream
  else
    match env.parseHostReference uri with
    | .error message => .error message
    | .ok (some name) => env.resolveHost name
    | .ok none =>
      match env.parseUrl uri with
      | some url => if url.scheme = "file" then env.fileUri uri url else networkUri url
      | none => .ok (env.pathUri uri)

/-- `JobOutput::from_cli_target`. -/
def fromCliTarget (target : String) : Except String ExportTarget :=
  match env.parseHostReference target with
  | .error message => .error message
  | .ok (some name) => .ok (.knownHost name)
  | .ok none =>
    match env.uriTryFrom target with
    | .error message => .error message
    | .ok (.directory outputDir) => .ok (.directory outputDir)
    | .ok (.file path) => .ok (.file path)
    | .ok .stream => .ok .stdout
    | .ok _ =>
      .error "Jobs require an explicit known host or local filesystem output target"

/-- `JobOutput::from_signals_send`. -/
def fromSignalsSend (signals : JobDraft) : Except String ExportTarget :=
  match signals.send.mode with
  | .toRemote =>
    let target := Texts.trim (signals.send.remoteTarget.getD "")
    if target = "" then .error "Process jobs require a remote output target"
    else
      match env.parseHostReference target with
      | .error message => .error message
      | .ok none => .error ("Remote output host '" ++ target ++ "' is no longer configured")
      | .ok (some name) => .ok (.knownHost name)
  | .toLocal =>
    if signals.send.localTarget = "directory" then
      let directory := Texts.trim signals.send.localDirectory
      if directory = "" then .error "Process jobs require a local output directory"
      else .ok (.directory (.ofString directory))
    else
      let target := Texts.trim signals.send.localTarget
      if target = "" then .error "Process jobs require a local output target"
      else env.fromCliTarget target

end Environment

def intermediateDownloadDir (signals : JobDraft) : Option String :=
  if signals.collect.save && notBlank signals.collect.downloadDir then
    some signals.collect.downloadDir
  else none

def splitSelected (selected : String) : List String :=
  ((Texts.split ',' selected).map Texts.trim).filter fun value => value != ""

def explicitProcessSelection (registry : Registry) (signals : JobDraft) :
    Except String (Option ProcessSelection) :=
  let selected := splitSelected signals.process.selected
  if selected.isEmpty && signals.process.product == "elasticsearch" &&
      signals.process.diagnosticType == "standard" then
    .ok none
  else
    (resolveProcessingSelection registry signals.process.product signals.process.diagnosticType
      selected).map fun selected =>
        some ⟨signals.process.product, signals.process.diagnosticType, selected⟩

structure CollectDraft where
  host : String
  diagnosticType : String
  saveDir : Option PathBuf

/-- The builder once the collection is known. -/
structure JobBuilder where
  identifiers : Identifiers
  collect : CollectDraft

namespace JobBuilder

def saveCollectedBundleTo (self : JobBuilder) (saveDir : Option String) : JobBuilder :=
  match saveDir with
  | some dir => { self with collect.saveDir := some (.ofString dir) }
  | none => self

def build (self : JobBuilder) (save : Option SaveTarget) (process : Option Process)
    (send : Option SendTarget) : Except String Job :=
  (Job.tryNew self.identifiers (.collect self.collect.host self.collect.diagnosticType none none)
    save process send).mapError JobValidationError.message

def collectTo (self : JobBuilder) (outputDir : String) : Except String Job :=
  if outputDir = "" then .error "Collect jobs require an output directory"
  else if self.collect.saveDir.isSome then
    .error "Collect jobs use output_dir as their final diagnostic bundle destination"
  else self.build (some (.retained (.ofString outputDir))) none none

/-- The save that a send needs: retained where a directory was chosen. -/
def bundleForSend (self : JobBuilder) : SaveTarget :=
  (self.collect.saveDir.map SaveTarget.retained).getD .temporary

def sendTo (self : JobBuilder) (uploadId : String) : Except String Job :=
  if Texts.isBlank uploadId then
    .error "Send jobs require an Elastic Upload Service ID or URL"
  else self.build (some self.bundleForSend) none (some ⟨uploadId⟩)

def processToWithSelection (self : JobBuilder) (output : ExportTarget)
    (selection : Option ProcessSelection) : Except String Job :=
  self.build (self.collect.saveDir.map SaveTarget.retained) (some ⟨selection, output⟩) none

def processAndSendTo (self : JobBuilder) (output : ExportTarget)
    (selection : Option ProcessSelection) (uploadId : String) : Except String Job :=
  if Texts.isBlank uploadId then
    .error "Send jobs require an Elastic Upload Service ID or URL"
  else self.build (some self.bundleForSend) (some ⟨selection, output⟩) (some ⟨uploadId⟩)

/-- The branch of a draft that processes. -/
def processSignals (env : Environment) (registry : Registry) (self : JobBuilder)
    (signals : JobDraft) : Except String Job :=
  match env.fromSignalsSend signals with
  | .error message => .error message
  | .ok output =>
    match explicitProcessSelection registry signals with
    | .error message => .error message
    | .ok selection =>
      match signals.send.rawRemoteTarget with
      | some uploadId => self.processAndSendTo output selection uploadId
      | none => self.processToWithSelection output selection

/-- The branch of a draft that only sends the raw bundle. -/
def forwardSignals (self : JobBuilder) (signals : JobDraft) : Except String Job :=
  match signals.send.rawRemoteTarget.or signals.send.remoteTarget with
  | none => .error "Send jobs require a remote target"
  | some uploadId => self.sendTo uploadId

/-- The branch of a draft that only collects. -/
def collectSignals (self : JobBuilder) (signals : JobDraft) : Except String Job :=
  if signals.collect.save && notBlank signals.collect.downloadDir then
    self.collectTo signals.collect.downloadDir
  else if signals.send.localTarget == "directory" && notBlank signals.send.localDirectory then
    self.collectTo signals.send.localDirectory
  else .error "Collect-only jobs require an output directory"

end JobBuilder

def collectFrom (env : Environment) (identifiers : Identifiers) (host diagnosticType : String) :
    Except String JobBuilder :=
  match env.parseHostReference host with
  | .error message => .error message
  | .ok none =>
    .error "Jobs require a saved known host name or Elastic CLI context as input"
  | .ok (some name) => .ok ⟨identifiers, name, diagnosticType, none⟩

/-- `from_signals` once the targets are normalized. -/
def compileSignals (env : Environment) (registry : Registry) (identifiers : Identifiers)
    (signals : JobDraft) : Except String Job :=
  if signals.collect.mode ≠ .collect then .error "Jobs require collect mode"
  else if signals.collect.source ≠ .knownHost then
    .error "Jobs require a known-host collection source"
  else
    match collectFrom env identifiers signals.collect.knownHost
      signals.collect.diagnosticType with
    | .error message => .error message
    | .ok builder =>
      if signals.process.enabled && signals.process.mode == .process then
        (builder.saveCollectedBundleTo (intermediateDownloadDir signals)).processSignals env
          registry signals
      else if signals.process.mode == .forward && signals.send.mode == .toRemote then
        (builder.saveCollectedBundleTo (intermediateDownloadDir signals)).forwardSignals signals
      else builder.collectSignals signals

def fromSignals (env : Environment) (registry : Registry) (signals : JobDraft)
    (identifiers : Identifiers) : Except String Job :=
  compileSignals env registry identifiers signals.normalizeTargets

/-- `ExportTarget::apply_to_signals`. -/
def applyToSignals (signals : JobDraft) : ExportTarget → JobDraft
  | .knownHost name =>
    { signals with send.mode := .toRemote, send.remoteTarget := some name }
  | .environment => { signals with send.mode := .toRemote, send.remoteTarget := none }
  | .directory outputDir =>
    { signals with
      send.mode := .toLocal
      send.localTarget := "directory"
      send.localDirectory := outputDir.shown }
  | .file path => { signals with send.mode := .toLocal, send.localTarget := path.shown }
  | .stdout => { signals with send.mode := .toLocal, send.localTarget := "-" }
  | .binding _ =>
    { signals with
      send.remoteTarget := none
      send.localTarget := ""
      send.localDirectory := "" }

namespace ToSignals

def withInput (signals : JobDraft) : Input → JobDraft
  | .collect host diagnosticType _ _ =>
    { signals with
      collect.mode := .collect
      collect.source := .knownHost
      collect.knownHost := host
      collect.diagnosticType := diagnosticType }
  | _ => signals

def withSave (signals : JobDraft) : Option SaveTarget → JobDraft
  | some save =>
    { signals with
      collect.save := save.isRetained
      collect.downloadDir := (save.dir.map PathBuf.shown).getD "" }
  | none => signals

def withSelection (signals : JobDraft) : Option ProcessSelection → JobDraft
  | some selection =>
    { signals with
      process.product := selection.product
      process.diagnosticType := selection.diagnosticType
      process.advanced := !selection.selected.isEmpty
      process.selected := Texts.join "," selection.selected }
  | none => signals

def withProcess (signals : JobDraft) (send : Option SendTarget) : Option Process → JobDraft
  | some process =>
    let processing : JobDraft :=
      { signals with process.enabled := true, process.mode := .process }
    applyToSignals (withSelection processing process.selection) process.exportTarget
  | none =>
    let forwarding : JobDraft :=
      { signals with process.enabled := false, process.mode := .forward }
    if send.isSome then forwarding
    else
      { forwarding with
        send.mode := .toLocal
        send.localTarget := "directory"
        send.localDirectory := signals.collect.downloadDir }

def withSend (signals : JobDraft) (process : Option Process) : Option SendTarget → JobDraft
  | some send =>
    let sending : JobDraft := { signals with send.rawRemoteTarget := some send.uploadId }
    if process.isNone then
      { sending with send.mode := .toRemote, send.remoteTarget := some send.uploadId }
    else sending
  | none => signals

end ToSignals

open ToSignals in
/-- `Job::to_signals`. -/
def toSignals (job : Job) : JobDraft :=
  withSend (withProcess (withSave (withInput defaultDraft job.input) job.save) job.send
    job.process) job.process job.send

end Esdiag.SavedJobs
