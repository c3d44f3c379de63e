import Esdiag.ProcessSelections

/-!
The job: one diagnostic execution of six stages in three phases. A job exists
only with the proof that it passed validation, so that a save without a
collection, a send without a bundle or a job without work cannot be built. The
execution mode is derived from the stages and not stored.
-/
namespace Esdiag.JobModel

open Deployments ProcessSelections

/-- A path as it is displayed, with its bytes where they are not that text. -/
structure PathBuf where
  shown : String
  rawBytes : Option (List UInt8)
  deriving DecidableEq

namespace PathBuf

def ofString (text : String) : PathBuf := ⟨text, none⟩

end PathBuf

/-- The kinds of location; hosts and addresses are resolved elsewhere. -/
inductive Uri where
  | knownHost
  | elasticCloud
  | elasticCloudAdmin
  | elasticGovCloudAdmin
  | serviceLink (url : String)
  | serviceLinkNoAuth (url : String)
  | url (url : String)
  | directory (path : PathBuf)
  | file (path : PathBuf)
  | stream
  deriving DecidableEq

/-- The key of a resource that only the execution context holds. -/
structure BindingKey where
  text : String
  deriving DecidableEq

def BindingKey.isEmpty (key : BindingKey) : Bool := Texts.isBlank key.text

inductive Input where
  | collect (host diagnosticType : String) (included excluded : Option (List String))
  | collectBinding (binding : BindingKey) (diagnosticType : String)
      (included excluded : Option (List String))
  | load (uri : Uri)
  | loadBinding (binding : BindingKey)
  deriving DecidableEq

namespace Input

def isCollect : Input → Bool
  | collect .. | collectBinding .. => true
  | load _ | loadBinding _ => false

def isSendableBundle : Input → Bool
  | load (.file _) | load (.serviceLink _) | loadBinding _ => true
  | _ => false

def usesRuntimeBinding : Input → Bool
  | collectBinding .. | loadBinding _ => true
  | _ => false

def bindingIsEmpty : Input → Bool
  | collectBinding binding .. | loadBinding binding => binding.isEmpty
  | collect .. | load _ => false

/-- Locations that were already resolved to a host cannot be stored in a job. -/
def isResolvedHost : Input → Bool
  | load .knownHost | load .elasticCloud | load .elasticCloudAdmin
  | load .elasticGovCloudAdmin => true
  | _ => false

def hasEmptyHost : Input → Bool
  | collect host .. => Texts.isBlank host
  | _ => false

def collectDiagnosticType : Input → String
  | collect _ diagnosticType .. | collectBinding _ diagnosticType .. => diagnosticType
  | load _ | loadBinding _ => "standard"

def collectInclude : Input → Option (List String)
  | collect _ _ included _ | collectBinding _ _ included _ => included
  | load _ | loadBinding _ => none

def collectExclude : Input → Option (List String)
  | collect _ _ _ excluded | collectBinding _ _ _ excluded => excluded
  | load _ | loadBinding _ => none

end Input

/-- A bundle to write; without a directory it is temporary. -/
structure SaveTarget where
  dir : Option PathBuf
  deriving DecidableEq

namespace SaveTarget

def retained (dir : PathBuf) : SaveTarget := ⟨some dir⟩

def temporary : SaveTarget := ⟨none⟩

def isRetained (self : SaveTarget) : Bool := self.dir.isSome

end SaveTarget

inductive ExportTarget where
  | knownHost (name : String)
  | environment
  | file (path : PathBuf)
  | directory (outputDir : PathBuf)
  | stdout
  | binding (binding : BindingKey)
  deriving DecidableEq

structure Process where
  selection : Option ProcessSelection
  exportTarget : ExportTarget
  deriving DecidableEq

def Process.exportBindingIsEmpty (self : Process) : Bool :=
  match self.exportTarget with
  | .binding binding => binding.isEmpty
  | _ => false

structure SendTarget where
  uploadId : String
  deriving DecidableEq

inductive ExecutionMode where
  | staged
  | streaming
  deriving DecidableEq

inductive JobValidationError where
  | saveRequiresCollect
  | sendRequiresBundle
  | sendRequiresArchiveFile
  | noWork
  | temporarySaveRequiresConsumer
  | emptyCollectHost
  | resolvedLoadUriNotPersistable
  | emptyRuntimeBinding
  | runtimeBindingNotPersistable
  deriving DecidableEq

def JobValidationError.message : JobValidationError → String
  | saveRequiresCollect =>
    "`save` requires a `Collect` input: only newly collected diagnostics are saved"
  | sendRequiresBundle =>
    "`send` requires a bundle: a `Load` input, or `save` on a `Collect` input"
  | sendRequiresArchiveFile =>
    "`send` with `Load` requires a local bundle archive file; provide a .zip bundle or " ++
      "collect with `save` enabled"
  | noWork => "a job must select at least one of `save`, `process`, or `send`"
  | temporarySaveRequiresConsumer =>
    "temporary `save` requires `process` or `send` so the staged bundle is consumed before " ++
      "cleanup"
  | emptyCollectHost => "`Collect` input requires a non-empty host"
  | resolvedLoadUriNotPersistable =>
    "`Load` input cannot persist resolved host URIs; use a file, directory, URL, or stream " ++
      "reference"
  | emptyRuntimeBinding => "runtime binding key cannot be empty"
  | runtimeBindingNotPersistable =>
    "only stable known-host Collect inputs and stable outputs can be persisted as saved jobs"

def BindingKey.tryNew (value : String) : Except JobValidationError BindingKey :=
  if Texts.isBlank value then .error .emptyRuntimeBinding else .ok ⟨value⟩

/-- The checks of `Job::try_new`, in their order. -/
def validate (input : Input) (save : Option SaveTarget) (process : Option Process)
    (send : Option SendTarget) : Except JobValidationError Unit :=
  if save.isSome && !input.isCollect then .error .saveRequiresCollect
  else if input.hasEmptyHost then .error .emptyCollectHost
  else if input.bindingIsEmpty then .error .emptyRuntimeBinding
  else if process.any Process.exportBindingIsEmpty then .error .emptyRuntimeBinding
  else if input.isResolvedHost then .error .resolvedLoadUriNotPersistable
  else if send.isSome && input.isCollect && save.isNone then .error .sendRequiresBundle
  else if send.isSome && save.isNone && !input.isSendableBundle then
    .error .sendRequiresArchiveFile
  else if input.isCollect && save.isNone && process.isNone && send.isNone then .error .noWork
  else if (save.any fun target => !target.isRetained) && process.isNone && send.isNone then
    .error .temporarySaveRequiresConsumer
  else .ok ()

structure Job where
  identifiers : Identifiers
  input : Input
  save : Option SaveTarget
  process : Option Process
  send : Option SendTarget
  valid : validate input save process send = .ok ()

namespace Job

def tryNew (identifiers : Identifiers) (input : Input) (save : Option SaveTarget)
    (process : Option Process) (send : Option SendTarget) : Except JobValidationError Job :=
  match h : validate input save process send with
  | .error error => .error error
  | .ok () => .ok ⟨identifiers, input, save, process, send, h⟩

def executionMode (job : Job) : ExecutionMode :=
  if job.input.isCollect && job.save.isNone && job.process.isSome then .streaming else .staged

def usesRuntimeBindings (job : Job) : Bool :=
  job.input.usesRuntimeBinding || job.process.any fun process =>
    match process.exportTarget with
    | .binding _ => true
    | _ => false

def validateForPersistence (job : Job) : Except JobValidationError Unit :=
  match job.input with
  | .collect .. =>
    if job.usesRuntimeBindings then .error .runtimeBindingNotPersistable else .ok ()
  | _ => .error .runtimeBindingNotPersistable

theorem tryNew_ok {identifiers : Identifiers} {input : Input} {save : Option SaveTarget}
    {process : Option Process} {send : Option SendTarget}
    (h : validate input save process send = .ok ()) :
    tryNew identifiers input save process send =
      .ok ⟨identifiers, input, save, process, send, h⟩ := by
  unfold tryNew
  split
  · rename_i error herror
    rw [h] at herror
    exact absurd herror (by simp)
  · rfl

/-- A built job holds what it was built from. -/
theorem tryNew_eq_ok {identifiers : Identifiers} {input : Input} {save : Option SaveTarget}
    {process : Option Process} {send : Option SendTarget} {job : Job}
    (h : tryNew identifiers input save process send = .ok job) :
    job.identifiers = identifiers ∧ job.input = input ∧ job.save = save ∧
      job.process = process ∧ job.send = send := by
  unfold tryNew at h
  split at h
  · exact absurd h (by simp)
  · obtain rfl := Except.ok.inj h
    exact ⟨rfl, rfl, rfl, rfl, rfl⟩

/-- Only a collection has a save. -/
theorem save_eq_none (job : Job) (h : job.input.isCollect = false) : job.save = none := by
  have hvalid := job.valid
  unfold validate at hvalid
  cases hsave : job.save with
  | none => rfl
  | some target => simp [hsave, h] at hvalid

/-- A collection without a save processes, and sends nothing. -/
theorem collect_without_save (job : Job) (hcollect : job.input.isCollect = true)
    (hsave : job.save = none) : job.process.isSome = true ∧ job.send = none := by
  have hvalid := job.valid
  unfold validate at hvalid
  cases hsend : job.send with
  | some target =>
    cases hhost : job.input.hasEmptyHost <;> cases hbinding : job.input.bindingIsEmpty <;>
      cases hexport : job.process.any Process.exportBindingIsEmpty <;>
      cases hresolved : job.input.isResolvedHost <;>
      simp [hsave, hcollect, hsend, hhost, hbinding, hexport, hresolved] at hvalid
  | none =>
    refine ⟨?_, rfl⟩
    cases hprocess : job.process with
    | some process => rfl
    | none =>
      cases hhost : job.input.hasEmptyHost <;> cases hbinding : job.input.bindingIsEmpty <;>
        cases hresolved : job.input.isResolvedHost <;>
        simp [hsave, hcollect, hsend, hprocess, hhost, hbinding, hresolved] at hvalid

/-- Streaming is for collections without a save. -/
theorem streaming_spec (job : Job) (h : job.executionMode = .streaming) :
    job.input.isCollect = true ∧ job.save = none := by
  cases hcollect : job.input.isCollect <;> cases hsave : job.save <;>
    simp [executionMode, hcollect, hsave] at h ⊢

theorem staged_spec (job : Job) (h : job.executionMode = .staged)
    (hcollect : job.input.isCollect = true) : job.save.isSome = true := by
  cases hsave : job.save with
  | some save => rfl
  | none =>
    have hprocess := (job.collect_without_save hcollect hsave).1
    simp [executionMode, hcollect, hsave, hprocess] at h

end Job

end Esdiag.JobModel
