import Esdiag.JobModel
import Esdiag.YamlValues

/-!
The written form of a job. Every stage is a record of its own, absent stages
and empty identifiers are left out, and a job that is read is built by the same
validated constructor as any other. Reading fills the user that a job does not
name with the ambient one, so a written job reads back with that default.
-/
namespace Esdiag.JobDocuments

open KeyedMaps YamlValues Fields Deployments ProcessSelections JobModel

/-- The serializer of a location, which resolves hosts and paths. -/
structure UriSerde where
  read : Yaml → Option Uri
  write : Uri → Option Yaml

/-- An identifier; the empty text stands for none. -/
def readIdentifier : Yaml → Option (Option String)
  | .null => some none
  | .string text => some (if text = "" then none else some text)
  | _ => none

/-- A platform; a text that names none is no error. -/
def readPlatformIdentifier : Yaml → Option (Option Platform)
  | .null => some none
  | .string text => some (Platform.fromStr (Texts.trim text))
  | _ => none

/-- The platform under its present or its former key, not both. -/
def readPlatformField (fields : Fields) : Option (Option Platform) :=
  match findEntry "platform" fields, findEntry "orchestration" fields with
  | none, none => some none
  | some value, none | none, some value => readPlatformIdentifier value
  | some _, some _ => none

def readIdentifiers (ambientUser : Option String) (value : Yaml) : Option Identifiers := do
  let fields ← value.asMapping
  let unset := Identifiers.default ambientUser
  let account ← withDefault "account" readIdentifier unset.account fields
  let caseNumber ← withDefault "case_number" readIdentifier unset.caseNumber fields
  let filename ← withDefault "filename" readIdentifier unset.filename fields
  let opportunity ← withDefault "opportunity" readIdentifier unset.opportunity fields
  let user ← withDefault "user" readIdentifier unset.user fields
  let parentId ← withDefault "parent_id" readIdentifier unset.parentId fields
  let platform ← readPlatformField fields
  pure { account, caseNumber, filename, opportunity, user, parentId, platform }

def writeIdentifiers (identifiers : Identifiers) : Yaml :=
  .mapping (present "account" (identifiers.account.map .string) ++
    present "case_number" (identifiers.caseNumber.map .string) ++
    present "filename" (identifiers.filename.map .string) ++
    present "opportunity" (identifiers.opportunity.map .string) ++
    present "user" (identifiers.user.map .string) ++
    present "parent_id" (identifiers.parentId.map .string) ++
    present "platform" (identifiers.platform.map fun platform => .string platform.key))

def readPath (value : Yaml) : Option PathBuf := value.asString.map PathBuf.ofString

/-- A path that is no text cannot be written. -/
def writePath (path : PathBuf) : Option Yaml :=
  if path.rawBytes.isSome then none else some (.string path.shown)

def readBindingKey (value : Yaml) : Option BindingKey := value.asString.map BindingKey.mk

def readInput (uris : UriSerde) (value : Yaml) : Option Input := do
  let fields ← value.asMapping
  let type ← required "type" Yaml.asString fields
  if type = "collect" then do
    let host ← required "host" Yaml.asString fields
    let diagnosticType ← required "diagnostic_type" Yaml.asString fields
    let included ← ifPresent "include" readStrings fields
    let excluded ← ifPresent "exclude" readStrings fields
    pure (.collect host diagnosticType included excluded)
  else if type = "collect-binding" then do
    let binding ← required "binding" readBindingKey fields
    let diagnosticType ← required "diagnostic_type" Yaml.asString fields
    let included ← ifPresent "include" readStrings fields
    let excluded ← ifPresent "exclude" readStrings fields
    pure (.collectBinding binding diagnosticType included excluded)
  else if type = "load" then do
    let uri ← required "uri" uris.read fields
    pure (.load uri)
  else if type = "load-binding" then do
    let binding ← required "binding" readBindingKey fields
    pure (.loadBinding binding)
  else none

/-- The filters of a collection, as both kinds of it write them. -/
def writeFilters (included excluded : Option (List String)) : Fields :=
  present "include" (included.map .ofStrings) ++ present "exclude" (excluded.map .ofStrings)

def writeInput (uris : UriSerde) : Input → Option Yaml
  | .collect host diagnosticType included excluded =>
    some (.mapping (("type", .string "collect") :: ("host", .string host) ::
      ("diagnostic_type", .string diagnosticType) :: writeFilters included excluded))
  | .collectBinding binding diagnosticType included excluded =>
    some (.mapping (("type", .string "collect-binding") :: ("binding", .string binding.text) ::
      ("diagnostic_type", .string diagnosticType) :: writeFilters included excluded))
  | .load uri =>
    (uris.write uri).map fun uri => .mapping [("type", .string "load"), ("uri", uri)]
  | .loadBinding binding =>
    some (.mapping [("type", .string "load-binding"), ("binding", .string binding.text)])

def readSave (value : Yaml) : Option SaveTarget := do
  let fields ← value.asMapping
  let dir ← ifPresent "dir" readPath fields
  pure ⟨dir⟩

def writeSave (save : SaveTarget) : Option Yaml :=
  match save.dir with
  | none => some (.mapping [])
  | some dir => (writePath dir).map fun dir => .mapping [("dir", dir)]

def readExportTarget (value : Yaml) : Option ExportTarget := do
  let fields ← value.asMapping
  let type ← required "type" Yaml.asString fields
  if type = "known-host" then (required "name" Yaml.asString fields).map .knownHost
  else if type = "environment" then some .environment
  else if type = "file" then (required "path" readPath fields).map .file
  else if type = "directory" then (required "output_dir" readPath fields).map .directory
  else if type = "stdout" then some .stdout
  else if type = "binding" then (required "binding" readBindingKey fields).map .binding
  else none

def writeExportTarget : ExportTarget → Option Yaml
  | .knownHost name => some (.mapping [("type", .string "known-host"), ("name", .string name)])
  | .environment => some (.mapping [("type", .string "environment")])
  | .file path =>
    (writePath path).map fun path => .mapping [("type", .string "file"), ("path", path)]
  | .directory outputDir =>
    (writePath outputDir).map fun outputDir =>
      .mapping [("type", .string "directory"), ("output_dir", outputDir)]
  | .stdout => some (.mapping [("type", .string "stdout")])
  | .binding binding =>
    some (.mapping [("type", .string "binding"), ("binding", .string binding.text)])

def readSelection (value : Yaml) : Option ProcessSelection := do
  let fields ← value.asMapping
  let product ← required "product" Yaml.asString fields
  let diagnosticType ← required "diagnostic_type" Yaml.asString fields
  let selected ← required "selected" readStrings fields
  pure { product, diagnosticType, selected }

def writeSelection (selection : ProcessSelection) : Yaml :=
  .mapping [("product", .string selection.product),
    ("diagnostic_type", .string selection.diagnosticType),
    ("selected", .ofStrings selection.selected)]

def readProcess (value : Yaml) : Option Process := do
  let fields ← value.asMapping
  let selection ← ifPresent "selection" readSelection fields
  let exportTarget ← required "export" readExportTarget fields
  pure { selection, exportTarget }

def writeProcess (process : Process) : Option Yaml :=
  (writeExportTarget process.exportTarget).map fun target =>
    .mapping (present "selection" (process.selection.map writeSelection) ++ [("export", target)])

def readSend (value : Yaml) : Option SendTarget := do
  let fields ← value.asMapping
  let uploadId ← required "upload_id" Yaml.asString fields
  pure ⟨uploadId⟩

def writeSend (send : SendTarget) : Yaml := .mapping [("upload_id", .string send.uploadId)]

/-- A job is read through its validated constructor. -/
def readJob (uris : UriSerde) (ambientUser : Option String) (value : Yaml) : Option Job := do
  let fields ← value.asMapping
  let identifiers ← withDefault "identifiers" (readIdentifiers ambientUser)
    (Identifiers.default ambientUser) fields
  let input ← required "input" (readInput uris) fields
  let save ← ifPresent "save" readSave fields
  let process ← ifPresent "process" readProcess fields
  let send ← ifPresent "send" readSend fields
  (Job.tryNew identifiers input save process send).toOption

/-- Write an optional stage; one that cannot be written fails the job. -/
def writeStage {α : Type*} (write : α → Option Yaml) : Option α → Option (Option Yaml)
  | none => some none
  | some stage => (write stage).map some

def writeJob (uris : UriSerde) (job : Job) : Option Yaml := do
  let input ← writeInput uris job.input
  let save ← writeStage writeSave job.save
  let process ← writeStage writeProcess job.process
  let identifiers :=
    if job.identifiers.isEmpty then none else some (writeIdentifiers job.identifiers)
  pure (.mapping (present "identifiers" identifiers ++ [("input", input)] ++
    present "save" save ++ present "process" process ++ present "send" (job.send.map writeSend)))

/-- No identifier is the empty text, which would read back as none. -/
def NoEmptyText (identifiers : Identifiers) : Prop :=
  some "" ∉ [identifiers.account, identifiers.caseNumber, identifiers.filename,
    identifiers.opportunity, identifiers.user, identifiers.parentId]

/-- What is read of a written identifier. -/
def rereadIdentifier (value default : Option String) : Option String :=
  value.elim default fun text => if text = "" then none else some text

/-- What is read of written identifiers. -/
def rereadIdentifiers (ambientUser : Option String) (identifiers : Identifiers) : Identifiers :=
  { account := rereadIdentifier identifiers.account none
    caseNumber := rereadIdentifier identifiers.caseNumber none
    filename := rereadIdentifier identifiers.filename none
    opportunity := rereadIdentifier identifiers.opportunity none
    user := rereadIdentifier identifiers.user (Identifiers.default ambientUser).user
    parentId := rereadIdentifier identifiers.parentId none
    platform := identifiers.platform }

theorem rereadIdentifier_of_ne_empty {value : Option String} (default : Option String)
    (h : some "" ≠ value) : rereadIdentifier value default = value.or default := by
  cases value with
  | none => rfl
  | some text =>
    have htext : text ≠ "" := fun hempty => h (congrArg some hempty.symm)
    simp [rereadIdentifier, htext]

theorem rereadIdentifiers_of_noEmptyText (ambientUser : Option String) {identifiers : Identifiers}
    (h : NoEmptyText identifiers) :
    rereadIdentifiers ambientUser identifiers = identifiers.defaultUser ambientUser := by
  simp only [NoEmptyText, List.mem_cons, List.not_mem_nil, or_false, not_or] at h
  obtain ⟨haccount, hcase, hfilename, hopportunity, huser, hparent⟩ := h
  simp [rereadIdentifiers, rereadIdentifier_of_ne_empty, haccount, hcase, hfilename, hopportunity,
    huser, hparent, Identifiers.default, Identifiers.defaultUser]

theorem withDefault_identifier {key : String} {fields : Fields} {value : Option String}
    (default : Option String) (hfield : findEntry key fields = value.map .string) :
    withDefault key readIdentifier default fields = some (rereadIdentifier value default) := by
  unfold withDefault
  rw [hfield]
  cases value with
  | none => rfl
  | some text => rfl

theorem readIdentifiers_write (ambientUser : Option String) (identifiers : Identifiers) :
    readIdentifiers ambientUser (writeIdentifiers identifiers) =
      some (rereadIdentifiers ambientUser identifiers) := by
  obtain ⟨account, caseNumber, filename, opportunity, user, parentId, platform⟩ := identifiers
  let fields := present "account" (account.map Yaml.string) ++
    present "case_number" (caseNumber.map .string) ++
    present "filename" (filename.map .string) ++
    present "opportunity" (opportunity.map .string) ++
    present "user" (user.map .string) ++
    present "parent_id" (parentId.map .string) ++
    present "platform" (platform.map fun platform => .string platform.key)
  have hplatform : readPlatformField fields = some platform := by
    unfold readPlatformField
    cases platform with
    | none => simp [fields]
    | some platform =>
      simp [fields, readPlatformIdentifier, Platform.fromStr_trim_key]
  have hread : ∀ key value default, findEntry key fields = Option.map Yaml.string value →
      withDefault key readIdentifier default fields = some (rereadIdentifier value default) :=
    fun key value default hfield => withDefault_identifier default hfield
  unfold readIdentifiers writeIdentifiers
  simp only [Yaml.asMapping, Option.bind_eq_bind, Option.bind_some]
  rw [hread "account" account _ (by simp [fields]),
    hread "case_number" caseNumber _ (by simp [fields]),
    hread "filename" filename _ (by simp [fields]),
    hread "opportunity" opportunity _ (by simp [fields]),
    hread "user" user _ (by simp [fields]),
    hread "parent_id" parentId _ (by simp [fields]), hplatform]
  rfl

theorem readPath_write {path : PathBuf} {value : Yaml} (h : writePath path = some value) :
    readPath value = some path ∧ value.isNull = false := by
  obtain ⟨shown, rawBytes⟩ := path
  unfold writePath at h
  cases rawBytes with
  | some bytes => simp at h
  | none =>
    obtain rfl : Yaml.string shown = value := by simpa using h
    exact ⟨rfl, rfl⟩

theorem readInput_write (uris : UriSerde) (host diagnosticType : String)
    (included excluded : Option (List String)) {value : Yaml}
    (h : writeInput uris (.collect host diagnosticType included excluded) = some value) :
    readInput uris value = some (.collect host diagnosticType included excluded) := by
  obtain rfl := Option.some.inj h
  have hnames : ∀ (key : String) (names : Option (List String)) (fields : Fields),
      findEntry key fields = names.map .ofStrings → ifPresent key readStrings fields = some names :=
    fun key names fields hfield =>
      ifPresent_of_findEntry .ofStrings hfield fun names _ => ⟨readStrings_ofStrings names, rfl⟩
  let fields : Fields := ("type", .string "collect") :: ("host", .string host) ::
    ("diagnostic_type", .string diagnosticType) :: writeFilters included excluded
  have hincluded := hnames "include" included fields (by simp [fields, findEntry, writeFilters])
  have hexcluded := hnames "exclude" excluded fields (by simp [fields, findEntry, writeFilters])
  unfold readInput
  simp only [Yaml.asMapping, Option.bind_eq_bind, Option.bind_some]
  rw [hincluded, hexcluded]
  rfl

theorem readSave_write {save : SaveTarget} {value : Yaml} (h : writeSave save = some value) :
    readSave value = some save ∧ value.isNull = false := by
  obtain ⟨dir⟩ := save
  cases dir with
  | none =>
    obtain rfl : Yaml.mapping [] = value := by simpa [writeSave] using h
    exact ⟨rfl, rfl⟩
  | some dir =>
    obtain ⟨written, hwritten, rfl⟩ : ∃ written, writePath dir = some written ∧
        Yaml.mapping [("dir", written)] = value := by simpa [writeSave] using h
    obtain ⟨hread, hnull⟩ := readPath_write hwritten
    exact ⟨by simp [readSave, Yaml.asMapping, ifPresent, findEntry, hread, hnull], rfl⟩

theorem readExportTarget_write {target : ExportTarget} {value : Yaml}
    (h : writeExportTarget target = some value) : readExportTarget value = some target := by
  cases target with
  | knownHost name =>
    obtain rfl := Option.some.inj h
    rfl
  | environment =>
    obtain rfl := Option.some.inj h
    rfl
  | file path =>
    obtain ⟨written, hwritten, rfl⟩ := Option.map_eq_some_iff.mp h
    simp [readExportTarget, Yaml.asMapping, required, findEntry, Yaml.asString,
      (readPath_write hwritten).1]
  | directory outputDir =>
    obtain ⟨written, hwritten, rfl⟩ := Option.map_eq_some_iff.mp h
    simp [readExportTarget, Yaml.asMapping, required, findEntry, Yaml.asString,
      (readPath_write hwritten).1]
  | stdout =>
    obtain rfl := Option.some.inj h
    rfl
  | binding binding =>
    obtain rfl := Option.some.inj h
    rfl

theorem readSelection_write (selection : ProcessSelection) :
    readSelection (writeSelection selection) = some selection := by
  unfold readSelection writeSelection
  simp [Yaml.asMapping, required, findEntry, Yaml.asString]

theorem readProcess_write {process : Process} {value : Yaml}
    (h : writeProcess process = some value) :
    readProcess value = some process ∧ value.isNull = false := by
  obtain ⟨target, htarget, rfl⟩ := Option.map_eq_some_iff.mp h
  have hselection : ifPresent "selection" readSelection
      (present "selection" (process.selection.map writeSelection) ++ [("export", target)]) =
      some process.selection :=
    ifPresent_of_findEntry writeSelection (by simp [findEntry]) fun selection _ =>
      ⟨readSelection_write selection, rfl⟩
  refine ⟨?_, rfl⟩
  unfold readProcess
  simp only [Yaml.asMapping, Option.bind_eq_bind, Option.bind_some, hselection, required]
  simp [findEntry, readExportTarget_write htarget]

theorem readSend_write (send : SendTarget) : readSend (writeSend send) = some send := rfl

/-- An optional stage is read back from the field it was written to. -/
theorem ifPresent_stage {α : Type*} {key : String} {read : Yaml → Option α}
    {write : α → Option Yaml} {stage : Option α} {written : Option Yaml} {fields : Fields}
    (hwrite : writeStage write stage = some written) (hfield : findEntry key fields = written)
    (hread : ∀ a value, write a = some value → read value = some a ∧ value.isNull = false) :
    ifPresent key read fields = some stage := by
  unfold ifPresent
  rw [hfield]
  cases stage with
  | none =>
    obtain rfl : none = written := by simpa [writeStage] using hwrite
    rfl
  | some a =>
    obtain ⟨value, hvalue, rfl⟩ := Option.map_eq_some_iff.mp hwrite
    obtain ⟨hback, hnull⟩ := hread a value hvalue
    simp [hback, hnull]

/-- What is read of a written job. -/
def rereadJob (ambientUser : Option String) (job : Job) : Job :=
  { job with identifiers :=
    if job.identifiers.isEmpty then Identifiers.default ambientUser
    else rereadIdentifiers ambientUser job.identifiers }

/-- A written collection job reads back, with what is read of its identifiers. -/
theorem readJob_write (uris : UriSerde) (ambientUser : Option String) {job : Job} {value : Yaml}
    (hinput : ∃ host diagnosticType included excluded,
      job.input = .collect host diagnosticType included excluded)
    (hwrite : writeJob uris job = some value) :
    readJob uris ambientUser value = some (rereadJob ambientUser job) := by
  obtain ⟨host, diagnosticType, included, excluded, hinput⟩ := hinput
  obtain ⟨identifiers, input, save, process, send, valid⟩ := job
  obtain rfl : input = .collect host diagnosticType included excluded := hinput
  unfold writeJob at hwrite
  simp only [Option.bind_eq_bind, Option.bind_eq_some_iff, Option.pure_def, Option.some.injEq]
    at hwrite
  obtain ⟨writtenInput, hwriteInput, writtenSave, hsave, writtenProcess, hprocess, rfl⟩ := hwrite
  let writtenIdentifiers :=
    if identifiers.isEmpty then none else some (writeIdentifiers identifiers)
  let fields : Fields := present "identifiers" writtenIdentifiers ++ [("input", writtenInput)] ++
    present "save" writtenSave ++ present "process" writtenProcess ++
    present "send" (send.map writeSend)
  have hidentifiers : withDefault "identifiers" (readIdentifiers ambientUser)
      (Identifiers.default ambientUser) fields =
      some (if identifiers.isEmpty then Identifiers.default ambientUser
        else rereadIdentifiers ambientUser identifiers) := by
    unfold withDefault
    by_cases hempty : identifiers.isEmpty = true
    · simp [fields, writtenIdentifiers, hempty, findEntry]
    · simp [fields, writtenIdentifiers, hempty, readIdentifiers_write]
  have hreadInput : required "input" (readInput uris) fields =
      some (.collect host diagnosticType included excluded) := by
    simp [required, fields, findEntry, readInput_write uris _ _ _ _ hwriteInput]
  have hreadSave : ifPresent "save" readSave fields = some save :=
    ifPresent_stage hsave (by simp [fields, findEntry]) fun a value h => readSave_write h
  have hreadProcess : ifPresent "process" readProcess fields = some process :=
    ifPresent_stage hprocess (by simp [fields, findEntry]) fun a value h => readProcess_write h
  have hreadSend : ifPresent "send" readSend fields = some send :=
    ifPresent_of_findEntry writeSend (by simp [fields, findEntry]) fun send _ =>
      ⟨readSend_write send, rfl⟩
  show readJob uris ambientUser (.mapping fields) = _
  unfold readJob
  simp only [Yaml.asMapping, Option.bind_eq_bind, Option.bind_some, hidentifiers, hreadInput,
    hreadSave, hreadProcess, hreadSend, Job.tryNew_ok valid]
  rfl

/-- Without empty texts a written job reads back with the ambient user as its default. -/
theorem readJob_write_of_noEmptyText (uris : UriSerde) (ambientUser : Option String) {job : Job}
    {value : Yaml}
    (hinput : ∃ host diagnosticType included excluded,
      job.input = .collect host diagnosticType included excluded)
    (hplain : NoEmptyText job.identifiers) (hwrite : writeJob uris job = some value) :
    readJob uris ambientUser value =
      some { job with identifiers := job.identifiers.defaultUser ambientUser } := by
  rw [readJob_write uris ambientUser hinput hwrite, rereadJob,
    rereadIdentifiers_of_noEmptyText ambientUser hplain]
  by_cases hempty : job.identifiers.isEmpty = true
  · rw [if_pos hempty, job.identifiers.default_eq_defaultUser hempty]
  · rw [if_neg hempty]

end Esdiag.JobDocuments
