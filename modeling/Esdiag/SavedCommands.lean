import Esdiag.DefaultReferences

/-!
When a saved command does what its direct run does. The saved job reads back
from its file as it was derived, so that only the derivation can lose an option.
A collection keeps its host and type, but neither its filters and its sources nor,
when it sends, its directory; a processing run keeps all but its sources, where its
host may be collected from and its output means the same by name.
-/
namespace Esdiag.SavedCommands

open KeyedMaps YamlValues Fields Deployments KnownHosts SourceRegistry ProcessSelections
  JobModel JobDocuments SavedJobFiles SavedJobStore LegacyMigration ApplicationConfigs
  OutputDeployments HostRoundTrip HostReferences CommandJobs DefaultReferences Outcomes

section Stored

variable {env : Environment}

theorem readJob_noEmptyText {ambientUser : Option String} {uris : UriSerde} {value : Yaml}
    {job : Job} (h : readJob uris ambientUser value = some job) : NoEmptyText job.identifiers := by
  unfold readJob at h
  simp only [Option.bind_eq_bind, Option.bind_eq_some_iff] at h
  obtain ⟨fields, -, identifiers, hidentifiers, input, -, save, -, process, -, send, -, hjob⟩ := h
  have hbuilt : Job.tryNew identifiers input save process send = .ok job := by
    cases hnew : Job.tryNew identifiers input save process send with
    | error error => simp [hnew, Except.toOption] at hjob
    | ok built => simpa [hnew, Except.toOption] using hjob
  rw [(Job.tryNew_eq_ok hbuilt).1]
  unfold withDefault at hidentifiers
  cases hfield : findEntry "identifiers" fields with
  | none =>
    obtain rfl : Identifiers.default ambientUser = identifiers := by
      simpa [hfield] using hidentifiers
    exact default_noEmptyText ambientUser
  | some field =>
    rw [hfield] at hidentifiers
    exact readIdentifiers_noEmptyText hidentifiers

theorem readJobsFile_noEmptyText {file : JobsFile} {jobs : SavedJobs} {rewrite : Bool}
    (h : readJobsFile env file = .ok (jobs, rewrite)) :
    ∀ e ∈ jobs.entries, NoEmptyText e.2.identifiers := by
  unfold readJobsFile at h
  cases file with
  | absent | blank =>
    obtain ⟨rfl, -⟩ := Prod.mk.inj (Except.ok.inj h)
    intro e he
    exact absurd he List.not_mem_nil
  | unparsed => exact absurd h (by simp)
  | document value =>
    cases hversion : schemaVersion value with
    | error error => simp [hversion] at h
    | ok version =>
      cases version with
      | none =>
        cases hlegacy : readLegacyJobs env value with
        | error error => simp [hversion, hlegacy] at h
        | ok legacyJobs =>
          cases hconvert : convertLegacyJobs env legacyJobs with
          | error error => simp [hversion, hlegacy, hconvert] at h
          | ok converted =>
            obtain ⟨rfl, -⟩ : converted = jobs ∧ (!legacyJobs.isEmpty) = rewrite := by
              simpa [hversion, hlegacy, hconvert] using h
            exact plain_of_converted env hlegacy hconvert
      | some version =>
        by_cases hcurrent : version = currentSchemaVersion
        · cases hread : readSavedJobsDocument env value with
          | error error => simp [hversion, hcurrent, hread] at h
          | ok read =>
            obtain ⟨rfl, -⟩ : read = jobs ∧ false = rewrite := by
              simpa [hversion, hcurrent, hread] using h
            unfold readSavedJobsDocument at hread
            cases hfield : value.asMapping.bind (findEntry "jobs") with
            | none => simp [hfield] at hread
            | some field =>
              rw [hfield] at hread
              intro e he
              obtain ⟨stored, hstored⟩ := exists_of_readMap hread e he
              exact readJob_noEmptyText hstored
        · simp [hversion, hcurrent] at h

theorem load_eq_ok {file : JobsFile} {jobs : SavedJobs}
    (h : (loadSavedJobsFromPath env file).1 = .ok jobs) :
    ∃ rewrite, readJobsFile env file = .ok (jobs, rewrite) := by
  unfold loadSavedJobsFromPath at h
  cases hread : readJobsFile env file with
  | error error => simp [hread] at h
  | ok read =>
    obtain ⟨found, rewrite⟩ := read
    cases rewrite with
    | false =>
      obtain rfl : found = jobs := by simpa [hread] using h
      exact ⟨false, rfl⟩
    | true =>
      cases hwrite : writeSavedJobsDocument env found with
      | error error => simp [hread, hwrite] at h
      | ok rewritten =>
        obtain rfl : found = jobs := by simpa [hread, hwrite] using h
        exact ⟨true, rfl⟩

/-- A saved job is found under its name as it was saved, but for the ambient user. -/
theorem load_saveJob {name : String} {job : Job} {file saved : JobsFile}
    (hplain : NoEmptyText job.identifiers) (h : saveJob env name job file = .ok saved) :
    ∃ jobs, (loadSavedJobsFromPath env saved).1 = .ok jobs ∧
      jobs.find? (Texts.trim name) =
        some { job with identifiers := job.identifiers.defaultUser env.ambientUser } := by
  unfold saveJob at h
  cases hcheck : (Operation.saveJob name job).precheck with
  | error error => simp [hcheck] at h
  | ok checked =>
    cases hload : (loadSavedJobsFromPath env file).1 with
    | error error => simp [hcheck, hload] at h
    | ok jobs =>
      have hwrite : writeSavedJobsDocument env (jobs.insert (Texts.trim name) job) = .ok saved :=
        mapError_eq_ok.mp (by simpa [hcheck, hload] using h)
      obtain ⟨rewrite, hread⟩ := load_eq_ok hload
      have hall : ∀ e ∈ (jobs.insert (Texts.trim name) job).entries,
          NoEmptyText e.2.identifiers := by
        intro e he
        have hvalue : e.2 ∈ (jobs.insert (Texts.trim name) job).values :=
          List.mem_map_of_mem he
        rcases KeyedMap.mem_values_insert hvalue with hnew | hold
        · rw [hnew]
          exact hplain
        · obtain ⟨old, hmem, hvalue⟩ := List.mem_map.mp hold
          rw [← hvalue]
          exact readJobsFile_noEmptyText hread old hmem
      refine ⟨withDefaultUsers env (jobs.insert (Texts.trim name) job), ?_, ?_⟩
      · rw [loadSavedJobsFromPath, readJobsFile_write env hall hwrite]
      · rw [withDefaultUsers, KeyedMap.find?_mapValues, KeyedMap.find?_insert_self]
        rfl

theorem newIdentifiers_noEmptyText
    (ambientUser account caseNumber filename opportunity user : Option String) :
    NoEmptyText (newIdentifiers ambientUser account caseNumber filename opportunity user) := by
  have hnormal := normalizeIdentifier_ne_empty
  have huser : (normalizeIdentifier user).or (normalizeIdentifier ambientUser) ≠ some "" := by
    cases hexplicit : normalizeIdentifier user with
    | none => simpa using hnormal ambientUser
    | some text =>
      rw [Option.some_or, ← hexplicit]
      exact hnormal user
  simp only [NoEmptyText, newIdentifiers, List.mem_cons, List.not_mem_nil, or_false, not_or]
  exact ⟨(hnormal _).symm, (hnormal _).symm, (hnormal _).symm, (hnormal _).symm, huser.symm,
    by simp⟩

theorem defaultUser_newIdentifiers
    (ambientUser account caseNumber filename opportunity user : Option String) :
    (newIdentifiers ambientUser account caseNumber filename opportunity user).defaultUser
        ambientUser =
      newIdentifiers ambientUser account caseNumber filename opportunity user := by
  simp only [newIdentifiers, Identifiers.defaultUser, Option.or_assoc, Option.or_self]

end Stored

section References

variable {Url : Type} {world : World Url}

theorem parseReference_trim (value : String) :
    parseReference world (Texts.trim value) = parseReference world value := by
  unfold parseReference
  rw [Texts.trim_trim]

theorem lookup_trim (value : String) :
    lookup world (Texts.trim value) = lookup world value := by
  unfold lookup
  rw [parseReference_trim]

theorem isHostReference_eq (name : String) :
    (environment world).isHostReference name = (parseReference world name).map Option.isSome := by
  rw [environment]

/-- The draft compiler reads a reference as the commands do, and keeps its trimmed name. -/
theorem parseHostReference_eq (value : String) :
    (environment world).parseHostReference value =
      (parseReference world value).map fun reference =>
        reference.map fun _ => Texts.trim value := by
  unfold SavedJobs.Environment.parseHostReference
  rw [isHostReference_eq, parseReference_trim]
  cases parseReference world value with
  | error message => simp only [Except.map]
  | ok reference => cases reference <;> simp [Except.map]

theorem lookup_eq_some {value : String} {host : ResolvedHost Url}
    (h : lookup world value = .ok (some host)) :
    ∃ reference, parseReference world value = .ok (some reference) := by
  unfold lookup at h
  cases hparse : parseReference world value with
  | error message => simp [hparse] at h
  | ok reference =>
    cases reference with
    | none => simp [hparse] at h
    | some reference => exact ⟨reference, rfl⟩

theorem parseReference_of_lookup_none {value : String} (h : lookup world value = .ok none) :
    parseReference world value = .ok none := by
  unfold lookup at h
  cases hparse : parseReference world value with
  | error message => simp [hparse] at h
  | ok reference =>
    cases reference with
    | none => rfl
    | some reference =>
      cases hresolve : resolveReference world reference with
      | error message => simp [hparse, hresolve, Except.map] at h
      | ok host => simp [hparse, hresolve, Except.map] at h

/-- A builder holds the trimmed name of a host and nothing to save to. -/
theorem collectFrom_eq_ok {identifiers : Identifiers} {host diagnosticType : String}
    {builder : SavedJobs.JobBuilder}
    (h : SavedJobs.collectFrom (environment world) identifiers host diagnosticType =
      .ok builder) :
    builder = ⟨identifiers, ⟨Texts.trim host, diagnosticType, none⟩⟩ ∧
      ∃ reference, parseReference world host = .ok (some reference) := by
  unfold SavedJobs.collectFrom at h
  rw [parseHostReference_eq] at h
  cases hparse : parseReference world host with
  | error message => simp [hparse, Except.map] at h
  | ok reference =>
    cases reference with
    | none => simp [hparse, Except.map] at h
    | some reference =>
      refine ⟨?_, reference, rfl⟩
      simpa [hparse, Except.map] using h.symm

/-- What a location that is a host or no stream was found as. -/
theorem locate_eq_ok {value : String} {location : Location Url}
    (h : locate world value = .ok location) :
    isStreamName value = true ∧ location = .other .stream ∨
      isStreamName value = false ∧
        ((∃ host, lookup world value = .ok (some host) ∧ location = .host host) ∨
          ∃ uri, lookup world value = .ok none ∧
            (environment world).uriTryFrom value = .ok uri ∧ location = .other uri) := by
  unfold locate at h
  cases hstream : isStreamName value with
  | true =>
    refine Or.inl ⟨rfl, ?_⟩
    simpa [hstream] using h.symm
  | false =>
    refine Or.inr ⟨rfl, ?_⟩
    cases hlookup : lookup world value with
    | error message => simp [hstream, hlookup] at h
    | ok found =>
      cases found with
      | some host => exact Or.inl ⟨host, rfl, by simpa [hstream, hlookup] using h.symm⟩
      | none =>
        cases huri : (environment world).uriTryFrom value with
        | error message => simp [hstream, hlookup, huri, Except.map] at h
        | ok uri =>
          exact Or.inr ⟨uri, rfl, rfl, by simpa [hstream, hlookup, huri, Except.map] using h.symm⟩

end References

section Conditions

variable {Url Key : Type} (world : World Url) (libs : KeystoreOperations.Libraries Key)
  (env : Environment) (files : SourceFiles Url)

/-- The filters and the sources of a collection leave its APIs as the type alone has them. -/
def CollectsByType (args : CollectArgs) (application : Application) : Prop :=
  ∀ registry, runRegistry files env.registry (.ok application) args.sources = .ok registry →
    (collectorApis registry application args.diagnosticType args.included
        args.excluded).map List.toFinset =
      (collectorApis env.registry application args.diagnosticType none none).map List.toFinset

/-- The sources of a processing run over a standard collection. -/
def standardSelection (registry : Registry) (application : Application) :
    Except String (Option ProcessSelection) :=
  match collectProcessSelection registry application "standard" none none none with
  | .error message => .error message
  | .ok derived => processingSelection registry none derived

/-- Overridden sources leave the selection of a processing run as the registry has it. -/
def ProcessesByType (args : ProcessArgs) (application : Application) : Prop :=
  ∀ registry, runRegistry files env.registry (.ok application) args.sources = .ok registry →
    standardSelection registry application = standardSelection env.registry application

/-- A text that means the path it spells, and no address of one. -/
def MeansItself (text : String) : Prop :=
  ∀ location path, locate world text = .ok location → localPath location = .ok path →
    path = .ofString text

/-- Without a configured context the default output is the host that its name means. -/
def DefaultKeepsName : Prop :=
  ∀ config name, ApplicationConfig.load world.system.config = .ok config →
    config.output.elasticContext = none → config.output.default = some name →
    ∀ host, defaultOutput world libs = .ok host → exportHost world name = destinationOf host

/-- An output that means the same when the saved job names it. -/
def OutputKept : Option String → Prop
  | some target => isStreamName target = true → parseReference world target = .ok none
  | none => DefaultKeepsName world libs

/-- The command lines that are saved whole. -/
def SavesWhole : Command → Prop
  | .collect args =>
    args.sendId = none ∧ MeansItself world args.output ∧
      ∀ host, lookup world args.host = .ok (some host) →
        CollectsByType env files args host.application
  | .process args =>
    (∀ host, lookup world args.input = .ok (some host) →
        .collect ∈ host.host.roles ∧ ProcessesByType env files args host.application) ∧
      OutputKept world libs args.output

end Conditions

section Saving

variable {Url Key : Type} {world : World Url} {libs : KeystoreOperations.Libraries Key}
  {env : Environment} {files : SourceFiles Url}

theorem hasEmptyHost_eq_false (job : Job) : job.input.hasEmptyHost = false := by
  have hvalid := job.valid
  unfold validate at hvalid
  cases hempty : job.input.hasEmptyHost with
  | false => rfl
  | true =>
    cases hsave : job.save.isSome && !job.input.isCollect <;> simp [hsave, hempty] at hvalid

/-- The later run of a saved job has the effects of the job that was derived. -/
theorem runSaved_saveJob {name : String} {job : Job} {file saved : JobsFile}
    (hplain : NoEmptyText job.identifiers)
    (huser : job.identifiers.defaultUser env.ambientUser = job.identifiers)
    (h : saveJob env name job file = .ok saved) :
    runSaved world libs env (Texts.trim name) saved = effects world libs env noContext job := by
  obtain ⟨jobs, hload, hfind⟩ := load_saveJob hplain h
  rw [huser] at hfind
  unfold runSaved
  rw [hload]
  simp only [hfind, hasEmptyHost_eq_false, Bool.false_eq_true, if_false]

theorem build_eq_ok {builder : SavedJobs.JobBuilder} {save : Option SaveTarget}
    {process : Option Process} {send : Option SendTarget} {job : Job}
    (h : builder.build save process send = .ok job) :
    job.identifiers = builder.identifiers ∧
      job.input = .collect builder.collect.host builder.collect.diagnosticType none none ∧
      job.save = save ∧ job.process = process ∧ job.send = send :=
  Job.tryNew_eq_ok (mapError_eq_ok.mp h)

/-- The bundle of a derived collection: a temporary one where it is sent. -/
def savedTarget (args : CollectArgs) : SaveTarget :=
  if args.sendId.isSome then .temporary else .retained (.ofString args.output)

theorem deriveCollectJob_eq_ok {args : CollectArgs} {job : Job}
    (h : deriveCollectJob world env args = .ok job) :
    job.identifiers = newIdentifiers env.ambientUser args.account args.caseNumber none
        args.opportunity args.user ∧
      job.input = .collect (Texts.trim args.host) args.diagnosticType none none ∧
      job.save = some (savedTarget args) ∧ job.process = none ∧
      job.send = args.sendId.map SendTarget.mk := by
  obtain ⟨builder, hbuilder, h⟩ := bind_eq_ok h
  obtain ⟨rfl, -⟩ := collectFrom_eq_ok hbuilder
  cases hsend : args.sendId with
  | none =>
    simp only [hsend, SavedJobs.JobBuilder.collectTo] at h
    split_ifs at h with hempty hdir
    simpa [savedTarget, hsend] using build_eq_ok h
  | some sendId =>
    simp only [hsend, SavedJobs.JobBuilder.sendTo] at h
    split_ifs at h with hblank
    simpa [savedTarget, hsend, SavedJobs.JobBuilder.bundleForSend] using build_eq_ok h

theorem lookup_of_locate {value : String} {host : ResolvedHost Url}
    (h : locate world value = .ok (.host host)) : lookup world value = .ok (some host) := by
  rcases locate_eq_ok h with ⟨-, hother⟩ | ⟨-, ⟨found, hlookup, hhost⟩ | ⟨uri, -, -, hother⟩⟩
  · exact absurd hother (by simp)
  · obtain rfl := Location.host.inj hhost
    exact hlookup
  · exact absurd hother (by simp)

theorem mem_of_ensureHostRole {host : ResolvedHost Url} {role : HostRole} {context : String}
    {checked : Unit} (h : ensureHostRole host role context = .ok checked) :
    role ∈ host.host.roles := by
  unfold ensureHostRole at h
  split_ifs at h with hmem
  exact hmem

theorem stableCollect_eq {hostName : String} {host : ResolvedHost Url}
    (hlookup : lookup world hostName = .ok (some host)) (hrole : .collect ∈ host.host.roles) :
    stableCollect world (Texts.trim hostName) = .ok (.host host) := by
  have hkey : lookup world (Texts.trim (Texts.trim hostName)) = .ok (some host) := by
    rw [Texts.trim_trim, lookup_trim, hlookup]
  unfold stableCollect
  dsimp only
  rw [hkey]
  exact if_pos hrole

theorem withoutFilename
    (ambientUser account caseNumber filename opportunity user : Option String) :
    { newIdentifiers ambientUser account caseNumber filename opportunity user with
        filename := none } =
      newIdentifiers ambientUser account caseNumber none opportunity user := rfl

theorem uploadId_mk (sendId : Option String) :
    (sendId.map SendTarget.mk).map SendTarget.uploadId = sendId := by
  cases sendId <;> rfl

/-- The effects of a job whose input is known. -/
theorem effects_eq {context : Context Url} {job : Job} {input : Location Url}
    (h : resolveInput world context job.input = .ok input) :
    effects world libs env context job =
      .ok
        { input
          identifiers := { job.identifiers with filename := none }
          collected := collectionEffect env job input
          savedTo := job.save.bind SaveTarget.dir
          processed := job.process.map (processingEffect env job input)
          exportedTo := job.process.map fun process =>
            resolveDocumentExporter world libs context process.exportTarget
          sentTo := job.send.map SendTarget.uploadId } := by
  unfold effects
  rw [h]
  rfl

/-- What a direct collection does. -/
theorem runDirectly_collect {args : CollectArgs} {archiveName : String}
    {fileName : Option String} {done : Effects Url}
    (h : runDirectly world libs env files archiveName fileName (.collect args) = .ok done) :
    ∃ host location outputDir registry, lookup world args.host = .ok (some host) ∧
      .collect ∈ host.host.roles ∧ locate world args.output = .ok location ∧
      localPath location = .ok outputDir ∧
      runRegistry files env.registry (.ok host.application) args.sources = .ok registry ∧
      done =
        { input := .host host
          identifiers := newIdentifiers env.ambientUser args.account args.caseNumber none
            args.opportunity args.user
          collected := some ((collectorApis registry host.application args.diagnosticType
            args.included args.excluded).map List.toFinset)
          savedTo := some outputDir
          processed := none
          exportedTo := none
          sentTo := args.sendId } := by
  obtain ⟨prepared, hprepare, h⟩ := bind_eq_ok h
  obtain ⟨located, hlocate, hprepare⟩ := bind_eq_ok hprepare
  obtain ⟨location, houtput, hprepare⟩ := bind_eq_ok hprepare
  cases located with
  | other uri => exact absurd hprepare (by simp)
  | host host =>
    obtain ⟨_, hrole, hprepare⟩ := bind_eq_ok hprepare
    obtain ⟨registry, hregistry, hprepare⟩ := bind_eq_ok hprepare
    obtain ⟨outputDir, hpath, hprepare⟩ := bind_eq_ok hprepare
    obtain ⟨job, hjob, hprepare⟩ := bind_eq_ok hprepare
    obtain rfl := Except.ok.inj hprepare
    obtain ⟨hidentifiers, hinput, hsave, hprocess, hsend⟩ :=
      Job.tryNew_eq_ok (mapError_eq_ok.mp hjob)
    refine ⟨host, location, outputDir, registry, lookup_of_locate hlocate,
      mem_of_ensureHostRole hrole, houtput, hpath, hregistry, ?_⟩
    have hbound : resolveInput world
        ⟨KeyedMap.empty.insert collectInput (.host host), .empty⟩ job.input =
        .ok (.host host) := by
      rw [hinput]
      simp only [resolveInput, KeyedMap.find?_insert_self]
    obtain rfl := Except.ok.inj ((effects_eq hbound).symm.trans h)
    rw [hidentifiers, hsave, hprocess, hsend]
    simp only [collectionEffect, hinput, hsave, Input.isCollect, Input.collectDiagnosticType,
      Input.collectInclude, Input.collectExclude, applicationOf, SaveTarget.retained,
      Option.isSome_some, Bool.and_self, if_true, Option.bind_some, Option.map_none,
      withoutFilename, uploadId_mk]

/-- What a saved collection does on the host that its direct run collected. -/
theorem effects_savedCollect {args : CollectArgs} {job : Job} {host : ResolvedHost Url}
    (hjob : deriveCollectJob world env args = .ok job)
    (hlookup : lookup world args.host = .ok (some host))
    (hrole : .collect ∈ host.host.roles) :
    effects world libs env noContext job =
      .ok
        { input := .host host
          identifiers := newIdentifiers env.ambientUser args.account args.caseNumber none
            args.opportunity args.user
          collected := some ((collectorApis env.registry host.application args.diagnosticType
            none none).map List.toFinset)
          savedTo := (savedTarget args).dir
          processed := none
          exportedTo := none
          sentTo := args.sendId } := by
  obtain ⟨hidentifiers, hinput, hsave, hprocess, hsend⟩ := deriveCollectJob_eq_ok hjob
  have hresolve : resolveInput world noContext job.input = .ok (.host host) := by
    rw [hinput, resolveInput]
    exact stableCollect_eq hlookup hrole
  rw [effects_eq hresolve, hidentifiers, hsave, hprocess, hsend]
  simp only [collectionEffect, hinput, hsave, Input.isCollect, Input.collectDiagnosticType,
    Input.collectInclude, Input.collectExclude, applicationOf, Option.isSome_some,
    Bool.and_self, if_true, Option.bind_some, Option.map_none, withoutFilename, uploadId_mk]

theorem collect_saved_iff {args : CollectArgs} {job : Job} {archiveName : String}
    {fileName : Option String} {done : Effects Url}
    (hjob : deriveCollectJob world env args = .ok job)
    (hdone : runDirectly world libs env files archiveName fileName (.collect args) = .ok done) :
    effects world libs env noContext job = .ok done ↔
      SavesWhole world libs env files (.collect args) := by
  obtain ⟨host, location, outputDir, registry, hlookup, hrole, hlocate, hpath, hregistry, rfl⟩ :=
    runDirectly_collect hdone
  rw [effects_savedCollect hjob hlookup hrole, Except.ok.injEq, CommandJobs.Effects.mk.injEq]
  constructor
  · rintro ⟨-, -, hcollected, hsaved, -, -, -⟩
    have hsend : args.sendId = none := by
      cases hsend : args.sendId with
      | none => rfl
      | some sendId => simp [savedTarget, hsend, SaveTarget.temporary] at hsaved
    refine ⟨hsend, ?_, ?_⟩
    · intro other path hother hotherPath
      obtain rfl := Except.ok.inj (hlocate.symm.trans hother)
      obtain rfl := Except.ok.inj (hpath.symm.trans hotherPath)
      simpa [savedTarget, hsend, SaveTarget.retained] using hsaved.symm
    · intro other hother found hfound
      obtain rfl := Option.some.inj (Except.ok.inj (hlookup.symm.trans hother))
      obtain rfl := Except.ok.inj (hregistry.symm.trans hfound)
      exact (Option.some.inj hcollected).symm
  · rintro ⟨hsend, hitself, hbyType⟩
    have hsaved : (savedTarget args).dir = some outputDir := by
      rw [hitself location outputDir hlocate hpath, savedTarget, hsend]
      rfl
    have hcollected := hbyType host hlookup registry hregistry
    exact ⟨rfl, rfl, congrArg some hcollected.symm, hsaved, rfl, rfl, rfl⟩

/-- Where the documents of a direct run go. -/
def outputDestination : Location Url → Except String (Destination Url)
  | .host host => destinationOf host
  | .other (.file path) => .ok (.file path)
  | .other (.directory outputDir) => .ok (.directory outputDir)
  | .other .stream => .ok .stdout
  | .other _ => .error "Unsupported URI"

theorem processExport_eq_ok {output : Location Url}
    {exported : ExportTarget × KeyedMap BindingKey (Destination Url)}
    (h : processExport output = .ok exported) (inputs : KeyedMap BindingKey (Location Url)) :
    ∃ destination, outputDestination output = .ok destination ∧
      resolveDocumentExporter world libs ⟨inputs, exported.2⟩ exported.1 = .ok destination := by
  cases output with
  | host host =>
    cases hdestination : destinationOf host with
    | error message => simp [processExport, hdestination, Except.map] at h
    | ok destination =>
      obtain rfl : (ExportTarget.binding processOutput,
          KeyedMap.empty.insert processOutput destination) = exported := by
        simpa [processExport, hdestination, Except.map] using h
      refine ⟨destination, hdestination, ?_⟩
      simp only [resolveDocumentExporter, KeyedMap.find?_insert_self]
  | other uri =>
    cases uri with
    | file path | directory path | stream =>
      obtain rfl := Except.ok.inj h
      exact ⟨_, rfl, rfl⟩
    | _ => exact absurd h (by simp [processExport])

theorem destinationOf_eq_ok {host : ResolvedHost Url} {destination : Destination Url}
    (h : destinationOf host = .ok destination) :
    uriOf host = .knownHost ∧
      destination = .cluster { host.host with roles := [] } host.attachedViewer := by
  unfold destinationOf at h
  split_ifs at h with huri
  exact ⟨huri, (Except.ok.inj h).symm⟩

/-- A name exports to the host it means, which must accept documents. -/
theorem exportHost_of_lookup {name : String} {host : ResolvedHost Url}
    (hlookup : lookup world name = .ok (some host)) (hrole : .send ∈ host.host.roles)
    (happ : host.application = .elasticsearch) :
    exportHost world (Texts.trim name) = destinationOf host := by
  have hkey : lookup world (Texts.trim (Texts.trim name)) = .ok (some host) := by
    rw [Texts.trim_trim, lookup_trim, hlookup]
  unfold exportHost
  dsimp only
  rw [hkey]
  simp only [hrole, happ, ne_eq, not_true, if_false]

theorem exportHost_ne {name : String} {destination : Destination Url}
    (h : exportHost world name = .ok destination) :
    ∃ host viewer, destination = .cluster host viewer := by
  unfold exportHost at h
  dsimp only at h
  split at h
  · exact absurd h (by simp)
  · exact absurd h (by simp)
  · split_ifs at h
    exact ⟨_, _, (destinationOf_eq_ok h).2⟩

theorem application_of_checked {output : Location Url} {host : ResolvedHost Url}
    {shown : Option String} {checked : Unit} (houtput : output = .host host)
    (huri : uriOf host = .knownHost)
    (h : checkOutputApplication output shown = .ok checked) :
    host.application = .elasticsearch := by
  subst houtput
  unfold checkOutputApplication at h
  by_cases happ : host.application = .elasticsearch
  · exact happ
  · simp [huri, happ] at h

/-- An output that is named exports to the same place, unless it is the stream and a
host has that name. -/
theorem explicit_output_iff {text : String} {output : Location Url} {shown : Option String}
    {destination : Destination Url} {target : ExportTarget} {checked checkedRole : Unit}
    (hlocate : locate world text = .ok output)
    (happ : checkOutputApplication output shown = .ok checked)
    (hrole : checkOutputRole output (some text) = .ok checkedRole)
    (hdestination : outputDestination output = .ok destination)
    (htarget : (environment world).fromCliTarget text = .ok target) :
    resolveDocumentExporter world libs noContext target = .ok destination ↔
      (isStreamName text = true → parseReference world text = .ok none) := by
  unfold SavedJobs.Environment.fromCliTarget at htarget
  rw [parseHostReference_eq] at htarget
  rcases locate_eq_ok hlocate with ⟨hstream, rfl⟩ | ⟨hstream, hfound⟩
  · obtain rfl := Except.ok.inj hdestination
    cases hparse : parseReference world text with
    | error message => simp [hparse, Except.map] at htarget
    | ok reference =>
      cases reference with
      | none =>
        have huri : (environment world).uriTryFrom text = .ok .stream := by
          simp only [isStreamName, Bool.or_eq_true, beq_iff_eq] at hstream
          simp [SavedJobs.Environment.uriTryFrom, hstream]
        obtain rfl : ExportTarget.stdout = target := by
          simpa [hparse, Except.map, huri] using htarget
        simp [resolveDocumentExporter]
      | some reference =>
        obtain rfl : ExportTarget.knownHost (Texts.trim text) = target := by
          simpa [hparse, Except.map] using htarget
        rw [resolveDocumentExporter]
        simp only [hstream, true_implies]
        constructor
        · intro hexport
          obtain ⟨host, viewer, hcluster⟩ := exportHost_ne hexport
          exact absurd hcluster (by simp)
        · intro hnone
          exact absurd hnone (by simp)
  · simp only [hstream, Bool.false_eq_true, false_implies, iff_true]
    rcases hfound with ⟨host, hlookup, rfl⟩ | ⟨uri, hlookup, huri, rfl⟩
    · obtain ⟨reference, hparse⟩ := lookup_eq_some hlookup
      obtain rfl : ExportTarget.knownHost (Texts.trim text) = target := by
        simpa [hparse, Except.map] using htarget
      have hsend : .send ∈ host.host.roles := mem_of_ensureHostRole hrole
      have helastic := application_of_checked rfl (destinationOf_eq_ok hdestination).1 happ
      rw [resolveDocumentExporter, exportHost_of_lookup hlookup hsend helastic,
        ← hdestination, outputDestination]
    · rw [parseReference_of_lookup_none hlookup] at htarget
      simp only [Except.map, Option.map_none, huri] at htarget
      cases uri with
      | file path | directory path | stream =>
        obtain rfl := Except.ok.inj htarget
        exact hdestination
      | _ => exact absurd htarget (by simp)

theorem configuredOutput_eq_ok {target : ExportTarget}
    (h : configuredOutput world = .ok target) :
    ∃ config, ApplicationConfig.load world.system.config = .ok config ∧
      ((∃ context name, config.output.elasticContext = some context ∧
          contextReference context = .ok name ∧ target = .knownHost name) ∨
        ∃ name, config.output.elasticContext = none ∧ config.output.default = some name ∧
          target = .knownHost name) := by
  unfold configuredOutput at h
  cases hload : ApplicationConfig.load world.system.config with
  | error error => simp [hload] at h
  | ok config =>
    refine ⟨config, rfl, ?_⟩
    cases hcontext : config.output.elasticContext with
    | some context =>
      cases hname : contextReference context with
      | error message => simp [hload, hcontext, hname, Except.map] at h
      | ok name =>
        exact Or.inl ⟨context, name, rfl, hname, by
          simpa [hload, hcontext, hname, Except.map] using h.symm⟩
    | none =>
      cases hname : config.output.default with
      | none => simp [hload, hcontext, hname] at h
      | some name => exact Or.inr ⟨name, rfl, rfl, by simpa [hload, hcontext, hname] using h.symm⟩

/-- An output that is not named exports to the same place by the name that is saved. -/
theorem default_output_iff {host : ResolvedHost Url} {destination : Destination Url}
    {target : ExportTarget} (hdefault : defaultOutput world libs = .ok host)
    (hdestination : destinationOf host = .ok destination)
    (htarget : configuredOutput world = .ok target) :
    resolveDocumentExporter world libs noContext target = .ok destination ↔
      DefaultKeepsName world libs := by
  obtain ⟨config, hload, ⟨context, name, hcontext, hname, rfl⟩ | ⟨name, hcontext, hname, rfl⟩⟩ :=
    configuredOutput_eq_ok htarget
  · have hkept : DefaultKeepsName world libs := by
      intro other otherName hother hnone
      obtain rfl := Except.ok.inj (hload.symm.trans hother)
      exact absurd (hcontext.symm.trans hnone) (by simp)
    have hexport := exportHost_of_context hload hcontext hname hdefault
    rw [resolveDocumentExporter, hexport]
    exact iff_of_true hdestination hkept
  · rw [resolveDocumentExporter]
    constructor
    · intro hexport other otherName hother hnone hotherName found hfound
      obtain rfl := Except.ok.inj (hload.symm.trans hother)
      obtain rfl := Option.some.inj (hname.symm.trans hotherName)
      obtain rfl := Except.ok.inj (hdefault.symm.trans hfound)
      exact hexport.trans hdestination.symm
    · intro hkept
      exact (hkept config name hload hcontext hname host hdefault).trans hdestination

/-- The default output of a plain name is kept where the environment declares none. -/
theorem defaultKeepsName_of_plain
    (hplain : ∀ config name, ApplicationConfig.load world.system.config = .ok config →
      config.output.default = some name → IsPlainName world name)
    (hundeclared : runtimeOutputIsDeclared world.system = false) :
    DefaultKeepsName world libs := by
  intro config name hload hcontext hname host hdefault
  exact exportHost_of_plainName hload hcontext hname (hplain config name hload hname)
    hundeclared hdefault

/-- Both runs process a standard collection without filters. -/
theorem processingEffect_standard {job : Job} {host : ResolvedHost Url} {target : ExportTarget}
    (h : (∃ name, job.input = .collect name "standard" none none) ∨
      ∃ binding, job.input = .collectBinding binding "standard" none none) :
    processingEffect env job (.host host) ⟨none, target⟩ =
      standardSelection env.registry host.application := by
  have hfields : job.input.isCollect = true ∧ job.input.collectDiagnosticType = "standard" ∧
      job.input.collectInclude = none ∧ job.input.collectExclude = none := by
    rcases h with ⟨name, h⟩ | ⟨binding, h⟩ <;> rw [h] <;> exact ⟨rfl, rfl, rfl, rfl⟩
  obtain ⟨hcollect, htype, hincluded, hexcluded⟩ := hfields
  unfold processingEffect standardSelection
  rw [hcollect, htype, hincluded, hexcluded]
  rfl

theorem deriveProcessJob_eq_ok {args : ProcessArgs} {job : Job}
    (h : deriveProcessJob world env args = .ok job) :
    ∃ target, savedOutput world args.output = .ok target ∧
      (∃ reference, parseReference world args.input = .ok (some reference)) ∧
      job.identifiers = newIdentifiers env.ambientUser args.account args.caseNumber none
        args.opportunity args.user ∧
      job.input = .collect (Texts.trim args.input) "standard" none none ∧
      job.save = none ∧ job.process = some ⟨none, target⟩ ∧ job.send = none := by
  obtain ⟨target, htarget, h⟩ := bind_eq_ok h
  obtain ⟨builder, hbuilder, h⟩ := bind_eq_ok h
  obtain ⟨rfl, hreference⟩ := collectFrom_eq_ok hbuilder
  exact ⟨target, htarget, hreference, build_eq_ok h⟩

/-- What a direct processing run does on an input that is a host. -/
theorem runDirectly_process {args : ProcessArgs} {archiveName : String}
    {fileName : Option String} {done : Effects Url}
    (hinput : ∃ reference, parseReference world args.input = .ok (some reference))
    (h : runDirectly world libs env files archiveName fileName (.process args) = .ok done) :
    ∃ host output destination registry, lookup world args.input = .ok (some host) ∧
      locateOutput world libs args.output = .ok output ∧
      checkOutputApplication output args.output = .ok () ∧
      checkOutputRole output args.output = .ok () ∧
      outputDestination output = .ok destination ∧
      runRegistry files env.registry (.ok host.application) args.sources = .ok registry ∧
      done =
        { input := .host host
          identifiers := newIdentifiers env.ambientUser args.account args.caseNumber none
            args.opportunity args.user
          collected := none
          savedTo := none
          processed := some (standardSelection registry host.application)
          exportedTo := some (.ok destination)
          sentTo := none } := by
  obtain ⟨prepared, hprepare, h⟩ := bind_eq_ok h
  obtain ⟨located, hlocate, hprepare⟩ := bind_eq_ok hprepare
  obtain ⟨output, houtput, hprepare⟩ := bind_eq_ok hprepare
  obtain ⟨_, happ, hprepare⟩ := bind_eq_ok hprepare
  obtain ⟨_, hrole, hprepare⟩ := bind_eq_ok hprepare
  obtain ⟨_, hreceiver, hprepare⟩ := bind_eq_ok hprepare
  obtain ⟨registry, hregistry, hprepare⟩ := bind_eq_ok hprepare
  obtain ⟨exported, hexported, hprepare⟩ := bind_eq_ok hprepare
  obtain ⟨job, hjob, hprepare⟩ := bind_eq_ok hprepare
  obtain rfl := Except.ok.inj hprepare
  obtain ⟨hidentifiers, hjobInput, hsave, hprocess, hsend⟩ :=
    Job.tryNew_eq_ok (mapError_eq_ok.mp hjob)
  obtain ⟨host, rfl, hlookup⟩ : ∃ host, located = .host host ∧
      lookup world args.input = .ok (some host) := by
    rcases locate_eq_ok hlocate with ⟨-, rfl⟩ | ⟨-, ⟨host, hlookup, rfl⟩ | ⟨uri, hnone, -, rfl⟩⟩
    · exact absurd hreceiver (by simp [checkReceiver])
    · exact ⟨host, rfl, hlookup⟩
    · obtain ⟨reference, hparse⟩ := hinput
      have hunknown := parseReference_of_lookup_none hnone
      exact absurd (hparse.symm.trans hunknown) (by simp)
  obtain ⟨destination, hdestination, hexporter⟩ : ∃ destination,
      outputDestination output = .ok destination ∧ resolveDocumentExporter world libs
        ⟨(processJobInput (Location.host host)).2, exported.2⟩ exported.1 = .ok destination :=
    processExport_eq_ok hexported _
  refine ⟨host, output, destination, registry, hlookup, houtput, happ, hrole, hdestination,
    hregistry, ?_⟩
  have hbound : resolveInput world ⟨(processJobInput (Location.host host)).2, exported.2⟩
      job.input = .ok (.host host) := by
    rw [hjobInput]
    simp only [processJobInput, resolveInput, KeyedMap.find?_insert_self]
  obtain rfl := Except.ok.inj ((effects_eq hbound).symm.trans h)
  rw [hidentifiers, hsave, hprocess, hsend]
  simp only [collectionEffect, hsave, Option.isSome_none, Bool.and_false, Bool.false_eq_true,
    if_false, Option.bind_none, Option.map_some, Option.map_none, withoutFilename, hexporter]
  rw [processingEffect_standard (Or.inr ⟨processInput, hjobInput⟩)]

/-- What a saved processing run does on the host that its direct run read. -/
theorem effects_savedProcess {args : ProcessArgs} {job : Job} {host : ResolvedHost Url}
    {target : ExportTarget}
    (hidentifiers : job.identifiers = newIdentifiers env.ambientUser args.account
      args.caseNumber none args.opportunity args.user)
    (hinput : job.input = .collect (Texts.trim args.input) "standard" none none)
    (hsave : job.save = none) (hprocess : job.process = some ⟨none, target⟩)
    (hsend : job.send = none) (hlookup : lookup world args.input = .ok (some host))
    (hrole : .collect ∈ host.host.roles) :
    effects world libs env noContext job =
      .ok
        { input := .host host
          identifiers := newIdentifiers env.ambientUser args.account args.caseNumber none
            args.opportunity args.user
          collected := none
          savedTo := none
          processed := some (standardSelection env.registry host.application)
          exportedTo := some (resolveDocumentExporter world libs noContext target)
          sentTo := none } := by
  have hresolve : resolveInput world noContext job.input = .ok (.host host) := by
    rw [hinput, resolveInput]
    exact stableCollect_eq hlookup hrole
  rw [effects_eq hresolve, hidentifiers, hsave, hprocess, hsend]
  simp only [collectionEffect, hsave, Option.isSome_none, Bool.and_false, Bool.false_eq_true,
    if_false, Option.bind_none, Option.map_some, Option.map_none, withoutFilename]
  rw [processingEffect_standard (Or.inl ⟨_, hinput⟩)]

/-- A host that may not be collected from stops the saved job before it does anything. -/
theorem effects_of_missingRole {hostName : String} {job : Job} {host : ResolvedHost Url}
    (hinput : job.input = .collect (Texts.trim hostName) "standard" none none)
    (hlookup : lookup world hostName = .ok (some host)) (hrole : .collect ∉ host.host.roles)
    (done : Effects Url) : effects world libs env noContext job ≠ .ok done := by
  have hkey : lookup world (Texts.trim (Texts.trim hostName)) = .ok (some host) := by
    rw [Texts.trim_trim, lookup_trim, hlookup]
  intro h
  obtain ⟨input, hresolve, -⟩ := bind_eq_ok h
  rw [hinput, resolveInput] at hresolve
  unfold stableCollect at hresolve
  dsimp only at hresolve
  rw [hkey] at hresolve
  simp [hrole] at hresolve

theorem process_saved_iff {args : ProcessArgs} {job : Job} {archiveName : String}
    {fileName : Option String} {done : Effects Url}
    (hjob : deriveProcessJob world env args = .ok job)
    (hdone : runDirectly world libs env files archiveName fileName (.process args) = .ok done) :
    effects world libs env noContext job = .ok done ↔
      SavesWhole world libs env files (.process args) := by
  obtain ⟨target, htarget, hreference, hidentifiers, hinput, hsave, hprocess, hsend⟩ :=
    deriveProcessJob_eq_ok hjob
  obtain ⟨host, output, destination, registry, hlookup, houtput, happ, hroleChecked,
    hdestination, hregistry, rfl⟩ := runDirectly_process hreference hdone
  have hexport : resolveDocumentExporter world libs noContext target = .ok destination ↔
      OutputKept world libs args.output := by
    cases hnamed : args.output with
    | some text =>
      rw [hnamed] at htarget houtput happ hroleChecked
      exact explicit_output_iff houtput happ hroleChecked hdestination htarget
    | none =>
      rw [hnamed] at htarget houtput
      cases hdefault : defaultOutput world libs with
      | error message => simp [locateOutput, hdefault, Except.map] at houtput
      | ok found =>
        obtain rfl : Location.host found = output := by
          simpa [locateOutput, hdefault, Except.map] using houtput
        exact default_output_iff hdefault hdestination htarget
  by_cases hrole : .collect ∈ host.host.roles
  · rw [effects_savedProcess hidentifiers hinput hsave hprocess hsend hlookup hrole,
      Except.ok.injEq, CommandJobs.Effects.mk.injEq]
    constructor
    · rintro ⟨-, -, -, -, hprocessed, hkept, -⟩
      refine ⟨?_, hexport.mp (Option.some.inj hkept)⟩
      intro other hother
      obtain rfl := Option.some.inj (Except.ok.inj (hlookup.symm.trans hother))
      refine ⟨hrole, ?_⟩
      intro found hfound
      obtain rfl := Except.ok.inj (hregistry.symm.trans hfound)
      exact (Option.some.inj hprocessed).symm
    · rintro ⟨hall, hkept⟩
      have hprocessed := (hall host hlookup).2 registry hregistry
      exact ⟨rfl, rfl, rfl, rfl, congrArg some hprocessed.symm,
        congrArg some (hexport.mpr hkept), rfl⟩
  · constructor
    · intro h
      exact absurd h (effects_of_missingRole hinput hlookup hrole _)
    · rintro ⟨hall, -⟩
      exact absurd (hall host hlookup).1 hrole

theorem derived_plain {command : Command} {job : Job}
    (h : derive world env command = .ok job) :
    NoEmptyText job.identifiers ∧
      job.identifiers.defaultUser env.ambientUser = job.identifiers := by
  cases command with
  | collect args =>
    rw [(deriveCollectJob_eq_ok h).1]
    exact ⟨newIdentifiers_noEmptyText _ _ _ _ _ _, defaultUser_newIdentifiers _ _ _ _ _ _⟩
  | process args =>
    obtain ⟨target, -, -, hidentifiers, -⟩ := deriveProcessJob_eq_ok h
    rw [hidentifiers]
    exact ⟨newIdentifiers_noEmptyText _ _ _ _ _ _, defaultUser_newIdentifiers _ _ _ _ _ _⟩

theorem effects_derived_iff {command : Command} {job : Job} {archiveName : String}
    {fileName : Option String} {done : Effects Url} (hderive : derive world env command = .ok job)
    (hdone : runDirectly world libs env files archiveName fileName command = .ok done) :
    effects world libs env noContext job = .ok done ↔
      SavesWhole world libs env files command := by
  cases command with
  | collect args => exact collect_saved_iff hderive hdone
  | process args => exact process_saved_iff hderive hdone

/-- A command line that is accepted with a name to save it under: the saved job later
has the effects of the direct run exactly when the command line is saved whole. -/
theorem saved_command_agrees_iff (world : World Url) (libs : KeystoreOperations.Libraries Key)
    (env : Environment) (files : SourceFiles Url) (command : Command) (name archiveName : String)
    (fileName : Option String) (job : Job) (file saved : JobsFile) (done : Effects Url)
    (hderive : derive world env command = .ok job)
    (hsave : saveJob env name job file = .ok saved)
    (hdone : runDirectly world libs env files archiveName fileName command = .ok done) :
    runSaved world libs env (Texts.trim name) saved = .ok done ↔
      SavesWhole world libs env files command := by
  obtain ⟨hplain, huser⟩ := derived_plain hderive
  rw [runSaved_saveJob hplain huser hsave]
  exact effects_derived_iff hderive hdone

end Saving

section Samples

open HostRoundTrip KeystoreOperations OutputSources

/-- A system with one context, in a directory where every path is a directory. -/
def sampleWorld : World SampleUrl where
  system := contextSystem "one"
  lib := sampleServices
  cloudHost _ := .error "no Cloud service"
  urlParts _ := none
  parseUrl _ := none
  pathExists _ := true
  isDir _ := true
  isFile _ := false
  errorText _ := "not resolved"

def noSourceFiles : SourceFiles SampleUrl where
  read _ := .error "no such file"
  manifestApplication _ := .error "no manifest"
  initialized := false

/-- A collection of the service of the context, sent when an upload is named. -/
def collectCommand (sendId : Option String) : Command :=
  .collect
    { host := ".monitoring.es"
      output := "/tmp"
      diagnosticType := "standard"
      included := none
      excluded := none
      sources := none
      account := none
      caseNumber := none
      opportunity := none
      user := none
      sendId }

/-- The job that is saved of a collection, with its bundle and its upload. -/
def savedCollection (save : SaveTarget) (send : Option SendTarget)
    (valid : validate (.collect ".monitoring.es" "standard" none none) (some save) none send =
      .ok ()) : Job :=
  ⟨newIdentifiers none none none none none none, .collect ".monitoring.es" "standard" none none,
    some save, none, send, valid⟩

theorem derive_unsent : derive sampleWorld bareEnvironment (collectCommand none) =
    .ok (savedCollection (.retained (.ofString "/tmp")) none rfl) := rfl

theorem derive_sent : derive sampleWorld bareEnvironment (collectCommand (some "123")) =
    .ok (savedCollection .temporary (some ⟨"123"⟩) rfl) := rfl

theorem unsent_saves : ∃ saved, saveJob bareEnvironment "nightly"
    (savedCollection (.retained (.ofString "/tmp")) none rfl) .absent = .ok saved :=
  exists_of_isOk (by decide +kernel)

theorem unsent_runs : ∃ done, runDirectly sampleWorld sampleLibraries bareEnvironment
    noSourceFiles "a.zip" none (collectCommand none) = .ok done :=
  exists_of_isOk (by decide +kernel)

theorem sent_saves : ∃ saved, saveJob bareEnvironment "nightly"
    (savedCollection .temporary (some ⟨"123"⟩) rfl) .absent = .ok saved :=
  exists_of_isOk (by decide +kernel)

theorem sent_runs : ∃ done, runDirectly sampleWorld sampleLibraries bareEnvironment
    noSourceFiles "a.zip" none (collectCommand (some "123")) = .ok done :=
  exists_of_isOk (by decide +kernel)

/-- A collection into a directory is saved whole. -/
theorem saved_command_agrees_unsent : ∃ saved done,
    saveJob bareEnvironment "nightly" (savedCollection (.retained (.ofString "/tmp")) none rfl)
        .absent = .ok saved ∧
      runDirectly sampleWorld sampleLibraries bareEnvironment noSourceFiles "a.zip" none
        (collectCommand none) = .ok done ∧
      runSaved sampleWorld sampleLibraries bareEnvironment (Texts.trim "nightly") saved =
        .ok done := by
  obtain ⟨saved, hsaved⟩ := unsent_saves
  obtain ⟨done, hdone⟩ := unsent_runs
  refine ⟨saved, done, hsaved, hdone, ?_⟩
  apply (saved_command_agrees_iff sampleWorld sampleLibraries bareEnvironment noSourceFiles
    (collectCommand none) "nightly" "a.zip" none _ .absent saved done derive_unsent hsaved
    hdone).mpr
  refine ⟨rfl, ?_, ?_⟩
  · intro location path hlocation hpath
    obtain rfl := Except.ok.inj hlocation
    exact (Except.ok.inj hpath).symm
  · intro host hhost registry hregistry
    obtain rfl := Except.ok.inj hregistry
    rfl

/-- A collection that is also sent keeps its bundle in the named directory; the job saved
from the same command line keeps none. -/
theorem sent_collection_loses_directory : ∃ job saved done,
    derive sampleWorld bareEnvironment (collectCommand (some "123")) = .ok job ∧
      saveJob bareEnvironment "nightly" job .absent = .ok saved ∧
      runDirectly sampleWorld sampleLibraries bareEnvironment noSourceFiles "a.zip" none
        (collectCommand (some "123")) = .ok done ∧
      runSaved sampleWorld sampleLibraries bareEnvironment (Texts.trim "nightly") saved ≠
        .ok done := by
  obtain ⟨saved, hsaved⟩ := sent_saves
  obtain ⟨done, hdone⟩ := sent_runs
  refine ⟨_, saved, done, derive_sent, hsaved, hdone, ?_⟩
  obtain ⟨hplain, huser⟩ := derived_plain derive_sent
  rw [runSaved_saveJob hplain huser hsaved]
  intro hsame
  obtain ⟨hsend, -⟩ := (effects_derived_iff derive_sent hdone).mp hsame
  exact absurd hsend (by simp)

end Samples

end Esdiag.SavedCommands
