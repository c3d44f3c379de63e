import Esdiag.HostCommands
import Esdiag.LegacyMigration
import Esdiag.SavedJobStore

/-!
The references of the configuration: the default output, which is a host or a
context, and the default job. They are checked against the hosts file and the
saved jobs, which are changed by commands and pages that know nothing of them.
-/
namespace Esdiag.ConfigReferences

open KeyedMaps KeyedUpdates Deployments KeystoreOperations KnownHosts HostFiles JobModel
  SavedJobFiles SavedJobStore LegacyMigration ApplicationConfigs ElasticContexts SettingsForms
  SettingsRenames HostCommands Outcomes

inductive ReferenceError where
  | config (error : ConfigError)
  | hosts (error : HostsError)
  | context (error : ContextError)
  | noElasticConfig
  | jobs (error : SavedJobsError)
  | refused (message : String)

section Validation

variable {Url : Type}

def validateOutputContext (elasticConfig : Except ContextError (Option ElasticConfig))
    (outputContext : ElasticOutputContext) : Except ReferenceError Unit :=
  match elasticConfig with
  | .error error => .error (.context error)
  | .ok none => .error .noElasticConfig
  | .ok (some config) =>
    match config.contexts.find? outputContext.context with
    | none =>
      .error (.refused ("Configured Elastic CLI output context '" ++ outputContext.context ++
        "' was not found"))
    | some context =>
      if context.elasticsearch.isNone then
        .error (.refused ("Configured Elastic CLI output context '" ++ outputContext.context ++
          "' has no Elasticsearch service"))
      else .ok ()

def validateOutputHost (hosts : KeyedMap String (KnownHost Url)) (outputName : String) :
    Except ReferenceError Unit :=
  match hosts.find? outputName with
  | none => .error (.refused ("Configured output host '" ++ outputName ++ "' was not found"))
  | some output =>
    if .send ∉ output.roles then
      .error (.refused ("Configured output host '" ++ outputName ++ "' must include role 'send'"))
    else if output.app ≠ some .elasticsearch then
      .error (.refused ("Configured output host '" ++ outputName ++ "' must be an " ++
        "Elasticsearch host"))
    else
      match output.viewer with
      | none =>
        .error (.refused ("Configured output host '" ++ outputName ++ "' has no Kibana viewer"))
      | some viewerName =>
        match hosts.find? viewerName with
        | none =>
          .error (.refused ("Configured output host '" ++ outputName ++
            "' references unknown viewer host '" ++ viewerName ++ "'"))
        | some viewer =>
          if .view ∉ viewer.roles ∨ viewer.app ≠ some .kibana then
            .error (.refused ("Configured output host '" ++ outputName ++ "' viewer '" ++
              viewerName ++ "' must be a Kibana host with role 'view'"))
          else .ok ()

def validateOutput (elasticConfig : Except ContextError (Option ElasticConfig))
    (output : OutputConfig) (hosts : KeyedMap String (KnownHost Url)) :
    Except ReferenceError Unit :=
  match output.elasticContext, output.default with
  | some outputContext, _ => validateOutputContext elasticConfig outputContext
  | none, some outputName => validateOutputHost hosts outputName
  | none, none => .ok ()

/-- Loading the jobs may bring their file into its present form. -/
def validateDefaultJob (env : Environment) (job : JobConfig) (file : JobsFile) :
    Except ReferenceError Unit × JobsFile :=
  match job.default with
  | none => (.ok (), file)
  | some jobName =>
    let loaded := loadSavedJobsFromPath env file
    match loaded.1 with
    | .error error => (.error (.jobs error), loaded.2)
    | .ok jobs =>
      if (jobs.find? jobName).isNone then
        (.error (.refused ("Configured default job '" ++ jobName ++ "' was not found")), loaded.2)
      else (.ok (), loaded.2)

variable (terminal : Terminal Url) (env : Environment)

def validateReferences (config : ApplicationConfig) (state : Workspace) :
    Except ReferenceError Unit × Workspace :=
  match config.validateVersion with
  | .error error => (.error (.config error), state)
  | .ok () =>
    match parseHostsYml terminal.world.lib.toUrlLibrary state.files.hosts with
    | .error error => (.error (.hosts error), state)
    | .ok hosts =>
      match validateOutput terminal.world.system.elasticConfig config.output hosts with
      | .error error => (.error error, state)
      | .ok () =>
        let checked := validateDefaultJob env config.job state.files.jobs
        (checked.1, { state with files := { state.files with jobs := checked.2 } })

/-- The stored configuration passes its check of references. -/
def ReferencesValid (state : Workspace) : Prop :=
  ∃ config, ApplicationConfig.load state.config = .ok config ∧
    (validateReferences terminal env config state).1 = .ok ()

variable {env}

theorem validateOutputHost_eq_ok_iff {hosts : KeyedMap String (KnownHost Url)}
    {outputName : String} :
    validateOutputHost hosts outputName = .ok () ↔
      ∃ output viewerName viewer, hosts.find? outputName = some output ∧
        .send ∈ output.roles ∧ output.app = some .elasticsearch ∧
        output.viewer = some viewerName ∧ hosts.find? viewerName = some viewer ∧
        .view ∈ viewer.roles ∧ viewer.app = some .kibana := by
  unfold validateOutputHost
  cases houtput : hosts.find? outputName with
  | none => simp
  | some output =>
    by_cases hsend : HostRole.send ∈ output.roles
    · by_cases happ : output.app = some .elasticsearch
      · cases hname : output.viewer with
        | none => simp [hsend, happ, hname]
        | some viewerName =>
          cases hviewer : hosts.find? viewerName with
          | none => simp [hsend, happ, hname, hviewer]
          | some viewer =>
            by_cases hview : HostRole.view ∈ viewer.roles
            · by_cases hkibana : viewer.app = some .kibana <;>
                simp [hsend, happ, hname, hviewer, hview, hkibana]
            · simp [hsend, happ, hname, hviewer, hview]
      · simp [hsend, happ]
    · simp [hsend]

theorem validateDefaultJob_eq_ok_iff {job : JobConfig} {file : JobsFile} :
    (validateDefaultJob env job file).1 = .ok () ↔
      ∀ jobName, job.default = some jobName →
        ∃ jobs, (loadSavedJobsFromPath env file).1 = .ok jobs ∧
          (jobs.find? jobName).isSome = true := by
  unfold validateDefaultJob
  cases hdefault : job.default with
  | none => simp
  | some jobName =>
    cases hload : (loadSavedJobsFromPath env file).1 with
    | error error => simp [hload]
    | ok jobs => cases hfind : jobs.find? jobName <;> simp [hload, hfind]

variable (env)

/-- What makes the references of a workspace valid. -/
theorem referencesValid_iff (state : Workspace) :
    ReferencesValid terminal env state ↔ ∃ config hosts,
      ApplicationConfig.load state.config = .ok config ∧
      parseHostsYml terminal.world.lib.toUrlLibrary state.files.hosts = .ok hosts ∧
      validateOutput terminal.world.system.elasticConfig config.output hosts = .ok () ∧
      ∀ jobName, config.job.default = some jobName →
        ∃ jobs, (loadSavedJobsFromPath env state.files.jobs).1 = .ok jobs ∧
          (jobs.find? jobName).isSome = true := by
  constructor
  · rintro ⟨config, hload, hvalid⟩
    unfold validateReferences at hvalid
    rw [ApplicationConfig.validateVersion_of_load hload] at hvalid
    cases hparse : parseHostsYml terminal.world.lib.toUrlLibrary state.files.hosts with
    | error error => simp [hparse] at hvalid
    | ok hosts =>
      cases houtput : validateOutput terminal.world.system.elasticConfig config.output hosts with
      | error error => simp [hparse, houtput] at hvalid
      | ok _ =>
        simp only [hparse, houtput] at hvalid
        exact ⟨config, hosts, hload, rfl, houtput, validateDefaultJob_eq_ok_iff.mp hvalid⟩
  · rintro ⟨config, hosts, hload, hparse, houtput, hjob⟩
    refine ⟨config, hload, ?_⟩
    unfold validateReferences
    simp only [ApplicationConfig.validateVersion_of_load hload, hparse, houtput]
    exact validateDefaultJob_eq_ok_iff.mpr hjob

end Validation

section Jobs

variable (env : Environment)

/-- An operation on the jobs that nothing interrupts: whether it has written, and the file. -/
def updateJobs (ioFails : Bool) (operation : Operation) (file : JobsFile) :
    Except OperationError Bool × JobsFile :=
  match operation.precheck with
  | .error error => (.error error, file)
  | .ok () =>
    match loadSavedJobsFromPath env file with
    | (.error error, loaded) => (.error (.store error), loaded)
    | (.ok jobs, loaded) =>
      match operation.change jobs with
      | .error error => (.error error, loaded)
      | .ok (_, false) => (.ok false, loaded)
      | .ok (changed, true) =>
        match World.writeFile env changed ioFails with
        | .error error => (.error error, loaded)
        | .ok written => (.ok true, written)

/-- Jobs are saved and deleted by commands and by the page of jobs. -/
inductive JobCommand where
  | saveJob (name : String) (job : Job)
  | handleJobDelete (name : String)
  | savePageJob (name : String) (job : Job)
  | deletePageJob (name : String)

namespace JobCommand

/-- The name is checked by the page before anything else. -/
def checkName : JobCommand → Except OperationError Unit
  | saveJob .. | handleJobDelete _ => .ok ()
  | savePageJob name _ | deletePageJob name => validateSavedJobName name

def operation : JobCommand → Operation
  | saveJob name job => .saveJob name job
  | handleJobDelete name => .deleteJob name
  | savePageJob name job =>
    .withSavedJobs fun jobs => .ok (jobs.insert (Texts.trim name) job, true)
  | deletePageJob name =>
    .withSavedJobs fun jobs =>
      if (jobs.find? (Texts.trim name)).isNone then .ok (jobs, false)
      else .ok (jobs.remove (Texts.trim name), true)

/-- A command that has nothing to write has not found its job. -/
def run (ioFails : Bool) (command : JobCommand) (file : JobsFile) :
    Except OperationError Unit × JobsFile :=
  match command.checkName with
  | .error error => (.error error, file)
  | .ok () =>
    match updateJobs env ioFails command.operation file with
    | (.error error, file) => (.error error, file)
    | (.ok true, file) => (.ok (), file)
    | (.ok false, file) => (.error (.operation "Job not found"), file)

/-- The job that a command deletes. -/
def deleted : JobCommand → Option String
  | saveJob .. | savePageJob .. => none
  | handleJobDelete name => some name
  | deletePageJob name => some (Texts.trim name)

end JobCommand

variable {env}

/-- An update that has written has changed the jobs that it loaded. -/
theorem updateJobs_written {ioFails : Bool} {operation : Operation} {file written : JobsFile}
    (h : updateJobs env ioFails operation file = (.ok true, written)) :
    ∃ jobs changed, (loadSavedJobsFromPath env file).1 = .ok jobs ∧
      operation.change jobs = .ok (changed, true) ∧
      writeSavedJobsDocument env changed = .ok written := by
  unfold updateJobs at h
  cases hcheck : operation.precheck with
  | error error => simp [hcheck] at h
  | ok _ =>
    rcases hload : loadSavedJobsFromPath env file with ⟨result, loaded⟩
    cases result with
    | error error => simp [hcheck, hload] at h
    | ok jobs =>
      cases hchange : operation.change jobs with
      | error error => simp [hcheck, hload, hchange] at h
      | ok result =>
        obtain ⟨changed, writes⟩ := result
        cases writes with
        | false => simp [hcheck, hload, hchange] at h
        | true =>
          cases hwrite : World.writeFile env changed ioFails with
          | error error => simp [hcheck, hload, hchange, hwrite] at h
          | ok file' =>
            obtain rfl : file' = written := by simpa [hcheck, hload, hchange, hwrite] using h
            refine ⟨jobs, changed, rfl, hchange, ?_⟩
            unfold World.writeFile at hwrite
            cases ioFails with
            | true => simp at hwrite
            | false => exact mapError_eq_ok.mp (by simpa using hwrite)

namespace JobCommand

/-- Of the jobs that were there, only the deleted one goes. -/
theorem find?_changed {command : JobCommand} {jobs changed : SavedJobs}
    (h : command.operation.change jobs = .ok (changed, true)) {jobName : String}
    (hfound : (jobs.find? jobName).isSome = true) :
    (changed.find? jobName).isSome = true ↔ command.deleted ≠ some jobName := by
  have hinsert : ∀ name job, ((jobs.insert name job).find? jobName).isSome = true := by
    intro name job
    by_cases hname : jobName = name
    · rw [hname, KeyedMap.find?_insert_self]
      rfl
    · rwa [KeyedMap.find?_insert_of_ne jobs hname]
  have hremove : ∀ name, ((jobs.remove name).find? jobName).isSome = true ↔ name ≠ jobName := by
    intro name
    rw [KeyedMap.find?_remove]
    by_cases hname : jobName = name
    · simp [hname]
    · simp [hname, hfound, Ne.symm hname]
  cases command with
  | saveJob name job =>
    obtain rfl : jobs.insert (Texts.trim name) job = changed := by
      simpa [JobCommand.operation, Operation.change] using h
    simp [hinsert, JobCommand.deleted]
  | savePageJob name job =>
    obtain rfl : jobs.insert (Texts.trim name) job = changed := by
      simpa [JobCommand.operation, Operation.change, Except.mapError] using h
    simp [hinsert, JobCommand.deleted]
  | handleJobDelete name =>
    cases hname : jobs.find? name with
    | none => simp [JobCommand.operation, Operation.change, hname] at h
    | some job =>
      obtain rfl : jobs.remove name = changed := by
        simpa [JobCommand.operation, Operation.change, hname] using h
      simp [hremove, JobCommand.deleted]
  | deletePageJob name =>
    cases hname : jobs.find? (Texts.trim name) with
    | none => simp [JobCommand.operation, Operation.change, hname, Except.mapError] at h
    | some job =>
      obtain rfl : jobs.remove (Texts.trim name) = changed := by
        simpa [JobCommand.operation, Operation.change, hname, Except.mapError] using h
      simp [hremove, JobCommand.deleted]

/-- A job that could be loaded still can be, unless the command deletes it. -/
theorem find?_run {command : JobCommand} {ioFails : Bool} {file file' : JobsFile}
    (h : command.run env ioFails file = (.ok (), file')) {jobName : String}
    (hfound : ∃ jobs, (loadSavedJobsFromPath env file).1 = .ok jobs ∧
      (jobs.find? jobName).isSome = true) :
    (∃ jobs, (loadSavedJobsFromPath env file').1 = .ok jobs ∧
      (jobs.find? jobName).isSome = true) ↔ command.deleted ≠ some jobName := by
  obtain ⟨jobs, hload, hisSome⟩ := hfound
  unfold JobCommand.run at h
  cases hname : command.checkName with
  | error error => simp [hname] at h
  | ok _ =>
    rcases hupdate : updateJobs env ioFails command.operation file with ⟨result, written⟩
    cases result with
    | error error => simp [hname, hupdate] at h
    | ok writes =>
      cases writes with
      | false => simp [hname, hupdate] at h
      | true =>
        obtain rfl : written = file' := by simpa [hname, hupdate] using h
        obtain ⟨jobs', changed, hload', hchange, hwrite⟩ := updateJobs_written hupdate
        obtain rfl := Except.ok.inj (hload.symm.trans hload')
        obtain ⟨read, hread, hsame⟩ := exists_readJobsFile_write env hwrite
        have hloaded : (loadSavedJobsFromPath env written).1 = .ok read := by
          rw [loadSavedJobsFromPath, hread]
        rw [← find?_changed hchange hisSome, ← hsame]
        constructor
        · rintro ⟨found, hfound, hkept⟩
          obtain rfl := Except.ok.inj (hloaded.symm.trans hfound)
          exact hkept
        · intro hkept
          exact ⟨read, hloaded, hkept⟩

end JobCommand

end Jobs

section Changes

inductive ChangeError where
  | hosts (error : UpsertError)
  | jobs (error : OperationError)

/-- All that adds, changes, renames or removes a saved host or a saved job. -/
inductive Change where
  | addHost (args : HostAddArgs)
  | updateHost (name : String) (update : KnownHostCliUpdate)
  | removeHost (name : String)
  | upsertHost (session : KeystoreSession) (form : HostUpsertForm)
  | upsertCluster (session : KeystoreSession) (form : ClusterUpsertForm)
  | deleteHost (name : String)
  | deleteHostRow (rowId : ℕ)
  | deleteClusterRow (rowId : ℕ)
  | job (ioFails : Bool) (command : JobCommand)

variable {Url Key : Type} (terminal : Terminal Url) (libs : Libraries Key) (env : Environment)

def changeHosts (result : Except UpsertError Unit × Workspace) :
    Except ChangeError Unit × Workspace :=
  (result.1.mapError .hosts, result.2)

def Change.run (disk : Disk) (change : Change) (state : Workspace) :
    Except ChangeError Unit × Workspace :=
  let lib := terminal.world.lib.toQueryLibrary
  match change with
  | addHost args => changeHosts (HostCommands.addHost terminal libs disk args state)
  | updateHost name update =>
    changeHosts (HostCommands.updateHost terminal libs disk name update state)
  | removeHost name => changeHosts (deleteHostFromCli lib.toUrlLibrary disk name state)
  | upsertHost session form => changeHosts (applyUpsertHost lib libs disk session form state)
  | upsertCluster session form =>
    changeHosts (applyUpsertCluster lib libs disk session form state)
  | deleteHost name => changeHosts (HostCommands.deleteHost lib.toUrlLibrary disk name state)
  | deleteHostRow rowId =>
    changeHosts (HostCommands.deleteHostRow lib.toUrlLibrary disk rowId state)
  | deleteClusterRow rowId =>
    changeHosts (HostCommands.deleteClusterRow lib.toUrlLibrary disk rowId state)
  | job ioFails command =>
    let changed := command.run env ioFails state.files.jobs
    (changed.1.mapError .jobs, { state with files := { state.files with jobs := changed.2 } })

/-- One change after another. -/
def runChanges (changes : List (Disk × Change)) (state : Workspace) : Workspace :=
  changes.foldl (fun state step => (step.2.run terminal libs env step.1 state).2) state

end Changes

end Esdiag.ConfigReferences
