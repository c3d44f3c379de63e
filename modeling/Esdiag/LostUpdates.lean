import Esdiag.ReferenceStability
import Esdiag.WorkspacePrograms
import Mathlib.Data.List.Permutation

/-!
Requests at the same time. Each of them loads the hosts file or the configuration,
changes what it loaded and writes the file, and others may write the file in
between. What the files hold in the end is made of the changes that no later
write of an older copy has removed, and every request that reports success has
written its change to each file that it changes, once.
-/
namespace Esdiag.LostUpdates

open KeyedMaps KeyedUpdates Deployments Keystores KeystoreOperations KnownHosts HostFiles
  JobModel SavedJobFiles ApplicationConfigs SettingsForms SettingsRenames SharedCells
  WorkspacePrograms SharedCells.Program

section Steps

variable {Url : Type} {α ε : Type} {k : Cell}

theorem finishes_lift {wrap : ε → RequestError} {result : Except ε α}
    {writes : List (Content Url k → Content Url k)} {a : α}
    (h : Finishes k (lift wrap result : Request Url α) writes (.ok a)) :
    writes = [] ∧ result = .ok a := by
  obtain ⟨rfl, hresult⟩ := finishes_done_iff.mp h
  exact ⟨rfl, Outcomes.mapError_eq_ok.mp hresult.symm⟩

theorem finishes_store {change : Content Url k → Content Url k}
    {writes : List (Content Url k → Content Url k)} {result : Except RequestError Unit}
    (h : Finishes k (store k change : Request Url Unit) writes result) : writes = [change] := by
  cases h with
  | store h =>
    cases h
    rfl
  | other hother _ => exact absurd rfl hother

theorem not_finishes_refuse {message : String} {writes : List (Content Url k → Content Url k)}
    {a : α} (h : Finishes k (refuse message : Request Url α) writes (.ok a)) : False := by
  obtain ⟨-, hresult⟩ := finishes_done_iff.mp h
  cases hresult

/-- A request that only reads. -/
abbrev ReadsOnly (p : Request Url α) : Prop := p.StoresIn fun _ => False

theorem ReadsOnly.storesIn {p : Request Url α} (hp : ReadsOnly p) (S : Cell → Prop) :
    p.StoresIn S := hp.mono fun _ h => h.elim

/-- A request that stores one cell stores no other. -/
theorem storesIn_of_ne {p : Request Url α} {stored : Cell} (hp : p.StoresIn (· = stored))
    (h : stored ≠ k) : p.StoresIn (· ≠ k) := hp.mono fun _ heq => heq ▸ h

theorem readsOnly_lift (wrap : ε → RequestError) (result : Except ε α) :
    ReadsOnly (lift wrap result : Request Url α) := .done _

theorem readsOnly_peek (k : Cell) : ReadsOnly (peek k : Request Url _) :=
  .peek fun _ => .done _

theorem readsOnly_load (k : Cell) : ReadsOnly (load k : Request Url _) :=
  .load fun _ => .done _

theorem storesIn_whenever {S : Cell → Prop} {request : Request Url Unit} (condition : Bool)
    (h : request.StoresIn S) : (whenever condition request).StoresIn S := by
  unfold whenever
  split
  · exact h
  · exact .done _

theorem finishes_whenever {condition : Bool} {request : Request Url Unit}
    {writes : List (Content Url k → Content Url k)}
    (h : Finishes k (whenever condition request) writes (.ok ())) :
    writes = [] ∨ Finishes k request writes (.ok ()) := by
  unfold whenever at h
  split at h
  · exact Or.inr h
  · exact Or.inl (finishes_done_iff.mp h).1

theorem storesIn_ignoreResult {S : Cell → Prop} {request : Request Url α}
    (h : request.StoresIn S) : (ignoreResult request).StoresIn S :=
  StoresIn.bind h fun _ => .done _

theorem finishes_ignoreResult {request : Request Url α}
    {writes : List (Content Url k → Content Url k)}
    (h : Finishes k (ignoreResult request) writes (.ok ())) :
    ∃ a, Finishes k request writes (.ok a) := by
  obtain ⟨a, first, rest, rfl, hfirst, hrest⟩ := Finishes.of_bind h
  obtain ⟨rfl, -⟩ := finishes_done_iff.mp hrest
  rw [List.append_nil]
  exact ⟨a, hfirst⟩

theorem storesIn_store (k : Cell) (change : Content Url k → Content Url k) :
    (store k change : Request Url Unit).StoresIn (· = k) :=
  .store rfl (.done _)

end Steps

section Files

variable {Url : Type} {lib : UrlLibrary Url}

theorem readsOnly_getKnown (name : String) : ReadsOnly (getKnown lib name) :=
  .peek fun _ => .done _

theorem readsOnly_loadHosts : ReadsOnly (loadHosts lib) := .load fun _ => .done _

theorem readsOnly_loadConfig : ReadsOnly (loadConfig : Request Url _) :=
  .load fun _ => .done _

theorem storesIn_writeHosts (outcome : HostsWrite) (hosts : KeyedMap String (KnownHost Url))
    (change : KeyedMap String (KnownHost Url) → KeyedMap String (KnownHost Url)) :
    (writeHosts lib outcome hosts change).StoresIn (· = .hosts) := by
  refine StoresIn.bind (.peek fun _ => .done _) fun current => ?_
  split
  · exact .done _
  · exact storesIn_store .hosts _
  · exact .done _
  · exact .store rfl (.done _)
  · exact storesIn_store .hosts _

theorem finishes_writeHosts {outcome : HostsWrite} {hosts : KeyedMap String (KnownHost Url)}
    {change : KeyedMap String (KnownHost Url) → KeyedMap String (KnownHost Url)}
    {writes : List (HostsFile → HostsFile)} (hflushed : outcome.Flushed)
    (h : Finishes Cell.hosts (writeHosts lib outcome hosts change) writes (.ok ())) :
    writes = [rewriteHosts lib change] := by
  obtain ⟨current, first, rest, rfl, hfirst, hrest⟩ := Finishes.of_bind h
  obtain rfl := (readsOnly_peek .hosts).writes_eq_nil id hfirst
  rw [List.nil_append]
  split at hrest
  · cases hrest
  · exact finishes_store hrest
  · cases hrest
  · cases hrest with
    | store hrest => cases hrest
    | other hother _ => exact absurd rfl hother
  · exact absurd rfl (hflushed _)

theorem storesIn_saveConfig (ioFails : Bool) (config : ApplicationConfig)
    (change : ApplicationConfig → ApplicationConfig) :
    (saveConfig ioFails config change : Request Url _).StoresIn (· = .config) := by
  refine StoresIn.bind (.done _) fun _ => ?_
  split
  · exact .done _
  · exact StoresIn.bind (storesIn_store .config _) fun _ => .done _

theorem finishes_saveConfig {ioFails : Bool} {config saved : ApplicationConfig}
    {change : ApplicationConfig → ApplicationConfig} {writes : List (ConfigFile → ConfigFile)}
    (h : Finishes Cell.config (saveConfig ioFails config change : Request Url _) writes
      (.ok saved)) :
    writes = [rewriteConfig change] := by
  obtain ⟨_, first, rest, rfl, hfirst, hrest⟩ := Finishes.of_bind h
  obtain ⟨rfl, -⟩ := finishes_lift hfirst
  rw [List.nil_append]
  split at hrest
  · cases hrest
  · obtain ⟨_, first, rest, rfl, hfirst, hrest⟩ := Finishes.of_bind hrest
    obtain ⟨rfl, -⟩ := finishes_done_iff.mp hrest
    rw [List.append_nil]
    exact finishes_store hfirst

theorem storesIn_clearCollectionDeferral (ioFails : Bool) :
    (clearCollectionDeferral ioFails : Request Url _).StoresIn (· = .config) :=
  StoresIn.bind (readsOnly_loadConfig.storesIn _) fun config =>
    storesIn_whenever _ (storesIn_ignoreResult (storesIn_saveConfig ioFails config undefer))

theorem finishes_clearCollectionDeferral {ioFails : Bool} {writes : List (ConfigFile → ConfigFile)}
    (h : Finishes Cell.config (clearCollectionDeferral ioFails : Request Url _) writes (.ok ())) :
    writes = [] ∨ writes = [rewriteConfig undefer] := by
  obtain ⟨config, -, h⟩ := Finishes.of_quiet_bind readsOnly_loadConfig id h
  rcases finishes_whenever h with hnone | h
  · exact Or.inl hnone
  · obtain ⟨saved, h⟩ := finishes_ignoreResult h
    exact Or.inr (finishes_saveConfig h)

theorem storesIn_loadSavedJobs (env : SavedJobFiles.Environment) :
    (loadSavedJobs env : Request Url _).StoresIn (· = .jobs) := by
  refine StoresIn.bind ((readsOnly_load .jobs).storesIn _) fun file => ?_
  split
  · exact .done _
  · exact .done _
  · exact StoresIn.bind (.done _) fun _ =>
      StoresIn.bind (storesIn_store .jobs _) fun _ => .done _

theorem storesIn_saveSavedJobs (env : SavedJobFiles.Environment) (ioFails : Bool)
    (jobs : SavedJobs) : (saveSavedJobs env ioFails jobs : Request Url _).StoresIn (· = .jobs) := by
  refine StoresIn.bind (.done _) fun _ => ?_
  split
  · exact .done _
  · exact storesIn_store .jobs _

theorem storesIn_upsertSecret {Key : Type} (libs : Libraries Key) (attempt : WriteAttempt)
    (secretId : String) (auth : SecretAuth) (password : String) :
    (upsertSecret libs attempt secretId auth password : Request Url _).StoresIn
      (· = .keystore) := by
  refine StoresIn.bind ((readsOnly_load .keystore).storesIn _) fun file => ?_
  split
  · exact .done _
  · exact storesIn_store .keystore _

theorem storesIn_upsertSecretBatch {Key : Type} (libs : Libraries Key) (attempt : WriteAttempt)
    (entries : List (String × SecretAuth)) (password : String) :
    (upsertSecretBatch libs attempt entries password : Request Url Unit).StoresIn
      (· = .keystore) := by
  refine StoresIn.bind ((readsOnly_load .keystore).storesIn _) fun file => ?_
  split
  · exact .done _
  · exact storesIn_store .keystore _

theorem storesIn_authenticate {Key : Type} (libs : Libraries Key) (attempt : WriteAttempt)
    (password : String) :
    (authenticate libs attempt password : Request Url Unit).StoresIn (· = .keystore) := by
  refine StoresIn.bind ((readsOnly_peek .keystore).storesIn _) fun found => ?_
  split
  · exact StoresIn.bind ((readsOnly_peek .keystore).storesIn _) fun _ => .done _
  · refine StoresIn.bind ((readsOnly_load .keystore).storesIn _) fun file => ?_
    split
    · exact .done _
    · exact storesIn_store .keystore _

theorem storesIn_saveSettings (outcome : SettingsWrite) (settings : Settings) :
    (saveSettings outcome settings : Request Url _).StoresIn (· = .settings) := by
  unfold saveSettings
  split
  · exact storesIn_store .settings _
  · exact .store rfl (.done _)

end Files

section Requests

variable {Url Key : Type} {server : Server Url Key} {faults : Faults}

theorem readsOnly_savedViewer (host : KnownHost Url) : ReadsOnly (savedViewer server host) := by
  unfold savedViewer
  split
  · exact .done _
  · exact StoresIn.bind (readsOnly_getKnown _) fun _ => .done _

theorem readsOnly_exporterTryFrom (password : Option String) (host : KnownHost Url) :
    ReadsOnly (exporterTryFrom server password host) := by
  unfold exporterTryFrom
  split
  · exact .done _
  · refine StoresIn.bind (readsOnly_savedViewer host) fun viewer => ?_
    refine StoresIn.bind (.peek fun _ => .done _) fun required => ?_
    split
    · exact .done _
    · refine StoresIn.bind (.done _) fun _ => StoresIn.bind (.peek fun _ => .done _) fun _ => ?_
      split <;> exact .done _

theorem readsOnly_reloadedExporter (password : Option String) (output : KnownHost Url) :
    ReadsOnly (reloadedExporter server password output) := by
  unfold reloadedExporter
  split
  · split
    · exact .done _
    · exact readsOnly_exporterTryFrom _ _
  · exact readsOnly_exporterTryFrom _ _

theorem readsOnly_checkTarget (target : String) : ReadsOnly (checkTarget server target) := by
  refine StoresIn.bind (readsOnly_getKnown target) fun found => ?_
  split
  · exact .done _
  · split
    · exact .done _
    · split
      · exact .done _
      · refine StoresIn.bind (readsOnly_getKnown _) fun viewer => ?_
        split
        · exact .done _
        · split <;> exact .done _

theorem readsOnly_targetExporter (password : Option String) (target : String)
    (current : Exporter Url) : ReadsOnly (targetExporter server password target current) := by
  refine StoresIn.bind (readsOnly_getKnown target) fun found => ?_
  split
  · split
    · exact .done _
    · exact readsOnly_exporterTryFrom _ _
  · split <;> exact .done _

theorem readsOnly_viewerAddress (host : Option (KnownHost Url)) :
    ReadsOnly (viewerAddress server host) := by
  unfold viewerAddress
  split
  · exact .done _
  · exact StoresIn.bind (readsOnly_getKnown _) fun _ => .done _

theorem readsOnly_validateName (name kind : String) :
    ReadsOnly (validateName name kind : Request Url Unit) := by
  unfold validateName
  split <;> exact .done _

/-- What follows the hosts in the request of a form. -/
theorem storesIn_afterHosts {clears changed : Bool} {ioFails : Bool} {outcome : SettingsWrite}
    {settings : Settings} :
    (do
      whenever clears (clearCollectionDeferral ioFails)
      whenever changed (saveSettings outcome settings) : Request Url Unit).StoresIn
        (· ≠ .hosts) := by
  refine StoresIn.bind ?_ fun _ => ?_
  · exact storesIn_whenever _
      (storesIn_of_ne (storesIn_clearCollectionDeferral _) (by decide))
  · exact storesIn_whenever _ (storesIn_of_ne (storesIn_saveSettings _ _) (by decide))

theorem readsOnly_readSystem : ReadsOnly (readSystem server) :=
  .peek fun _ => .peek fun _ => .peek fun _ => .done _

theorem storesIn_inspect : (inspect server).StoresIn (· = .jobs) := by
  refine StoresIn.bind ((readsOnly_peek .config).storesIn _) fun configFile => ?_
  refine StoresIn.bind (.done _) fun config => ?_
  refine StoresIn.bind ((readsOnly_peek .hosts).storesIn _) fun hostsFile => ?_
  refine StoresIn.bind (.done _) fun hosts => ?_
  refine StoresIn.bind (storesIn_loadSavedJobs server.env) fun jobs => ?_
  exact StoresIn.bind (readsOnly_readSystem.storesIn _) fun _ => .done _

theorem readsOnly_outputNameTaken (form : OutputForm) (keystorePassword : String) :
    ReadsOnly (outputNameTaken server form keystorePassword) :=
  .peek fun _ => .peek fun _ => .peek fun _ => .done _

theorem storesIn_validateReferences (config : ApplicationConfig) :
    (validateReferences server config).StoresIn (· = .jobs) := by
  refine StoresIn.bind (.done _) fun _ => ?_
  refine StoresIn.bind ((readsOnly_peek .hosts).storesIn _) fun hosts => ?_
  refine StoresIn.bind (.done _) fun _ => StoresIn.bind (.done _) fun _ => ?_
  split
  · exact .done _
  · refine StoresIn.bind (storesIn_loadSavedJobs server.env) fun jobs => ?_
    split <;> exact .done _

theorem storesIn_saveCollectSecret (input : CollectHostInput Url)
    (keystorePassword : Option String) :
    (saveCollectSecret server faults input keystorePassword).StoresIn (· = .keystore) := by
  unfold saveCollectSecret
  split
  · exact storesIn_upsertSecret _ _ _ _ _
  · exact .done _
  · exact .done _
  · exact .done _

variable (server)

/-- What a request that succeeds has written into the hosts file. -/
def SavesDeployment (input : OutputDeploymentInput Url) (writes : List (HostsFile → HostsFile)) :
    Prop :=
  ∃ output viewer, outputHost server input = .ok output ∧ viewerHost server input = .ok viewer ∧
    writes = [rewriteHosts server.world.lib.toUrlLibrary
      (addHosts [(input.outputName, output), (input.viewerName, viewer)])]

def SavesCollectHost (input : CollectHostInput Url) (writes : List (HostsFile → HostsFile)) :
    Prop :=
  ∃ host, collectHost server input = .ok host ∧
    writes = [rewriteHosts server.world.lib.toUrlLibrary (addHosts [(input.name, host)])]

def SavesChange (checked : SealedFile → Except UpsertError (HostChange Url))
    (writes : List (HostsFile → HostsFile)) : Prop :=
  ∃ keystore change, checked keystore = .ok change ∧
    writes = [rewriteHosts server.world.lib.toUrlLibrary (changeHosts change)]

/-- What a request that succeeds has written into the hosts file. -/
def HostsWritten (writes : List (HostsFile → HostsFile)) : Operation Url → Prop
  | .upsertHost session form =>
    SavesChange server (checkedHost server.world.lib.toQueryLibrary server.libs session form) writes
  | .upsertCluster session form =>
    SavesChange server (checkedCluster server.world.lib.toQueryLibrary server.libs session form)
      writes
  | .saveOutputDeployment input _ => SavesDeployment server input writes
  | .saveOutputStage _ form _ =>
    ∃ outputUrl viewerUrl, SavesDeployment server (form.deployment outputUrl viewerUrl) writes
  | .saveCollectHost input _ =>
    SavesCollectHost server input writes ∨ ∃ existing,
      writes = [rewriteHosts server.world.lib.toUrlLibrary
        (addHosts [(input.name, withRole .collect existing)])]
  | .replaceCollectHost input _ => SavesCollectHost server input writes
  | .saveKeystore .. | .bootstrapKeystore .. =>
    writes = [] ∨ writes = [rewriteHosts server.world.lib.toUrlLibrary migrateHosts]
  | .updateSettings .. | .saveUser _ | .saveWorkflow _ | .deferCollection | .saveDefaultJob ..
  | .saveDefaultProcessingJob .. => writes = []

/-- What a request that succeeds has written into the configuration. -/
def ConfigWritten (writes : List (ConfigFile → ConfigFile)) : Operation Url → Prop
  | .upsertHost .. | .upsertCluster .. | .saveCollectHost .. | .replaceCollectHost .. =>
    writes = [] ∨ writes = [rewriteConfig undefer]
  | .updateSettings _ form =>
    server.userMode = false ∧ writes = [] ∨ writes = [rewriteConfig id] ∨
      writes = [rewriteConfig (selectSavedHost (Texts.trim (form.target.getD "")))]
  | .saveUser user => writes = [rewriteConfig (setUser (Texts.trim user))]
  | .saveWorkflow workflow => writes = [rewriteConfig (setWorkflow workflow)]
  | .deferCollection => writes = [rewriteConfig defer]
  | .saveOutputDeployment input _ => writes = [rewriteConfig (selectSavedHost input.outputName)]
  | .saveDefaultJob name _ | .saveDefaultProcessingJob name _ =>
    writes = [rewriteConfig (setDefaultJob name)]
  | .saveOutputStage now form _ =>
    writes = [rewriteConfig (selectSavedHost form.outputName),
      rewriteConfig (stampAuthenticated now)]
  | .saveKeystore .. | .bootstrapKeystore .. => writes = []

variable {server}

theorem hostsWritten_of_upsertHosts (hflushed : faults.hosts.Flushed)
    {checked : SealedFile → Except UpsertError (HostChange Url)}
    {writes : List (HostsFile → HostsFile)}
    (h : Finishes Cell.hosts (upsertHosts server faults checked) writes (.ok ())) :
    SavesChange server checked writes := by
  unfold WorkspacePrograms.upsertHosts at h
  obtain ⟨keystore, -, h⟩ := Finishes.of_quiet_bind (readsOnly_peek _) id h
  obtain ⟨change, hchecked, h⟩ := Finishes.of_quiet_bind (readsOnly_lift _ _) id h
  obtain ⟨hosts, -, h⟩ := Finishes.of_quiet_bind readsOnly_loadHosts id h
  obtain ⟨file, -, h⟩ := Finishes.of_quiet_bind (readsOnly_peek _) id h
  obtain ⟨settings, -, h⟩ := Finishes.of_quiet_bind (readsOnly_lift _ _) id h
  refine ⟨keystore, change, (finishes_lift hchecked).2, ?_⟩
  obtain ⟨_, h⟩ := Finishes.of_bind_quiet (fun _ => storesIn_afterHosts) (by simp) h
  exact finishes_writeHosts hflushed h

theorem configWritten_of_upsertHosts
    {checked : SealedFile → Except UpsertError (HostChange Url)}
    {writes : List (ConfigFile → ConfigFile)}
    (h : Finishes Cell.config (upsertHosts server faults checked) writes (.ok ())) :
    writes = [] ∨ writes = [rewriteConfig undefer] := by
  unfold WorkspacePrograms.upsertHosts at h
  obtain ⟨keystore, -, h⟩ := Finishes.of_quiet_bind (readsOnly_peek _) id h
  obtain ⟨change, -, h⟩ := Finishes.of_quiet_bind (readsOnly_lift _ _) id h
  obtain ⟨hosts, -, h⟩ := Finishes.of_quiet_bind readsOnly_loadHosts id h
  obtain ⟨file, -, h⟩ := Finishes.of_quiet_bind (readsOnly_peek _) id h
  obtain ⟨settings, -, h⟩ := Finishes.of_quiet_bind (readsOnly_lift _ _) id h
  obtain ⟨_, -, h⟩ := Finishes.of_quiet_bind (storesIn_writeHosts _ _ _) (by decide) h
  obtain ⟨_, h⟩ := Finishes.of_bind_quiet
    (fun _ => storesIn_whenever _ (storesIn_saveSettings _ _)) (by decide) h
  rcases finishes_whenever h with hnone | h
  · exact Or.inl hnone
  · exact finishes_clearCollectionDeferral h

/-- The secret, the hosts and the configuration of an output deployment. -/
theorem finishes_saveOutputDeployment {k : Cell} {input : OutputDeploymentInput Url}
    {keystorePassword : String} {saved : ApplicationConfig}
    {writes : List (Content Url k → Content Url k)} (hk : k ≠ .keystore)
    (h : Finishes k (saveOutputDeployment server faults input keystorePassword) writes
      (.ok saved)) :
    ∃ output viewer hosts, outputHost server input = .ok output ∧
      viewerHost server input = .ok viewer ∧
      Finishes k (do
        writeHosts server.world.lib.toUrlLibrary faults.hosts hosts
          (addHosts [(input.outputName, output), (input.viewerName, viewer)])
        let config ← loadConfig
        saveConfig faults.configFails config (selectSavedHost input.outputName)) writes
          (.ok saved) := by
  unfold saveOutputDeployment at h
  obtain ⟨_, -, h⟩ := Finishes.of_quiet_bind (readsOnly_validateName _ _) id h
  obtain ⟨_, -, h⟩ := Finishes.of_quiet_bind (readsOnly_validateName _ _) id h
  obtain ⟨_, -, h⟩ := Finishes.of_quiet_bind (readsOnly_validateName _ _) id h
  split at h
  · exact (not_finishes_refuse h).elim
  · obtain ⟨_, -, h⟩ := Finishes.of_quiet_bind (storesIn_upsertSecret _ _ _ _ _) hk h
    obtain ⟨output, houtput, h⟩ := Finishes.of_quiet_bind (readsOnly_lift _ _) id h
    obtain ⟨viewer, hviewer, h⟩ := Finishes.of_quiet_bind (readsOnly_lift _ _) id h
    obtain ⟨hosts, -, h⟩ := Finishes.of_quiet_bind readsOnly_loadHosts id h
    exact ⟨output, viewer, hosts, (finishes_lift houtput).2, (finishes_lift hviewer).2, h⟩

theorem savesDeployment_of_finishes (hflushed : faults.hosts.Flushed)
    {input : OutputDeploymentInput Url}
    {keystorePassword : String} {saved : ApplicationConfig} {writes : List (HostsFile → HostsFile)}
    (h : Finishes Cell.hosts (saveOutputDeployment server faults input keystorePassword) writes
      (.ok saved)) : SavesDeployment server input writes := by
  unfold saveOutputDeployment at h
  obtain ⟨output, viewer, hosts, houtput, hviewer, h⟩ :=
    finishes_saveOutputDeployment (by decide) h
  obtain ⟨_, h⟩ := Finishes.of_bind_quiet
    (fun _ => StoresIn.bind (readsOnly_loadConfig.storesIn _) fun _ => storesIn_saveConfig _ _ _)
    (by decide) h
  exact ⟨output, viewer, houtput, hviewer, finishes_writeHosts hflushed h⟩

theorem selects_of_finishes {input : OutputDeploymentInput Url}
    {keystorePassword : String} {saved : ApplicationConfig}
    {writes : List (ConfigFile → ConfigFile)}
    (h : Finishes Cell.config (saveOutputDeployment server faults input keystorePassword) writes
      (.ok saved)) : writes = [rewriteConfig (selectSavedHost input.outputName)] := by
  unfold saveOutputDeployment at h
  obtain ⟨output, viewer, hosts, -, -, h⟩ := finishes_saveOutputDeployment (by decide) h
  obtain ⟨_, -, h⟩ := Finishes.of_quiet_bind (storesIn_writeHosts _ _ _) (by decide) h
  obtain ⟨config, -, h⟩ := Finishes.of_quiet_bind readsOnly_loadConfig id h
  exact finishes_saveConfig h

theorem hostsWritten_of_saveCollectHost (hflushed : faults.hosts.Flushed)
    {input : CollectHostInput Url}
    {keystorePassword : Option String} {writes : List (HostsFile → HostsFile)}
    (h : Finishes Cell.hosts (saveCollectHost server faults input keystorePassword) writes
      (.ok ())) :
    SavesCollectHost server input writes ∨ ∃ existing,
      writes = [rewriteHosts server.world.lib.toUrlLibrary
        (addHosts [(input.name, withRole .collect existing)])] := by
  unfold saveCollectHost at h
  obtain ⟨_, -, h⟩ := Finishes.of_quiet_bind (readsOnly_validateName _ _) id h
  obtain ⟨hosts, -, h⟩ := Finishes.of_quiet_bind readsOnly_loadHosts id h
  split at h
  · obtain ⟨_, h⟩ := Finishes.of_bind_quiet
      (fun _ => storesIn_clearCollectionDeferral _) (by decide) h
    exact Or.inr ⟨_, finishes_writeHosts hflushed h⟩
  · obtain ⟨_, -, h⟩ := Finishes.of_quiet_bind (storesIn_saveCollectSecret _ _) (by decide) h
    obtain ⟨host, hhost, h⟩ := Finishes.of_quiet_bind (readsOnly_lift _ _) id h
    obtain ⟨_, h⟩ := Finishes.of_bind_quiet
      (fun _ => storesIn_clearCollectionDeferral _) (by decide) h
    exact Or.inl ⟨host, (finishes_lift hhost).2, finishes_writeHosts hflushed h⟩

theorem configWritten_of_saveCollectHost {input : CollectHostInput Url}
    {keystorePassword : Option String} {writes : List (ConfigFile → ConfigFile)}
    (h : Finishes Cell.config (saveCollectHost server faults input keystorePassword) writes
      (.ok ())) : writes = [] ∨ writes = [rewriteConfig undefer] := by
  unfold saveCollectHost at h
  obtain ⟨_, -, h⟩ := Finishes.of_quiet_bind (readsOnly_validateName _ _) id h
  obtain ⟨hosts, -, h⟩ := Finishes.of_quiet_bind readsOnly_loadHosts id h
  split at h
  · obtain ⟨_, -, h⟩ := Finishes.of_quiet_bind (storesIn_writeHosts _ _ _) (by decide) h
    exact finishes_clearCollectionDeferral h
  · obtain ⟨_, -, h⟩ := Finishes.of_quiet_bind (storesIn_saveCollectSecret _ _) (by decide) h
    obtain ⟨host, -, h⟩ := Finishes.of_quiet_bind (readsOnly_lift _ _) id h
    obtain ⟨_, -, h⟩ := Finishes.of_quiet_bind (storesIn_writeHosts _ _ _) (by decide) h
    exact finishes_clearCollectionDeferral h

theorem hostsWritten_of_replaceCollectHost (hflushed : faults.hosts.Flushed)
    {input : CollectHostInput Url}
    {keystorePassword : Option String} {writes : List (HostsFile → HostsFile)}
    (h : Finishes Cell.hosts (replaceCollectHost server faults input keystorePassword) writes
      (.ok ())) : SavesCollectHost server input writes := by
  unfold replaceCollectHost at h
  obtain ⟨_, -, h⟩ := Finishes.of_quiet_bind (readsOnly_validateName _ _) id h
  obtain ⟨_, -, h⟩ := Finishes.of_quiet_bind (storesIn_saveCollectSecret _ _) (by decide) h
  obtain ⟨host, hhost, h⟩ := Finishes.of_quiet_bind (readsOnly_lift _ _) id h
  obtain ⟨hosts, -, h⟩ := Finishes.of_quiet_bind readsOnly_loadHosts id h
  obtain ⟨_, h⟩ := Finishes.of_bind_quiet
    (fun _ => storesIn_clearCollectionDeferral _) (by decide) h
  exact ⟨host, (finishes_lift hhost).2, finishes_writeHosts hflushed h⟩

theorem configWritten_of_replaceCollectHost {input : CollectHostInput Url}
    {keystorePassword : Option String} {writes : List (ConfigFile → ConfigFile)}
    (h : Finishes Cell.config (replaceCollectHost server faults input keystorePassword) writes
      (.ok ())) : writes = [] ∨ writes = [rewriteConfig undefer] := by
  unfold replaceCollectHost at h
  obtain ⟨_, -, h⟩ := Finishes.of_quiet_bind (readsOnly_validateName _ _) id h
  obtain ⟨_, -, h⟩ := Finishes.of_quiet_bind (storesIn_saveCollectSecret _ _) (by decide) h
  obtain ⟨host, -, h⟩ := Finishes.of_quiet_bind (readsOnly_lift _ _) id h
  obtain ⟨hosts, -, h⟩ := Finishes.of_quiet_bind readsOnly_loadHosts id h
  obtain ⟨_, -, h⟩ := Finishes.of_quiet_bind (storesIn_writeHosts _ _ _) (by decide) h
  exact finishes_clearCollectionDeferral h

theorem storesIn_saveUser (user : String) :
    (WorkspacePrograms.saveUser faults user : Request Url _).StoresIn (· = .config) := by
  unfold WorkspacePrograms.saveUser
  split
  · exact .done _
  · exact StoresIn.bind (readsOnly_loadConfig.storesIn _) fun _ => storesIn_saveConfig _ _ _

theorem storesIn_deferCollection :
    (WorkspacePrograms.deferCollection server faults).StoresIn (· ≠ .hosts) := by
  refine StoresIn.bind (storesIn_of_ne storesIn_inspect (by decide)) fun readiness => ?_
  split
  · exact .done _
  · refine StoresIn.bind (readsOnly_loadConfig.storesIn _) fun config => ?_
    exact storesIn_of_ne (storesIn_saveConfig _ _ _) (by decide)

theorem storesIn_saveDefaultJob (name : String) (job : Job) :
    (saveDefaultJob server faults name job).StoresIn (· ≠ .hosts) := by
  refine StoresIn.bind ((readsOnly_validateName _ _).storesIn _) fun _ => ?_
  refine StoresIn.bind (storesIn_of_ne (storesIn_loadSavedJobs _) (by decide)) fun jobs => ?_
  refine StoresIn.bind (storesIn_of_ne (storesIn_saveSavedJobs _ _ _) (by decide)) fun _ => ?_
  refine StoresIn.bind (readsOnly_loadConfig.storesIn _) fun config => ?_
  refine StoresIn.bind (storesIn_of_ne (storesIn_validateReferences _) (by decide)) fun _ => ?_
  exact storesIn_of_ne (storesIn_saveConfig _ _ _) (by decide)

theorem configWritten_of_saveDefaultJob {name : String} {job : Job} {saved : ApplicationConfig}
    {writes : List (ConfigFile → ConfigFile)}
    (h : Finishes Cell.config (saveDefaultJob server faults name job) writes (.ok saved)) :
    writes = [rewriteConfig (setDefaultJob name)] := by
  unfold saveDefaultJob at h
  obtain ⟨_, -, h⟩ := Finishes.of_quiet_bind (readsOnly_validateName _ _) id h
  obtain ⟨jobs, -, h⟩ := Finishes.of_quiet_bind (storesIn_loadSavedJobs _) (by decide) h
  obtain ⟨_, -, h⟩ := Finishes.of_quiet_bind (storesIn_saveSavedJobs _ _ _) (by decide) h
  obtain ⟨config, -, h⟩ := Finishes.of_quiet_bind readsOnly_loadConfig id h
  obtain ⟨_, -, h⟩ := Finishes.of_quiet_bind (storesIn_validateReferences _) (by decide) h
  exact finishes_saveConfig h

/-- The job is built of what is read, and saved as any other. -/
theorem finishes_saveDefaultProcessingJob {k : Cell} {name collectHost : String}
    {saved : ApplicationConfig} {writes : List (Content Url k → Content Url k)}
    (h : Finishes k (saveDefaultProcessingJob server faults name collectHost) writes
      (.ok saved)) :
    ∃ job, Finishes k (saveDefaultJob server faults name job) writes (.ok saved) := by
  unfold saveDefaultProcessingJob at h
  obtain ⟨_, -, h⟩ := Finishes.of_quiet_bind (readsOnly_validateName _ _) id h
  obtain ⟨found, -, h⟩ := Finishes.of_quiet_bind (readsOnly_getKnown _) id h
  split at h
  · exact (not_finishes_refuse h).elim
  · split at h
    · exact (not_finishes_refuse h).elim
    · obtain ⟨file, -, h⟩ := Finishes.of_quiet_bind (readsOnly_peek _) id h
      obtain ⟨config, -, h⟩ := Finishes.of_quiet_bind (readsOnly_lift _ _) id h
      split at h
      · exact (not_finishes_refuse h).elim
      · obtain ⟨system, -, h⟩ := Finishes.of_quiet_bind readsOnly_readSystem id h
        obtain ⟨job, -, h⟩ := Finishes.of_quiet_bind (readsOnly_lift _ _) id h
        exact ⟨job, h⟩

theorem storesIn_setKibanaUrl (kibanaUrl : Option String) :
    (setKibanaUrl kibanaUrl : Request Url Unit).StoresIn (· = .kibanaUrl) := by
  unfold setKibanaUrl
  split
  · exact .done _
  · exact storesIn_store .kibanaUrl _

theorem readsOnly_migrationNeeded : ReadsOnly (migrationNeeded server) := by
  refine StoresIn.bind (.peek fun _ => .done _) fun keystore => ?_
  split
  · exact .done _
  · exact StoresIn.bind (.peek fun _ => .done _) fun _ => .done _

theorem readsOnly_migrationAsked (isPresent : Bool) :
    ReadsOnly (migrationAsked server isPresent) := by
  unfold migrationAsked
  split
  · exact .done _
  · exact readsOnly_migrationNeeded

theorem storesIn_storePending (pending : List (String × SecretAuth)) (password : String) :
    (storePending server faults pending password).StoresIn (· = .keystore) := by
  unfold storePending
  split
  · exact .done _
  · exact storesIn_upsertSecretBatch _ _ _ _

/-- The cells that are kept in memory only. -/
def InMemory (k : Cell) : Prop := k = .exporter ∨ k = .kibanaUrl

theorem storesIn_serveTarget (target : String) (exporter : Exporter Url) :
    (serveTarget server target exporter).StoresIn InMemory := by
  refine StoresIn.bind ((readsOnly_getKnown _).storesIn _) fun host => ?_
  refine StoresIn.bind ((readsOnly_viewerAddress host).storesIn _) fun kibanaUrl => ?_
  refine StoresIn.bind ((storesIn_setKibanaUrl _).mono fun _ => Or.inr) fun _ => ?_
  exact (storesIn_store .exporter _).mono fun _ => Or.inl

theorem storesIn_serveOutput (input : OutputDeploymentInput Url) (keystorePassword : String) :
    (serveOutput server input keystorePassword).StoresIn InMemory := by
  refine StoresIn.bind ((readsOnly_getKnown _).storesIn _) fun found => ?_
  split
  · exact .done _
  · refine StoresIn.bind ((readsOnly_exporterTryFrom _ _).storesIn _) fun exporter => ?_
    refine StoresIn.bind ((storesIn_store .exporter _).mono fun _ => Or.inl) fun _ => ?_
    exact (storesIn_store .kibanaUrl _).mono fun _ => Or.inr

theorem storesIn_reloadConfiguredOutput (held : Option String) :
    (reloadConfiguredOutput server held).StoresIn InMemory := by
  unfold reloadConfiguredOutput
  split
  · exact .done _
  · refine StoresIn.bind (.peek fun _ => .done _) fun file => ?_
    refine StoresIn.bind (.done _) fun config => ?_
    split
    · split
      · exact .done _
      · refine StoresIn.bind ((readsOnly_getKnown _).storesIn _) fun found => ?_
        split
        · exact .done _
        · refine StoresIn.bind ((readsOnly_viewerAddress _).storesIn _) fun kibanaUrl => ?_
          refine StoresIn.bind ((readsOnly_reloadedExporter held _).storesIn _) fun exporter => ?_
          refine StoresIn.bind ((storesIn_store .exporter _).mono fun _ => Or.inl) fun _ => ?_
          exact (storesIn_setKibanaUrl _).mono fun _ => Or.inr
    · exact .done _

theorem not_inMemory_hosts : ¬ InMemory .hosts := by
  rintro (h | h) <;> cases h

theorem not_inMemory_config : ¬ InMemory .config := by
  rintro (h | h) <;> cases h

theorem inMemory_ne_hosts {k : Cell} (h : InMemory k) : k ≠ .hosts :=
  fun heq => not_inMemory_hosts (heq ▸ h)

theorem storesIn_takeTarget (password : Option String) (config : ApplicationConfig)
    (current : Exporter Url) (target : String) :
    (takeTarget server faults password config current target).StoresIn (· ≠ .hosts) := by
  unfold takeTarget
  split
  · exact .done _
  · split
    · refine StoresIn.bind ((readsOnly_checkTarget target).storesIn _) fun _ => ?_
      refine StoresIn.bind ((readsOnly_targetExporter _ _ _).storesIn _) fun exporter => ?_
      refine StoresIn.bind (storesIn_of_ne (storesIn_saveConfig _ _ _) (by decide)) fun _ => ?_
      exact (storesIn_serveTarget target exporter).mono fun _ => inMemory_ne_hosts
    · refine StoresIn.bind (storesIn_of_ne (storesIn_saveConfig _ _ _) (by decide)) fun _ => ?_
      exact storesIn_of_ne (storesIn_store .exporter _) (by decide)

theorem storesIn_updateSettings (password : Option String) (form : UpdateSettingsForm) :
    (WorkspacePrograms.updateSettings server faults password form).StoresIn (· ≠ .hosts) := by
  unfold WorkspacePrograms.updateSettings
  split
  · exact storesIn_of_ne (storesIn_setKibanaUrl _) (by decide)
  · refine StoresIn.bind (readsOnly_loadConfig.storesIn _) fun config => ?_
    exact StoresIn.bind ((readsOnly_peek _).storesIn _) fun current => storesIn_takeTarget _ _ _ _

theorem configWritten_of_takeTarget {password : Option String} {config : ApplicationConfig}
    {current : Exporter Url} {target : String} {writes : List (ConfigFile → ConfigFile)}
    (h : Finishes Cell.config (takeTarget server faults password config current target) writes
      (.ok ())) :
    writes = [rewriteConfig id] ∨ writes = [rewriteConfig (selectSavedHost target)] := by
  unfold takeTarget at h
  split at h
  · exact (not_finishes_refuse h).elim
  · split at h
    · obtain ⟨_, -, h⟩ := Finishes.of_quiet_bind (readsOnly_checkTarget _) id h
      obtain ⟨exporter, -, h⟩ := Finishes.of_quiet_bind (readsOnly_targetExporter _ _ _) id h
      obtain ⟨_, h⟩ := Finishes.of_bind_quiet
        (fun _ => storesIn_serveTarget _ exporter) not_inMemory_config h
      exact Or.inr (finishes_saveConfig h)
    · obtain ⟨_, h⟩ := Finishes.of_bind_quiet
        (fun _ => storesIn_store .exporter _) (by decide) h
      exact Or.inl (finishes_saveConfig h)

theorem configWritten_of_updateSettings {password : Option String} {form : UpdateSettingsForm}
    {writes : List (ConfigFile → ConfigFile)}
    (h : Finishes Cell.config (WorkspacePrograms.updateSettings server faults password form)
      writes (.ok ())) :
    server.userMode = false ∧ writes = [] ∨ writes = [rewriteConfig id] ∨
      writes = [rewriteConfig (selectSavedHost (Texts.trim (form.target.getD "")))] := by
  unfold WorkspacePrograms.updateSettings at h
  split at h
  case isTrue hmode =>
    have hnone := (storesIn_setKibanaUrl form.kibanaUrl).writes_eq_nil (by decide) h
    exact Or.inl ⟨by simpa using hmode, hnone⟩
  case isFalse =>
    obtain ⟨config, -, h⟩ := Finishes.of_quiet_bind readsOnly_loadConfig id h
    obtain ⟨current, -, h⟩ := Finishes.of_quiet_bind (readsOnly_peek _) id h
    exact Or.inr (configWritten_of_takeTarget h)

/-- The stage of an output ends in the deployment that it adopts. -/
theorem finishes_saveOutputStage {k : Cell} {now : String} {form : OutputForm}
    {keystorePassword : String} {writes : List (Content Url k → Content Url k)}
    (h : Finishes k (saveOutputStage server faults now form keystorePassword) writes (.ok ())) :
    ∃ outputUrl viewerUrl, Finishes k (adoptOutput server faults now
      (form.deployment outputUrl viewerUrl) keystorePassword) writes (.ok ()) := by
  unfold saveOutputStage at h
  obtain ⟨outputUrl, -, h⟩ := Finishes.of_quiet_bind (readsOnly_lift _ _) id h
  obtain ⟨viewerUrl, -, h⟩ := Finishes.of_quiet_bind (readsOnly_lift _ _) id h
  split at h
  · exact (not_finishes_refuse h).elim
  · obtain ⟨taken, -, h⟩ := Finishes.of_quiet_bind (readsOnly_outputNameTaken _ _) id h
    split at h
    · exact (not_finishes_refuse h).elim
    · obtain ⟨_, -, h⟩ := Finishes.of_quiet_bind (readsOnly_lift _ _) id h
      exact ⟨outputUrl, viewerUrl, h⟩

theorem savesDeployment_of_adoptOutput (hflushed : faults.hosts.Flushed) {now : String}
    {input : OutputDeploymentInput Url} {keystorePassword : String} {writes : List (HostsFile → HostsFile)}
    (h : Finishes Cell.hosts (adoptOutput server faults now input keystorePassword) writes
      (.ok ())) : SavesDeployment server input writes := by
  unfold adoptOutput at h
  have hrest : ∀ saved : ApplicationConfig, (do
      let config ← loadConfig
      let _ ← saveConfig faults.stampFails config (stampAuthenticated now)
      serveOutput server input keystorePassword : Request Url Unit).StoresIn (· ≠ .hosts) := by
    intro saved
    refine StoresIn.bind (readsOnly_loadConfig.storesIn _) fun config => ?_
    refine StoresIn.bind (storesIn_of_ne (storesIn_saveConfig _ _ _) (by decide)) fun _ => ?_
    exact (storesIn_serveOutput _ _).mono fun _ => inMemory_ne_hosts
  obtain ⟨_, h⟩ := Finishes.of_bind_quiet hrest (by simp) h
  exact savesDeployment_of_finishes hflushed h

theorem configWritten_of_adoptOutput {now : String} {input : OutputDeploymentInput Url}
    {keystorePassword : String} {writes : List (ConfigFile → ConfigFile)}
    (h : Finishes Cell.config (adoptOutput server faults now input keystorePassword) writes
      (.ok ())) :
    writes = [rewriteConfig (selectSavedHost input.outputName),
      rewriteConfig (stampAuthenticated now)] := by
  unfold adoptOutput at h
  obtain ⟨_, first, rest, rfl, hdeployment, h⟩ := Finishes.of_bind h
  obtain ⟨config, -, h⟩ := Finishes.of_quiet_bind readsOnly_loadConfig id h
  obtain ⟨_, h⟩ := Finishes.of_bind_quiet
    (fun _ => storesIn_serveOutput _ _) not_inMemory_config h
  rw [selects_of_finishes hdeployment, finishes_saveConfig h]
  rfl

/-- A migration stores the keystore and the hosts file. -/
theorem storesIn_migrateHostsToKeystore (password : String) :
    (migrateHostsToKeystore server faults password).StoresIn
      fun k => k = .keystore ∨ k = .hosts := by
  refine StoresIn.bind (readsOnly_loadHosts.storesIn _) fun hosts => ?_
  refine StoresIn.bind ?_ fun _ => (storesIn_writeHosts _ _ _).mono fun _ => Or.inr
  exact storesIn_whenever _ ((storesIn_storePending _ _).mono fun _ => Or.inl)

theorem hostsWritten_of_openKeystore (hflushed : faults.hosts.Flushed) {migrates : Bool}
    {password : String} {held : Option String} {writes : List (HostsFile → HostsFile)}
    (h : Finishes Cell.hosts (openKeystore server faults migrates password held) writes
      (.ok ())) :
    writes = [] ∨ writes = [rewriteHosts server.world.lib.toUrlLibrary migrateHosts] := by
  unfold openKeystore at h
  obtain ⟨_, -, h⟩ := Finishes.of_quiet_bind (storesIn_authenticate _ _ _) (by decide) h
  obtain ⟨_, h⟩ := Finishes.of_bind_quiet
    (fun _ => storesIn_reloadConfiguredOutput held) not_inMemory_hosts h
  rcases finishes_whenever h with hnone | h
  · exact Or.inl hnone
  · unfold migrateHostsToKeystore at h
    obtain ⟨hosts, -, h⟩ := Finishes.of_quiet_bind readsOnly_loadHosts id h
    obtain ⟨_, -, h⟩ := Finishes.of_quiet_bind
      (storesIn_whenever _ (storesIn_storePending _ _)) (by decide) h
    exact Or.inr (finishes_writeHosts hflushed h)

theorem storesIn_openKeystore (migrates : Bool) (password : String) (held : Option String) :
    (openKeystore server faults migrates password held).StoresIn (· ≠ .config) := by
  refine StoresIn.bind (storesIn_of_ne (storesIn_authenticate _ _ _) (by decide)) fun _ => ?_
  refine StoresIn.bind ?_ fun _ => (storesIn_reloadConfiguredOutput held).mono ?_
  · refine storesIn_whenever _ ((storesIn_migrateHostsToKeystore password).mono ?_)
    rintro k (rfl | rfl) <;> decide
  · rintro k (rfl | rfl) <;> decide

/-- The step of the keystore opens it, or is refused. -/
theorem finishes_saveKeystore {k : Cell} {form : KeystoreForm} {held : Option String}
    {writes : List (Content Url k → Content Url k)}
    (h : Finishes k (WorkspacePrograms.saveKeystore server faults form held) writes (.ok ())) :
    ∃ migrates, Finishes k (openKeystore server faults migrates (Texts.trim form.password) held)
      writes (.ok ()) := by
  unfold WorkspacePrograms.saveKeystore at h
  obtain ⟨keystore, -, h⟩ := Finishes.of_quiet_bind (readsOnly_peek _) id h
  obtain ⟨migrates, -, h⟩ := Finishes.of_quiet_bind (readsOnly_migrationAsked _) id h
  split at h
  · exact (not_finishes_refuse h).elim
  · exact ⟨migrates, h⟩

theorem finishes_bootstrapKeystore {k : Cell} {form : KeystoreForm} {held : Option String}
    {writes : List (Content Url k → Content Url k)}
    (h : Finishes k (WorkspacePrograms.bootstrapKeystore server faults form held) writes
      (.ok ())) :
    writes = [] ∨ ∃ migrates, Finishes k
      (openKeystore server faults migrates (Texts.trim form.password) held) writes (.ok ()) := by
  unfold WorkspacePrograms.bootstrapKeystore at h
  obtain ⟨keystore, -, h⟩ := Finishes.of_quiet_bind (readsOnly_peek _) id h
  split at h
  · exact Or.inl (finishes_done_iff.mp h).1
  · split at h
    · exact (not_finishes_refuse h).elim
    · split at h
      · exact (not_finishes_refuse h).elim
      · obtain ⟨migrates, -, h⟩ := Finishes.of_quiet_bind readsOnly_migrationNeeded id h
        exact Or.inr ⟨migrates, h⟩

theorem hostsWritten_of_finishes (hflushed : faults.hosts.Flushed) {operation : Operation Url}
    {writes : List (HostsFile → HostsFile)}
    (h : Finishes Cell.hosts (operation.request server faults) writes (.ok ())) :
    HostsWritten server writes operation := by
  cases operation with
  | upsertHost session form => exact hostsWritten_of_upsertHosts hflushed h
  | upsertCluster session form => exact hostsWritten_of_upsertHosts hflushed h
  | updateSettings password form =>
    exact (storesIn_updateSettings password form).writes_eq_nil (by simp) h
  | saveUser user =>
    obtain ⟨saved, h⟩ := finishes_ignoreResult h
    exact (storesIn_saveUser user).writes_eq_nil (by decide) h
  | saveWorkflow workflow =>
    obtain ⟨saved, h⟩ := finishes_ignoreResult h
    obtain ⟨config, -, h⟩ := Finishes.of_quiet_bind readsOnly_loadConfig id h
    exact (storesIn_saveConfig _ _ _).writes_eq_nil (by decide) h
  | deferCollection =>
    obtain ⟨saved, h⟩ := finishes_ignoreResult h
    exact storesIn_deferCollection.writes_eq_nil (by simp) h
  | saveOutputDeployment input keystorePassword =>
    obtain ⟨saved, h⟩ := finishes_ignoreResult h
    exact savesDeployment_of_finishes hflushed h
  | saveCollectHost input keystorePassword => exact hostsWritten_of_saveCollectHost hflushed h
  | replaceCollectHost input keystorePassword => exact hostsWritten_of_replaceCollectHost hflushed h
  | saveDefaultJob name job =>
    obtain ⟨saved, h⟩ := finishes_ignoreResult h
    exact (storesIn_saveDefaultJob name job).writes_eq_nil (by simp) h
  | saveDefaultProcessingJob name collectHost =>
    obtain ⟨saved, h⟩ := finishes_ignoreResult h
    obtain ⟨job, h⟩ := finishes_saveDefaultProcessingJob h
    exact (storesIn_saveDefaultJob name job).writes_eq_nil (by simp) h
  | saveOutputStage now form keystorePassword =>
    obtain ⟨outputUrl, viewerUrl, h⟩ := finishes_saveOutputStage h
    exact ⟨outputUrl, viewerUrl, savesDeployment_of_adoptOutput hflushed h⟩
  | saveKeystore form held =>
    obtain ⟨migrates, h⟩ := finishes_saveKeystore h
    exact hostsWritten_of_openKeystore hflushed h
  | bootstrapKeystore form held =>
    rcases finishes_bootstrapKeystore h with hnone | ⟨migrates, h⟩
    · exact Or.inl hnone
    · exact hostsWritten_of_openKeystore hflushed h

theorem configWritten_of_finishes {operation : Operation Url}
    {writes : List (ConfigFile → ConfigFile)}
    (h : Finishes Cell.config (operation.request server faults) writes (.ok ())) :
    ConfigWritten server writes operation := by
  cases operation with
  | upsertHost session form => exact configWritten_of_upsertHosts h
  | upsertCluster session form => exact configWritten_of_upsertHosts h
  | updateSettings password form => exact configWritten_of_updateSettings h
  | saveUser user =>
    obtain ⟨saved, h⟩ := finishes_ignoreResult h
    unfold WorkspacePrograms.saveUser at h
    split at h
    · exact (not_finishes_refuse h).elim
    · obtain ⟨config, -, h⟩ := Finishes.of_quiet_bind readsOnly_loadConfig id h
      exact finishes_saveConfig h
  | saveWorkflow workflow =>
    obtain ⟨saved, h⟩ := finishes_ignoreResult h
    obtain ⟨config, -, h⟩ := Finishes.of_quiet_bind readsOnly_loadConfig id h
    exact finishes_saveConfig h
  | deferCollection =>
    obtain ⟨saved, h⟩ := finishes_ignoreResult h
    obtain ⟨readiness, -, h⟩ := Finishes.of_quiet_bind storesIn_inspect (by decide) h
    split at h
    · exact (not_finishes_refuse h).elim
    · obtain ⟨config, -, h⟩ := Finishes.of_quiet_bind readsOnly_loadConfig id h
      exact finishes_saveConfig h
  | saveOutputDeployment input keystorePassword =>
    obtain ⟨saved, h⟩ := finishes_ignoreResult h
    exact selects_of_finishes h
  | saveCollectHost input keystorePassword => exact configWritten_of_saveCollectHost h
  | replaceCollectHost input keystorePassword => exact configWritten_of_replaceCollectHost h
  | saveDefaultJob name job =>
    obtain ⟨saved, h⟩ := finishes_ignoreResult h
    exact configWritten_of_saveDefaultJob h
  | saveDefaultProcessingJob name collectHost =>
    obtain ⟨saved, h⟩ := finishes_ignoreResult h
    obtain ⟨job, h⟩ := finishes_saveDefaultProcessingJob h
    exact configWritten_of_saveDefaultJob h
  | saveOutputStage now form keystorePassword =>
    obtain ⟨outputUrl, viewerUrl, h⟩ := finishes_saveOutputStage h
    exact configWritten_of_adoptOutput h
  | saveKeystore form held =>
    obtain ⟨migrates, h⟩ := finishes_saveKeystore h
    exact (storesIn_openKeystore _ _ _).writes_eq_nil (by simp) h
  | bootstrapKeystore form held =>
    rcases finishes_bootstrapKeystore h with hnone | ⟨migrates, h⟩
    · exact hnone
    · exact (storesIn_openKeystore _ _ _).writes_eq_nil (by simp) h

end Requests

section Runs

variable {Url Key ι : Type} [DecidableEq ι]

abbrev Requests (Url ι : Type) := State (Content Url) RequestError Unit ι

def succeeded (state : Requests Url ι) (i : ι) : Bool :=
  match (state.tasks i).program with
  | .done (.ok ()) => true
  | _ => false

/-- Requests that begin at the same time, each with the faults that it meets. -/
def begin (server : Server Url Key) (requests : ι → Faults × Operation Url)
    (cells : ∀ k, Content Url k) : Requests Url ι :=
  .start (fun i => (requests i).2.request server (requests i).1) cells

/-- A cell holds what the changes of the successful requests make of it in some order. -/
def Serialized (state : Requests Url ι) (schedule : List ι) (k : Cell) : Prop :=
  ∃ order, order.Perm ((stores (state.trace k schedule)).filter fun change =>
      succeeded (state.run schedule) change.1) ∧
    (state.run schedule).cells k = applyAll (state.cells k) order

/-- How the changes of requests at the same time end up in the cells. -/
structure ChangesAccounted (server : Server Url Key) (requests : ι → Faults × Operation Url)
    (state : Requests Url ι) (schedule : List ι) : Prop where
  content : ∀ k, (state.run schedule).cells k =
    applyAll (state.cells k) (history (state.trace k schedule))
  order : ∀ k, (history (state.trace k schedule)).Sublist (stores (state.trace k schedule))
  kept : ∀ (k : Cell) (before after : List (Access ι (Content Url k))) (i : ι)
    (change : Content Url k → Content Url k),
    state.trace k schedule = before ++ .stored i change :: after → ¬ Overtaken after →
      (i, change) ∈ history (state.trace k schedule)
  undisturbed : ∀ k, Undisturbed (state.trace k schedule) →
    (state.run schedule).cells k = applyAll (state.cells k) (stores (state.trace k schedule))
  serialized : ∀ k, Undisturbed (state.trace k schedule) →
    (∀ i, succeeded (state.run schedule) i = false → changesOf i (state.trace k schedule) = []) →
    Serialized state schedule k
  hosts : ∀ i, succeeded (state.run schedule) i = true → (requests i).1.hosts.Flushed →
    HostsWritten server (changesOf i (state.trace Cell.hosts schedule)) (requests i).2
  config : ∀ i, succeeded (state.run schedule) i = true →
    ConfigWritten server (changesOf i (state.trace Cell.config schedule)) (requests i).2

omit [DecidableEq ι] in
theorem program_of_succeeded {state : Requests Url ι} {i : ι} (h : succeeded state i = true) :
    (state.tasks i).program = .done (.ok ()) := by
  unfold succeeded at h
  split at h
  case h_1 hprogram => exact hprogram
  case h_2 => cases h

variable (server : Server Url Key) (requests : ι → Faults × Operation Url)
  (cells : ∀ k, Content Url k) (schedule : List ι)

theorem content_of_undisturbed {k : Cell}
    (h : Undisturbed ((begin server requests cells).trace k schedule)) :
    ((begin server requests cells).run schedule).cells k =
      applyAll (cells k) (stores ((begin server requests cells).trace k schedule)) := by
  rw [← history_eq_stores h]
  exact State.cells_run_start _ cells schedule k

/-- Where only those stored that succeed, the order of the stores is a serial one. -/
theorem serialized_of_undisturbed {k : Cell}
    (h : Undisturbed ((begin server requests cells).trace k schedule))
    (hfailed : ∀ i, succeeded ((begin server requests cells).run schedule) i = false →
      changesOf i ((begin server requests cells).trace k schedule) = []) :
    Serialized (begin server requests cells) schedule k := by
  have hall : (stores ((begin server requests cells).trace k schedule)).filter (fun change =>
      succeeded ((begin server requests cells).run schedule) change.1) =
        stores ((begin server requests cells).trace k schedule) := by
    rw [List.filter_eq_self]
    rintro ⟨i, change⟩ hmem
    by_contra hnot
    have hnone := hfailed i (by simpa using hnot)
    have hchange := mem_changesOf.mpr hmem
    rw [hnone] at hchange
    cases hchange
  exact ⟨_, by rw [hall], content_of_undisturbed server requests cells schedule h⟩

theorem changes_accounted :
    ChangesAccounted server requests (begin server requests cells) schedule where
  content := State.cells_run_start _ cells schedule
  order k := history_sublist _
  kept k before after i change htrace hafter := by
    rw [htrace]
    exact mem_history_of_not_overtaken hafter
  undisturbed _ h := content_of_undisturbed server requests cells schedule h
  serialized _ h hfailed := serialized_of_undisturbed server requests cells schedule h hfailed
  hosts i hsucceeded hflushed := hostsWritten_of_finishes hflushed
    (State.finishes_of_done Cell.hosts (program_of_succeeded hsucceeded))
  config i hsucceeded := configWritten_of_finishes
    (State.finishes_of_done Cell.config (program_of_succeeded hsucceeded))

end Runs

section Samples

open ReferenceStability OutputSources

def sampleServer : Server HostRoundTrip.SampleUrl UInt8 where
  world := sampleTerminal.world
  libs := sampleLibraries
  env := LegacyMigration.bareEnvironment
  userMode := true
  onboarding := true
  buildsClient _ _ _ := true
  connects _ := true
  exporterFromText _ := .error "no address"

def sampleFaults : Faults where
  toDisk := RenameSafety.sampleDisk
  jobsFail := false
  stampFails := false
  creation := sampleAttempt
  backupFails := false

/-- A user is saved while a workflow is. -/
def sampleRequests : Bool → Faults × Operation HostRoundTrip.SampleUrl
  | false => (sampleFaults, .saveUser "ana")
  | true => (sampleFaults, .saveWorkflow .processExisting)

def emptyCells : ∀ k, Content HostRoundTrip.SampleUrl k
  | .keystore => .absent
  | .hosts => .absent
  | .jobs => .absent
  | .config => .absent
  | .settings => .absent
  | .exporter => .other "stdio://stdout"
  | .kibanaUrl => ""

/-- Both load the configuration, and then both write it. -/
def sampleSchedule : List Bool := [false, true, false, true]

/-- Both requests report success, and the user of the first is lost. -/
theorem concurrent_user_lost :
    (∀ i, succeeded ((begin sampleServer sampleRequests emptyCells).run sampleSchedule) i = true) ∧
      ¬ Serialized (begin sampleServer sampleRequests emptyCells) sampleSchedule .config := by
  constructor
  · intro i
    cases i <;> rfl
  · rintro ⟨order, hperm, hcontent⟩
    have hstores : (stores ((begin sampleServer sampleRequests emptyCells).trace .config
        sampleSchedule)).filter (fun change => succeeded
          ((begin sampleServer sampleRequests emptyCells).run sampleSchedule) change.1) =
        [(false, rewriteConfig (setUser "ana")),
          (true, rewriteConfig (setWorkflow .processExisting))] := by
      rfl
    rw [hstores, List.perm_pair] at hperm
    rcases hperm with rfl | rfl <;> cases hcontent

end Samples

end Esdiag.LostUpdates
