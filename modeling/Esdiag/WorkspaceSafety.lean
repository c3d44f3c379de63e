import Esdiag.LostUpdates
import Esdiag.SharedInvariants

/-!
What requests at the same time leave. Whichever of them wins, no file becomes one
that the next request cannot load, and the entry of a host that none of them
names stays as it is saved. Only a write that breaks off in the middle of a file,
or is lost with its flush, may leave it in any state.
-/
namespace Esdiag.WorkspaceSafety

open KeyedMaps KeyedUpdates Deployments Keystores KeystoreOperations KnownHosts HostFiles
  HostBuilders HostRoundTrip HostEdits RenameSafety JobModel SavedJobFiles ApplicationConfigs
  SettingsForms SettingsRenames SharedCells WorkspacePrograms LostUpdates SharedCells.Program

section Files

variable {Url Key : Type}

/-- The host of a name as the file has it saved. -/
def savedEntry (lib : UrlLibrary Url) (file : HostsFile) (name : String) :
    Option (KnownHost Url) :=
  ((parseHostsYml lib file).toOption.bind (·.find? name)).map asSaved

/-- The hosts of a file that is read, some of them as they were saved and some without
plaintext. -/
def HostsKept (lib : UrlLibrary Url) (untouched plain : String → Prop)
    (saved : String → Option (KnownHost Url)) (file : HostsFile) : Prop :=
  ∃ hosts, parseHostsYml lib file = .ok hosts ∧
    (∀ name, untouched name → (hosts.find? name).map asSaved = saved name) ∧
    ∀ name host, plain name → hosts.find? name = some host → host.credential.legacyAuth = none

/-- What each cell keeps to while requests are under way. -/
def Kept (server : Server Url Key) (untouched plain : String → Prop)
    (saved : String → Option (KnownHost Url)) : ∀ k, Content Url k → Prop
  | .hosts, file => HostsKept server.world.lib.toUrlLibrary untouched plain saved file
  | .jobs, file => ∃ read, readJobsFile server.env file = .ok read
  | .config, file => ∃ config, ApplicationConfig.load file = .ok config
  | .settings, file => ∃ settings, Settings.load file = .ok settings
  | .keystore, _ | .exporter, _ | .kibanaUrl, _ => True

/-- The files that requests load can be loaded. -/
structure Readable (server : Server Url Key) (cells : ∀ k, Content Url k) : Prop where
  hosts : ∃ hosts, parseHostsYml server.world.lib.toUrlLibrary (cells .hosts) = .ok hosts
  jobs : ∃ read, readJobsFile server.env (cells .jobs) = .ok read
  config : ∃ config, ApplicationConfig.load (cells .config) = .ok config
  settings : ∃ settings, Settings.load (cells .settings) = .ok settings

/-- No write of the request breaks off within a file or is lost with its flush. -/
structure WritesWhole (faults : Faults) : Prop where
  hosts : ∀ left, faults.hosts ≠ .interrupted left
  flushed : faults.hosts.Flushed
  settings : ∀ left, faults.settings ≠ .fails left

/-- The hosts of a file with a credential in plain text. -/
def plaintextHosts (lib : UrlLibrary Url) (file : HostsFile) : List String :=
  ((parseHostsYml lib file).toOption.map fun hosts =>
    (KeystoreMigration.pendingSecrets hosts).entries.map Prod.fst).getD []

/-- The names of hosts that a request may change, of those in a file. -/
def named (lib : UrlLibrary Url) (file : HostsFile) : Operation Url → List String
  | .upsertHost _ form => (hostScope form).named
  | .upsertCluster _ form =>
    (clusterRenames form.originalName (Texts.trim form.name)).map Prod.fst ++
      [Texts.trim form.name, kibanaName (Texts.trim form.name)]
  | .saveOutputDeployment input _ => [input.outputName, input.viewerName]
  | .saveOutputStage _ form _ => [form.outputName, form.viewerName]
  | .saveCollectHost input _ | .replaceCollectHost input _ => [input.name]
  | .saveKeystore .. | .bootstrapKeystore .. => plaintextHosts lib file
  | .updateSettings .. | .saveUser _ | .saveWorkflow _ | .deferCollection | .saveDefaultJob ..
  | .saveDefaultProcessingJob .. => []

end Files

section Hosts

variable {Url : Type}

theorem asSaved_asSaved (host : KnownHost Url) : asSaved (asSaved host) = asSaved host := by
  have hcredential : ∀ kept, host.credential.persisted.toOption.getD host.credential = kept →
      kept.persisted.toOption.getD kept = kept := by
    rintro _ rfl
    cases hpersisted : host.credential.persisted with
    | error error =>
      show (host.credential.persisted.toOption.getD host.credential) = host.credential
      rw [hpersisted]
      rfl
    | ok kept =>
      show (kept.persisted.toOption.getD kept) = kept
      rw [(Credential.fromHostsYml_of_persisted hpersisted).2.1]
      rfl
  unfold asSaved
  simp only [normalizeRoles_normalizeRoles, hcredential _ rfl]

variable {lib : UrlLibrary Url} {untouched plain : String → Prop}
  {saved : String → Option (KnownHost Url)}

/-- The entries that a request puts under its names can be written and read back. -/
structure Fitting (lib : UrlLibrary Url) (untouched : String → Prop) (removed : List String)
    (added : List (String × KnownHost Url)) : Prop where
  distinct : (added.map Prod.fst).Nodup
  canonical : ∀ e ∈ added, IsCanonical lib e.2
  apart : ∀ name, untouched name → name ∉ removed ∧ name ∉ added.map Prod.fst

/-- A change of hosts that can be written and read back, and that leaves what is not touched. -/
structure Within (lib : UrlLibrary Url) (untouched : String → Prop)
    (change : KeyedMap String (KnownHost Url) → KeyedMap String (KnownHost Url))
    (hosts : KeyedMap String (KnownHost Url)) : Prop where
  canonical : ∀ e ∈ (change hosts).entries, IsCanonical lib e.2
  kept : ∀ name, untouched name →
    ((change hosts).find? name).map asSaved = (hosts.find? name).map asSaved

theorem Fitting.within (hlib : lib.Lawful) {removed : List String}
    {added : List (String × KnownHost Url)} (hfitting : Fitting lib untouched removed added)
    {file : HostsFile} {hosts : KeyedMap String (KnownHost Url)}
    (hparse : parseHostsYml lib file = .ok hosts) :
    Within lib untouched (replaceEntries removed added) hosts where
  canonical := by
    rintro ⟨name, host⟩ hmem
    have hfind := KeyedMap.find?_eq_some_iff.mpr hmem
    rw [find?_replaceEntries hfitting.distinct, Option.or_eq_some_iff] at hfind
    rcases hfind with hadded | ⟨-, hfound⟩
    · exact hfitting.canonical _ (mem_of_findEntry hadded)
    · split at hfound
      · cases hfound
      · exact isCanonical_of_parsed hlib hparse hfound
  kept := by
    intro name hname
    obtain ⟨hremoved, hadded⟩ := hfitting.apart name hname
    rw [find?_replaceEntries_of_not_mem hfitting.distinct hosts hremoved hadded]

/-- A migration leaves the hosts without plaintext. -/
theorem within_migrateHosts (hlib : lib.Lawful) {file : HostsFile}
    {hosts : KeyedMap String (KnownHost Url)} (hparse : parseHostsYml lib file = .ok hosts)
    (huntouched : ∀ name, untouched name → plain name)
    (hplain : ∀ name host, plain name → hosts.find? name = some host →
      host.credential.legacyAuth = none) : Within lib untouched migrateHosts hosts where
  canonical := by
    rintro ⟨name, host⟩ hmem
    have hfind := KeyedMap.find?_eq_some_iff.mpr hmem
    rw [migrateHosts, KeyedMap.find?_mapValues, Option.map_eq_some_iff] at hfind
    obtain ⟨before, hbefore, rfl⟩ := hfind
    obtain ⟨credential, hmigrated⟩ := KeystoreMigration.migrateHost_eq name before
    rw [hmigrated]
    exact (isCanonical_of_parsed hlib hparse hbefore).congr rfl rfl rfl
  kept := by
    intro name hname
    rw [migrateHosts, KeyedMap.find?_mapValues]
    cases hfound : hosts.find? name with
    | none => rfl
    | some host =>
      have hauth := hplain name host (huntouched name hname) hfound
      rw [Option.map_some, KeystoreMigration.migrateHost, hauth]

/-- A file that is read, its hosts changed and written, is read back with these hosts. -/
theorem hostsKept_rewriteHosts
    {change : KeyedMap String (KnownHost Url) → KeyedMap String (KnownHost Url)}
    {file current : HostsFile} {hosts written : KeyedMap String (KnownHost Url)}
    (hwithin : Within lib untouched change hosts) (hlib : lib.Lawful)
    (hparse : parseHostsYml lib file = .ok hosts)
    (hwritten : normalizeHosts lib current (change hosts) = .ok written)
    (hkept : HostsKept lib untouched plain saved file) :
    HostsKept lib untouched plain saved (rewriteHosts lib change file) := by
  obtain ⟨read, hread, huntouched, -⟩ := hkept
  obtain rfl := Except.ok.inj (hparse.symm.trans hread)
  have htraverse := (normalizeHosts_eq_ok hwritten).1
  have hrewritten : rewriteHosts lib change file = hostsDocument lib written := by
    unfold rewriteHosts
    rw [hparse]
    dsimp only
    rw [KeyedMap.traverse_eq_ok_iff.mpr htraverse]
  refine ⟨written, ?_, fun name hname => ?_, fun name host _ hfound => ?_⟩
  · rw [hrewritten]
    exact parseHostsYml_normalized hlib hwritten hwithin.canonical
  · rw [find?_normalizeHosts hwritten, ← huntouched name hname, ← hwithin.kept name hname,
      Option.map_map]
    exact congrArg (Option.map · _) (funext asSaved_asSaved)
  · obtain ⟨before, -, hbefore⟩ :=
      mem_of_mem_traverseEntries htraverse (KeyedMap.find?_eq_some_iff.mp hfound)
    obtain ⟨credential, hcredential, rfl, -, -⟩ := normalizeForWrite_eq_ok hbefore
    exact (Credential.fromHostsYml_of_persisted hcredential).2.2.2

theorem isCanonical_withRole {host : KnownHost Url} (h : IsCanonical lib host) (role : HostRole) :
    IsCanonical lib (withRole role host) := by
  unfold withRole
  split
  · exact h
  · exact h.congr rfl rfl rfl

end Hosts

section Steps

variable {Url Key : Type} {server : Server Url Key} {faults : Faults}
  {untouched plain : String → Prop} {saved : String → Option (KnownHost Url)}

theorem safe_of_readsOnly {α : Type} {p : Request Url α} (hp : ReadsOnly p) :
    p.Safe (Kept server untouched plain saved) := hp.safe fun _ h => h.elim

/-- Of the keystore and of what is in memory nothing is asked. -/
theorem safe_of_keystore {α : Type} {p : Request Url α} (hp : p.StoresIn (· = .keystore)) :
    p.Safe (Kept server untouched plain saved) := hp.safe fun _ h _ => h ▸ trivial

theorem safe_of_inMemory {α : Type} {p : Request Url α} (hp : p.StoresIn InMemory) :
    p.Safe (Kept server untouched plain saved) := by
  refine hp.safe fun k h content => ?_
  rcases h with rfl | rfl <;> trivial

theorem safe_whenever {condition : Bool} {request : Request Url Unit}
    (h : request.Safe (Kept server untouched plain saved)) :
    (whenever condition request).Safe (Kept server untouched plain saved) := by
  unfold whenever
  split
  · exact h
  · exact .ok _ ()

theorem safe_ignoreResult {α : Type} {request : Request Url α}
    (h : request.Safe (Kept server untouched plain saved)) :
    (ignoreResult request).Safe (Kept server untouched plain saved) :=
  Safe.bind h fun _ => .ok _ ()

theorem safe_lift {ε α : Type} (wrap : ε → RequestError) (result : Except ε α) :
    (lift wrap result : Request Url α).Safe (Kept server untouched plain saved) :=
  safe_of_readsOnly (readsOnly_lift wrap result)

theorem safe_store {k : Cell} {change : Content Url k → Content Url k}
    (h : ∀ content, Kept server untouched plain saved k content →
      Kept server untouched plain saved k (change content)) :
    (store k change : Request Url Unit).Safe (Kept server untouched plain saved) :=
  ⟨fun copies => .store (h (copies k)) (.ok trivial)⟩

/-- A configuration of the current version is written as one. -/
theorem safe_saveConfig {ioFails : Bool} {config : ApplicationConfig}
    {change : ApplicationConfig → ApplicationConfig}
    (hversion : ∀ config, (change config).version = config.version) :
    (saveConfig ioFails config change : Request Url _).Safe (Kept server untouched plain saved) := by
  refine Safe.bind (safe_lift _ _) fun _ => ?_
  split
  · exact .error _ _
  · refine Safe.bind (safe_store ?_) fun _ => .ok _ _
    rintro content ⟨loaded, hloaded⟩
    have hvalid := ApplicationConfig.validateVersion_of_load hloaded
    have hchanged : (change loaded).validateVersion = .ok () := by
      unfold ApplicationConfig.validateVersion at hvalid ⊢
      rwa [hversion]
    refine ⟨change loaded, ?_⟩
    unfold rewriteConfig
    rw [hloaded]
    unfold ApplicationConfig.load
    dsimp only
    rw [hchanged]

theorem safe_loadConfig : (loadConfig : Request Url _).Safe (Kept server untouched plain saved) :=
  safe_of_readsOnly readsOnly_loadConfig

theorem safe_clearCollectionDeferral {ioFails : Bool} :
    (clearCollectionDeferral ioFails : Request Url _).Safe (Kept server untouched plain saved) :=
  Safe.bind safe_loadConfig fun _ =>
    safe_whenever (safe_ignoreResult (safe_saveConfig fun _ => rfl))

/-- What is stored of jobs was written as a document of jobs. -/
theorem safe_storeJobs {jobs : SavedJobs} {written : JobsFile}
    (h : writeSavedJobsDocument server.env jobs = .ok written) :
    (store .jobs fun _ => written : Request Url Unit).Safe (Kept server untouched plain saved) := by
  obtain ⟨read, hread, -⟩ := LegacyMigration.exists_readJobsFile_write server.env h
  exact safe_store fun _ _ => ⟨_, hread⟩

theorem safe_loadSavedJobs :
    (loadSavedJobs server.env : Request Url _).Safe (Kept server untouched plain saved) := by
  refine Safe.bind (safe_of_readsOnly (readsOnly_load .jobs)) fun file => ?_
  split
  · exact .error _ _
  · exact .ok _ _
  · next jobs _ =>
    cases hwritten : writeSavedJobsDocument server.env jobs with
    | error error => exact .error _ _
    | ok written =>
      have hstored : (do
          store .jobs fun _ => written
          pure jobs : Request Url _).Safe (Kept server untouched plain saved) :=
        Safe.bind (safe_storeJobs hwritten) fun _ => .ok _ jobs
      exact hstored

theorem safe_saveSavedJobs {ioFails : Bool} {jobs : SavedJobs} :
    (saveSavedJobs server.env ioFails jobs : Request Url _).Safe
      (Kept server untouched plain saved) := by
  unfold saveSavedJobs
  cases hwritten : writeSavedJobsDocument server.env jobs with
  | error error => exact .error _ _
  | ok written =>
    cases ioFails with
    | true => exact .error _ _
    | false => exact safe_storeJobs hwritten

theorem safe_saveSettings (hwhole : WritesWhole faults) {settings : Settings} :
    (saveSettings faults.settings settings : Request Url _).Safe
      (Kept server untouched plain saved) := by
  unfold saveSettings
  split
  · exact safe_store fun _ _ => ⟨settings, rfl⟩
  · next left hleft => exact absurd hleft (hwhole.settings left)

theorem keeps_lift {ε α : Type} (wrap : ε → RequestError) (result : Except ε α)
    (copies : ∀ k, Content Url k) :
    (lift wrap result : Request Url α).Keeps (Kept server untouched plain saved)
      (fun a left => result = .ok a ∧ left = copies) copies := by
  cases result with
  | error error => exact .error _ _
  | ok a => exact .ok ⟨rfl, rfl⟩

theorem keeps_peek (k : Cell) (copies : ∀ k, Content Url k) :
    (peek k : Request Url _).Keeps (Kept server untouched plain saved)
      (fun _ left => left = copies) copies := .peek fun _ _ => .ok rfl

theorem keeps_loadHosts (copies : ∀ k, Content Url k) :
    (loadHosts server.world.lib.toUrlLibrary).Keeps (Kept server untouched plain saved)
      (fun hosts copies =>
        parseHostsYml server.world.lib.toUrlLibrary (copies .hosts) = .ok hosts) copies := by
  refine .load fun content _ => ?_
  refine (keeps_lift _ (parseHostsYml server.world.lib.toUrlLibrary content) _).mono ?_
  rintro hosts left ⟨hparse, rfl⟩
  rw [Function.update_self, hparse]

/-- Hosts that were loaded are written so that they can be loaded. -/
theorem keeps_writeHosts (hlib : server.world.lib.toUrlLibrary.Lawful) (hwhole : WritesWhole faults)
    {change : KeyedMap String (KnownHost Url) → KeyedMap String (KnownHost Url)}
    {hosts : KeyedMap String (KnownHost Url)} {copies : ∀ k, Content Url k}
    (hwithin : HostsKept server.world.lib.toUrlLibrary untouched plain saved (copies .hosts) →
      Within server.world.lib.toUrlLibrary untouched change hosts)
    (hparse : parseHostsYml server.world.lib.toUrlLibrary (copies .hosts) = .ok hosts) :
    (writeHosts server.world.lib.toUrlLibrary faults.hosts hosts change).Keeps
      (Kept server untouched plain saved) (fun _ _ => True) copies := by
  refine (keeps_peek .hosts copies).bind ?_
  rintro current left rfl
  split
  · exact .error _ _
  · next hwritten _ =>
    refine .store (fun hkept => ?_) (.ok trivial)
    exact hostsKept_rewriteHosts (hwithin hkept) hlib hparse hwritten hkept
  · exact .error _ _
  · next hleft => exact absurd hleft (hwhole.hosts _)
  · next hleft => exact absurd hleft (hwhole.flushed _)

/-- Entries that fit are written among the hosts that were loaded. -/
theorem keeps_replaceEntries (hlib : server.world.lib.toUrlLibrary.Lawful)
    (hwhole : WritesWhole faults) {removed : List String} {added : List (String × KnownHost Url)}
    (hfitting : Fitting server.world.lib.toUrlLibrary untouched removed added)
    {hosts : KeyedMap String (KnownHost Url)} {copies : ∀ k, Content Url k}
    (hparse : parseHostsYml server.world.lib.toUrlLibrary (copies .hosts) = .ok hosts) :
    (writeHosts server.world.lib.toUrlLibrary faults.hosts hosts
      (replaceEntries removed added)).Keeps (Kept server untouched plain saved)
        (fun _ _ => True) copies :=
  keeps_writeHosts hlib hwhole (fun _ => hfitting.within hlib hparse) hparse

end Steps

section Requests

variable {Url Key : Type} {server : Server Url Key} {faults : Faults}
  {untouched plain : String → Prop} {saved : String → Option (KnownHost Url)}

theorem safe_upsertHosts (hlib : server.world.lib.toUrlLibrary.Lawful)
    (hwhole : WritesWhole faults) {checked : SealedFile → Except UpsertError (HostChange Url)}
    (hchecked : ∀ keystore change, checked keystore = .ok change →
      Fitting server.world.lib.toUrlLibrary untouched (change.renamed.map Prod.fst) change.added) :
    (upsertHosts server faults checked).Safe (Kept server untouched plain saved) := by
  refine Safe.bind (safe_of_readsOnly (readsOnly_peek .keystore)) fun keystore => ?_
  refine ⟨fun copies => ?_⟩
  refine (keeps_lift _ _ copies).bind fun change copies hchange => ?_
  have hfitting := hchecked keystore change hchange.1
  refine (keeps_loadHosts copies).bind fun hosts loaded hparse => ?_
  refine (keeps_peek .settings loaded).bind ?_
  rintro settingsFile _ rfl
  refine (keeps_lift _ _ _).bind ?_
  rintro settings _ ⟨-, rfl⟩
  refine (keeps_replaceEntries hlib hwhole hfitting hparse).bind fun _ copies _ => ?_
  refine (Safe.bind ?_ fun _ => ?_ : Safe _ _).keeps copies
  · exact safe_whenever safe_clearCollectionDeferral
  · exact safe_whenever (safe_saveSettings hwhole)

/-- A change that fits what its form names fits what nobody else names. -/
theorem fitting_of_fits {scope : HostScope} {change : HostChange Url}
    (hfits : FitsScope scope change) (huntouched : ∀ name, untouched name → name ∉ scope.named)
    (hcanonical : ∀ e ∈ change.added, IsCanonical server.world.lib.toUrlLibrary e.2) :
    Fitting server.world.lib.toUrlLibrary untouched (change.renamed.map Prod.fst)
      change.added where
  distinct := hfits.distinct
  canonical := hcanonical
  apart name hname := by
    have hapart := huntouched name hname
    rw [HostScope.named, hfits.renamed, hfits.added, List.mem_append, not_or] at hapart
    exact hapart

theorem fitting_checkedHost (hlib : server.world.lib.toUrlLibrary.Lawful)
    {session : KeystoreSession} {form : HostUpsertForm}
    (huntouched : ∀ name, untouched name → name ∉ (hostScope form).named) (keystore : SealedFile)
    (change : HostChange Url)
    (h : checkedHost server.world.lib.toQueryLibrary server.libs session form keystore =
      .ok change) :
    Fitting server.world.lib.toUrlLibrary untouched (change.renamed.map Prod.fst) change.added := by
  unfold checkedHost at h
  cases hform : checkHostForm server.world.lib.toQueryLibrary server.libs session keystore form with
  | error error => simp [hform, Except.map] at h
  | ok checked =>
    obtain ⟨hname, parts, hparts⟩ := checkHostForm_eq_ok hform
    rw [hform] at h
    obtain rfl : hostChange form checked.1 checked.2 = change := Except.ok.inj h
    rw [hname]
    refine fitting_of_fits (fitsScope_host form checked.2) huntouched fun e he => ?_
    obtain rfl := List.mem_singleton.mp he
    exact isCanonical_of_fromParts hlib hparts

theorem fitting_checkedCluster (hlib : server.world.lib.toUrlLibrary.Lawful)
    {session : KeystoreSession} {form : ClusterUpsertForm}
    (huntouched : ∀ name, untouched name →
      name ∉ (clusterScope form (.empty : KeyedMap String (KnownHost Url))).named)
    (keystore : SealedFile) (change : HostChange Url)
    (h : checkedCluster server.world.lib.toQueryLibrary server.libs session form keystore =
      .ok change) :
    Fitting server.world.lib.toUrlLibrary untouched (change.renamed.map Prod.fst) change.added := by
  unfold checkedCluster at h
  cases hform : checkClusterForm server.world.lib.toQueryLibrary server.libs session keystore
      form with
  | error error => simp [hform, Except.map] at h
  | ok checked =>
    obtain ⟨hname, ⟨parts, hparts⟩, parts', hparts'⟩ := checkClusterForm_eq_ok hform
    rw [hform] at h
    obtain rfl : clusterChange form checked.1 checked.2.1 checked.2.2 = change :=
      Except.ok.inj h
    rw [hname]
    refine fitting_of_fits (fitsScope_cluster form checked.2.1 checked.2.2 .empty) huntouched
      fun e he => ?_
    rcases List.mem_cons.mp he with rfl | he
    · exact isCanonical_of_fromParts hlib hparts
    · obtain rfl := List.mem_singleton.mp he
      exact isCanonical_of_fromParts hlib hparts'

theorem isCanonical_of_buildWithSecretAuth (hlib : server.world.lib.toUrlLibrary.Lawful)
    {builder : KnownHostBuilder Url} {host : KnownHost Url}
    (h : builder.buildWithSecretAuth server.world.lib.toQueryLibrary = .ok host) :
    IsCanonical server.world.lib.toUrlLibrary host := by
  obtain ⟨parts, hparts⟩ := KnownHostBuilder.build_eq_ok
    (KnownHostBuilder.build_of_buildWithSecretAuth h)
  exact isCanonical_of_fromParts hlib hparts

theorem isCanonical_of_collectHost (hlib : server.world.lib.toUrlLibrary.Lawful)
    {input : CollectHostInput Url} {host : KnownHost Url}
    (h : collectHost server input = .ok host) :
    IsCanonical server.world.lib.toUrlLibrary host := by
  unfold collectHost at h
  dsimp only at h
  split at h
  · exact isCanonical_of_buildWithSecretAuth hlib h
  · obtain ⟨parts, hparts⟩ := KnownHostBuilder.build_eq_ok h
    exact isCanonical_of_fromParts hlib hparts

theorem safe_upsertSecret {attempt : WriteAttempt} {secretId : String} {auth : SecretAuth}
    {password : String} :
    (upsertSecret server.libs attempt secretId auth password : Request Url _).Safe
      (Kept server untouched plain saved) :=
  safe_of_keystore (storesIn_upsertSecret _ _ _ _ _)

theorem safe_validateName {name kind : String} :
    (validateName name kind : Request Url Unit).Safe (Kept server untouched plain saved) :=
  safe_of_readsOnly (readsOnly_validateName name kind)

theorem safe_saveOutputDeployment (hlib : server.world.lib.toUrlLibrary.Lawful)
    (hwhole : WritesWhole faults) {input : OutputDeploymentInput Url} {keystorePassword : String}
    (huntouched : ∀ name, untouched name → name ∉ [input.outputName, input.viewerName]) :
    (saveOutputDeployment server faults input keystorePassword).Safe
      (Kept server untouched plain saved) := by
  refine Safe.bind safe_validateName fun _ => ?_
  refine Safe.bind safe_validateName fun _ => ?_
  refine Safe.bind safe_validateName fun _ => ?_
  split
  · exact .error _ _
  · next hdiffer =>
    refine Safe.bind safe_upsertSecret fun _ => ⟨fun copies => ?_⟩
    refine (keeps_lift _ _ copies).bind fun output copies houtput => ?_
    refine (keeps_lift _ _ copies).bind fun viewer copies hviewer => ?_
    refine (keeps_loadHosts copies).bind fun hosts copies hparse => ?_
    have hfitting : Fitting server.world.lib.toUrlLibrary untouched []
        [(input.outputName, output), (input.viewerName, viewer)] := by
      refine ⟨by simpa using hdiffer, ?_, fun name hname => ?_⟩
      · intro e he
        rcases List.mem_cons.mp he with rfl | he
        · exact isCanonical_of_buildWithSecretAuth hlib houtput.1
        · obtain rfl := List.mem_singleton.mp he
          exact isCanonical_of_buildWithSecretAuth hlib hviewer.1
      · exact ⟨List.not_mem_nil, huntouched name hname⟩
    refine (keeps_replaceEntries hlib hwhole hfitting hparse).bind fun _ copies _ => ?_
    have hselected : (do
        let config ← loadConfig
        saveConfig faults.configFails config (selectSavedHost input.outputName) :
          Request Url _).Safe (Kept server untouched plain saved) :=
      Safe.bind safe_loadConfig fun _ => safe_saveConfig fun _ => rfl
    exact hselected.keeps copies

theorem safe_saveCollectSecret {input : CollectHostInput Url} {keystorePassword : Option String} :
    (saveCollectSecret server faults input keystorePassword).Safe
      (Kept server untouched plain saved) :=
  safe_of_keystore (storesIn_saveCollectSecret input keystorePassword)

theorem keeps_load (k : Cell) (copies : ∀ k, Content Url k) :
    (load k : Request Url _).Keeps (Kept server untouched plain saved)
      (fun content left => left = Function.update copies k content) copies :=
  .load fun _ _ => .ok rfl

theorem keeps_upsertSecret {attempt : WriteAttempt} {secretId : String} {auth : SecretAuth}
    {password : String} (copies : ∀ k, Content Url k) :
    (upsertSecret server.libs attempt secretId auth password : Request Url _).Keeps
      (Kept server untouched plain saved) (fun _ left => left Cell.hosts = copies Cell.hosts)
      copies := by
  refine (keeps_load .keystore copies).bind ?_
  rintro content _ rfl
  split
  · exact .error _ _
  · exact .store (fun _ => trivial) (.ok (Function.update_of_ne (by decide) _ _))

/-- The secret of a host to collect from is stored between the load of the hosts and their
write; the hosts that were loaded stay as they are. -/
theorem keeps_saveCollectSecret {input : CollectHostInput Url} {keystorePassword : Option String}
    (copies : ∀ k, Content Url k) :
    (saveCollectSecret server faults input keystorePassword).Keeps
      (Kept server untouched plain saved) (fun _ left => left Cell.hosts = copies Cell.hosts) copies := by
  unfold saveCollectSecret
  split
  · exact keeps_upsertSecret copies
  · exact .ok rfl
  · exact .ok rfl
  · exact .error _ _

theorem fitting_single {name : String} {host : KnownHost Url}
    (huntouched : ∀ other, untouched other → other ∉ [name])
    (hcanonical : IsCanonical server.world.lib.toUrlLibrary host) :
    Fitting server.world.lib.toUrlLibrary untouched [] [(name, host)] where
  distinct := List.nodup_singleton _
  canonical e he := by
    obtain rfl := List.mem_singleton.mp he
    exact hcanonical
  apart other hother := ⟨List.not_mem_nil, huntouched other hother⟩

theorem safe_saveCollectHost (hlib : server.world.lib.toUrlLibrary.Lawful)
    (hwhole : WritesWhole faults) {input : CollectHostInput Url} {keystorePassword : Option String}
    (huntouched : ∀ name, untouched name → name ∉ [input.name]) :
    (saveCollectHost server faults input keystorePassword).Safe
      (Kept server untouched plain saved) := by
  refine Safe.bind safe_validateName fun _ => ⟨fun copies => ?_⟩
  refine (keeps_loadHosts copies).bind fun hosts copies hparse => ?_
  split
  · next existing hexisting =>
    have hcanonical := isCanonical_withRole (isCanonical_of_parsed hlib hparse hexisting) .collect
    refine (keeps_replaceEntries hlib hwhole (fitting_single huntouched hcanonical) hparse).bind ?_
    exact fun _ copies _ => safe_clearCollectionDeferral.keeps copies
  · refine (keeps_saveCollectSecret copies).bind fun _ stored hstored => ?_
    rw [← hstored] at hparse
    refine (keeps_lift _ _ stored).bind ?_
    rintro host _ ⟨hhost, rfl⟩
    have hcanonical := isCanonical_of_collectHost hlib hhost
    refine (keeps_replaceEntries hlib hwhole (fitting_single huntouched hcanonical) hparse).bind ?_
    exact fun _ copies _ => safe_clearCollectionDeferral.keeps copies

theorem safe_replaceCollectHost (hlib : server.world.lib.toUrlLibrary.Lawful)
    (hwhole : WritesWhole faults) {input : CollectHostInput Url} {keystorePassword : Option String}
    (huntouched : ∀ name, untouched name → name ∉ [input.name]) :
    (replaceCollectHost server faults input keystorePassword).Safe
      (Kept server untouched plain saved) := by
  refine Safe.bind safe_validateName fun _ => Safe.bind safe_saveCollectSecret fun _ => ?_
  refine ⟨fun copies => (keeps_lift _ _ copies).bind fun host copies hhost => ?_⟩
  have hcanonical := isCanonical_of_collectHost hlib hhost.1
  refine (keeps_loadHosts copies).bind fun hosts copies hparse => ?_
  refine (keeps_replaceEntries hlib hwhole (fitting_single huntouched hcanonical) hparse).bind ?_
  exact fun _ copies _ => safe_clearCollectionDeferral.keeps copies

theorem safe_validateReferences {config : ApplicationConfig} :
    (validateReferences server config).Safe (Kept server untouched plain saved) := by
  refine Safe.bind (safe_lift _ _) fun _ => ?_
  refine Safe.bind (safe_of_readsOnly (readsOnly_peek .hosts)) fun file => ?_
  refine Safe.bind (safe_lift _ _) fun hosts => Safe.bind (safe_lift _ _) fun _ => ?_
  split
  · exact .ok _ ()
  · refine Safe.bind safe_loadSavedJobs fun jobs => ?_
    split
    · exact .error _ _
    · exact .ok _ ()

theorem safe_saveDefaultJob {name : String} {job : Job} :
    (saveDefaultJob server faults name job).Safe (Kept server untouched plain saved) := by
  refine Safe.bind safe_validateName fun _ => Safe.bind safe_loadSavedJobs fun jobs => ?_
  refine Safe.bind safe_saveSavedJobs fun _ => Safe.bind safe_loadConfig fun config => ?_
  exact Safe.bind safe_validateReferences fun _ => safe_saveConfig fun _ => rfl

theorem safe_saveDefaultProcessingJob {name collectHost : String} :
    (saveDefaultProcessingJob server faults name collectHost).Safe
      (Kept server untouched plain saved) := by
  refine Safe.bind safe_validateName fun _ => ?_
  refine Safe.bind (safe_of_readsOnly (readsOnly_getKnown _)) fun found => ?_
  split
  · exact .error _ _
  · split
    · exact .error _ _
    · refine Safe.bind (safe_of_readsOnly (readsOnly_peek .config)) fun file => ?_
      refine Safe.bind (safe_lift _ _) fun config => ?_
      split
      · exact .error _ _
      · refine Safe.bind (safe_of_readsOnly readsOnly_readSystem) fun system => ?_
        exact Safe.bind (safe_lift _ _) fun job => safe_saveDefaultJob

theorem safe_inspect : (inspect server).Safe (Kept server untouched plain saved) := by
  refine Safe.bind (safe_of_readsOnly (readsOnly_peek .config)) fun configFile => ?_
  refine Safe.bind (safe_lift _ _) fun config => ?_
  refine Safe.bind (safe_of_readsOnly (readsOnly_peek .hosts)) fun hostsFile => ?_
  refine Safe.bind (safe_lift _ _) fun hosts => Safe.bind safe_loadSavedJobs fun jobs => ?_
  exact Safe.bind (safe_of_readsOnly readsOnly_readSystem) fun _ => .ok _ _

theorem safe_deferCollection :
    (WorkspacePrograms.deferCollection server faults).Safe (Kept server untouched plain saved) := by
  refine Safe.bind safe_inspect fun readiness => ?_
  split
  · exact .error _ _
  · exact Safe.bind safe_loadConfig fun config => safe_saveConfig fun _ => rfl

theorem safe_updateSettings {password : Option String} {form : UpdateSettingsForm} :
    (WorkspacePrograms.updateSettings server faults password form).Safe
      (Kept server untouched plain saved) := by
  unfold WorkspacePrograms.updateSettings
  split
  · exact safe_of_inMemory ((storesIn_setKibanaUrl _).mono fun _ => Or.inr)
  · refine Safe.bind safe_loadConfig fun config => ?_
    refine Safe.bind (safe_of_readsOnly (readsOnly_peek .exporter)) fun current => ?_
    unfold takeTarget
    split
    · exact .error _ _
    · split
      · refine Safe.bind (safe_of_readsOnly (readsOnly_checkTarget _)) fun _ => ?_
        refine Safe.bind (safe_of_readsOnly (readsOnly_targetExporter _ _ _)) fun exporter => ?_
        refine Safe.bind (safe_saveConfig fun _ => rfl) fun _ => ?_
        exact safe_of_inMemory (storesIn_serveTarget _ exporter)
      · refine Safe.bind (safe_saveConfig fun _ => rfl) fun _ => ?_
        exact safe_of_inMemory ((storesIn_store .exporter _).mono fun _ => Or.inl)

theorem safe_saveOutputStage (hlib : server.world.lib.toUrlLibrary.Lawful)
    (hwhole : WritesWhole faults) {now : String} {form : OutputForm} {keystorePassword : String}
    (huntouched : ∀ name, untouched name → name ∉ [form.outputName, form.viewerName]) :
    (WorkspacePrograms.saveOutputStage server faults now form keystorePassword).Safe
      (Kept server untouched plain saved) := by
  refine Safe.bind (safe_lift _ _) fun outputUrl => Safe.bind (safe_lift _ _) fun viewerUrl => ?_
  split
  · exact .error _ _
  · refine Safe.bind (safe_of_readsOnly (readsOnly_outputNameTaken _ _)) fun taken => ?_
    split
    · exact .error _ _
    · refine Safe.bind (safe_lift _ _) fun _ => ?_
      refine Safe.bind (safe_saveOutputDeployment hlib hwhole huntouched) fun _ => ?_
      refine Safe.bind safe_loadConfig fun config => ?_
      refine Safe.bind (safe_saveConfig fun _ => rfl) fun _ => ?_
      exact safe_of_inMemory (storesIn_serveOutput _ _)

theorem keeps_upsertSecretBatch {attempt : WriteAttempt} {entries : List (String × SecretAuth)}
    {password : String} (copies : ∀ k, Content Url k) :
    (upsertSecretBatch server.libs attempt entries password : Request Url _).Keeps
      (Kept server untouched plain saved) (fun _ left => left Cell.hosts = copies Cell.hosts)
        copies := by
  refine (keeps_load .keystore copies).bind ?_
  rintro content _ rfl
  split
  · exact .error _ _
  · exact .store (fun _ => trivial) (.ok (Function.update_of_ne (by decide) _ _))

/-- The keystore is stored between the load of the hosts and their write. -/
theorem keeps_storePending {condition : Bool} {pending : List (String × SecretAuth)}
    {password : String} (copies : ∀ k, Content Url k) :
    (whenever condition (storePending server faults pending password)).Keeps
      (Kept server untouched plain saved) (fun _ left => left Cell.hosts = copies Cell.hosts)
        copies := by
  unfold whenever storePending
  split
  · split
    · exact .error _ _
    · exact keeps_upsertSecretBatch copies
  · exact .ok rfl

theorem safe_migrateHostsToKeystore (hlib : server.world.lib.toUrlLibrary.Lawful)
    (hwhole : WritesWhole faults) {password : String}
    (huntouched : ∀ name, untouched name → plain name) :
    (migrateHostsToKeystore server faults password).Safe (Kept server untouched plain saved) := by
  refine ⟨fun copies => (keeps_loadHosts copies).bind fun hosts loaded hparse => ?_⟩
  refine (keeps_storePending loaded).bind fun _ stored hstored => ?_
  rw [← hstored] at hparse
  refine keeps_writeHosts hlib hwhole ?_ hparse
  rintro ⟨read, hread, -, hplain⟩
  obtain rfl := Except.ok.inj (hparse.symm.trans hread)
  exact within_migrateHosts hlib hparse huntouched hplain

theorem safe_openKeystore (hlib : server.world.lib.toUrlLibrary.Lawful)
    (hwhole : WritesWhole faults) {migrates : Bool} {password : String} {held : Option String}
    (huntouched : ∀ name, untouched name → plain name) :
    (openKeystore server faults migrates password held).Safe
      (Kept server untouched plain saved) := by
  refine Safe.bind (safe_of_keystore (storesIn_authenticate _ _ _)) fun _ => ?_
  refine Safe.bind (safe_whenever (safe_migrateHostsToKeystore hlib hwhole huntouched)) fun _ => ?_
  exact safe_of_inMemory (storesIn_reloadConfiguredOutput held)

theorem safe_saveKeystore (hlib : server.world.lib.toUrlLibrary.Lawful)
    (hwhole : WritesWhole faults) {form : KeystoreForm} {held : Option String}
    (huntouched : ∀ name, untouched name → plain name) :
    (WorkspacePrograms.saveKeystore server faults form held).Safe
      (Kept server untouched plain saved) := by
  refine Safe.bind (safe_of_readsOnly (readsOnly_peek .keystore)) fun keystore => ?_
  refine Safe.bind (safe_of_readsOnly (readsOnly_migrationAsked _)) fun migrates => ?_
  split
  · exact .error _ _
  · exact safe_openKeystore hlib hwhole huntouched

theorem safe_bootstrapKeystore (hlib : server.world.lib.toUrlLibrary.Lawful)
    (hwhole : WritesWhole faults) {form : KeystoreForm} {held : Option String}
    (huntouched : ∀ name, untouched name → plain name) :
    (WorkspacePrograms.bootstrapKeystore server faults form held).Safe
      (Kept server untouched plain saved) := by
  refine Safe.bind (safe_of_readsOnly (readsOnly_peek .keystore)) fun keystore => ?_
  split
  · exact .ok _ ()
  · split
    · exact .error _ _
    · split
      · exact .error _ _
      · refine Safe.bind (safe_of_readsOnly readsOnly_migrationNeeded) fun migrates => ?_
        exact safe_openKeystore hlib hwhole huntouched

theorem safe_request (hlib : server.world.lib.toUrlLibrary.Lawful) (hwhole : WritesWhole faults)
    {file : HostsFile} {operation : Operation Url}
    (huntouched : ∀ name, untouched name →
      name ∉ named server.world.lib.toUrlLibrary file operation)
    (hplain : ∀ name, name ∉ plaintextHosts server.world.lib.toUrlLibrary file → plain name) :
    (operation.request server faults).Safe (Kept server untouched plain saved) := by
  cases operation with
  | upsertHost session form =>
    exact safe_upsertHosts hlib hwhole (fitting_checkedHost hlib huntouched)
  | upsertCluster session form =>
    exact safe_upsertHosts hlib hwhole (fitting_checkedCluster hlib huntouched)
  | updateSettings password form => exact safe_updateSettings
  | saveUser user =>
    refine safe_ignoreResult ?_
    unfold WorkspacePrograms.saveUser
    split
    · exact .error _ _
    · exact Safe.bind safe_loadConfig fun _ => safe_saveConfig fun _ => rfl
  | saveWorkflow workflow =>
    exact safe_ignoreResult (Safe.bind safe_loadConfig fun _ => safe_saveConfig fun _ => rfl)
  | deferCollection => exact safe_ignoreResult safe_deferCollection
  | saveOutputDeployment input keystorePassword =>
    exact safe_ignoreResult (safe_saveOutputDeployment hlib hwhole huntouched)
  | saveCollectHost input keystorePassword => exact safe_saveCollectHost hlib hwhole huntouched
  | replaceCollectHost input keystorePassword =>
    exact safe_replaceCollectHost hlib hwhole huntouched
  | saveDefaultJob name job => exact safe_ignoreResult safe_saveDefaultJob
  | saveDefaultProcessingJob name collectHost =>
    exact safe_ignoreResult safe_saveDefaultProcessingJob
  | saveOutputStage now form keystorePassword => exact safe_saveOutputStage hlib hwhole huntouched
  | saveKeystore form held =>
    exact safe_saveKeystore hlib hwhole fun name hname => hplain name (huntouched name hname)
  | bootstrapKeystore form held =>
    exact safe_bootstrapKeystore hlib hwhole fun name hname => hplain name (huntouched name hname)

end Requests

section Runs

variable {Url Key ι : Type} [DecidableEq ι] {server : Server Url Key}

omit [DecidableEq ι] in
theorem savedEntry_of_parsed {lib : UrlLibrary Url} {file : HostsFile}
    {hosts : KeyedMap String (KnownHost Url)} (h : parseHostsYml lib file = .ok hosts)
    (name : String) : savedEntry lib file name = (hosts.find? name).map asSaved := by
  rw [savedEntry, h]
  rfl

omit [DecidableEq ι] in
theorem legacyAuth_of_not_mem_plaintextHosts {lib : UrlLibrary Url} {file : HostsFile}
    {hosts : KeyedMap String (KnownHost Url)} (hparse : parseHostsYml lib file = .ok hosts)
    {name : String} {host : KnownHost Url} (hname : name ∉ plaintextHosts lib file)
    (hfound : hosts.find? name = some host) : host.credential.legacyAuth = none := by
  cases hauth : host.credential.legacyAuth with
  | none => rfl
  | some auth =>
    have hpending : (KeystoreMigration.pendingSecrets hosts).find? name = some auth := by
      rw [KeystoreMigration.pendingSecrets, KeyedMap.find?_filterMap, hfound, Option.bind_some,
        hauth]
    rw [plaintextHosts, hparse] at hname
    exact absurd (KeyedMap.mem_keys_of_find? hpending) hname

/-- Files that can be loaded can be loaded after any of the steps, and an entry that no request
names is saved as before. -/
theorem requests_keep_files (hlib : server.world.lib.toUrlLibrary.Lawful)
    (requests : ι → Faults × Operation Url) (hwhole : ∀ i, WritesWhole (requests i).1)
    (cells : ∀ k, Content Url k) (hcells : Readable server cells) (schedule : List ι) :
    Readable server ((begin server requests cells).run schedule).cells ∧
      ∀ name, (∀ i, name ∉ named server.world.lib.toUrlLibrary (cells .hosts) (requests i).2) →
        savedEntry server.world.lib.toUrlLibrary
            (((begin server requests cells).run schedule).cells .hosts) name =
          savedEntry server.world.lib.toUrlLibrary (cells .hosts) name := by
  obtain ⟨⟨hosts, hparse⟩, hjobs, hconfig, hsettings⟩ := hcells
  have hstart : ∀ k, Kept server
      (fun name => ∀ i, name ∉ named server.world.lib.toUrlLibrary (cells .hosts) (requests i).2)
      (fun name => name ∉ plaintextHosts server.world.lib.toUrlLibrary (cells .hosts))
      (savedEntry server.world.lib.toUrlLibrary (cells .hosts)) k (cells k) := by
    intro k
    cases k with
    | hosts =>
      refine ⟨hosts, hparse, fun name _ => (savedEntry_of_parsed hparse name).symm, ?_⟩
      exact fun name host hname hfound => legacyAuth_of_not_mem_plaintextHosts hparse hname hfound
    | jobs => exact hjobs
    | config => exact hconfig
    | settings => exact hsettings
    | keystore => trivial
    | exporter => trivial
    | kibanaUrl => trivial
  have hrun := (State.keeping_start hstart fun i =>
    safe_request hlib (hwhole i) (fun name hname => hname i) fun _ hname => hname).run schedule
  obtain ⟨left, hleft, hkept, -⟩ := hrun.cells .hosts
  refine ⟨⟨⟨left, hleft⟩, hrun.cells .jobs, hrun.cells .config, hrun.cells .settings⟩, ?_⟩
  intro name hname
  exact (savedEntry_of_parsed hleft name).trans (hkept name hname)

/-- A host to collect from is saved while a keystore is made. -/
def meetingRequests : Bool → Faults × Operation SampleUrl
  | false => (sampleFaults, .saveKeystore ⟨"changeme", some "on"⟩ (some "changeme"))
  | true => (sampleFaults, .saveCollectHost ⟨"logs", .elasticsearch, proxyUrl, none, none⟩ none)

/-- The keystore is made between the load of the hosts and their write. -/
def meetingSchedule : List Bool :=
  [true, true, false, false, false, false, false, true, false, true, false]

theorem requests_keep_files_meeting :
    Readable sampleServer
        ((begin sampleServer meetingRequests emptyCells).run meetingSchedule).cells ∧
      ∀ name, (∀ i, name ∉ named sampleUrls (emptyCells .hosts) (meetingRequests i).2) →
        savedEntry sampleUrls
            (((begin sampleServer meetingRequests emptyCells).run meetingSchedule).cells
              .hosts) name =
          savedEntry sampleUrls (emptyCells .hosts) name := by
  have hwhole : WritesWhole sampleFaults :=
    ⟨fun _ => HostsWrite.noConfusion, HostsWrite.flushed_completes,
      fun _ => SettingsWrite.noConfusion⟩
  refine @requests_keep_files _ _ _ _ sampleServer sampleUrls_lawful _ (fun i => ?_) _ ?_ _
  · cases i <;> exact hwhole
  · exact ⟨⟨.empty, rfl⟩, ⟨_, rfl⟩, ⟨_, rfl⟩, ⟨_, rfl⟩⟩

end Runs

end Esdiag.WorkspaceSafety
