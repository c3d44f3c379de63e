import Esdiag.HostCommands
import Esdiag.LegacyMigration
import Esdiag.RenameSafety

/-!
Edits of the hosts file. Every command and every page that changes saved hosts
removes some names and puts in some entries, all in one write. What other parts
refer to of a host, its application, its viewer and its roles, comes through the
file as the edit has it, and nothing else of the workspace that is referred to
changes with it.
-/
namespace Esdiag.HostEdits

open KeyedMaps KeyedUpdates Deployments KeystoreOperations KnownHosts HostFiles HostBuilders
  HostRoundTrip SavedJobFiles LegacyMigration HostReferences ApplicationConfigs SettingsForms
  SettingsRenames RenameSafety HostCommands Outcomes

section Edits

/-- What a change does to the hosts: names that go, and entries that come. -/
structure HostEdit (Url : Type) where
  removed : List String
  added : List (String × KnownHost Url)

variable {Url : Type}

namespace HostEdit

def none : HostEdit Url := ⟨[], []⟩

def remove (names : List String) : HostEdit Url := ⟨names, []⟩

def save (name : String) (checked : Except UpsertError (KnownHost Url)) : HostEdit Url :=
  ⟨[], (checked.toOption.map fun host => (name, host)).toList⟩

def ofChange : Except UpsertError (HostChange Url) → HostEdit Url
  | .ok change => ⟨change.renamed.map Prod.fst, change.added⟩
  | .error _ => none

def apply (edit : HostEdit Url) (hosts : KeyedMap String (KnownHost Url)) :
    KeyedMap String (KnownHost Url) :=
  replaceEntries edit.removed edit.added hosts

end HostEdit

end Edits

section Outputs

variable {Url : Type} {lib : UrlLibrary Url}

/-- What refers to a host and how it is reached by others. -/
structure Endpoint where
  app : Option Application
  viewer : Option String
  roles : List HostRole

def endpoint (host : KnownHost Url) : Endpoint :=
  ⟨host.app, host.viewer, normalizeRoles host.roles⟩

theorem endpoint_asSaved (host : KnownHost Url) : endpoint (asSaved host) = endpoint host := by
  simp [endpoint, asSaved, normalizeRoles_normalizeRoles]

theorem send_mem_of_endpoint {host host' : KnownHost Url} (h : endpoint host' = endpoint host) :
    .send ∈ host'.roles ↔ .send ∈ host.roles := by
  have hroles : normalizeRoles host'.roles = normalizeRoles host.roles :=
    congrArg Endpoint.roles h
  have hmem := congrArg (fun roles => HostRole.send ∈ roles) hroles
  simpa [mem_normalizeRoles] using hmem

/-- The viewer of a host in a file is a host of the file with the role for it. -/
theorem viewerLink_of_parsed {file : HostsFile} {hosts : KeyedMap String (KnownHost Url)}
    (hparse : parseHostsYml lib file = .ok hosts) {name viewerName : String}
    {host : KnownHost Url} (hhost : hosts.find? name = some host)
    (hviewer : host.viewer = some viewerName) :
    .send ∈ host.roles ∧ ∃ viewer, hosts.find? viewerName = some viewer ∧
      .view ∈ viewer.roles := by
  have hlinks := checkEach_eq_ok_iff.mp (parseHostsYml_eq_ok hparse).2 (name, host)
    (KeyedMap.find?_eq_some_iff.mp hhost)
  unfold validateViewerLink at hlinks
  simp only [hviewer] at hlinks
  by_cases hsend : HostRole.send ∈ host.roles
  · cases hfound : hosts.find? viewerName with
    | none => simp [hsend, hfound] at hlinks
    | some viewer =>
      by_cases hview : HostRole.view ∈ viewer.roles
      · exact ⟨hsend, viewer, rfl, hview⟩
      · simp [hsend, hfound, hview] at hlinks
  · simp [hsend] at hlinks

/-- The hosts of a file after an edit, as far as others refer to them. -/
structure Edited (lib : UrlLibrary Url) (edit : HostEdit Url)
    (hosts : KeyedMap String (KnownHost Url)) (file : HostsFile)
    (edited : KeyedMap String (KnownHost Url)) : Prop where
  parsed : parseHostsYml lib file = .ok edited
  found : ∀ name, (edited.find? name).map endpoint = ((edit.apply hosts).find? name).map endpoint
  distinct : (edit.added.map Prod.fst).Nodup

namespace Edited

variable {edit : HostEdit Url} {file : HostsFile} {hosts edited : KeyedMap String (KnownHost Url)}

theorem find?_apply (h : Edited lib edit hosts file edited) (name : String) :
    (edit.apply hosts).find? name =
      (findEntry name edit.added).or (if name ∈ edit.removed then none else hosts.find? name) :=
  find?_replaceEntries h.distinct hosts name

theorem exists_of_find? (h : Edited lib edit hosts file edited) {name : String}
    {host : KnownHost Url} (hhost : (edit.apply hosts).find? name = some host) :
    ∃ host', edited.find? name = some host' ∧ endpoint host' = endpoint host := by
  have hfound := h.found name
  rw [hhost, Option.map_some, Option.map_eq_some_iff] at hfound
  exact hfound

theorem exists_of_edited (h : Edited lib edit hosts file edited) {name : String}
    {host' : KnownHost Url} (hhost : edited.find? name = some host') :
    ∃ host, (edit.apply hosts).find? name = some host ∧ endpoint host' = endpoint host := by
  have hfound := h.found name
  rw [hhost, Option.map_some, eq_comm, Option.map_eq_some_iff] at hfound
  obtain ⟨host, hfind, hsame⟩ := hfound
  exact ⟨host, hfind, hsame.symm⟩

end Edited

end Outputs

section Writes

variable {Url : Type} {lib : UrlLibrary Url}

/-- A configuration with the same references, in a file that is read all the same. -/
def SameReferences (file file' : ConfigFile) : Prop :=
  ∀ config, ApplicationConfig.load file = .ok config →
    ∃ config', ApplicationConfig.load file' = .ok config' ∧ config'.output = config.output ∧
      config'.job = config.job

theorem SameReferences.refl (file : ConfigFile) : SameReferences file file :=
  fun config hload => ⟨config, hload, rfl, rfl⟩

/-- The collection that is no longer put off is no reference. -/
theorem clearCollectionDeferral_sameReferences {ioFails : Bool} {file : ConfigFile}
    (h : (clearCollectionDeferral ioFails file).1 = .ok ()) :
    SameReferences file (clearCollectionDeferral ioFails file).2 := by
  intro config hload
  unfold clearCollectionDeferral at h ⊢
  simp only [hload] at h ⊢
  by_cases hdeferred : config.collectionDeferred = true
  · have hloaded : config.validateVersion = .ok () :=
      ApplicationConfig.validateVersion_of_load hload
    have hversion : { config with collectionDeferred := false }.validateVersion = .ok () := hloaded
    simp only [hdeferred, if_true, ApplicationConfig.save, hversion] at h ⊢
    cases ioFails with
    | true => simp at h
    | false =>
      refine ⟨{ config with collectionDeferred := false }, ?_, rfl, rfl⟩
      simp [ApplicationConfig.load, hversion]
  · simp only [hdeferred, Bool.false_eq_true, if_false]
    exact ⟨config, hload, rfl, rfl⟩

/-- After a write of the hosts that succeeds, the jobs, the settings and all references of the
configuration are as they were. -/
theorem afterHosts_eq_ok {disk : Disk} {clears : Bool}
    {written : Except HostsError Unit × HostsFile} {state after : Workspace}
    (h : afterHosts disk clears written state = (.ok (), after)) :
    written = (.ok (), after.files.hosts) ∧ after.files.jobs = state.files.jobs ∧
      after.settings = state.settings ∧ SameReferences state.config after.config := by
  obtain ⟨result, file⟩ := written
  unfold afterHosts at h
  cases result with
  | error error => simp at h
  | ok _ =>
    cases clears with
    | false =>
      obtain rfl := (Prod.mk.inj h).2
      exact ⟨rfl, rfl, rfl, SameReferences.refl _⟩
    | true =>
      simp only [if_true, Prod.mk.injEq] at h
      obtain ⟨hcleared, rfl⟩ := h
      exact ⟨rfl, rfl, rfl, clearCollectionDeferral_sameReferences (mapError_eq_ok.mp hcleared)⟩

theorem prepareForSave_eq_ok {name : String} {host out : KnownHost Url}
    (h : prepareForSave name host = .ok out) :
    ∃ credential, out = { host with roles := normalizeRoles host.roles, credential } := by
  unfold prepareForSave at h
  cases hroles : normalizeAndValidateRoles name host with
  | error error => simp [hroles] at h
  | ok normalized =>
    obtain ⟨rfl, -⟩ := normalizeAndValidateRoles_eq_ok hroles
    cases htemplate : validateTemplateHost name
        { host with roles := normalizeRoles host.roles } with
    | error message => simp [hroles, htemplate] at h
    | ok _ =>
      cases hcredential : host.credential.persisted with
      | error error => simp [hroles, htemplate, hcredential] at h
      | ok credential =>
        exact ⟨credential, by simpa [hroles, htemplate, hcredential] using h.symm⟩

/-- Hosts that are accepted for writing are read back, with what others refer to. -/
theorem edited_of_written (hlib : lib.Lawful) {outcome : HostsWrite} {edit : HostEdit Url}
    {file file' : HostsFile} {hosts changed : KeyedMap String (KnownHost Url)}
    (hflushed : outcome.Flushed)
    (h : writeHostsYml lib outcome file changed = (.ok (), file'))
    (hfound : ∀ name, (changed.find? name).map endpoint =
      ((edit.apply hosts).find? name).map endpoint)
    (hdistinct : (edit.added.map Prod.fst).Nodup)
    (hcanonical : ∀ e ∈ changed.entries, IsCanonical lib e.2) :
    ∃ edited, Edited lib edit hosts file' edited := by
  obtain ⟨written, hwritten, rfl⟩ := writeHostsYml_eq_ok (.of_flushed hflushed _ _) h
  refine ⟨written, parseHostsYml_normalized hlib hwritten hcanonical, fun name => ?_, hdistinct⟩
  rw [find?_normalizeHosts hwritten, ← hfound name, Option.map_map]
  exact congrArg (fun f => (changed.find? name).map f) (funext endpoint_asSaved)

theorem isCanonical_of_parsed (hlib : lib.Lawful) {file : HostsFile}
    {hosts : KeyedMap String (KnownHost Url)} (hparse : parseHostsYml lib file = .ok hosts)
    {name : String} {host : KnownHost Url} (hhost : hosts.find? name = some host) :
    IsCanonical lib host :=
  ((parseHostsYml_eq_ok hparse).1 _ (KeyedMap.find?_eq_some_iff.mp hhost)).1 hlib

/-- A write of edited hosts that succeeds and is flushed, and what it leaves. -/
structure HostsWritten (lib : UrlLibrary Url) (edit : HostEdit Url)
    (hosts : KeyedMap String (KnownHost Url)) (before after : Workspace) : Prop where
  parsed : parseHostsYml lib before.files.hosts = .ok hosts
  edited : ∃ edited, Edited lib edit hosts after.files.hosts edited
  jobs : after.files.jobs = before.files.jobs
  settings : after.settings = before.settings
  config : SameReferences before.config after.config

theorem hostsWritten_of_afterHosts (hlib : lib.Lawful) {disk : Disk} {clears : Bool}
    {edit : HostEdit Url} {hosts changed : KeyedMap String (KnownHost Url)}
    {state after : Workspace} (hflushed : disk.hosts.Flushed)
    (hparse : parseHostsYml lib state.files.hosts = .ok hosts)
    (hfound : ∀ name, (changed.find? name).map endpoint =
      ((edit.apply hosts).find? name).map endpoint)
    (hdistinct : (edit.added.map Prod.fst).Nodup)
    (hcanonical : ∀ e ∈ changed.entries, IsCanonical lib e.2)
    (h : afterHosts disk clears (writeHostsYml lib disk.hosts state.files.hosts changed) state =
      (.ok (), after)) : HostsWritten lib edit hosts state after := by
  obtain ⟨hwritten, hjobs, hsettings, hconfig⟩ := afterHosts_eq_ok h
  exact ⟨hparse, edited_of_written hlib hflushed hwritten hfound hdistinct hcanonical, hjobs,
    hsettings, hconfig⟩

/-- Removing names from the hosts of a file. -/
theorem hostsWritten_of_remove (hlib : lib.Lawful) {disk : Disk} {clears : Bool}
    {names : List String} {hosts : KeyedMap String (KnownHost Url)} {state after : Workspace}
    (hflushed : disk.hosts.Flushed) (hparse : parseHostsYml lib state.files.hosts = .ok hosts)
    (h : afterHosts disk clears (writeHostsYml lib disk.hosts state.files.hosts
      (names.foldl KeyedMap.remove hosts)) state = (.ok (), after)) :
    HostsWritten lib (.remove names) hosts state after := by
  refine hostsWritten_of_afterHosts hlib hflushed hparse (fun _ => rfl) List.nodup_nil ?_ h
  rintro ⟨name, host⟩ hmem
  have hfind : (names.foldl KeyedMap.remove hosts).find? name = some host :=
    KeyedMap.find?_eq_some_iff.mpr hmem
  rw [find?_foldl_remove] at hfind
  split at hfind
  · cases hfind
  · exact isCanonical_of_parsed hlib hparse hfind

end Writes

section Commands

variable {Url Key : Type} {terminal : Terminal Url} {libs : Libraries Key}

theorem isCanonical_of_buildHost (hlib : terminal.world.lib.toUrlLibrary.Lawful)
    {builder : KnownHostBuilder Url} {host : KnownHost Url}
    (h : buildHost terminal.world.lib.toQueryLibrary builder = .ok host) :
    IsCanonical terminal.world.lib.toUrlLibrary host := by
  obtain ⟨parts, hparts⟩ := buildHost_eq_ok h
  exact isCanonical_of_fromParts hlib hparts

theorem isCanonical_of_definition (hlib : terminal.world.lib.toUrlLibrary.Lawful)
    {app : Option Application} {target : String} {useUrlTemplate : Bool}
    {update : KnownHostCliUpdate} {secretAuth : Option Keystores.SecretAuth} {host : KnownHost Url}
    (h : buildHostFromDefinition terminal app target useUrlTemplate update secretAuth = .ok host) :
    IsCanonical terminal.world.lib.toUrlLibrary host := by
  obtain ⟨builder, -, h⟩ := bind_eq_ok h
  obtain ⟨auth, -, h⟩ := bind_eq_ok h
  cases secretAuth with
  | none => exact isCanonical_of_buildHost hlib h
  | some secretAuth =>
    obtain ⟨parts, hparts⟩ := KnownHostBuilder.build_eq_ok
      (KnownHostBuilder.build_of_buildWithSecretAuth (mapError_eq_ok.mp h))
    exact isCanonical_of_fromParts hlib hparts

theorem isCanonical_of_merge (hlib : terminal.world.lib.toUrlLibrary.Lawful)
    {existing host : KnownHost Url} {update : KnownHostCliUpdate}
    {secretAuth : Option Keystores.SecretAuth}
    (hexisting : IsCanonical terminal.world.lib.toUrlLibrary existing)
    (h : mergeCliUpdate terminal existing update secretAuth = .ok host) :
    IsCanonical terminal.world.lib.toUrlLibrary host := by
  unfold mergeCliUpdate at h
  cases hcredential : mergedCredential update secretAuth with
  | error error => simp [hcredential] at h
  | ok credential =>
    cases credential with
    | none =>
      simp only [hcredential, Except.ok.injEq] at h
      obtain rfl := h
      exact hexisting.congr rfl rfl rfl
    | some credential =>
      simp only [hcredential] at h
      exact isCanonical_of_fromParts hlib (mapError_eq_ok.mp h)

theorem isCanonical_of_rendered (world : World Url) (hlib : world.lib.toUrlLibrary.Lawful)
    {template host : KnownHost Url} {reference : TemplateReference}
    (h : renderTemplateReference world template reference = .ok host) :
    IsCanonical world.lib.toUrlLibrary host := by
  unfold renderTemplateReference at h
  cases htemplate : template.urlTemplate with
  | none => simp [htemplate] at h
  | some urlTemplate =>
    by_cases hid : Texts.trim reference.id = ""
    · simp [htemplate, hid] at h
    · cases happ : Application.fromStr
          (Texts.toAsciiLowercase (Texts.trim (reference.product.getD defaultTemplateProduct))) with
      | none => simp [htemplate, hid, happ] at h
      | some app =>
        cases hurl : renderUrlTemplateUrl world.lib.toUrlLibrary urlTemplate
            (Texts.trim reference.id)
            (Texts.toAsciiLowercase
              (Texts.trim (reference.product.getD defaultTemplateProduct))) with
        | none => simp [htemplate, hid, happ, hurl] at h
        | some url =>
          simp only [htemplate, hid, happ, hurl, if_false] at h
          obtain ⟨built, hbuilt, rfl⟩ := map_eq_ok h
          obtain ⟨parts, hparts⟩ := KnownHostBuilder.build_eq_ok hbuilt
          exact (isCanonical_of_fromParts hlib hparts).congr rfl rfl rfl

/-- The hosts that commands are about to save are canonical. -/
theorem isCanonical_of_hostToAdd (hlib : terminal.world.lib.toUrlLibrary.Lawful)
    {args : HostAddArgs} {state : Workspace} {host : KnownHost Url}
    (h : hostToAdd terminal libs args state = .ok host) :
    IsCanonical terminal.world.lib.toUrlLibrary host := by
  obtain ⟨_, -, h⟩ := bind_eq_ok h
  obtain ⟨⟨secretAuth, update⟩, -, h⟩ := bind_eq_ok h
  cases htemplate : args.urlTemplate with
  | true =>
    simp only [htemplate, if_true] at h
    exact isCanonical_of_definition hlib h
  | false =>
    simp only [htemplate, Bool.false_eq_true, if_false] at h
    obtain ⟨materialized, hmaterialized, h⟩ := bind_eq_ok h
    cases materialized with
    | none => exact isCanonical_of_definition hlib h
    | some template =>
      refine isCanonical_of_merge hlib ?_ h
      unfold maybeMaterializeTemplateTarget at hmaterialized
      cases hreference : parseTemplateReference (terminal.worldAt state).urlParts args.target with
      | error message => simp [hreference] at hmaterialized
      | ok found =>
        cases found with
        | none => simp [hreference] at hmaterialized
        | some reference =>
          simp only [hreference] at hmaterialized
          obtain ⟨rendered, hrendered, hsome⟩ := map_eq_ok hmaterialized
          obtain rfl := Option.some.inj hsome
          have hresolved := mapError_eq_ok.mp hrendered
          unfold resolveTemplateReference at hresolved
          split at hresolved
          · cases hresolved
          · split_ifs at hresolved
            exact isCanonical_of_rendered (terminal.worldAt state) hlib hresolved

theorem savedHost_eq_some {state : Workspace} {hosts : KeyedMap String (KnownHost Url)}
    (hparse : parseHostsYml terminal.world.lib.toUrlLibrary state.files.hosts = .ok hosts)
    (name : String) : savedHost terminal state name = hosts.find? name := by
  show (parseHostsYml terminal.world.lib.toUrlLibrary state.files.hosts).toOption.bind
    (fun hosts => hosts.find? name) = hosts.find? name
  rw [hparse]
  rfl

theorem isCanonical_of_hostToUpdate (hlib : terminal.world.lib.toUrlLibrary.Lawful)
    {name : String} {update : KnownHostCliUpdate} {state : Workspace} {host : KnownHost Url}
    (h : hostToUpdate terminal libs name update state = .ok host) :
    IsCanonical terminal.world.lib.toUrlLibrary host := by
  obtain ⟨_, -, h⟩ := bind_eq_ok h
  cases hsaved : savedHost terminal state name with
  | none => simp [hsaved] at h
  | some existing =>
    simp only [hsaved] at h
    obtain ⟨secretAuth, -, h⟩ := bind_eq_ok h
    refine isCanonical_of_merge hlib ?_ h
    cases hparse : parseHostsYml terminal.world.lib.toUrlLibrary state.files.hosts with
    | error error =>
      have hnone : savedHost terminal state name = none := by
        show (parseHostsYml terminal.world.lib.toUrlLibrary state.files.hosts).toOption.bind
          (fun hosts => hosts.find? name) = none
        rw [hparse]
        rfl
      rw [hnone] at hsaved
      cases hsaved
    | ok hosts =>
      rw [savedHost_eq_some hparse] at hsaved
      exact isCanonical_of_parsed hlib hparse hsaved

/-- A checked host that is saved is an entry of the hosts. -/
theorem hostsWritten_of_saveChecked (hlib : terminal.world.lib.toUrlLibrary.Lawful) {disk : Disk}
    {name : String} {checked : Except UpsertError (KnownHost Url)} {state after : Workspace}
    (hflushed : disk.hosts.Flushed)
    (hcanonical : ∀ host, checked = .ok host → IsCanonical terminal.world.lib.toUrlLibrary host)
    (h : saveChecked terminal disk name checked state = (.ok (), after)) :
    ∃ hosts, HostsWritten terminal.world.lib.toUrlLibrary (.save name checked) hosts state
      after := by
  unfold saveChecked at h
  cases checked with
  | error error => simp at h
  | ok host =>
    simp only [saveHost] at h
    split at h
    · simp at h
    · unfold saveKnownHost at h
      cases hparse : parseHostsYml terminal.world.lib.toUrlLibrary state.files.hosts with
      | error error =>
        rw [hparse] at h
        exact absurd (afterHosts_eq_ok h).1 (by simp)
      | ok hosts =>
        cases hprepared : prepareForSave name host with
        | error error =>
          rw [hparse, hprepared] at h
          exact absurd (afterHosts_eq_ok h).1 (by simp)
        | ok prepared =>
          rw [hparse, hprepared] at h
          obtain ⟨credential, rfl⟩ := prepareForSave_eq_ok hprepared
          refine ⟨hosts, hostsWritten_of_afterHosts hlib hflushed hparse ?_
            (List.nodup_singleton _) ?_ h⟩
          · intro other
            show Option.map endpoint ((hosts.insert name _).find? other) =
              ((hosts.insert name host).find? other).map endpoint
            by_cases hother : other = name
            · rw [hother, KeyedMap.find?_insert_self, KeyedMap.find?_insert_self]
              simp [endpoint, normalizeRoles_normalizeRoles]
            · rw [KeyedMap.find?_insert_of_ne hosts hother, KeyedMap.find?_insert_of_ne hosts hother]
          · rintro ⟨other, saved⟩ hmem
            have hfind := KeyedMap.find?_eq_some_iff.mpr hmem
            by_cases hother : other = name
            · rw [hother, KeyedMap.find?_insert_self, Option.some.injEq] at hfind
              exact hfind ▸ (hcanonical host rfl).congr rfl rfl rfl
            · rw [KeyedMap.find?_insert_of_ne hosts hother] at hfind
              exact isCanonical_of_parsed hlib hparse hfind

end Commands

section Forms

variable {Url : Type} {lib : QueryLibrary Url}

theorem carryOut_eq_ok {disk : Disk} {plan : HostPlan Url} {state after : Workspace}
    (h : carryOut lib disk plan state = (.ok (), after)) :
    writeHostsYml lib.toUrlLibrary disk.hosts state.files.hosts plan.hosts =
        (.ok (), after.files.hosts) ∧
      after.files.jobs = state.files.jobs ∧ SameReferences state.config after.config ∧
      after.settings =
        if plan.settingsChanged then .document plan.settings else state.settings := by
  unfold carryOut at h
  rcases hwrite : writeHostsYml lib.toUrlLibrary disk.hosts state.files.hosts plan.hosts with
    ⟨result, file⟩
  cases result with
  | error error => simp [hwrite] at h
  | ok _ =>
    simp only [hwrite] at h
    generalize hcleared : (if plan.clearsDeferral then
      clearCollectionDeferral disk.configFails state.config else (.ok (), state.config)) =
        cleared at h
    obtain ⟨result, config⟩ := cleared
    cases result with
    | error error => simp at h
    | ok _ =>
      have hconfig : SameReferences state.config config := by
        cases hclears : plan.clearsDeferral with
        | false =>
          rw [hclears, if_neg Bool.false_ne_true] at hcleared
          obtain rfl := (Prod.mk.inj hcleared).2
          exact SameReferences.refl _
        | true =>
          rw [hclears, if_pos rfl] at hcleared
          have hsame := clearCollectionDeferral_sameReferences (congrArg Prod.fst hcleared)
          rwa [hcleared] at hsame
      cases hneeds : plan.settingsChanged with
      | false =>
        simp only [hneeds, Bool.false_eq_true, if_false, Prod.mk.injEq, true_and] at h
        obtain rfl := h
        exact ⟨rfl, rfl, hconfig, rfl⟩
      | true =>
        simp only [hneeds, if_true, Prod.mk.injEq] at h
        obtain ⟨hsaved, rfl⟩ := h
        refine ⟨rfl, rfl, hconfig, ?_⟩
        cases hdisk : disk.settings with
        | completes => rfl
        | fails left => simp [hdisk, Settings.save] at hsaved

/-- The target of a plan: the first host by name where the followed one is no host. -/
theorem planHosts_activeTarget (change : HostChange Url)
    (hosts : KeyedMap String (KnownHost Url)) (settings : Settings) :
    (planHosts change hosts settings).settings.activeTarget =
      if (retarget change.renamed settings.activeTarget).1.any fun target =>
          (((HostEdit.ofChange (.ok change)).apply hosts).find? target).isNone
      then firstHost ((HostEdit.ofChange (.ok change)).apply hosts)
      else (retarget change.renamed settings.activeTarget).1 := rfl

/-- A checked form that is saved is an edit of the hosts, after which the settings have the
target of the plan. -/
theorem written_of_upsertHosts (hlib : lib.toUrlLibrary.Lawful) {disk : Disk}
    {checked : Except UpsertError (HostChange Url)} {state after : Workspace}
    (hflushed : disk.hosts.Flushed)
    (hdistinct : ∀ change, checked = .ok change → (change.added.map Prod.fst).Nodup)
    (hcanonical : ∀ change, checked = .ok change →
      ∀ e ∈ change.added, IsCanonical lib.toUrlLibrary e.2)
    (h : upsertHosts lib disk checked state = (.ok (), after)) :
    ∃ change hosts settings, checked = .ok change ∧
      parseHostsYml lib.toUrlLibrary state.files.hosts = .ok hosts ∧
      (∃ edited, Edited lib.toUrlLibrary (.ofChange checked) hosts after.files.hosts edited) ∧
      after.files.jobs = state.files.jobs ∧ SameReferences state.config after.config ∧
      Settings.load state.settings = .ok settings ∧
      Settings.load after.settings = .ok (planHosts change hosts settings).settings := by
  unfold upsertHosts at h
  cases checked with
  | error error => simp at h
  | ok change =>
    cases hparse : parseHostsYml lib.toUrlLibrary state.files.hosts with
    | error error => simp [hparse] at h
    | ok hosts =>
      cases hload : Settings.load state.settings with
      | error error => simp [hparse, hload] at h
      | ok settings =>
        simp only [hparse, hload] at h
        obtain ⟨hwrite, hjobs, hconfig, hsettings⟩ := carryOut_eq_ok h
        have hedited : ∃ edited, Edited lib.toUrlLibrary (.ofChange (.ok change)) hosts
            after.files.hosts edited := by
          refine edited_of_written hlib hflushed hwrite (fun _ => rfl) (hdistinct change rfl) ?_
          rintro ⟨name, host⟩ hmem
          have hfind : (replaceEntries (change.renamed.map Prod.fst) change.added hosts).find? name =
              some host := KeyedMap.find?_eq_some_iff.mpr hmem
          rw [find?_replaceEntries (hdistinct change rfl), Option.or_eq_some_iff] at hfind
          rcases hfind with hadded | ⟨-, hkept⟩
          · exact hcanonical change rfl _ (mem_of_findEntry hadded)
          · split at hkept
            · cases hkept
            · exact isCanonical_of_parsed hlib hparse hkept
        refine ⟨change, hosts, settings, rfl, rfl, hedited, hjobs, hconfig, rfl, ?_⟩
        rw [hsettings]
        cases hneeds : (planHosts change hosts settings).settingsChanged with
        | true => rfl
        | false =>
          rw [if_neg Bool.false_ne_true, planHosts_settings change hosts settings hneeds, hload]

end Forms

end Esdiag.HostEdits
