import Esdiag.ApplicationConfigs
import Esdiag.KeyedUpdates
import Esdiag.SecretReferences
import Esdiag.SettingsForms

/-!
Saving the forms of the settings pages. A host or a cluster that is renamed is
removed under its old names and inserted under the new ones in one write of the
hosts file, and the settings, where they name it as the target, are written after
it. A secret is removed and inserted in two writes of the keystore. Nothing is
undone when a later step fails, and a new name may be taken already.
-/
namespace Esdiag.SettingsRenames

open KeyedMaps KeyedUpdates Deployments Keystores KeystoreOperations KnownHosts HostFiles
  HostBuilders HostRoundTrip SavedJobFiles SecretReferences ApplicationConfigs SettingsForms

structure Settings where
  activeTarget : Option String
  kibanaUrl : Option String
  deriving DecidableEq

inductive SettingsFile where
  | absent
  | unparsed
  | document (settings : Settings)
  deriving DecidableEq

/-- What the file system does with a write of the settings, which is made in place. -/
inductive SettingsWrite where
  | completes
  | fails (left : SettingsFile)

namespace Settings

def load : SettingsFile → Except UpsertError Settings
  | .absent => .ok ⟨none, none⟩
  | .unparsed => .error .settings
  | .document settings => .ok settings

def save (settings : Settings) : SettingsWrite → Except UpsertError Unit × SettingsFile
  | .completes => (.ok (), .document settings)
  | .fails left => (.error .settings, left)

end Settings

/-- All the files that a form may touch. -/
structure Workspace where
  files : ReferenceFiles
  settings : SettingsFile
  config : ConfigFile

/-- How the writes of one request fare. -/
structure Disk where
  hosts : HostsWrite
  configFails : Bool
  settings : SettingsWrite
  removal : WriteAttempt
  upsert : WriteAttempt

/-- The name that a form renames, if it renames one. -/
def renamedFrom (originalName : Option String) (name : String) : Option String :=
  (originalName.map Texts.trim).filter fun original => original ≠ "" ∧ original ≠ name

/-- What a checked form does to the hosts: names that give way to others, and entries. -/
structure HostChange (Url : Type) where
  renamed : List (String × String)
  added : List (String × KnownHost Url)
  clearsDeferral : KeyedMap String (KnownHost Url) → KeyedMap String (KnownHost Url) → Bool

section Hosts

variable {Url Key : Type} (lib : QueryLibrary Url) (libs : Libraries Key)

def hasCollect (host : Option (KnownHost Url)) : Bool :=
  host.any fun host => host.roles.contains .collect

def hostRenames (originalName : Option String) (name : String) : List (String × String) :=
  (renamedFrom originalName name).elim [] fun original => [(original, name)]

def clusterRenames (originalName : Option String) (name : String) : List (String × String) :=
  (renamedFrom originalName name).elim [] fun original =>
    [(original, name), (kibanaName original, kibanaName name)]

def hostChange (form : HostUpsertForm) (name : String) (host : KnownHost Url) :
    HostChange Url where
  renamed := hostRenames form.originalName name
  added := [(name, host)]
  clearsDeferral hosts after :=
    hasCollect (form.originalName.bind hosts.find?) || hasCollect (hosts.find? name) ||
      hasCollect (after.find? name)

def clusterChange (form : ClusterUpsertForm) (name : String)
    (elasticsearchHost kibanaHost : KnownHost Url) : HostChange Url where
  renamed := clusterRenames form.originalName name
  added := [(name, elasticsearchHost), (kibanaName name, kibanaHost)]
  clearsDeferral _ _ := false

/-- The new name of a target, and whether it has one. -/
def retarget (renamed : List (String × String)) (target : Option String) :
    Option String × Bool :=
  match target with
  | none => (none, false)
  | some name =>
    match findEntry name renamed with
    | some new => (some new, true)
    | none => (some name, false)

/-- What is to be written of a change, with the first host as target for a missing one. -/
structure HostPlan (Url : Type) where
  hosts : KeyedMap String (KnownHost Url)
  clearsDeferral : Bool
  settings : Settings
  settingsChanged : Bool

def planHosts (change : HostChange Url) (hosts : KeyedMap String (KnownHost Url))
    (settings : Settings) : HostPlan Url :=
  let after := replaceEntries (change.renamed.map Prod.fst) change.added hosts
  let target := retarget change.renamed settings.activeTarget
  let dangling := target.1.any fun name => (after.find? name).isNone
  { hosts := after
    clearsDeferral := change.clearsDeferral hosts after
    settings := { settings with
      activeTarget := if dangling then after.inOrder.head?.map Prod.fst else target.1 }
    settingsChanged := target.2 || dangling }

/-- The writes of a plan, of which the first that fails ends the request. -/
def carryOut (disk : Disk) (plan : HostPlan Url) (state : Workspace) :
    Except UpsertError Unit × Workspace :=
  match writeHostsYml lib.toUrlLibrary disk.hosts state.files.hosts plan.hosts with
  | (.error error, hosts) => (.error (.hosts error), { state with
      files := { state.files with hosts } })
  | (.ok (), hosts) =>
    let cleared :=
      if plan.clearsDeferral then clearCollectionDeferral disk.configFails state.config
      else (.ok (), state.config)
    let state := { state with files := { state.files with hosts }, config := cleared.2 }
    match cleared.1 with
    | .error _ => (.error .config, state)
    | .ok () =>
      if plan.settingsChanged then
        let saved := plan.settings.save disk.settings
        (saved.1, { state with settings := saved.2 })
      else (.ok (), state)

/-- Save a form of hosts that has been checked. -/
def upsertHosts (disk : Disk) (checked : Except UpsertError (HostChange Url))
    (state : Workspace) : Except UpsertError Unit × Workspace :=
  match checked with
  | .error error => (.error error, state)
  | .ok change =>
    match parseHostsYml lib.toUrlLibrary state.files.hosts with
    | .error error => (.error (.hosts error), state)
    | .ok hosts =>
      match Settings.load state.settings with
      | .error error => (.error error, state)
      | .ok settings => carryOut lib disk (planHosts change hosts settings) state

def checkedHost (session : KeystoreSession) (form : HostUpsertForm) (keystore : SealedFile) :
    Except UpsertError (HostChange Url) :=
  (checkHostForm lib libs session keystore form).map fun checked =>
    hostChange form checked.1 checked.2

def checkedCluster (session : KeystoreSession) (form : ClusterUpsertForm)
    (keystore : SealedFile) : Except UpsertError (HostChange Url) :=
  (checkClusterForm lib libs session keystore form).map fun checked =>
    clusterChange form checked.1 checked.2.1 checked.2.2

def applyUpsertHost (disk : Disk) (session : KeystoreSession) (form : HostUpsertForm)
    (state : Workspace) : Except UpsertError Unit × Workspace :=
  upsertHosts lib disk (checkedHost lib libs session form state.files.keystore) state

def applyUpsertCluster (disk : Disk) (session : KeystoreSession) (form : ClusterUpsertForm)
    (state : Workspace) : Except UpsertError Unit × Workspace :=
  upsertHosts lib disk (checkedCluster lib libs session form state.files.keystore) state

end Hosts

section Secrets

variable {Url Key : Type} (lib : QueryLibrary Url) (libs : Libraries Key) (env : Environment)

def storeSecret (disk : Disk) (secretId : String) (auth : SecretAuth) (password : String)
    (state : Workspace) : Except UpsertError Unit × Workspace :=
  let stored := upsertSecretAuth libs state.files.keystore secretId auth password disk.upsert
  (stored.1.mapError .keystore, { state with files := { state.files with keystore := stored.2 } })

def applyUpsertSecret (disk : Disk) (session : KeystoreSession) (form : SecretUpsertForm)
    (state : Workspace) : Except UpsertError Unit × Workspace :=
  match checkSecretForm session form with
  | .error error => (.error error, state)
  | .ok (secretId, auth, password) =>
    match renamedFrom form.originalSecretId secretId with
    | none => storeSecret libs disk secretId auth password state
    | some original =>
      match removeSecretChecked lib.toUrlLibrary libs env original none password disk.removal
        state.files with
      | (.error error, files) => (.error (.keystore error), { state with files })
      | (.ok (), files) => storeSecret libs disk secretId auth password { state with files }

end Secrets

end Esdiag.SettingsRenames
