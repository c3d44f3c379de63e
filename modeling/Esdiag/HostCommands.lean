import Esdiag.HostReferences
import Esdiag.SettingsRenames

/-!
Hosts that are added, updated and removed by commands and by the rows of the
settings pages. A command checks the host and its connection before it saves it;
what it merges into a saved host are roles, certificates and a credential, never
the address or the viewer. After a removal the settings get another target, where
theirs was the removed host: the first host by name.
-/
namespace Esdiag.HostCommands

open KeyedMaps Deployments Keystores KeystoreOperations KnownHosts HostFiles HostBuilders
  HostReferences ApplicationConfigs SettingsForms SettingsRenames

structure KnownHostCliUpdate where
  acceptInvalidCerts : Option Bool
  apikey : Option String
  password : Option String
  roles : Option (List HostRole)
  secret : Option String
  username : Option String

def KnownHostCliUpdate.isEmpty (update : KnownHostCliUpdate) : Bool :=
  update.acceptInvalidCerts.isNone && update.apikey.isNone && update.password.isNone &&
    update.roles.isNone && update.secret.isNone && update.username.isNone

structure HostAddArgs where
  name : String
  app : Option Application
  target : String
  urlTemplate : Bool
  update : KnownHostCliUpdate

/-- The surroundings of a command on hosts. -/
structure Terminal (Url : Type) where
  world : World Url
  passwordForSecretCommands : Except UpsertError String
  validateHostConnection : String → KnownHost Url → Except UpsertError Unit
  portOrKnownDefault : Url → Option ℕ
  pathSegments : Url → Option (List String)

/-- The surroundings with the files of a workspace. -/
def Terminal.worldAt {Url : Type} (terminal : Terminal Url) (state : Workspace) : World Url :=
  { terminal.world with
    system := { terminal.world.system with
      config := state.config
      hosts := state.files.hosts
      keystore := state.files.keystore } }

section Definitions

variable {Url Key : Type} (terminal : Terminal Url) (libs : Libraries Key)

def inferProductFromUrl (url : Url) : Option Application :=
  if terminal.portOrKnownDefault url = some 9200 then some .elasticsearch
  else if terminal.portOrKnownDefault url = some 5601 then some .kibana
  else if terminal.portOrKnownDefault url = some 9600 then some .logstash
  else
    match (terminal.pathSegments url).map fun segments =>
        segments.filter fun segment => segment ≠ "" with
    | some ("api" :: "v1" :: "deployments" :: _ :: app :: _) => Application.fromStr app
    | _ => none

def beginDefinition (app : Option Application) (target : String) (useUrlTemplate : Bool) :
    Except UpsertError (KnownHostBuilder Url) :=
  if useUrlTemplate then .ok { KnownHostBuilder.newTemplate target with app }
  else
    match terminal.world.lib.parse target with
    | none => .error (.invalidUrl "Invalid host target URL")
    | some url =>
      match app.or (inferProductFromUrl terminal url) with
      | none =>
        .error (.refused ("Target '" ++ target ++ "' does not determine the app. Rerun with " ++
          "`--app <app>`."))
      | some app => .ok { KnownHostBuilder.new url with app := some app }

def buildHostFromDefinition (app : Option Application) (target : String) (useUrlTemplate : Bool)
    (update : KnownHostCliUpdate) (secretAuth : Option SecretAuth) :
    Except UpsertError (KnownHost Url) := do
  let builder ← beginDefinition terminal app target useUrlTemplate
  let auth ← (Auth.fromParts update.apikey update.username update.password).mapError
    fun message => UpsertError.refused ("Invalid KnownHost configuration: " ++ message)
  let builder := { builder with
    acceptInvalidCerts := update.acceptInvalidCerts.getD false
    auth
    secret := update.secret
    roles := update.roles.getD builder.roles }
  match secretAuth with
  | some _ =>
    (builder.buildWithSecretAuth terminal.world.lib.toQueryLibrary).mapError UpsertError.refused
  | none => buildHost terminal.world.lib.toQueryLibrary builder

def mergedCredential (update : KnownHostCliUpdate) (secretAuth : Option SecretAuth) :
    Except UpsertError (Option Credential) :=
  match update.secret, update.apikey, update.username, update.password with
  | some secretId, _, _, _ =>
    if secretAuth.isNone then
      .error (.refused
        "Invalid KnownHost configuration: missing secret auth for secret update")
    else .ok (some (.keystore secretId))
  | none, some apikey, _, _ => .ok (some (.runtime (.apiKey apikey)))
  | none, none, some username, some password => .ok (some (.runtime (.basic username password)))
  | none, none, none, none => .ok none
  | none, none, _, _ =>
    .error (.refused ("Invalid Basic auth update: either provide a secret reference or both " ++
      "username and password"))

/-- `KnownHost::merge_cli_update`. -/
def mergeCliUpdate (host : KnownHost Url) (update : KnownHostCliUpdate)
    (secretAuth : Option SecretAuth) : Except UpsertError (KnownHost Url) :=
  let roles := update.roles.getD host.roles
  let acceptInvalidCerts := update.acceptInvalidCerts.getD host.acceptInvalidCerts
  match mergedCredential update secretAuth with
  | .error error => .error error
  | .ok none => .ok { host with roles, acceptInvalidCerts }
  | .ok (some credential) =>
    (KnownHost.fromParts terminal.world.lib.toUrlLibrary
      { host with
        acceptInvalidCerts
        cloudId := host.url.bind fun url => ElasticCloud.tryFrom (terminal.world.lib.domain url)
        roles
        credential }).mapError .refused

def resolveHostSecretAuth (keystore : SealedFile) (secretId : Option String) :
    Except UpsertError (Option SecretAuth) :=
  match secretId with
  | none => .ok none
  | some secretId =>
    match terminal.passwordForSecretCommands with
    | .error error => .error error
    | .ok password =>
      match resolveSecretAuth libs keystore secretId password with
      | .error error => .error (.keystore error)
      | .ok none => .error (.refused ("Secret '" ++ secretId ++ "' was not found in keystore"))
      | .ok (some secretAuth) => .ok (some secretAuth)

def resolveSameNameHostSecretAuth (keystore : SealedFile) (hostName : String) :
    Except UpsertError (Option SecretAuth) :=
  if !keystoreExists keystore then .ok none
  else
    match terminal.passwordForSecretCommands with
    | .error _ => .ok none
    | .ok password => (resolveSecretAuth libs keystore hostName password).mapError .keystore

/-- A secret under the name of the host is taken for its own, if the command names no
credential. -/
def resolveAddHostSecretAuth (keystore : SealedFile) (hostName : String)
    (update : KnownHostCliUpdate) :
    Except UpsertError (Option SecretAuth × KnownHostCliUpdate) :=
  if update.secret.isSome then
    (resolveHostSecretAuth terminal libs keystore update.secret).map (·, update)
  else if update.apikey.isSome || update.username.isSome || update.password.isSome then
    .ok (none, update)
  else
    match resolveSameNameHostSecretAuth terminal libs keystore hostName with
    | .error error => .error error
    | .ok none => .ok (none, update)
    | .ok (some secretAuth) => .ok (some secretAuth, { update with secret := some hostName })

def maybeMaterializeTemplateTarget (state : Workspace) (target : String) :
    Except UpsertError (Option (KnownHost Url)) :=
  match parseTemplateReference (terminal.worldAt state).urlParts target with
  | .error message => .error (.refused message)
  | .ok none => .ok none
  | .ok (some reference) =>
    ((resolveTemplateReference (terminal.worldAt state) reference).mapError .refused).map some

def savedHost (state : Workspace) (name : String) : Option (KnownHost Url) :=
  OutputDeployments.getKnown terminal.world.lib (terminal.worldAt state).system name

/-- The host that `host add` is about to save. -/
def hostToAdd (args : HostAddArgs) (state : Workspace) : Except UpsertError (KnownHost Url) := do
  refuseIf (savedHost terminal state args.name).isSome
    ("Host '" ++ args.name ++ "' already exists")
  let (secretAuth, update) ← resolveAddHostSecretAuth terminal libs state.files.keystore args.name
    args.update
  if args.urlTemplate then
    buildHostFromDefinition terminal args.app args.target true update secretAuth
  else
    match ← maybeMaterializeTemplateTarget terminal state args.target with
    | some host => mergeCliUpdate terminal host update secretAuth
    | none => buildHostFromDefinition terminal args.app args.target false update secretAuth

/-- The host that `host update` is about to save. -/
def hostToUpdate (name : String) (update : KnownHostCliUpdate) (state : Workspace) :
    Except UpsertError (KnownHost Url) := do
  refuseIf update.isEmpty ("No host update fields were provided. Use `esdiag host auth " ++ name ++
    "` to test the saved host without modifying it.")
  match savedHost terminal state name with
  | none => .error (.refused ("Host '" ++ name ++ "' not found"))
  | some existing =>
    let secretAuth ← resolveHostSecretAuth terminal libs state.files.keystore update.secret
    mergeCliUpdate terminal existing update secretAuth

end Definitions

section Saving

variable {Url Key : Type} (terminal : Terminal Url) (libs : Libraries Key)

/-- A host as it is put into the map by `KnownHost::save`. -/
def prepareForSave (name : String) (host : KnownHost Url) : Except HostsError (KnownHost Url) :=
  match normalizeAndValidateRoles name host with
  | .error error => .error error
  | .ok host =>
    match validateTemplateHost name host with
    | .error message => .error (.refused message)
    | .ok () =>
      match host.credential.persisted with
      | .error _ =>
        .error (.refused ("Host '" ++ name ++ "' requires a secret reference before it can be " ++
          "saved. Use `--secret <id>` to persist auth, or `--nosave` for transient validation."))
      | .ok credential => .ok { host with credential }

/-- `KnownHost::save`. -/
def saveKnownHost (disk : Disk) (name : String) (host : KnownHost Url) (file : HostsFile) :
    Except HostsError Unit × HostsFile :=
  match parseHostsYml terminal.world.lib.toUrlLibrary file with
  | .error _ => (.error (.refused "Error parsing hosts.yml"), file)
  | .ok hosts =>
    match prepareForSave name host with
    | .error error => (.error error, file)
    | .ok host =>
      writeHostsYml terminal.world.lib.toUrlLibrary disk.hosts file (hosts.insert name host)

/-- What follows a write of the hosts: the collection of diagnostics is no longer put off,
where the write was about a host to collect from. -/
def afterHosts (disk : Disk) (clears : Bool) (written : Except HostsError Unit × HostsFile)
    (state : Workspace) : Except UpsertError Unit × Workspace :=
  let state := { state with files := { state.files with hosts := written.2 } }
  match written.1 with
  | .error error => (.error (.hosts error), state)
  | .ok () =>
    if clears then
      let cleared := clearCollectionDeferral disk.configFails state.config
      (cleared.1.mapError fun _ => .config, { state with config := cleared.2 })
    else (.ok (), state)

def saveHost (disk : Disk) (name : String) (host : KnownHost Url) (state : Workspace) :
    Except UpsertError Unit × Workspace :=
  match if host.urlTemplate.isSome then .ok () else terminal.validateHostConnection name host with
  | .error error => (.error error, state)
  | .ok () =>
    afterHosts disk (host.roles.contains .collect)
      (saveKnownHost terminal disk name host state.files.hosts) state

def saveChecked (disk : Disk) (name : String) (checked : Except UpsertError (KnownHost Url))
    (state : Workspace) : Except UpsertError Unit × Workspace :=
  match checked with
  | .error error => (.error error, state)
  | .ok host => saveHost terminal disk name host state

/-- `esdiag host add`. -/
def addHost (disk : Disk) (args : HostAddArgs) (state : Workspace) :
    Except UpsertError Unit × Workspace :=
  saveChecked terminal disk args.name (hostToAdd terminal libs args state) state

/-- `esdiag host update`. -/
def updateHost (disk : Disk) (name : String) (update : KnownHostCliUpdate) (state : Workspace) :
    Except UpsertError Unit × Workspace :=
  saveChecked terminal disk name (hostToUpdate terminal libs name update state) state

end Saving

section Removing

variable {Url : Type} (lib : UrlLibrary Url)

/-- `KnownHost::remove_saved`. -/
def removeSaved (disk : Disk) (name : String) (file : HostsFile) :
    Except HostsError Unit × HostsFile :=
  match parseHostsYml lib file with
  | .error error => (.error error, file)
  | .ok hosts =>
    match hosts.find? name with
    | none => (.error (.refused ("Host '" ++ name ++ "' not found")), file)
    | some _ => writeHostsYml lib disk.hosts file (hosts.remove name)

def firstHost (hosts : KeyedMap String (KnownHost Url)) : Option String :=
  hosts.inOrder.head?.map Prod.fst

def cleanupSettingsAfterHostDelete (disk : Disk) (name : String) (state : Workspace) :
    Except UpsertError Unit × Workspace :=
  match Settings.load state.settings with
  | .error error => (.error error, state)
  | .ok settings =>
    if settings.activeTarget ≠ some name then (.ok (), state)
    else
      match parseHostsYml lib state.files.hosts with
      | .error error => (.error (.hosts error), state)
      | .ok hosts =>
        let saved := { settings with activeTarget := firstHost hosts }.save disk.settings
        (saved.1, { state with settings := saved.2 })

/-- `esdiag host remove`; settings that cannot be changed are worth a warning only. -/
def deleteHostFromCli (disk : Disk) (name : String) (state : Workspace) :
    Except UpsertError Unit × Workspace :=
  let isCollectHost :=
    hasCollect ((parseHostsYml lib state.files.hosts).toOption.bind fun hosts => hosts.find? name)
  match afterHosts disk isCollectHost (removeSaved lib disk name state.files.hosts) state with
  | (.error error, state) => (.error error, state)
  | (.ok (), state) => (.ok (), (cleanupSettingsAfterHostDelete lib disk name state).2)

/-- `delete_host`; it leaves the settings alone. -/
def deleteHost (disk : Disk) (formName : String) (state : Workspace) :
    Except UpsertError Unit × Workspace :=
  let name := Texts.trim formName
  match parseHostsYml lib state.files.hosts with
  | .error error => (.error (.hosts error), state)
  | .ok hosts =>
    afterHosts disk (hasCollect (hosts.find? name))
      (writeHostsYml lib disk.hosts state.files.hosts (hosts.remove name)) state

def clusterNames (name : String) : List String := [Texts.trim name, kibanaName (Texts.trim name)]

/-- The settings without the hosts of a cluster, and whether they are to be written. -/
def settingsWithoutCluster (name : String) (remaining : KeyedMap String (KnownHost Url))
    (settings : Settings) : Settings × Bool :=
  if settings.activeTarget.any fun target => target ∈ clusterNames name then
    ({ settings with activeTarget := firstHost remaining }, true)
  else (settings, false)

def deleteCluster (disk : Disk) (name : String) (state : Workspace) :
    Except UpsertError Unit × Workspace :=
  match parseHostsYml lib state.files.hosts with
  | .error error => (.error (.hosts error), state)
  | .ok hosts =>
    let remaining := (clusterNames name).foldl KeyedMap.remove hosts
    match Settings.load state.settings with
    | .error error => (.error error, state)
    | .ok settings =>
      match afterHosts disk false
        (writeHostsYml lib disk.hosts state.files.hosts remaining) state with
      | (.error error, state) => (.error error, state)
      | (.ok (), state) =>
        match settingsWithoutCluster name remaining settings with
        | (settings, true) =>
          let saved := settings.save disk.settings
          (saved.1, { state with settings := saved.2 })
        | (_, false) => (.ok (), state)

/-- The clusters and the other hosts, by the rows of their tables. -/
def clusterRows (hosts : KeyedMap String (KnownHost Url)) : List String :=
  (hosts.inOrder.map Prod.fst).filter (isDiagnosticCluster hosts)

def hostRows (hosts : KeyedMap String (KnownHost Url)) : List String :=
  (hosts.inOrder.map Prod.fst).filter fun name =>
    name ∉ (clusterRows hosts).flatMap fun cluster => [cluster, kibanaName cluster]

def rowById (rows : List String) (rowId : ℕ) : Option String :=
  if rowId = 0 then none else rows[rowId - 1]?

def shownHosts (state : Workspace) : KeyedMap String (KnownHost Url) :=
  (parseHostsYml lib state.files.hosts).toOption.getD .empty

/-- `delete_host_row`; a row that is not saved is only taken off the page. -/
def deleteHostRow (disk : Disk) (rowId : ℕ) (state : Workspace) :
    Except UpsertError Unit × Workspace :=
  match rowById (hostRows (shownHosts lib state)) rowId with
  | none => (.ok (), state)
  | some name => deleteHost lib disk name state

/-- `delete_cluster_row`. -/
def deleteClusterRow (disk : Disk) (rowId : ℕ) (state : Workspace) :
    Except UpsertError Unit × Workspace :=
  match rowById (clusterRows (shownHosts lib state)) rowId with
  | none => (.ok (), state)
  | some name => deleteCluster lib disk name state

end Removing

end Esdiag.HostCommands
