import Esdiag.KnownHosts

/-!
The hosts file. An entry with the field `auth` is in one of the older layouts,
and any other is flat; neither may have unknown fields. A file that is read has
its roles normalized and its viewer links checked, and a map that is written is
checked for reserved names, template names and plaintext as well.
-/
namespace Esdiag.HostFiles

open KeyedMaps YamlValues Fields Deployments KnownHosts

structure FlatKnownHostWire (Url : Type) where
  acceptInvalidCerts : Bool
  app : Option Application
  cloudId : Option ElasticCloud
  roles : List HostRole
  secret : Option String
  viewer : Option String
  url : Option Url
  urlTemplate : Option String
  apikey : Option String
  username : Option String
  password : Option String

/-- The layouts of older files, by their authentication. -/
inductive LegacyKnownHostWire (Url : Type) where
  | apiKey (acceptInvalidCerts : Bool) (apikey : Option String) (app : Option Application)
      (cloudId : Option ElasticCloud) (roles : List HostRole) (secret viewer : Option String)
      (url : Url)
  | basic (acceptInvalidCerts : Bool) (app : Option Application) (password : Option String)
      (roles : List HostRole) (secret viewer : Option String) (url : Url)
      (username : Option String)
  | noAuth (acceptInvalidCerts : Bool) (app : Option Application) (roles : List HostRole)
      (viewer : Option String) (url : Url)

section Wire

variable {Url : Type} (lib : UrlLibrary Url)

/-- The application of an entry, where a platform's name stands for none. -/
def deserializeHostApp (value : Yaml) : Option (Option Application) :=
  match value with
  | .null => some none
  | .string text =>
    let trimmed := Texts.trim text
    if trimmed.toList.isEmpty then some none
    else if Texts.toAsciiLowercase trimmed = "unknown" then some none
    else if Texts.toAsciiLowercase trimmed = "none" then some none
    else
      match Application.fromStr trimmed with
      | some app => some (some app)
      | none => if (Platform.fromStr trimmed).isSome then some none else none
  | _ => none

def readRole (value : Yaml) : Option HostRole := value.asString.bind HostRole.ofKey

def readRoles (value : Yaml) : Option (List HostRole) := value.asSequence.bind (readAll readRole)

def readCloud (value : Yaml) : Option ElasticCloud := value.asString.bind ElasticCloud.ofName

def readUrl (value : Yaml) : Option Url := value.asString.bind lib.parse

def denyUnknownFields (known : List String) (fields : Fields) : Option Unit :=
  if fields.all fun field => field.1 ∈ known then some () else none

def readFlatWire (value : Yaml) : Option (FlatKnownHostWire Url) := do
  let fields ← value.asMapping
  denyUnknownFields ["accept_invalid_certs", "app", "cloud_id", "roles", "secret", "viewer",
    "url", "url_template", "apikey", "username", "password"] fields
  let acceptInvalidCerts ← withDefault "accept_invalid_certs" Yaml.asBool false fields
  let app ← withDefault "app" deserializeHostApp none fields
  let cloudId ← ifPresent "cloud_id" readCloud fields
  let roles ← withDefault "roles" readRoles defaultCollectRoles fields
  let secret ← ifPresent "secret" Yaml.asString fields
  let viewer ← ifPresent "viewer" Yaml.asString fields
  let url ← ifPresent "url" (readUrl lib) fields
  let urlTemplate ← ifPresent "url_template" Yaml.asString fields
  let apikey ← ifPresent "apikey" Yaml.asString fields
  let username ← ifPresent "username" Yaml.asString fields
  let password ← ifPresent "password" Yaml.asString fields
  pure { acceptInvalidCerts, app, cloudId, roles, secret, viewer, url, urlTemplate, apikey,
         username, password }

def readApiKeyWire (fields : Fields) : Option (LegacyKnownHostWire Url) := do
  denyUnknownFields ["auth", "accept_invalid_certs", "apikey", "app", "cloud_id", "roles",
    "secret", "viewer", "url"] fields
  let acceptInvalidCerts ← withDefault "accept_invalid_certs" Yaml.asBool false fields
  let apikey ← ifPresent "apikey" Yaml.asString fields
  let app ← withDefault "app" deserializeHostApp none fields
  let cloudId ← ifPresent "cloud_id" readCloud fields
  let roles ← withDefault "roles" readRoles defaultCollectRoles fields
  let secret ← ifPresent "secret" Yaml.asString fields
  let viewer ← ifPresent "viewer" Yaml.asString fields
  let url ← required "url" (readUrl lib) fields
  pure (.apiKey acceptInvalidCerts apikey app cloudId roles secret viewer url)

def readBasicWire (fields : Fields) : Option (LegacyKnownHostWire Url) := do
  denyUnknownFields ["auth", "accept_invalid_certs", "app", "password", "roles", "secret",
    "viewer", "url", "username"] fields
  let acceptInvalidCerts ← withDefault "accept_invalid_certs" Yaml.asBool false fields
  let app ← withDefault "app" deserializeHostApp none fields
  let password ← ifPresent "password" Yaml.asString fields
  let roles ← withDefault "roles" readRoles defaultCollectRoles fields
  let secret ← ifPresent "secret" Yaml.asString fields
  let viewer ← ifPresent "viewer" Yaml.asString fields
  let url ← required "url" (readUrl lib) fields
  let username ← ifPresent "username" Yaml.asString fields
  pure (.basic acceptInvalidCerts app password roles secret viewer url username)

def readNoAuthWire (fields : Fields) : Option (LegacyKnownHostWire Url) := do
  denyUnknownFields ["auth", "accept_invalid_certs", "app", "roles", "viewer", "url"] fields
  let acceptInvalidCerts ← withDefault "accept_invalid_certs" Yaml.asBool false fields
  let app ← withDefault "app" deserializeHostApp none fields
  let roles ← withDefault "roles" readRoles defaultCollectRoles fields
  let viewer ← ifPresent "viewer" Yaml.asString fields
  let url ← required "url" (readUrl lib) fields
  pure (.noAuth acceptInvalidCerts app roles viewer url)

def readLegacyWire (value : Yaml) : Option (LegacyKnownHostWire Url) := do
  let fields ← value.asMapping
  let auth ← required "auth" Yaml.asString fields
  if auth = "ApiKey" then readApiKeyWire lib fields
  else if auth = "Basic" then readBasicWire lib fields
  else if auth = "NoAuth" ∨ auth = "None" then readNoAuthWire lib fields
  else none

def fromFlatWire (wire : FlatKnownHostWire Url) : Except String (KnownHost Url) := do
  let credential ← hostsYmlCredential wire.secret wire.apikey wire.username wire.password
  KnownHost.fromParts lib
    { acceptInvalidCerts := wire.acceptInvalidCerts
      app := wire.app
      cloudId := wire.cloudId
      roles := wire.roles
      viewer := wire.viewer
      url := wire.url
      urlTemplate := wire.urlTemplate
      credential }

def fromLegacyWire : LegacyKnownHostWire Url → Except String (KnownHost Url)
  | .apiKey acceptInvalidCerts apikey app cloudId roles secret viewer url => do
    let credential ← hostsYmlCredential secret apikey none none
    KnownHost.fromParts lib
      ⟨acceptInvalidCerts, app, cloudId, roles, viewer, some url, none, credential⟩
  | .basic acceptInvalidCerts app password roles secret viewer url username => do
    let credential ← hostsYmlCredential secret none username password
    KnownHost.fromParts lib
      ⟨acceptInvalidCerts, app, none, roles, viewer, some url, none, credential⟩
  | .noAuth acceptInvalidCerts app roles viewer url =>
    KnownHost.fromParts lib
      ⟨acceptInvalidCerts, app, none, roles, viewer, some url, none, .none⟩

def readHost (value : Yaml) : Option (KnownHost Url) :=
  match readLegacyWire lib value with
  | some legacy => (fromLegacyWire lib legacy).toOption
  | none => (readFlatWire lib value).bind fun flat => (fromFlatWire lib flat).toOption

/-- The fields that are written of a host; what is as by default is not. -/
def hostFields (host : KnownHost Url) : Fields :=
  present "accept_invalid_certs"
      (if host.acceptInvalidCerts then some (.bool true) else none) ++
    present "app" (host.app.map fun app => .string app.key) ++
    present "cloud_id" (host.cloudId.map fun cloud => .string cloud.name) ++
    present "roles" (if host.roles = defaultCollectRoles then none
      else some (.sequence (host.roles.map fun role => .string role.key))) ++
    present "secret" (host.credential.secretReference.map .string) ++
    present "viewer" (host.viewer.map .string) ++
    present "url" (host.url.map fun url => .string (lib.display url)) ++
    present "url_template" (host.urlTemplate.map .string)

def writeHost (host : KnownHost Url) : Yaml := .mapping (hostFields lib host)

end Wire

inductive HostsFile where
  | absent
  | unparsed
  | document (content : Yaml)

inductive HostsError where
  | unreadable
  | io
  | refused (message : String)
  deriving DecidableEq

section Checks

variable {Url : Type}

def dedupAfter (previous : HostRole) : List HostRole → List HostRole
  | [] => []
  | role :: rest =>
    if role = previous then dedupAfter previous rest else role :: dedupAfter role rest

/-- Of adjacent duplicates the first stays. -/
def dedup : List HostRole → List HostRole
  | [] => []
  | role :: rest => role :: dedupAfter role rest

def normalizeRoles (roles : List HostRole) : List HostRole :=
  dedup ((if roles.isEmpty then [.collect] else roles).insertionSort
    fun a b => a.rank ≤ b.rank)

def validateRole (hostName : String) (app : Option Application) (isTemplate : Bool) :
    HostRole → Except String Unit
  | .collect => .ok ()
  | .send =>
    if app = some .elasticsearch ∨ (app = none ∧ isTemplate) then .ok ()
    else .error ("Host '" ++ hostName ++ "' role 'send' is only valid for Elasticsearch hosts")
  | .view =>
    if app = some .kibana ∨ (app = none ∧ isTemplate) then .ok ()
    else .error ("Host '" ++ hostName ++ "' role 'view' is only valid for Kibana hosts")

/-- The first failure of a check over a list. -/
def checkEach {α ε : Type} (check : α → Except ε Unit) : List α → Except ε Unit
  | [] => .ok ()
  | a :: rest =>
    match check a with
    | .error error => .error error
    | .ok () => checkEach check rest

def normalizeAndValidateRoles (hostName : String) (host : KnownHost Url) :
    Except HostsError (KnownHost Url) :=
  let roles := normalizeRoles host.roles
  match checkEach (validateRole hostName host.app host.urlTemplate.isSome) roles with
  | .error message => .error (.refused message)
  | .ok () => .ok { host with roles }

def validateTemplateHost (hostName : String) (host : KnownHost Url) : Except String Unit :=
  if host.urlTemplate.isSome then validateTemplateHostName hostName else .ok ()

def validateViewerLink (hosts : KeyedMap String (KnownHost Url)) (name : String)
    (host : KnownHost Url) : Except HostsError Unit :=
  match host.viewer with
  | none => .ok ()
  | some viewer =>
    if .send ∉ host.roles then
      .error (.refused ("Host '" ++ name ++ "' sets 'viewer' but does not have required role " ++
        "'send'"))
    else
      match hosts.find? viewer with
      | none =>
        .error (.refused ("Host '" ++ name ++ "' references unknown viewer host '" ++ viewer ++
          "'"))
      | some viewerHost =>
        if .view ∉ viewerHost.roles then
          .error (.refused ("Host '" ++ name ++ "' viewer '" ++ viewer ++ "' must include role " ++
            "'view'"))
        else .ok ()

def validateViewerLinks (hosts : KeyedMap String (KnownHost Url)) : Except HostsError Unit :=
  checkEach (fun entry => validateViewerLink hosts entry.1 entry.2) hosts.entries

/-- The context and the service of a reference to an Elastic CLI context. -/
def splitContextService (value : String) : Except Unit (Option String × String) :=
  match Texts.rsplitOnce '.' value with
  | none => .ok (none, value)
  | some (context, service) =>
    if context = "" ∨ service = "" then .error () else .ok (some context, service)

/-- Whether a name would be read as a reference to an Elastic CLI context, well formed or not. -/
def isContextReference (value : String) : Bool :=
  match Texts.stripPrefix "." value with
  | none => false
  | some reference =>
    if reference = "" ∨ reference.toList.head? = some '.' ∨ reference.toList.head? = some '/' ∨
        '\\' ∈ reference.toList then false
    else
      match Texts.split '/' reference with
      | [] => false
      | [base] =>
        match splitContextService base with
        | .error () => true
        | .ok (_, service) => service ∈ ["es", "elasticsearch", "kb", "kibana", "cloud"]
      | base :: _ :: _ =>
        match splitContextService base with
        | .error () => true
        | .ok (_, service) => service = "cloud"

def isReservedName (name : String) : Bool := isContextReference (Texts.trim name)

end Checks

section Files

variable {Url : Type} (lib : UrlLibrary Url)

def parseHostsYml (file : HostsFile) : Except HostsError (KeyedMap String (KnownHost Url)) :=
  match file with
  | .absent => .ok .empty
  | .unparsed => .error .unreadable
  | .document content => do
    let hosts ← readMap .unreadable (readHost lib) content
    let hosts ← hosts.traverse normalizeAndValidateRoles
    validateViewerLinks hosts
    pure hosts

/-- A reserved name may stay where it already is. -/
def rejectNewReservedNames (file : HostsFile) (hosts : KeyedMap String (KnownHost Url)) :
    Except HostsError Unit :=
  let existing := ((parseHostsYml lib file).toOption.getD .empty).entries.map Prod.fst
  checkEach
    (fun entry =>
      if isReservedName entry.1 && !existing.contains entry.1 then
        .error (.refused ("Host name '" ++ entry.1 ++ "' is reserved for Elastic CLI context " ++
          "references. Choose a name that does not start with '.'."))
      else .ok ())
    hosts.entries

def persistError (name : String) : PersistError → HostsError
  | .legacy =>
    .refused ("Host '" ++ name ++ "' still contains plaintext credentials. Run `esdiag keystore " ++
      "migrate` first.")
  | .runtime =>
    .refused ("Host '" ++ name ++ "' carries runtime credentials, which are never saved. Store " ++
      "them in the keystore and reference them with `--secret <id>`.")

/-- A host as it may be written. -/
def normalizeForWrite (name : String) (host : KnownHost Url) : Except HostsError (KnownHost Url) :=
  match normalizeAndValidateRoles name host with
  | .error error => .error error
  | .ok host =>
    match validateTemplateHost name host with
    | .error message => .error (.refused message)
    | .ok () =>
      match host.credential.persisted with
      | .error error => .error (persistError name error)
      | .ok credential => .ok { host with credential }

def normalizeHosts (file : HostsFile) (hosts : KeyedMap String (KnownHost Url)) :
    Except HostsError (KeyedMap String (KnownHost Url)) := do
  rejectNewReservedNames lib file hosts
  let hosts ← hosts.traverse normalizeForWrite
  validateViewerLinks hosts
  pure hosts

def hostsDocument (hosts : KeyedMap String (KnownHost Url)) : HostsFile :=
  .document (.mapping (hosts.mapValues fun _ host => writeHost lib host).entries)

/-- What the file system does with a write: the file is truncated first. The buffered writer is
dropped without a flush, so that a write whose last part fails is reported as a complete one. -/
inductive HostsWrite where
  | completes
  | createFails
  | interrupted (left : HostsFile)
  | unflushed (left : HostsFile)

def HostsWrite.Flushed (outcome : HostsWrite) : Prop := ∀ left, outcome ≠ .unflushed left

theorem HostsWrite.flushed_completes : HostsWrite.completes.Flushed :=
  fun _ => HostsWrite.noConfusion

def writeHostsYml (outcome : HostsWrite) (file : HostsFile)
    (hosts : KeyedMap String (KnownHost Url)) : Except HostsError Unit × HostsFile :=
  match normalizeHosts lib file hosts with
  | .error error => (.error error, file)
  | .ok hosts =>
    match outcome with
    | .completes => (.ok (), hostsDocument lib hosts)
    | .createFails => (.error .io, file)
    | .interrupted left => (.error .io, left)
    | .unflushed left => (.ok (), left)

end Files

end Esdiag.HostFiles
