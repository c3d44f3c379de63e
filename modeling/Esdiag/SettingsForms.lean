import Esdiag.HostBuilders
import Esdiag.HostRoundTrip
import Esdiag.KeystoreOperations

/-!
The forms of the settings pages. A form names a host, a cluster or a secret, as
it was and as it is to be, and is checked before anything is read of the files
but the keystore. A cluster is an Elasticsearch host with its Kibana host, which
has the same name with an ending and is named as its viewer.
-/
namespace Esdiag.SettingsForms

open KeyedMaps Deployments Keystores KeystoreOperations KnownHosts HostFiles HostBuilders
  HostRoundTrip Outcomes

structure HostUpsertForm where
  originalName : Option String
  name : String
  auth : String
  app : String
  url : String
  urlTemplate : Option String
  roles : String
  viewer : Option String
  secret : Option String
  acceptInvalidCerts : Option String

structure ClusterUpsertForm where
  originalName : Option String
  name : String
  auth : String
  secret : Option String
  acceptInvalidCerts : Option String
  elasticsearchUrl : String
  kibanaUrl : String

structure SecretUpsertForm where
  originalSecretId : Option String
  secretId : String
  authType : String
  apikey : Option String
  username : Option String
  password : Option String

/-- What the session with the keystore gives when it is asked. -/
structure KeystoreSession where
  isUnlocked : Bool
  password : Option String

inductive UpsertError where
  | refused (message : String)
  | invalidUrl (label : String)
  | hosts (error : HostsError)
  | keystore (error : KeystoreError)
  | settings
  | config
  deriving DecidableEq

def refuseIf (condition : Bool) (message : String) : Except UpsertError Unit :=
  if condition then .error (.refused message) else .ok ()

def toOpt (value : Option String) : Option String :=
  value.bind fun text => if Texts.isBlank text then none else some (Texts.trim text)

def parseRole (text : String) : Except UpsertError HostRole :=
  match HostRole.ofKey (Texts.toLowercase text) with
  | some role => .ok role
  | none => .error (.refused ("Unknown host role '" ++ text ++ "'"))

def parseEach {α ε β : Type} (parse : α → Except ε β) : List α → Except ε (List β)
  | [] => .ok []
  | a :: rest =>
    match parse a with
    | .error error => .error error
    | .ok b => (parseEach parse rest).map (b :: ·)

def parseRoles (value : String) : Except UpsertError (List HostRole) :=
  let parts := ((Texts.split ',' value).map Texts.trim).filter fun part => part ≠ ""
  match parseEach parseRole parts with
  | .error error => .error error
  | .ok [] => .ok [.collect]
  | .ok roles => .ok roles

def parseApplication (value : String) : Except UpsertError (Option Application) :=
  let normalized := Texts.toAsciiLowercase (Texts.trim value)
  if normalized = "" ∨ normalized = "none" ∨ normalized = "unresolved" then .ok none
  else
    match Application.fromStr normalized with
    | some app => .ok (some app)
    | none => .error (.refused "Invalid application: Unknown application")

def currentKeystorePassword (session : KeystoreSession) : Except UpsertError String :=
  match session.password with
  | some password => .ok password
  | none =>
    .error (.refused "Keystore password is not available for the current session.")

section Checks

variable {Url Key : Type} (lib : QueryLibrary Url) (libs : Libraries Key)

/-- The kind of authentication follows from the selected secret, where there is one. -/
def inferAuthFromSecretSelection (session : KeystoreSession) (keystore : SealedFile)
    (secret : Option String) (fallbackAuth : String) : Except UpsertError String :=
  match secret with
  | some secretId =>
    if !session.isUnlocked then
      .error (.refused "Unlock keystore before selecting a secret.")
    else
      match currentKeystorePassword session with
      | .error error => .error error
      | .ok password =>
        match resolveSecretAuth libs keystore secretId password with
        | .error error => .error (.keystore error)
        | .ok (some (.apiKey _)) => .ok "apikey"
        | .ok (some (.basic ..)) => .ok "basic"
        | .ok none => .error (.refused ("Unknown secret_id '" ++ secretId ++ "'"))
  | none =>
    let normalized := Texts.toAsciiLowercase (Texts.trim fallbackAuth)
    if normalized = "" then .ok "none" else .ok normalized

def buildHost (builder : KnownHostBuilder Url) : Except UpsertError (KnownHost Url) :=
  match builder.build lib with
  | .error message => .error (.refused message)
  | .ok host => .ok host

/-- A host that authenticates does so by a secret. -/
def buildWithAuth (auth : String) (secret : Option String) (secretRequired : String)
    (builder : KnownHostBuilder Url) : Except UpsertError (KnownHost Url) :=
  if auth = "none" then buildHost lib builder
  else if auth ∈ ["apikey", "basic", "secret"] then
    match secret with
    | none => .error (.refused secretRequired)
    | some secretId => buildHost lib { builder with secret := some secretId }
  else .error (.refused "Auth type must be one of: none, apikey, basic, secret.")

def parseUrl (label text : String) : Except UpsertError Url :=
  match lib.parse text with
  | some url => .ok url
  | none => .error (.invalidUrl label)

def beginHost (useUrlTemplate : Bool) (target : String) :
    Except UpsertError (KnownHostBuilder Url) :=
  if useUrlTemplate then .ok (.newTemplate target)
  else (parseUrl lib "Invalid URL" target).map KnownHostBuilder.new

/-- A host form is checked, and gives the name and the host. -/
def checkHostForm (session : KeystoreSession) (keystore : SealedFile) (form : HostUpsertForm) :
    Except UpsertError (String × KnownHost Url) := do
  let name := Texts.trim form.name
  refuseIf (name = "") "Host name is required."
  let target := Texts.trim form.url
  refuseIf (target = "") "Host URL or URL template is required."
  let useUrlTemplate := form.urlTemplate.isSome
  let app ← parseApplication (Texts.trim form.app)
  refuseIf (!useUrlTemplate && app.isNone) "Concrete hosts require an application."
  let roles ← parseRoles form.roles
  let viewer := toOpt form.viewer
  let secret := toOpt form.secret
  let acceptInvalidCerts := form.acceptInvalidCerts.isSome
  let auth ← inferAuthFromSecretSelection libs session keystore secret (Texts.trim form.auth)
  let builder ← beginHost lib useUrlTemplate target
  let host ← buildWithAuth lib auth secret
    "Saved authenticated hosts require a secret reference."
    { builder with acceptInvalidCerts, roles, viewer, app }
  pure (name, host)

def kibanaName (name : String) : String := name ++ "-kb"

/-- A cluster form is checked, and gives the name with the two hosts. -/
def checkClusterForm (session : KeystoreSession) (keystore : SealedFile)
    (form : ClusterUpsertForm) : Except UpsertError (String × KnownHost Url × KnownHost Url) := do
  let name := Texts.trim form.name
  refuseIf (name = "") "Diagnostic cluster name is required."
  let elasticsearchUrl ← parseUrl lib "Invalid Elasticsearch URL" (Texts.trim form.elasticsearchUrl)
  let kibanaUrl ← parseUrl lib "Invalid Kibana URL" (Texts.trim form.kibanaUrl)
  let secret := toOpt form.secret
  let acceptInvalidCerts := form.acceptInvalidCerts.isSome
  let auth ← inferAuthFromSecretSelection libs session keystore secret (Texts.trim form.auth)
  let elasticsearchHost ← buildWithAuth lib auth secret
    "Saved authenticated clusters require a secret reference."
    { KnownHostBuilder.new elasticsearchUrl with
      app := some .elasticsearch, acceptInvalidCerts, roles := [.send]
      viewer := some (kibanaName name) }
  let kibanaHost ← buildWithAuth lib auth secret
    "Saved authenticated clusters require a secret reference."
    { KnownHostBuilder.new kibanaUrl with
      app := some .kibana, acceptInvalidCerts, roles := [.view] }
  pure (name, elasticsearchHost, kibanaHost)

def parseFormAuth (form : SecretUpsertForm) : Except UpsertError SecretAuth :=
  let authType := Texts.toAsciiLowercase (Texts.trim form.authType)
  if authType = "apikey" then
    match toOpt form.apikey with
    | some apikey => .ok (.apiKey apikey)
    | none => .error (.refused "apikey is required for ApiKey type.")
  else if authType = "basic" then
    match toOpt form.username, toOpt form.password with
    | some username, some password => .ok (.basic username password)
    | none, _ => .error (.refused "username is required for Basic type.")
    | some _, none => .error (.refused "password is required for Basic type.")
  else .error (.refused "auth_type must be either ApiKey or Basic.")

/-- A secret form is checked, and gives the name, the credential and the password to use. -/
def checkSecretForm (session : KeystoreSession) (form : SecretUpsertForm) :
    Except UpsertError (String × SecretAuth × String) := do
  refuseIf (!session.isUnlocked) "Unlock keystore before editing secrets."
  let secretId := Texts.trim form.secretId
  refuseIf (secretId = "") "secret_id is required."
  let password ← currentKeystorePassword session
  let auth ← parseFormAuth form
  pure (secretId, auth, password)

variable {lib libs}

theorem buildHost_eq_ok {builder : KnownHostBuilder Url} {host : KnownHost Url}
    (h : buildHost lib builder = .ok host) :
    ∃ parts : KnownHost Url, KnownHost.fromParts lib.toUrlLibrary parts = .ok host := by
  unfold buildHost at h
  cases hbuilt : builder.build lib with
  | error message => simp [hbuilt] at h
  | ok built =>
    obtain rfl : built = host := by simpa [hbuilt] using h
    exact KnownHostBuilder.build_eq_ok hbuilt

theorem buildWithAuth_eq_ok {auth : String} {secret : Option String} {secretRequired : String}
    {builder : KnownHostBuilder Url} {host : KnownHost Url}
    (h : buildWithAuth lib auth secret secretRequired builder = .ok host) :
    ∃ parts : KnownHost Url, KnownHost.fromParts lib.toUrlLibrary parts = .ok host := by
  unfold buildWithAuth at h
  split at h
  · exact buildHost_eq_ok h
  · split at h
    · cases secret with
      | none => cases h
      | some secretId => exact buildHost_eq_ok h
    · cases h

/-- What a form of a host names is trimmed, and the host is made of parts. -/
theorem checkHostForm_eq_ok {session : KeystoreSession} {keystore : SealedFile}
    {form : HostUpsertForm} {checked : String × KnownHost Url}
    (h : checkHostForm lib libs session keystore form = .ok checked) :
    checked.1 = Texts.trim form.name ∧
      ∃ parts : KnownHost Url, KnownHost.fromParts lib.toUrlLibrary parts = .ok checked.2 := by
  obtain ⟨_, -, h⟩ := bind_eq_ok h
  obtain ⟨_, -, h⟩ := bind_eq_ok h
  obtain ⟨app, -, h⟩ := bind_eq_ok h
  obtain ⟨_, -, h⟩ := bind_eq_ok h
  obtain ⟨roles, -, h⟩ := bind_eq_ok h
  obtain ⟨auth, -, h⟩ := bind_eq_ok h
  obtain ⟨builder, -, h⟩ := bind_eq_ok h
  obtain ⟨host, hhost, h⟩ := bind_eq_ok h
  obtain rfl := Except.ok.inj h
  exact ⟨rfl, buildWithAuth_eq_ok hhost⟩

theorem checkClusterForm_eq_ok {session : KeystoreSession} {keystore : SealedFile}
    {form : ClusterUpsertForm} {checked : String × KnownHost Url × KnownHost Url}
    (h : checkClusterForm lib libs session keystore form = .ok checked) :
    checked.1 = Texts.trim form.name ∧
      (∃ parts : KnownHost Url, KnownHost.fromParts lib.toUrlLibrary parts = .ok checked.2.1) ∧
      ∃ parts : KnownHost Url, KnownHost.fromParts lib.toUrlLibrary parts = .ok checked.2.2 := by
  obtain ⟨_, -, h⟩ := bind_eq_ok h
  obtain ⟨elasticsearchUrl, -, h⟩ := bind_eq_ok h
  obtain ⟨kibanaUrl, -, h⟩ := bind_eq_ok h
  obtain ⟨auth, -, h⟩ := bind_eq_ok h
  obtain ⟨elasticsearchHost, helasticsearch, h⟩ := bind_eq_ok h
  obtain ⟨kibanaHost, hkibana, h⟩ := bind_eq_ok h
  obtain rfl := Except.ok.inj h
  exact ⟨rfl, buildWithAuth_eq_ok helasticsearch, buildWithAuth_eq_ok hkibana⟩

theorem checkSecretForm_eq_ok {session : KeystoreSession} {form : SecretUpsertForm}
    {checked : String × SecretAuth × String} (h : checkSecretForm session form = .ok checked) :
    checked.1 = Texts.trim form.secretId ∧ session.password = some checked.2.2 := by
  obtain ⟨_, -, h⟩ := bind_eq_ok h
  obtain ⟨_, -, h⟩ := bind_eq_ok h
  obtain ⟨password, hpassword, h⟩ := bind_eq_ok h
  obtain ⟨auth, -, h⟩ := bind_eq_ok h
  obtain rfl := Except.ok.inj h
  refine ⟨rfl, ?_⟩
  unfold currentKeystorePassword at hpassword
  cases hsession : session.password with
  | none => simp [hsession] at hpassword
  | some given =>
    rw [hsession] at hpassword
    rw [Except.ok.inj hpassword]

end Checks

section Clusters

variable {Url : Type}

/-- The kind of a credential, as the pages show it. -/
def credentialLabel (credential : Credential) : String :=
  if credential.secretReference.isSome then "secret"
  else
    match credential with
    | .runtime (.apiKey _) | .legacy (.apiKey _) _ => "apikey"
    | .runtime (.basic ..) | .legacy (.basic ..) _ => "basic"
    | _ => "none"

/-- Whether a host and its Kibana host are shown as one cluster. -/
def isDiagnosticCluster (hosts : KeyedMap String (KnownHost Url)) (name : String) : Bool :=
  match hosts.find? name, hosts.find? (kibanaName name) with
  | some host, some kibanaHost =>
    host.app = some .elasticsearch && host.roles.contains .send &&
      host.viewer = some (kibanaName name) &&
      kibanaHost.app = some .kibana && kibanaHost.roles.contains .view &&
      credentialLabel host.credential = credentialLabel kibanaHost.credential &&
      host.credential.secretReference.getD "" = kibanaHost.credential.secretReference.getD "" &&
      host.acceptInvalidCerts = kibanaHost.acceptInvalidCerts &&
      host.credential.legacyAuth.isNone && kibanaHost.credential.legacyAuth.isNone &&
      host.url.isSome && kibanaHost.url.isSome
  | _, _ => false

end Clusters

end Esdiag.SettingsForms
