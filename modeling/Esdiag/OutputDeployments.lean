import Esdiag.ApplicationConfigs
import Esdiag.ElasticContexts
import Esdiag.HostRoundTrip

/-!
The deployment that diagnostics are sent to: an Elasticsearch host and, where one
is asked for, the Kibana host that shows its data, each with a credential. It is
named explicitly, or else by the configured context of the Elastic CLI, or else
declared by the environment, or else saved as the default. Every host and every
credential comes from the source that is selected so.
-/
namespace Esdiag.OutputDeployments

open KeyedMaps Deployments Keystores KeystoreOperations KnownHosts HostFiles HostBuilders
  HostRoundTrip KeystoreMigration ApplicationConfigs ElasticContexts

/-- All that the resolution of an output reads. -/
structure System where
  config : ConfigFile
  env : String → EnvValue
  invokedAs : Option String
  hosts : HostsFile
  keystore : SealedFile
  keystorePassword : Option String
  elasticConfig : Except ContextError (Option ElasticConfig)
  external : String → String → String → Except ContextError String

namespace System

def resolvers (system : System) : Resolvers := ⟨system.env, system.external⟩

def isElasticCliInvocation (system : System) : Bool :=
  system.env "ESDIAG_ELASTIC_CLI" = .text "1" ||
    system.invokedAs = some "elastic-diag" || system.invokedAs = some "elastic-diag.exe"

end System

inductive OutputError where
  | refused (message : String)
  | invalidUrl (label : String)
  | config (error : ConfigError)
  | context (error : ContextError)
  | credential (error : ResolveError)
  deriving DecidableEq

structure ElasticContextTarget where
  context : Option String
  application : Application
  cloudDeployment : Option String
  deriving DecidableEq

namespace ElasticContextTarget

def splitService (value : String) : Except OutputError (Option String × String) :=
  match splitContextService value with
  | .error () =>
    .error (.refused "Elastic CLI context reference has an empty context or service")
  | .ok parts => .ok parts

def parseCloudSegments (base : String) (rest : List String) :
    Except OutputError (Option ElasticContextTarget) :=
  match splitService base with
  | .error error => .error error
  | .ok (context, service) =>
    if service ≠ "cloud" then .ok none
    else
      match rest with
      | [deployment, application] =>
        if deployment = "" ∨ application = "" then .error (.refused cloudReference)
        else
          match Application.fromStr application with
          | none =>
            .error (.refused ("Unsupported Elastic Cloud proxy application '" ++ application ++
              "'"))
          | some .elasticsearch => .ok (some ⟨context, .elasticsearch, some deployment⟩)
          | some _ =>
            .error (.refused ("Elastic Cloud proxy application '" ++ application ++
              "' is not supported; use 'es' or 'elasticsearch'"))
      | _ => .error (.refused cloudReference)
where
  cloudReference := "Elastic Cloud targets require '.cloud/<deployment-id>/<application>' or " ++
    "'.context.cloud/<deployment-id>/<application>'"

/-- Read a reference to a context; a value that is none may still name something else. -/
def parse (value : String) : Except OutputError (Option ElasticContextTarget) :=
  match Texts.stripPrefix "." value with
  | none => .ok none
  | some reference =>
    if reference = "" ∨ reference.toList.head? = some '.' ∨ reference.toList.head? = some '/' ∨
        '\\' ∈ reference.toList then .ok none
    else
      match Texts.split '/' reference with
      | [] => .ok none
      | [base] =>
        match splitService base with
        | .error error => .error error
        | .ok (context, service) =>
          if service ∈ ["es", "elasticsearch"] then
            .ok (some ⟨context, .elasticsearch, none⟩)
          else if service ∈ ["kb", "kibana"] then .ok (some ⟨context, .kibana, none⟩)
          else if service = "cloud" then
            .error (.refused ("Elastic Cloud target '" ++ value ++ "' requires a deployment " ++
              "identifier and application, for example '" ++ value ++ "/<deployment-id>/es'"))
          else .ok none
      | base :: rest => parseCloudSegments base rest

end ElasticContextTarget

inductive OutputDeploymentSource where
  | explicit
  | elasticContext
  | environment
  | persisted
  deriving DecidableEq

structure OutputHosts (Url : Type) where
  elasticsearch : KnownHost Url
  elasticsearchAuth : Auth
  kibana : Option (KnownHost Url)
  kibanaAuth : Option Auth

/-- One output, with the Kibana host attached to the Elasticsearch host as its viewer. -/
structure OutputDeployment (Url : Type) extends OutputHosts Url where
  source : OutputDeploymentSource
  attachedViewer : Option (KnownHost Url)

def OutputDeployment.assemble {Url : Type} (source : OutputDeploymentSource)
    (hosts : OutputHosts Url) : OutputDeployment Url :=
  { hosts with source, attachedViewer := hosts.kibana }

section Resolution

variable {Url : Type} (lib : ServiceLibrary Url)

def activeNames : ServiceKind → String × String × String × String
  | .elasticsearch =>
    ("ELASTIC_ES_URL", "ELASTIC_ES_API_KEY", "ELASTIC_ES_USERNAME", "ELASTIC_ES_PASSWORD")
  | .kibana =>
    ("ELASTIC_KIBANA_URL", "ELASTIC_KIBANA_API_KEY", "ELASTIC_KIBANA_USERNAME",
      "ELASTIC_KIBANA_PASSWORD")

def serviceFromActiveEnvironment (system : System) (kind : ServiceKind) :
    Except OutputError (Option (ContextService Url)) :=
  let (urlName, apiKeyName, usernameName, passwordName) := activeNames kind
  match (system.env urlName).notBlank with
  | none => .ok none
  | some url =>
    match (system.env apiKeyName).notBlank, (system.env usernameName).notBlank,
      (system.env passwordName).notBlank with
    | some apiKey, none, none => service url (.apikey apiKey)
    | none, some username, some password => service url (.basic username password)
    | none, none, none => service url .none
    | some _, _, _ =>
      .error (.refused (apiKeyName ++ " cannot be combined with " ++ usernameName ++ " or " ++
        passwordName))
    | _, _, _ =>
      .error (.refused (usernameName ++ " and " ++ passwordName ++
        " must be configured together"))
where
  service (url : String) (auth : Auth) : Except OutputError (Option (ContextService Url)) :=
    match lib.parse url with
    | none => .error (.invalidUrl "")
    | some url => .ok (some ⟨url, auth⟩)

def buildHost (builder : KnownHostBuilder Url) : Except OutputError (KnownHost Url) :=
  (builder.build lib.toQueryLibrary).mapError .refused

def runtimeHost (url : Url) (app : Application) (role : HostRole) (auth : Auth) :
    KnownHostBuilder Url :=
  { KnownHostBuilder.new url with app := some app, roles := [role], auth }

def knownHostFromService (service : ContextService Url) (app : Application) (role : HostRole) :
    Except OutputError (KnownHost Url) :=
  buildHost lib (runtimeHost service.url app role service.auth)

def activeKibana (service : Option (ContextService Url)) :
    Except OutputError (Option (KnownHost Url)) :=
  match service with
  | none => .ok none
  | some service => (knownHostFromService lib service .kibana .view).map some

variable (resolveAuth : Credential → Except OutputError Auth)

def optionalAuth (host : Option (KnownHost Url)) : Except OutputError (Option Auth) :=
  match host with
  | none => .ok none
  | some host => (resolveAuth host.credential).map some

def activeOutputHosts (system : System) (es : ContextService Url) (requireKibana : Bool) :
    Except OutputError (OutputHosts Url) := do
  let elasticsearch ← knownHostFromService lib es .elasticsearch .send
  let elasticsearchAuth ← resolveAuth elasticsearch.credential
  let service ← serviceFromActiveEnvironment lib system .kibana
  let kibana ← activeKibana lib service
  if requireKibana && kibana.isNone then
    .error (.refused "Active Elastic CLI output context has no Kibana service")
  else
    let kibanaAuth ← optionalAuth resolveAuth kibana
    pure ⟨elasticsearch, elasticsearchAuth, kibana, kibanaAuth⟩

/-- The Kibana host of a context, which may have none where none is required. -/
def contextKibana (resolvers : Resolvers) (config : ElasticConfig) (context : Option String)
    (requireKibana : Bool) : Except OutputError (Option (KnownHost Url)) :=
  match resolveConfigService lib resolvers config context .kibana with
  | .ok service => (knownHostFromService lib service .kibana .view).map some
  | .error (.missingService name service) =>
    if requireKibana then .error (.context (.missingService name service)) else .ok none
  | .error error => .error (.context error)

def configOutputHosts (system : System) (context : Option String) (requireKibana : Bool) :
    Except OutputError (OutputHosts Url) :=
  match system.elasticConfig with
  | .error error => .error (.context error)
  | .ok none =>
    .error (.refused "Elastic CLI config was not found while resolving the output deployment")
  | .ok (some config) => do
    let es ← (resolveConfigService lib system.resolvers config context .elasticsearch).mapError
      .context
    let elasticsearch ← knownHostFromService lib es .elasticsearch .send
    let elasticsearchAuth ← resolveAuth elasticsearch.credential
    let kibana ← contextKibana lib system.resolvers config context requireKibana
    let kibanaAuth ← optionalAuth resolveAuth kibana
    pure ⟨elasticsearch, elasticsearchAuth, kibana, kibanaAuth⟩

def resolveOutputHosts (system : System) (context : Option String) (requireKibana : Bool) :
    Except OutputError (OutputHosts Url) :=
  if context.isNone && system.isElasticCliInvocation then
    match serviceFromActiveEnvironment lib system .elasticsearch with
    | .error error => .error error
    | .ok (some es) => activeOutputHosts lib resolveAuth system es requireKibana
    | .ok none => configOutputHosts lib resolveAuth system context requireKibana
  else configOutputHosts lib resolveAuth system context requireKibana

def getKnown (system : System) (name : String) : Option (KnownHost Url) :=
  (parseHostsYml lib.toUrlLibrary system.hosts).toOption.bind fun hosts => hosts.find? name

def validateSendHost (host : KnownHost Url) (context : String) : Except OutputError Unit :=
  if host.app ≠ some .elasticsearch ∨ .send ∉ host.roles then
    .error (.refused (context ++ " must be an Elasticsearch host with role 'send'"))
  else .ok ()

def validateViewHost (host : KnownHost Url) (name : String) : Except OutputError Unit :=
  if host.app ≠ some .kibana ∨ .view ∉ host.roles then
    .error (.refused ("Output deployment viewer '" ++ name ++
      "' must be a Kibana host with role 'view'"))
  else .ok ()

/-- The Kibana host that a saved host names as its viewer. -/
def linkedViewer (system : System) (elasticsearch : KnownHost Url) :
    Except OutputError (Option (KnownHost Url × Auth)) :=
  match elasticsearch.viewer with
  | none => .ok none
  | some viewerName =>
    match getKnown lib system viewerName with
    | none =>
      .error (.refused ("Output deployment viewer '" ++ viewerName ++ "' was not found"))
    | some viewer => do
      validateViewHost viewer viewerName
      let auth ← resolveAuth viewer.credential
      pure (some (viewer, auth))

def fromSaved (system : System) (elasticsearch : KnownHost Url) (requireKibana : Bool) :
    Except OutputError (OutputHosts Url) := do
  validateSendHost elasticsearch "output deployment"
  let elasticsearchAuth ← resolveAuth elasticsearch.credential
  if requireKibana then
    if elasticsearch.viewer.isNone then
      .error (.refused "Output deployment requires a linked Kibana viewer")
    else
      let viewer ← linkedViewer lib resolveAuth system elasticsearch
      pure ⟨elasticsearch, elasticsearchAuth, viewer.map Prod.fst, viewer.map Prod.snd⟩
  else pure ⟨elasticsearch, elasticsearchAuth, none, none⟩

def targetOutputHosts (system : System) (target : ElasticContextTarget) (requireKibana : Bool) :
    Except OutputError (OutputHosts Url) :=
  if target.cloudDeployment.isSome then
    .error (.refused "Elastic Cloud admin references cannot be used as output deployments")
  else if target.application ≠ .elasticsearch then
    .error (.refused "Elastic CLI output targets must select the Elasticsearch application")
  else resolveOutputHosts lib resolveAuth system target.context requireKibana

def fromExplicit (system : System) (target : String) (requireKibana : Bool) :
    Except OutputError (OutputHosts Url) :=
  match ElasticContextTarget.parse target with
  | .error error => .error error
  | .ok (some target) => targetOutputHosts lib resolveAuth system target requireKibana
  | .ok none =>
    match getKnown lib system target with
    | none =>
      .error (.refused ("Explicit output deployment target '" ++ target ++
        "' must be a saved Elasticsearch host"))
    | some output => fromSaved lib resolveAuth system output requireKibana

def requiredEnvironment (system : System) (name : String) : Except OutputError String :=
  match (system.env name).var with
  | none => .error (.refused (name ++ " is not defined"))
  | some value =>
    if Texts.isBlank value then .error (.refused (name ++ " is empty")) else .ok value

def environmentAuth (system : System) : Except OutputError Auth :=
  match (system.env "ESDIAG_OUTPUT_APIKEY").notBlank,
    (system.env "ESDIAG_OUTPUT_USERNAME").notBlank,
    (system.env "ESDIAG_OUTPUT_PASSWORD").notBlank with
  | some apikey, none, none => .ok (.apikey apikey)
  | none, some username, some password => .ok (.basic username password)
  | none, none, none => .ok .none
  | some _, _, _ =>
    .error (.refused ("ESDIAG_OUTPUT_APIKEY cannot be combined with ESDIAG_OUTPUT_USERNAME or " ++
      "ESDIAG_OUTPUT_PASSWORD"))
  | _, _, _ =>
    .error (.refused ("ESDIAG_OUTPUT_USERNAME and ESDIAG_OUTPUT_PASSWORD must be configured " ++
      "together"))

/-- The declared Kibana host, with the credential of the declared output. -/
def environmentKibana (auth : Auth) (kibanaUrl : String) :
    Except OutputError (KnownHost Url × Auth) :=
  match lib.parse kibanaUrl with
  | none => .error (.invalidUrl "ESDIAG_KIBANA_URL is not a valid URL")
  | some url => do
    let kibana ← buildHost lib (runtimeHost url .kibana .view auth)
    let auth ← resolveAuth kibana.credential
    pure (kibana, auth)

def fromEnvironment (system : System) (requireKibana : Bool) :
    Except OutputError (OutputHosts Url) := do
  let outputUrl ← requiredEnvironment system "ESDIAG_OUTPUT_URL"
  let auth ← environmentAuth system
  match lib.parse outputUrl with
  | none => .error (.invalidUrl "")
  | some url =>
    let elasticsearch ← buildHost lib (runtimeHost url .elasticsearch .send auth)
    let elasticsearchAuth ← resolveAuth elasticsearch.credential
    if requireKibana then
      let kibanaUrl ← requiredEnvironment system "ESDIAG_KIBANA_URL"
      let kibana ← environmentKibana lib resolveAuth auth kibanaUrl
      pure ⟨elasticsearch, elasticsearchAuth, some kibana.1, some kibana.2⟩
    else
      -- A viewer that is not required is left out when it cannot be used.
      let kibana := (system.env "ESDIAG_KIBANA_URL").notBlank.bind fun kibanaUrl =>
        (environmentKibana lib resolveAuth auth kibanaUrl).toOption
      pure ⟨elasticsearch, elasticsearchAuth, kibana.map Prod.fst, kibana.map Prod.snd⟩

def persistedOutput (system : System) : Except OutputError (KnownHost Url) :=
  match ApplicationConfig.load system.config with
  | .error error => .error (.config error)
  | .ok config =>
    match config.output.default with
    | none =>
      .error (.refused ("No output deployment is configured. Run `esdiag init` or provide an " ++
        "explicit output target."))
    | some outputName =>
      match getKnown lib system outputName with
      | none => .error (.refused ("Configured output host '" ++ outputName ++ "' was not found"))
      | some output => .ok output

def fromPersisted (system : System) (requireKibana : Bool) :
    Except OutputError (OutputHosts Url) := do
  let output ← persistedOutput lib system
  fromSaved lib resolveAuth system output requireKibana

def runtimeOutputIsDeclared (system : System) : Bool := (system.env "ESDIAG_OUTPUT_URL").isSet

/-- Resolve an output with a given way to produce credentials. -/
def resolveWith (system : System) (explicitTarget : Option String) (requireKibana : Bool) :
    Except OutputError (OutputDeployment Url) :=
  match explicitTarget with
  | some target =>
    (fromExplicit lib resolveAuth system target requireKibana).map (.assemble .explicit)
  | none =>
    match ApplicationConfig.load system.config with
    | .error error => .error (.config error)
    | .ok config =>
      match config.output.elasticContext with
      | some context =>
        (resolveOutputHosts lib resolveAuth system (some context.context) requireKibana).map
          (.assemble .elasticContext)
      | none =>
        if runtimeOutputIsDeclared system then
          (fromEnvironment lib resolveAuth system requireKibana).map (.assemble .environment)
        else
          (fromPersisted lib resolveAuth system requireKibana).map (.assemble .persisted)

variable {Key : Type} (libs : Libraries Key)

/-- The credential material of a host, with the keystore unlocked when it is needed. -/
def systemAuth (system : System) (credential : Credential) : Except OutputError Auth :=
  (KeystoreMigration.resolve libs system.keystore system.keystorePassword credential).mapError
    .credential

def resolve (system : System) (explicitTarget : Option String) (requireKibana : Bool) :
    Except OutputError (OutputDeployment Url) :=
  resolveWith lib (systemAuth libs system) system explicitTarget requireKibana

end Resolution

end Esdiag.OutputDeployments
