import Esdiag.OutputDeployments
import Esdiag.SavedJobs

/-!
Host references: the names by which commands and jobs mean a host. A name is
read as a target of the Elastic CLI, else as a template with an id, else as a
saved host, and every kind resolves to a concrete host with an application and
checked roles. A host of a context has all the roles its service supports and
carries the Kibana host of the same context as its viewer.
-/
namespace Esdiag.HostReferences

open KeyedMaps Deployments KnownHosts HostFiles HostBuilders ElasticContexts ApplicationConfigs
  OutputDeployments

inductive Source where
  | saved
  | template (reference : TemplateReference)
  | elasticContext (target : ElasticContextTarget)

structure HostReference where
  name : String
  source : Source

/-- A host at run time, with the viewer that its context attached. -/
structure RuntimeHost (Url : Type) where
  host : KnownHost Url
  attachedViewer : Option (KnownHost Url)

/-- A host that passed the checks for runtime use, with its application. -/
structure ResolvedHost (Url : Type) extends RuntimeHost Url where
  application : Application
  has_application : host.app = some application
  collectable : application ≠ .agent

/-- The surroundings of a command: hosts, configuration, contexts and files. -/
structure World (Url : Type) where
  system : System
  lib : ServiceLibrary Url
  cloudHost : ElasticContextTarget → Except String (KnownHost Url)
  urlParts : String → Option UrlParts
  parseUrl : String → Option SavedJobs.ParsedUrl
  pathExists : JobModel.PathBuf → Bool
  isDir : JobModel.PathBuf → Bool
  isFile : JobModel.PathBuf → Bool
  errorText : OutputError → String

def templateGuidance (name : String) : String :=
  "Host '" ++ name ++ "' is template-backed and requires an `id` plus an optional `product`. " ++
    "Use `" ++ name ++ "://<id>[/<product>]` and omit `product` to default to `" ++
    defaultTemplateProduct ++ "`."

section Resolving

variable {Url : Type} (world : World Url)

/-- `HostReference::parse`. -/
def parseReference (value : String) : Except String (Option HostReference) :=
  let name := Texts.trim value
  match ElasticContextTarget.parse name with
  | .error error => .error (world.errorText error)
  | .ok (some target) => .ok (some ⟨name, .elasticContext target⟩)
  | .ok none =>
    match parseTemplateReference world.urlParts name with
    | .error message => .error message
    | .ok (some reference) => .ok (some ⟨name, .template reference⟩)
    | .ok none =>
      if (getKnown world.lib world.system name).isSome then .ok (some ⟨name, .saved⟩)
      else .ok none

def renderTemplateReference (host : KnownHost Url) (reference : TemplateReference) :
    Except String (KnownHost Url) :=
  match host.urlTemplate with
  | none => .error "KnownHost is not template-backed"
  | some urlTemplate =>
    let id := Texts.trim reference.id
    if id = "" then .error "Template reference is missing required `id`"
    else
      let product :=
        Texts.toAsciiLowercase (Texts.trim (reference.product.getD defaultTemplateProduct))
      match Application.fromStr product with
      | none => .error ("Unsupported template application '" ++ product ++ "'")
      | some app =>
        match renderUrlTemplateUrl world.lib.toUrlLibrary urlTemplate id product with
        | none => .error "Invalid rendered URL from template host"
        | some url =>
          let builder : KnownHostBuilder Url :=
            { KnownHostBuilder.new url with
              app := some app
              acceptInvalidCerts := host.acceptInvalidCerts
              roles := if host.roles.isEmpty then defaultCollectRoles else host.roles
              viewer := host.viewer }
          (builder.build world.lib.toQueryLibrary).map fun built =>
            { built with credential := host.credential }

def resolveTemplateReference (reference : TemplateReference) : Except String (KnownHost Url) :=
  match getKnown world.lib world.system reference.templateName with
  | none => .error ("Template host '" ++ reference.templateName ++ "' not found")
  | some host =>
    if host.urlTemplate.isNone then
      .error ("Saved host '" ++ reference.templateName ++ "' is not template-backed")
    else renderTemplateReference world host reference

def configService (target : ElasticContextTarget) (kind : ServiceKind) :
    Except OutputError (ContextService Url) :=
  match world.system.elasticConfig with
  | .error error => .error (.context error)
  | .ok none => .error (.refused "Elastic CLI config was not found for context target")
  | .ok (some config) =>
    (resolveConfigService world.lib world.system.resolvers config target.context kind).mapError
      .context

/-- The service of a target: an invocation by the Elastic CLI that names no context
means the active one. -/
def resolveService (target : ElasticContextTarget) (kind : ServiceKind) :
    Except OutputError (ContextService Url) :=
  if target.context.isNone && world.system.isElasticCliInvocation then
    match serviceFromActiveEnvironment world.lib world.system kind with
    | .error error => .error error
    | .ok (some service) => .ok service
    | .ok none => configService world target kind
  else configService world target kind

def contextHost (service : ContextService Url) (app : Application) (roles : List HostRole) :
    Except OutputError (KnownHost Url) :=
  buildHost world.lib { runtimeHost service.url app .collect service.auth with roles }

/-- Whether the active environment, and not the file, has the service of a target. -/
def usesActiveEnvironment (target : ElasticContextTarget) : Except OutputError Bool :=
  if target.context.isNone && world.system.isElasticCliInvocation then
    (serviceFromActiveEnvironment world.lib world.system .elasticsearch).map Option.isSome
  else .ok false

def viewerService (target : ElasticContextTarget) :
    Except OutputError (Option (ContextService Url)) :=
  match usesActiveEnvironment world target with
  | .error error => .error error
  | .ok true => serviceFromActiveEnvironment world.lib world.system .kibana
  | .ok false =>
    match world.system.elasticConfig with
    | .error error => .error (.context error)
    | .ok none => .ok none
    | .ok (some config) =>
      match resolveConfigService world.lib world.system.resolvers config target.context
        .kibana with
      | .ok service => .ok (some service)
      | .error (.missingService _ _) => .ok none
      | .error error => .error (.context error)

def resolveViewer (target : ElasticContextTarget) :
    Except OutputError (Option (KnownHost Url)) :=
  match viewerService world target with
  | .error error => .error error
  | .ok none => .ok none
  | .ok (some service) => (contextHost world service .kibana [.view]).map some

def serviceHost (target : ElasticContextTarget) (kind : ServiceKind) (roles : List HostRole) :
    Except OutputError (KnownHost Url) :=
  match resolveService world target kind with
  | .error error => .error error
  | .ok service => contextHost world service target.application roles

/-- `ElasticContextTarget::resolve_host`; a viewer that fails to resolve is left out. -/
def resolveTarget (target : ElasticContextTarget) : Except String (RuntimeHost Url) :=
  if target.cloudDeployment.isSome then
    (world.cloudHost target).map fun host => ⟨host, none⟩
  else
    match target.application with
    | .elasticsearch =>
      ((serviceHost world target .elasticsearch [.collect, .send]).map fun host =>
        ⟨host, (resolveViewer world target).toOption.join⟩).mapError world.errorText
    | .kibana =>
      ((serviceHost world target .kibana [.collect, .view]).map fun host =>
        ⟨host, none⟩).mapError world.errorText
    | .logstash | .agent =>
      .error ("Application '" ++ target.application.key ++
        "' is not supported by Elastic CLI context targets")

/-- `KnownHost::resolve`. -/
def resolveHost (runtime : RuntimeHost Url) : Except String (ResolvedHost Url) :=
  if runtime.host.urlTemplate.isSome then
    .error "Template-backed hosts must be resolved into a concrete URL before runtime use"
  else
    match happ : runtime.host.app with
    | none =>
      .error ("Host has no application. Set an application before using this concrete host " ++
        "at runtime.")
    | some application =>
      if hagent : application = .agent then
        .error ("Collect is out of scope by design for " ++ application.key ++
          ". Use an existing diagnostic bundle with read/Load instead.")
      else if runtime.host.url.isNone then .error "Resolved host is missing a concrete URL"
      else
        let roles := normalizeRoles runtime.host.roles
        match checkEach (validateRole "<runtime>" runtime.host.app false) roles with
        | .error message => .error message
        | .ok () =>
          .ok
            { host := { runtime.host with roles }
              attachedViewer := runtime.attachedViewer
              application
              has_application := happ
              collectable := hagent }

/-- The host that a reference selects, before the checks for runtime use. -/
def selectedHost (reference : HostReference) : Except String (RuntimeHost Url) :=
  match reference.source with
  | .saved =>
    match getKnown world.lib world.system reference.name with
    | none => .error ("Host '" ++ reference.name ++ "' is no longer configured")
    | some host =>
      if host.urlTemplate.isSome then
        .error (templateGuidance reference.name)
      else .ok ⟨host, none⟩
  | .template template =>
    (resolveTemplateReference world template).map fun host => ⟨host, none⟩
  | .elasticContext target => resolveTarget world target

/-- `HostReference::resolve`. -/
def resolveReference (reference : HostReference) : Except String (ResolvedHost Url) :=
  match selectedHost world reference with
  | .error message => .error message
  | .ok runtime => resolveHost runtime

/-- The host that a name means, where it means one. -/
def lookup (name : String) : Except String (Option (ResolvedHost Url)) :=
  match parseReference world name with
  | .error message => .error message
  | .ok none => .ok none
  | .ok (some reference) => (resolveReference world reference).map some

end Resolving

end Esdiag.HostReferences
