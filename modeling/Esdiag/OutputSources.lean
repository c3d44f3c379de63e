import Esdiag.Outcomes
import Esdiag.OutputDeployments

/-!
One output comes from one source. Which source is selected depends on the
explicit target, on the configuration and on whether the environment declares an
output. Two systems that agree on the selected source resolve to the same hosts
and credentials, or to the same failure, whatever the sources below it hold. A
context of the Elastic CLI holds what its expressions refer to as well.
-/
namespace Esdiag.OutputSources

open KeyedMaps Deployments Keystores KeystoreOperations KnownHosts HostFiles HostBuilders
  HostRoundTrip ApplicationConfigs ElasticContexts OutputDeployments Outcomes
open KeystoreMigration (resolveKeystoreSecret)

section Builders

variable {Url : Type} {lib : ServiceLibrary Url}

/-- A host that is built with an authentication keeps its application and its role, and
refers to no secret. -/
theorem runtimeHost_built {url : Url} {app : Application} {role : HostRole} {auth : Auth}
    {host : KnownHost Url} (h : buildHost lib (runtimeHost url app role auth) = .ok host) :
    host.app = some app ∧ host.roles = [role] ∧ host.credential.secretReference = none := by
  unfold buildHost KnownHostBuilder.build at h
  set builder := (runtimeHost url app role auth).updateCloudApiPath lib.toQueryLibrary with hbuilder
  have hparts : builder.app = some app ∧ builder.roles = [role] ∧ builder.secret = none ∧
      builder.auth = auth := by
    rw [hbuilder]
    unfold KnownHostBuilder.updateCloudApiPath runtimeHost
    simp only [KnownHostBuilder.new]
    split <;> exact ⟨rfl, rfl, rfl, rfl⟩
  obtain ⟨happ, hroles, hsecret, hauth⟩ := hparts
  have hcredential : builder.credential = .ok (Credential.ofRuntime auth) := by
    unfold KnownHostBuilder.credential
    rw [hsecret, hauth]
  simp only [hcredential] at h
  cases hhost : KnownHost.fromParts lib.toUrlLibrary
      { acceptInvalidCerts := builder.acceptInvalidCerts
        app := builder.app
        cloudId := builder.cloudId
        roles := builder.roles
        viewer := builder.viewer
        url := builder.url
        urlTemplate := builder.urlTemplate
        credential := Credential.ofRuntime auth } with
  | error message => simp [hhost, Except.mapError] at h
  | ok built =>
    obtain rfl : built = host := by simpa [hhost, Except.mapError] using h
    obtain ⟨hkeptApp, hkeptRoles, hkept⟩ := kept_of_fromParts hhost
    refine ⟨hkeptApp.trans happ, hkeptRoles.trans hroles, ?_⟩
    rw [hkept]
    cases auth <;> rfl

theorem runtimeHost_reference {url : Url} {app : Application} {role : HostRole} {auth : Auth}
    {host : KnownHost Url} (h : buildHost lib (runtimeHost url app role auth) = .ok host) :
    host.credential.secretReference = none := (runtimeHost_built h).2.2

end Builders

section Agreement

variable {Url Key : Type} (lib : ServiceLibrary Url) (libs : Libraries Key)

/-- A source of an output, as the precedence selects it. -/
inductive Source where
  | explicit (target : String)
  | elasticContext (context : ElasticOutputContext)
  | environment
  | persisted (name : Option String)
  deriving DecidableEq

/-- The precedence of the sources. -/
def selectSource (explicitTarget : Option String) (system : System) :
    Except ConfigError Source :=
  match explicitTarget with
  | some target => .ok (.explicit target)
  | none =>
    match ApplicationConfig.load system.config with
    | .error error => .error error
    | .ok config =>
      match config.output.elasticContext with
      | some context => .ok (.elasticContext context)
      | none =>
        if runtimeOutputIsDeclared system then .ok .environment
        else .ok (.persisted config.output.default)

def activeVariables : List String :=
  ["ELASTIC_ES_URL", "ELASTIC_ES_API_KEY", "ELASTIC_ES_USERNAME", "ELASTIC_ES_PASSWORD",
    "ELASTIC_KIBANA_URL", "ELASTIC_KIBANA_API_KEY", "ELASTIC_KIBANA_USERNAME",
    "ELASTIC_KIBANA_PASSWORD"]

def outputVariables : List String :=
  ["ESDIAG_OUTPUT_URL", "ESDIAG_OUTPUT_APIKEY", "ESDIAG_OUTPUT_USERNAME",
    "ESDIAG_OUTPUT_PASSWORD", "ESDIAG_KIBANA_URL"]

/-- The texts of a context that may hold expressions. -/
def contextTexts (config : ElasticConfig) (context : Option String) : List String :=
  match config.contexts.find? (context.getD config.currentContext) with
  | none => []
  | some services =>
    (services.elasticsearch.map ServiceConfig.texts).getD [] ++
      (services.kibana.map ServiceConfig.texts).getD []

/-- Agreement on a context: the file, what its expressions refer to, and for the unnamed
context what the Elastic CLI declares. -/
structure AgreeOnContext (context : Option String) (s t : System) : Prop where
  elasticConfig : s.elasticConfig = t.elasticConfig
  external : s.external = t.external
  named : ∀ config, s.elasticConfig = .ok (some config) →
    ∀ text ∈ contextTexts config context, ∀ name ∈ namedVariables text, s.env name = t.env name
  invocation : context = none → s.isElasticCliInvocation = t.isElasticCliInvocation
  active : context = none → ∀ name ∈ activeVariables, s.env name = t.env name

def AgreeOnSecret (credential : Credential) (s t : System) : Prop :=
  ∀ secretId, credential.secretReference = some secretId →
    resolveKeystoreSecret libs s.keystore s.keystorePassword secretId =
      resolveKeystoreSecret libs t.keystore t.keystorePassword secretId

/-- Agreement on a saved host: its entry, the entry of its viewer, and their secrets. -/
structure AgreeOnHost (name : String) (s t : System) : Prop where
  host : getKnown lib s name = getKnown lib t name
  secret : ∀ host, getKnown lib s name = some host → AgreeOnSecret libs host.credential s t
  viewer : ∀ host viewerName, getKnown lib s name = some host → host.viewer = some viewerName →
    getKnown lib s viewerName = getKnown lib t viewerName ∧
      ∀ viewer, getKnown lib s viewerName = some viewer → AgreeOnSecret libs viewer.credential s t

/-- Agreement on a source, which says nothing of the others. -/
def AgreeOn (source : Source) (s t : System) : Prop :=
  match source with
  | .explicit target =>
    match ElasticContextTarget.parse target with
    | .error _ => True
    | .ok (some target) => AgreeOnContext target.context s t
    | .ok none => AgreeOnHost lib libs target s t
  | .elasticContext context => AgreeOnContext (some context.context) s t
  | .environment => ∀ name ∈ outputVariables, s.env name = t.env name
  | .persisted none => True
  | .persisted (some name) => AgreeOnHost lib libs name s t

end Agreement

section Congruence

variable {Url Key : Type} {lib : ServiceLibrary Url} {libs : Libraries Key} {s t : System}

/-- What resolves without the keystore resolves alike everywhere. -/
theorem systemAuth_of_reference {credential : Credential}
    (h : AgreeOnSecret libs credential s t) :
    systemAuth libs s credential = systemAuth libs t credential := by
  unfold systemAuth
  congr 1
  cases credential with
  | none => rfl
  | runtime auth => rfl
  | keystore secret => exact h secret rfl
  | legacy auth secret =>
    cases secret with
    | none => rfl
    | some secret => exact h secret rfl

theorem systemAuth_of_none {credential : Credential} (h : credential.secretReference = none) :
    systemAuth libs s credential = systemAuth libs t credential := by
  apply systemAuth_of_reference
  intro secretId hsome
  rw [h] at hsome
  cases hsome

theorem optionalAuth_congr {host : Option (KnownHost Url)}
    (h : ∀ one, host = some one → one.credential.secretReference = none) :
    optionalAuth (systemAuth libs s) host = optionalAuth (systemAuth libs t) host := by
  cases host with
  | none => rfl
  | some one =>
    unfold optionalAuth
    simp only [systemAuth_of_none (s := s) (t := t) (h one rfl)]

theorem serviceFromActiveEnvironment_congr (h : ∀ name ∈ activeVariables, s.env name = t.env name)
    (kind : ServiceKind) :
    serviceFromActiveEnvironment lib s kind = serviceFromActiveEnvironment lib t kind := by
  unfold serviceFromActiveEnvironment
  cases kind with
  | elasticsearch =>
    simp only [activeNames, h "ELASTIC_ES_URL" (by simp [activeVariables]),
      h "ELASTIC_ES_API_KEY" (by simp [activeVariables]),
      h "ELASTIC_ES_USERNAME" (by simp [activeVariables]),
      h "ELASTIC_ES_PASSWORD" (by simp [activeVariables])]
  | kibana =>
    simp only [activeNames, h "ELASTIC_KIBANA_URL" (by simp [activeVariables]),
      h "ELASTIC_KIBANA_API_KEY" (by simp [activeVariables]),
      h "ELASTIC_KIBANA_USERNAME" (by simp [activeVariables]),
      h "ELASTIC_KIBANA_PASSWORD" (by simp [activeVariables])]

theorem authConfig_resolve_congr {resolvers resolvers' : Resolvers} {auth : AuthConfig}
    (context service : String)
    (henv : ∀ text ∈ auth.texts, ∀ name ∈ namedVariables text,
      resolvers.env name = resolvers'.env name)
    (hexternal : resolvers.external = resolvers'.external) :
    auth.resolve resolvers context service = auth.resolve resolvers' context service := by
  have hfield : ∀ field text, text ∈ auth.texts → resolveStringExpressions resolvers field text =
      resolveStringExpressions resolvers' field text :=
    fun field text htext => resolveStringExpressions_congr field text (henv text htext) hexternal
  obtain ⟨apiKey, username, password⟩ := auth
  unfold AuthConfig.resolve
  cases apiKey with
  | some apiKey =>
    have hapiKey := fun field => hfield field apiKey (by simp [AuthConfig.texts])
    cases username <;> cases password <;> simp only [hapiKey]
  | none =>
    cases username with
    | none => cases password <;> rfl
    | some username =>
      have husername := fun field => hfield field username (by simp [AuthConfig.texts])
      cases password with
      | none => rfl
      | some password =>
        have hpassword := fun field => hfield field password (by simp [AuthConfig.texts])
        simp only [husername, hpassword]

theorem serviceConfig_resolve_congr {resolvers resolvers' : Resolvers} {config : ServiceConfig}
    (context service : String)
    (henv : ∀ text ∈ config.texts, ∀ name ∈ namedVariables text,
      resolvers.env name = resolvers'.env name)
    (hexternal : resolvers.external = resolvers'.external) :
    config.resolve lib resolvers context service =
      config.resolve lib resolvers' context service := by
  obtain ⟨url, auth⟩ := config
  have hurl := resolveStringExpressions_congr (context ++ "." ++ service ++ ".url") url
    (henv url List.mem_cons_self) hexternal
  unfold ServiceConfig.resolve
  simp only [hurl]
  cases auth with
  | none => rfl
  | some auth =>
    have hauth : auth.resolve resolvers context service =
        auth.resolve resolvers' context service := authConfig_resolve_congr context service
      (fun text htext => henv text (List.mem_cons_of_mem _ htext)) hexternal
    simp only [hauth]

theorem resolveConfigService_congr {config : ElasticConfig} {context : Option String}
    (henv : ∀ text ∈ contextTexts config context, ∀ name ∈ namedVariables text,
      s.env name = t.env name)
    (hexternal : s.external = t.external) (kind : ServiceKind) :
    resolveConfigService lib s.resolvers config context kind =
      resolveConfigService lib t.resolvers config context kind := by
  unfold contextTexts at henv
  unfold resolveConfigService
  cases hservices : config.contexts.find? (context.getD config.currentContext) with
  | none => simp only [hservices]
  | some services =>
    simp only [hservices] at henv ⊢
    cases hservice : services.service kind with
    | none => rfl
    | some service =>
      apply serviceConfig_resolve_congr _ _ _ hexternal
      intro text htext
      apply henv text
      cases kind with
      | elasticsearch =>
        have hsome : services.elasticsearch = some service := hservice
        rw [hsome]
        exact List.mem_append_left _ htext
      | kibana =>
        have hsome : services.kibana = some service := hservice
        rw [hsome]
        exact List.mem_append_right _ htext

theorem knownHostFromService_reference {service : ContextService Url} {app : Application}
    {role : HostRole} {host : KnownHost Url}
    (h : knownHostFromService lib service app role = .ok host) :
    host.credential.secretReference = none := runtimeHost_reference h

/-- A host that is found or left out, and was built with its authentication if found. -/
theorem optionalHost_reference {service : ContextService Url} {kibana : Option (KnownHost Url)}
    (h : (knownHostFromService lib service .kibana .view).map some = .ok kibana) :
    ∀ host, kibana = some host → host.credential.secretReference = none := by
  rintro host rfl
  cases hbuilt : knownHostFromService lib service .kibana .view with
  | error error => simp [hbuilt, Except.map] at h
  | ok built =>
    obtain rfl : built = host := by simpa [hbuilt, Except.map] using h
    exact knownHostFromService_reference hbuilt

theorem activeOutputHosts_congr (henv : ∀ name ∈ activeVariables, s.env name = t.env name)
    (es : ContextService Url) (requireKibana : Bool) :
    activeOutputHosts lib (systemAuth libs s) s es requireKibana =
      activeOutputHosts lib (systemAuth libs t) t es requireKibana := by
  apply bind_congr_of_ok rfl
  intro elasticsearch helasticsearch
  apply bind_congr_of_ok (systemAuth_of_none (knownHostFromService_reference helasticsearch))
  intro elasticsearchAuth _
  apply bind_congr_of_ok (serviceFromActiveEnvironment_congr henv .kibana)
  intro service _
  apply bind_congr_of_ok rfl
  intro kibana hkibana
  split
  · rfl
  · have hreference : ∀ host, kibana = some host → host.credential.secretReference = none := by
      cases service with
      | none =>
        obtain rfl := Except.ok.inj hkibana
        intro host hnone
        cases hnone
      | some service => exact optionalHost_reference hkibana
    exact bind_congr_of_ok (optionalAuth_congr hreference) fun _ _ => rfl

theorem contextKibana_reference {resolvers : Resolvers} {config : ElasticConfig}
    {context : Option String} {requireKibana : Bool} {kibana : Option (KnownHost Url)}
    (h : contextKibana lib resolvers config context requireKibana = .ok kibana) :
    ∀ host, kibana = some host → host.credential.secretReference = none := by
  unfold contextKibana at h
  split at h
  · exact optionalHost_reference h
  · split at h
    · cases h
    · obtain rfl := Except.ok.inj h
      intro host hnone
      cases hnone
  · cases h

theorem configOutputHosts_congr {context : Option String} (h : AgreeOnContext context s t)
    (requireKibana : Bool) :
    configOutputHosts lib (systemAuth libs s) s context requireKibana =
      configOutputHosts lib (systemAuth libs t) t context requireKibana := by
  unfold configOutputHosts
  rw [← h.elasticConfig]
  cases hconfig : s.elasticConfig with
  | error error => rfl
  | ok found =>
    cases found with
    | none => rfl
    | some config =>
      have hservice : ∀ kind, resolveConfigService lib s.resolvers config context kind =
          resolveConfigService lib t.resolvers config context kind :=
        resolveConfigService_congr (h.named config hconfig) h.external
      have helastic := congrArg (Except.mapError OutputError.context) (hservice .elasticsearch)
      apply bind_congr_of_ok helastic
      intro es _
      apply bind_congr_of_ok rfl
      intro elasticsearch helasticsearch
      apply bind_congr_of_ok (systemAuth_of_none (knownHostFromService_reference helasticsearch))
      intro elasticsearchAuth _
      have hkibana : contextKibana lib s.resolvers config context requireKibana =
          contextKibana lib t.resolvers config context requireKibana := by
        unfold contextKibana
        rw [hservice .kibana]
      apply bind_congr_of_ok hkibana
      intro kibana hfound
      exact bind_congr_of_ok (optionalAuth_congr (contextKibana_reference hfound)) fun _ _ => rfl

theorem resolveOutputHosts_congr {context : Option String} (h : AgreeOnContext context s t)
    (requireKibana : Bool) :
    resolveOutputHosts lib (systemAuth libs s) s context requireKibana =
      resolveOutputHosts lib (systemAuth libs t) t context requireKibana := by
  have hconfig : configOutputHosts lib (systemAuth libs s) s context requireKibana =
      configOutputHosts lib (systemAuth libs t) t context requireKibana :=
    configOutputHosts_congr h requireKibana
  unfold resolveOutputHosts
  cases context with
  | some name => exact hconfig
  | none =>
    have hactive := h.active rfl
    rw [h.invocation rfl, serviceFromActiveEnvironment_congr hactive]
    split
    · cases serviceFromActiveEnvironment lib t .elasticsearch with
      | error error => rfl
      | ok found =>
        cases found with
        | none => exact hconfig
        | some es => exact activeOutputHosts_congr hactive es requireKibana
    · exact hconfig

/-- A saved host is resolved by its entry, the entry of its viewer and their secrets. -/
theorem fromSaved_congr {name : String} {host : KnownHost Url} (h : AgreeOnHost lib libs name s t)
    (hhost : getKnown lib s name = some host) (requireKibana : Bool) :
    fromSaved lib (systemAuth libs s) s host requireKibana =
      fromSaved lib (systemAuth libs t) t host requireKibana := by
  apply bind_congr_of_ok rfl
  intro _ _
  apply bind_congr_of_ok (systemAuth_of_reference (h.secret host hhost))
  intro elasticsearchAuth _
  split
  · split
    · rfl
    · refine bind_congr_of_ok ?_ fun _ _ => rfl
      unfold linkedViewer
      cases hviewer : host.viewer with
      | none => rfl
      | some viewerName =>
        obtain ⟨hsame, hsecret⟩ := h.viewer host viewerName hhost hviewer
        simp only [← hsame]
        cases hfound : getKnown lib s viewerName with
        | none => rfl
        | some viewer =>
          apply bind_congr_of_ok rfl
          intro _ _
          exact bind_congr_of_ok (systemAuth_of_reference (hsecret viewer hfound)) fun _ _ => rfl
  · rfl

theorem fromExplicit_congr {target : String} (h : AgreeOn lib libs (.explicit target) s t)
    (requireKibana : Bool) :
    fromExplicit lib (systemAuth libs s) s target requireKibana =
      fromExplicit lib (systemAuth libs t) t target requireKibana := by
  unfold fromExplicit
  unfold AgreeOn at h
  cases htarget : ElasticContextTarget.parse target with
  | error error => rfl
  | ok parsed =>
    cases parsed with
    | some parsed =>
      simp only [htarget] at h
      simp only [targetOutputHosts, resolveOutputHosts_congr h]
    | none =>
      simp only [htarget] at h
      simp only [← h.host]
      cases hhost : getKnown lib s target with
      | none => rfl
      | some host => exact fromSaved_congr h hhost requireKibana

theorem environmentKibana_congr (auth : Auth) (kibanaUrl : String) :
    environmentKibana lib (systemAuth libs s) auth kibanaUrl =
      environmentKibana lib (systemAuth libs t) auth kibanaUrl := by
  unfold environmentKibana
  cases lib.parse kibanaUrl with
  | none => rfl
  | some url =>
    apply bind_congr_of_ok rfl
    intro kibana hkibana
    exact bind_congr_of_ok (systemAuth_of_none (runtimeHost_reference hkibana)) fun _ _ => rfl

theorem fromEnvironment_congr (h : ∀ name ∈ outputVariables, s.env name = t.env name)
    (requireKibana : Bool) :
    fromEnvironment lib (systemAuth libs s) s requireKibana =
      fromEnvironment lib (systemAuth libs t) t requireKibana := by
  have hurl : requiredEnvironment s "ESDIAG_OUTPUT_URL" =
      requiredEnvironment t "ESDIAG_OUTPUT_URL" := by
    unfold requiredEnvironment
    rw [h "ESDIAG_OUTPUT_URL" (by simp [outputVariables])]
  have hauth : environmentAuth s = environmentAuth t := by
    unfold environmentAuth
    rw [h "ESDIAG_OUTPUT_APIKEY" (by simp [outputVariables]),
      h "ESDIAG_OUTPUT_USERNAME" (by simp [outputVariables]),
      h "ESDIAG_OUTPUT_PASSWORD" (by simp [outputVariables])]
  have hkibana := h "ESDIAG_KIBANA_URL" (by simp [outputVariables])
  apply bind_congr_of_ok hurl
  intro outputUrl _
  apply bind_congr_of_ok hauth
  intro auth _
  cases lib.parse outputUrl with
  | none => rfl
  | some url =>
    apply bind_congr_of_ok rfl
    intro elasticsearch helasticsearch
    apply bind_congr_of_ok (systemAuth_of_none (runtimeHost_reference helasticsearch))
    intro elasticsearchAuth _
    split
    · have hrequired : requiredEnvironment s "ESDIAG_KIBANA_URL" =
          requiredEnvironment t "ESDIAG_KIBANA_URL" := by
        unfold requiredEnvironment
        rw [hkibana]
      apply bind_congr_of_ok hrequired
      intro kibanaUrl _
      exact bind_congr_of_ok (environmentKibana_congr auth kibanaUrl) fun _ _ => rfl
    · simp only [hkibana, environmentKibana_congr (s := s) (t := t)]

/-- The resolution of a source that has been selected. -/
def resolveSource (lib : ServiceLibrary Url) (resolveAuth : Credential → Except OutputError Auth)
    (system : System) (source : Source) (requireKibana : Bool) :
    Except OutputError (OutputDeployment Url) :=
  match source with
  | .explicit target =>
    (fromExplicit lib resolveAuth system target requireKibana).map (.assemble .explicit)
  | .elasticContext context =>
    (resolveOutputHosts lib resolveAuth system (some context.context) requireKibana).map
      (.assemble .elasticContext)
  | .environment =>
    (fromEnvironment lib resolveAuth system requireKibana).map (.assemble .environment)
  | .persisted none =>
    .error (.refused ("No output deployment is configured. Run `esdiag init` or provide an " ++
      "explicit output target."))
  | .persisted (some outputName) =>
    match getKnown lib system outputName with
    | none => .error (.refused ("Configured output host '" ++ outputName ++ "' was not found"))
    | some output =>
      (fromSaved lib resolveAuth system output requireKibana).map (.assemble .persisted)

/-- An output is resolved by the source that is selected. -/
theorem resolveWith_eq (resolveAuth : Credential → Except OutputError Auth) (system : System)
    (explicitTarget : Option String) (requireKibana : Bool) :
    resolveWith lib resolveAuth system explicitTarget requireKibana =
      match selectSource explicitTarget system with
      | .error error => .error (.config error)
      | .ok source => resolveSource lib resolveAuth system source requireKibana := by
  unfold resolveWith selectSource
  cases explicitTarget with
  | some target => rfl
  | none =>
    cases hconfig : ApplicationConfig.load system.config with
    | error error => rfl
    | ok config =>
      simp only
      cases config.output.elasticContext with
      | some context => rfl
      | none =>
        cases runtimeOutputIsDeclared system with
        | true => rfl
        | false =>
          simp only [Bool.false_eq_true, if_false, fromPersisted, persistedOutput, hconfig]
          cases config.output.default with
          | none => rfl
          | some outputName =>
            simp only [resolveSource]
            cases getKnown lib system outputName <;> rfl

theorem resolveSource_congr {source : Source} (h : AgreeOn lib libs source s t)
    (requireKibana : Bool) :
    resolveSource lib (systemAuth libs s) s source requireKibana =
      resolveSource lib (systemAuth libs t) t source requireKibana := by
  cases source with
  | explicit target => simp only [resolveSource, fromExplicit_congr h]
  | elasticContext context => simp only [resolveSource, resolveOutputHosts_congr h]
  | environment => simp only [resolveSource, fromEnvironment_congr h]
  | persisted name =>
    cases name with
    | none => rfl
    | some name =>
      simp only [resolveSource, ← h.host]
      cases hhost : getKnown lib s name with
      | none => rfl
      | some host => simp only [fromSaved_congr h hhost]

/-- Systems that agree on the selected source resolve alike. -/
theorem output_from_one_source (lib : ServiceLibrary Url) (libs : Libraries Key) (s t : System)
    (explicitTarget : Option String) (requireKibana : Bool)
    (hselected : selectSource explicitTarget s = selectSource explicitTarget t)
    (hagree : ∀ source, selectSource explicitTarget s = .ok source →
      AgreeOn lib libs source s t) :
    resolve lib libs s explicitTarget requireKibana =
      resolve lib libs t explicitTarget requireKibana := by
  unfold resolve
  rw [resolveWith_eq, resolveWith_eq, ← hselected]
  cases hsource : selectSource explicitTarget s with
  | error error => rfl
  | ok source => exact resolveSource_congr (hagree source hsource) requireKibana

end Congruence

section Sample

def sampleServices : ServiceLibrary SampleUrl :=
  { sampleUrls with
    hasQuery := fun _ => false
    extendPairs := fun rendered _ => rendered
    scheme := fun _ => "https" }

def contextConfig : ApplicationConfig :=
  { ApplicationConfig.new with output := ⟨some "prod", some ⟨"monitoring"⟩, none, none⟩ }

/-- A context whose key is taken from the environment. -/
def monitoringContext : Context where
  elasticsearch :=
    some ⟨"https://es.example/", some ⟨some "$(env:ESDIAG_OUTPUT_APIKEY)", none, none⟩⟩
  kibana := some ⟨"https://kb.example/", none⟩

def environmentOf (entries : List (String × String)) (name : String) : EnvValue :=
  ((findEntry name entries).map .text).getD .unset

def emptySystem : System where
  config := .absent
  env := environmentOf []
  invokedAs := none
  hosts := .absent
  keystore := .absent
  keystorePassword := none
  elasticConfig := .ok none
  external _ _ _ := .error .unreadable

/-- A system with a configured context, and a variable that declares part of an output. -/
def contextSystem (apikey : String) : System :=
  { emptySystem with
    config := .document contextConfig
    env := environmentOf [("ESDIAG_OUTPUT_APIKEY", apikey)]
    elasticConfig :=
      .ok (some ⟨"monitoring", KeyedMap.empty.insert "monitoring" monitoringContext⟩) }

set_option maxRecDepth 20000 in
/-- A context may take a key from a variable of the source below it: the systems have the
same configuration and the same contexts, and resolve to different keys. -/
theorem context_reads_environment :
    selectSource none (contextSystem "one") = .ok (.elasticContext ⟨"monitoring"⟩) ∧
      selectSource none (contextSystem "two") = .ok (.elasticContext ⟨"monitoring"⟩) ∧
      contextSystem "two" = { contextSystem "one" with
        env := (contextSystem "two").env } ∧
      (∀ name, name ≠ "ESDIAG_OUTPUT_APIKEY" →
        (contextSystem "one").env name = (contextSystem "two").env name) ∧
      resolve sampleServices sampleLibraries (contextSystem "one") none true ≠
        resolve sampleServices sampleLibraries (contextSystem "two") none true := by
  refine ⟨rfl, rfl, rfl, ?_, ?_⟩
  · intro name hname
    have hother : "ESDIAG_OUTPUT_APIKEY" ≠ name := Ne.symm hname
    simp only [contextSystem, environmentOf, findEntry, if_neg hother]
  · let auth (system : System) : Option Auth :=
      (resolve sampleServices sampleLibraries system none true).toOption.map fun output =>
        output.elasticsearchAuth
    have hone : auth (contextSystem "one") = some (.apikey "one") := by decide +kernel
    have htwo : auth (contextSystem "two") = some (.apikey "two") := by decide +kernel
    intro hsame
    dsimp only [auth] at hone htwo
    rw [hsame, htwo] at hone
    exact absurd hone (by decide)

/-- A declared output without a viewer, on a system that has a saved one with a viewer. -/
def declaredSystem : System :=
  { emptySystem with
    config := .document { ApplicationConfig.new with output := ⟨some "prod", none, none, none⟩ }
    env := environmentOf [("ESDIAG_OUTPUT_URL", "https://es.example/")]
    hosts := .document (.mapping [
      ("prod", .mapping [("roles", .sequence [.string "send"]), ("viewer", .string "prod-kb"),
        ("app", .string "elasticsearch"), ("url", .string "https://prod.example/")]),
      ("prod-kb", .mapping [("roles", .sequence [.string "view"]), ("app", .string "kibana"),
        ("url", .string "https://kb.example/")])]) }

set_option maxRecDepth 20000 in
/-- The saved viewer is not used for the declared output. -/
theorem output_from_one_source_declared :
    resolve sampleServices sampleLibraries declaredSystem none true =
      resolve sampleServices sampleLibraries
        { emptySystem with env := declaredSystem.env } none true :=
  output_from_one_source sampleServices sampleLibraries declaredSystem
    { emptySystem with env := declaredSystem.env } none true rfl fun source hsource => by
      obtain rfl := Except.ok.inj hsource
      intro name _
      rfl

end Sample

end Esdiag.OutputSources
