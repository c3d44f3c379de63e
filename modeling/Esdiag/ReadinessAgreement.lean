import Esdiag.LegacyMigration
import Esdiag.Onboarding
import Esdiag.OutputSources

/-!
Readiness and what will run. An output that is reported as configured is one
that resolves once the keystore is unlocked, and the journey is complete where
entry is granted. The first holds where no context of the Elastic CLI is
configured over a saved output that differs from it in being usable, and the
second where no output is left that entry refuses for want of a keystore alone.
-/
namespace Esdiag.ReadinessAgreement

open KeyedMaps Deployments Keystores KeystoreOperations KnownHosts HostFiles HostRoundTrip
  JobModel SavedJobFiles ApplicationConfigs ElasticContexts OutputDeployments OutputSources
  Onboarding Outcomes

section Resolution

variable {Url Key : Type} (lib : ServiceLibrary Url) (libs : Libraries Key)

/-- A way to produce credentials that needs no keystore for those that refer to no secret. -/
def Unlocks (resolveAuth : Credential → Except OutputError Auth) : Prop :=
  ∀ credential, credential.secretReference = none → ∃ auth, resolveAuth credential = .ok auth

/-- An Elasticsearch host to send to, with its Kibana viewer. -/
structure IsLinked (hosts : OutputHosts Url) : Prop where
  elasticsearch : hosts.elasticsearch.app = some .elasticsearch ∧
    .send ∈ hosts.elasticsearch.roles
  kibana : ∃ viewer, hosts.kibana = some viewer ∧ viewer.app = some .kibana ∧
    .view ∈ viewer.roles

/-- An output is selected, apart from the unlocking of credentials. -/
def SelectsOutput (unlock : Credential → Auth) (system : System) : Prop :=
  ∃ output, resolveWith lib (fun credential => .ok (unlock credential)) system none true =
    .ok output ∧ IsLinked output.toOutputHosts

variable {lib libs} {system : System} {resolveAuth : Credential → Except OutputError Auth}

theorem unlocks_systemAuth : Unlocks (systemAuth libs system) := by
  intro credential href
  unfold systemAuth
  cases credential with
  | none => exact ⟨_, rfl⟩
  | keystore secret => cases href
  | runtime auth => exact ⟨_, rfl⟩
  | legacy auth secret =>
    obtain rfl : secret = none := href
    exact ⟨_, rfl⟩

theorem unlocks_ok (unlock : Credential → Auth) :
    Unlocks fun credential => .ok (unlock credential) := fun _ _ => ⟨_, rfl⟩

/-- A Kibana host that is required is built from its service. -/
theorem contextKibana_required {resolvers : Resolvers} {config : ElasticConfig}
    {context : Option String} {kibana : Option (KnownHost Url)}
    (h : contextKibana lib resolvers config context true = .ok kibana) :
    ∃ service viewer, knownHostFromService lib service .kibana .view = .ok viewer ∧
      kibana = some viewer := by
  unfold contextKibana at h
  split at h
  · rename_i service hservice
    obtain ⟨viewer, hviewer, hsome⟩ := map_eq_ok h
    exact ⟨service, viewer, hviewer, hsome.symm⟩
  · cases h
  · cases h

/-- A named context is read from the file of the Elastic CLI. -/
theorem resolveOutputHosts_some (name : String) (requireKibana : Bool) :
    resolveOutputHosts lib resolveAuth system (some name) requireKibana =
      configOutputHosts lib resolveAuth system (some name) requireKibana := rfl

/-- The output of a context is linked, and needs no keystore. -/
theorem configOutputHosts_ok {context : Option String} {hosts : OutputHosts Url}
    (h : configOutputHosts lib resolveAuth system context true = .ok hosts) :
    IsLinked hosts ∧ ∀ resolveAuth', Unlocks resolveAuth' →
      (configOutputHosts lib resolveAuth' system context true).isOk := by
  unfold configOutputHosts at h ⊢
  cases hconfig : system.elasticConfig with
  | error error => simp [hconfig] at h
  | ok found =>
    cases found with
    | none => simp [hconfig] at h
    | some config =>
      simp only [hconfig] at h ⊢
      obtain ⟨es, hes, h⟩ := bind_eq_ok h
      obtain ⟨elasticsearch, helasticsearch, h⟩ := bind_eq_ok h
      obtain ⟨elasticsearchAuth, _, h⟩ := bind_eq_ok h
      obtain ⟨kibana, hkibana, h⟩ := bind_eq_ok h
      obtain ⟨kibanaAuth, _, h⟩ := bind_eq_ok h
      obtain rfl := Except.ok.inj h
      obtain ⟨service, viewer, hviewer, rfl⟩ := contextKibana_required hkibana
      obtain ⟨happ, hroles, hreference⟩ := runtimeHost_built helasticsearch
      obtain ⟨happ', hroles', hreference'⟩ := runtimeHost_built hviewer
      constructor
      · exact ⟨⟨happ, by simp [hroles]⟩, viewer, rfl, happ', by simp [hroles']⟩
      · intro resolveAuth' hunlocks
        obtain ⟨auth, hauth⟩ := hunlocks _ hreference
        obtain ⟨auth', hauth'⟩ := hunlocks _ hreference'
        simp only [hes, helasticsearch, hauth, hkibana, optionalAuth, hauth', bind, Except.bind,
          Except.map, pure, Except.pure, Except.isOk, Except.toBool]

/-- The declared output is linked, and needs no keystore. -/
theorem fromEnvironment_ok {hosts : OutputHosts Url}
    (h : fromEnvironment lib resolveAuth system true = .ok hosts) :
    IsLinked hosts ∧ ∀ resolveAuth', Unlocks resolveAuth' →
      (fromEnvironment lib resolveAuth' system true).isOk := by
  unfold fromEnvironment at h ⊢
  obtain ⟨outputUrl, houtputUrl, h⟩ := bind_eq_ok h
  obtain ⟨auth, hauth, h⟩ := bind_eq_ok h
  cases hurl : lib.parse outputUrl with
  | none => simp [hurl] at h
  | some url =>
    simp only [hurl] at h
    obtain ⟨elasticsearch, helasticsearch, h⟩ := bind_eq_ok h
    obtain ⟨elasticsearchAuth, _, h⟩ := bind_eq_ok h
    rw [if_pos trivial] at h
    obtain ⟨kibanaUrl, hkibanaUrl, h⟩ := bind_eq_ok h
    obtain ⟨kibana, hkibana, h⟩ := bind_eq_ok h
    obtain rfl := Except.ok.inj h
    unfold environmentKibana at hkibana
    cases hurl' : lib.parse kibanaUrl with
    | none => simp [hurl'] at hkibana
    | some url' =>
      simp only [hurl'] at hkibana
      obtain ⟨viewer, hviewer, hkibana⟩ := bind_eq_ok hkibana
      obtain ⟨viewerAuth, _, hkibana⟩ := bind_eq_ok hkibana
      obtain rfl := Except.ok.inj hkibana
      obtain ⟨happ, hroles, hreference⟩ := runtimeHost_built helasticsearch
      obtain ⟨happ', hroles', hreference'⟩ := runtimeHost_built hviewer
      constructor
      · exact ⟨⟨happ, by simp [hroles]⟩, viewer, rfl, happ', by simp [hroles']⟩
      · intro resolveAuth' hunlocks
        obtain ⟨secret, hsecret⟩ := hunlocks _ hreference
        obtain ⟨secret', hsecret'⟩ := hunlocks _ hreference'
        simp only [houtputUrl, hauth, hurl, helasticsearch, hsecret, hkibanaUrl, environmentKibana,
          hurl', hviewer, hsecret', bind, Except.bind, pure, Except.pure, if_true, Except.isOk,
          Except.toBool]

theorem validateSendHost_ok {host : KnownHost Url} {context : String}
    (h : validateSendHost host context = .ok ()) :
    host.app = some .elasticsearch ∧ .send ∈ host.roles := by
  unfold validateSendHost at h
  split at h
  · cases h
  · rename_i hvalid
    rwa [not_or, not_not, not_not] at hvalid

theorem validateViewHost_ok {host : KnownHost Url} {name : String}
    (h : validateViewHost host name = .ok ()) : host.app = some .kibana ∧ .view ∈ host.roles := by
  unfold validateViewHost at h
  split at h
  · cases h
  · rename_i hvalid
    rwa [not_or, not_not, not_not] at hvalid

/-- A saved output that resolves is linked, and onboarding accepts it. -/
theorem fromSaved_ok {host : KnownHost Url} {hosts : OutputHosts Url}
    (h : fromSaved lib resolveAuth system host true = .ok hosts) :
    IsLinked hosts ∧ validOutputHost lib system host = true := by
  obtain ⟨_, hsend, h⟩ := bind_eq_ok h
  obtain ⟨elasticsearchAuth, _, h⟩ := bind_eq_ok h
  rw [if_pos rfl] at h
  cases hname : host.viewer with
  | none => simp [hname] at h
  | some viewerName =>
    simp only [hname, Option.isNone_some, Bool.false_eq_true, if_false] at h
    obtain ⟨linked, hlinked, h⟩ := bind_eq_ok h
    obtain rfl := Except.ok.inj h
    unfold linkedViewer at hlinked
    cases hknown : getKnown lib system viewerName with
    | none => simp [hname, hknown] at hlinked
    | some viewer =>
      simp only [hname, hknown] at hlinked
      obtain ⟨_, hview, hlinked⟩ := bind_eq_ok hlinked
      obtain ⟨viewerAuth, _, hlinked⟩ := bind_eq_ok hlinked
      obtain rfl := Except.ok.inj hlinked
      have hes := validateSendHost_ok hsend
      have hkb := validateViewHost_ok hview
      refine ⟨⟨hes, viewer, rfl, hkb⟩, ?_⟩
      simp [validOutputHost, hasRole, hname, hknown, hes, hkb]

/-- A saved host that onboarding accepts resolves once it is unlocked. -/
theorem fromSaved_isOk_of_valid (unlock : Credential → Auth) {host : KnownHost Url}
    (h : validOutputHost lib system host = true) :
    (fromSaved lib (fun credential => .ok (unlock credential)) system host true).isOk := by
  simp only [validOutputHost, hasRole, Bool.and_eq_true, decide_eq_true_eq, Option.any_eq_true,
    Option.bind_eq_some_iff] at h
  obtain ⟨⟨happ, hsend⟩, viewer, ⟨viewerName, hname, hknown⟩, happ', hview⟩ := h
  simp only [fromSaved, linkedViewer, validateSendHost, validateViewHost, happ, hsend, hname,
    hknown, happ', hview, ne_eq, not_true, or_self, if_false, if_true, Option.isNone_some,
    Bool.false_eq_true, bind, Except.bind, pure, Except.pure, Except.isOk, Except.toBool]

end Resolution

section Agreement

variable {Url Key : Type} (lib : ServiceLibrary Url) (libs : Libraries Key)

/-- The default output as onboarding sees it, without a look at contexts. -/
def defaultOutputIsValid (system : System) (config : ApplicationConfig)
    (hosts : KeyedMap String (KnownHost Url)) : Bool :=
  (defaultOutputHost config hosts).any (validOutputHost lib system)

/-- A configured context resolves where the saved output is valid, unless an output is
declared. -/
def ContextMatches (unlock : Credential → Auth) (system : System) (config : ApplicationConfig)
    (hosts : KeyedMap String (KnownHost Url)) : Prop :=
  ∀ context, config.output.elasticContext = some context →
    runtimeOutputIsDeclared system = false →
    (defaultOutputIsValid lib system config hosts = true ↔
      (resolveOutputHosts lib (fun credential => .ok (unlock credential)) system
        (some context.context) true).isOk = true)

/-- Without a keystore, nothing is left that entry asks of the keystore and the stage does not. -/
def KeystoreSuffices (system : System) (config : ApplicationConfig)
    (hosts : KeyedMap String (KnownHost Url)) (jobs : SavedJobs) : Prop :=
  userIsConfigured config = true → keystoreExists system.keystore = false →
    match config.workflow with
    | none | some .collectOnly => True
    | some .processExisting =>
      runtimeOutputIsDeclared system = true ∨ defaultOutputIsValid lib system config hosts = false
    | some .collectAndProcess =>
      if runtimeOutputIsDeclared system then
        environmentOutputIsConfigured lib libs system = true →
          collectHostIsSaved hosts = true →
          defaultJobIsValid lib libs system config hosts jobs = false
      else
        defaultOutputIsValid lib system config hosts = true →
          if collectHostIsSaved hosts then
            defaultJobIsValid lib libs system config hosts jobs = false
          else
            config.collectionDeferred = true →
              (defaultOutputHost config hosts).any
                (fun host => host.credential.secretReference.isSome) = false

def Coherent (unlock : Credential → Auth) (installation : Installation) : Prop :=
  ∀ config hosts jobs, ApplicationConfig.load installation.config = .ok config →
    parseHostsYml lib.toUrlLibrary installation.hosts = .ok hosts →
    (loadSavedJobsFromPath installation.jobEnvironment installation.jobs).1 = .ok jobs →
    ContextMatches lib unlock installation.toSystem config hosts ∧
      KeystoreSuffices lib libs installation.toSystem config hosts jobs

/-- Readiness agrees with what will run. -/
structure ReadinessAgrees (unlock : Credential → Auth) (installation : Installation) : Prop where
  output : ∀ readiness, inspect lib libs installation = .ok readiness →
    (readiness.outputConfigured = true ↔ SelectsOutput lib unlock installation.toSystem)
  entry : journeyStage lib libs installation = .ok .complete ↔
    entersApplication lib libs installation = true

end Agreement

section Stages

/-- What a readiness without a keystore has to lack for the stage and the entry to agree. -/
def MissesNoKeystore (readiness : OnboardingReadiness) : Prop :=
  readiness.userConfigured = true → readiness.keystoreReady = false →
    match readiness.workflow with
    | none | some .collectOnly => True
    | some .processExisting =>
      readiness.outputConfigured = true → readiness.outputFromEnvironment = true
    | some .collectAndProcess =>
      readiness.outputConfigured = true →
        if readiness.collectHostConfigured then readiness.defaultJobConfigured = false
        else
          readiness.collectionDeferred = true →
            readiness.outputFromEnvironment = true ∨ readiness.outputRequiresKeystore = false

theorem stageOf_eq_complete_iff (readiness : OnboardingReadiness) :
    (stageOf readiness.workflow readiness = .complete ↔ readiness.canEnterApplication = true) ↔
      MissesNoKeystore readiness := by
  obtain ⟨user, keystore, workflow, output, environment, requires, host, job, deferred⟩ := readiness
  unfold stageOf MissesNoKeystore OnboardingReadiness.canEnterApplication
    OnboardingReadiness.isComplete
  cases user with
  | false => simp
  | true =>
    cases workflow with
    | none => simp
    | some workflow =>
      cases workflow with
      | collectOnly =>
        simp only [Option.any_some, OnboardingWorkflow.processesDiagnostics,
          OnboardingWorkflow.collectsDiagnostics]
        cases host <;> cases job <;> cases deferred <;> simp
      | processExisting =>
        simp only [Option.any_some, OnboardingWorkflow.processesDiagnostics,
          OnboardingWorkflow.collectsDiagnostics]
        cases output <;> cases environment <;> cases keystore <;> simp
      | collectAndProcess =>
        simp only [Option.any_some, OnboardingWorkflow.processesDiagnostics,
          OnboardingWorkflow.collectsDiagnostics]
        cases output with
        | false => simp
        | true =>
          cases host with
          | false =>
            cases deferred <;> cases environment <;> cases requires <;> cases keystore <;> simp
          | true => cases job <;> cases keystore <;> simp

end Stages

section Agreement

variable {Url Key : Type} {lib : ServiceLibrary Url} {libs : Libraries Key}

theorem missesNoKeystore_readiness (system : System) (config : ApplicationConfig)
    (hosts : KeyedMap String (KnownHost Url)) (jobs : SavedJobs) :
    MissesNoKeystore (readiness lib libs system config hosts jobs) ↔
      KeystoreSuffices lib libs system config hosts jobs := by
  unfold MissesNoKeystore KeystoreSuffices
  simp only [readiness]
  refine imp_congr_right fun _ => imp_congr_right fun _ => ?_
  cases config.workflow with
  | none => rfl
  | some workflow =>
    cases hdeclared : runtimeOutputIsDeclared system with
    | true =>
      cases workflow <;> simp [environmentOutputIsConfigured, hdeclared]
    | false =>
      cases workflow <;> simp [defaultOutputIsValid]

theorem inspect_of_loaded {installation : Installation} {config : ApplicationConfig}
    {hosts : KeyedMap String (KnownHost Url)} {jobs : SavedJobs}
    (hconfig : ApplicationConfig.load installation.config = .ok config)
    (hhosts : parseHostsYml lib.toUrlLibrary installation.hosts = .ok hosts)
    (hjobs : (loadSavedJobsFromPath installation.jobEnvironment installation.jobs).1 = .ok jobs) :
    inspect lib libs installation =
      .ok (readiness lib libs installation.toSystem config hosts jobs) := by
  simp only [inspect, hconfig, hhosts, hjobs, Except.mapError, bind, Except.bind, pure, Except.pure]

/-- An inspection that succeeds has read the configuration, the hosts and the jobs. -/
theorem inspect_eq_ok {installation : Installation} {found : OnboardingReadiness}
    (h : inspect lib libs installation = .ok found) :
    ∃ config hosts jobs, ApplicationConfig.load installation.config = .ok config ∧
      parseHostsYml lib.toUrlLibrary installation.hosts = .ok hosts ∧
      (loadSavedJobsFromPath installation.jobEnvironment installation.jobs).1 = .ok jobs ∧
      found = readiness lib libs installation.toSystem config hosts jobs := by
  have hread : ∀ {ε ε' α : Type} {x : Except ε α} {f : ε → ε'} {a : α}, x.mapError f = .ok a →
      x = .ok a := by
    intro ε ε' α x f a hx
    cases x with
    | error error => cases hx
    | ok b => exact congrArg _ (Except.ok.inj hx)
  obtain ⟨config, hconfig, h⟩ := bind_eq_ok h
  obtain ⟨hosts, hhosts, h⟩ := bind_eq_ok h
  obtain ⟨jobs, hjobs, h⟩ := bind_eq_ok h
  exact ⟨config, hosts, jobs, hread hconfig, hread hhosts, hread hjobs, (Except.ok.inj h).symm⟩

variable {unlock : Credential → Auth} {system : System} {config : ApplicationConfig}

/-- Hosts that are linked when they are found are selected exactly where they are found. -/
theorem assembled_iff {source : OutputDeploymentSource}
    {found : Except OutputError (OutputHosts Url)} {p : Prop}
    (hfound : ∀ hosts, found = .ok hosts → IsLinked hosts ∧ p) (hp : p → found.isOk = true) :
    (∃ output, found.map (OutputDeployment.assemble source) = .ok output ∧
      IsLinked output.toOutputHosts) ↔ p := by
  constructor
  · rintro ⟨output, houtput, _⟩
    obtain ⟨hosts, hhosts, _⟩ := map_eq_ok houtput
    exact (hfound hosts hhosts).2
  · intro h
    have hok := hp h
    cases found with
    | error error => cases hok
    | ok hosts => exact ⟨_, rfl, (hfound hosts rfl).1⟩

/-- A configured context is what is selected. -/
theorem selectsOutput_context {context : ElasticOutputContext}
    (hconfig : ApplicationConfig.load system.config = .ok config)
    (hcontext : config.output.elasticContext = some context) :
    SelectsOutput lib unlock system ↔
      (resolveOutputHosts lib (fun credential => .ok (unlock credential)) system
        (some context.context) true).isOk = true := by
  unfold SelectsOutput resolveWith
  simp only [hconfig, hcontext, resolveOutputHosts_some]
  refine assembled_iff (fun hosts hhosts => ⟨?_, isOk_of_eq_ok hhosts⟩) id
  exact (configOutputHosts_ok hhosts).1

variable (libs) in
/-- Where an output is declared, the readiness resolves what is selected. -/
theorem selectsOutput_declared (hconfig : ApplicationConfig.load system.config = .ok config)
    (hdeclared : runtimeOutputIsDeclared system = true) :
    SelectsOutput lib unlock system ↔ (resolve lib libs system none true).isOk = true := by
  unfold SelectsOutput resolve resolveWith
  simp only [hconfig, hdeclared, if_true]
  cases config.output.elasticContext with
  | some context =>
    simp only [isOk_map, resolveOutputHosts_some]
    apply assembled_iff
    · intro hosts hhosts
      obtain ⟨hlinked, hagain⟩ := configOutputHosts_ok hhosts
      exact ⟨hlinked, hagain _ unlocks_systemAuth⟩
    · intro h
      obtain ⟨hosts, hhosts⟩ := exists_of_isOk h
      exact (configOutputHosts_ok hhosts).2 _ (unlocks_ok unlock)
  | none =>
    simp only [isOk_map]
    apply assembled_iff
    · intro hosts hhosts
      obtain ⟨hlinked, hagain⟩ := fromEnvironment_ok hhosts
      exact ⟨hlinked, hagain _ unlocks_systemAuth⟩
    · intro h
      obtain ⟨hosts, hhosts⟩ := exists_of_isOk h
      exact (fromEnvironment_ok hhosts).2 _ (unlocks_ok unlock)

/-- Without a context and a declared output, the saved default is selected. -/
theorem selectsOutput_persisted {hosts : KeyedMap String (KnownHost Url)}
    (hconfig : ApplicationConfig.load system.config = .ok config)
    (hhosts : parseHostsYml lib.toUrlLibrary system.hosts = .ok hosts)
    (hcontext : config.output.elasticContext = none)
    (hdeclared : runtimeOutputIsDeclared system = false) :
    SelectsOutput lib unlock system ↔ defaultOutputIsValid lib system config hosts = true := by
  have hknown : ∀ name, getKnown lib system name = hosts.find? name := by
    intro name
    simp only [getKnown, hhosts, Except.toOption, Option.bind_some]
  unfold SelectsOutput resolveWith
  simp only [hconfig, hcontext, hdeclared, Bool.false_eq_true, if_false]
  apply assembled_iff
  · intro found hfound
    obtain ⟨output, houtput, hfound⟩ := bind_eq_ok hfound
    obtain ⟨hlinked, hvalid⟩ := fromSaved_ok hfound
    refine ⟨hlinked, ?_⟩
    simp only [persistedOutput, hconfig, hknown] at houtput
    unfold defaultOutputIsValid defaultOutputHost
    cases hname : config.output.default with
    | none => simp [hname] at houtput
    | some name =>
      cases hhost : hosts.find? name with
      | none => simp [hname, hhost] at houtput
      | some host =>
        simp only [hname, hhost, Except.ok.injEq] at houtput
        obtain rfl := houtput
        simpa [hhost] using hvalid
  · intro h
    unfold defaultOutputIsValid defaultOutputHost at h
    cases hname : config.output.default with
    | none => simp [hname] at h
    | some name =>
      cases hhost : hosts.find? name with
      | none => simp [hname, hhost] at h
      | some host =>
        have hvalid : validOutputHost lib system host = true := by simpa [hname, hhost] using h
        have hsaved : persistedOutput lib system = .ok host := by
          simp only [persistedOutput, hconfig, hknown, hname, hhost]
        unfold fromPersisted
        rw [hsaved]
        exact fromSaved_isOk_of_valid unlock hvalid

/-- The reported output is the selected one exactly where a context matches the saved output. -/
theorem outputConfigured_iff {hosts : KeyedMap String (KnownHost Url)} (jobs : SavedJobs)
    (hconfig : ApplicationConfig.load system.config = .ok config)
    (hhosts : parseHostsYml lib.toUrlLibrary system.hosts = .ok hosts) :
    ((readiness lib libs system config hosts jobs).outputConfigured = true ↔
        SelectsOutput lib unlock system) ↔
      ContextMatches lib unlock system config hosts := by
  unfold ContextMatches
  cases hdeclared : runtimeOutputIsDeclared system with
  | true =>
    rw [selectsOutput_declared libs hconfig hdeclared]
    refine iff_of_true ?_ fun context _ hnot => by cases hnot
    simp [readiness, hdeclared]
  | false =>
    have hreported : (readiness lib libs system config hosts jobs).outputConfigured =
        defaultOutputIsValid lib system config hosts := by
      simp [readiness, hdeclared, defaultOutputIsValid]
    rw [hreported]
    cases hcontext : config.output.elasticContext with
    | none =>
      refine iff_of_true ?_ fun context hnone => by cases hnone
      exact (selectsOutput_persisted hconfig hhosts hcontext hdeclared).symm
    | some context =>
      rw [selectsOutput_context hconfig hcontext]
      constructor
      · rintro h context' hsame -
        obtain rfl := Option.some.inj hsame
        exact h
      · intro h
        exact h context rfl rfl

theorem journeyStage_of_error {installation : Installation} {error : InspectError}
    (h : inspect lib libs installation = .error error) :
    journeyStage lib libs installation ≠ .ok .complete := by
  unfold journeyStage
  rw [h]
  split
  · intro hcomplete
    cases hcomplete
  · intro hcomplete
    cases Except.ok.inj hcomplete

theorem journeyStage_of_loaded {installation : Installation} {config : ApplicationConfig}
    {hosts : KeyedMap String (KnownHost Url)} {jobs : SavedJobs}
    (hconfig : ApplicationConfig.load installation.config = .ok config)
    (hinspect : inspect lib libs installation =
      .ok (readiness lib libs installation.toSystem config hosts jobs)) :
    journeyStage lib libs installation =
      .ok (stageOf (readiness lib libs installation.toSystem config hosts jobs).workflow
        (readiness lib libs installation.toSystem config hosts jobs)) := by
  unfold journeyStage
  rw [hconfig, hinspect]
  rfl

variable (lib libs)

/-- Readiness agrees with what will run exactly where the context matches the saved output
and no keystore is missed by the entry alone. -/
theorem readiness_agrees_iff (unlock : Credential → Auth) (installation : Installation) :
    ReadinessAgrees lib libs unlock installation ↔ Coherent lib libs unlock installation := by
  constructor
  · intro h config hosts jobs hconfig hhosts hjobs
    have hinspect : inspect lib libs installation = .ok _ :=
      inspect_of_loaded hconfig hhosts hjobs
    have hentry := h.entry
    unfold entersApplication at hentry
    rw [journeyStage_of_loaded hconfig hinspect, hinspect, Except.ok.injEq] at hentry
    refine ⟨(outputConfigured_iff jobs hconfig hhosts).mp (h.output _ hinspect), ?_⟩
    exact (missesNoKeystore_readiness _ _ _ _).mp ((stageOf_eq_complete_iff _).mp hentry)
  · intro h
    cases hinspect : inspect lib libs installation with
    | error error =>
      constructor
      · intro found hfound
        rw [hinspect] at hfound
        cases hfound
      · refine iff_of_false (journeyStage_of_error hinspect) ?_
        unfold entersApplication
        rw [hinspect]
        exact Bool.false_ne_true
    | ok found =>
      obtain ⟨config, hosts, jobs, hconfig, hhosts, hjobs, rfl⟩ := inspect_eq_ok hinspect
      obtain ⟨hmatches, hkeystore⟩ := h config hosts jobs hconfig hhosts hjobs
      constructor
      · intro found hfound
        obtain rfl := Except.ok.inj (hinspect.symm.trans hfound)
        exact (outputConfigured_iff jobs hconfig hhosts).mpr hmatches
      · unfold entersApplication
        rw [journeyStage_of_loaded hconfig hinspect, hinspect, Except.ok.injEq]
        exact (stageOf_eq_complete_iff _).mpr ((missesNoKeystore_readiness _ _ _ _).mpr hkeystore)

end Agreement

section Sample

def operatorConfig (output : OutputConfig) : ApplicationConfig :=
  { ApplicationConfig.new with
    user := some "operator"
    workflow := some .processExisting
    output }

/-- An output that is a context, and no saved host. -/
def contextInstallation : Installation where
  toSystem := { contextSystem "one" with
    config := .document (operatorConfig ⟨none, some ⟨"monitoring"⟩, none, none⟩) }
  jobs := .absent
  jobEnvironment := LegacyMigration.bareEnvironment

/-- A saved output that needs no credential, and no keystore. -/
def savedInstallation : Installation where
  toSystem := { declaredSystem with
    config := .document (operatorConfig ⟨some "prod", none, none, none⟩)
    env := environmentOf [] }
  jobs := .absent
  jobEnvironment := LegacyMigration.bareEnvironment

def withoutSecrets (_ : Credential) : Auth := .none

set_option maxRecDepth 20000 in
/-- An output that resolves is reported as missing, and a journey that is complete does not
lead into the application. -/
theorem readiness_disagrees :
    (inspect sampleServices sampleLibraries contextInstallation).toOption.map
        OnboardingReadiness.outputConfigured = some false ∧
      SelectsOutput sampleServices withoutSecrets contextInstallation.toSystem ∧
      ¬ ReadinessAgrees sampleServices sampleLibraries withoutSecrets contextInstallation ∧
      journeyStage sampleServices sampleLibraries savedInstallation = .ok .complete ∧
      entersApplication sampleServices sampleLibraries savedInstallation = false ∧
      ¬ ReadinessAgrees sampleServices sampleLibraries withoutSecrets savedInstallation := by
  have hselects : SelectsOutput sampleServices withoutSecrets contextInstallation.toSystem := by
    have hconfig : ApplicationConfig.load contextInstallation.config =
        .ok (operatorConfig ⟨none, some ⟨"monitoring"⟩, none, none⟩) := rfl
    apply (selectsOutput_context hconfig rfl).mpr
    rfl
  have hcomplete : journeyStage sampleServices sampleLibraries savedInstallation =
      .ok .complete := by decide +kernel
  have hrefused : entersApplication sampleServices sampleLibraries savedInstallation = false := by
    decide +kernel
  refine ⟨by decide +kernel, hselects, ?_, hcomplete, hrefused, ?_⟩
  · intro h
    have hreported := (h.output _ rfl).mpr hselects
    cases hreported
  · intro h
    rw [h.entry.mp hcomplete] at hrefused
    cases hrefused

end Sample

end Esdiag.ReadinessAgreement
