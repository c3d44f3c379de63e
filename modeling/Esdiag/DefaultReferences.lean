import Esdiag.CommandJobs
import Esdiag.OutputSources

/-!
The default output and the name that a saved job keeps of it. A configured
context resolves to one Elasticsearch service, whether it is asked for as the
output deployment or through the reference that names it: the roles differ, the
service, its credential and its viewer do not. A stored default is found under
its own name, as long as no other kind of reference reads that name first.
-/
namespace Esdiag.DefaultReferences

open KeyedMaps Deployments KnownHosts HostFiles HostBuilders HostRoundTrip ElasticContexts
  ApplicationConfigs OutputDeployments OutputSources HostReferences CommandJobs Outcomes

section Contexts

variable {Url Key : Type} {world : World Url} {libs : KeystoreOperations.Libraries Key}

theorem contextReference_eq_ok {context : ElasticOutputContext} {name : String}
    (h : contextReference context = .ok name) :
    name = "." ++ context.context ++ ".es" ∧
      ElasticContextTarget.parse name = .ok (some ⟨some context.context, .elasticsearch, none⟩) := by
  unfold contextReference at h
  dsimp only at h
  split_ifs at h with hparse
  obtain rfl := Except.ok.inj h
  exact ⟨rfl, hparse⟩

theorem trim_contextReference (context : String) :
    Texts.trim ("." ++ context ++ ".es") = "." ++ context ++ ".es" := by
  have htext : ("." ++ context ++ ".es").toList =
      '.' :: (context.toList ++ ['.', 'e']) ++ ['s'] := by
    simp
  exact Texts.trim_eq_self htext rfl rfl

/-- The host of a service has the roles it is asked for, and is else the same. -/
theorem contextHost_withRoles {service : ContextService Url} {app : Application}
    {role : HostRole} {host : KnownHost Url}
    (h : knownHostFromService world.lib service app role = .ok host) (roles : List HostRole) :
    contextHost world service app roles = .ok { host with roles } := by
  have hbuilt : (runtimeHost service.url app role service.auth).build world.lib.toQueryLibrary =
      .ok host := Outcomes.mapError_eq_ok.mp h
  exact Outcomes.mapError_eq_ok.mpr (KnownHostBuilder.build_withRoles hbuilt roles)

/-- What the deployment of a context is made of. -/
theorem configOutputHosts_eq_ok {resolveAuth : Credential → Except OutputError Auth}
    {context : Option String} {hosts : OutputHosts Url}
    (h : configOutputHosts world.lib resolveAuth world.system context false = .ok hosts) :
    ∃ config es, world.system.elasticConfig = .ok (some config) ∧
      resolveConfigService world.lib world.system.resolvers config context .elasticsearch =
        .ok es ∧
      knownHostFromService world.lib es .elasticsearch .send = .ok hosts.elasticsearch ∧
      contextKibana world.lib world.system.resolvers config context false = .ok hosts.kibana := by
  unfold configOutputHosts at h
  cases hconfig : world.system.elasticConfig with
  | error error => simp [hconfig] at h
  | ok found =>
    cases found with
    | none => simp [hconfig] at h
    | some config =>
      rw [hconfig] at h
      obtain ⟨es, hes, h⟩ := bind_eq_ok h
      obtain ⟨elasticsearch, helastic, h⟩ := bind_eq_ok h
      obtain ⟨auth, -, h⟩ := bind_eq_ok h
      obtain ⟨kibana, hkibana, h⟩ := bind_eq_ok h
      obtain ⟨kibanaAuth, -, h⟩ := bind_eq_ok h
      obtain rfl := Except.ok.inj h
      exact ⟨config, es, rfl, Outcomes.mapError_eq_ok.mp hes, helastic, hkibana⟩

/-- A target that names its context has the viewer of the deployment of that context. -/
theorem resolveViewer_of_context {config : ElasticConfig} {context : String}
    {kibana : Option (KnownHost Url)}
    (hconfig : world.system.elasticConfig = .ok (some config))
    (h : contextKibana world.lib world.system.resolvers config (some context) false =
      .ok kibana) :
    resolveViewer world ⟨some context, .elasticsearch, none⟩ = .ok kibana := by
  unfold contextKibana at h
  unfold resolveViewer viewerService usesActiveEnvironment
  simp only [Option.isNone_some, Bool.false_and, Bool.false_eq_true, if_false, hconfig]
  cases hservice : resolveConfigService world.lib world.system.resolvers config (some context)
      .kibana with
  | ok service =>
    simp only [hservice] at h
    exact h
  | error error =>
    cases error with
    | missingService name service =>
      simp only [hservice, Bool.false_eq_true, if_false] at h
      exact h
    | _ => simp [hservice] at h

theorem resolveTarget_of_context {config : ElasticConfig} {context : String}
    {es : ContextService Url} {elasticsearch : KnownHost Url} {kibana : Option (KnownHost Url)}
    (hconfig : world.system.elasticConfig = .ok (some config))
    (hes : resolveConfigService world.lib world.system.resolvers config (some context)
      .elasticsearch = .ok es)
    (helastic : knownHostFromService world.lib es .elasticsearch .send = .ok elasticsearch)
    (hkibana : contextKibana world.lib world.system.resolvers config (some context) false =
      .ok kibana) :
    resolveTarget world ⟨some context, .elasticsearch, none⟩ =
      .ok ⟨{ elasticsearch with roles := [.collect, .send] }, kibana⟩ := by
  have hservice : resolveService world ⟨some context, .elasticsearch, none⟩ .elasticsearch =
      .ok es := by
    unfold resolveService configService
    simp only [Option.isNone_some, Bool.false_and, Bool.false_eq_true, if_false, hconfig, hes]
    rfl
  have hhost : serviceHost world ⟨some context, .elasticsearch, none⟩ .elasticsearch
      [.collect, .send] = .ok { elasticsearch with roles := [.collect, .send] } := by
    unfold serviceHost
    rw [hservice]
    exact contextHost_withRoles helastic _
  unfold resolveTarget
  simp only [Option.isSome_none, Bool.false_eq_true, if_false, hhost, Except.map,
    resolveViewer_of_context hconfig hkibana, Except.mapError, Except.toOption,
    Option.join_some]

/-- What the checks for runtime use keep of a host, and what they need. -/
theorem resolveHost_eq_ok {runtime : RuntimeHost Url} {host : ResolvedHost Url}
    (h : resolveHost runtime = .ok host) :
    runtime.host.urlTemplate = none ∧ runtime.host.url.isSome = true ∧
      runtime.host.app = some host.application ∧
      host.host = { runtime.host with roles := normalizeRoles runtime.host.roles } ∧
      host.attachedViewer = runtime.attachedViewer := by
  unfold resolveHost at h
  split at h
  · exact absurd h (by simp)
  · rename_i htemplate
    split at h
    · exact absurd h (by simp)
    · rename_i application happ
      split at h
      · exact absurd h (by simp)
      · split at h
        · exact absurd h (by simp)
        · rename_i hurl
          dsimp only at h
          split at h
          · exact absurd h (by simp)
          · obtain rfl := Except.ok.inj h
            exact ⟨by simpa using htemplate, by simpa [Option.isSome_iff_ne_none] using hurl,
              happ, rfl, rfl⟩

/-- An Elasticsearch host passes the checks with the roles of a context service. -/
theorem resolveHost_contextRoles {runtime : RuntimeHost Url} {host : ResolvedHost Url}
    (h : resolveHost runtime = .ok host) (happ : host.application = .elasticsearch) :
    ∃ resolved, resolveHost
        ⟨{ runtime.host with roles := [.collect, .send] }, runtime.attachedViewer⟩ =
          .ok resolved ∧
      resolved.host = { host.host with roles := [.collect, .send] } ∧
      resolved.attachedViewer = host.attachedViewer ∧
      resolved.application = .elasticsearch := by
  obtain ⟨htemplate, hurl, hruntime, hhost, hviewer⟩ := resolveHost_eq_ok h
  rw [happ] at hruntime
  obtain ⟨known, attached⟩ := runtime
  obtain ⟨certs, app, cloudId, roles, viewer, url, template, credential⟩ := known
  simp only at htemplate hurl hruntime hhost hviewer
  subst htemplate hruntime
  obtain ⟨address, rfl⟩ := Option.isSome_iff_exists.mp hurl
  refine ⟨⟨⟨_, _⟩, .elasticsearch, rfl, by simp⟩, rfl, ?_, hviewer.symm, rfl⟩
  rw [hhost]
  rfl

theorem lookup_of_context {context : ElasticOutputContext} {name : String}
    {runtime : RuntimeHost Url} {resolved : ResolvedHost Url}
    (hname : contextReference context = .ok name)
    (htarget : resolveTarget world ⟨some context.context, .elasticsearch, none⟩ = .ok runtime)
    (hresolved : resolveHost runtime = .ok resolved) :
    lookup world name = .ok (some resolved) := by
  obtain ⟨hshape, hparse⟩ := contextReference_eq_ok hname
  have htrim : Texts.trim name = name := by
    rw [hshape]
    exact trim_contextReference context.context
  have hreference : parseReference world name =
      .ok (some ⟨name, .elasticContext ⟨some context.context, .elasticsearch, none⟩⟩) := by
    unfold parseReference
    rw [htrim]
    simp only [hparse]
  unfold lookup
  rw [hreference]
  simp only [resolveReference, selectedHost, htarget, hresolved, Except.map]

theorem destinationOf_congr {host host' : ResolvedHost Url} {roles : List HostRole}
    (hhost : host'.host = { host.host with roles })
    (hviewer : host'.attachedViewer = host.attachedViewer) :
    destinationOf host' = destinationOf host := by
  unfold destinationOf uriOf
  rw [hhost, hviewer]

theorem exportHost_eq {name : String} {host : ResolvedHost Url}
    (hlookup : lookup world (Texts.trim name) = .ok (some host))
    (hrole : .send ∈ host.host.roles) (happ : host.application = .elasticsearch) :
    exportHost world name = destinationOf host := by
  unfold exportHost
  dsimp only
  rw [hlookup]
  simp only [hrole, happ, ne_eq, not_true, if_false]

/-- The name of a configured context exports to where the context does. -/
theorem exportHost_of_context {config : ApplicationConfig} {context : ElasticOutputContext}
    {name : String} {host : ResolvedHost Url}
    (hload : ApplicationConfig.load world.system.config = .ok config)
    (hcontext : config.output.elasticContext = some context)
    (hname : contextReference context = .ok name)
    (hdefault : defaultOutput world libs = .ok host) :
    exportHost world name = destinationOf host := by
  unfold defaultOutput deploymentHost OutputDeployments.resolve resolveWith at hdefault
  simp only [hload, hcontext] at hdefault
  cases hhosts : resolveOutputHosts world.lib (systemAuth libs world.system) world.system
      (some context.context) false with
  | error error => simp [hhosts, Except.map] at hdefault
  | ok hosts =>
    have hconfig : configOutputHosts world.lib (systemAuth libs world.system) world.system
        (some context.context) false = .ok hosts := by
      simpa [resolveOutputHosts] using hhosts
    obtain ⟨elasticConfig, es, hfound, hes, helastic, hkibana⟩ :=
      configOutputHosts_eq_ok hconfig
    simp only [hhosts, Except.map, OutputDeployment.assemble] at hdefault
    have happ : host.application = .elasticsearch := by
      have hbuilt := (runtimeHost_built helastic).1
      obtain ⟨-, -, happ, -⟩ := resolveHost_eq_ok hdefault
      exact Option.some.inj (happ.symm.trans hbuilt)
    obtain ⟨resolved, hresolved, hhost, hviewer, hresolvedApp⟩ :=
      resolveHost_contextRoles hdefault happ
    have hlookup := lookup_of_context hname
      (resolveTarget_of_context hfound hes helastic hkibana) hresolved
    have htrim : Texts.trim name = name := by
      rw [(contextReference_eq_ok hname).1]
      exact trim_contextReference context.context
    rw [exportHost_eq (by rw [htrim]; exact hlookup) (by simp [hhost]) hresolvedApp]
    exact destinationOf_congr hhost hviewer

end Contexts

section StoredNames

variable {Url Key : Type} {world : World Url} {libs : KeystoreOperations.Libraries Key}

/-- A name that only a saved host can have: trimmed, and read as nothing else. -/
def IsPlainName (world : World Url) (name : String) : Prop :=
  Texts.trim name = name ∧ ElasticContextTarget.parse name = .ok none ∧
    parseTemplateReference world.urlParts name = .ok none

/-- A stored default with a plain name exports to the same host by its name, where the
environment declares no output. -/
theorem exportHost_of_plainName {config : ApplicationConfig} {name : String}
    {host : ResolvedHost Url}
    (hload : ApplicationConfig.load world.system.config = .ok config)
    (hcontext : config.output.elasticContext = none)
    (hname : config.output.default = some name) (hplain : IsPlainName world name)
    (hundeclared : runtimeOutputIsDeclared world.system = false)
    (hdefault : defaultOutput world libs = .ok host) :
    exportHost world name = destinationOf host := by
  obtain ⟨htrim, hparse, htemplate⟩ := hplain
  unfold defaultOutput deploymentHost OutputDeployments.resolve resolveWith at hdefault
  simp only [hload, hcontext, hundeclared, Bool.false_eq_true, if_false] at hdefault
  unfold fromPersisted persistedOutput at hdefault
  simp only [hload, hname] at hdefault
  cases hknown : getKnown world.lib world.system name with
  | none => simp [hknown, Except.map, bind, Except.bind] at hdefault
  | some known =>
    simp only [hknown] at hdefault
    cases hhosts : fromSaved world.lib (systemAuth libs world.system) world.system known
        false with
    | error error => simp [hhosts, Except.map, bind, Except.bind] at hdefault
    | ok hosts =>
      obtain ⟨_, hsend, hrest⟩ := bind_eq_ok hhosts
      obtain ⟨auth, -, hrest⟩ := bind_eq_ok hrest
      obtain rfl := Except.ok.inj hrest
      have hresolved : resolveHost ⟨known, none⟩ = .ok host := by
        simpa [hhosts, Except.map, bind, Except.bind, OutputDeployment.assemble] using hdefault
      obtain ⟨hplainHost, -, happ, hhost, -⟩ := resolveHost_eq_ok hresolved
      have hconcrete : known.urlTemplate = none := hplainHost
      unfold validateSendHost at hsend
      split_ifs at hsend with hinvalid
      simp only [not_or, not_not] at hinvalid
      have hlookup : lookup world name = .ok (some host) := by
        have hreference : parseReference world name = .ok (some ⟨name, .saved⟩) := by
          unfold parseReference
          rw [htrim]
          simp only [hparse, htemplate, hknown, Option.isSome_some, if_true]
        unfold lookup
        rw [hreference]
        simp only [resolveReference, selectedHost, hknown, hconcrete, Option.isSome_none,
          Bool.false_eq_true, if_false, hresolved, Except.map]
      have hrole : .send ∈ host.host.roles := by
        rw [hhost]
        exact mem_normalizeRoles.mpr (Or.inl hinvalid.2)
      have helastic : host.application = .elasticsearch :=
        Option.some.inj (happ.symm.trans hinvalid.1)
      exact exportHost_eq (by rw [htrim]; exact hlookup) hrole helastic

end StoredNames

end Esdiag.DefaultReferences
