import Esdiag.KeyClosure
import Esdiag.ProcessSelections

/-!
Whether processing is only asked for what was collected. A selection leads
from its start options to everything they depend on, and a collection from the
sources of its type to everything they are collected with. A selection with keys
of the collection's product is validated as it is later asked for. An empty one
is validated with the defaults of the collection's type and asked for with those
of its own, and a selection for another product is not validated at all; there
the tags and dependencies of the registry decide.
-/
namespace Esdiag.SelectionCoverage

open KeyedMaps DepthFirstClosure SourceRegistry ApiResolver KeyClosure Deployments
  ProcessSelections Relation

/-- The options a selection starts from: its keys, or the defaults of its type
when it has none, and the required options. -/
def Start (registry : Registry) (selection : ProcessSelection) (root : String) : Prop :=
  ∃ defs defaults, processingDefs registry selection.product = .ok defs ∧
    defaultOptions registry selection.product selection.diagnosticType defs = .ok defaults ∧
    root ∈ requestedOptions selection.product defs defaults selection.selected

/-- One option depends on another directly. -/
def DependsOn (registry : Registry) (product key dep : String) : Prop :=
  ∃ defs, processingDefs registry product = .ok defs ∧
    (optionGraph product defs).Edge key dep

section Tags

variable (registry : Registry)

/-- A source that has the tag of a diagnostic type. -/
def Tagged (product : String) (diagType : DiagnosticType) (key : String) : Prop :=
  ∃ source, registry.getSource product key = some source ∧ source.hasTag diagType.tag = true

/-- The keys that an application collects whatever is asked. -/
def minimumRequired : Application → List String
  | .elasticsearch => esMinimumRequired
  | .kibana => kbMinimumRequired
  | .logstash => lsMinimumRequired
  | .agent => []

/-- A source of a diagnostic type. The minimal type has a tag for Elasticsearch only. -/
def OfType (application : Application) (diagType : DiagnosticType) (key : String) : Prop :=
  if diagType = .minimal ∧ application ≠ .elasticsearch then key ∈ minimumRequired application
  else Tagged registry application.key diagType key

/-- A source that is collected with another one. Those of Kibana need only a minimum key. -/
def CollectedWith (application : Application) (key dep : String) : Prop :=
  application ≠ .kibana ∧ ∃ source, registry.getSource application.key key = some source ∧
    dep ∈ source.collectDependencies

/-- A source that a collection begins with. -/
def Begins (application : Application) (diagType : DiagnosticType)
    (included excluded : Option (List String)) (key : String) : Prop :=
  (OfType registry application diagType key ∨
      Canonical registry application.key (included.getD []) key) ∧
    ¬ Canonical registry application.key (excluded.getD []) key ∨
  key ∈ minimumRequired application

/-- The tags of a type, its filters and the dependencies lead a collection to a source. -/
def Collects (application : Application) (diagnosticType : String)
    (included excluded : Option (List String)) (key : String) : Prop :=
  ∃ diagType, DiagnosticType.fromStr diagnosticType = .ok diagType ∧
    ∃ first, Begins registry application diagType included excluded first ∧
      ReflTransGen (CollectedWith registry application) first key

/-- A source with the option marker, which says whether the option is required. -/
def IsOption (product key : String) (required : Bool) : Prop :=
  ∃ source, registry.getSource product key = some source ∧ source.required = some required

def OptionNeeds (product key dep : String) : Prop :=
  ∃ source, registry.getSource product key = some source ∧ source.required.isSome = true ∧
    dep ∈ source.dependencies

/-- An option that a selection without keys stands for. -/
def DefaultOption (selection : ProcessSelection) (key : String) : Prop :=
  (∃ required, IsOption registry selection.product key required) ∧
    (isCustom selection.diagnosticType = true ∨
      ∃ application, validatedProduct application = some selection.product ∧
        Collects registry application selection.diagnosticType none none key)

/-- An option that a selection is asked for before its dependencies are. -/
def StartsFrom (selection : ProcessSelection) (key : String) : Prop :=
  (selection.selected = [] ∧ DefaultOption registry selection key ∨
    ∃ name ∈ selection.selected, legacyKeyMap selection.product (Texts.trim name) = key) ∨
  IsOption registry selection.product key true

/-- Every option that an option leads to is a source that the collection leads to. -/
def NeedsCollected (application : Application) (diagnosticType : String)
    (included excluded : Option (List String)) (product key : String) : Prop :=
  ∀ dep, ReflTransGen (OptionNeeds registry product) key dep →
    Collects registry application diagnosticType included excluded dep

/-- A selection without keys has defaults that are collected, and a selection for another
product has options that are. -/
def SelectionTagged (application : Application) (diagnosticType : String)
    (included excluded : Option (List String)) (explicit : Option ProcessSelection) : Prop :=
  ∀ selection, explicit = some selection →
    if validatedProduct application = some selection.product then
      selection.selected = [] → ∀ key, DefaultOption registry selection key →
        NeedsCollected registry application diagnosticType included excluded selection.product key
    else
      ∀ key, StartsFrom registry selection key →
        NeedsCollected registry application diagnosticType included excluded selection.product key

end Tags

section Collection

variable {registry : Registry}

theorem mem_baseKeys {product : String} {diagType : DiagnosticType} {key : String} :
    key ∈ baseKeys registry product diagType ↔ Tagged registry product diagType key := by
  unfold baseKeys Registry.getSourceKeysWithTag Tagged Registry.getSource
  rw [(List.perm_insertionSort _ _).mem_iff]
  cases hsources : registry.getProductSources product with
  | none => simp
  | some sources =>
    simp only [Option.map_some, Option.getD_some, Option.bind_some, List.mem_map, List.mem_filter]
    constructor
    · rintro ⟨⟨name, source⟩, ⟨hentry, htag⟩, rfl⟩
      exact ⟨source, KeyedMap.find?_eq_some_iff.mpr hentry, htag⟩
    · rintro ⟨source, hfind, htag⟩
      exact ⟨(key, source), ⟨KeyedMap.find?_eq_some_iff.mp hfind, htag⟩, rfl⟩

theorem needs_collectDependencies {product key dep : String} :
    Needs (collectDependencies registry product) key dep ↔
      ∃ source, registry.getSource product key = some source ∧
        dep ∈ source.collectDependencies := by
  unfold Needs dependenciesOf collectDependencies Registry.getSource
  cases hsources : registry.getProductSources product with
  | none => simp [KeyedMap.find?, KeyedMap.empty, findEntry]
  | some sources =>
    simp only [KeyedMap.find?_filterMap, Option.bind_some]
    cases hfind : sources.find? key with
    | none => simp
    | some source => by_cases hempty : source.collectDependencies = [] <;> simp [hempty]

theorem needs_kbDependencies {requested : List String} {key dep : String}
    (h : Needs (kbDependencies registry requested) key dep) : dep = "kibana_spaces" := by
  have hall : ∀ key, ∀ dep ∈ dependenciesOf (kbDependencies registry requested) key,
      dep = "kibana_spaces" := by
    refine List.foldlRecOn (motive := fun deps : Dependencies =>
      ∀ key, ∀ dep ∈ dependenciesOf deps key, dep = "kibana_spaces") requested _ ?_ ?_
    · exact fun key dep hdep => absurd hdep List.not_mem_nil
    · intro deps hdeps api _ one other hother
      split at hother
      · unfold dependenciesOf at hother
        rw [KeyedMap.find?_upsert] at hother
        split at hother
        · simp only [Option.getD_some, List.mem_append, List.mem_singleton] at hother
          exact hother.elim (hdeps api other) id
        · exact hdeps one other hother
      · exact hdeps one other hother
  exact hall key dep h

/-- What a closure lists is what its start leads to. -/
theorem mem_of_isClosure {dependencies : Dependencies} {start : Set String}
    {result : List String} (h : IsClosure dependencies start result) (key : String) :
    key ∈ result ↔ ∃ first ∈ start, ReflTransGen (Needs dependencies) first key := by
  constructor
  · intro hkey
    refine h.least {key | ∃ first ∈ start, ReflTransGen (Needs dependencies) first key} ?_ ?_
      key hkey
    · exact fun first hfirst => ⟨first, hfirst, .refl⟩
    · rintro one ⟨first, hfirst, hpath⟩ dep hdep
      exact ⟨first, hfirst, hpath.tail hdep⟩
  · rintro ⟨first, hfirst, hpath⟩
    induction hpath with
    | refl => exact h.contains first hfirst
    | tail _ hneeds ih => exact h.closed _ ih _ hneeds

/-- The keys that an application begins with for a diagnostic type. -/
def baseApis (registry : Registry) (application : Application) (diagType : DiagnosticType) :
    List String :=
  match application with
  | .elasticsearch => esBaseApis registry diagType
  | .kibana => kbBaseApis registry diagType
  | .logstash => lsBaseApis registry diagType
  | .agent => []

theorem mem_baseApis {application : Application} {diagType : DiagnosticType} {key : String}
    (happ : application ≠ .agent) :
    key ∈ baseApis registry application diagType ↔ OfType registry application diagType key := by
  unfold OfType
  cases application with
  | elasticsearch =>
    rw [if_neg (by simp)]
    exact mem_baseKeys
  | kibana | logstash =>
    cases diagType with
    | minimal =>
      rw [if_pos (by simp)]
      rfl
    | standard | light | support =>
      rw [if_neg (by simp)]
      exact mem_baseKeys
  | agent => exact absurd rfl happ

theorem begins_iff {application : Application} {diagType : DiagnosticType}
    {included excluded : Option (List String)} (happ : application ≠ .agent) (key : String) :
    key ∈ keptKeys registry application.key (baseApis registry application diagType) included
        excluded ∪ {key | key ∈ minimumRequired application} ↔
      Begins registry application diagType included excluded key :=
  or_congr_left (and_congr_left' (or_congr_left (mem_baseApis happ)))

theorem resolveEs_eq (diagType : DiagnosticType) (included excluded : Option (List String)) :
    resolveEs registry diagType included excluded =
      resolveKeys registry Application.elasticsearch.key
        (baseApis registry .elasticsearch diagType) included excluded
        (minimumRequired .elasticsearch)
        (collectDependencies registry Application.elasticsearch.key) := rfl

theorem resolveLs_eq (diagType : DiagnosticType) (included excluded : Option (List String)) :
    resolveLs registry diagType included excluded =
      resolveKeys registry Application.logstash.key (baseApis registry .logstash diagType)
        included excluded (minimumRequired .logstash)
        (collectDependencies registry Application.logstash.key) := rfl

/-- The keys of Elasticsearch and Logstash, whose dependencies the registry has. -/
theorem mem_resolveKeys_iff {application : Application} {diagType : DiagnosticType}
    {included excluded : Option (List String)} {keys : List String}
    (happ : application ≠ .agent) (hkibana : application ≠ .kibana)
    (hkeys : resolveKeys registry application.key (baseApis registry application diagType)
      included excluded (minimumRequired application)
      (collectDependencies registry application.key) = .ok keys)
    (key : String) :
    key ∈ keys ↔ ∃ first, Begins registry application diagType included excluded first ∧
      ReflTransGen (CollectedWith registry application) first key := by
  have hspec := resolveKeys_closure registry application.key
    (baseApis registry application diagType) included excluded
    (minimumRequired application) (collectDependencies registry application.key)
  rw [hkeys] at hspec
  have hneeds : Needs (collectDependencies registry application.key) =
      CollectedWith registry application := by
    funext one dep
    rw [needs_collectDependencies, CollectedWith, eq_true hkibana, true_and]
  simp only [mem_of_isClosure hspec, begins_iff happ, hneeds]

/-- The keys of Kibana. What one of them needs is a minimum key anyway. -/
theorem mem_resolveKb_iff {diagType : DiagnosticType} {included excluded : Option (List String)}
    {keys : List String} (hkeys : resolveKb registry diagType included excluded = .ok keys)
    (key : String) :
    key ∈ keys ↔ ∃ first, Begins registry .kibana diagType included excluded first ∧
      ReflTransGen (CollectedWith registry .kibana) first key := by
  have hspec := resolveKb_closure registry diagType included excluded
  rw [hkeys] at hspec
  obtain ⟨requested, -, hclosure⟩ := hspec
  rw [mem_of_isClosure hclosure]
  constructor
  · rintro ⟨first, hfirst, hpath⟩
    rcases hpath.cases_tail with rfl | ⟨one, -, hneeds⟩
    · exact ⟨key, (begins_iff (by decide) key).mp hfirst, .refl⟩
    · obtain rfl := needs_kbDependencies hneeds
      exact ⟨_, Or.inr (by decide), .refl⟩
  · rintro ⟨first, hfirst, hpath⟩
    rcases hpath.cases_tail with rfl | ⟨one, -, hwith⟩
    · exact ⟨key, (begins_iff (by decide) key).mpr hfirst, .refl⟩
    · exact absurd rfl hwith.1

/-- The collector collects what the tags, the filters and the dependencies lead it to. -/
theorem mem_collected_iff {application : Application} {diagnosticType : String}
    {included excluded : Option (List String)} {collected : List String}
    (h : collectorApis registry application diagnosticType included excluded = .ok collected)
    (key : String) :
    key ∈ collected ↔ Collects registry application diagnosticType included excluded key := by
  unfold collectorApis at h
  unfold Collects
  cases htype : DiagnosticType.fromStr diagnosticType with
  | error message => simp [htype] at h
  | ok diagType =>
    simp only [htype, Except.ok.injEq, exists_eq_left'] at h ⊢
    cases application with
    | elasticsearch =>
      rw [resolveEs_eq] at h
      exact mem_resolveKeys_iff (by decide) (by decide) h key
    | logstash =>
      rw [resolveLs_eq] at h
      exact mem_resolveKeys_iff (by decide) (by decide) h key
    | kibana => exact mem_resolveKb_iff h key
    | agent => simp at h

end Collection

/-- A selection that resolves is the closure of the keys it starts from. -/
theorem resolve_eq_ok {registry : Registry} {product diagnosticType : String}
    {selected resolved : List String} :
    resolveProcessingSelection registry product diagnosticType selected = .ok resolved ↔
      ∃ defs defaults, processingDefs registry product = .ok defs ∧
        defaultOptions registry product diagnosticType defs = .ok defaults ∧
        closure (optionGraph product defs) (requestedOptions product defs defaults selected) =
          .ok resolved := by
  unfold resolveProcessingSelection
  constructor
  · intro h
    cases hdefs : processingDefs registry product with
    | error message => simp [hdefs] at h
    | ok defs =>
      cases hdefaults : defaultOptions registry product diagnosticType defs with
      | error message => simp [hdefs, hdefaults] at h
      | ok defaults =>
        simp only [hdefs, hdefaults] at h
        exact ⟨defs, defaults, rfl, hdefaults, h⟩
  · rintro ⟨defs, defaults, hdefs, hdefaults, hclosure⟩
    simp only [hdefs, hdefaults, hclosure]

theorem dependsOn_eq {registry : Registry} {product : String} {defs : List ProcessingOptionDef}
    (hdefs : processingDefs registry product = .ok defs) :
    DependsOn registry product = (optionGraph product defs).Edge := by
  funext one other
  apply propext
  constructor
  · rintro ⟨found, hfound, hmem⟩
    rw [hdefs, Except.ok.injEq] at hfound
    rwa [hfound]
  · exact fun hmem => ⟨defs, hdefs, hmem⟩

theorem start_iff {registry : Registry} {selection : ProcessSelection}
    {defs : List ProcessingOptionDef} {defaults : List String}
    (hdefs : processingDefs registry selection.product = .ok defs)
    (hdefaults : defaultOptions registry selection.product selection.diagnosticType defs =
      .ok defaults) (root : String) :
    Start registry selection root ↔
      root ∈ requestedOptions selection.product defs defaults selection.selected := by
  constructor
  · rintro ⟨found, others, hfound, hothers, hroot⟩
    rw [hdefs, Except.ok.injEq] at hfound
    subst hfound
    rw [hdefaults, Except.ok.injEq] at hothers
    subst hothers
    exact hroot
  · exact fun hroot => ⟨defs, defaults, hdefs, hdefaults, hroot⟩

/-- What resolving a selection returns, in terms of options and dependencies. -/
theorem resolved_mem_iff {registry : Registry} {selection : ProcessSelection}
    {resolved : List String}
    (hresolved : resolveProcessingSelection registry selection.product
      selection.diagnosticType selection.selected = .ok resolved) (key : String) :
    key ∈ resolved ↔ ∃ root, Start registry selection root ∧
      ReflTransGen (DependsOn registry selection.product) root key := by
  obtain ⟨defs, defaults, hdefs, hdefaults, hclosure⟩ := resolve_eq_ok.mp hresolved
  simp only [(closure_spec hclosure).2.1 key, dependsOn_eq hdefs, start_iff hdefs hdefaults]

theorem validatedProduct_inj {one other : Application} {product : String}
    (hone : validatedProduct one = some product) (hother : validatedProduct other = some product) :
    one = other := by
  have hsame := hone.trans hother.symm
  cases one with
  | kibana | agent => exact absurd hone (by simp [validatedProduct])
  | elasticsearch | logstash =>
    cases other with
    | kibana | agent => exact absurd hother (by simp [validatedProduct])
    | elasticsearch | logstash => first | rfl | exact absurd hsame (by decide)

/-- The defaults of a product are the options that a collection of the type has. -/
theorem defaultProcessingSelection_eq_ok {registry : Registry}
    {product diagnosticType : String} {diagType : DiagnosticType}
    {defs : List ProcessingOptionDef} {defaults : List String}
    (hdefs : processingDefs registry product = .ok defs)
    (htype : DiagnosticType.fromStr diagnosticType = .ok diagType)
    (h : defaultProcessingSelection registry product diagType = .ok defaults) :
    ∃ application resolved, validatedProduct application = some product ∧
      collectorApis registry application diagnosticType none none = .ok resolved ∧
      resolved.filter (fun key => defs.any fun one => one.key == key) = defaults := by
  unfold defaultProcessingSelection at h
  rw [hdefs] at h
  unfold collectorApis
  rw [htype]
  by_cases helastic : product = "elasticsearch"
  · subst helastic
    cases hkeys : resolveEs registry diagType none none with
    | error message => simp [hkeys] at h
    | ok resolved => exact ⟨.elasticsearch, resolved, rfl, hkeys, by simpa [hkeys] using h⟩
  · by_cases hlogstash : product = "logstash"
    · subst hlogstash
      cases hkeys : resolveLs registry diagType none none with
      | error message => simp [hkeys] at h
      | ok resolved => exact ⟨.logstash, resolved, rfl, hkeys, by simpa [hkeys] using h⟩
    · simp [helastic, hlogstash] at h

section Options

variable {registry : Registry} {product : String} {defs : List ProcessingOptionDef}

theorem mem_defs_iff (hdefs : processingDefs registry product = .ok defs)
    {one : ProcessingOptionDef} :
    one ∈ defs ↔ ∃ source, registry.getSource product one.key = some source ∧
      source.required = some one.required ∧ source.dependencies = one.dependencies := by
  unfold processingDefs at hdefs
  unfold Registry.getSource
  cases hsources : registry.getProductSources product with
  | none => simp [hsources] at hdefs
  | some sources =>
    simp only [hsources] at hdefs
    split_ifs at hdefs
    obtain rfl := Except.ok.inj hdefs
    rw [(List.perm_insertionSort _ _).mem_iff, List.mem_filterMap, Option.bind_some]
    constructor
    · rintro ⟨⟨key, source⟩, hentry, hone⟩
      obtain ⟨required, hrequired, rfl⟩ := Option.map_eq_some_iff.mp hone
      exact ⟨source, KeyedMap.find?_eq_some_iff.mpr hentry, hrequired, rfl⟩
    · rintro ⟨source, hfind, hrequired, hdependencies⟩
      refine ⟨(one.key, source), KeyedMap.find?_eq_some_iff.mp hfind, ?_⟩
      simp [hrequired, hdependencies]

theorem option_iff (hdefs : processingDefs registry product = .ok defs) {key : String} :
    key ∈ defs.map ProcessingOptionDef.key ↔ ∃ required, IsOption registry product key required := by
  rw [List.mem_map]
  constructor
  · rintro ⟨one, hone, rfl⟩
    obtain ⟨source, hfind, hrequired, -⟩ := (mem_defs_iff hdefs).mp hone
    exact ⟨one.required, source, hfind, hrequired⟩
  · rintro ⟨required, source, hfind, hrequired⟩
    exact ⟨⟨key, required, source.dependencies⟩,
      (mem_defs_iff hdefs).mpr ⟨source, hfind, hrequired, rfl⟩, rfl⟩

theorem required_iff (hdefs : processingDefs registry product = .ok defs) {key : String} :
    key ∈ (defs.filter ProcessingOptionDef.required).map ProcessingOptionDef.key ↔
      IsOption registry product key true := by
  simp only [List.mem_map, List.mem_filter]
  constructor
  · rintro ⟨one, ⟨hone, htrue⟩, rfl⟩
    obtain ⟨source, hfind, hrequired, -⟩ := (mem_defs_iff hdefs).mp hone
    exact ⟨source, hfind, htrue ▸ hrequired⟩
  · rintro ⟨source, hfind, hrequired⟩
    exact ⟨⟨key, true, source.dependencies⟩,
      ⟨(mem_defs_iff hdefs).mpr ⟨source, hfind, hrequired, rfl⟩, rfl⟩, rfl⟩

/-- The search enters the keys that are offered, and no others. -/
theorem successors_isOk_iff {key : String} :
    (∃ deps, (optionGraph product defs).successors key = .ok deps) ↔
      ∃ option ∈ defs, option.key = key := by
  constructor
  · rintro ⟨deps, hdeps⟩
    cases hfind : defs.find? fun one => one.key = key with
    | none => simp [optionGraph, hfind] at hdeps
    | some option =>
      have hkey : option.key = key := by simpa using List.find?_some hfind
      exact ⟨option, List.mem_of_find?_eq_some hfind, hkey⟩
  · rintro ⟨option, hoption, hkey⟩
    cases hfind : defs.find? fun one => one.key = key with
    | none =>
      have hnot := List.find?_eq_none.mp hfind option hoption
      exact absurd (decide_eq_true hkey) hnot
    | some found => exact ⟨found.dependencies, by simp [optionGraph, hfind]⟩

theorem dependsOn_iff (hdefs : processingDefs registry product = .ok defs) {key dep : String} :
    DependsOn registry product key dep ↔ OptionNeeds registry product key dep := by
  rw [dependsOn_eq hdefs]
  cases hfind : defs.find? fun one => one.key = key with
  | none =>
    have hsuccessors : (optionGraph product defs).successors key =
        .error ("Unsupported processing option '" ++ key ++ "' for " ++ product) := by
      simp [optionGraph, hfind]
    constructor
    · rintro ⟨deps, hdeps, -⟩
      exact absurd (hsuccessors.symm.trans hdeps) (by simp)
    · rintro ⟨source, hsource, hmarked, -⟩
      obtain ⟨required, hrequired⟩ := Option.isSome_iff_exists.mp hmarked
      have hmem : ⟨key, required, source.dependencies⟩ ∈ defs :=
        (mem_defs_iff hdefs).mpr ⟨source, hsource, hrequired, rfl⟩
      exact absurd (List.find?_eq_none.mp hfind _ hmem) (by simp)
  | some found =>
    have hsuccessors : (optionGraph product defs).successors key = .ok found.dependencies := by
      simp [optionGraph, hfind]
    have hkey : found.key = key := by simpa using List.find?_some hfind
    obtain ⟨source, hsource, hrequired, hdependencies⟩ :=
      (mem_defs_iff hdefs).mp (List.mem_of_find?_eq_some hfind)
    rw [hkey] at hsource
    simp [Graph.Edge, OptionNeeds, hsuccessors, hsource, hrequired, hdependencies]

/-- The defaults of a type: all options for a custom one, else the options it collects. -/
theorem mem_defaults_iff {selection : ProcessSelection} {defaults : List String}
    (hdefs : processingDefs registry selection.product = .ok defs)
    (hdefaults : defaultOptions registry selection.product selection.diagnosticType defs =
      .ok defaults) (key : String) :
    key ∈ defaults ↔ DefaultOption registry selection key := by
  unfold defaultOptions at hdefaults
  unfold DefaultOption
  rw [← option_iff hdefs]
  split_ifs at hdefaults with hcustom
  · obtain rfl := Except.ok.inj hdefaults
    simp [hcustom]
  · cases htype : DiagnosticType.fromStr selection.diagnosticType with
    | error message => simp [htype] at hdefaults
    | ok diagType =>
      simp only [htype] at hdefaults
      obtain ⟨application, resolved, hproduct, hcollected, rfl⟩ :=
        defaultProcessingSelection_eq_ok hdefs htype hdefaults
      have hsame : ∀ other, validatedProduct other = some selection.product ↔
          other = application := fun other =>
        ⟨fun hother => validatedProduct_inj hother hproduct, fun heq => heq ▸ hproduct⟩
      simp only [List.mem_filter, hcustom, Bool.false_eq_true, false_or, hsame,
        exists_eq_left, ← mem_collected_iff hcollected]
      simp [List.any_eq_true, and_comm]

end Options

/-- Only the defaults depend on the diagnostic type. -/
theorem resolve_of_selected {registry : Registry} {product firstType secondType : String}
    {selected first second : List String} (hselected : selected ≠ [])
    (hfirst : resolveProcessingSelection registry product firstType selected = .ok first)
    (hsecond : resolveProcessingSelection registry product secondType selected = .ok second) :
    first = second := by
  have hnonempty : selected.isEmpty = false := by simpa using hselected
  unfold resolveProcessingSelection at hfirst hsecond
  cases hdefs : processingDefs registry product with
  | error message => simp [hdefs] at hfirst
  | ok defs =>
    cases hfirstDefaults : defaultOptions registry product firstType defs with
    | error message => simp [hdefs, hfirstDefaults] at hfirst
    | ok firstDefaults =>
      cases hsecondDefaults : defaultOptions registry product secondType defs with
      | error message => simp [hdefs, hsecondDefaults] at hsecond
      | ok secondDefaults =>
        simp only [hdefs, hfirstDefaults, hsecondDefaults, requestedOptions, hnonempty,
          Bool.false_eq_true, if_false] at hfirst hsecond
        rw [hfirst, Except.ok.injEq] at hsecond
        exact hsecond

theorem mem_requestedOptions {product : String} {defs : List ProcessingOptionDef}
    {defaults selected : List String} {key : String} :
    key ∈ requestedOptions product defs defaults selected ↔
      (selected = [] ∧ key ∈ defaults ∨
        ∃ name ∈ selected, legacyKeyMap product (Texts.trim name) = key) ∨
      key ∈ (defs.filter ProcessingOptionDef.required).map ProcessingOptionDef.key := by
  rw [requestedOptions, mem_foldl_insertNew]
  refine or_congr_left ?_
  by_cases hempty : selected = []
  · simp [hempty, mem_foldl_insertNew]
  · simp [hempty, mem_foldl_insertNew]

/-- What resolving a selection returns, in terms of the marked sources and what they need. -/
theorem mem_resolved_iff {registry : Registry} {selection : ProcessSelection}
    {resolved : List String}
    (hresolved : resolveProcessingSelection registry selection.product
      selection.diagnosticType selection.selected = .ok resolved) (key : String) :
    key ∈ resolved ↔ ∃ first, StartsFrom registry selection first ∧
      ReflTransGen (OptionNeeds registry selection.product) first key := by
  obtain ⟨defs, defaults, hdefs, hdefaults, -⟩ := resolve_eq_ok.mp hresolved
  have hneeds : DependsOn registry selection.product =
      OptionNeeds registry selection.product := by
    funext one dep
    exact propext (dependsOn_iff hdefs)
  have hstart : ∀ first, Start registry selection first ↔
      StartsFrom registry selection first := by
    intro first
    rw [start_iff hdefs hdefaults, mem_requestedOptions, required_iff hdefs,
      mem_defaults_iff hdefs hdefaults, StartsFrom]
  simp only [resolved_mem_iff hresolved, hneeds, hstart]

/-- Resolving again the options that were collected leads nowhere else. -/
theorem resolve_again {registry : Registry} {product diagnosticType : String}
    {collected resolved again : List String} {defs : List ProcessingOptionDef}
    (hdefs : processingDefs registry product = .ok defs)
    (hresolved : resolveProcessingSelection registry product diagnosticType
      (collected.filter fun key => (defs.map ProcessingOptionDef.key).contains key) =
        .ok resolved)
    (hcovered : ∀ key ∈ resolved, key ∈ collected)
    (hagain : resolveProcessingSelection registry product diagnosticType resolved = .ok again) :
    ∀ key ∈ again, key ∈ resolved := by
  obtain ⟨_, defaults, hfound, hdefaults, hclosure⟩ := resolve_eq_ok.mp hresolved
  obtain rfl := Except.ok.inj (hdefs.symm.trans hfound)
  obtain ⟨_, _, hfound', hdefaults', hclosure'⟩ := resolve_eq_ok.mp hagain
  obtain rfl := Except.ok.inj (hdefs.symm.trans hfound')
  obtain rfl := Except.ok.inj (hdefaults.symm.trans hdefaults')
  obtain ⟨-, hmem, hentered, -⟩ := closure_spec hclosure
  have hroots : ∀ root ∈ requestedOptions product defs defaults resolved, root ∈ resolved := by
    intro root hroot
    refine (hmem root).mpr ⟨root, ?_, .refl⟩
    rw [mem_requestedOptions] at hroot ⊢
    refine hroot.imp_left ?_
    rintro (⟨rfl, hdefault⟩ | ⟨name, hname, hkey⟩)
    · -- a first resolution without a result started from the defaults, of which there are none
      refine Or.inl ⟨?_, hdefault⟩
      by_contra hselected
      obtain ⟨first, hfirst⟩ := List.exists_mem_of_ne_nil _ hselected
      have hstart : legacyKeyMap product (Texts.trim first) ∈ requestedOptions product defs defaults
          (collected.filter fun key => (defs.map ProcessingOptionDef.key).contains key) :=
        mem_requestedOptions.mpr (.inl (.inr ⟨first, hfirst, rfl⟩))
      exact absurd ((hmem _).mpr ⟨_, hstart, .refl⟩) List.not_mem_nil
    · obtain ⟨deps, hdeps⟩ := hentered name hname
      refine Or.inr ⟨name, List.mem_filter.mpr ⟨hcovered name hname, ?_⟩, hkey⟩
      exact List.contains_iff_mem.mpr (List.mem_map.mpr (successors_isOk_iff.mp ⟨deps, hdeps⟩))
  intro key hkey
  obtain ⟨root, hroot, hpath⟩ := ((closure_spec hclosure').2.1 key).mp hkey
  obtain ⟨first, hfirst, hstart⟩ := (hmem root).mp (hroots root hroot)
  exact (hmem key).mpr ⟨first, hfirst, hstart.trans hpath⟩

theorem validateResolved_ok {collected resolved : List String}
    (hvalid : validateResolvedProcessingSelection collected resolved = .ok ()) :
    ∀ key ∈ resolved, key ∈ collected := by
  simp only [validateResolvedProcessingSelection] at hvalid
  split at hvalid
  · rename_i hempty
    intro key hkey
    have hnone := List.isEmpty_iff.mp hempty
    rw [List.filter_eq_nil_iff] at hnone
    simpa using hnone key hkey
  · simp at hvalid

/-- What the collector collects is what the validation takes for collected. -/
theorem collectorApis_eq_resolveCollectedKeys {registry : Registry} {application : Application}
    {product diagnosticType : String} {included excluded : Option (List String)}
    {collected validated : List String}
    (hproduct : validatedProduct application = some product)
    (hcollected : collectorApis registry application diagnosticType included excluded =
      .ok collected)
    (hvalidated : resolveCollectedKeys registry product diagnosticType included excluded =
      .ok validated) : validated = collected := by
  unfold collectorApis at hcollected
  unfold resolveCollectedKeys at hvalidated
  cases htype : DiagnosticType.fromStr diagnosticType with
  | error message => simp [htype] at hcollected
  | ok diagType =>
    have hcustom : isCustom diagnosticType = false := by
      cases hcase : isCustom diagnosticType with
      | false => rfl
      | true =>
        have hlower : Texts.toLowercase diagnosticType = "custom" :=
          Texts.toLowercase_of_toAsciiLowercase (by simpa [isCustom] using hcase) (by decide)
        simp [DiagnosticType.fromStr, hlower] at htype
    simp only [htype] at hcollected
    simp only [hcustom, Bool.false_eq_true, if_false, htype] at hvalidated
    cases application with
    | elasticsearch =>
      obtain rfl : "elasticsearch" = product := Option.some.inj hproduct
      simp only [if_true] at hvalidated
      rw [hvalidated, Except.ok.injEq] at hcollected
      exact hcollected
    | logstash =>
      obtain rfl : "logstash" = product := Option.some.inj hproduct
      have hne : ¬ "logstash" = "elasticsearch" := by decide
      simp only [if_neg hne, if_true] at hvalidated
      rw [hvalidated, Except.ok.injEq] at hcollected
      exact hcollected
    | kibana => simp [validatedProduct] at hproduct
    | agent => simp [validatedProduct] at hproduct

/-- A validated selection of the product's own keys, of any type. -/
theorem validated_covered {registry : Registry} {application : Application}
    {product diagnosticType : String} {included excluded : Option (List String)}
    {selected collected : List String}
    (hproduct : validatedProduct application = some product)
    (hcollected : collectorApis registry application diagnosticType included excluded =
      .ok collected)
    (hvalid : validateProcessingSelectionWithCollectFilters registry product diagnosticType
      included excluded selected = .ok ()) :
    ∃ resolved, resolveProcessingSelection registry product diagnosticType selected =
      .ok resolved ∧ ∀ key ∈ resolved, key ∈ collected := by
  unfold validateProcessingSelectionWithCollectFilters at hvalid
  cases hkeys : resolveCollectedKeys registry product diagnosticType included excluded with
  | error message => simp [hkeys] at hvalid
  | ok validated =>
    cases hresolved : resolveProcessingSelection registry product diagnosticType selected with
    | error message => simp [hkeys, hresolved] at hvalid
    | ok resolved =>
      simp only [hkeys, hresolved] at hvalid
      have hsame := collectorApis_eq_resolveCollectedKeys hproduct hcollected hkeys
      subst hsame
      exact ⟨resolved, rfl, validateResolved_ok hvalid⟩

/-- A derived selection was resolved from the collected options and validated. -/
theorem derived_covered {registry : Registry} {application : Application}
    {product diagnosticType : String} {included excluded : Option (List String)}
    {resolved collected : List String}
    (hproduct : validatedProduct application = some product)
    (hcollected : collectorApis registry application diagnosticType included excluded =
      .ok collected)
    (hderived : resolveProcessingSelectionWithCollectFilters registry product diagnosticType
      included excluded = .ok resolved) :
    ∃ defs, processingDefs registry product = .ok defs ∧
      resolveProcessingSelection registry product diagnosticType
        (collected.filter fun key => (defs.map ProcessingOptionDef.key).contains key) =
          .ok resolved ∧
      ∀ key ∈ resolved, key ∈ collected := by
  unfold resolveProcessingSelectionWithCollectFilters at hderived
  cases hkeys : resolveCollectedKeys registry product diagnosticType included excluded with
  | error message => simp [hkeys] at hderived
  | ok validated =>
    obtain rfl := collectorApis_eq_resolveCollectedKeys hproduct hcollected hkeys
    cases hdefs : processingDefs registry product with
    | error message => simp [hkeys, hdefs] at hderived
    | ok defs =>
      refine ⟨defs, rfl, ?_⟩
      cases hresolved : resolveProcessingSelection registry product diagnosticType
          (validated.filter fun key => (defs.map ProcessingOptionDef.key).contains key) with
      | error message =>
        simp only [hkeys, hdefs, hresolved] at hderived
        exact absurd hderived (by simp)
      | ok found =>
        simp only [hkeys, hdefs, hresolved] at hderived
        cases hvalid : validateResolvedProcessingSelection validated found with
        | error message => simp [hvalid, Except.map] at hderived
        | ok _ =>
          obtain rfl : found = resolved := by simpa [hvalid, Except.map] using hderived
          exact ⟨rfl, validateResolved_ok hvalid⟩

section Asked

variable {registry : Registry} {application : Application} {diagnosticType : String}
  {included excluded : Option (List String)} {asked : ProcessSelection} {collected : List String}

theorem canonicalize_ok {selection : ProcessSelection}
    (hasked : (canonicalizeProcessSelection registry selection).map some = .ok (some asked)) :
    resolveProcessingSelection registry selection.product selection.diagnosticType
      selection.selected = .ok asked.selected := by
  unfold canonicalizeProcessSelection at hasked
  cases hresolved : resolveProcessingSelection registry selection.product
      selection.diagnosticType selection.selected with
  | error message => simp [hresolved, Except.map] at hasked
  | ok resolved =>
    simp only [hresolved, Except.map, Except.ok.injEq, Option.some.injEq] at hasked
    rw [← hasked]

/-- A derived selection is asked for collected keys only. -/
theorem derived_asked {derived : Option ProcessSelection}
    (hvalid : collectProcessSelection registry application diagnosticType included excluded none =
      .ok derived)
    (hasked : processingSelection registry none derived = .ok (some asked))
    (hcollected : collectorApis registry application diagnosticType included excluded =
      .ok collected) :
    ∀ key ∈ asked.selected, key ∈ collected := by
  unfold collectProcessSelection at hvalid
  cases hproduct : validatedProduct application with
  | none =>
    obtain rfl : none = derived := by simpa [hproduct] using hvalid
    exact absurd hasked (by simp [processingSelection])
  | some product =>
    simp only [hproduct] at hvalid
    cases hderived : resolveProcessingSelectionWithCollectFilters registry product
        diagnosticType included excluded with
    | error message => simp [hderived, Except.map] at hvalid
    | ok resolved =>
      obtain rfl : some ⟨product, diagnosticType, resolved⟩ = derived := by
        simpa [hderived, Except.map] using hvalid
      obtain ⟨defs, hdefs, hresolved, hcovered⟩ := derived_covered hproduct hcollected hderived
      have hagain := canonicalize_ok (by simpa [processingSelection] using hasked)
      intro key hkey
      exact hcovered key (resolve_again hdefs hresolved hcovered hagain key hkey)

/-- A selection for the collection's product was validated. Only its defaults can differ. -/
theorem validated_asked_iff {selection : ProcessSelection}
    (hproduct : validatedProduct application = some selection.product)
    (hvalid : validateProcessingSelectionWithCollectFilters registry selection.product
      diagnosticType included excluded selection.selected = .ok ())
    (hresolved : resolveProcessingSelection registry selection.product
      selection.diagnosticType selection.selected = .ok asked.selected)
    (hcollected : collectorApis registry application diagnosticType included excluded =
      .ok collected) :
    (∀ key ∈ asked.selected, key ∈ collected) ↔
      (selection.selected = [] → ∀ key, DefaultOption registry selection key →
        NeedsCollected registry application diagnosticType included excluded selection.product
          key) := by
  obtain ⟨validated, hvalidated, hcovered⟩ := validated_covered hproduct hcollected hvalid
  simp only [NeedsCollected, ← mem_collected_iff hcollected]
  constructor
  · intro hall hempty key hdefault dep hpath
    exact hall dep ((mem_resolved_iff hresolved dep).mpr
      ⟨key, .inl (.inl ⟨hempty, hdefault⟩), hpath⟩)
  · intro hdefaults key hkey
    by_cases hempty : selection.selected = []
    · obtain ⟨first, hstart, hpath⟩ := (mem_resolved_iff hresolved key).mp hkey
      rcases hstart with (⟨-, hdefault⟩ | ⟨name, hname, -⟩) | hrequired
      · exact hdefaults hempty first hdefault key hpath
      · exact absurd (hempty ▸ hname) List.not_mem_nil
      · refine hcovered key ?_
        have hiff := @mem_resolved_iff registry
          ⟨selection.product, diagnosticType, selection.selected⟩ _ hvalidated key
        exact hiff.mpr ⟨first, .inr hrequired, hpath⟩
    · rw [resolve_of_selected hempty hresolved hvalidated] at hkey
      exact hcovered key hkey

/-- A selection for another product was not validated. -/
theorem unvalidated_asked_iff {selection : ProcessSelection}
    (hresolved : resolveProcessingSelection registry selection.product
      selection.diagnosticType selection.selected = .ok asked.selected)
    (hcollected : collectorApis registry application diagnosticType included excluded =
      .ok collected) :
    (∀ key ∈ asked.selected, key ∈ collected) ↔
      ∀ key, StartsFrom registry selection key →
        NeedsCollected registry application diagnosticType included excluded selection.product
          key := by
  simp only [NeedsCollected, ← mem_collected_iff hcollected, mem_resolved_iff hresolved]
  constructor
  · exact fun hall key hstart dep hpath => hall dep ⟨key, hstart, hpath⟩
  · rintro hall key ⟨first, hstart, hpath⟩
    exact hall first hstart key hpath

end Asked

/-- For a job that passed validation and whose selection resolves: processing is asked for
collected keys only, exactly when the tags and the dependencies of the registry cover an
explicit selection that was not validated for what it stands for. -/
theorem asked_keys_collected_iff (registry : Registry) (application : Application)
    (diagnosticType : String) (included excluded : Option (List String))
    (explicit derived : Option ProcessSelection) (asked : ProcessSelection)
    (collected : List String)
    (hvalid : collectProcessSelection registry application diagnosticType included excluded
      explicit = .ok derived)
    (hasked : processingSelection registry explicit derived = .ok (some asked))
    (hcollected : collectorApis registry application diagnosticType included excluded =
      .ok collected) :
    (∀ key ∈ asked.selected, key ∈ collected) ↔
      SelectionTagged registry application diagnosticType included excluded explicit := by
  cases explicit with
  | none =>
    refine iff_of_true (derived_asked hvalid hasked hcollected) ?_
    exact fun selection hselection => absurd hselection (by simp)
  | some selection =>
    have hresolved : resolveProcessingSelection registry selection.product
        selection.diagnosticType selection.selected = .ok asked.selected :=
      canonicalize_ok (by simpa [processingSelection] using hasked)
    simp only [SelectionTagged, Option.some.injEq, forall_eq']
    by_cases hproduct : validatedProduct application = some selection.product
    · rw [if_pos hproduct]
      refine validated_asked_iff hproduct ?_ hresolved hcollected
      simp only [collectProcessSelection, hproduct] at hvalid
      cases hchecked : validateProcessingSelectionWithCollectFilters registry selection.product
          diagnosticType included excluded selection.selected with
      | error message => simp [hchecked, Except.map] at hvalid
      | ok _ => rfl
    · rw [if_neg hproduct]
      exact unvalidated_asked_iff hresolved hcollected

section Samples

/-- A source with the option marker, without its request paths. -/
def optionSource (tags : String) (required : Bool)
    (dependencies collectDependencies : List String) : Source :=
  ⟨some tags, some required, dependencies, collectDependencies, .empty⟩

/-- The options of the embedded sources for Elasticsearch. -/
def elasticsearchOptions : Sources :=
  ⟨[("cluster_pending_tasks", optionSource "standard,support,lite" false ["version"] []),
    ("cluster_settings",
      optionSource "standard,support" false ["version", "cluster_settings_defaults"] []),
    ("cluster_settings_defaults",
      optionSource "standard,light,support,lite" true ["version"] []),
    ("indices_stats",
      optionSource "standard,support,lite" false ["version", "cluster_settings_defaults"] []),
    ("health_report", optionSource "light,standard,support" false ["version"] []),
    ("nodes", optionSource "light,minimal,standard,support,lite" false ["version"] []),
    ("nodes_stats", optionSource "light,standard,support,lite" false
      ["nodes", "cluster_settings_defaults", "version"] ["nodes"]),
    ("repositories", optionSource "light,standard,support" false ["version"] []),
    ("indices_settings", optionSource "light,standard,support,lite" false
      ["version", "cluster_settings_defaults"] []),
    ("snapshot", optionSource "standard,support" false ["repositories", "version"] []),
    ("tasks", optionSource "light,standard,support,lite" false ["nodes", "version"] []),
    ("version", optionSource "light,minimal,standard,support,lite" true [] []),
    ("ilm_policies", optionSource "light,standard,support,lite" false ["version"] []),
    ("searchable_snapshots_stats", optionSource "support" false ["version"] []),
    ("slm_policies", optionSource "light,standard,support,lite" false
      ["repositories", "version"] [])], by decide +kernel⟩

def embeddedOptions : Registry := ⟨[("elasticsearch", elasticsearchOptions)], by decide⟩

/-- A collection of the light type, and what is asked for of a selection of one option of it. -/
theorem light_run :
    collectProcessSelection embeddedOptions .elasticsearch "light" none none
      (some ⟨"elasticsearch", "support", ["tasks"]⟩) = .ok none ∧
    collectorApis embeddedOptions .elasticsearch "light" none none =
      .ok ["cluster_settings_defaults", "health_report", "ilm_policies", "indices_settings",
        "nodes", "nodes_stats", "repositories", "slm_policies", "tasks", "version"] ∧
    processingSelection embeddedOptions (some ⟨"elasticsearch", "support", ["tasks"]⟩) none =
      .ok (some ⟨"elasticsearch", "support",
        ["version", "nodes", "tasks", "cluster_settings_defaults"]⟩) := by
  decide +kernel

/-- An explicit selection of a collected option, for another type. -/
theorem tasks_selection_collected : ∃ collected,
    collectorApis embeddedOptions .elasticsearch "light" none none = .ok collected ∧
    processingSelection embeddedOptions (some ⟨"elasticsearch", "support", ["tasks"]⟩) none =
      .ok (some ⟨"elasticsearch", "support",
        ["version", "nodes", "tasks", "cluster_settings_defaults"]⟩) ∧
    ∀ key ∈ ["version", "nodes", "tasks", "cluster_settings_defaults"], key ∈ collected := by
  obtain ⟨hvalid, hcollected, hasked⟩ := light_run
  refine ⟨_, hcollected, hasked, (asked_keys_collected_iff embeddedOptions .elasticsearch
    "light" none none (some ⟨"elasticsearch", "support", ["tasks"]⟩) none
    ⟨"elasticsearch", "support", ["version", "nodes", "tasks", "cluster_settings_defaults"]⟩
    _ hvalid hasked hcollected).mpr ?_⟩
  intro selection hselection
  obtain rfl := Option.some.inj hselection
  rw [if_pos (by rfl)]
  exact fun hempty => absurd hempty (by simp)

/-- A collection of the standard type, and what is asked for of no option of the support type. -/
theorem standard_run :
    collectProcessSelection embeddedOptions .elasticsearch "standard" none none
      (some ⟨"elasticsearch", "support", []⟩) = .ok none ∧
    collectorApis embeddedOptions .elasticsearch "standard" none none =
      .ok ["cluster_pending_tasks", "cluster_settings", "cluster_settings_defaults",
        "health_report", "ilm_policies", "indices_settings", "indices_stats", "nodes",
        "nodes_stats", "repositories", "slm_policies", "snapshot", "tasks", "version"] ∧
    processingSelection embeddedOptions (some ⟨"elasticsearch", "support", []⟩) none =
      .ok (some ⟨"elasticsearch", "support", ["version", "cluster_pending_tasks",
        "cluster_settings_defaults", "cluster_settings", "health_report", "ilm_policies",
        "indices_settings", "indices_stats", "nodes", "nodes_stats", "repositories",
        "searchable_snapshots_stats", "slm_policies", "snapshot", "tasks"]⟩) := by
  decide +kernel

/-- An empty selection of the support type passes validation with the defaults of the
standard type, and then asks for an option that only support collects. -/
theorem empty_selection_asks_for_uncollected : ∃ collected asked,
    collectProcessSelection embeddedOptions .elasticsearch "standard" none none
      (some ⟨"elasticsearch", "support", []⟩) = .ok none ∧
    collectorApis embeddedOptions .elasticsearch "standard" none none = .ok collected ∧
    processingSelection embeddedOptions (some ⟨"elasticsearch", "support", []⟩) none =
      .ok (some asked) ∧
    "searchable_snapshots_stats" ∈ asked.selected ∧
      "searchable_snapshots_stats" ∉ collected :=
  ⟨_, _, standard_run.1, standard_run.2.1, standard_run.2.2, by decide, by decide⟩

end Samples

end Esdiag.SelectionCoverage
