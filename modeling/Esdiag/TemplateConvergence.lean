import Esdiag.TemplateUpgrades

/-!
Upgrades of templates converge. No data stream keeps a write index from before
an installed version of its templates, and no version is lowered. This holds as
long as a run that raises a template is not kept from rolling over: the memory of
what was raised is not written anywhere, so that a later run finds the versions
equal. It also takes that templates which stay at their version stay as they are
and that a newer template is not read as missing.
-/
namespace Esdiag.TemplateConvergence

open KeyedMaps GuardedRuns TemplateUpgrades

section Conditions

variable (resolve : KeyedMap String Scope → String → Option String)

/-- A write index of that moment was created before the version of a template. -/
def predates (created : ℕ) (installed : Option Installed) : Bool :=
  installed.any fun installed =>
    installed.template.version.isSome && decide (created < installed.since)

/-- The write index was created before the installed version of the index template, or of a
component template that it is composed of. -/
def isStale (cluster : Cluster) (stream : String) : Bool :=
  (cluster.dataStreams.find? stream).any fun created =>
    ((cluster.templateOf resolve stream).bind cluster.indexTemplates.find?).any fun installed =>
      predates created (some installed) || installed.template.composedOf.any fun component =>
        predates created (cluster.componentTemplates.find? component)

def isConverged (cluster : Cluster) : Bool :=
  cluster.dataStreams.entries.all fun entry => !isStale resolve cluster entry.1

/-- The data stream is shaped by the template. -/
def usesTemplate (cluster : Cluster) (endpoint : Endpoint) (name stream : String) : Bool :=
  (cluster.templateOf resolve stream).any fun template =>
    match endpoint with
    | .indexTemplate => decide (template = name)
    | .componentTemplate =>
      (cluster.indexTemplates.find? template).any fun installed =>
        decide (name ∈ installed.template.composedOf)
    | .other => false

/-- A put leaves every data stream to its index template, and that to its components, but
for the streams that a raised index template takes. -/
def keepsUse (before after : Cluster) (name : String) (template : Template) (raised : Bool) :
    Bool :=
  before.dataStreams.entries.all fun entry =>
    (raised && decide (after.templateOf resolve entry.1 = some name)) ||
      (decide (after.templateOf resolve entry.1 = before.templateOf resolve entry.1) &&
        (decide (before.templateOf resolve entry.1 ≠ some name) ||
          (before.indexTemplates.find? name).any fun installed =>
            decide (installed.template.composedOf = template.composedOf)))

/-- A template that is put without a note of its rise keeps its version, or no data stream
uses it, and it keeps what it is used for. -/
def putsSafely (cluster : Cluster) (file : AssetFile) (raised : Bool) : Bool :=
  (decide (file.asset.endpoint ≠ .indexTemplate) ||
    keepsUse resolve cluster (cluster.putFile file) file.name file.contents raised) &&
  (raised ||
    decide (cluster.installedVersion file.asset.endpoint file.name = file.contents.version) ||
    cluster.dataStreams.entries.all fun entry =>
      !usesTemplate resolve (cluster.putFile file) file.asset.endpoint file.name entry.1)

/-- The index template of a data stream was put by the run if a component of it was raised. -/
def isRecorded (cluster : Cluster) (changes : TemplateChanges) (stream : String) : Bool :=
  (cluster.templateOf resolve stream).all fun template =>
    (cluster.indexTemplates.find? template).all fun installed =>
      !(installed.template.composedOf.any fun name =>
        decide (name ∈ changes.componentTemplates)) ||
      decide (changes.composedOf.find? template = some installed.template.composedOf)

def isOrderlyRequest (cluster : Cluster) (run : SetupRun) (answer : Answer) : Bool :=
  match run.phase, run.files with
  | .lookup, file :: _ =>
    decide (answer = .ok) || !templateVersionDowngrade
      (cluster.installedVersion file.asset.endpoint file.name) file.contents.version
  | .send template, file :: _ =>
    match answer with
    | .ok => putsSafely resolve cluster file (template.any Prod.snd)
    | .lost => putsSafely resolve cluster file false
    | .refused _ => true
  | .sent, _ => cluster.dataStreams.entries.all fun entry =>
      isRecorded resolve cluster run.changes entry.1
  | .list, _ => decide (answer = .ok) || isConverged resolve cluster
  | .rollover ((stream, _) :: _) _, _ =>
    decide (answer = .ok) || decide (answer = .lost) || !isStale resolve cluster stream
  | _, _ => true

/-- What a run and its requests have to be like: no newer template is read as missing, no
unfinished work is left behind, and templates change with their versions alone. -/
def isOrderly (s : State) : Action → Bool
  | .request answer => s.run.all fun run => isOrderlyRequest resolve s.cluster run answer
  | .stop => isConverged resolve s.cluster
  | _ => true

/-- No version is lowered, and a run that finishes completely leaves no stale data stream. -/
structure Converges (s : State) (action : Action) : Prop where
  raised : ∀ endpoint name version,
    s.cluster.installedVersion endpoint name = some version →
    ∃ version', (step resolve s action).cluster.installedVersion endpoint name = some version' ∧
      version ≤ version'
  fresh : ∀ run, (step resolve s action).run = some run → run.phase = .finished →
    run.report.isComplete = true →
    ∀ stream, isStale resolve (step resolve s action).cluster stream = false

end Conditions

section Clusters

variable {resolve : KeyedMap String Scope → String → Option String} {cluster : Cluster}

theorem predates_eq_true_iff {created : ℕ} {installed : Option Installed} :
    predates created installed = true ↔
      ∃ one, installed = some one ∧ one.template.version.isSome = true ∧ created < one.since := by
  simp [predates, Option.any_eq_true]

theorem isStale_eq_true_iff {stream : String} :
    isStale resolve cluster stream = true ↔
      ∃ created template installed, cluster.dataStreams.find? stream = some created ∧
        cluster.templateOf resolve stream = some template ∧
        cluster.indexTemplates.find? template = some installed ∧
        (predates created (some installed) = true ∨
          ∃ component ∈ installed.template.composedOf,
            predates created (cluster.componentTemplates.find? component) = true) := by
  unfold isStale
  simp only [Option.any_eq_true, Option.bind_eq_some_iff, Bool.or_eq_true, List.any_eq_true]
  constructor
  · rintro ⟨created, hcreated, installed, ⟨template, htemplate, hinstalled⟩, hstale⟩
    exact ⟨created, template, installed, hcreated, htemplate, hinstalled, hstale⟩
  · rintro ⟨created, template, installed, hcreated, htemplate, hinstalled, hstale⟩
    exact ⟨created, hcreated, installed, ⟨template, htemplate, hinstalled⟩, hstale⟩

theorem mem_dataStreams_of_isStale {stream : String} (h : isStale resolve cluster stream = true) :
    ∃ created, (stream, created) ∈ cluster.dataStreams.entries := by
  obtain ⟨created, _, _, hcreated, _⟩ := isStale_eq_true_iff.mp h
  exact ⟨created, KeyedMap.find?_eq_some_iff.mp hcreated⟩

theorem isConverged_eq_true_iff :
    isConverged resolve cluster = true ↔ ∀ stream, isStale resolve cluster stream = false := by
  simp only [isConverged, List.all_eq_true, Bool.not_eq_true']
  constructor
  · intro h stream
    by_contra hstale
    rw [Bool.not_eq_false] at hstale
    obtain ⟨created, hmem⟩ := mem_dataStreams_of_isStale hstale
    rw [h _ hmem] at hstale
    cases hstale
  · intro h entry _
    exact h entry.1

/-- All versions were installed by now. -/
structure WellTimed (cluster : Cluster) : Prop where
  components : ∀ name installed, cluster.componentTemplates.find? name = some installed →
    installed.since ≤ cluster.now
  indices : ∀ name installed, cluster.indexTemplates.find? name = some installed →
    installed.since ≤ cluster.now

/-- A write index that is created now is not stale. -/
theorem not_isStale_of_now (ht : WellTimed cluster) {stream : String}
    (h : cluster.dataStreams.find? stream = some cluster.now) :
    isStale resolve cluster stream = false := by
  rw [← Bool.not_eq_true, isStale_eq_true_iff]
  rintro ⟨created, template, installed, hcreated, _, hinstalled, hstale⟩
  obtain rfl := Option.some.inj (h.symm.trans hcreated)
  rcases hstale with hstale | ⟨component, _, hstale⟩
  · obtain ⟨one, hone, _, hlater⟩ := predates_eq_true_iff.mp hstale
    obtain rfl := Option.some.inj hone
    have hbound := ht.indices _ _ hinstalled
    omega
  · obtain ⟨one, hone, _, hlater⟩ := predates_eq_true_iff.mp hstale
    have hbound := ht.components _ _ hone
    omega

variable (resolve) in
/-- The templates are the same, and no data stream became stale. -/
structure Calms (before after : Cluster) : Prop where
  components : after.componentTemplates = before.componentTemplates
  indices : after.indexTemplates = before.indexTemplates
  now : after.now = before.now
  streams : ∀ stream, isStale resolve after stream = true → isStale resolve before stream = true

theorem Calms.templateOf {before after : Cluster} (h : Calms resolve before after) :
    after.templateOf resolve = before.templateOf resolve := by
  funext stream
  unfold Cluster.templateOf Cluster.scopes
  rw [h.indices]

theorem Calms.wellTimed {before after : Cluster} (h : Calms resolve before after)
    (ht : WellTimed before) : WellTimed after := by
  constructor
  · rw [h.components, h.now]
    exact ht.components
  · rw [h.indices, h.now]
    exact ht.indices

/-- Staleness looks at the templates and at the one data stream. -/
theorem isStale_congr {before after : Cluster} {stream : String}
    (hcomponents : after.componentTemplates = before.componentTemplates)
    (hindices : after.indexTemplates = before.indexTemplates)
    (hstream : after.dataStreams.find? stream = before.dataStreams.find? stream) :
    isStale resolve after stream = isStale resolve before stream := by
  unfold isStale Cluster.templateOf Cluster.scopes
  rw [hcomponents, hindices, hstream]

theorem calms_refl (cluster : Cluster) : Calms resolve cluster cluster :=
  ⟨rfl, rfl, rfl, fun _ h => h⟩

/-- Where the data streams change, they change to write indices of now or to none. -/
theorem calms_of_streams {dataStreams : KeyedMap String ℕ} (ht : WellTimed cluster)
    (h : ∀ stream, dataStreams.find? stream = cluster.dataStreams.find? stream ∨
      dataStreams.find? stream = some cluster.now ∨ dataStreams.find? stream = none) :
    Calms resolve cluster { cluster with dataStreams } := by
  refine ⟨rfl, rfl, rfl, fun stream hstale => ?_⟩
  have htimed : WellTimed { cluster with dataStreams } := ⟨ht.components, ht.indices⟩
  rcases h stream with hsame | hnow | hnone
  · have hcongr : isStale resolve { cluster with dataStreams } stream =
        isStale resolve cluster stream := isStale_congr rfl rfl hsame
    rwa [hcongr] at hstale
  · rw [not_isStale_of_now htimed hnow] at hstale
    cases hstale
  · obtain ⟨created, _, _, hcreated, _⟩ := isStale_eq_true_iff.mp hstale
    rw [hnone] at hcreated
    cases hcreated

theorem calms_rollover (ht : WellTimed cluster) (stream : String) :
    Calms resolve cluster (cluster.rollover stream) := by
  unfold Cluster.rollover
  split
  · apply calms_of_streams ht
    intro other
    by_cases hother : other = stream
    · rw [hother, KeyedMap.find?_insert_self]
      exact Or.inr (Or.inl rfl)
    · exact Or.inl (KeyedMap.find?_insert_of_ne _ hother _)
  · exact calms_refl cluster

theorem calms_createStream (ht : WellTimed cluster) (stream : String) :
    Calms resolve cluster (cluster.createStream stream) := by
  unfold Cluster.createStream
  split
  · exact calms_refl cluster
  · apply calms_of_streams ht
    intro other
    by_cases hother : other = stream
    · rw [hother, KeyedMap.find?_insert_self]
      exact Or.inr (Or.inl rfl)
    · exact Or.inl (KeyedMap.find?_insert_of_ne _ hother _)

theorem calms_deleteStream (ht : WellTimed cluster) (stream : String) :
    Calms resolve cluster (cluster.deleteStream stream) := by
  apply calms_of_streams ht
  intro other
  rw [KeyedMap.find?_remove]
  split
  · exact Or.inr (Or.inr rfl)
  · exact Or.inl rfl

/-- A data stream that was rolled over is not stale. -/
theorem not_isStale_rollover (ht : WellTimed cluster) (stream : String) :
    isStale resolve (cluster.rollover stream) stream = false := by
  have hcalms : Calms resolve cluster (cluster.rollover stream) := calms_rollover ht stream
  have htimed := hcalms.wellTimed ht
  unfold Cluster.rollover at htimed ⊢
  split
  · rename_i hsome
    rw [if_pos hsome] at htimed
    exact not_isStale_of_now htimed (KeyedMap.find?_insert_self _ _ _)
  · rename_i hnone
    rw [← Bool.not_eq_true]
    intro hstale
    obtain ⟨created, _, _, hcreated, _⟩ := isStale_eq_true_iff.mp hstale
    rw [hcreated] at hnone
    exact hnone rfl

end Clusters

section Puts

variable {resolve : KeyedMap String Scope → String → Option String} {cluster : Cluster}
  {name : String} {template : Template}

theorem keptSince_eq_some_iff {endpoint : Endpoint} {since : ℕ} :
    cluster.keptSince endpoint name template = some since ↔
      ∃ installed, (cluster.templates endpoint).find? name = some installed ∧
        installed.template.version = template.version ∧ installed.since = since := by
  simp [Cluster.keptSince, Option.filter_eq_some_iff, and_assoc]

theorem find?_put_component (other : String) :
    (cluster.put .componentTemplate name template).componentTemplates.find? other =
      if other = name then
        some ⟨template, (cluster.keptSince .componentTemplate name template).getD (cluster.now + 1)⟩
      else cluster.componentTemplates.find? other := by
  show (cluster.componentTemplates.insert name _).find? other = _
  rw [KeyedMap.find?_insert]

theorem find?_put_index (other : String) :
    (cluster.put .indexTemplate name template).indexTemplates.find? other =
      if other = name then
        some ⟨template, (cluster.keptSince .indexTemplate name template).getD (cluster.now + 1)⟩
      else cluster.indexTemplates.find? other := by
  show (cluster.indexTemplates.insert name _).find? other = _
  rw [KeyedMap.find?_insert]

theorem now_put (endpoint : Endpoint) :
    (cluster.put endpoint name template).now =
      if (cluster.keptSince endpoint name template).isSome then cluster.now
      else cluster.now + 1 := by
  cases endpoint <;> rfl

theorem wellTimed_put (ht : WellTimed cluster) (endpoint : Endpoint) :
    WellTimed (cluster.put endpoint name template) := by
  have hnow : cluster.now ≤ (cluster.put endpoint name template).now := by
    rw [now_put]
    split <;> omega
  have hkept : ∀ endpoint, (∀ other installed,
      (cluster.templates endpoint).find? other = some installed → installed.since ≤ cluster.now) →
      (cluster.keptSince endpoint name template).getD (cluster.now + 1) ≤
        (cluster.put endpoint name template).now := by
    intro endpoint hbound
    rw [now_put]
    cases hsince : cluster.keptSince endpoint name template with
    | none => simp
    | some since =>
      obtain ⟨installed, hinstalled, _, rfl⟩ := keptSince_eq_some_iff.mp hsince
      simpa using hbound _ _ hinstalled
  constructor
  · intro other installed hinstalled
    cases endpoint with
    | componentTemplate =>
      rw [find?_put_component] at hinstalled
      split at hinstalled
      · rw [← Option.some.inj hinstalled]
        exact hkept .componentTemplate ht.components
      · exact (ht.components _ _ hinstalled).trans hnow
    | indexTemplate => exact (ht.components _ _ hinstalled).trans hnow
    | other => exact (ht.components _ _ hinstalled).trans hnow
  · intro other installed hinstalled
    cases endpoint with
    | indexTemplate =>
      rw [find?_put_index] at hinstalled
      split at hinstalled
      · rw [← Option.some.inj hinstalled]
        exact hkept .indexTemplate ht.indices
      · exact (ht.indices _ _ hinstalled).trans hnow
    | componentTemplate => exact (ht.indices _ _ hinstalled).trans hnow
    | other => exact (ht.indices _ _ hinstalled).trans hnow

/-- A template that is put has an old moment, unless its version changed. -/
theorem predates_put {endpoint : Endpoint} {created : ℕ}
    (h : predates created (some
      ⟨template, (cluster.keptSince endpoint name template).getD (cluster.now + 1)⟩) = true) :
    predates created ((cluster.templates endpoint).find? name) = true ∨
      cluster.installedVersion endpoint name ≠ template.version := by
  obtain ⟨one, hone, hversion, hlater⟩ := predates_eq_true_iff.mp h
  obtain rfl := Option.some.inj hone
  cases hsince : cluster.keptSince endpoint name template with
  | some since =>
    obtain ⟨installed, hinstalled, hsame, rfl⟩ := keptSince_eq_some_iff.mp hsince
    left
    rw [hsince] at hlater
    exact predates_eq_true_iff.mpr ⟨installed, hinstalled, by rw [hsame]; exact hversion, hlater⟩
  | none =>
    right
    intro hsame
    obtain ⟨version, hsome⟩ := Option.isSome_iff_exists.mp hversion
    have hinstalledVersion : cluster.installedVersion endpoint name = some version :=
      hsame.trans hsome
    obtain ⟨installed, hinstalled, hold⟩ := Option.bind_eq_some_iff.mp hinstalledVersion
    have hkept : cluster.keptSince endpoint name template = some installed.since :=
      keptSince_eq_some_iff.mpr ⟨installed, hinstalled, hold.trans hsome.symm, rfl⟩
    rw [hsince] at hkept
    cases hkept

/-- A data stream keeps its index template, and that its components. -/
def SameUse (resolve : KeyedMap String Scope → String → Option String) (before after : Cluster)
    (stream : String) : Prop :=
  after.templateOf resolve stream = before.templateOf resolve stream ∧
    ∀ template installed, before.templateOf resolve stream = some template →
      before.indexTemplates.find? template = some installed →
      ∃ installed', after.indexTemplates.find? template = some installed' ∧
        installed'.template.composedOf = installed.template.composedOf

theorem stale_put_component {raised : Bool} {stream : String}
    (hversion : raised = true ∨
      cluster.installedVersion .componentTemplate name = template.version ∨
      usesTemplate resolve (cluster.put .componentTemplate name template) .componentTemplate name
        stream = false)
    (hstale : isStale resolve (cluster.put .componentTemplate name template) stream = true) :
    (raised = true ∧ usesTemplate resolve (cluster.put .componentTemplate name template)
        .componentTemplate name stream = true) ∨
      isStale resolve cluster stream = true ∧
        SameUse resolve cluster (cluster.put .componentTemplate name template) stream := by
  have hsameUse : SameUse resolve cluster (cluster.put .componentTemplate name template) stream :=
    ⟨rfl, fun _ installed _ hinstalled => ⟨installed, hinstalled, rfl⟩⟩
  obtain ⟨created, used, installed, hcreated, hused, hinstalled, hcause⟩ :=
    isStale_eq_true_iff.mp hstale
  rcases hcause with hindex | ⟨component, hcomponent, hpredates⟩
  · exact Or.inr ⟨isStale_eq_true_iff.mpr
      ⟨created, used, installed, hcreated, hused, hinstalled, Or.inl hindex⟩, hsameUse⟩
  · have hbefore : predates created (cluster.componentTemplates.find? component) = true →
        isStale resolve cluster stream = true := fun hold => isStale_eq_true_iff.mpr
      ⟨created, used, installed, hcreated, hused, hinstalled, Or.inr ⟨component, hcomponent, hold⟩⟩
    rw [find?_put_component] at hpredates
    by_cases hname : component = name
    · subst hname
      rw [if_pos rfl] at hpredates
      have huses : usesTemplate resolve (cluster.put .componentTemplate component template)
          .componentTemplate component stream = true := by
        have hinstalled' : (cluster.put .componentTemplate component
            template).indexTemplates.find? used = some installed := hinstalled
        simp [usesTemplate, hused, hinstalled', hcomponent]
      rcases predates_put hpredates with hold | hchanged
      · exact Or.inr ⟨hbefore hold, hsameUse⟩
      · rcases hversion with hraised | hsame | hunused
        · exact Or.inl ⟨hraised, huses⟩
        · exact absurd hsame hchanged
        · rw [huses] at hunused
          cases hunused
    · rw [if_neg hname] at hpredates
      exact Or.inr ⟨hbefore hpredates, hsameUse⟩

theorem keepsUse_iff {before after : Cluster} {raised : Bool} :
    keepsUse resolve before after name template raised = true ↔
      ∀ stream created, before.dataStreams.find? stream = some created →
        (raised = true ∧ after.templateOf resolve stream = some name) ∨
          after.templateOf resolve stream = before.templateOf resolve stream ∧
            (before.templateOf resolve stream = some name → ∃ installed,
              before.indexTemplates.find? name = some installed ∧
                installed.template.composedOf = template.composedOf) := by
  simp only [keepsUse, List.all_eq_true, Bool.or_eq_true, Bool.and_eq_true, decide_eq_true_eq,
    Option.any_eq_true, Prod.forall, KeyedMap.find?_eq_some_iff]
  refine forall_congr' fun stream => forall_congr' fun created => imp_congr_right fun _ => ?_
  rw [ne_eq, ← imp_iff_not_or]

theorem stale_put_index {raised : Bool} {stream : String}
    (hkeeps : keepsUse resolve cluster (cluster.put .indexTemplate name template) name template
      raised = true)
    (hversion : raised = true ∨
      cluster.installedVersion .indexTemplate name = template.version ∨
      usesTemplate resolve (cluster.put .indexTemplate name template) .indexTemplate name
        stream = false)
    (hstale : isStale resolve (cluster.put .indexTemplate name template) stream = true) :
    (raised = true ∧ usesTemplate resolve (cluster.put .indexTemplate name template)
        .indexTemplate name stream = true) ∨
      isStale resolve cluster stream = true ∧
        SameUse resolve cluster (cluster.put .indexTemplate name template) stream := by
  obtain ⟨created, used, installed, hcreated, hused, hinstalled, hcause⟩ :=
    isStale_eq_true_iff.mp hstale
  rcases keepsUse_iff.mp hkeeps stream created hcreated with ⟨hraised, htaken⟩ | ⟨hsame, hcomposed⟩
  · exact Or.inl ⟨hraised, by simp [usesTemplate, htaken]⟩
  · have hbefore : cluster.templateOf resolve stream = some used := hsame.symm.trans hused
    rw [find?_put_index] at hinstalled
    by_cases hname : used = name
    · subst hname
      rw [if_pos rfl] at hinstalled
      obtain rfl := Option.some.inj hinstalled
      obtain ⟨old, hold, hparts⟩ := hcomposed hbefore
      have hsameUse :
          SameUse resolve cluster (cluster.put .indexTemplate used template) stream := by
        refine ⟨hsame, fun other one hother hone => ?_⟩
        obtain rfl := Option.some.inj (hbefore.symm.trans hother)
        obtain rfl := Option.some.inj (hold.symm.trans hone)
        rw [find?_put_index, if_pos rfl]
        exact ⟨_, rfl, hparts.symm⟩
      rcases hcause with hindex | ⟨component, hcomponent, hpredates⟩
      · rcases predates_put hindex with hpredates | hchanged
        · refine Or.inr ⟨isStale_eq_true_iff.mpr ⟨created, used, old, hcreated, hbefore, hold, ?_⟩,
            hsameUse⟩
          rw [← hold]
          exact Or.inl hpredates
        · rcases hversion with hraised | hkept | hunused
          · exact Or.inl ⟨hraised, by simp [usesTemplate, hused]⟩
          · exact absurd hkept hchanged
          · simp [usesTemplate, hused] at hunused
      · refine Or.inr ⟨isStale_eq_true_iff.mpr ⟨created, used, old, hcreated, hbefore, hold,
          Or.inr ⟨component, ?_, hpredates⟩⟩, hsameUse⟩
        rw [hparts]
        exact hcomponent
    · rw [if_neg hname] at hinstalled
      refine Or.inr ⟨isStale_eq_true_iff.mpr
        ⟨created, used, installed, hcreated, hbefore, hinstalled, hcause⟩, hsame, ?_⟩
      intro other one hother hone
      obtain rfl := Option.some.inj (hbefore.symm.trans hother)
      rw [find?_put_index, if_neg hname]
      exact ⟨one, hone, rfl⟩

theorem dataStreams_put (endpoint : Endpoint) :
    (cluster.put endpoint name template).dataStreams = cluster.dataStreams := by
  cases endpoint <;> rfl

theorem putFile_template {file : AssetFile} (h : isTemplateAsset file.asset = true) :
    cluster.putFile file = cluster.put file.asset.endpoint file.name file.contents := if_pos h

theorem putFile_other {file : AssetFile} (h : isTemplateAsset file.asset = false) :
    cluster.putFile file = cluster := by
  unfold Cluster.putFile
  rw [h, if_neg Bool.false_ne_true]

theorem sameUse_refl (stream : String) : SameUse resolve cluster cluster stream :=
  ⟨rfl, fun _ installed _ hinstalled => ⟨installed, hinstalled, rfl⟩⟩

/-- The step lemma for a put: what is stale uses a template whose rise was noted, or was
stale before. -/
theorem stale_putFile {file : AssetFile} {raised : Bool} {stream : String}
    (hsafe : putsSafely resolve cluster file raised = true)
    (hstale : isStale resolve (cluster.putFile file) stream = true) :
    (isTemplateAsset file.asset = true ∧ raised = true ∧ usesTemplate resolve
        (cluster.putFile file) file.asset.endpoint file.name stream = true) ∨
      isStale resolve cluster stream = true ∧
        SameUse resolve cluster (cluster.putFile file) stream := by
  cases htemplate : isTemplateAsset file.asset with
  | false =>
    rw [putFile_other htemplate] at hstale ⊢
    exact Or.inr ⟨hstale, sameUse_refl stream⟩
  | true =>
    simp only [putsSafely, putFile_template htemplate, Bool.and_eq_true, Bool.or_eq_true,
      decide_eq_true_eq, List.all_eq_true, Bool.not_eq_true'] at hsafe
    rw [putFile_template htemplate] at hstale ⊢
    obtain ⟨hkeeps, hversion⟩ := hsafe
    have hunused : raised = true ∨
        cluster.installedVersion file.asset.endpoint file.name = file.contents.version ∨
        usesTemplate resolve (cluster.put file.asset.endpoint file.name file.contents)
          file.asset.endpoint file.name stream = false := by
      rcases hversion with (hraised | hsame) | hunused
      · exact Or.inl hraised
      · exact Or.inr (Or.inl hsame)
      · obtain ⟨created, hmem⟩ := mem_dataStreams_of_isStale hstale
        rw [dataStreams_put] at hmem
        exact Or.inr (Or.inr (hunused (stream, created) hmem))
    cases hendpoint : file.asset.endpoint with
    | other => simp [isTemplateAsset, hendpoint] at htemplate
    | componentTemplate =>
      rw [hendpoint] at hunused hstale
      refine (stale_put_component hunused hstale).imp_left ?_
      exact fun h => ⟨rfl, h⟩
    | indexTemplate =>
      rw [hendpoint] at hunused hstale hkeeps
      have hkept := hkeeps.resolve_left (not_not_intro rfl)
      refine (stale_put_index hkept hunused hstale).imp_left ?_
      exact fun h => ⟨rfl, h⟩

end Puts

section Runs

variable {resolve : KeyedMap String Scope → String → Option String} {cluster : Cluster}

variable (resolve) in
/-- Every stale data stream is of an index template that the run raised, or of one that has a
component that the run raised. -/
def Pending (cluster : Cluster) (changes : TemplateChanges) : Prop :=
  ∀ stream, isStale resolve cluster stream = true → ∃ template,
    cluster.templateOf resolve stream = some template ∧
      (template ∈ changes.indexTemplates ∨ ∃ installed,
        cluster.indexTemplates.find? template = some installed ∧
          ∃ component ∈ installed.template.composedOf, component ∈ changes.componentTemplates)

/-- What a lookup leaves of a template that is about to be sent. -/
def Looked (cluster : Cluster) (template : Option (String × Bool)) (file : AssetFile) : Prop :=
  if isTemplateAsset file.asset then
    ∃ changed, template = some (file.name, changed) ∧
      templateVersionDowngrade (cluster.installedVersion file.asset.endpoint file.name)
        file.contents.version = false ∧
      (changed = false → cluster.installedVersion file.asset.endpoint file.name =
        file.contents.version)
  else template = none

variable (resolve) in
/-- What has to be done still about stale data streams. -/
def Covered (cluster : Cluster) (run : SetupRun) : Prop :=
  match run.phase with
  | .lookup | .sent => Pending resolve cluster run.changes
  | .send template => Pending resolve cluster run.changes ∧
      ∀ file rest, run.files = file :: rest → Looked cluster template file
  | .list => ∀ stream, isStale resolve cluster stream = true → ∃ template,
      cluster.templateOf resolve stream = some template ∧
        template ∈ run.changes.updatedIndexTemplates
  | .rollover streams _ => ∀ stream, isStale resolve cluster stream = true →
      stream ∈ streams.map Prod.fst
  | .bridge | .finished => ∀ stream, isStale resolve cluster stream = false

variable (resolve) in
structure Consistent (s : State) : Prop where
  timed : WellTimed s.cluster
  idle : s.run = none → ∀ stream, isStale resolve s.cluster stream = false
  covered : ∀ run, s.run = some run → Covered resolve s.cluster run

theorem consistent_start : Consistent resolve .start := by
  refine ⟨⟨?_, ?_⟩, fun _ _ => rfl, ?_⟩
  · intro name installed hinstalled
    cases hinstalled
  · intro name installed hinstalled
    cases hinstalled
  · intro run hrun
    cases hrun

theorem consistent_running {run : SetupRun} (ht : WellTimed cluster)
    (h : Covered resolve cluster run) : Consistent resolve ⟨cluster, some run⟩ where
  timed := ht
  idle hidle := by cases hidle
  covered other hother := by
    obtain rfl := Option.some.inj hother
    exact h

theorem covered_settle {run : SetupRun} (h : Pending resolve cluster run.changes) :
    Covered resolve cluster run.settle := by
  obtain ⟨serverless, files, changes, report, phase⟩ := run
  cases files <;> exact h

theorem Calms.installedVersion {after : Cluster} (h : Calms resolve cluster after)
    (endpoint : Endpoint) (name : String) :
    after.installedVersion endpoint name = cluster.installedVersion endpoint name := by
  unfold Cluster.installedVersion
  cases endpoint with
  | componentTemplate => simp only [Cluster.templates, h.components]
  | indexTemplate => simp only [Cluster.templates, h.indices]
  | other => rfl

theorem Pending.of_calms {changes : TemplateChanges} {after : Cluster}
    (h : Pending resolve cluster changes) (hcalms : Calms resolve cluster after) :
    Pending resolve after changes := by
  intro stream hstale
  rw [hcalms.templateOf, hcalms.indices]
  exact h stream (hcalms.streams stream hstale)

theorem Calms.fresh {after : Cluster} (h : Calms resolve cluster after)
    (hfresh : ∀ stream, isStale resolve cluster stream = false) (stream : String) :
    isStale resolve after stream = false := by
  rw [← Bool.not_eq_true]
  intro hstale
  have hbefore := h.streams stream hstale
  rw [hfresh stream] at hbefore
  cases hbefore

/-- While data streams become fresh, what has to be done is still enough. -/
theorem Covered.of_calms {run : SetupRun} {after : Cluster} (h : Covered resolve cluster run)
    (hcalms : Calms resolve cluster after) : Covered resolve after run := by
  obtain ⟨serverless, files, changes, report, phase⟩ := run
  cases phase with
  | lookup => exact Pending.of_calms h hcalms
  | sent => exact Pending.of_calms h hcalms
  | send template =>
    refine ⟨Pending.of_calms h.1 hcalms, fun file rest hfiles => ?_⟩
    have hlooked := h.2 file rest hfiles
    unfold Looked at hlooked ⊢
    rw [hcalms.installedVersion]
    exact hlooked
  | list =>
    intro stream hstale
    rw [hcalms.templateOf]
    exact h stream (hcalms.streams stream hstale)
  | rollover streams failures => exact fun stream hstale => h stream (hcalms.streams stream hstale)
  | bridge => exact hcalms.fresh h
  | finished => exact hcalms.fresh h

theorem Consistent.of_calms {s : State} {after : Cluster} (hs : Consistent resolve s)
    (hcalms : Calms resolve s.cluster after) : Consistent resolve { s with cluster := after } :=
  ⟨hcalms.wellTimed hs.timed, fun hidle => hcalms.fresh (hs.idle hidle),
    fun run hrun => (hs.covered run hrun).of_calms hcalms⟩

theorem version_eq_of_neither {installed bundled : Option ℕ}
    (hdowngrade : templateVersionDowngrade installed bundled = false)
    (hbumped : templateVersionBumped installed bundled = false) : installed = bundled := by
  cases installed with
  | none =>
    cases bundled with
    | none => rfl
    | some bundled => cases hbumped
  | some installed =>
    cases bundled with
    | none => cases hdowngrade
    | some bundled =>
      simp only [templateVersionDowngrade, templateVersionBumped, decide_eq_false_iff_not] at *
      congr 1
      omega

/-- A template that is not kept as newer, once its version has been read. -/
theorem looked_of_lookUp {file : AssetFile} {answer : Answer}
    (hanswer : answer = .ok ∨ templateVersionDowngrade
      (cluster.installedVersion file.asset.endpoint file.name) file.contents.version = false)
    (hkept : templateVersionDowngrade (SetupRun.lookUp cluster file answer) file.contents.version =
      false) (htemplate : isTemplateAsset file.asset = true) :
    Looked cluster (some (file.name, templateVersionBumped (SetupRun.lookUp cluster file answer)
      file.contents.version)) file := by
  unfold Looked
  rw [if_pos htemplate]
  by_cases hok : answer = .ok
  · subst hok
    exact ⟨_, rfl, hkept, version_eq_of_neither hkept⟩
  · have hdowngrade := hanswer.resolve_left hok
    have hnone : SetupRun.lookUp cluster file answer = none := by
      cases answer with
      | ok => exact absurd rfl hok
      | lost => rfl
      | refused forbidden => rfl
    rw [hnone]
    refine ⟨_, rfl, hdowngrade, fun hbumped => version_eq_of_neither hdowngrade ?_⟩
    cases hversion : file.contents.version with
    | none => rfl
    | some version =>
      rw [hversion] at hbumped
      cases hbumped

theorem record_mono (changes : TemplateChanges) (file : AssetFile) (changed : Bool) :
    (∀ name ∈ changes.indexTemplates, name ∈ (changes.record file changed).indexTemplates) ∧
      ∀ name ∈ changes.componentTemplates,
        name ∈ (changes.record file changed).componentTemplates := by
  unfold TemplateChanges.record
  cases changed with
  | false => split <;> exact ⟨fun _ h => h, fun _ h => h⟩
  | true =>
    split
    · exact ⟨fun _ h => List.mem_cons_of_mem _ h, fun _ h => h⟩
    · exact ⟨fun _ h => h, fun _ h => List.mem_cons_of_mem _ h⟩

theorem mem_record (changes : TemplateChanges) (file : AssetFile) :
    (file.asset.endpoint = .indexTemplate →
        file.name ∈ (changes.record file true).indexTemplates) ∧
      (file.asset.endpoint = .componentTemplate →
        file.name ∈ (changes.record file true).componentTemplates) := by
  constructor
  · intro hendpoint
    simp [TemplateChanges.record, hendpoint]
  · intro hendpoint
    simp [TemplateChanges.record, hendpoint]

/-- A put leaves nothing stale but what is noted. -/
theorem pending_putFile {file : AssetFile} {raised : Bool} {changes changes' : TemplateChanges}
    (hp : Pending resolve cluster changes) (hsafe : putsSafely resolve cluster file raised = true)
    (hindices : ∀ name ∈ changes.indexTemplates, name ∈ changes'.indexTemplates)
    (hcomponents : ∀ name ∈ changes.componentTemplates, name ∈ changes'.componentTemplates)
    (hnoted : isTemplateAsset file.asset = true → raised = true →
      (file.asset.endpoint = .indexTemplate → file.name ∈ changes'.indexTemplates) ∧
      (file.asset.endpoint = .componentTemplate → file.name ∈ changes'.componentTemplates)) :
    Pending resolve (cluster.putFile file) changes' := by
  intro stream hstale
  rcases stale_putFile hsafe hstale with ⟨htemplate, hraised, huses⟩ | ⟨hbefore, hsame, hparts⟩
  · obtain ⟨hindex, hcomponent⟩ := hnoted htemplate hraised
    obtain ⟨template, hused, huses⟩ := (Option.any_eq_true _ _).mp huses
    refine ⟨template, hused, ?_⟩
    cases hendpoint : file.asset.endpoint with
    | other => simp [hendpoint] at huses
    | indexTemplate =>
      simp only [hendpoint, decide_eq_true_eq] at huses
      rw [huses]
      exact Or.inl (hindex hendpoint)
    | componentTemplate =>
      simp only [hendpoint, Option.any_eq_true, decide_eq_true_eq] at huses
      obtain ⟨installed, hinstalled, hmem⟩ := huses
      exact Or.inr ⟨installed, hinstalled, file.name, hmem, hcomponent hendpoint⟩
  · obtain ⟨template, hused, hpending⟩ := hp stream hbefore
    refine ⟨template, hsame.trans hused, hpending.imp (hindices template) ?_⟩
    rintro ⟨installed, hinstalled, component, hcomponent, hmem⟩
    obtain ⟨installed', hinstalled', hcomposed⟩ := hparts template installed hused hinstalled
    refine ⟨installed', hinstalled', component, ?_, hcomponents component hmem⟩
    rw [hcomposed]
    exact hcomponent

theorem wellTimed_putFile (ht : WellTimed cluster) (file : AssetFile) :
    WellTimed (cluster.putFile file) := by
  unfold Cluster.putFile
  split
  · exact wellTimed_put ht _
  · exact ht

theorem covered_unsent {run : SetupRun} (h : Pending resolve cluster run.changes)
    (file : AssetFile) (rest : List AssetFile) (forbidden : Bool) :
    Covered resolve cluster (run.unsent file rest forbidden) := by
  unfold SetupRun.unsent
  split <;> exact covered_settle h

theorem covered_looked {run : SetupRun} {file : AssetFile} {rest : List AssetFile}
    {answer : Answer} (hfiles : run.files = file :: rest)
    (h : Pending resolve cluster run.changes)
    (hanswer : answer = .ok ∨ templateVersionDowngrade
      (cluster.installedVersion file.asset.endpoint file.name) file.contents.version = false) :
    Covered resolve cluster
      (run.looked (SetupRun.lookUp cluster file answer) file rest) := by
  unfold SetupRun.looked
  cases htemplate : isTemplateAsset file.asset with
  | false =>
    refine ⟨h, fun other others hother => ?_⟩
    obtain ⟨rfl, -⟩ := List.cons.inj (hfiles.symm.trans hother)
    unfold Looked
    rw [htemplate, if_neg Bool.false_ne_true]
  | true =>
    cases hkept : templateVersionDowngrade (SetupRun.lookUp cluster file answer)
        file.contents.version with
    | true => exact covered_settle h
    | false =>
      refine ⟨h, fun other others hother => ?_⟩
      obtain ⟨rfl, -⟩ := List.cons.inj (hfiles.symm.trans hother)
      exact looked_of_lookUp hanswer hkept htemplate

/-- What is pending after the files is among the updated templates, if it is recorded. -/
theorem updated_of_pending {changes : TemplateChanges} (h : Pending resolve cluster changes)
    (hrecorded : ∀ stream created, (stream, created) ∈ cluster.dataStreams.entries →
      isRecorded resolve cluster changes stream = true) {stream : String}
    (hstale : isStale resolve cluster stream = true) :
    ∃ template, cluster.templateOf resolve stream = some template ∧
      template ∈ changes.updatedIndexTemplates := by
  obtain ⟨template, hused, hpending⟩ := h stream hstale
  refine ⟨template, hused, ?_⟩
  unfold TemplateChanges.updatedIndexTemplates
  rw [List.mem_append]
  rcases hpending with hindex | ⟨installed, hinstalled, component, hcomponent, hmem⟩
  · exact Or.inl hindex
  · obtain ⟨created, hentry⟩ := mem_dataStreams_of_isStale hstale
    have hnoted := hrecorded stream created hentry
    have hany : (installed.template.composedOf.any fun name =>
        decide (name ∈ changes.componentTemplates)) = true :=
      List.any_eq_true.mpr ⟨component, hcomponent, decide_eq_true hmem⟩
    simp only [isRecorded, hused, Option.all_some, hinstalled, hany, Bool.not_true, Bool.false_or,
      decide_eq_true_eq] at hnoted
    right
    rw [List.mem_map]
    refine ⟨(template, installed.template.composedOf), List.mem_filter.mpr ⟨?_, hany⟩, rfl⟩
    exact KeyedMap.find?_eq_some_iff.mp hnoted

/-- Every stale data stream is listed, where its template is among the updated ones. -/
theorem mem_dataStreamsToRollOver {updatedTemplates : List String} {stream template : String}
    (hstale : isStale resolve cluster stream = true)
    (hused : cluster.templateOf resolve stream = some template)
    (hupdated : template ∈ updatedTemplates) :
    stream ∈ (dataStreamsToRollOver resolve cluster updatedTemplates).map Prod.fst := by
  obtain ⟨created, hentry⟩ := mem_dataStreams_of_isStale hstale
  rw [List.mem_map]
  refine ⟨(stream, template), ?_, rfl⟩
  unfold dataStreamsToRollOver
  rw [List.mem_filterMap]
  refine ⟨(stream, created), (KeyedMap.inOrder_perm _).mem_iff.mpr hentry, ?_⟩
  simp only [hused, Option.filter_some, hupdated, decide_true, if_true, Option.map_some]

theorem covered_rolled {run : SetupRun} {streams : List (String × String)}
    {failures : List String}
    (h : ∀ stream, isStale resolve cluster stream = true → stream ∈ streams.map Prod.fst) :
    Covered resolve cluster (run.rolled streams failures) := by
  cases streams with
  | cons first rest => exact h
  | nil =>
    have hfresh : ∀ stream, isStale resolve cluster stream = false := by
      intro stream
      rw [← Bool.not_eq_true]
      intro hstale
      cases h stream hstale
    unfold SetupRun.rolled
    simp only
    split <;> exact hfresh

/-- The step lemma for a request, phase by phase. -/
theorem covered_advance {run : SetupRun} {answer : Answer} (ht : WellTimed cluster)
    (h : Covered resolve cluster run)
    (horderly : isOrderlyRequest resolve cluster run answer = true) :
    WellTimed (run.advance resolve cluster answer).1 ∧
      Covered resolve (run.advance resolve cluster answer).1
        (run.advance resolve cluster answer).2 := by
  obtain ⟨serverless, files, changes, report, phase⟩ := run
  unfold isOrderlyRequest at horderly
  cases phase with
  | lookup =>
    cases files with
    | nil => exact ⟨ht, h⟩
    | cons file rest =>
      simp only [Bool.or_eq_true, decide_eq_true_eq, Bool.not_eq_true'] at horderly
      exact ⟨ht, covered_looked rfl h horderly⟩
  | send template =>
    cases files with
    | nil => exact ⟨ht, h⟩
    | cons file rest =>
      obtain ⟨hpending, hlooked⟩ := h
      cases answer with
      | ok =>
        refine ⟨wellTimed_putFile ht file, covered_settle ?_⟩
        have hlook := hlooked file rest rfl
        unfold Looked at hlook
        cases htemplate : isTemplateAsset file.asset with
        | false =>
          rw [htemplate, if_neg Bool.false_ne_true] at hlook
          subst hlook
          exact pending_putFile hpending horderly (fun _ h => h) (fun _ h => h)
            fun _ hraised => absurd hraised Bool.false_ne_true
        | true =>
          rw [if_pos htemplate] at hlook
          obtain ⟨changed, rfl, _, _⟩ := hlook
          obtain ⟨hindices, hcomponents⟩ := record_mono changes file changed
          refine pending_putFile hpending horderly hindices hcomponents fun _ hraised => ?_
          obtain rfl : changed = true := hraised
          exact mem_record changes file
      | lost =>
        refine ⟨wellTimed_putFile ht file, covered_unsent ?_ file rest false⟩
        exact pending_putFile hpending horderly (fun _ h => h) (fun _ h => h)
          fun _ hraised => absurd hraised Bool.false_ne_true
      | refused forbidden => exact ⟨ht, covered_unsent hpending file rest forbidden⟩
  | sent =>
    simp only [List.all_eq_true] at horderly
    have hupdated : ∀ stream, isStale resolve cluster stream = true → ∃ template,
        cluster.templateOf resolve stream = some template ∧
          template ∈ changes.updatedIndexTemplates := fun stream hstale =>
      updated_of_pending h (fun stream created hentry => horderly (stream, created) hentry) hstale
    simp only [SetupRun.advance]
    cases hempty : changes.updatedIndexTemplates.isEmpty with
    | true =>
      refine ⟨ht, fun stream => ?_⟩
      rw [← Bool.not_eq_true]
      intro hstale
      obtain ⟨template, _, hmem⟩ := hupdated stream hstale
      rw [List.isEmpty_iff.mp hempty] at hmem
      cases hmem
    | false => exact ⟨ht, hupdated⟩
  | list =>
    simp only [Bool.or_eq_true, decide_eq_true_eq, isConverged_eq_true_iff] at horderly
    simp only [SetupRun.advance]
    by_cases hok : answer = .ok
    · rw [if_pos hok]
      refine ⟨ht, covered_rolled fun stream hstale => ?_⟩
      obtain ⟨template, hused, hmem⟩ := h stream hstale
      exact mem_dataStreamsToRollOver hstale hused hmem
    · rw [if_neg hok]
      exact ⟨ht, horderly.resolve_left hok⟩
  | rollover streams failures =>
    cases streams with
    | nil => exact ⟨ht, h⟩
    | cons first rest =>
      obtain ⟨stream, template⟩ := first
      have hcalms : Calms resolve cluster (cluster.rollover stream) := calms_rollover ht stream
      have hdone : ∀ other, isStale resolve (cluster.rollover stream) other = true →
          other ∈ rest.map Prod.fst := by
        intro other hstale
        rcases List.mem_cons.mp (h other (hcalms.streams other hstale)) with rfl | hrest
        · have hfresh : isStale resolve (cluster.rollover other) other = false :=
            not_isStale_rollover ht other
          rw [hfresh] at hstale
          cases hstale
        · exact hrest
      cases answer with
      | ok => exact ⟨hcalms.wellTimed ht, covered_rolled hdone⟩
      | lost => exact ⟨hcalms.wellTimed ht, covered_rolled hdone⟩
      | refused forbidden =>
        have hfresh : isStale resolve cluster stream = false := by simpa using horderly
        refine ⟨ht, covered_rolled fun other (hstale : isStale resolve cluster other = true) => ?_⟩
        rcases List.mem_cons.mp (h other hstale) with rfl | hrest
        · rw [hfresh] at hstale
          cases hstale
        · exact hrest
  | bridge => exact ⟨ht, h⟩
  | finished => exact ⟨ht, h⟩

theorem le_of_not_downgrade {version : ℕ} {bundled : Option ℕ}
    (h : templateVersionDowngrade (some version) bundled = false) :
    ∃ version', bundled = some version' ∧ version ≤ version' := by
  cases bundled with
  | none => cases h
  | some version' =>
    simp only [templateVersionDowngrade, decide_eq_false_iff_not] at h
    exact ⟨version', rfl, by omega⟩

/-- A put of a template that is not newer in the cluster lowers no version. -/
theorem installedVersion_put {endpoint : Endpoint} {name : String} {template : Template}
    (hdowngrade : templateVersionDowngrade (cluster.installedVersion endpoint name)
      template.version = false) {endpoint' : Endpoint} {name' : String} {version : ℕ}
    (h : cluster.installedVersion endpoint' name' = some version) :
    ∃ version', (cluster.put endpoint name template).installedVersion endpoint' name' =
      some version' ∧ version ≤ version' := by
  by_cases hsame : endpoint' = endpoint ∧ name' = name
  · obtain ⟨rfl, rfl⟩ := hsame
    rw [h] at hdowngrade
    obtain ⟨version', hversion, hle⟩ := le_of_not_downgrade hdowngrade
    refine ⟨version', ?_, hle⟩
    unfold Cluster.installedVersion
    cases endpoint' with
    | componentTemplate => simp [Cluster.templates, find?_put_component, hversion]
    | indexTemplate => simp [Cluster.templates, find?_put_index, hversion]
    | other => cases h
  · refine ⟨version, ?_, le_refl version⟩
    rw [← h]
    unfold Cluster.installedVersion
    congr 1
    cases endpoint' with
    | other => rfl
    | componentTemplate =>
      cases endpoint with
      | componentTemplate =>
        have hname : name' ≠ name := fun hname => hsame ⟨rfl, hname⟩
        simp only [Cluster.templates, find?_put_component, if_neg hname]
      | indexTemplate => rfl
      | other => rfl
    | indexTemplate =>
      cases endpoint with
      | indexTemplate =>
        have hname : name' ≠ name := fun hname => hsame ⟨rfl, hname⟩
        simp only [Cluster.templates, find?_put_index, if_neg hname]
      | componentTemplate => rfl
      | other => rfl

theorem installedVersion_putFile {file : AssetFile} {template : Option (String × Bool)}
    (hlooked : Looked cluster template file) {endpoint : Endpoint} {name : String} {version : ℕ}
    (h : cluster.installedVersion endpoint name = some version) :
    ∃ version', (cluster.putFile file).installedVersion endpoint name = some version' ∧
      version ≤ version' := by
  unfold Looked at hlooked
  cases htemplate : isTemplateAsset file.asset with
  | false =>
    rw [putFile_other htemplate]
    exact ⟨version, h, le_refl version⟩
  | true =>
    rw [if_pos htemplate] at hlooked
    obtain ⟨_, _, hdowngrade, _⟩ := hlooked
    rw [putFile_template htemplate]
    exact installedVersion_put hdowngrade h

/-- No request of a run lowers a version. -/
theorem installedVersion_advance {run : SetupRun} {answer : Answer}
    (h : Covered resolve cluster run) (ht : WellTimed cluster) {endpoint : Endpoint}
    {name : String} {version : ℕ}
    (hversion : cluster.installedVersion endpoint name = some version) :
    ∃ version', (run.advance resolve cluster answer).1.installedVersion endpoint name =
      some version' ∧ version ≤ version' := by
  have hsame : ∃ version', cluster.installedVersion endpoint name = some version' ∧
      version ≤ version' := ⟨version, hversion, le_refl version⟩
  have hcalm : ∀ {after : Cluster}, Calms resolve cluster after →
      ∃ version', after.installedVersion endpoint name = some version' ∧ version ≤ version' := by
    intro after hcalms
    rw [hcalms.installedVersion]
    exact hsame
  obtain ⟨serverless, files, changes, report, phase⟩ := run
  cases phase with
  | lookup => cases files <;> exact hsame
  | send template =>
    cases files with
    | nil => exact hsame
    | cons file rest =>
      have hlooked := h.2 file rest rfl
      cases answer with
      | ok => exact installedVersion_putFile hlooked hversion
      | lost => exact installedVersion_putFile hlooked hversion
      | refused forbidden => exact hsame
  | sent =>
    simp only [SetupRun.advance]
    split <;> exact hsame
  | list =>
    simp only [SetupRun.advance]
    split <;> exact hsame
  | rollover streams failures =>
    cases streams with
    | nil => exact hsame
    | cons first rest =>
      cases answer with
      | ok => exact hcalm (calms_rollover ht first.1)
      | lost => exact hcalm (calms_rollover ht first.1)
      | refused forbidden => exact hsame
  | bridge => exact hsame
  | finished => exact hsame

/-- The step lemma. -/
theorem consistent_step {s : State} {action : Action} (hs : Consistent resolve s)
    (horderly : isOrderly resolve s action = true) :
    Consistent resolve (step resolve s action) := by
  obtain ⟨cluster, run⟩ := s
  have hbegun : (∀ stream, isStale resolve cluster stream = false) →
      ∀ serverless securityEnabled files, Consistent resolve
        ⟨cluster, some (SetupRun.begin serverless securityEnabled files)⟩ := by
    intro hfresh serverless securityEnabled files
    refine consistent_running hs.timed (covered_settle ?_)
    intro stream hstale
    rw [hfresh stream] at hstale
    cases hstale
  cases action with
  | begin serverless securityEnabled files =>
    cases run with
    | none => exact hbegun (hs.idle rfl) serverless securityEnabled files
    | some run =>
      simp only [step]
      split
      · rename_i hfinished
        have hcovered := hs.covered run rfl
        unfold Covered at hcovered
        rw [hfinished] at hcovered
        exact hbegun hcovered serverless securityEnabled files
      · exact hs
  | request answer =>
    cases run with
    | none => exact hs
    | some run =>
      obtain ⟨htimed, hcovered⟩ := covered_advance hs.timed (hs.covered run rfl) horderly
      exact consistent_running htimed hcovered
  | bridge failedIndices =>
    cases run with
    | none => exact hs
    | some run =>
      simp only [step]
      split
      · rename_i hbridge
        have hcovered := hs.covered run rfl
        unfold Covered at hcovered
        rw [hbridge] at hcovered
        refine consistent_running hs.timed ?_
        unfold SetupRun.bridged
        split <;> exact hcovered
      · exact hs
  | stop =>
    have hfresh := isConverged_eq_true_iff.mp horderly
    exact ⟨hs.timed, fun _ => hfresh, fun stopped hstopped => by cases hstopped⟩
  | createStream stream => exact hs.of_calms (calms_createStream hs.timed stream)
  | rolloverStream stream => exact hs.of_calms (calms_rollover hs.timed stream)
  | deleteStream stream => exact hs.of_calms (calms_deleteStream hs.timed stream)

theorem raised_of_consistent {s : State} (hs : Consistent resolve s) (action : Action)
    {endpoint : Endpoint} {name : String} {version : ℕ}
    (h : s.cluster.installedVersion endpoint name = some version) :
    ∃ version', (step resolve s action).cluster.installedVersion endpoint name = some version' ∧
      version ≤ version' := by
  obtain ⟨cluster, run⟩ := s
  have hsame : ∃ version', cluster.installedVersion endpoint name = some version' ∧
      version ≤ version' := ⟨version, h, le_refl version⟩
  have hcalm : ∀ {after : Cluster}, Calms resolve cluster after →
      ∃ version', after.installedVersion endpoint name = some version' ∧ version ≤ version' := by
    intro after hcalms
    rw [hcalms.installedVersion]
    exact hsame
  cases action with
  | begin serverless securityEnabled files =>
    cases run with
    | none => exact hsame
    | some run =>
      simp only [step]
      split <;> exact hsame
  | request answer =>
    cases run with
    | none => exact hsame
    | some run => exact installedVersion_advance (hs.covered run rfl) hs.timed h
  | bridge failedIndices =>
    cases run with
    | none => exact hsame
    | some run =>
      simp only [step]
      split <;> exact hsame
  | stop => exact hsame
  | createStream stream => exact hcalm (calms_createStream hs.timed stream)
  | rolloverStream stream => exact hcalm (calms_rollover hs.timed stream)
  | deleteStream stream => exact hcalm (calms_deleteStream hs.timed stream)

/-- As long as no stale data stream is left behind, upgrades converge. -/
theorem upgrades_converge (actions : List Action)
    (h : Along (step resolve) (fun s action => isOrderly resolve s action = true) State.start
      actions) :
    Along (step resolve) (Converges resolve) State.start actions := by
  have hstep : ∀ s action, Consistent resolve s → isOrderly resolve s action = true →
      Consistent resolve (step resolve s action) :=
    fun _ _ hs horderly => consistent_step hs horderly
  refine along_of_invariant hstep ?_ consistent_start h
  intro s action hs horderly
  refine ⟨fun endpoint name version hversion => raised_of_consistent hs action hversion, ?_⟩
  intro run hrun hfinished _
  have hcovered := (hstep s action hs horderly).covered run hrun
  unfold Covered at hcovered
  rw [hfinished] at hcovered
  exact hcovered

end Runs

section Sample

/-- Index templates that name their data streams. -/
def sampleResolve (scopes : KeyedMap String Scope) (stream : String) : Option String :=
  (scopes.entries.find? fun entry => decide (stream ∈ entry.2.indexPatterns)).map Prod.fst

/-- A release with an index template and its component, which the release may raise. -/
def release (version : ℕ) : List AssetFile :=
  [{ asset := ⟨.componentTemplate, none, false⟩
     path := "elasticsearch/component_templates/esdiag@settings.json"
     stem := "esdiag@settings"
     contents := ⟨some version, [], ⟨[], 0⟩⟩ },
   { asset := ⟨.indexTemplate, some "-esdiag", false⟩
     path := "elasticsearch/index_templates/metrics-index.json"
     stem := "metrics-index"
     contents := ⟨some 1, ["esdiag@settings"], ⟨["metrics-index-esdiag"], 300⟩⟩ }]

def answered (n : ℕ) : List Action := List.replicate n (.request .ok)

/-- A first setup, and data that comes in. -/
def firstSetup : List Action :=
  .begin false true (release 1) :: answered 6 ++
    [.bridge (some []), .createStream "metrics-index-esdiag"]

/-- An upgrade that is followed through. -/
def upgraded : List Action :=
  firstSetup ++ .begin false true (release 2) :: answered 7 ++ [.bridge (some [])]

set_option maxRecDepth 20000 in
theorem upgrades_converge_upgraded :
    Along (step sampleResolve) (Converges sampleResolve) State.start upgraded := by
  apply upgrades_converge
  decide

/-- An upgrade that stops after the first template, and the same setup once more. -/
def interrupted : List Action :=
  firstSetup ++ .begin false true (release 2) :: answered 2 ++ .stop ::
    .begin false true (release 2) :: answered 5

/-- An older release that does not get to know the installed version. -/
def unread : List Action :=
  upgraded ++ [.begin false true (release 1), .request (.refused false)]

def installedSettings (s : State) : Option ℕ :=
  s.cluster.installedVersion .componentTemplate "esdiag@settings"

set_option maxRecDepth 20000 in
/-- A complete run leaves a data stream that was created before the upgrade, and a failed
lookup lets an older version overwrite a newer one. -/
theorem interrupted_upgrade_stale :
    ((run (step sampleResolve) .start (interrupted ++ [.bridge (some [])])).run.map
        fun run => (run.phase, run.report.isComplete)) = some (.finished, true) ∧
      isStale sampleResolve
        (run (step sampleResolve) .start (interrupted ++ [.bridge (some [])])).cluster
        "metrics-index-esdiag" = true ∧
      installedSettings (run (step sampleResolve) .start unread) = some 2 ∧
      installedSettings (run (step sampleResolve) .start (unread ++ [.request .ok])) = some 1 ∧
      ¬∀ actions, Along (step sampleResolve) (Converges sampleResolve) State.start actions := by
  have hfinished : ((run (step sampleResolve) .start (interrupted ++ [.bridge (some [])])).run.map
      fun run => (run.phase, run.report.isComplete)) = some (.finished, true) := by decide
  have hstale : isStale sampleResolve
      (run (step sampleResolve) .start (interrupted ++ [.bridge (some [])])).cluster
      "metrics-index-esdiag" = true := by decide
  refine ⟨hfinished, hstale, by decide, by decide, fun hall => ?_⟩
  have hlast := along_iff.mp (hall (interrupted ++ [.bridge (some [])])) interrupted
    (.bridge (some [])) [] rfl
  have hstep : step sampleResolve (run (step sampleResolve) .start interrupted)
      (.bridge (some [])) =
        run (step sampleResolve) .start (interrupted ++ [.bridge (some [])]) := by
    rw [run_append]
    rfl
  rw [← hstep] at hfinished hstale
  obtain ⟨last, hrun, hphase⟩ := Option.map_eq_some_iff.mp hfinished
  obtain ⟨hdone, hcomplete⟩ := Prod.mk.inj hphase
  rw [hlast.fresh last hrun hdone hcomplete] at hstale
  cases hstale

end Sample

end Esdiag.TemplateConvergence
