import Esdiag.SelectionCoverage

/-!
What resolving a selection of processing options returns. It fails exactly where the
options to start from are not known or lead to a key that is not offered; else it
returns all that they lead to, each option after its dependencies. Where the options
are listed under the names that requests are mapped to, such a list resolves to itself.
-/
namespace Esdiag.SelectionClosure

open DepthFirstClosure SourceRegistry ApiResolver Deployments ProcessSelections SelectionCoverage
  Relation

/-- The names of a product's options are the ones that names are mapped to. -/
def OptionKeysCanonical (registry : Registry) (product : String) : Prop :=
  ∀ defs, processingDefs registry product = .ok defs →
    ∀ option ∈ defs, legacyKeyMap product (Texts.trim option.key) = option.key

section Options

variable {product : String} {defs : List ProcessingOptionDef}

theorem mem_requestedOptions_required {defaults selected : List String}
    {one : ProcessingOptionDef} (hone : one ∈ defs) (hrequired : one.required = true) :
    one.key ∈ requestedOptions product defs defaults selected :=
  mem_requestedOptions.mpr (.inr (List.mem_map_of_mem (List.mem_filter.mpr ⟨hone, hrequired⟩)))

theorem mem_requestedOptions_selected {defaults selected : List String} {key : String}
    (hkey : key ∈ selected) :
    legacyKeyMap product (Texts.trim key) ∈ requestedOptions product defs defaults selected :=
  mem_requestedOptions.mpr (.inl (.inr ⟨key, hkey, rfl⟩))

theorem mem_requestedOptions_default {defaults : List String} {key : String}
    (hkey : key ∈ defaults) : key ∈ requestedOptions product defs defaults [] :=
  mem_requestedOptions.mpr (.inl (.inl ⟨rfl, hkey⟩))

/-- Options under their own names, the required ones among them, ask for themselves. -/
theorem requestedOptions_self {defaults keys : List String} (hne : keys ≠ [])
    (hnodup : keys.Nodup) (hcanonical : ∀ key ∈ keys, legacyKeyMap product (Texts.trim key) = key)
    (hrequired : ∀ one ∈ defs, one.required = true → one.key ∈ keys) :
    requestedOptions product defs defaults keys = keys := by
  have hmap : (keys.map fun key => legacyKeyMap product (Texts.trim key)) = keys :=
    (List.map_congr_left hcanonical).trans (List.map_id keys)
  have hfold : keys.foldl insertNew [] = keys := foldl_insertNew_of_nodup hnodup
  have hisEmpty : keys.isEmpty = false := by simpa using hne
  simp only [requestedOptions, hisEmpty, hmap, hfold]
  refine foldl_insertNew_of_subset fun key hkey => ?_
  obtain ⟨one, hone, rfl⟩ := List.mem_map.mp hkey
  obtain ⟨hmem, hrequiredOne⟩ := List.mem_filter.mp hone
  exact hrequired one hmem hrequiredOne

end Options

section Resolution

variable {registry : Registry} {product diagnosticType : String} {selected resolved : List String}

def Offered (registry : Registry) (product key : String) : Prop :=
  ∃ defs, processingDefs registry product = .ok defs ∧ ∃ option ∈ defs, option.key = key

def AcyclicOptions (registry : Registry) (product : String) : Prop :=
  ∀ key, ¬ TransGen (DependsOn registry product) key key

theorem acyclic_of_acyclicOptions {defs : List ProcessingOptionDef}
    (hdefs : processingDefs registry product = .ok defs)
    (h : AcyclicOptions registry product) : (optionGraph product defs).Acyclic := by
  unfold Graph.Acyclic
  rwa [← dependsOn_eq hdefs]

/-- A resolution fails exactly where something that it leads to is not offered, or where
there is nothing to start from. -/
theorem resolves_iff :
    (∃ resolved, resolveProcessingSelection registry product diagnosticType selected =
        .ok resolved) ↔
      (∃ defs defaults, processingDefs registry product = .ok defs ∧
        defaultOptions registry product diagnosticType defs = .ok defaults) ∧
      ∀ root, Start registry ⟨product, diagnosticType, selected⟩ root →
        ∀ key, ReflTransGen (DependsOn registry product) root key →
          Offered registry product key := by
  constructor
  · rintro ⟨resolved, hresolved⟩
    obtain ⟨defs, defaults, hdefs, hdefaults, hclosure⟩ := resolve_eq_ok.mp hresolved
    refine ⟨⟨defs, defaults, hdefs, hdefaults⟩, ?_⟩
    intro root hroot key hpath
    have hkey : key ∈ resolved := (resolved_mem_iff hresolved key).mpr ⟨root, hroot, hpath⟩
    exact ⟨defs, hdefs, successors_isOk_iff.mp ((closure_spec hclosure).2.2.1 key hkey)⟩
  · rintro ⟨⟨defs, defaults, hdefs, hdefaults⟩, hall⟩
    cases hclosure : closure (optionGraph product defs)
        (requestedOptions product defs defaults selected) with
    | ok resolved =>
      exact ⟨resolved, resolve_eq_ok.mpr ⟨defs, defaults, hdefs, hdefaults, hclosure⟩⟩
    | error message =>
      obtain ⟨root, hroot, bad, hpath, hbad⟩ := closure_error hclosure
      rw [← dependsOn_eq hdefs] at hpath
      have hstart : Start registry ⟨product, diagnosticType, selected⟩ root :=
        ⟨defs, defaults, hdefs, hdefaults, hroot⟩
      obtain ⟨found, hfound, hoption⟩ := hall root hstart bad hpath
      rw [hdefs, Except.ok.injEq] at hfound
      subst hfound
      obtain ⟨deps, hdeps⟩ := successors_isOk_iff.mpr hoption
      rw [hbad] at hdeps
      exact absurd hdeps (by simp)

/-- What a resolved selection has. -/
structure Resolved (registry : Registry) (product diagnosticType : String)
    (selected resolved : List String) : Prop where
  required : ∀ defs, processingDefs registry product = .ok defs →
    ∀ option ∈ defs, option.required = true → option.key ∈ resolved
  requested : ∀ key ∈ selected, legacyKeyMap product (Texts.trim key) ∈ resolved
  defaults : selected = [] → ∀ defs defaults, processingDefs registry product = .ok defs →
    defaultOptions registry product diagnosticType defs = .ok defaults →
    ∀ key ∈ defaults, key ∈ resolved
  closed : ∀ key ∈ resolved, ∀ dep, DependsOn registry product key dep → dep ∈ resolved
  nodup : resolved.Nodup
  offered : ∀ key ∈ resolved, Offered registry product key
  ordered : ∀ before key after, resolved = before ++ key :: after →
    ∀ dep, DependsOn registry product key dep → dep ∈ before

theorem resolved_of_ok (hacyclic : AcyclicOptions registry product)
    (h : resolveProcessingSelection registry product diagnosticType selected = .ok resolved) :
    Resolved registry product diagnosticType selected resolved := by
  obtain ⟨defs, defaults, hdefs, hdefaults, hclosure⟩ := resolve_eq_ok.mp h
  obtain ⟨hnodup, hmem, hentered, hordered⟩ := closure_spec hclosure
  have hroots : ∀ root ∈ requestedOptions product defs defaults selected, root ∈ resolved :=
    fun root hroot => (hmem root).mpr ⟨root, hroot, .refl⟩
  refine ⟨?_, ?_, ?_, ?_, hnodup, ?_, ?_⟩
  · intro found hfound option hoption hrequired
    rw [hdefs, Except.ok.injEq] at hfound
    subst hfound
    exact hroots _ (mem_requestedOptions_required hoption hrequired)
  · exact fun key hkey => hroots _ (mem_requestedOptions_selected hkey)
  · intro hnone found others hfound hothers key hkey
    rw [hdefs, Except.ok.injEq] at hfound
    subst hfound
    rw [hdefaults, Except.ok.injEq] at hothers
    subst hothers hnone
    exact hroots key (mem_requestedOptions_default hkey)
  · intro key hkey dep hdep
    rw [dependsOn_eq hdefs] at hdep
    obtain ⟨root, hroot, hpath⟩ := (hmem key).mp hkey
    exact (hmem dep).mpr ⟨root, hroot, hpath.tail hdep⟩
  · exact fun key hkey => ⟨defs, hdefs, successors_isOk_iff.mp (hentered key hkey)⟩
  · intro before key after hsplit dep hdep
    rw [dependsOn_eq hdefs] at hdep
    exact hordered (acyclic_of_acyclicOptions hdefs hacyclic) before key after hsplit dep hdep

/-- A resolved selection resolves to itself where options keep their own names. -/
theorem resolve_resolved (hacyclic : AcyclicOptions registry product)
    (hcanonical : OptionKeysCanonical registry product)
    (h : resolveProcessingSelection registry product diagnosticType selected = .ok resolved) :
    resolveProcessingSelection registry product diagnosticType resolved = .ok resolved := by
  have hresolved := resolved_of_ok hacyclic h
  obtain ⟨defs, defaults, hdefs, hdefaults, hclosure⟩ := resolve_eq_ok.mp h
  obtain ⟨hnodup, hmem, hentered, hordered⟩ := closure_spec hclosure
  by_cases hempty : resolved = []
  · -- nothing was asked for, so that the second resolution is the first
    have hselected : selected = [] := by
      apply List.eq_nil_iff_forall_not_mem.mpr
      intro key hkey
      have hfound := hresolved.requested key hkey
      rw [hempty] at hfound
      exact List.not_mem_nil hfound
    rw [hselected] at h
    rwa [hempty] at h ⊢
  · have hsame : ∀ key ∈ resolved, legacyKeyMap product (Texts.trim key) = key := by
      intro key hkey
      obtain ⟨option, hoption, rfl⟩ := successors_isOk_iff.mp (hentered key hkey)
      exact hcanonical defs hdefs option hoption
    refine resolve_eq_ok.mpr ⟨defs, defaults, hdefs, hdefaults, ?_⟩
    rw [requestedOptions_self hempty hnodup hsame (hresolved.required defs hdefs)]
    exact closure_of_ordered hnodup hentered
      (hordered (acyclic_of_acyclicOptions hdefs hacyclic))

/-- Over acyclic options a selection resolves exactly where all that it leads to is offered.
The result has everything asked for, in an order in which it resolves to itself. -/
theorem selection_resolution (hacyclic : AcyclicOptions registry product) :
    ((∃ resolved, resolveProcessingSelection registry product diagnosticType selected =
        .ok resolved) ↔
      (∃ defs defaults, processingDefs registry product = .ok defs ∧
        defaultOptions registry product diagnosticType defs = .ok defaults) ∧
      ∀ root, Start registry ⟨product, diagnosticType, selected⟩ root →
        ∀ key, ReflTransGen (DependsOn registry product) root key →
          Offered registry product key) ∧
    ∀ resolved, resolveProcessingSelection registry product diagnosticType selected =
        .ok resolved →
      Resolved registry product diagnosticType selected resolved ∧
        (OptionKeysCanonical registry product →
          resolveProcessingSelection registry product diagnosticType resolved =
            .ok resolved) := by
  refine ⟨resolves_iff, fun resolved h => ?_⟩
  exact ⟨resolved_of_ok hacyclic h, fun hcanonical => resolve_resolved hacyclic hcanonical h⟩

end Resolution

section Samples

theorem acyclic_of_rank {registry : Registry} {product : String} (rank : String → ℕ)
    (h : ∀ key dep, DependsOn registry product key dep → rank dep < rank key) :
    AcyclicOptions registry product := by
  intro key hcycle
  have hless : ∀ dep, TransGen (DependsOn registry product) key dep → rank dep < rank key := by
    intro dep hpath
    induction hpath with
    | single hedge => exact h _ _ hedge
    | tail _ hedge ih => exact (h _ _ hedge).trans ih
  exact Nat.lt_irrefl _ (hless key hcycle)

/-- Two options: one collected by every type, one only for support. -/
def supportRegistry : Registry :=
  ⟨[("elasticsearch", ⟨
    [("version", ⟨some "minimal,support", some true, [], [], .empty⟩),
      ("tasks", ⟨some "support", some false, ["version"], [], .empty⟩)], by decide⟩)], by decide⟩

theorem supportRegistry_acyclic : AcyclicOptions supportRegistry "elasticsearch" := by
  apply acyclic_of_rank fun key => if key = "tasks" then 1 else 0
  intro key dep hdep
  have hdefs : processingDefs supportRegistry "elasticsearch" =
      .ok [⟨"version", true, []⟩, ⟨"tasks", false, ["version"]⟩] := rfl
  rw [dependsOn_eq hdefs] at hdep
  obtain ⟨deps, hdeps, hmem⟩ := hdep
  by_cases hversion : "version" = key
  · subst hversion
    obtain rfl : [] = deps := Except.ok.inj hdeps
    exact absurd hmem List.not_mem_nil
  · by_cases htasks : "tasks" = key
    · subst htasks
      obtain rfl : ["version"] = deps := Except.ok.inj hdeps
      rw [List.mem_singleton.mp hmem]
      decide
    · simp [optionGraph, hversion, htasks] at hdeps

theorem selection_resolution_tasks :
    Resolved supportRegistry "elasticsearch" "support" [" tasks "] ["version", "tasks"] ∧
      resolveProcessingSelection supportRegistry "elasticsearch" "support"
        ["version", "tasks"] = .ok ["version", "tasks"] := by
  have hcanonical : OptionKeysCanonical supportRegistry "elasticsearch" := by
    intro defs hdefs option hoption
    obtain rfl : [⟨"version", true, []⟩, ⟨"tasks", false, ["version"]⟩] = defs :=
      Except.ok.inj hdefs
    simp only [List.mem_cons, List.not_mem_nil, or_false] at hoption
    rcases hoption with rfl | rfl <;> decide
  have hresult := (selection_resolution supportRegistry_acyclic).2 ["version", "tasks"]
    (by rfl : resolveProcessingSelection supportRegistry "elasticsearch" "support" [" tasks "] = _)
  exact ⟨hresult.1, hresult.2 hcanonical⟩

/-- An option under a name that requests are mapped away from. -/
def aliasRegistry : Registry :=
  ⟨[("elasticsearch", ⟨[("cluster", ⟨none, some false, [], [], .empty⟩)], by decide⟩)], by decide⟩

theorem aliasRegistry_acyclic : AcyclicOptions aliasRegistry "elasticsearch" := by
  apply acyclic_of_rank fun _ => 0
  intro key dep hdep
  have hdefs : processingDefs aliasRegistry "elasticsearch" = .ok [⟨"cluster", false, []⟩] := rfl
  rw [dependsOn_eq hdefs] at hdep
  obtain ⟨deps, hdeps, hmem⟩ := hdep
  by_cases hcluster : "cluster" = key
  · subst hcluster
    obtain rfl : [] = deps := Except.ok.inj hdeps
    exact absurd hmem List.not_mem_nil
  · simp [optionGraph, hcluster] at hdeps

/-- A resolved selection that does not resolve again, and an offered option without
dependencies that does not resolve for an unknown type of diagnostic. -/
theorem resolution_not_repeatable :
    AcyclicOptions aliasRegistry "elasticsearch" ∧
      resolveProcessingSelection aliasRegistry "elasticsearch" "custom" [] = .ok ["cluster"] ∧
      resolveProcessingSelection aliasRegistry "elasticsearch" "custom" ["cluster"] =
        .error "Unsupported processing option 'version' for elasticsearch" ∧
      Offered supportRegistry "elasticsearch" "version" ∧
      (resolveProcessingSelection supportRegistry "elasticsearch" "everything"
        ["version"]).isOk = false :=
  ⟨aliasRegistry_acyclic, by rfl, by rfl,
    ⟨[⟨"version", true, []⟩, ⟨"tasks", false, ["version"]⟩], rfl, _, List.mem_cons_self, rfl⟩,
    by rfl⟩

end Samples

end Esdiag.SelectionClosure
