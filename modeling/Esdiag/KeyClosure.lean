import Esdiag.ApiResolver

/-!
The keys that a diagnostic collects are a dependency closure: the least set
that holds what was kept of the request and the minimum and that is closed
under dependencies, without duplicates, and with every dependency before the
keys that need it when dependencies have no cycle.
-/
namespace Esdiag.KeyClosure

open KeyedMaps DepthFirstClosure SourceRegistry ApiResolver Relation

/-- One key needs another directly. -/
def Needs (dependencies : Dependencies) (key dep : String) : Prop :=
  dep ∈ dependenciesOf dependencies key

def Acyclic (dependencies : Dependencies) : Prop :=
  ∀ key, ¬ TransGen (Needs dependencies) key key

def Closed (dependencies : Dependencies) (keys : Set String) : Prop :=
  ∀ key ∈ keys, ∀ dep, Needs dependencies key dep → dep ∈ keys

/-- The result is the least closed set over some keys, listed in an order that
respects acyclic dependencies. -/
structure IsClosure (dependencies : Dependencies) (start : Set String) (result : List String) :
    Prop where
  nodup : result.Nodup
  contains : ∀ key ∈ start, key ∈ result
  closed : Closed dependencies (fun key => key ∈ result)
  least : ∀ keys : Set String, start ⊆ keys → Closed dependencies keys →
    ∀ key ∈ result, key ∈ keys
  ordered : Acyclic dependencies → ∀ before key after, result = before ++ key :: after →
    ∀ dep, Needs dependencies key dep → dep ∈ before

theorem edge_iff_needs (dependencies : Dependencies) (key dep : String) :
    (dependencyGraph dependencies).Edge key dep ↔ Needs dependencies key dep := by
  constructor
  · rintro ⟨deps, hdeps, hmem⟩
    have heq : dependenciesOf dependencies key = deps := Except.ok.inj hdeps
    rwa [← heq] at hmem
  · exact fun hmem => ⟨_, rfl, hmem⟩

private theorem edge_eq_needs (dependencies : Dependencies) :
    (dependencyGraph dependencies).Edge = Needs dependencies := by
  funext key dep
  exact propext (edge_iff_needs dependencies key dep)

theorem mem_withMinimum (requested minimumRequired : List String) (key : String) :
    key ∈ withMinimum requested minimumRequired ↔ key ∈ requested ∨ key ∈ minimumRequired := by
  unfold withMinimum
  induction minimumRequired generalizing requested with
  | nil => simp
  | cons first rest ih =>
    rw [List.foldl_cons, ih, mem_insertNew, List.mem_cons, or_assoc]

theorem resolveRequested_closure (requested minimumRequired : List String)
    (dependencies : Dependencies) :
    IsClosure dependencies {key | key ∈ requested ∨ key ∈ minimumRequired}
      (resolveRequested requested minimumRequired dependencies) := by
  unfold resolveRequested
  cases hclosure : closure (dependencyGraph dependencies)
      (withMinimum requested minimumRequired) with
  | error impossible => exact impossible.elim
  | ok final =>
    obtain ⟨hnodup, hmem, -, hordered⟩ := closure_spec hclosure
    rw [edge_eq_needs] at hmem
    refine ⟨hnodup, ?_, ?_, ?_, ?_⟩
    · intro key hkey
      exact (hmem key).mpr ⟨key, (mem_withMinimum _ _ key).mpr hkey, .refl⟩
    · intro key hkey dep hdep
      obtain ⟨root, hroot, hpath⟩ := (hmem key).mp hkey
      exact (hmem dep).mpr ⟨root, hroot, hpath.tail hdep⟩
    · intro keys hstart hclosed key hkey
      obtain ⟨root, hroot, hpath⟩ := (hmem key).mp hkey
      induction hpath with
      | refl => exact hstart ((mem_withMinimum _ _ root).mp hroot)
      | tail hprev hneeds ih =>
        exact hclosed _ (ih ((hmem _).mpr ⟨root, hroot, hprev⟩)) _ hneeds
    · intro hacyclic before key after hsplit dep hdep
      refine hordered ?_ before key after hsplit dep ((edge_iff_needs _ _ _).mpr hdep)
      unfold Graph.Acyclic
      rwa [edge_eq_needs]

theorem swapRemove_perm (key : String) (keys : List String) :
    (swapRemove key keys).Perm (keys.erase key) := by
  induction keys with
  | nil => exact .refl _
  | cons first rest ih =>
    by_cases hfirst : first = key
    · subst hfirst
      rw [List.erase_cons_head]
      cases hlast : rest.getLast? with
      | none =>
        rw [List.getLast?_eq_none_iff] at hlast
        simp [swapRemove, hlast]
      | some last =>
        obtain ⟨init, hinit⟩ := List.getLast?_eq_some_iff.mp hlast
        simp only [swapRemove, if_true, hlast]
        rw [hinit, List.dropLast_concat]
        exact (List.perm_append_singleton last init).symm
    · simp only [swapRemove, if_neg hfirst]
      rw [List.erase_cons_tail (by simpa using hfirst)]
      exact ih.cons first

theorem mem_swapRemove {key other : String} {keys : List String} (hnodup : keys.Nodup) :
    other ∈ swapRemove key keys ↔ other ∈ keys ∧ other ≠ key := by
  rw [(swapRemove_perm key keys).mem_iff, hnodup.mem_erase_iff, and_comm]

theorem nodup_swapRemove {key : String} {keys : List String} (hnodup : keys.Nodup) :
    (swapRemove key keys).Nodup :=
  (swapRemove_perm key keys).nodup_iff.mpr (hnodup.erase key)

section Requests

variable (registry : Registry) (product : String)

/-- A key that one of the given names stands for. -/
def Canonical (names : List String) (key : String) : Prop :=
  ∃ name ∈ names, canonicalSourceKey registry product name = .ok key

theorem canonical_cons {name : String} {names : List String} {key other : String}
    (hname : canonicalSourceKey registry product name = .ok key) :
    Canonical registry product (name :: names) other ↔
      other = key ∨ Canonical registry product names other := by
  constructor
  · rintro ⟨one, hone, hkey⟩
    rcases List.mem_cons.mp hone with rfl | hrest
    · rw [hname, Except.ok.injEq] at hkey
      exact Or.inl hkey.symm
    · exact Or.inr ⟨one, hrest, hkey⟩
  · rintro (rfl | ⟨one, hone, hkey⟩)
    · exact ⟨name, by simp, hname⟩
    · exact ⟨one, List.mem_cons_of_mem name hone, hkey⟩

theorem includeKeys_spec (names requested : List String) (hnodup : requested.Nodup) :
    match includeKeys registry product requested names with
    | .error message => ∃ name ∈ names, canonicalSourceKey registry product name = .error message
    | .ok result => result.Nodup ∧
        ∀ key, key ∈ result ↔ key ∈ requested ∨ Canonical registry product names key := by
  induction names generalizing requested with
  | nil => exact ⟨hnodup, fun key => by simp [Canonical]⟩
  | cons name rest ih =>
    unfold includeKeys
    cases hname : canonicalSourceKey registry product name with
    | error message => exact ⟨name, by simp, hname⟩
    | ok key =>
      have hrest := ih (insertNew requested key) (nodup_insertNew key hnodup)
      simp only
      cases hresult : includeKeys registry product (insertNew requested key) rest with
      | error message =>
        rw [hresult] at hrest
        obtain ⟨bad, hbad, herror⟩ := hrest
        exact ⟨bad, List.mem_cons_of_mem name hbad, herror⟩
      | ok result =>
        rw [hresult] at hrest
        refine ⟨hrest.1, fun other => ?_⟩
        rw [hrest.2, mem_insertNew, canonical_cons registry product hname, or_assoc]

theorem excludeKeys_spec (names requested : List String) (hnodup : requested.Nodup) :
    match excludeKeys registry product requested names with
    | .error message => ∃ name ∈ names, canonicalSourceKey registry product name = .error message
    | .ok result => result.Nodup ∧
        ∀ key, key ∈ result ↔ key ∈ requested ∧ ¬ Canonical registry product names key := by
  induction names generalizing requested with
  | nil => exact ⟨hnodup, fun key => by simp [Canonical]⟩
  | cons name rest ih =>
    unfold excludeKeys
    cases hname : canonicalSourceKey registry product name with
    | error message => exact ⟨name, by simp, hname⟩
    | ok key =>
      have hrest := ih (swapRemove key requested) (nodup_swapRemove hnodup)
      simp only
      cases hresult : excludeKeys registry product (swapRemove key requested) rest with
      | error message =>
        rw [hresult] at hrest
        obtain ⟨bad, hbad, herror⟩ := hrest
        exact ⟨bad, List.mem_cons_of_mem name hbad, herror⟩
      | ok result =>
        rw [hresult] at hrest
        refine ⟨hrest.1, fun other => ?_⟩
        rw [hrest.2, mem_swapRemove hnodup, canonical_cons registry product hname, not_or,
          and_assoc]

/-- What is left of a request: base keys and inclusions, without exclusions. -/
def keptKeys (base : List String) (included excluded : Option (List String)) : Set String :=
  {key | (key ∈ base ∨ Canonical registry product (included.getD []) key) ∧
    ¬ Canonical registry product (excluded.getD []) key}

def InvalidName (included excluded : Option (List String)) (message : String) : Prop :=
  ∃ name ∈ included.getD [] ++ excluded.getD [],
    canonicalSourceKey registry product name = .error message

theorem requestedKeys_spec (base : List String) (included excluded : Option (List String)) :
    match requestedKeys registry product base included excluded with
    | .error message => InvalidName registry product included excluded message
    | .ok requested => requested.Nodup ∧
        ∀ key, key ∈ requested ↔ key ∈ keptKeys registry product base included excluded := by
  have hbase := nodup_foldl_insertNew base List.nodup_nil
  have hmemBase : ∀ key, key ∈ base.foldl insertNew [] ↔ key ∈ base := by
    intro key
    rw [mem_foldl_insertNew]
    simp
  have hinclude := includeKeys_spec registry product (included.getD []) _ hbase
  unfold requestedKeys
  cases hincluded : includeKeys registry product (base.foldl insertNew [])
      (included.getD []) with
  | error message =>
    rw [hincluded] at hinclude
    obtain ⟨name, hname, herror⟩ := hinclude
    exact ⟨name, List.mem_append_left _ hname, herror⟩
  | ok middle =>
    rw [hincluded] at hinclude
    have hexclude := excludeKeys_spec registry product (excluded.getD []) middle hinclude.1
    simp only
    cases hexcluded : excludeKeys registry product middle (excluded.getD []) with
    | error message =>
      rw [hexcluded] at hexclude
      obtain ⟨name, hname, herror⟩ := hexclude
      exact ⟨name, List.mem_append_right _ hname, herror⟩
    | ok requested =>
      rw [hexcluded] at hexclude
      refine ⟨hexclude.1, fun key => ?_⟩
      rw [hexclude.2, hinclude.2, hmemBase]
      rfl

theorem resolveKeys_closure (base : List String) (included excluded : Option (List String))
    (minimumRequired : List String) (dependencies : Dependencies) :
    match resolveKeys registry product base included excluded minimumRequired dependencies with
    | .error message => InvalidName registry product included excluded message
    | .ok keys => IsClosure dependencies
        (keptKeys registry product base included excluded ∪ {key | key ∈ minimumRequired})
        keys := by
  have hspec := requestedKeys_spec registry product base included excluded
  unfold resolveKeys
  cases hrequested : requestedKeys registry product base included excluded with
  | error message =>
    rw [hrequested] at hspec
    exact hspec
  | ok requested =>
    rw [hrequested] at hspec
    have hclosure := resolveRequested_closure requested minimumRequired dependencies
    have hstart : {key | key ∈ requested ∨ key ∈ minimumRequired} =
        keptKeys registry product base included excluded ∪ {key | key ∈ minimumRequired} := by
      ext key
      exact or_congr_left (hspec.2 key)
    rw [hstart] at hclosure
    exact hclosure

theorem resolveKb_closure (diagType : DiagnosticType)
    (included excluded : Option (List String)) :
    match resolveKb registry diagType included excluded with
    | .error message => InvalidName registry "kibana" included excluded message
    | .ok keys => ∃ requested,
        requestedKeys registry "kibana" (kbBaseApis registry diagType) included excluded =
          .ok requested ∧
        IsClosure (kbDependencies registry requested)
          (keptKeys registry "kibana" (kbBaseApis registry diagType) included excluded ∪
            {key | key ∈ kbMinimumRequired}) keys := by
  have hspec := requestedKeys_spec registry "kibana" (kbBaseApis registry diagType)
    included excluded
  unfold resolveKb
  cases hrequested : requestedKeys registry "kibana" (kbBaseApis registry diagType)
      included excluded with
  | error message =>
    rw [hrequested] at hspec
    exact hspec
  | ok requested =>
    rw [hrequested] at hspec
    have hclosure := resolveRequested_closure requested kbMinimumRequired
      (kbDependencies registry requested)
    have hstart : {key | key ∈ requested ∨ key ∈ kbMinimumRequired} =
        keptKeys registry "kibana" (kbBaseApis registry diagType) included excluded ∪
          {key | key ∈ kbMinimumRequired} := by
      ext key
      exact or_congr_left (hspec.2 key)
    rw [hstart] at hclosure
    exact ⟨requested, rfl, hclosure⟩

end Requests

/-- Requests resolve to dependency closures, for every registry and every
dependency graph: the search ends within its fuel, and what it returns is the
closure of what was kept of the request together with the minimum. A request
fails only for a name that the registry does not know. -/
theorem resolved_keys_are_closures (registry : Registry) :
    (∀ requested minimumRequired dependencies,
      (search (dependencyGraph dependencies)
        (withMinimum requested minimumRequired)).isSome ∧
      IsClosure dependencies {key | key ∈ requested ∨ key ∈ minimumRequired}
        (resolveRequested requested minimumRequired dependencies)) ∧
    (∀ product base included excluded minimumRequired dependencies,
      match resolveKeys registry product base included excluded minimumRequired
        dependencies with
      | .error message => InvalidName registry product included excluded message
      | .ok keys => IsClosure dependencies
          (keptKeys registry product base included excluded ∪ {key | key ∈ minimumRequired})
          keys) ∧
    (∀ diagType included excluded,
      match resolveKb registry diagType included excluded with
      | .error message => InvalidName registry "kibana" included excluded message
      | .ok keys => ∃ requested,
          requestedKeys registry "kibana" (kbBaseApis registry diagType) included excluded =
            .ok requested ∧
          IsClosure (kbDependencies registry requested)
            (keptKeys registry "kibana" (kbBaseApis registry diagType) included excluded ∪
              {key | key ∈ kbMinimumRequired}) keys) := by
  refine ⟨fun requested minimumRequired dependencies => ⟨?_, ?_⟩, ?_, ?_⟩
  · exact search_isSome _ _
  · exact resolveRequested_closure requested minimumRequired dependencies
  · exact resolveKeys_closure registry
  · exact resolveKb_closure registry

end Esdiag.KeyClosure
