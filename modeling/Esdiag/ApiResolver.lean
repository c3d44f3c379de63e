import Esdiag.DepthFirstClosure
import Esdiag.SourceRegistry

/-!
Which sources a diagnostic collects and processes. Requested keys are the base
keys of the diagnostic type with inclusions and without exclusions; minimum
keys and dependencies are added to them by a depth-first search. The options
to process are resolved by a second search of the same kind, over the options'
own dependencies.
-/
namespace Esdiag.ApiResolver

open KeyedMaps DepthFirstClosure SourceRegistry

inductive DiagnosticType where
  | minimal
  | standard
  | support
  | light
  deriving DecidableEq

namespace DiagnosticType

/-- Letters outside ASCII have no lowercase form in these four names. -/
def fromStr (s : String) : Except String DiagnosticType :=
  let name := Texts.toLowercase s
  if name = "minimal" then .ok .minimal
  else if name = "standard" then .ok .standard
  else if name = "support" then .ok .support
  else if name = "light" then .ok .light
  else .error ("Invalid diagnostic type: " ++ s)

def tag : DiagnosticType → String
  | minimal => "minimal"
  | standard => "standard"
  | light => "light"
  | support => "support"

end DiagnosticType

def elasticsearchKeyMap (name : String) : String :=
  if name = "cluster" then "version"
  else if name = "pending_tasks" then "cluster_pending_tasks"
  else if name = "mapping_stats" then "mapping"
  else if name = "data_streams" then "data_stream"
  else if name = "internal_health" then "health_report"
  else if name = "settings" then "indices_settings"
  else name

def logstashKeyMap (name : String) : String :=
  if name = "node" then "logstash_node"
  else if name = "node_stats" then "logstash_node_stats"
  else if name = "plugins" then "logstash_plugins"
  else if name = "version" then "logstash_version"
  else if name = "health_report" then "logstash_health_report"
  else if name = "hot_threads" then "logstash_nodes_hot_threads"
  else if name = "hot_threads_human" then "logstash_nodes_hot_threads_human"
  else name

/-- A legacy source name mapped onto its registry key. -/
def legacyKeyMap (product name : String) : String :=
  if product = "elasticsearch" then elasticsearchKeyMap name
  else if product = "logstash" then logstashKeyMap name
  else name

def canonicalSourceKey (registry : Registry) (product name : String) : Except String String :=
  let key := legacyKeyMap product (Texts.trim name)
  match registry.getSource product key with
  | none => .error ("Invalid " ++ product ++ " API: " ++ name)
  | some _ => .ok key

abbrev Dependencies := KeyedMap String (List String)

def dependenciesOf (dependencies : Dependencies) (api : String) : List String :=
  (dependencies.find? api).getD []

/-- Keys without an entry have no dependencies, so the search cannot fail. -/
def dependencyGraph (dependencies : Dependencies) : DepthFirstClosure.Graph String Empty where
  successors api := .ok (dependenciesOf dependencies api)
  branching := dependencies.entries.map Prod.fst
  branching_complete := by
    intro api deps hdeps hne
    rw [Except.ok.injEq] at hdeps
    subst hdeps
    cases hfind : dependencies.find? api with
    | none => simp [dependenciesOf, hfind] at hne
    | some found => exact KeyedMap.mem_keys_of_find? hfind

def withMinimum (requested minimumRequired : List String) : List String :=
  minimumRequired.foldl insertNew requested

def resolveRequested (requested minimumRequired : List String) (dependencies : Dependencies) :
    List String :=
  match closure (dependencyGraph dependencies) (withMinimum requested minimumRequired) with
  | .ok final => final
  | .error impossible => impossible.elim

def esMinimumRequired : List String := ["version"]

def kbMinimumRequired : List String := ["kibana_status", "kibana_spaces"]

def lsMinimumRequired : List String := ["logstash_node"]

def collectDependencies (registry : Registry) (product : String) : Dependencies :=
  match registry.getProductSources product with
  | none => .empty
  | some sources => sources.filterMap fun _ source =>
      if source.collectDependencies.isEmpty then none else some source.collectDependencies

def kbDependencies (registry : Registry) (requested : List String) : Dependencies :=
  requested.foldl
    (fun deps api =>
      if (registry.getSource "kibana" api).any Source.isSpaceaware then
        deps.upsert api fun old => old.getD [] ++ ["kibana_spaces"]
      else deps)
    .empty

/-- Removal from an ordered set: the last key takes the place of the removed one. -/
def swapRemove (key : String) : List String → List String
  | [] => []
  | first :: rest =>
    if first = key then
      match rest.getLast? with
      | none => []
      | some last => last :: rest.dropLast
    else first :: swapRemove key rest

def includeKeys (registry : Registry) (product : String) :
    List String → List String → Except String (List String)
  | requested, [] => .ok requested
  | requested, api :: rest =>
    match canonicalSourceKey registry product api with
    | .error message => .error message
    | .ok key => includeKeys registry product (insertNew requested key) rest

def excludeKeys (registry : Registry) (product : String) :
    List String → List String → Except String (List String)
  | requested, [] => .ok requested
  | requested, api :: rest =>
    match canonicalSourceKey registry product api with
    | .error message => .error message
    | .ok key => excludeKeys registry product (swapRemove key requested) rest

/-- The requested keys: base and inclusions without exclusions. -/
def requestedKeys (registry : Registry) (product : String) (base : List String)
    (included excluded : Option (List String)) : Except String (List String) :=
  match includeKeys registry product (base.foldl insertNew []) (included.getD []) with
  | .error message => .error message
  | .ok requested => excludeKeys registry product requested (excluded.getD [])

def resolveKeys (registry : Registry) (product : String) (base : List String)
    (included excluded : Option (List String)) (minimumRequired : List String)
    (dependencies : Dependencies) : Except String (List String) :=
  (requestedKeys registry product base included excluded).map fun requested =>
    resolveRequested requested minimumRequired dependencies

def baseKeys (registry : Registry) (product : String) (diagType : DiagnosticType) :
    List String :=
  (registry.getSourceKeysWithTag product diagType.tag).insertionSort fun a b => a ≤ b

def esBaseApis (registry : Registry) (diagType : DiagnosticType) : List String :=
  baseKeys registry "elasticsearch" diagType

def kbBaseApis (registry : Registry) (diagType : DiagnosticType) : List String :=
  match diagType with
  | .minimal => kbMinimumRequired
  | .standard | .support | .light => baseKeys registry "kibana" diagType

def lsBaseApis (registry : Registry) (diagType : DiagnosticType) : List String :=
  match diagType with
  | .minimal => ["logstash_node"]
  | .standard | .light | .support => baseKeys registry "logstash" diagType

def resolveEs (registry : Registry) (diagType : DiagnosticType)
    (included excluded : Option (List String)) : Except String (List String) :=
  resolveKeys registry "elasticsearch" (esBaseApis registry diagType) included excluded
    esMinimumRequired (collectDependencies registry "elasticsearch")

def resolveKb (registry : Registry) (diagType : DiagnosticType)
    (included excluded : Option (List String)) : Except String (List String) :=
  (requestedKeys registry "kibana" (kbBaseApis registry diagType) included excluded).map
    fun requested =>
      resolveRequested requested kbMinimumRequired (kbDependencies registry requested)

def resolveLs (registry : Registry) (diagType : DiagnosticType)
    (included excluded : Option (List String)) : Except String (List String) :=
  resolveKeys registry "logstash" (lsBaseApis registry diagType) included excluded
    lsMinimumRequired (collectDependencies registry "logstash")

end Esdiag.ApiResolver
