import Esdiag.ApiResolver
import Esdiag.Deployments

/-!
Which sources a processing stage is asked for. The selection of a job is
validated against the keys that its collection resolves, and later made
canonical for the processing stage. Validation uses the product and type of
the collection, canonicalization those of the selection itself.
-/
namespace Esdiag.ProcessSelections

open KeyedMaps DepthFirstClosure SourceRegistry ApiResolver Deployments

structure ProcessSelection where
  product : String
  diagnosticType : String
  selected : List String
  deriving DecidableEq

structure ProcessingOptionDef where
  key : String
  required : Bool
  dependencies : List String

/-- Required options come before the others, each group in key order. -/
def ProcessingOptionDef.precedes (a b : ProcessingOptionDef) : Prop :=
  if a.required = b.required then a.key ≤ b.key else a.required = true

instance (a b : ProcessingOptionDef) : Decidable (a.precedes b) :=
  inferInstanceAs (Decidable (ite (a.required = b.required) _ _))

def processingDefs (registry : Registry) (product : String) :
    Except String (List ProcessingOptionDef) :=
  match registry.getProductSources product with
  | none => .error ("Unsupported processing product: " ++ product)
  | some sources =>
    let defs := sources.entries.filterMap fun entry =>
      entry.2.required.map fun required => ⟨entry.1, required, entry.2.dependencies⟩
    if defs.isEmpty then .error ("Unsupported processing product: " ++ product)
    else .ok (defs.insertionSort ProcessingOptionDef.precedes)

/-- `resolve_processing_deps` as a search: a key without a definition fails it. -/
def optionGraph (product : String) (defs : List ProcessingOptionDef) :
    DepthFirstClosure.Graph String String where
  successors key :=
    match defs.find? fun one => one.key = key with
    | none => .error ("Unsupported processing option '" ++ key ++ "' for " ++ product)
    | some found => .ok found.dependencies
  branching := defs.map ProcessingOptionDef.key
  branching_complete := by
    intro key deps hdeps _
    cases hfind : defs.find? fun one => one.key = key with
    | none => simp [hfind] at hdeps
    | some found =>
      have hkey : found.key = key := by simpa using List.find?_some hfind
      exact List.mem_map.mpr ⟨found, List.mem_of_find?_eq_some hfind, hkey⟩

def defaultProcessingSelection (registry : Registry) (product : String)
    (diagType : DiagnosticType) : Except String (List String) :=
  let resolved :=
    if product = "elasticsearch" then resolveEs registry diagType none none
    else if product = "logstash" then resolveLs registry diagType none none
    else .error ("Unsupported processing product: " ++ product)
  match resolved with
  | .error message => .error message
  | .ok resolved =>
    match processingDefs registry product with
    | .error message => .error message
    | .ok defs => .ok (resolved.filter fun key => defs.any fun one => one.key == key)

def isCustom (diagnosticType : String) : Bool := Texts.toAsciiLowercase diagnosticType == "custom"

def defaultOptions (registry : Registry) (product diagnosticType : String)
    (defs : List ProcessingOptionDef) : Except String (List String) :=
  if isCustom diagnosticType then .ok (defs.map ProcessingOptionDef.key)
  else
    match DiagnosticType.fromStr diagnosticType with
    | .error message => .error message
    | .ok diagType => defaultProcessingSelection registry product diagType

/-- The keys the search starts from. -/
def requestedOptions (product : String) (defs : List ProcessingOptionDef)
    (defaults selected : List String) : List String :=
  let requested :=
    if selected.isEmpty then defaults.foldl insertNew []
    else (selected.map fun key => legacyKeyMap product (Texts.trim key)).foldl insertNew []
  ((defs.filter ProcessingOptionDef.required).map ProcessingOptionDef.key).foldl insertNew
    requested

def resolveProcessingSelection (registry : Registry) (product diagnosticType : String)
    (selected : List String) : Except String (List String) :=
  match processingDefs registry product with
  | .error message => .error message
  | .ok defs =>
    match defaultOptions registry product diagnosticType defs with
    | .error message => .error message
    | .ok defaults =>
      closure (optionGraph product defs) (requestedOptions product defs defaults selected)

def resolveCollectedKeys (registry : Registry) (product diagnosticType : String)
    (included excluded : Option (List String)) : Except String (List String) :=
  let diagType :=
    if isCustom diagnosticType then .ok .support else DiagnosticType.fromStr diagnosticType
  match diagType with
  | .error message => .error message
  | .ok diagType =>
    if product = "elasticsearch" then resolveEs registry diagType included excluded
    else if product = "logstash" then resolveLs registry diagType included excluded
    else .error ("Unsupported processing product: " ++ product)

def validateResolvedProcessingSelection (collected resolved : List String) :
    Except String Unit :=
  let missing := resolved.filter fun key => !collected.contains key
  if missing.isEmpty then .ok ()
  else .error ("processing selection requires sources that were not collected: " ++
    Texts.join ", " missing ++ "; remove the matching exclusions or include those sources")

def validateProcessingSelectionWithCollectFilters (registry : Registry)
    (product diagnosticType : String) (included excluded : Option (List String))
    (selected : List String) : Except String Unit :=
  match resolveCollectedKeys registry product diagnosticType included excluded with
  | .error message => .error message
  | .ok collected =>
    match resolveProcessingSelection registry product diagnosticType selected with
    | .error message => .error message
    | .ok resolved => validateResolvedProcessingSelection collected resolved

def resolveProcessingSelectionWithCollectFilters (registry : Registry)
    (product diagnosticType : String) (included excluded : Option (List String)) :
    Except String (List String) :=
  match resolveCollectedKeys registry product diagnosticType included excluded with
  | .error message => .error message
  | .ok collected =>
    match processingDefs registry product with
    | .error message => .error message
    | .ok defs =>
      let selected := collected.filter fun key =>
        (defs.map ProcessingOptionDef.key).contains key
      match resolveProcessingSelection registry product diagnosticType selected with
      | .error message => .error message
      | .ok resolved =>
        (validateResolvedProcessingSelection collected resolved).map fun _ => resolved

def canonicalizeProcessSelection (registry : Registry) (selection : ProcessSelection) :
    Except String ProcessSelection :=
  (resolveProcessingSelection registry selection.product selection.diagnosticType
    selection.selected).map fun selected => { selection with selected := selected }

/-- The product whose selections a collection validates. -/
def validatedProduct : Application → Option String
  | .elasticsearch => some "elasticsearch"
  | .logstash => some "logstash"
  | .kibana | .agent => none

def collectProcessSelection (registry : Registry) (application : Application)
    (diagnosticType : String) (included excluded : Option (List String))
    (selection : Option ProcessSelection) : Except String (Option ProcessSelection) :=
  match validatedProduct application with
  | none => .ok none
  | some product =>
    match selection with
    | some selection =>
      (validateProcessingSelectionWithCollectFilters registry product diagnosticType included
        excluded selection.selected).map fun _ => none
    | none =>
      (resolveProcessingSelectionWithCollectFilters registry product diagnosticType included
        excluded).map fun selected => some ⟨product, diagnosticType, selected⟩

/-- The keys that the collector of an application collects. -/
def collectorApis (registry : Registry) (application : Application) (diagnosticType : String)
    (included excluded : Option (List String)) : Except String (List String) :=
  match DiagnosticType.fromStr diagnosticType with
  | .error message => .error message
  | .ok diagType =>
    match application with
    | .elasticsearch => resolveEs registry diagType included excluded
    | .logstash => resolveLs registry diagType included excluded
    | .kibana => resolveKb registry diagType included excluded
    | .agent =>
      .error "Collect is only implemented for Elasticsearch, Kibana, and Logstash hosts"

/-- The selection handed to the processing stage: the explicit one, else the
derived one, made canonical. -/
def processingSelection (registry : Registry) (explicit derived : Option ProcessSelection) :
    Except String (Option ProcessSelection) :=
  match explicit.or derived with
  | none => .ok none
  | some selection => (canonicalizeProcessSelection registry selection).map some

end Esdiag.ProcessSelections
