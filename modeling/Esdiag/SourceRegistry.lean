import Esdiag.KeyedMaps
import Esdiag.Texts

/-!
The registry of data sources: for each product, the sources that can be
collected and processed, with their tags, their dependencies and the option
marker that makes a source selectable for processing.
-/
namespace Esdiag.SourceRegistry

open KeyedMaps

/-- A request path for a range of versions; only the structured form can be
aware of spaces. -/
inductive VersionSource where
  | url (url : String)
  | structured (url : String) (spaceaware : Bool)

structure Source where
  tags : Option String
  required : Option Bool
  dependencies : List String
  collectDependencies : List String
  versions : KeyedMap String VersionSource

namespace Source

def hasTag (source : Source) (tag : String) : Bool :=
  (source.tags.map fun tags =>
    (Texts.split ',' tags).any fun value => Texts.trim value == tag).getD false

def isSpaceaware (source : Source) : Bool :=
  source.versions.values.any fun version =>
    match version with
    | .url _ => false
    | .structured _ spaceaware => spaceaware

end Source

abbrev Sources := KeyedMap String Source

abbrev Registry := KeyedMap String Sources

namespace Registry

def getProductSources (registry : Registry) (product : String) : Option Sources :=
  registry.find? product

def getSource (registry : Registry) (product name : String) : Option Source :=
  (registry.getProductSources product).bind fun sources => sources.find? name

def getSourceKeysWithTag (registry : Registry) (product tag : String) : List String :=
  ((registry.getProductSources product).map fun sources =>
    (sources.entries.filter fun entry => entry.2.hasTag tag).map Prod.fst).getD []

end Registry

end Esdiag.SourceRegistry
