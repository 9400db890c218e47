import BraceTemplate.Filter
import BraceTemplate.Registry.Manifest
import BraceTemplate.Text.Trim

/- The registry: the components, filters and platforms that templates may use, merged from
   manifests. Of two declarations of one name the later is kept, in the place of the first.
   A registry never changes; other manifests make another registry. -/
namespace BraceTemplate

open Json

variable [Formats]

structure Registry where
  profile : Profile
  cms : Cms
  schemaVersion : String
  components : List (String × Component)
  filters : List (String × FilterSpec)
  platforms : List (String × Platform)
  /-- The prefixes that namespaces stand for. -/
  namespaces : List (String × String)
  manifests : List ManifestInfo
  deriving Repr

/-- The handlers of tags, by the names of the tags. -/
abbrev Dispatch := List (String × String)

namespace Dispatch

/-- The handler of the tags that have none of their own. -/
def fallback : String := "container"

/-- Every component is rendered by its handler; the last of a name decides. -/
def ofComponents (cs : List Component) : Dispatch :=
  Table.ofEntries (cs.map fun c => (c.name, c.handlerName))

def handler (d : Dispatch) (tag : String) : String := (Table.lookup tag d).getD fallback

def isRegistered (d : Dispatch) (tag : String) : Bool := (Table.lookup tag d).isSome

end Dispatch

namespace Registry

/-! Merging. -/

def empty (profile : Profile) (cms : Cms) : Registry := ⟨profile, cms, "", [], [], [], [], []⟩

def merge (r : Registry) (path : String) (m : Manifest) : Registry :=
  { r with
    schemaVersion := if r.schemaVersion.isEmpty then m.schemaVersion else r.schemaVersion
    manifests := r.manifests ++ [m.info path]
    namespaces := Table.insertAll r.namespaces m.namespaces
    platforms := Table.insertAll r.platforms (m.platforms.map fun p => (p.id, p))
    components := Table.insertAll r.components m.components
    filters := Table.insertAll r.filters m.filters }

/-- The registry of manifests, each with its path. -/
def ofManifests (profile : Profile) (cms : Cms) (sources : List (String × Manifest)) : Registry :=
  sources.foldl (fun r s => r.merge s.1 s.2) (empty profile cms)

/-! Components. -/

/-- The key under which a component is found: the name itself, or what a namespaced name
    stands for. -/
def resolve? (r : Registry) (name : String) : Option String :=
  if (Table.lookup name r.components).isSome then some name
  else do
    let (ns, own) ← Text.splitOnce ':' name.toList
    let nsPrefix ← Table.lookup (String.ofList ns) r.namespaces
    let key := nsPrefix ++ String.ofList own
    if (Table.lookup key r.components).isSome then some key else none

def component? (r : Registry) (name : String) : Option Component :=
  (r.resolve? name).bind fun key => Table.lookup key r.components

/-- Sorts by name; what has the same name stays in its order. -/
def sortByName (name : α → String) (xs : List α) : List α :=
  xs.mergeSort fun a b => !decide (name b < name a)

/-- All components in the order of their names. -/
def componentList (r : Registry) : List Component :=
  sortByName Component.name (r.components.map (·.2))

def componentsOfNamespace (r : Registry) (ns : String) : List Component :=
  r.componentList.filter (·.origin == some ns)

def componentsOfCategory (r : Registry) (category : String) : List Component :=
  r.componentList.filter (·.category == category)

/-- The components for a platform and of a category, where these are given. -/
def availableComponents (r : Registry) (platform category : Option String) : List Component :=
  r.componentList.filter fun c =>
    c.platforms.allowsTarget platform && category.all (c.category == ·)

/-! Filters. -/

def filter? (r : Registry) (name : String) : Option FilterSpec := Table.lookup name r.filters

/-- All filters in the order of their names. -/
def filterList (r : Registry) : List FilterSpec :=
  sortByName FilterSpec.name (r.filters.map (·.2))

/-- The filters for a platform, where one is given. -/
def availableFilters (r : Registry) (platform : Option String) : List FilterSpec :=
  r.filterList.filter (·.platforms.allowsTarget platform)

/-- Whether the output of a filter can stand in markup as it is. -/
def isEscaping (r : Registry) (name : String) : Bool := (r.filter? name).any (·.escaping)

/-- Runs a filter. One that is unknown or has no built-in implementation changes nothing. -/
def applyFilter (r : Registry) (name : String) (v : Value) (args : List FilterArgument) : Value :=
  match (r.filter? name).bind fun f => Builtin.ofName? f.implementationName with
  | some f => f.apply v args
  | none => v

/-! Platforms, manifests and handlers. -/

def platform? (r : Registry) (id : String) : Option Platform := Table.lookup id r.platforms

def platformList (r : Registry) : List Platform := r.platforms.map (·.2)

def platformsOfKind (r : Registry) (kind : PlatformKind) : List Platform :=
  r.platformList.filter (·.kind == kind)

def manifestInfo? (r : Registry) (path : String) : Option ManifestInfo :=
  r.manifests.find? (·.path == path)

def dispatch (r : Registry) : Dispatch := Dispatch.ofComponents (r.components.map (·.2))

/-- The handler of a tag, which may be written with a namespace. -/
def handler (r : Registry) (tag : String) : String :=
  r.dispatch.handler ((r.resolve? tag).getD tag)

end Registry
end BraceTemplate
