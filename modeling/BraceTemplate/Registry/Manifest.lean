import BraceTemplate.Json.Reader
import BraceTemplate.Registry.Component
import BraceTemplate.Registry.FilterSpec
import BraceTemplate.Registry.Profile

/- Manifests: JSON texts that declare components, filters, platforms, and the prefixes that
   namespaces stand for. -/
namespace BraceTemplate

open Json

structure Manifest where
  name : String
  schemaVersion : String
  /-- The namespace of the components that name none. -/
  origin : Option String
  namespaces : List (String × String)
  platforms : List Platform
  components : List (String × Component)
  filters : List (String × FilterSpec)
  deriving Repr, Inhabited

/-- What a registry remembers of a manifest. -/
structure ManifestInfo where
  path : String
  name : String
  schemaVersion : String
  components : List String
  filters : List String
  deriving DecidableEq, Repr

namespace Manifest

def ofTree? (t : Tree) : Option Manifest := do
  match ← t.record? [["name"], ["schemaVersion"], ["namespace"], ["namespaces"], ["platforms"],
      ["components"], ["filters"]] with
  | [name, schemaVersion, origin, namespaces, platforms, components, filters] =>
    return {
      name := ← Tree.needed Tree.string? name
      schemaVersion := ← Tree.orElse Tree.string? "1.0.0" schemaVersion
      origin := ← Tree.maybe Tree.string? origin
      namespaces := (← Tree.tableOrNone Tree.string? namespaces).val
      platforms := ← Tree.orElse (Tree.list? Platform.ofTree?) [] platforms
      components := (← Tree.tableOrNone Component.ofTree? components).val
      filters := (← Tree.tableOrNone FilterSpec.ofTree? filters).val }
  | _ => none

/-- A component without a name is called by its key, and one without a namespace is of the
    manifest's. -/
def fillComponent (origin : Option String) (key : String) (c : Component) : Component :=
  { c with name := if c.name.isEmpty then key else c.name, origin := c.origin.or origin }

/-- A filter without a name is called by its key. -/
def fillFilter (key : String) (f : FilterSpec) : FilterSpec :=
  { f with name := if f.name.isEmpty then key else f.name }

/-- Supplies what the declarations leave out. -/
def fill (m : Manifest) : Manifest :=
  { m with
    components := m.components.map fun c => (c.1, fillComponent m.origin c.1 c.2)
    filters := m.filters.map fun f => (f.1, fillFilter f.1 f.2) }

/-- Reads a manifest; the path only serves to name it. -/
def read (path text : String) : Except RegistryError Manifest :=
  match (Tree.read? text).bind ofTree? with
  | some m => .ok m.fill
  | none => .error (.invalidManifest path)

def info (path : String) (m : Manifest) : ManifestInfo :=
  ⟨path, m.name, m.schemaVersion, m.components.map (·.1), m.filters.map (·.1)⟩

end Manifest

def ManifestInfo.toJson (i : ManifestInfo) : Value :=
  .object
    [("path", .string i.path), ("name", .string i.name),
     ("schemaVersion", .string i.schemaVersion), ("components", Value.ofStrings i.components),
     ("filters", Value.ofStrings i.filters)]

end BraceTemplate
