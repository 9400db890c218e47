import BraceTemplate.Registry.Platform
import BraceTemplate.Schema

/- Components: the tags that a template may use, with the schemas of their props. -/
namespace BraceTemplate

open Json

structure Component where
  name : String
  /-- The namespace that declares the component; not part of its name. -/
  origin : Option String
  category : String
  /-- A leaf has no content. -/
  leaf : Bool
  props : List (String × Schema)
  /-- A prop is declared once. -/
  distinct : Table.Distinct props := by decide
  tags : List String
  description : String
  platforms : PlatformSet
  /-- The handler that renders the component; without one its name serves. -/
  handler : Option String
  deriving Repr

namespace Component

/-- A component without props, content allowed, on all platforms. -/
def plain (name category : String) : Component :=
  ⟨name, none, category, false, [], Table.distinct_nil, [], "", .all, none⟩

/-- The component with a further prop, or with another schema for a prop. -/
def withProp (c : Component) (name : String) (s : Schema) : Component :=
  { c with props := Table.insert c.props name s, distinct := c.distinct.insert name s }

def prop? (c : Component) (name : String) : Option Schema := Table.lookup name c.props

/-- The names of the props that must be given. -/
def requiredProps (c : Component) : List String :=
  (c.props.filter (·.2.required)).map (·.1)

def handlerName (c : Component) : String := c.handler.getD c.name

/-- Reads a component, whose name may be left to its key in the manifest. -/
def ofTree? (t : Tree) : Option Component := do
  match ← t.record? [["name"], ["namespace"], ["category"], ["leaf", "is_leaf"], ["props"],
      ["tags"], ["description"], ["platforms"], ["handler"]] with
  | [name, origin, category, leaf, props, tags, description, platforms, handler] =>
    let ⟨props, distinct⟩ ← Tree.tableOrNone Schema.ofTree? props
    return {
      props, distinct
      name := ← Tree.orElse Tree.string? "" name
      origin := ← Tree.maybe Tree.string? origin
      category := ← Tree.orElse Tree.string? "" category
      leaf := ← Tree.orElse Tree.bool? false leaf
      tags := ← Tree.orElse (Tree.list? Tree.string?) [] tags
      description := ← Tree.orElse Tree.string? "" description
      platforms := ← Tree.orElse PlatformSet.ofTree? .all platforms
      handler := ← Tree.maybe Tree.string? handler }
  | _ => none

def toJson (c : Component) : Value :=
  Value.ofFields
    [("name", some (.string c.name)), ("namespace", c.origin.map .string),
     ("category", some (.string c.category)), ("leaf", some (.bool c.leaf)),
     ("props", some (.object (c.props.map fun p => (p.1, p.2.toJson)))),
     ("tags", some (Value.ofStrings c.tags)),
     ("description", some (.string c.description)), ("platforms", c.platforms.toJson?),
     ("handler", c.handler.map .string)]

end Component
end BraceTemplate
