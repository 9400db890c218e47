import BraceTemplate.Registry
import BraceTemplate.Schema.TypeExpr

/- The description of all that a template may use, as one piece of data for editors. -/
namespace BraceTemplate

open Json

def Component.schemaJson (c : Component) : Value :=
  .object
    [("name", .string c.name), ("namespace", Value.ofOption (c.origin.map .string)),
     ("category", .string c.category), ("leaf", .bool c.leaf),
     ("description", .string c.description), ("platforms", c.platforms.toJson),
     ("props", .object (c.props.map fun p => (p.1, p.2.toJson)))]

def FilterSpec.schemaJson (f : FilterSpec) : Value :=
  .object
    [("name", .string f.name), ("params", .array (f.params.map Parameter.toJson)),
     ("returnType", .string f.returnType), ("escaping", .bool f.escaping),
     ("description", .string f.description), ("platforms", f.platforms.toJson)]

def Registry.schemaJson (r : Registry) : Value :=
  .object
    [("$schema", .string "http://json-schema.org/draft-07/schema#"),
     ("version", .string r.schemaVersion), ("profile", .string r.profile.name),
     ("cms", .string r.cms.name),
     ("components", .array (r.componentList.map Component.schemaJson)),
     ("filters", .array (r.filterList.map FilterSpec.schemaJson)),
     ("platforms", .array (r.platformList.map Platform.toJson)),
     ("namespaces", .object (r.namespaces.map fun n => (n.1, .string n.2))),
     ("types", .object
       [("primitive", Value.ofStrings TypeExpr.primitiveTypes),
        ("extended", Value.ofStrings TypeExpr.extendedTypes)])]

end BraceTemplate
