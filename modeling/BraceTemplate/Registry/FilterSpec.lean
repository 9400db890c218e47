import BraceTemplate.Registry.Platform
import BraceTemplate.Schema

/- Declarations of filters: their parameters, whether their output is safe in markup, and
   which built-in filter does the work. -/
namespace BraceTemplate

open Json

structure Parameter where
  name : String
  typeExpr : String
  required : Bool
  fallback : Option Value
  description : Option String
  deriving Repr, Inhabited

namespace Parameter

def ofTree? (t : Tree) : Option Parameter := do
  match ← t.record? [["name"], ["type"], ["required"], ["default"], ["description"]] with
  | [name, type, required, fallback, description] =>
    return {
      name := ← Tree.needed Tree.string? name
      typeExpr := ← Tree.orElse Tree.string? Schema.anyType type
      required := ← Tree.orElse Tree.bool? false required
      fallback := ← Tree.maybe Tree.value? fallback
      description := ← Tree.maybe Tree.string? description }
  | _ => none

def toJson (p : Parameter) : Value :=
  Value.ofFields
    [("name", some (.string p.name)), ("type", some (.string p.typeExpr)),
     ("required", some (.bool p.required)), ("default", p.fallback),
     ("description", p.description.map .string)]

end Parameter

structure FilterSpec where
  name : String
  params : List Parameter
  platforms : PlatformSet
  returnType : String
  /-- The output can stand in markup as it is. -/
  escaping : Bool
  /-- The built-in filter that does the work; without one the name serves. -/
  implementation : Option String
  description : String
  deriving Repr, Inhabited

namespace FilterSpec

/-- A filter without parameters. -/
def plain (name : String) : FilterSpec := ⟨name, [], .all, Schema.anyType, false, none, ""⟩

def requiredParams (f : FilterSpec) : List Parameter := f.params.filter (·.required)

def implementationName (f : FilterSpec) : String := f.implementation.getD f.name

def ofTree? (t : Tree) : Option FilterSpec := do
  match ← t.record? [["name"], ["params"], ["platforms"], ["returnType"], ["escaping"],
      ["implementation"], ["description"]] with
  | [name, params, platforms, returnType, escaping, implementation, description] =>
    return {
      name := ← Tree.orElse Tree.string? "" name
      params := ← Tree.orElse (Tree.list? Parameter.ofTree?) [] params
      platforms := ← Tree.orElse PlatformSet.ofTree? .all platforms
      returnType := ← Tree.orElse Tree.string? Schema.anyType returnType
      escaping := ← Tree.orElse Tree.bool? false escaping
      implementation := ← Tree.maybe Tree.string? implementation
      description := ← Tree.orElse Tree.string? "" description }
  | _ => none

def toJson (f : FilterSpec) : Value :=
  Value.ofFields
    [("name", some (.string f.name)), ("params", some (.array (f.params.map Parameter.toJson))),
     ("platforms", f.platforms.toJson?), ("returnType", some (.string f.returnType)),
     ("escaping", some (.bool f.escaping)), ("implementation", f.implementation.map .string),
     ("description", some (.string f.description))]

end FilterSpec
end BraceTemplate
