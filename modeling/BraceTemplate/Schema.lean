import BraceTemplate.Json.Writer
import BraceTemplate.Json.Record

/- Schemas of component props: a type expression and constraints. A schema is read from a
   record of a manifest, and written as the same record without what is absent. -/
namespace BraceTemplate

open Json

structure Schema where
  typeExpr : String
  required : Bool
  minLength : Option Nat
  maxLength : Option Nat
  choices : Option (List Value)
  pattern : Option String
  fallback : Option Value
  description : Option String
  deriving Repr, Inhabited

namespace Schema

/-- The type that is declared when none is written. -/
def anyType : String := "any"

/-- An optional prop of a type, without other constraints. -/
def ofType (typeExpr : String) : Schema :=
  ⟨typeExpr, false, none, none, none, none, none, none⟩

def ofTree? (t : Tree) : Option Schema := do
  match ← t.record? [["type"], ["required"], ["minLength"], ["maxLength"], ["enum"], ["pattern"],
      ["default"], ["description"]] with
  | [type, required, least, most, choices, pattern, fallback, description] =>
    return {
      typeExpr := ← Tree.orElse Tree.string? anyType type
      required := ← Tree.orElse Tree.bool? false required
      minLength := ← Tree.maybe Tree.count? least
      maxLength := ← Tree.maybe Tree.count? most
      choices := ← Tree.maybe (Tree.list? Tree.value?) choices
      pattern := ← Tree.maybe Tree.string? pattern
      fallback := ← Tree.maybe Tree.value? fallback
      description := ← Tree.maybe Tree.string? description }
  | _ => none

def toJson (s : Schema) : Value :=
  Value.ofFields
    [("type", some (.string s.typeExpr)), ("required", some (.bool s.required)),
     ("minLength", s.minLength.map Value.ofNat), ("maxLength", s.maxLength.map Value.ofNat),
     ("enum", s.choices.map .array), ("pattern", s.pattern.map .string), ("default", s.fallback),
     ("description", s.description.map .string)]

end Schema
end BraceTemplate
