import BraceTemplate.Expression
import BraceTemplate.Registry
import BraceTemplate.Schema.TypeExpr

/- Filter chains: every filter is registered and available on the target platform, and its
   arguments fit its parameters. The value of a reference is not known before a template is
   rendered, so references fit every parameter. -/
namespace BraceTemplate

variable [Formats]

namespace FilterCall

/-- The arguments without a name, in their order. -/
def positional (c : FilterCall) : List CallArgument := c.arguments.filter (·.name.isNone)

/-- The argument for a parameter: the one of its name, or else the one at its place. -/
def bound? (c : FilterCall) (place : Nat) (name : String) : Option CallArgument :=
  (c.arguments.find? (·.name = some name)).or c.positional[place]?

/-- The arguments as a filter receives them at run time. -/
def runtimeArguments (c : FilterCall) : List FilterArgument :=
  c.arguments.map fun a => ⟨a.name, a.value⟩

/-- The finding about one parameter, if there is one. -/
def checkParameter (c : FilterCall) (spec : FilterSpec) (place : Nat) (p : Parameter) :
    List Diagnostic :=
  match c.bound? place p.name with
  | none =>
    if p.required then
      [Diagnostic.error .missingFilterParameter
        ("Filter '" ++ spec.name ++ "' requires parameter '" ++ p.name ++ "'")]
    else []
  | some a =>
    if a.reference || TypeExpr.accepts p.typeExpr a.value then []
    else
      [Diagnostic.error .invalidFilterArgument
        ("Parameter '" ++ p.name ++ "' of filter '" ++ spec.name ++ "' must be of type " ++
          p.typeExpr ++ ", got " ++ a.value.kindName)]

/-- Arguments that no parameter takes are worth a warning. -/
def checkSurplus (c : FilterCall) (spec : FilterSpec) : List Diagnostic :=
  (if spec.params.length < c.positionalCount then
    [Diagnostic.warning .tooManyFilterArguments
      ("Filter '" ++ spec.name ++ "' takes " ++ toString spec.params.length ++ " argument(s), " ++
        toString c.positionalCount ++ " given")]
  else []) ++
  c.arguments.filterMap fun a =>
    match a.name with
    | none => none
    | some name =>
      if spec.params.any (·.name == name) then none
      else
        some (Diagnostic.warning .invalidFilterArgument
          ("Filter '" ++ spec.name ++ "' has no parameter '" ++ name ++ "'"))

def checkArguments (c : FilterCall) (spec : FilterSpec) : List Diagnostic :=
  (spec.params.zipIdx.flatMap fun p => c.checkParameter spec p.2 p.1) ++ c.checkSurplus spec

/-- Whether the filter is there on the target platform. -/
def checkPlatform (c : FilterCall) (spec : FilterSpec) : Option String → List Diagnostic
  | none => []
  | some platform =>
    if spec.platforms.allows platform then []
    else
      [(Diagnostic.error .filterPlatformIncompatible
        ("Filter '" ++ c.name ++ "' is not available on platform '" ++ platform ++ "'")).withName
          c.name]

/-- The findings about one call. -/
def check (r : Registry) (platform : Option String) (c : FilterCall) : List Diagnostic :=
  match r.filter? c.name with
  | none => [(Diagnostic.error .unknownFilter ("Unknown filter: " ++ c.name)).withName c.name]
  | some spec => c.checkPlatform spec platform ++ c.checkArguments spec

end FilterCall

/-- The findings about the calls of an expression. -/
def Expression.checkCalls (r : Registry) (platform : Option String) (e : Expression) :
    List Diagnostic :=
  e.calls.flatMap (FilterCall.check r platform)

/-- What the filters of an expression make of a value, with the name of each filter. -/
def Expression.run (r : Registry) (e : Expression) (start : Json.Value) :
    List (String × Json.Value) :=
  go start e.calls
where
  go (v : Json.Value) : List FilterCall → List (String × Json.Value)
    | [] => []
    | c :: rest =>
      let next := r.applyFilter c.name v c.runtimeArguments
      (c.name, next) :: go next rest

end BraceTemplate
