import BraceTemplate.Checker
import BraceTemplate.Registry.Export

/- All that a checker can be asked, as data: checks in two forms, readings, values, what a
   registry offers, and the changes of the mode, of the target platform and of what is
   remembered. A run performs operations one after the other on one checker. -/
namespace BraceTemplate
namespace Checker

open Json

variable [Formats]

/-- What can be checked. -/
inductive Check where
  | value (value : Option Value) (schema : Schema)
  | chain (calls : List FilterCall)
  | site (site : Interpolation)
  | component (tag : Tag) (content : List Node)
  | tree (root : Node)
  | cmsHeader (header : CmsHeader)
  | platformHeader (header : PlatformHeader)
  | security (document : Document)
  | document (document : Document)

inductive Operation where
  /-- A check that collects all findings. -/
  | collect (check : Check)
  /-- A check that fails with the first error. -/
  | refuse (check : Check)
  | read (text : String)
  | path (text : String)
  | accepts (value : Value) (typeExpr : String)
  | normalize (value : Option Value) (schema : Schema)
  | components (platform category : Option String)
  | filters (platform : Option String)
  | describe
  | setMode (mode : SecurityMode)
  | setPlatform (platform : Option String)
  | forget

inductive Answer where
  | done
  | findings (findings : List Diagnostic)
  | refusal (error : Option Diagnostic)
  | expression (result : Except ExpressionError KnownExpression)
  | path (result : Except ExpressionError (List PathSegment))
  | truth (value : Bool)
  | value (result : Except Diagnostic Value)
  | components (components : List Component)
  | filters (filters : List FilterSpec)

/-- The findings of a check. -/
def inspect (c : Checker) : Check → List Diagnostic × Checker
  | .value v s => (s.checkValue v, c)
  | .chain calls => (calls.flatMap (FilterCall.check c.rules.registry c.rules.platform), c)
  | .site i => c.checkSite i
  | .component t content => (t.checkUse c.rules.registry c.rules.platform content, c)
  | .tree root => (root.checkStructure, c)
  | .cmsHeader h => (h.check, c)
  | .platformHeader h => (h.check c.rules.registry, c)
  | .security d => c.checkSecurity d
  | .document d => c.checkDocument d

def perform (c : Checker) : Operation → Answer × Checker
  | .collect check =>
    let (ds, c) := c.inspect check
    (.findings ds, c)
  | .refuse check =>
    let (ds, c) := c.inspect check
    (.refusal (Findings.firstError ds), c)
  | .read text =>
    let (result, c) := c.recallText text
    (.expression result, c)
  | .path text => (.path (Expression.readPath text), c)
  | .accepts v typeExpr => (.truth (TypeExpr.accepts typeExpr v), c)
  | .normalize v s => (.value (s.normalize v), c)
  | .components platform category =>
    (.components (c.rules.registry.availableComponents platform category), c)
  | .filters platform => (.filters (c.rules.registry.availableFilters platform), c)
  | .describe => (.value (.ok c.rules.registry.schemaJson), c)
  | .setMode mode => (.done, c.setMode mode)
  | .setPlatform platform => (.done, c.setPlatform platform)
  | .forget => (.done, c.forget)

/-- Performs operations one after the other; their answers come in the same order. -/
def run (c : Checker) : List Operation → List Answer × Checker
  | [] => ([], c)
  | op :: rest =>
    let (answer, c) := c.perform op
    let (answers, c) := c.run rest
    (answer :: answers, c)

end Checker
end BraceTemplate
