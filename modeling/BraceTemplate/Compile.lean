import BraceTemplate.Check
import BraceTemplate.Compile.Options
import BraceTemplate.Document.Failure
import BraceTemplate.Document.Json
import BraceTemplate.Registry.Catalog

/- Compilation. A document is checked, then every tag that names a component gets the values
   of its declared attributes normalised: missing ones take their defaults, and the others the
   form of their type. Findings never stop a compilation; only a source without a document
   does. -/
namespace BraceTemplate

open Json

variable [Formats]

/-- A document with the findings about it, by severity. -/
structure Compiled where
  document : Document
  errors : List Diagnostic
  warnings : List Diagnostic
  deriving Repr

namespace Compiled

/-- A document with errors must not be rendered. -/
def isRenderable (c : Compiled) : Bool := c.errors.isEmpty

/-- The errors and then the warnings. -/
def diagnostics (c : Compiled) : List Diagnostic := c.errors ++ c.warnings

end Compiled

/-! Normalising attributes. -/

/-- The attributes with the value of one prop normalised. What does not have the form of the
    type is left as it is written. -/
def Schema.normalizeAttr (attrs : List (String × AttrValue)) (prop : String × Schema) :
    List (String × AttrValue) :=
  let withDefault :=
    match prop.2.fallback with
    | some v => Table.insert attrs prop.1 (.ofJson v)
    | none => attrs
  match Table.lookup prop.1 attrs with
  | none => withDefault
  | some .null => withDefault
  | some a =>
    match a.toJson? with
    | none => attrs
    | some v =>
      let coerced := TypeExpr.coerce prop.2.typeExpr v
      if coerced.same v then attrs else Table.insert attrs prop.1 (.ofJson coerced)

/-- The attributes with all props normalised, in the order of their declaration. -/
def Component.normalizeAttrs (c : Component) (attrs : List (String × AttrValue)) :
    List (String × AttrValue) :=
  c.props.foldl Schema.normalizeAttr attrs

def Tag.normalize (r : Registry) (t : Tag) : Tag :=
  match r.component? t.name with
  | some c => { t with attrs := c.normalizeAttrs t.attrs }
  | none => t

namespace Node

mutual
/-- The node with all tags below it normalised. -/
def normalize (r : Registry) : Node → Node
  | .tag t content => .tag (t.normalize r) (normalizeAll r content)
  | .document p content => .document p content
  | .text v p => .text v p
  | .comment v p => .comment v p
  | .interpolation i => .interpolation i

def normalizeAll (r : Registry) : List Node → List Node
  | [] => []
  | n :: rest => normalize r n :: normalizeAll r rest
end

end Node

def Document.normalize (r : Registry) (d : Document) : Document :=
  { d with children := Node.normalizeAll r d.children }

/-! Compiling. -/

/-- Puts a document and the findings about it together. -/
def Document.compiledWith (r : Registry) (d : Document) (findings : List Diagnostic) : Compiled :=
  ⟨d.normalize r, Findings.errors findings, Findings.warnings findings⟩

namespace Rules

/-- Compiles a document. -/
def compileDocument (rules : Rules) (d : Document) : Compiled :=
  d.compiledWith rules.registry (rules.checkDocument d)

/-- Compiles a source text; the findings show the lines they point at. -/
def compile (rules : Rules) (source : String) : Except TemplateError Compiled :=
  (Document.parse source).map fun d =>
    d.compiledWith rules.registry (Findings.fillSnippets source (rules.checkDocument d))

end Rules

/-- The rules of options over a registry, whose own profile and system count. -/
def Options.rules (o : Options) (r : Registry) : Rules := ⟨r, o.mode, o.platform⟩

end BraceTemplate
