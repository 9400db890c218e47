import BraceTemplate.Diagnostic
import BraceTemplate.Document
import BraceTemplate.Expression

/- Escaping: what an interpolation puts out must have passed an escaping filter. The security
   mode says whether a breach is an error or a warning. -/
namespace BraceTemplate

inductive SecurityMode where
  | strict
  | lenient
  deriving DecidableEq, Repr

namespace SecurityMode

def all : List SecurityMode := [.strict, .lenient]

def name : SecurityMode → String
  | .strict => "strict"
  | .lenient => "lenient"

/-- The severity of output that is not escaped. -/
def severity : SecurityMode → Severity
  | .strict => .error
  | .lenient => .warning

def ofName? (name : String) : Option SecurityMode := all.find? (·.name = name)

def read (name : String) : Except String SecurityMode :=
  match ofName? name with
  | some m => .ok m
  | none => .error ("unknown security mode '" ++ name ++ "' (expected strict or lenient)")

def ofTree? : Json.Tree → Option SecurityMode := Json.Tree.word? (all.map fun m => (m.name, m))

end SecurityMode

/-- The finding about an expression without an escaping filter. -/
def Expression.checkEscaping (isEscaping : String → Bool) (mode : SecurityMode) (raw : String)
    (e : Expression) : List Diagnostic :=
  if e.escapes isEscaping then []
  else
    [Diagnostic.plain mode.severity Code.missingEscaping.name
      ("Expression '" ++ raw ++
        "' is output without an escaping filter (add | escape or another escaping filter)")]

/-- The interpolations that an attribute holds. -/
def AttrValue.sites : AttrValue → List Interpolation
  | .interpolation i => [i]
  | _ => []

/-- The interpolations of a node itself. -/
def Node.sites : Node → List Interpolation
  | .interpolation i => [i]
  | .tag t _ => t.attrs.flatMap fun a => a.2.sites
  | _ => []

/-- The interpolations of a document in the order of its nodes and their attributes. -/
def Document.sites (d : Document) : List Interpolation := d.nodes.flatMap Node.sites

end BraceTemplate
