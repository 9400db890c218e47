import BraceTemplate.Registry
import BraceTemplate.Text.Quoted
import BraceTemplate.Token

/- The lines in which the program lists tokens, components, filters and manifests. -/
namespace BraceTemplate

def padded (width : Nat) (text : String) : String :=
  String.ofList (Text.padRight width text.toList)

/-- A token with its place and its kind; texts and comments are shown in quotes. -/
def Token.line (t : Token) : String :=
  let payload :=
    match t.kind with
    | .text | .comment => String.ofList (Text.quoted t.text.toList)
    | _ => t.describe
  String.ofList (Text.padLeft 4 (toString t.pos.line).toList) ++ ":" ++
    padded 4 (toString t.pos.column) ++ " " ++ padded 14 t.kind.describe ++ " " ++ payload

/-- A component with the types of its props; required props have a star. -/
def Component.line (c : Component) : String :=
  let props := c.props.map fun p =>
    p.1 ++ (if p.2.required then "*: " else ": ") ++ p.2.typeExpr
  padded 20 c.name ++ " " ++ padded 10 c.category ++ " " ++ c.description ++
    (if c.leaf then " (leaf)" else "") ++ "  [" ++ ", ".intercalate props ++ "]"

/-- A filter with the names of its parameters. -/
def FilterSpec.line (f : FilterSpec) : String :=
  padded 14 f.name ++ " (" ++ ", ".intercalate (f.params.map (·.name)) ++ ") -> " ++
    f.returnType ++ (if f.escaping then " (escaping)" else "")

/-- A manifest with the numbers of its declarations. -/
def ManifestInfo.line (i : ManifestInfo) : String :=
  i.path ++ " (" ++ i.name ++ ", schema " ++ i.schemaVersion ++ "): " ++
    toString i.components.length ++ " components, " ++ toString i.filters.length ++ " filters"

end BraceTemplate
