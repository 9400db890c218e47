import BraceTemplate.Document
import BraceTemplate.Registry
import BraceTemplate.Schema.Check

/- Tags as uses of components: the component is available, its required props are given, a
   leaf has no content, and the values that are written fit their schemas. A tag that names
   no component is worth a warning, because a renderer may know more tags; attributes that
   are not declared are allowed. -/
namespace BraceTemplate

variable [Formats]

namespace Component

def checkPlatform (c : Component) (t : Tag) : Option String → List Diagnostic
  | none => []
  | some platform =>
    if c.platforms.allows platform then []
    else
      [Diagnostic.error .componentPlatformIncompatible
        ("Component '" ++ t.name ++ "' is not available on platform '" ++ platform ++ "'")]

/-- Whether a tag gives a prop; null is as good as nothing. -/
def gives (t : Tag) (prop : String) : Bool := (t.attr? prop).any (!·.isNull)

def checkRequired (c : Component) (t : Tag) : List Diagnostic :=
  (c.requiredProps.filter (!gives t ·)).map fun prop =>
    Diagnostic.error .missingRequiredProp
      ("Component '" ++ t.name ++ "' is missing required prop '" ++ prop ++ "'")

def checkContent (c : Component) (t : Tag) (content : List Node) : List Diagnostic :=
  if c.leaf && !content.isEmpty then
    [Diagnostic.error .leafComponentChildren
      ("Component '" ++ t.name ++ "' is a leaf component and cannot have children")]
  else []

/-- A finding about a value as a finding about a prop. That a value is missing is reported
    with the component. -/
def propFinding? (d : Diagnostic) : Option Diagnostic :=
  if d.code = Code.requiredValueMissing.name then none
  else if d.code = Code.typeMismatch.name then some { d with code := Code.invalidPropType.name }
  else some d

/-- The findings about an attribute; one that is not declared, or whose value is not known
    before rendering, has none. -/
def checkAttr (c : Component) (t : Tag) (a : String × AttrValue) : List Diagnostic :=
  match c.prop? a.1, a.2.toJson? with
  | some s, some v =>
    ((s.check ("attribute '" ++ a.1 ++ "' of '" ++ t.name ++ "'") (some v)).filterMap
      propFinding?).map (·.withNode "attribute" a.1)
  | _, _ => []

/-- The findings about a tag that uses the component. -/
def check (c : Component) (platform : Option String) (t : Tag) (content : List Node) :
    List Diagnostic :=
  (c.checkPlatform t platform ++ c.checkRequired t ++ c.checkContent t content).map
      (·.withNode "tag" t.name) ++
    t.attrs.flatMap (c.checkAttr t)

end Component

/-- The findings about a tag and its content. -/
def Tag.checkUse (r : Registry) (platform : Option String) (t : Tag) (content : List Node) :
    List Diagnostic :=
  let findings :=
    match r.component? t.name with
    | none =>
      [(Diagnostic.warning .unknownComponent ("Unknown component: " ++ t.name)).withNode
        "tag" t.name]
    | some c => c.check platform t content
  findings.map (·.located t.pos)

/-- The findings about a node as a use of a component. -/
def Node.checkUse (r : Registry) (platform : Option String) : Node → List Diagnostic
  | .tag t content => t.checkUse r platform content
  | _ => []

end BraceTemplate
