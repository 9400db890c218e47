import BraceTemplate.Diagnostic
import BraceTemplate.Document

/- Names of tags and attributes. They end up in the code that renders a template, so they
   are words of ASCII, and the words that such code uses itself are reserved. -/
namespace BraceTemplate
namespace Name

/-- The words that cannot be names. -/
def reserved : List String :=
  ["if", "else", "elseif", "endif", "for", "foreach", "endfor", "while", "endwhile", "break",
   "continue", "return", "function", "import", "include", "extends", "macro", "yield", "this",
   "self"]

def isReserved (name : String) : Bool := reserved.contains name

def isStart (c : Char) : Bool := c.isAlpha || c = '_'

def isPart (c : Char) : Bool := c.isAlphanum || c = '_' || c = '-'

/-- A word that starts with a letter or an underscore. -/
def isWord : List Char → Bool
  | [] => false
  | c :: rest => isStart c && rest.all isPart

def isAttribute (name : String) : Bool := isWord name.toList

/-- A tag name is a word, or two with a colon between a namespace and the name in it. -/
def isTag (name : String) : Bool :=
  match Text.splitOn ':' name.toList with
  | [own] => isWord own
  | [ns, own] => isWord ns && isWord own
  | _ => false

/-- What stands behind the last colon. -/
def ownPart (name : String) : String :=
  String.ofList ((Text.splitOn ':' name.toList).getLastD [])

end Name

/-- The finding about the name of a tag, if there is one. -/
def Tag.checkName (t : Tag) : List Diagnostic :=
  if !Name.isTag t.name then
    [Diagnostic.error .invalidTagName ("Invalid tag name '" ++ t.name ++ "'")]
  else if Name.isReserved (Name.ownPart t.name) then
    [Diagnostic.error .reservedWord
      ("'" ++ Name.ownPart t.name ++ "' is a reserved word and cannot be used as a tag name")]
  else []

/-- The finding about the name of an attribute, if there is one. -/
def Tag.checkAttrName (t : Tag) (name : String) : List Diagnostic :=
  if !Name.isAttribute name then
    [Diagnostic.error .invalidAttributeName
      ("Invalid attribute name '" ++ name ++ "' on '" ++ t.name ++ "'")]
  else if Name.isReserved name then
    [Diagnostic.error .reservedWord
      ("'" ++ name ++ "' is a reserved word and cannot be used as an attribute name")]
  else []

/-- The findings about the names that a tag uses. -/
def Tag.checkNames (t : Tag) : List Diagnostic :=
  (t.checkName.map (·.withNode "tag" t.name) ++
    t.attrs.flatMap fun a => (t.checkAttrName a.1).map (·.withNode "attribute" a.1)).map
      (·.located t.pos)

/-- The findings about the names of all tags of a document. -/
def Document.checkNames (d : Document) : List Diagnostic := d.tags.flatMap Tag.checkNames

/-- The findings about a tree: its root is a document, and all names are good. -/
def Node.checkStructure : Node → List Diagnostic
  | .document p cs => Document.checkNames ⟨p, cs⟩
  | n =>
    ((Diagnostic.error .invalidRoot
      ("Template root must be a document, found " ++ n.kindName)).located n.pos) ::
      (n.walk.filterMap Node.tag?).flatMap Tag.checkNames

end BraceTemplate
