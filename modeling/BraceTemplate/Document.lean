import BraceTemplate.Double.Shortest
import BraceTemplate.Json.Writer
import BraceTemplate.Position
import BraceTemplate.Text.Integer

/- Documents: trees of tags, texts, comments and interpolations, each with the position at
   which it is written. Headers and the tags that were never closed are kept beside the
   tree. -/
namespace BraceTemplate

/-- An interpolation: its canonical spelling and where it starts. -/
structure Interpolation where
  raw : String
  pos : Position
  deriving DecidableEq, Repr, Inhabited

/-- The value of an attribute. -/
inductive AttrValue where
  | str (value : String)
  | int (value : Int)
  | float (value : Double)
  | bool (value : Bool)
  | null
  | interpolation (site : Interpolation)
  deriving DecidableEq, Repr, Inhabited

namespace AttrValue

open Json

def isInterpolation : AttrValue → Bool
  | .interpolation _ => true
  | _ => false

def isNull : AttrValue → Bool
  | .null => true
  | _ => false

/-- The value as data; an interpolation has none before it is rendered. -/
def toJson? : AttrValue → Option Value
  | .str s => some (.string s)
  | .int n => some (.int n)
  | .float x => some (Value.ofDouble x)
  | .bool b => some (.bool b)
  | .null => some .null
  | .interpolation _ => none

/-- The attribute that stands for data. Integers beyond 63 bits become floats, and arrays
    and objects are kept as their text. -/
def ofJson : Value → AttrValue
  | .null => .null
  | .bool b => .bool b
  | .int n => if Text.isInt64 n then .int n else .float (Double.ofInt n)
  | .float x => .float x
  | .string s => .str s
  | other => .str other.text

/-- The value as a reader of plain text sees it. -/
def plainText : AttrValue → String
  | .str s => s
  | .int n => toString n
  | .float x => x.fractionText
  | .bool b => toString b
  | .null => "null"
  | .interpolation site => site.raw

end AttrValue

/-- A tag without its content. Attributes keep the order in which their names first occur. -/
structure Tag where
  name : String
  attrs : List (String × AttrValue)
  selfClosing : Bool
  pos : Position
  deriving DecidableEq, Repr, Inhabited

namespace Tag

def attr? (t : Tag) (name : String) : Option AttrValue := Table.lookup name t.attrs

end Tag

/-- The declaration of the content management system a template is written for. -/
structure CmsHeader where
  cmsType : Option String
  set : List String
  pos : Position
  deriving DecidableEq, Repr, Inhabited

/-- The declaration of the platforms a template is written for. -/
structure PlatformHeader where
  platformType : Option String
  targets : List String
  version : Option String
  pos : Position
  deriving DecidableEq, Repr, Inhabited

structure UnclosedTag where
  name : String
  pos : Position
  deriving DecidableEq, Repr, Inhabited

/-- What a document declares beside its content. -/
structure Preamble where
  cms : Option CmsHeader
  platform : Option PlatformHeader
  unclosed : List UnclosedTag
  deriving DecidableEq, Repr, Inhabited

inductive Node where
  | document (preamble : Preamble) (children : List Node)
  | tag (tag : Tag) (children : List Node)
  | text (value : String) (pos : Position)
  | comment (value : String) (pos : Position)
  | interpolation (site : Interpolation)
  deriving Repr, Inhabited

structure Document where
  preamble : Preamble
  children : List Node
  deriving Repr, Inhabited

namespace Node

def pos : Node → Position
  | .document _ _ => Position.start
  | .tag t _ => t.pos
  | .text _ p => p
  | .comment _ p => p
  | .interpolation site => site.pos

def kindName : Node → String
  | .document _ _ => "document"
  | .tag _ _ => "tag"
  | .text _ _ => "text"
  | .comment _ _ => "comment"
  | .interpolation _ => "expression"

def children : Node → List Node
  | .document _ cs => cs
  | .tag _ cs => cs
  | _ => []

mutual
/-- The node and all nodes below it, each before its children. -/
def walk : Node → List Node
  | .document p cs => .document p cs :: walkAll cs
  | .tag t cs => .tag t cs :: walkAll cs
  | .text v p => [.text v p]
  | .comment v p => [.comment v p]
  | .interpolation s => [.interpolation s]

def walkAll : List Node → List Node
  | [] => []
  | n :: rest => walk n ++ walkAll rest
end

mutual
/-- The nodes of `walk`, each with its depth. -/
def walkWithDepth (depth : Nat) : Node → List (Nat × Node)
  | .document p cs => (depth, .document p cs) :: walkAllWithDepth (depth + 1) cs
  | .tag t cs => (depth, .tag t cs) :: walkAllWithDepth (depth + 1) cs
  | .text v p => [(depth, .text v p)]
  | .comment v p => [(depth, .comment v p)]
  | .interpolation s => [(depth, .interpolation s)]

def walkAllWithDepth (depth : Nat) : List Node → List (Nat × Node)
  | [] => []
  | n :: rest => walkWithDepth depth n ++ walkAllWithDepth depth rest
end

def tag? : Node → Option Tag
  | .tag t _ => some t
  | _ => none

end Node

namespace Document

/-- All nodes below the root, each before its children. -/
def nodes (d : Document) : List Node := Node.walkAll d.children

def nodeCount (d : Document) : Nat := d.nodes.length

/-- All tags in the order of their positions. -/
def tags (d : Document) : List Tag := d.nodes.filterMap Node.tag?

def isFullyClosed (d : Document) : Bool := d.preamble.unclosed.isEmpty

end Document
end BraceTemplate
