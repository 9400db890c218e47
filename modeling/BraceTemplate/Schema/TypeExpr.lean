import BraceTemplate.Formats
import BraceTemplate.Json.Reader
import BraceTemplate.Json.Writer
import BraceTemplate.Text.Integer
import BraceTemplate.Text.Trim

/- Type expressions: the name of a type, or several between bars. Scalars may be spelled as
   texts, so that a value written between quotes is valid whenever the bare one is; coercion
   turns such a text into the value it spells. -/
namespace BraceTemplate
namespace TypeExpr

open Json

variable [Formats]

def primitiveTypes : List String :=
  ["string", "number", "integer", "float", "boolean", "null", "array", "object", "any"]

def extendedTypes : List String := ["url", "email", "color", "date", "json"]

def isKnown (name : String) : Bool := primitiveTypes.contains name || extendedTypes.contains name

/-- The type names between the bars. -/
def branches (expr : String) : List String :=
  (Text.splitOn '|' expr.toList).map fun b => String.ofList (Text.trim b)

/-- The branches that name no known type. -/
def unknown (expr : String) : List String := (branches expr).filter (!isKnown ·)

/-! Texts that spell values. -/

/-- A finite number; words for infinity and the like are words. -/
def float? (text : String) : Option Double :=
  let cs := Text.trim text.toList
  if cs.isEmpty || cs.any (fun c => c.isAlpha && c != 'e' && c != 'E') then none
  else
    match Double.read? cs with
    | some x => if x.isFinite then some x else none
    | none => none

def integer? (text : String) : Option Int := Text.int64? (Text.trim text.toList)

/-- An absolute address, or one that starts as a relative address does. -/
def isUrl (text : String) : Bool :=
  match Formats.address text.toList with
  | .absolute _ _ => true
  | .relative =>
    [['/'], ['.', '/'], ['.', '.', '/'], ['#'], ['?']].any (·.isPrefixOf text.toList)
  | .invalid => false

/-- One at sign with something before it, and a point inside what is behind it. -/
def isEmail (text : String) : Bool :=
  let cs := text.toList
  match Text.splitOnce '@' cs with
  | none => false
  | some (name, domain) =>
    !cs.any Text.isWhitespace && !domain.contains '@' && !name.isEmpty &&
      (domain.drop 1).dropLast.contains '.'

def isHexDigit (c : Char) : Bool := (Text.hexValue? c).isSome

/-- A hash sign and three, four, six or eight hexadecimal digits. -/
def isHexColor (text : List Char) : Bool :=
  match text with
  | '#' :: ds => ds.all isHexDigit && [3, 4, 6, 8].contains ds.length
  | _ => false

def isColorArgument (c : Char) : Bool :=
  c.isDigit || Text.isWhitespace c || c = '.' || c = '%' || c = ',' || c = '/' || c = '+' || c = '-'

/-- A color function and its arguments in parentheses. -/
def isColorCall (text : List Char) : Bool :=
  match Text.splitOnce '(' text with
  | none => false
  | some (name, inside) =>
    ["rgb", "rgba", "hsl", "hsla"].contains (String.ofList name) &&
      inside.getLast? == some ')' && inside.length > 1 && inside.dropLast.all isColorArgument

/-- A color in hexadecimal or by function, or any plain word. -/
def isColor (text : String) : Bool :=
  let cs := Text.trim text.toList
  isHexColor cs || isColorCall cs || (!cs.isEmpty && cs.length ≤ 32 && cs.all Char.isAlpha)

/-- Four, two and two digits between dashes that name a day. -/
def isDate (text : String) : Bool :=
  match text.toList with
  | [a, b, c, d, '-', e, f, '-', g, h] =>
    [a, b, c, d, e, f, g, h].all Char.isDigit && (Formats.day? text.toList).isSome
  | _ => false

/-! Checking. -/

/-- A text or value that a type of one name accepts. -/
def matchesName (v : Value) (name : String) : Bool :=
  match name, v with
  | "any", _ => true
  | "null", .null => true
  | "string", .string _ => true
  | "number", .int _ => true
  | "number", .float _ => true
  | "number", .string s => (float? s).isSome
  | "float", .int _ => true
  | "float", .float _ => true
  | "float", .string s => (float? s).isSome
  | "integer", .int _ => true
  | "integer", .float x => x.integer?.isSome
  | "integer", .string s => (integer? s).isSome
  | "boolean", .bool _ => true
  | "boolean", .string s => s == "true" || s == "false"
  | "array", .array _ => true
  | "object", .object _ => true
  | "url", .string s => isUrl s
  | "email", .string s => isEmail s
  | "color", .string s => isColor s
  | "date", .string s => isDate s
  | "json", .string s => (Value.read? s).isSome
  | "json", .array _ => true
  | "json", .object _ => true
  | _, _ => false

/-- A value is valid when one of the branches accepts it. -/
def accepts (expr : String) (v : Value) : Bool := (branches expr).any (matchesName v)

/-- A value that already has the representation of a type. -/
def hasForm (v : Value) (name : String) : Bool :=
  match name, v with
  | "number", .int _ => true
  | "number", .float _ => true
  | "number", _ => false
  | "float", .float _ => true
  | "float", _ => false
  | "integer", .int _ => true
  | "integer", _ => false
  | "boolean", .bool _ => true
  | "boolean", _ => false
  | name, v => matchesName v name

/-- The value that a scalar becomes as a value of a type. -/
def convert? (v : Value) (name : String) : Option Value :=
  match name, v with
  | "string", .int n => some (.string (toString n))
  | "string", .float x => some (.string x.dataText)
  | "string", .bool b => some (.string (toString b))
  | "integer", .string s => (integer? s).map .int
  | "integer", .float x => x.integer?.map fun n => .int (Text.clampInt64 n)
  | "number", .string s =>
    match integer? s with
    | some n => some (.int n)
    | none => (float? s).map .float
  | "float", .string s => (float? s).map .float
  | "float", .int n => some (.float (Double.ofInt n))
  | "boolean", .string "true" => some (.bool true)
  | "boolean", .string "false" => some (.bool false)
  | _, _ => none

/-- The value in the representation that a type expression asks for. A value that has the
    form of some branch is kept; else the first branch that can convert it does. -/
def coerce (expr : String) (v : Value) : Value :=
  if (branches expr).any (hasForm v) then v
  else ((branches expr).findSome? (convert? v)).getD v

end TypeExpr
end BraceTemplate
