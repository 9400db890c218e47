import BraceTemplate.Json.Value

/- JSON texts as written. A tree keeps repeated keys, and marks with `unusable` what is
   well-formed but has no value: a number out of range, a string with half of a surrogate
   pair, or a nesting deeper than the limit. A reader that skips a field never looks at
   such a mark; a reader that needs the field fails on it. -/
namespace BraceTemplate
namespace Json

inductive Tree where
  | null
  | bool (value : Bool)
  | int (value : Int)
  | float (value : Double)
  | string (value : String)
  | array (items : List Tree)
  | object (fields : List (String × Tree))
  | unusable
  deriving Inhabited, Repr

namespace Tree

mutual
/-- The value of a tree, unless a part of it is unusable. -/
def value? : Tree → Option Value
  | .null => some .null
  | .bool b => some (.bool b)
  | .int n => some (.int n)
  | .float x => some (.float x)
  | .string s => some (.string s)
  | .array items => (itemValues? items).map .array
  | .object fields => (fieldValues? fields).map fun fs => .object (Table.ofEntries fs)
  | .unusable => none

def itemValues? : List Tree → Option (List Value)
  | [] => some []
  | t :: rest =>
    match value? t, itemValues? rest with
    | some v, some vs => some (v :: vs)
    | _, _ => none

def fieldValues? : List (String × Tree) → Option (List (String × Value))
  | [] => some []
  | (k, t) :: rest =>
    match value? t, fieldValues? rest with
    | some v, some vs => some ((k, v) :: vs)
    | _, _ => none
end

mutual
/-- The tree of a value. -/
def ofValue : Value → Tree
  | .null => .null
  | .bool b => .bool b
  | .int n => .int n
  | .float x => .float x
  | .string s => .string s
  | .array items => .array (ofItems items)
  | .object fields => .object (ofFields fields)

def ofItems : List Value → List Tree
  | [] => []
  | v :: rest => ofValue v :: ofItems rest

def ofFields : List (String × Value) → List (String × Tree)
  | [] => []
  | (k, v) :: rest => (k, ofValue v) :: ofFields rest
end

end Tree
end Json
end BraceTemplate
