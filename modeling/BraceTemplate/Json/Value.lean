import BraceTemplate.Double
import BraceTemplate.Table

/- JSON values. Integers and floats are different kinds of number, objects keep the order
   in which their keys were first written, and a key occurs once. -/
namespace BraceTemplate
namespace Json

inductive Value where
  | null
  | bool (value : Bool)
  | int (value : Int)
  | float (value : Double)
  | string (value : String)
  | array (items : List Value)
  | object (fields : List (String × Value))
  deriving Inhabited, Repr

namespace Value

mutual
/-- Equality of values: objects are compared without regard to order, an integer never
    equals a float, and floats compare as numbers. -/
def same : Value → Value → Bool
  | .null, .null => true
  | .bool a, .bool b => a == b
  | .int a, .int b => a == b
  | .float a, .float b => a.eq b
  | .string a, .string b => a == b
  | .array xs, .array ys => sameItems xs ys
  | .object xs, .object ys => xs.length == ys.length && sameFields xs ys
  | _, _ => false

def sameItems : List Value → List Value → Bool
  | [], [] => true
  | x :: xs, y :: ys => same x y && sameItems xs ys
  | _, _ => false

def sameFields : List (String × Value) → List (String × Value) → Bool
  | [], _ => true
  | (k, x) :: rest, ys =>
    (match Table.lookup k ys with
      | some y => same x y
      | none => false) && sameFields rest ys
end

/-- The name of the kind of a value. -/
def kindName : Value → String
  | .null => "null"
  | .bool _ => "boolean"
  | .int _ => "integer"
  | .float _ => "float"
  | .string _ => "string"
  | .array _ => "array"
  | .object _ => "object"

def isNull : Value → Bool
  | .null => true
  | _ => false

/-- A number that is not finite has no JSON spelling and becomes null. -/
def ofDouble (x : Double) : Value := if x.isFinite then .float x else .null

/-- An object of the fields that are present. -/
def ofFields (fields : List (String × Option Value)) : Value :=
  .object (fields.filterMap fun f => f.2.map (f.1, ·))

def ofStrings (items : List String) : Value := .array (items.map .string)

def ofNat (n : Nat) : Value := .int n

/-- A value or null. -/
def ofOption : Option Value → Value
  | some v => v
  | none => .null

end Value
end Json
end BraceTemplate
