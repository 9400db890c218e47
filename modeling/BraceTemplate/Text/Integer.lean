import BraceTemplate.Double.Decimal

/- Integers of 64 bits and their decimal texts. -/
namespace BraceTemplate
namespace Text

def minInt64 : Int := -9223372036854775808

def maxInt64 : Int := 9223372036854775807

def isInt64 (n : Int) : Bool := minInt64 ≤ n && n ≤ maxInt64

/-- An integer of 64 bits: an optional sign and digits. -/
def int64? (text : List Char) : Option Int :=
  let (negative, digits) :=
    match text with
    | '-' :: rest => (true, rest)
    | '+' :: rest => (false, rest)
    | rest => (false, rest)
  if digits.isEmpty || !digits.all Char.isDigit then none
  else
    let n : Int := Double.digitsValue digits
    let n := if negative then -n else n
    if isInt64 n then some n else none

/-- The nearest integer of 64 bits. -/
def clampInt64 (n : Int) : Int := max minInt64 (min n maxInt64)

end Text
end BraceTemplate
