import BraceTemplate.Text.ClassTable
import BraceTemplate.Text.CategoryTable

/- Classes of characters. ASCII is decided directly; other characters are looked up in the
   tables of their properties and general categories. -/
namespace BraceTemplate
namespace Text

/-- The first code point of every run of the category table. -/
def categoryStarts : Array Nat :=
  (0 :: points 0 (CategoryTable.runs.map (·.2.2))).toArray

def categoryKinds : Array (Char × Char) :=
  (CategoryTable.runs.map fun r => (r.1, r.2.1)).toArray

/-- What an entry of the table says of a character of its run, by the distance from the first. -/
def entryCategory (distance : Nat) : Option (Char × Char) → Char × Char
  | none => ('C', 'n')
  | some ('L', 'x') => if distance % 2 = 0 then ('L', 'u') else ('L', 'l')
  | some pair => pair

/-- The general category as its two letters. -/
def category (c : Char) : Char × Char :=
  let i := rank categoryStarts c.toNat - 1
  entryCategory (c.toNat - categoryStarts[i]?.getD 0) categoryKinds[i]?

def isAscii (c : Char) : Bool := c.toNat < 128

/-- Letters and the marks and numbers counted as letters. -/
def isAlphabetic (c : Char) : Bool :=
  if isAscii c then c.isAlpha else inRanges ClassTable.alphabetic c.toNat

/-- Digits and other number characters. -/
def isNumeric (c : Char) : Bool :=
  if isAscii c then c.isDigit else (category c).1 == 'N'

def isAlphanumeric (c : Char) : Bool := isAlphabetic c || isNumeric c

/-- The characters of the property White_Space. -/
def isWhitespace (c : Char) : Bool :=
  let n := c.toNat
  (9 ≤ n && n ≤ 13) || n == 32 || n == 0x85 || n == 0xA0 || n == 0x1680 ||
    (0x2000 ≤ n && n ≤ 0x200A) || n == 0x2028 || n == 0x2029 || n == 0x202F ||
    n == 0x205F || n == 0x3000

def isCased (c : Char) : Bool :=
  if isAscii c then c.isAlpha else inRanges ClassTable.cased c.toNat

def isCaseIgnorable (c : Char) : Bool := inRanges ClassTable.caseIgnorable c.toNat

def isGraphemeExtend (c : Char) : Bool :=
  if isAscii c then false else inRanges ClassTable.graphemeExtend c.toNat

def isLowercase (c : Char) : Bool :=
  if isAscii c then c.isLower else inRanges ClassTable.lowercase c.toNat

def isUppercase (c : Char) : Bool :=
  if isAscii c then c.isUpper else inRanges ClassTable.uppercase c.toNat

/-- Decimal digits of any script. -/
def isDecimalDigit (c : Char) : Bool :=
  if isAscii c then c.isDigit else category c == ('N', 'd')

/-- A character that has a visible form or is the plain blank. -/
def isPrintable (c : Char) : Bool :=
  if isAscii c then 32 ≤ c.toNat && c.toNat < 127
  else
    let (major, _) := category c
    major != 'C' && major != 'Z'

/-- Hexadecimal digits in ASCII. -/
def hexValue? (c : Char) : Option Nat :=
  if '0' ≤ c ∧ c ≤ '9' then some (c.toNat - 48)
  else if 'a' ≤ c ∧ c ≤ 'f' then some (c.toNat - 87)
  else if 'A' ≤ c ∧ c ≤ 'F' then some (c.toNat - 55)
  else none

end Text
end BraceTemplate
