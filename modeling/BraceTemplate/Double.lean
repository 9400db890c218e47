/- Binary floating point with 53 bits of precision, as exact integers. A finite number is
   a sign, a mantissa and a power of two, so every operation below is integer arithmetic
   followed by one rounding to the nearest representable number, a half going to the even
   neighbour (`Double.ofRatio`). -/
namespace BraceTemplate

/-- A double-precision number: `finite s m e` stands for `m · 2^e`, negated when `s`. -/
inductive Double where
  | finite (negative : Bool) (mantissa : Nat) (exponent : Int)
  | infinite (negative : Bool)
  | nan
  deriving DecidableEq, Repr, Inhabited

namespace Double

/-- The smallest exponent of a finite number. -/
def minExponent : Int := -1074

/-- The largest exponent of a finite number. -/
def maxExponent : Int := 971

def zero (negative : Bool) : Double := .finite negative 0 minExponent

/-- The number is zero or has the one mantissa and exponent that rounding gives it. -/
def Canonical : Double → Prop
  | .finite _ m e =>
    m < Nat.pow 2 53 ∧ minExponent ≤ e ∧ e ≤ maxExponent ∧ (m < Nat.pow 2 52 → e = minExponent)
  | _ => True

/-- Multiplies by a power of two, giving a numerator and a denominator. -/
def scale (num den : Nat) : Int → Nat × Nat
  | .ofNat k => (num * Nat.pow 2 k, den)
  | .negSucc k => (num, den * Nat.pow 2 (k + 1))

/-- The quotient to the nearest integer, a half to the even one. -/
def divRound (num den : Nat) : Nat :=
  let q := num / den
  let r := num % den
  if den < 2 * r ∨ (2 * r = den ∧ q % 2 = 1) then q + 1 else q

/-- The exponent of the unit in the last place of a positive quotient. -/
def unitExponent (num den : Nat) : Int :=
  let guess := max ((num.log2 : Int) - (den.log2 : Int) - 53) minExponent
  let (n, d) := scale num den (-guess)
  if Nat.pow 2 53 * d ≤ n then guess + 1 else guess

/-- The double nearest to a non-negative quotient. -/
def ofRatio (negative : Bool) (num den : Nat) : Double :=
  if num = 0 then zero negative
  else
    let e := unitExponent num den
    let (n, d) := scale num den (-e)
    let m := divRound n d
    let (m, e) := if m = Nat.pow 2 53 then (Nat.pow 2 52, e + 1) else (m, e)
    if maxExponent < e then .infinite negative else .finite negative m e

/-- The double nearest to an integer. -/
def ofInt (n : Int) : Double := ofRatio (n < 0) n.natAbs 1

/-- The double nearest to a natural number. -/
def ofNat (n : Nat) : Double := ofRatio false n 1

/-- The product of a finite number and a positive quotient, rounded once. -/
def mulRatio (x : Double) (num den : Nat) : Double :=
  match x with
  | .finite s m e =>
    let (n, d) := scale (m * num) den e
    ofRatio s n d
  | other => other

/-- The magnitude of a finite number as a quotient. -/
def ratio : Double → Option (Nat × Nat)
  | .finite _ m e => some (scale m 1 e)
  | _ => none

def isFinite : Double → Bool
  | .finite .. => true
  | _ => false

def isZero : Double → Bool
  | .finite _ 0 _ => true
  | _ => false

def neg : Double → Double
  | .finite s m e => .finite (!s) m e
  | .infinite s => .infinite (!s)
  | .nan => .nan

/-- Equality of numbers: both zeros are equal, and nothing equals a NaN. -/
def eq : Double → Double → Bool
  | .nan, _ => false
  | _, .nan => false
  | x, y => (x.isZero && y.isZero) || x = y

/-- The integer that a finite number without a fraction stands for. -/
def integer? : Double → Option Int
  | .finite s m e =>
    let (n, d) := scale m 1 e
    if n % d = 0 then
      let q : Int := (n / d : Nat)
      some (if s then -q else q)
    else none
  | _ => none

end Double
end BraceTemplate
