import BraceTemplate.Double.Decimal

/- The numbers of JSON texts. A number without fraction and exponent that fits in 64 bits
   is an integer. Any other number is read into a 64-bit significand, of which further
   digits only move the exponent, and is then multiplied or divided once by the double
   nearest to a power of ten. -/
namespace BraceTemplate
namespace Json

inductive Number where
  | int (value : Int)
  | float (value : Double)
  deriving DecidableEq, Repr

namespace Number

/-- The written parts of a number: a sign, digits before and behind the point, and an
    exponent with its sign. -/
structure Spelling where
  negative : Bool
  whole : List Char
  fraction : Option (List Char)
  exponent : Option (Bool × List Char)
  deriving Repr

/-- Splits the number in front of a text into its parts. The whole part has no needless
    zero in front; a point and an exponent mark need digits behind them. -/
def split? (text : List Char) : Option (Spelling × List Char) := do
  let (negative, rest) :=
    match text with
    | '-' :: rest => (true, rest)
    | rest => (false, rest)
  let whole := rest.takeWhile Char.isDigit
  let rest := rest.dropWhile Char.isDigit
  match whole with
  | [] => none
  | '0' :: _ :: _ => none
  | _ =>
    let (fraction, rest) ←
      match rest with
      | '.' :: more =>
        let digits := more.takeWhile Char.isDigit
        if digits.isEmpty then none
        else pure (some digits, more.dropWhile Char.isDigit)
      | other => pure (none, other)
    match rest with
    | [] => pure (⟨negative, whole, fraction, none⟩, [])
    | c :: more =>
      if c = 'e' || c = 'E' then
        let (down, more) :=
          match more with
          | '-' :: more => (true, more)
          | '+' :: more => (false, more)
          | more => (false, more)
        let digits := more.takeWhile Char.isDigit
        if digits.isEmpty then none
        else pure (⟨negative, whole, fraction, some (down, digits)⟩, more.dropWhile Char.isDigit)
      else pure (⟨negative, whole, fraction, none⟩, c :: more)

def digitOf (c : Char) : Nat := c.toNat - '0'.toNat

/-- Takes digits into the significand while it fits in 64 bits; gives the digits left. -/
def accumulate (significand : Nat) : List Char → Nat × List Char
  | [] => (significand, [])
  | c :: rest =>
    let next := significand * 10 + digitOf c
    if next < Nat.pow 2 64 then accumulate next rest else (significand, c :: rest)

/-- The double nearest to a power of ten. -/
def powerOfTen (k : Nat) : Double := Double.ofNat (Nat.pow 10 k)

def times (x y : Double) : Double :=
  match y.ratio with
  | some (n, d) => x.mulRatio n d
  | none => y

def quotient (x y : Double) : Double :=
  match y.ratio with
  | some (n, d) => x.mulRatio d n
  | none => x

/-- Applies an exponent in steps of at most 308; none when the number grows out of range. -/
def applyExponent : Nat → Double → Int → Option Double
  | 0, x, _ => some x
  | fuel + 1, x, e =>
    if e.natAbs ≤ 308 then
      if 0 ≤ e then
        let y := times x (powerOfTen e.natAbs)
        if y.isFinite then some y else none
      else some (quotient x (powerOfTen e.natAbs))
    else if x.isZero then some x
    else if 0 ≤ e then none
    else applyExponent fuel (quotient x (powerOfTen 308)) (e + 308)

/-- The value of a spelling, or none when it is out of range. -/
def Spelling.value? (s : Spelling) : Option Number :=
  let (significand, surplus) := accumulate 0 s.whole
  let shape : Option Int := if surplus.isEmpty then
      (if s.fraction.isNone && s.exponent.isNone then
        (if s.negative then
          (if significand = 0 ∨ Nat.pow 2 63 < significand then none else some (-(significand : Int)))
        else some (significand : Int))
      else none)
    else none
  match shape with
  | some n => some (.int n)
  | none =>
    let (significand, fractionDigits) :=
      match s.fraction with
      | none => (significand, 0)
      | some digits =>
        let (total, left) := accumulate significand digits
        (total, digits.length - left.length)
    let shift : Int := (surplus.length : Int) - (fractionDigits : Int)
    let signed (x : Double) : Number := .float (if s.negative then x.neg else x)
    let finish (e : Int) : Option Number :=
      (applyExponent 8 (Double.ofNat significand) e).map signed
    match s.exponent with
    | none => finish shift
    | some (down, digits) =>
      let e := Double.digitsValue digits
      if Nat.pow 2 31 ≤ e then
        if significand ≠ 0 ∧ !down then none else some (signed (Double.zero false))
      else finish (if down then shift - e else shift + e)

end Number
end Json
end BraceTemplate
