import BraceTemplate.Double

/- The shortest decimal text that reads back as a given double, and two layouts of it.
   The numbers that round to a double form an interval, closed exactly when the mantissa
   is even. For one digit, two digits and so on the two neighbours of the double on that
   decimal grid are tried; the first grid with a neighbour inside the interval gives the
   digits, and of two neighbours the nearer one is taken. -/
namespace BraceTemplate
namespace Double

/-- What decides between two equally near neighbours. -/
inductive Tie where
  | even
  | up
  deriving DecidableEq, Repr

/-- Digits and the power of ten of their last place: `digits · 10^power`. -/
structure Decimal where
  digits : Nat
  power : Int
  deriving DecidableEq, Repr

/-- The number of decimal digits; zero has none. -/
def digitCount (n : Nat) : Nat := if n = 0 then 0 else (Nat.toDigits 10 n).length

/-- The least `k` with the positive quotient below `10^k`. -/
def decimalExponent (num den : Nat) : Int :=
  if den ≤ num then digitCount (num / den)
  else 1 - (digitCount ((den + num - 1) / num - 1) : Int)

/-- Drops trailing zeros; the fuel bounds their number. -/
def dropZeros : Nat → Nat → Int → Decimal
  | 0, n, p => ⟨n, p⟩
  | fuel + 1, n, p => if n % 10 = 0 then dropZeros fuel (n / 10) (p + 1) else ⟨n, p⟩

/-- Four times the mantissa with the ends of its rounding interval in the same unit. -/
def interval (mantissa : Nat) (exponent : Int) : Nat × Nat × Nat :=
  let low := if mantissa = Nat.pow 2 52 ∧ minExponent < exponent then 1 else 2
  (4 * mantissa - low, 4 * mantissa, 4 * mantissa + 2)

/-- The better of the two neighbours with `count` digits, if one reads back. -/
def neighbour? (tie : Tie) (mantissa : Nat) (exponent : Int) (count : Nat) : Option Decimal :=
  let (low, mid, high) := interval mantissa exponent
  let (num, den) := scale 1 4 exponent
  let k := decimalExponent (mid * num) den
  let place : Int := k - count
  -- one step of the grid is `step / unit` in units of `num / den`
  let (step, unit) : Nat × Nat :=
    match place with
    | .ofNat p => (Nat.pow 10 p * den, num)
    | .negSucc p => (den, num * Nat.pow 10 (p + 1))
  let q := mid * unit / step
  let inside (d : Nat) : Bool :=
    let v := d * step
    if mantissa % 2 = 0 then decide (low * unit ≤ v ∧ v ≤ high * unit)
    else decide (low * unit < v ∧ v < high * unit)
  let below := mid * unit - q * step
  let above := (q + 1) * step - mid * unit
  let lowerFirst : Bool :=
    below < above || (below == above && (match tie with | .even => q % 2 == 0 | .up => false))
  let pick (d : Nat) : Decimal := dropZeros 20 d place
  match inside q && q != 0, inside (q + 1) with
  | true, true => some (pick (if lowerFirst then q else q + 1))
  | true, false => some (pick q)
  | false, true => some (pick (q + 1))
  | false, false => none

/-- The first grid that has a hit; seventeen digits always suffice. -/
def searchDigits (tie : Tie) (mantissa : Nat) (exponent : Int) : Nat → Nat → Decimal
  | 0, _ => ⟨mantissa, 0⟩
  | fuel + 1, count =>
    match neighbour? tie mantissa exponent count with
    | some d => d
    | none => searchDigits tie mantissa exponent fuel (count + 1)

/-- The shortest decimal of a finite, non-zero magnitude. -/
def shortest (tie : Tie) (mantissa : Nat) (exponent : Int) : Decimal :=
  searchDigits tie mantissa exponent 17 1

/-! Layouts. -/

def digitChars (n : Nat) : List Char := Nat.toDigits 10 n

/-- A decimal without exponent; `whole` closes a number that has no fraction. -/
def positional (d : Decimal) (whole : List Char) : List Char :=
  let ds := digitChars d.digits
  let count : Int := ds.length
  if 0 ≤ d.power then ds ++ List.replicate d.power.toNat '0' ++ whole
  else
    let point := count + d.power
    if 0 < point then ds.take point.toNat ++ '.' :: ds.drop point.toNat
    else '0' :: '.' :: (List.replicate (-point).toNat '0' ++ ds)

/-- A decimal as one digit, the rest behind a point, and a signed exponent. -/
def scientific (d : Decimal) : List Char :=
  let ds := digitChars d.digits
  let e : Int := d.power + (ds.length : Int) - 1
  let mark := 'e' :: (if 0 ≤ e then '+' else '-') :: digitChars e.natAbs
  match ds with
  | [] => mark
  | [c] => c :: mark
  | c :: rest => c :: '.' :: (rest ++ mark)

def signed (negative : Bool) (text : List Char) : List Char :=
  if negative then '-' :: text else text

/-- Plain text: always positional, nothing behind a whole number. -/
def plainText : Double → String
  | .nan => "NaN"
  | .infinite s => if s then "-inf" else "inf"
  | .finite s m e =>
    if m = 0 then String.ofList (signed s ['0'])
    else String.ofList (signed s (positional (shortest .up m e) []))

/-- Plain text that shows a fraction, so that it reads back as a float. -/
def fractionText (x : Double) : String :=
  match x with
  | .finite .. =>
    let text := x.plainText
    if text.toList.contains '.' then text else text ++ ".0"
  | other => other.plainText

/-- The spelling in data: positional from 1e-5 up to 1e16 with `.0` behind a whole
    number, else scientific. Numbers that are not finite are spelled `null`. -/
def dataText : Double → String
  | .finite s m e =>
    if m = 0 then String.ofList (signed s ['0', '.', '0'])
    else
      let d := shortest .even m e
      let top : Int := d.power + ((digitChars d.digits).length : Int)
      if -5 < top ∧ top ≤ 16 then String.ofList (signed s (positional d ['.', '0']))
      else String.ofList (signed s (scientific d))
  | _ => "null"

end Double
end BraceTemplate
