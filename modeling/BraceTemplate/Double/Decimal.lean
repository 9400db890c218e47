import BraceTemplate.Double

/- Reading a decimal number. The text is an optional sign, then digits with at most one
   point among or beside them and an optional exponent, or a name of infinity or NaN in
   any case. The result is the nearest double, whatever the number of digits. -/
namespace BraceTemplate
namespace Double

/-- The number written by decimal digits, most significant first. -/
def digitsValue (digits : List Char) : Nat :=
  digits.foldl (fun n c => n * 10 + (c.toNat - '0'.toNat)) 0

/-- The double nearest to `digits · 10^power`. Powers far out of range are decided by the
    number of digits alone. -/
def ofDecimal (negative : Bool) (digits : List Char) (power : Int) : Double :=
  let digits := digits.dropWhile (· = '0')
  if digits.isEmpty then zero negative
  else
    let top : Int := (digits.length : Int) + power
    if 400 < top then .infinite negative
    else if top < -400 then zero negative
    else
      let n := digitsValue digits
      match power with
      | .ofNat k => ofRatio negative (n * Nat.pow 10 k) 1
      | .negSucc k => ofRatio negative n (Nat.pow 10 (k + 1))

/-- An exponent: an optional sign and at least one digit. -/
def readExponent? (text : List Char) : Option Int :=
  let (negative, digits) :=
    match text with
    | '-' :: rest => (true, rest)
    | '+' :: rest => (false, rest)
    | rest => (false, rest)
  if digits.isEmpty || !digits.all Char.isDigit then none
  else
    let n : Int := digitsValue digits
    some (if negative then -n else n)

/-- An unsigned decimal: digits, a point, digits, an exponent; one digit is required. -/
def readUnsigned? (negative : Bool) (text : List Char) : Option Double :=
  let whole := text.takeWhile Char.isDigit
  let rest := text.dropWhile Char.isDigit
  let (fraction, rest) :=
    match rest with
    | '.' :: more => (more.takeWhile Char.isDigit, more.dropWhile Char.isDigit)
    | other => ([], other)
  if whole.isEmpty && fraction.isEmpty then none
  else
    let power? : Option Int :=
      match rest with
      | [] => some 0
      | c :: more => if c = 'e' || c = 'E' then readExponent? more else none
    power?.map fun power =>
      ofDecimal negative (whole ++ fraction) (power - (fraction.length : Int))

/-- Reads a whole text as a number. -/
def read? (text : List Char) : Option Double :=
  let (negative, rest) :=
    match text with
    | '-' :: rest => (true, rest)
    | '+' :: rest => (false, rest)
    | rest => (false, rest)
  let name := String.ofList (rest.map Char.toLower)
  if name = "inf" || name = "infinity" then some (.infinite negative)
  else if name = "nan" then some .nan
  else readUnsigned? negative rest

end Double
end BraceTemplate
