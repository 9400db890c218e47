import BraceTemplate.Calendar.Date
import BraceTemplate.Double.Decimal
import BraceTemplate.Text.Trim

/- Reading dates. A date alone has blanks allowed before each number, a year of one to four
   digits or with a sign, and one or two digits for month and day. A full moment has two
   digits everywhere, four for the year, and an offset to universal time. -/
namespace BraceTemplate
namespace Calendar

/-- Between `least` and `most` digits in front of a text. -/
def digits? (least most : Nat) (text : List Char) : Option (Nat × List Char) :=
  let ds := (text.take most).takeWhile Char.isDigit
  if ds.length < least then none
  else some (Double.digitsValue ds, text.drop ds.length)

/-- Drops one character. -/
def expect? (c : Char) : List Char → Option (List Char)
  | d :: rest => if d = c then some rest else none
  | [] => none

/-- A year with its sign, or of at most four digits. -/
def year? (text : List Char) : Option (Int × List Char) :=
  match text with
  | '-' :: rest => (digits? 1 rest.length rest).map fun (n, r) => (-(n : Int), r)
  | '+' :: rest => (digits? 1 rest.length rest).map fun (n, r) => ((n : Int), r)
  | rest => (digits? 1 4 rest).map fun (n, r) => ((n : Int), r)

/-- A year, a month and a day between dashes, and nothing behind them. -/
def readDate? (text : List Char) : Option Date := do
  let (year, rest) ← year? (Text.trimStart text)
  let rest ← expect? '-' rest
  let (month, rest) ← digits? 1 2 (Text.trimStart rest)
  let rest ← expect? '-' rest
  let (day, rest) ← digits? 1 2 (Text.trimStart rest)
  if rest.isEmpty then date? year month day else none

/-- The fraction of a second in billionths; digits beyond the ninth are passed over. -/
def fraction? (text : List Char) : Option (Nat × List Char) :=
  match text with
  | '.' :: rest =>
    let ds := (rest.take 9).takeWhile Char.isDigit
    if ds.isEmpty then none
    else some (Double.digitsValue ds * Nat.pow 10 (9 - ds.length), rest.dropWhile Char.isDigit)
  | rest => some (0, rest)

/-- The seconds by which a zone is ahead of universal time, less than a day. -/
def offset? (text : List Char) : Option (Int × List Char) :=
  let signed (negative : Bool) (rest : List Char) : Option (Int × List Char) := do
    let (hours, rest) ← digits? 2 2 rest
    let rest ← expect? ':' rest
    let (minutes, rest) ← digits? 2 2 rest
    if 23 < hours || 59 < minutes then none
    else
      let seconds : Int := (hours * 3600 + minutes * 60 : Nat)
      some (if negative then -seconds else seconds, rest)
  match text with
  | 'Z' :: rest => some (0, rest)
  | 'z' :: rest => some (0, rest)
  | '+' :: rest => signed false rest
  | '-' :: rest => signed true rest
  | '\u2212' :: rest => signed true rest
  | _ => none

/-- A date and a time of day in a zone, as the moment in universal time. -/
def readMoment? (text : List Char) : Option Moment := do
  let (year, rest) ← digits? 4 4 text
  let rest ← expect? '-' rest
  let (month, rest) ← digits? 2 2 rest
  let rest ← expect? '-' rest
  let (day, rest) ← digits? 2 2 rest
  let rest ←
    match rest with
    | c :: rest => if c = 'T' || c = 't' || c = ' ' then some rest else none
    | [] => none
  let (hour, rest) ← digits? 2 2 rest
  let rest ← expect? ':' rest
  let (minute, rest) ← digits? 2 2 rest
  let rest ← expect? ':' rest
  let (second, rest) ← digits? 2 2 rest
  let (nanos, rest) ← fraction? rest
  let (offset, rest) ← offset? rest
  if !rest.isEmpty || 23 < hour || 59 < minute || 60 < second then none
  else
    let date ← date? year month day
    let leap := second = 60
    let here : Int := date.number * 86400 +
      ((hour * 3600 + minute * 60 + (if leap then 59 else second) : Nat) : Int)
    let utc := here - offset
    some ⟨utc / 86400, (utc % 86400).toNat, nanos + (if leap then 1000000000 else 0)⟩

end Calendar
end BraceTemplate
