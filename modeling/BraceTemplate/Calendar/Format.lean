import BraceTemplate.Calendar.Date
import BraceTemplate.Text.Trim

/- Writing moments by a pattern. A percent sign and a letter stand for a part of the moment;
   between them a mark may change how a single number is padded. A pattern with an unknown
   specifier, or with one that needs a time zone, writes nothing at all. -/
namespace BraceTemplate
namespace Calendar

inductive Pad where
  | none
  | zero
  | space
  deriving DecidableEq, Repr

/-- The numbers of a moment. -/
inductive Field where
  | year
  | century
  | yearOfCentury
  | isoYear
  | isoYearOfCentury
  | quarter
  | month
  | day
  | weekFromSunday
  | weekFromMonday
  | isoWeek
  | daysFromSunday
  | weekdayNumber
  | ordinal
  | hour
  | hour12
  | minute
  | second
  | nanosecond
  | timestamp
  deriving DecidableEq, Repr

inductive Item where
  | literal (text : List Char)
  | number (field : Field) (pad : Pad)
  | weekdayName (long : Bool)
  | monthName (long : Bool)
  | halfDay (upper : Bool)
  /-- The fraction of a second with a point, with as few groups of three digits as it needs. -/
  | fraction
  | fractionDigits (count : Nat) (point : Bool)
  deriving DecidableEq, Repr

/-! Patterns. -/

def dateItems (separator : Char) (fields : List (Field × Pad)) : List Item :=
  match fields with
  | [] => []
  | [(f, p)] => [.number f p]
  | (f, p) :: rest => .number f p :: .literal [separator] :: dateItems separator rest

def clockItems : List Item := dateItems ':' [(.hour, .zero), (.minute, .zero), (.second, .zero)]

/-- The items of a specifier letter. -/
def specifier? : Char → Option (List Item)
  | 'A' => some [.weekdayName true]
  | 'a' => some [.weekdayName false]
  | 'B' => some [.monthName true]
  | 'b' => some [.monthName false]
  | 'h' => some [.monthName false]
  | 'C' => some [.number .century .zero]
  | 'D' => some (dateItems '/' [(.month, .zero), (.day, .zero), (.yearOfCentury, .zero)])
  | 'x' => some (dateItems '/' [(.month, .zero), (.day, .zero), (.yearOfCentury, .zero)])
  | 'F' => some (dateItems '-' [(.year, .zero), (.month, .zero), (.day, .zero)])
  | 'G' => some [.number .isoYear .zero]
  | 'g' => some [.number .isoYearOfCentury .zero]
  | 'H' => some [.number .hour .zero]
  | 'k' => some [.number .hour .space]
  | 'I' => some [.number .hour12 .zero]
  | 'l' => some [.number .hour12 .space]
  | 'M' => some [.number .minute .zero]
  | 'S' => some [.number .second .zero]
  | 'P' => some [.halfDay false]
  | 'p' => some [.halfDay true]
  | 'R' => some (dateItems ':' [(.hour, .zero), (.minute, .zero)])
  | 'T' => some clockItems
  | 'X' => some clockItems
  | 'r' => some (dateItems ':' [(.hour12, .zero), (.minute, .zero), (.second, .zero)] ++
      [.literal [' '], .halfDay true])
  | 'c' => some ([.weekdayName false, .literal [' '], .monthName false, .literal [' '],
      .number .day .space, .literal [' ']] ++ clockItems ++ [.literal [' '], .number .year .zero])
  | 'v' => some [.number .day .space, .literal ['-'], .monthName false, .literal ['-'],
      .number .year .zero]
  | 'U' => some [.number .weekFromSunday .zero]
  | 'W' => some [.number .weekFromMonday .zero]
  | 'V' => some [.number .isoWeek .zero]
  | 'Y' => some [.number .year .zero]
  | 'y' => some [.number .yearOfCentury .zero]
  | 'm' => some [.number .month .zero]
  | 'd' => some [.number .day .zero]
  | 'e' => some [.number .day .space]
  | 'j' => some [.number .ordinal .zero]
  | 'q' => some [.number .quarter .none]
  | 'u' => some [.number .weekdayNumber .none]
  | 'w' => some [.number .daysFromSunday .none]
  | 's' => some [.number .timestamp .none]
  | 'f' => some [.number .nanosecond .zero]
  | 'n' => some [.literal ['\n']]
  | 't' => some [.literal ['\t']]
  | '%' => some [.literal ['%']]
  | _ => none

/-- A single number takes another padding; nothing else does. -/
def repad? (pad : Pad) : List Item → Option (List Item)
  | [.number f _] => some [.number f pad]
  | _ => none

/-- The items of a pattern. -/
def pattern? : List Char → Option (List Item)
  | [] => some []
  | '%' :: '-' :: c :: rest => padded .none c rest
  | '%' :: '0' :: c :: rest => padded .zero c rest
  | '%' :: '_' :: c :: rest => padded .space c rest
  | '%' :: '.' :: 'f' :: rest => (pattern? rest).map (Item.fraction :: ·)
  | '%' :: '.' :: n :: 'f' :: rest => digits true n rest
  | '%' :: n :: 'f' :: rest =>
    if n = '3' || n = '6' || n = '9' then digits false n rest
    else plain n ('f' :: rest)
  | '%' :: c :: rest => plain c rest
  | ['%'] => none
  | c :: rest => (pattern? rest).map (Item.literal [c] :: ·)
where
  padded (pad : Pad) (c : Char) (rest : List Char) : Option (List Item) :=
    match (specifier? c).bind (repad? pad), pattern? rest with
    | some items, some more => some (items ++ more)
    | _, _ => none
  digits (point : Bool) (n : Char) (rest : List Char) : Option (List Item) :=
    let count := n.toNat - '0'.toNat
    if n = '3' || n = '6' || n = '9' then
      (pattern? rest).map (Item.fractionDigits count point :: ·)
    else none
  plain (c : Char) (rest : List Char) : Option (List Item) :=
    match specifier? c, pattern? rest with
    | some items, some more => some (items ++ more)
    | _, _ => none

/-! Writing. -/

def weekdayNames : List String :=
  ["Monday", "Tuesday", "Wednesday", "Thursday", "Friday", "Saturday", "Sunday"]

def monthNames : List String :=
  ["January", "February", "March", "April", "May", "June", "July", "August", "September",
   "October", "November", "December"]

def nameText (names : List String) (i : Nat) (long : Bool) : List Char :=
  let name := (names[i]?.getD "").toList
  if long then name else name.take 3

/-- A number filled up to a width behind its sign. -/
def padNumber (pad : Pad) (width : Nat) (sign : List Char) (n : Nat) : List Char :=
  let ds := Nat.toDigits 10 n
  match pad with
  | .none => sign ++ ds
  | .zero => sign ++ List.replicate (width - sign.length - ds.length) '0' ++ ds
  | .space => Text.padLeft width (sign ++ ds)

def signText (n : Int) (always : Bool) : List Char :=
  if n < 0 then ['-'] else if always then ['+'] else []

/-- A number of four places; years outside of them always show their sign. -/
def yearText (pad : Pad) (y : Int) : List Char :=
  if 0 ≤ y ∧ y < 10000 then padNumber pad 4 [] y.natAbs
  else padNumber pad 5 (signText y true) y.natAbs

/-- A number of two places, held in eight bits; tens beyond nine go on behind the digits. -/
def twoPlaces (pad : Pad) (n : Int) : List Char :=
  let v := (n % 256).toNat
  let ones := Nat.digitChar (v % 10)
  let tens := Char.ofNat (48 + v / 10)
  if v / 10 = 0 then
    match pad with
    | .none => [ones]
    | .space => [' ', ones]
    | .zero => ['0', ones]
  else [tens, ones]

def fieldText (m : Moment) (pad : Pad) : Field → List Char
  | .year => yearText pad m.date.year
  | .century => twoPlaces pad (m.date.year / 100)
  | .yearOfCentury => twoPlaces pad (m.date.year % 100)
  | .isoYear => yearText pad m.date.isoWeek.1
  | .isoYearOfCentury => twoPlaces pad (m.date.isoWeek.1 % 100)
  | .quarter => Nat.toDigits 10 ((m.date.month - 1) / 3 + 1)
  | .month => twoPlaces pad m.date.month
  | .day => twoPlaces pad m.date.day
  | .weekFromSunday => twoPlaces pad (m.date.weekFrom 6)
  | .weekFromMonday => twoPlaces pad (m.date.weekFrom 0)
  | .isoWeek => twoPlaces pad m.date.isoWeek.2
  | .daysFromSunday => Nat.toDigits 10 ((m.date.weekday + 1) % 7)
  | .weekdayNumber => Nat.toDigits 10 (m.date.weekday + 1)
  | .ordinal => padNumber pad 3 [] m.date.ordinal
  | .hour => twoPlaces pad m.hour
  | .hour12 => twoPlaces pad m.hour12
  | .minute => twoPlaces pad m.minute
  | .second => twoPlaces pad m.secondOfMinute
  | .nanosecond => padNumber pad 9 [] m.fraction
  | .timestamp => padNumber pad 9 (signText m.timestamp false) m.timestamp.natAbs

def halfDayText (m : Moment) (upper : Bool) : List Char :=
  let text := if m.isAfternoon then ['p', 'm'] else ['a', 'm']
  if upper then text.map Char.toUpper else text

/-- The leading digits of a fraction of nine digits. -/
def leading (count fraction : Nat) : List Char :=
  padNumber .zero count [] (fraction / Nat.pow 10 (9 - count))

def itemText (m : Moment) : Item → List Char
  | .literal t => t
  | .number f pad => fieldText m pad f
  | .weekdayName long => nameText weekdayNames m.date.weekday long
  | .monthName long => nameText monthNames (m.date.month - 1) long
  | .halfDay upper => halfDayText m upper
  | .fraction =>
    let f := m.fraction
    if f = 0 then []
    else if f % 1000000 = 0 then '.' :: leading 3 f
    else if f % 1000 = 0 then '.' :: leading 6 f
    else '.' :: leading 9 f
  | .fractionDigits count point => (if point then ['.'] else []) ++ leading count m.fraction

/-- The moment written by a pattern, unless the pattern is not one. -/
def format? (m : Moment) (pattern : List Char) : Option (List Char) :=
  (pattern? pattern).map fun items => items.flatMap (itemText m)

end Calendar
end BraceTemplate
