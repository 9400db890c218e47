import BraceTemplate.Text.Trim
import BraceTemplate.Url.Percent

/- Hosts of addresses: names, IPv4 and IPv6 addresses, and uninterpreted texts. A name whose
   last label is a number has to be an IPv4 address. -/
namespace BraceTemplate
namespace Url

inductive Host where
  | name (text : List Char)
  | ipv4 (value : Nat)
  | ipv6 (pieces : List Nat)
  deriving DecidableEq, Repr

namespace Host

/-! IPv4. -/

/-- The number of digits in a base, if all characters are digits. -/
def digits? (base : Nat) (text : List Char) : Option Nat :=
  text.foldl (fun acc c =>
    match acc, Text.hexValue? c with
    | some n, some d => if d < base then some (n * base + d) else none
    | _, _ => none) (some 0)

/-- A part of an IPv4 address: decimal, octal behind a zero, or hexadecimal. -/
def ipv4Number? (text : List Char) : Option Nat :=
  match text with
  | [] => none
  | '0' :: 'x' :: rest => digits? 16 rest
  | '0' :: 'X' :: rest => digits? 16 rest
  | '0' :: d :: rest => digits? 8 (d :: rest)
  | text => digits? 10 text

/-- The labels of a name, one empty label at the end left out. -/
def labels (text : List Char) : List (List Char) :=
  let parts := Text.splitOn '.' text
  if parts.length > 1 && parts.getLast? == some [] then parts.dropLast else parts

def endsInNumber (text : List Char) : Bool :=
  match (labels text).getLast? with
  | none => false
  | some last => (!last.isEmpty && last.all Char.isDigit) || (ipv4Number? last).isSome

/-- All parts but the last are bytes; the last fills the bytes that remain. -/
def ipv4? (text : List Char) : Option Nat := do
  let parts := labels text
  if 4 < parts.length then none
  else
    let numbers ← parts.mapM ipv4Number?
    match numbers.reverse with
    | [] => none
    | last :: before =>
      let before := before.reverse
      if before.any (255 < ·) || Nat.pow 256 (4 - before.length) ≤ last then none
      else
        let bytes := before ++ List.replicate (4 - before.length) 0
        some (bytes.foldl (fun n b => n * 256 + b) 0 + last)

/-! IPv6. -/

/-- A piece of one to four hexadecimal digits. -/
def piece? (text : List Char) : Option Nat :=
  if text.isEmpty || 4 < text.length then none else digits? 16 text

/-- A byte in decimal without needless zeros. -/
def byte? (text : List Char) : Option Nat :=
  match text with
  | [] => none
  | '0' :: _ :: _ => none
  | text => (digits? 10 text).bind fun n => if n ≤ 255 then some n else none

/-- Four bytes as two pieces. -/
def embedded? (text : List Char) : Option (List Nat) :=
  match (Text.splitOn '.' text).mapM byte? with
  | some [a, b, c, d] => some [a * 256 + b, c * 256 + d]
  | _ => none

/-- Pieces between colons; the last may be four bytes if `final`. -/
def pieces? (final : Bool) : List (List Char) → Option (List Nat)
  | [] => some []
  | [p] => if final && p.contains '.' then embedded? p else (piece? p).map ([·])
  | p :: rest =>
    match piece? p, pieces? final rest with
    | some n, some ns => some (n :: ns)
    | _, _ => none

def side? (final : Bool) (text : List Char) : Option (List Nat) :=
  if text.isEmpty then some [] else pieces? final (Text.splitOn ':' text)

/-- What stands before and behind the first double colon. -/
def splitDouble : List Char → Option (List Char × List Char)
  | [] => none
  | ':' :: ':' :: rest => some ([], rest)
  | c :: rest => (splitDouble rest).map fun (a, b) => (c :: a, b)

/-- Eight pieces; a double colon stands for the zeros that are missing. -/
def ipv6? (text : List Char) : Option (List Nat) :=
  match splitDouble text with
  | none =>
    match side? true text with
    | some ps => if ps.length = 8 then some ps else none
    | none => none
  | some (left, right) =>
    match side? false left, side? true right with
    | some a, some b =>
      if a.length + b.length ≤ 7 then
        some (a ++ List.replicate (8 - a.length - b.length) 0 ++ b)
      else none
    | _, _ => none

/-- The length of the run of zeros in front. -/
def zeroRun (pieces : List Nat) : Nat := (pieces.takeWhile (· = 0)).length

/-- Where the first longest run of zeros starts, and its length. -/
def longestRun (pieces : List Nat) : Nat × Nat :=
  (List.range pieces.length).foldl (fun best i =>
    let n := zeroRun (pieces.drop i)
    if best.2 < n then (i, n) else best) (0, 0)

def pieceText (n : Nat) : List Char := Nat.toDigits 16 n

def piecesText (pieces : List Nat) : List Char :=
  Text.joinWith [':'] (pieces.map pieceText)

/-- Two or more zeros in a row are left out, at the first longest run. -/
def ipv6Text (pieces : List Nat) : List Char :=
  let (start, count) := longestRun pieces
  if count < 2 then piecesText pieces
  else piecesText (pieces.take start) ++ [':', ':'] ++ piecesText (pieces.drop (start + count))

def ipv4Text (n : Nat) : List Char :=
  Text.joinWith ['.'] ([n / 16777216, n / 65536 % 256, n / 256 % 256, n % 256].map (Nat.toDigits 10))

def text : Host → List Char
  | .name t => t
  | .ipv4 n => ipv4Text n
  | .ipv6 ps => '[' :: (ipv6Text ps ++ [']'])

/-! Reading. -/

/-- Characters that no name may have. -/
def isForbidden (c : Char) : Bool :=
  c = '\x00' || c = '\t' || c = '\n' || c = '\r' || c = ' ' || c = '#' || c = '/' || c = ':' ||
    c = '<' || c = '>' || c = '?' || c = '@' || c = '[' || c = '\\' || c = ']' || c = '^' ||
    c = '|'

def isForbiddenInDomain (c : Char) : Bool :=
  isForbidden c || c = '%' || c.toNat < 32 || c.toNat = 127

/-- An IPv6 address between brackets. -/
def bracketed? (text : List Char) : Option Host :=
  match text.getLast? with
  | some ']' => (ipv6? text.dropLast).map .ipv6
  | _ => none

/-- The host of an address whose scheme is special. A name outside of ASCII would have to be encoded
    first, and is refused. -/
def readSpecial? (text : List Char) : Option Host :=
  match text with
  | '[' :: rest => bracketed? rest
  | text =>
    match decodeAscii? text with
    | none => none
    | some decoded =>
      let domain := decoded.map Char.toLower
      if domain.isEmpty || domain.any isForbiddenInDomain || domain.any (!Text.isAscii ·) then none
      else if endsInNumber domain then (ipv4? domain).map .ipv4
      else some (.name domain)

/-- The host of any other address is kept as it is written. -/
def readOpaque? (text : List Char) : Option Host :=
  match text with
  | '[' :: rest => bracketed? rest
  | text => if text.any isForbidden then none else some (.name (encode isControl text))

end Host
end Url
end BraceTemplate
