import BraceTemplate.Diagnostic
import BraceTemplate.Text.Width

/- Reports: a finding as text. With the source at hand a report shows the lines that the
   finding is about, underlines the place and writes the message below; otherwise it is one
   line, and a second one with the snippet. -/
namespace BraceTemplate
namespace Excerpt

/-! Lines of a source. -/

def isLineEnd (c : Char) : Bool :=
  let n := c.toNat
  n = 10 || n = 11 || n = 12 || n = 13 || n = 0x85 || n = 0x2028 || n = 0x2029

/-- The lines of a text with their ends; a final line end begins no further line. -/
def cutLines : List Char → List (List Char)
  | [] => []
  | '\r' :: '\n' :: rest => ['\r', '\n'] :: cutLines rest
  | c :: rest =>
    if isLineEnd c then [c] :: cutLines rest
    else
      match cutLines rest with
      | line :: more => (c :: line) :: more
      | [] => [[c]]

/-- A line with its number, from 1, and the place of its first character in the source. -/
structure Line where
  number : Nat
  offset : Nat
  content : List Char
  deriving Repr

namespace Line

/-- What is shown of a line. -/
def text (l : Line) : List Char := Text.trimEnd l.content

def shown (l : Line) : List Char := l.text.zipIdx.flatMap fun (c, place) => Text.shown place c

/-- The columns of the first places of a line; behind its text a place is one column. -/
def columns (l : Line) (count : Nat) : List Nat :=
  ((l.text.zipIdx.map fun (c, place) => Text.widthAt place c) ++ List.replicate count 1).take count

end Line

def numberLines (number offset : Nat) : List (List Char) → List Line
  | [] => []
  | content :: rest =>
    ⟨number, offset, content⟩ :: numberLines (number + 1) (offset + content.length) rest

/-- The lines of a source; an empty source has one. -/
def lines (source : List Char) : List Line :=
  numberLines 1 0 (match cutLines source with | [] => [[]] | ls => ls)

/-- The line of a place; the place behind the source is in the last line. -/
def lineOf? (ls : List Line) (place : Nat) : Option Line :=
  (ls.takeWhile (·.offset ≤ place)).getLast?

/-! Rows of a drawing. A row draws one character for each place of a line, and repeats
    another one for the further columns that the place takes. -/

def drawCell (width : Nat) (cell : Char × Char) : List Char :=
  match width with
  | 0 => []
  | more + 1 => cell.1 :: List.replicate more cell.2

def drawRow (columns : List Nat) (cell : Nat → Char × Char) : List Char :=
  columns.zipIdx.flatMap fun (width, place) => drawCell width (cell place)

def blanks (n : Nat) : List Char := List.replicate n ' '

/-- The margin of a line, with its number. -/
def numberMargin (digits : Nat) (l : Line) : List Char :=
  ' ' :: (Text.padLeft digits (toString l.number).toList ++ [' ', '│', ' '])

/-- The margin of the rows between lines. -/
def margin (digits : Nat) (bar : Char) : List Char := blanks (digits + 2) ++ [bar, ' ']

/-- A part of a source in one line, from a place up to another, with a message. -/
def drawInline (digits : Nat) (l : Line) (first limit : Nat) (message : String) :
    List (List Char) :=
  let tip := max ((first + limit) / 2) first - l.offset
  let columns := l.columns (limit - l.offset + 2)
  let isMarked (place : Nat) : Bool := first ≤ l.offset + place && l.offset + place < limit
  let under (place : Nat) : Char × Char :=
    if place = tip then if isMarked place then ('┬', '─') else ('│', ' ')
    else if isMarked place then ('─', '─')
    else (' ', ' ')
  let arrow (place : Nat) : Char × Char :=
    if place = tip then ('╰', '─') else if tip < place then ('─', '─') else (' ', ' ')
  [numberMargin digits l ++ l.shown,
   margin digits '│' ++ drawRow columns under,
   margin digits '│' ++ drawRow columns arrow ++ ' ' :: message.toList]

/-- A part of a source that begins in one line and ends in another. -/
def drawAcross (digits : Nat) (first last : Line) (message : String) : List (List Char) :=
  let columns := last.columns (last.content.length + 2)
  let gap := if first.number + 1 < last.number then
      [margin digits '┆' ++ ['┆', ' ', ' ', ' ']] else []
  [numberMargin digits first ++ ['╭', '─', '▶', ' '] ++ first.shown] ++ gap ++
  [numberMargin digits last ++ ['├', '─', '▶', ' '] ++ last.shown,
   margin digits '│' ++ ['│', ' ', ' ', ' '] ++ drawRow columns fun _ => (' ', ' '),
   margin digits '│' ++ ['╰', '─', '─', '─'] ++ (drawRow columns fun _ => ('─', '─')) ++
     ' ' :: message.toList]

/-- The number of characters before a place given in bytes, if a character begins there. -/
def charsBefore? : Nat → List Char → Option Nat
  | 0, _ => some 0
  | _ + 1, [] => none
  | n + 1, c :: rest =>
    if c.utf8Size ≤ n + 1 then (charsBefore? (n + 1 - c.utf8Size) rest).map (· + 1) else none

/-- The drawing of a part of a source under a title. -/
def draw (title message : String) (source : List Char) (first limit : Nat) :
    Option (List (List Char)) := do
  let ls := lines source
  let begin ← lineOf? ls first
  let final ← lineOf? ls (max (limit - 1) first)
  let digits := (toString final.number).length
  let place := toString begin.number ++ ":" ++ toString (first - begin.offset + 1)
  let body :=
    if begin.number = final.number then drawInline digits begin first limit message
    else drawAcross digits begin final message
  return [title.toList, blanks (digits + 2) ++ ("╭─[template:" ++ place ++ "]").toList,
      blanks (digits + 2) ++ ['│']] ++ body ++ [List.replicate (digits + 2) '─' ++ ['╯']]

end Excerpt

namespace Diagnostic

/-- The finding in one line, and the snippet in another. -/
def compactText (d : Diagnostic) : String :=
  d.severity.name ++ "[" ++ d.code ++ "]" ++
    (match d.pos with
      | some p => " " ++ toString p.line ++ ":" ++ toString p.column
      | none => "") ++
    ": " ++ d.message ++ "\n" ++
    (match d.snippet with
      | some s => "  | " ++ s ++ "\n"
      | none => "")

def title (d : Diagnostic) : String :=
  (match d.severity with
    | .error => "Error"
    | .warning => "Warning") ++ ": [" ++ d.code ++ "] " ++ d.message

/-- The finding with the lines it is about: as many characters from its position on as the
    name of its node has. -/
def excerpt? (d : Diagnostic) (source : String) : Option String := do
  let pos ← d.pos
  let text := source.toList
  let first ← Excerpt.charsBefore? pos.offset text
  let width := max 1 (d.nodeName.elim 1 (·.toList.length))
  let rows ← Excerpt.draw d.title d.message text first (max (min (first + width) text.length) first)
  return String.ofList (rows.flatMap (· ++ ['\n']))

/-- The report of the finding; without a source, or when the position is not in it, the
    compact one. -/
def report (source : Option String) (d : Diagnostic) : String :=
  (source.bind d.excerpt?).getD d.compactText

end Diagnostic

/-- The reports of findings, one after the other. -/
def Findings.report (source : Option String) (ds : List Diagnostic) : String :=
  String.join (ds.map (Diagnostic.report source))

end BraceTemplate
