import BraceTemplate.Text.CaseTable
import BraceTemplate.Text.Class

/- Case mappings. One character may map to several. A text is put in lower case character
   by character except for the capital sigma, which becomes the final form at the end of a
   word (`lowerText`). -/
namespace BraceTemplate
namespace Text

def applyRuns (runs : Runs) (c : Char) : Char :=
  match runs.image? c.toNat with
  | some n => Char.ofNat n
  | none => c

def findLong? (table : List (List Nat)) (c : Char) : Option (List Char) :=
  table.findSome? fun entry =>
    match entry with
    | source :: image => if source = c.toNat then some (image.map Char.ofNat) else none
    | [] => none

/-- The upper-case form of one character. -/
def upperChar (c : Char) : List Char :=
  if isAscii c then [c.toUpper]
  else (findLong? CaseTable.upperLong c).getD [applyRuns CaseTable.upperRuns c]

/-- The lower-case form of one character, wherever it stands. -/
def lowerChar (c : Char) : List Char :=
  if isAscii c then [c.toLower]
  else (findLong? CaseTable.lowerLong c).getD [applyRuns CaseTable.lowerRuns c]

/-- The character that stands for all case variants of `c`. -/
def foldChar (c : Char) : Char :=
  if isAscii c then c.toLower else applyRuns CaseTable.foldRuns c

def upperText (text : List Char) : List Char := text.flatMap upperChar

/-- A capital sigma is final when, case-ignorable characters left out, a cased character
    stands before it and none behind it. -/
def isFinalSigma (before after : List Char) : Bool :=
  let cased (side : List Char) : Bool :=
    match side.dropWhile isCaseIgnorable with
    | c :: _ => isCased c
    | [] => false
  cased before && !cased after

/-- Lower case with the characters already passed, nearest first. -/
def lowerFrom (before : List Char) : List Char → List Char
  | [] => []
  | c :: rest =>
    let image := if c = 'Σ' then [if isFinalSigma before rest then 'ς' else 'σ'] else lowerChar c
    image ++ lowerFrom (c :: before) rest

def lowerText (text : List Char) : List Char := lowerFrom [] text

end Text
end BraceTemplate
