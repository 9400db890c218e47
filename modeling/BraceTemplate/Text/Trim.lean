import BraceTemplate.Text.Class

/- Cutting texts: blanks at the ends, pieces between separators, and lines. -/
namespace BraceTemplate
namespace Text

def trimStart (text : List Char) : List Char := text.dropWhile isWhitespace

def trimEnd (text : List Char) : List Char := (text.reverse.dropWhile isWhitespace).reverse

def trim (text : List Char) : List Char := trimEnd (trimStart text)

/-- The pieces between the characters that `isSeparator` accepts; never an empty list. -/
def splitWhere (isSeparator : Char → Bool) : List Char → List (List Char)
  | [] => [[]]
  | c :: rest =>
    if isSeparator c then [] :: splitWhere isSeparator rest
    else
      match splitWhere isSeparator rest with
      | piece :: more => (c :: piece) :: more
      | [] => [[c]]

def splitOn (separator : Char) (text : List Char) : List (List Char) :=
  splitWhere (· == separator) text

/-- What stands before and behind the first separator, if there is one. -/
def splitOnce (separator : Char) (text : List Char) : Option (List Char × List Char) :=
  match text.dropWhile (· != separator) with
  | _ :: after => some (text.takeWhile (· != separator), after)
  | [] => none

def dropReturn (line : List Char) : List Char :=
  match line.reverse with
  | '\r' :: rest => rest.reverse
  | _ => line

/-- The lines of a text without their ends; a final line end begins no further line. -/
def lines (text : List Char) : List (List Char) :=
  match (splitOn '\n' text).reverse with
  | [] => []
  | last :: before =>
    before.reverse.map dropReturn ++ (if last.isEmpty then [] else [last])

/-- A comma-separated list: items are trimmed and empty ones left out. -/
def commaList (text : List Char) : List (List Char) :=
  ((splitOn ',' text).map trim).filter (!·.isEmpty)

/-- The texts with a separator between each two. -/
def joinWith (separator : List Char) : List (List Char) → List Char
  | [] => []
  | [t] => t
  | t :: rest => t ++ separator ++ joinWith separator rest

/-- Pads on the left with blanks to a width. -/
def padLeft (width : Nat) (text : List Char) : List Char :=
  List.replicate (width - text.length) ' ' ++ text

/-- Pads on the right with blanks to a width. -/
def padRight (width : Nat) (text : List Char) : List Char :=
  text ++ List.replicate (width - text.length) ' '

end Text
end BraceTemplate
