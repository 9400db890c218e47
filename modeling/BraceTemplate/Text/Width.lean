import BraceTemplate.Text.Class
import BraceTemplate.Text.WidthTable

/- The columns that characters take on a terminal. -/
namespace BraceTemplate
namespace Text

/-- The width of a character that is drawn; a control character takes one column. -/
def charWidth (c : Char) : Nat :=
  let n := c.toNat
  if isAscii c || n = 0x2D7F then 1
  else if n = 0x115F ∨ n = 0x17A4 then 2
  else if n = 0x17D8 then 3
  else if inRanges WidthTable.narrow n then 0
  else if inRanges WidthTable.wide n then 2
  else 1

/-- The distance of two tab stops. -/
def tabWidth : Nat := 4

/-- The characters that show a character at a place of a line: blanks up to the next tab stop
    for a tab, a blank for every other white space. -/
def shown (place : Nat) (c : Char) : List Char :=
  if c = '\t' then List.replicate (tabWidth - place % tabWidth) ' '
  else if isWhitespace c then [' ']
  else [c]

/-- The columns that a character takes at a place of a line. -/
def widthAt (place : Nat) (c : Char) : Nat :=
  if c = '\t' then tabWidth - place % tabWidth
  else if isWhitespace c then 1
  else charWidth c

end Text
end BraceTemplate
