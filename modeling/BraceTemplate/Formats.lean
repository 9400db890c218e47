/- Formats that are not the program's own: addresses, patterns, and dates. The program asks others
   to read and write these, and what it makes of the answers is defined for any readers of them
   (`Formats`). -/
namespace BraceTemplate

/-- What reading an address comes to: the scheme and the whole text of an absolute address, an
    address without a scheme, or no address. -/
inductive WebAddress where
  | absolute (scheme text : List Char)
  | relative
  | invalid
  deriving DecidableEq, Repr

/-- Readers of the formats, and a writer of moments. -/
class Formats where
  address : List Char → WebAddress
  /-- Whether a pattern matches somewhere in a text, or what is wrong with the pattern. -/
  pattern : String → Except String (List Char → Bool)
  Day : Type
  /-- A day and a time of day without a zone. -/
  Moment : Type
  day? : List Char → Option Day
  moment? : List Char → Option Moment
  midnight : Day → Moment
  /-- The moment that lies so many seconds behind the start of 1970. -/
  ofSeconds? : Int → Option Moment
  /-- A moment as a layout asks for it; none when the layout is none. -/
  write? : Moment → List Char → Option (List Char)

end BraceTemplate
