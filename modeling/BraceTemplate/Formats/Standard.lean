import BraceTemplate.Calendar.Format
import BraceTemplate.Calendar.Reader
import BraceTemplate.Formats
import BraceTemplate.Pattern.Reader
import BraceTemplate.Url

/- The readers that the program runs with. They stand in for readers that are larger: hosts outside
   of ASCII are refused, patterns know no classes of scripts and pictures and are weighed roughly,
   and what is wrong with a pattern is told in a few words. Nothing is proved from these readers
   but what happens on particular inputs, and that addresses go by their schemes. -/
namespace BraceTemplate

def Url.address (text : List Char) : WebAddress :=
  match read text with
  | .absolute url => .absolute url.scheme url.text
  | .relative => .relative
  | .invalid => .invalid

def Pattern.reader (text : String) : Except String (List Char → Bool) :=
  match read text with
  | .ok p => .ok p.matchesIn
  | .error f => .error f.message

instance Formats.standard : Formats where
  address := Url.address
  pattern := Pattern.reader
  Day := Calendar.Date
  Moment := Calendar.Moment
  day? := Calendar.readDate?
  moment? := Calendar.readMoment?
  midnight d := ⟨d.number, 0, 0⟩
  ofSeconds? := Calendar.Moment.ofTimestamp?
  write? := Calendar.format?

end BraceTemplate
