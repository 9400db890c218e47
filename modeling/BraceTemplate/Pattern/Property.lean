import BraceTemplate.Pattern

/- The names of character properties in patterns. Case, blanks, dashes and underscores in a
   name do not count, nor does a leading `is`. -/
namespace BraceTemplate
namespace Pattern

/-- A name without what does not count. -/
def looseName (name : List Char) : String :=
  let core := (name.filter fun c => !(c = ' ' || c = '_' || c = '-' || Text.isWhitespace c)).map
    Char.toLower
  match core with
  | 'i' :: 's' :: rest => if rest = ['c'] then "isc" else String.ofList rest
  | core => String.ofList core

/-- The names of general categories, each with its letters. -/
def categoryNames : List (String × Char × Option Char) :=
  [("l", 'L', none), ("letter", 'L', none), ("lu", 'L', some 'u'),
   ("uppercaseletter", 'L', some 'u'), ("ll", 'L', some 'l'), ("lowercaseletter", 'L', some 'l'),
   ("lt", 'L', some 't'), ("titlecaseletter", 'L', some 't'), ("lm", 'L', some 'm'),
   ("modifierletter", 'L', some 'm'), ("lo", 'L', some 'o'), ("otherletter", 'L', some 'o'),
   ("m", 'M', none), ("mark", 'M', none), ("combiningmark", 'M', none), ("mn", 'M', some 'n'),
   ("nonspacingmark", 'M', some 'n'), ("mc", 'M', some 'c'), ("spacingmark", 'M', some 'c'),
   ("me", 'M', some 'e'), ("enclosingmark", 'M', some 'e'), ("n", 'N', none),
   ("number", 'N', none), ("nd", 'N', some 'd'), ("decimalnumber", 'N', some 'd'),
   ("digit", 'N', some 'd'), ("nl", 'N', some 'l'), ("letternumber", 'N', some 'l'),
   ("no", 'N', some 'o'), ("othernumber", 'N', some 'o'), ("p", 'P', none),
   ("punctuation", 'P', none), ("punct", 'P', none), ("pc", 'P', some 'c'),
   ("connectorpunctuation", 'P', some 'c'), ("pd", 'P', some 'd'),
   ("dashpunctuation", 'P', some 'd'), ("ps", 'P', some 's'), ("openpunctuation", 'P', some 's'),
   ("pe", 'P', some 'e'), ("closepunctuation", 'P', some 'e'), ("pi", 'P', some 'i'),
   ("initialpunctuation", 'P', some 'i'), ("pf", 'P', some 'f'),
   ("finalpunctuation", 'P', some 'f'), ("po", 'P', some 'o'), ("otherpunctuation", 'P', some 'o'),
   ("s", 'S', none), ("symbol", 'S', none), ("sm", 'S', some 'm'), ("mathsymbol", 'S', some 'm'),
   ("sc", 'S', some 'c'), ("currencysymbol", 'S', some 'c'), ("sk", 'S', some 'k'),
   ("modifiersymbol", 'S', some 'k'), ("so", 'S', some 'o'), ("othersymbol", 'S', some 'o'),
   ("z", 'Z', none), ("separator", 'Z', none), ("zs", 'Z', some 's'),
   ("spaceseparator", 'Z', some 's'), ("zl", 'Z', some 'l'), ("lineseparator", 'Z', some 'l'),
   ("zp", 'Z', some 'p'), ("paragraphseparator", 'Z', some 'p'), ("c", 'C', none),
   ("other", 'C', none), ("cc", 'C', some 'c'), ("control", 'C', some 'c'),
   ("cntrl", 'C', some 'c'), ("cf", 'C', some 'f'), ("format", 'C', some 'f'),
   ("co", 'C', some 'o'), ("privateuse", 'C', some 'o'), ("cn", 'C', some 'n'),
   ("unassigned", 'C', some 'n')]

/-- The names of other properties. -/
def binaryNames : List (String × CharProperty) :=
  [("alphabetic", .alphabetic), ("alpha", .alphabetic), ("whitespace", .whitespace),
   ("wspace", .whitespace), ("space", .whitespace), ("lowercase", .lowercase),
   ("lower", .lowercase), ("uppercase", .uppercase), ("upper", .uppercase), ("cased", .cased),
   ("caseignorable", .caseIgnorable), ("ci", .caseIgnorable), ("graphemeextend", .graphemeExtend),
   ("grext", .graphemeExtend)]

def generalCategory? (name : String) : Option CharProperty :=
  if name = "any" then some .any
  else if name = "ascii" then some .ascii
  else if name = "assigned" then some .assigned
  else if name = "lc" || name = "casedletter" then some .casedLetter
  else (categoryNames.find? (·.1 = name)).map fun e => .category e.2.1 e.2.2

/-- The property that a name alone stands for. -/
def property? (name : List Char) : Option CharProperty :=
  let name := looseName name
  match generalCategory? name with
  | some p => some p
  | none => (binaryNames.find? (·.1 = name)).map (·.2)

/-- The property that a name and a value stand for. -/
def valuedProperty? (name value : List Char) : Option CharProperty :=
  let name := looseName name
  if name = "generalcategory" || name = "gc" then generalCategory? (looseName value) else none

/-- The classes of ASCII characters by name, as ranges. -/
def asciiClasses : List (String × List (Char × Char)) :=
  [("alnum", [('0', '9'), ('A', 'Z'), ('a', 'z')]), ("alpha", [('A', 'Z'), ('a', 'z')]),
   ("ascii", [('\x00', '\x7f')]), ("blank", [('\t', '\t'), (' ', ' ')]),
   ("cntrl", [('\x00', '\x1f'), ('\x7f', '\x7f')]), ("digit", [('0', '9')]),
   ("graph", [('!', '~')]), ("lower", [('a', 'z')]), ("print", [(' ', '~')]),
   ("punct", [('!', '/'), (':', '@'), ('[', '\x60'), ('\x7b', '~')]),
   ("space", [('\t', '\r'), (' ', ' ')]), ("upper", [('A', 'Z')]),
   ("word", [('0', '9'), ('A', 'Z'), ('_', '_'), ('a', 'z')]),
   ("xdigit", [('0', '9'), ('A', 'F'), ('a', 'f')])]

def rangesSet (ranges : List (Char × Char)) : CharSet :=
  ranges.foldr (fun r s => .union (.range r.1 r.2) s) .empty

def asciiClass? (name : List Char) : Option CharSet :=
  (asciiClasses.find? (·.1 = String.ofList name)).map fun e => rangesSet e.2

end Pattern
end BraceTemplate
