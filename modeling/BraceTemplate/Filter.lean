import BraceTemplate.Formats
import BraceTemplate.Json.Writer
import BraceTemplate.Text.Case
import BraceTemplate.Text.Integer
import BraceTemplate.Text.Trim
import BraceTemplate.Url.Percent

/- Built-in filters. A filter turns a value into another and never fails: an argument of the
   wrong shape counts as absent, and a value that a filter cannot treat comes back unchanged. -/
namespace BraceTemplate

open Json

variable [Formats]

/-- An argument at run time, with a name or by its place. -/
structure FilterArgument where
  name : Option String
  value : Value
  deriving Repr

namespace Filter

/-- The argument of a name, or else the positional one at a place. -/
def argument? (args : List FilterArgument) (place : Nat) (name : String) : Option Value :=
  ((args.find? (·.name = some name)).or (args.filter (·.name.isNone))[place]?).map (·.value)

/-- The text of an argument; an absent argument and null stand for the default. -/
def argumentText (args : List FilterArgument) (place : Nat) (name fallback : String) : String :=
  match argument? args place name with
  | none => fallback
  | some .null => fallback
  | some v => v.display

/-- Applies a function to the text of a scalar; arrays and objects are kept. -/
def mapText (f : List Char → List Char) : Value → Value
  | .array items => .array items
  | .object fields => .object fields
  | v => .string (String.ofList (f v.display.toList))

/-! Escaping. -/

def escapeChar : Char → List Char
  | '&' => ['&', 'a', 'm', 'p', ';']
  | '<' => ['&', 'l', 't', ';']
  | '>' => ['&', 'g', 't', ';']
  | '"' => ['&', 'q', 'u', 'o', 't', ';']
  | '\'' => ['&', '#', '3', '9', ';']
  | c => [c]

/-- The text with the five characters of markup as entities. -/
def escapeHtml (text : List Char) : List Char := text.flatMap escapeChar

def escapeLineEnd : Char → List Char
  | '\n' => ['&', '#', '1', '0', ';']
  | '\r' => ['&', '#', '1', '3', ';']
  | c => [c]

/-- The text for an attribute, in which line ends are entities as well. -/
def escapeAttr (text : List Char) : List Char := (escapeHtml text).flatMap escapeLineEnd

/-- The schemes that an address may have in output. -/
def safeSchemes : List String := ["http", "https", "mailto", "tel"]

def encodeBlank (c : Char) : List Char := if c = ' ' then ['%', '2', '0'] else [c]

/-- The address if it is relative or of a safe scheme, else nothing. -/
def cleanUrl (text : List Char) : List Char :=
  let trimmed := Text.trim text
  match Formats.address trimmed with
  | .absolute scheme written => if safeSchemes.contains (String.ofList scheme) then written else []
  | .relative => trimmed.flatMap encodeBlank
  | .invalid => []

/-! Letters and words. -/

/-- The first character in upper case and the others in lower case, one by one. -/
def capitalizeWord : List Char → List Char
  | [] => []
  | c :: rest => Text.upperChar c ++ rest.flatMap Text.lowerChar

def titleCase (text : List Char) : List Char :=
  Text.joinWith [' '] ((Text.splitOn ' ' text).map capitalizeWord)

/-- Letters and digits of ASCII in lower case, with one dash for what stands between them.
    `some true` says that a dash is due, `none` that nothing is written yet. -/
def slugFrom (state : Option Bool) : List Char → List Char
  | [] => []
  | c :: rest =>
    if c.isAlphanum then
      (if state = some true then ['-', c] else [c]) ++ slugFrom (some false) rest
    else slugFrom (state.map fun _ => true) rest

def slugify (text : List Char) : List Char := slugFrom none (text.flatMap Text.lowerChar)

/-! Markup. -/

/-- Removes what stands between angle brackets, from the first opening one on. -/
def stripTags : List Char → List Char
  | [] => []
  | c :: rest =>
    if c = '<' ∧ rest.contains '>' then stripTags ((rest.dropWhile (· != '>')).drop 1)
    else c :: stripTags rest
  termination_by text => text.length
  decreasing_by
    all_goals simp only [List.length_cons, List.length_drop]
    · have := (List.dropWhile_sublist (l := rest) (· != '>')).length_le
      omega
    · omega

def unifyLineEnds : List Char → List Char
  | '\r' :: '\n' :: rest => '\n' :: unifyLineEnds rest
  | c :: rest => c :: unifyLineEnds rest
  | [] => []

/-- A break before every line end. -/
def breakLines (text : List Char) : List Char :=
  (unifyLineEnds text).flatMap fun c =>
    if c = '\n' then ['<', 'b', 'r', ' ', '/', '>', '\n'] else [c]

/-! Cutting and joining. -/

/-- The first characters of a long text, followed by a mark. -/
def shorten (limit : Nat) (mark : List Char) (text : List Char) : List Char :=
  if text.length ≤ limit then text else text.take limit ++ mark

def truncate (v : Value) (args : List FilterArgument) : Value :=
  match argument? args 0 "length" with
  | some (.int (.ofNat limit)) =>
    mapText (shorten limit (argumentText args 1 "end" "...").toList) v
  | _ => v

/-- The argument in place of null, an empty text or false. -/
def orElse (v : Value) (args : List FilterArgument) : Value :=
  let isEmpty : Bool :=
    match v with
    | .null => true
    | .string s => s.isEmpty
    | .bool b => !b
    | _ => false
  if isEmpty then (argument? args 0 "value").getD .null else v

def join (v : Value) (args : List FilterArgument) : Value :=
  match v with
  | .array items => .string ((argumentText args 0 "separator" ", ").intercalate (items.map Value.display))
  | v => v

def length : Value → Nat
  | .null => 0
  | .string s => s.toList.length
  | .array items => items.length
  | .object fields => fields.length
  | v => v.display.toList.length

/-! Dates. -/

/-- The moment that a count of seconds or a text names. -/
def moment? : Value → Option Formats.Moment
  | .int n => if Text.isInt64 n then Formats.ofSeconds? n else none
  | .string s => (Formats.moment? s.toList).or ((Formats.day? s.toList).map Formats.midnight)
  | _ => none

def date (v : Value) (args : List FilterArgument) : Value :=
  match moment? v with
  | none => v
  | some m =>
    match Formats.write? m (argumentText args 0 "format" "%Y-%m-%d").toList with
    | some text => .string (String.ofList text)
    | none => v

end Filter

/-- The built-in filters. -/
inductive Builtin where
  | escape
  | escHtml
  | escAttr
  | escUrl
  | raw
  | upper
  | lower
  | capitalize
  | title
  | trim
  | truncate
  | orElse
  | join
  | length
  | striptags
  | nl2br
  | slugify
  | json
  | urlEncode
  | date
  deriving DecidableEq, Repr

namespace Builtin

def name : Builtin → String
  | .escape => "escape"
  | .escHtml => "esc_html"
  | .escAttr => "esc_attr"
  | .escUrl => "esc_url"
  | .raw => "raw"
  | .upper => "upper"
  | .lower => "lower"
  | .capitalize => "capitalize"
  | .title => "title"
  | .trim => "trim"
  | .truncate => "truncate"
  | .orElse => "default"
  | .join => "join"
  | .length => "length"
  | .striptags => "striptags"
  | .nl2br => "nl2br"
  | .slugify => "slugify"
  | .json => "json"
  | .urlEncode => "url_encode"
  | .date => "date"

/-- All built-in filters in the order of their names. -/
def all : List Builtin :=
  [.capitalize, .date, .orElse, .escAttr, .escHtml, .escUrl, .escape, .join, .json, .length,
   .lower, .nl2br, .raw, .slugify, .striptags, .title, .trim, .truncate, .upper, .urlEncode]

def ofName? (name : String) : Option Builtin := all.find? (·.name = name)

/-- What the filter makes of a value. -/
def apply (f : Builtin) (v : Value) (args : List FilterArgument) : Value :=
  let text (g : List Char → List Char) : Value := .string (String.ofList (g v.display.toList))
  match f with
  | .escape | .escHtml => text Filter.escapeHtml
  | .escAttr => text Filter.escapeAttr
  | .escUrl => text fun t => Filter.escapeHtml (Filter.cleanUrl t)
  | .raw => v
  | .upper => Filter.mapText Text.upperText v
  | .lower => Filter.mapText Text.lowerText v
  | .capitalize => Filter.mapText Filter.capitalizeWord v
  | .title => Filter.mapText Filter.titleCase v
  | .trim => Filter.mapText Text.trim v
  | .truncate => Filter.truncate v args
  | .orElse => Filter.orElse v args
  | .join => Filter.join v args
  | .length => .int (Filter.length v)
  | .striptags => Filter.mapText Filter.stripTags v
  | .nl2br => Filter.mapText Filter.breakLines v
  | .slugify => Filter.mapText Filter.slugify v
  | .json => .string v.text
  | .urlEncode => Filter.mapText Url.formEncode v
  | .date => Filter.date v args

end Builtin
end BraceTemplate
