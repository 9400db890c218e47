import BraceTemplate.Text.Integer
import BraceTemplate.Text.Trim
import BraceTemplate.Token

/- Cutting a source text into tokens. Outside braces a run of characters up to the next
   brace is one token, and so is a comment. Inside braces blanks separate tokens and braces
   nest. Each step takes one lexeme from the front of the text (`Lexer.step`): it says how
   many characters the lexeme has beyond its first, which token it makes, and which braces
   are open behind it. -/
namespace BraceTemplate

/-- Why a text has no tokens. -/
inductive LexFault where
  | unterminatedComment
  | unterminatedString
  | unterminatedBracket
  | invalidEscape
  | unexpectedCharacter (c : Char)
  | integerOutOfRange (word : String)
  deriving DecidableEq, Repr

def LexFault.message : LexFault → String
  | .unterminatedComment => "unterminated comment"
  | .unterminatedString => "unterminated string"
  | .unterminatedBracket => "unterminated '['"
  | .invalidEscape => "invalid escape"
  | .unexpectedCharacter c => "unexpected character '" ++ c.toString ++ "'"
  | .integerOutOfRange word => "integer literal out of range: " ++ word

structure LexError where
  fault : LexFault
  pos : Position
  deriving DecidableEq, Repr

namespace Lexer

/-- A fault and the number of characters between the start of the lexeme and the fault. -/
structure Fault where
  reason : LexFault
  skipped : Nat
  deriving DecidableEq, Repr

/-- One step: characters beyond the first, the token if the lexeme makes one, and the open
    braces behind it, innermost first. A brace is marked once a pipe stands in it. -/
structure Step where
  extra : Nat
  token : Option (TokenKind × Payload)
  braces : List Bool
  deriving Repr

/-! Outside braces. -/

def commentOpen : List Char := ['\x7b', '!', '-', '-']

/-- The characters of a comment before its end. -/
def commentBody? : List Char → Option (List Char)
  | [] => none
  | '-' :: '-' :: '\x7d' :: _ => some []
  | c :: rest => (commentBody? rest).map (c :: ·)

/-! Strings. -/

/-- The character that an escape of one letter stands for. -/
def escaped? : Char → Option Char
  | '"' => some '"'
  | '\\' => some '\\'
  | '/' => some '/'
  | '\x7b' => some '\x7b'
  | '\x7d' => some '\x7d'
  | 'n' => some '\n'
  | 't' => some '\t'
  | 'r' => some '\r'
  | 'b' => some '\x08'
  | 'f' => some '\x0c'
  | _ => none

/-- The character of a code point that is not half of a surrogate pair. -/
def charOfCode? (n : Nat) : Option Char :=
  if h : n.isValidChar then some (Char.ofNatAux n h) else none

/-- The character of four hexadecimal digits. -/
def unicodeEscape? (a b c d : Char) : Option Char :=
  match Text.hexValue? a, Text.hexValue? b, Text.hexValue? c, Text.hexValue? d with
  | some a, some b, some c, some d => charOfCode? (((a * 16 + b) * 16 + c) * 16 + d)
  | _, _, _, _ => none

/-- The text of a string behind its opening quote, and its length with the closing quote.
    `taken` counts the characters before this one in the lexeme. -/
def stringBody (taken : Nat) : List Char → Except Fault (List Char × Nat)
  | [] => .error ⟨.unterminatedString, 0⟩
  | '"' :: _ => .ok ([], 1)
  | '\\' :: 'u' :: a :: b :: c :: d :: rest =>
    match unicodeEscape? a b c d with
    | some ch => (stringBody (taken + 6) rest).map fun (s, n) => (ch :: s, n + 6)
    | none => .error ⟨.invalidEscape, taken⟩
  | '\\' :: 'u' :: _ => .error ⟨.invalidEscape, taken⟩
  | ['\\'] => .error ⟨.unterminatedString, 0⟩
  | '\\' :: e :: rest =>
    match escaped? e with
    | some ch => (stringBody (taken + 2) rest).map fun (s, n) => (ch :: s, n + 2)
    | none => .error ⟨.invalidEscape, taken⟩
  | c :: rest => (stringBody (taken + 1) rest).map fun (s, n) => (c :: s, n + 1)

/-! Words. -/

def isWordStart (c : Char) : Bool := Text.isAlphanumeric c || c = '_' || c = '-'

def isWordChar (c : Char) : Bool :=
  Text.isAlphanumeric c || c = '_' || c = '-' || c = '.' || c = '?'

/-- A namespace mark is followed by a letter or an underscore. -/
def opensLocalName : List Char → Bool
  | c :: _ => Text.isAlphabetic c || c = '_'
  | [] => false

/-- Where a word stands: in its path, or inside a bracket opened so many characters in. -/
inductive WordMode where
  | path
  | bracket (opened : Nat)
  | quoted (opened : Nat)
  deriving DecidableEq, Repr

/-- The length of the word in front of a text, of which `taken` characters are behind. A
    word has at most one namespace mark, and any number of brackets with quoted keys. -/
def wordLength (namespaceAllowed : Bool) :
    WordMode → Nat → List Char → Except Fault Nat
  | .path, taken, [] => .ok taken
  | .path, taken, c :: rest =>
    if isWordChar c then wordLength namespaceAllowed .path (taken + 1) rest
    else if c = '[' then wordLength namespaceAllowed (.bracket taken) (taken + 1) rest
    else if c = ':' && namespaceAllowed && opensLocalName rest then
      wordLength false .path (taken + 1) rest
    else .ok taken
  | .bracket opened, _, [] => .error ⟨.unterminatedBracket, opened⟩
  | .bracket opened, taken, c :: rest =>
    if c = ']' then wordLength namespaceAllowed .path (taken + 1) rest
    else if c = '"' then wordLength namespaceAllowed (.quoted opened) (taken + 1) rest
    else wordLength namespaceAllowed (.bracket opened) (taken + 1) rest
  | .quoted opened, _, [] => .error ⟨.unterminatedBracket, opened⟩
  | .quoted opened, taken, '\\' :: rest =>
    match rest with
    | [] => .error ⟨.unterminatedBracket, opened⟩
    | _ :: rest => wordLength namespaceAllowed (.quoted opened) (taken + 2) rest
  | .quoted opened, taken, c :: rest =>
    if c = '"' then wordLength namespaceAllowed (.bracket opened) (taken + 1) rest
    else wordLength namespaceAllowed (.quoted opened) (taken + 1) rest

def isDigits (text : List Char) : Bool := !text.isEmpty && text.all Char.isDigit

def dropMinus : List Char → List Char
  | '-' :: rest => rest
  | text => text

/-- An optional minus, digits, and optionally a point with further digits. -/
def isNumber (word : List Char) : Bool :=
  match Text.splitOnce '.' (dropMinus word) with
  | some (whole, fraction) => isDigits whole && isDigits fraction
  | none => isDigits (dropMinus word)

/-- A word is a number, a keyword or an identifier; none for an integer out of range. -/
def classify? (word : List Char) : Option (TokenKind × Payload) :=
  if isNumber word then
    if word.contains '.' then (Double.read? word).map fun x => (.number, .float x)
    else (Text.int64? word).map fun n => (.number, .int n)
  else if word = ['t', 'r', 'u', 'e'] then some (.bool, .bool true)
  else if word = ['f', 'a', 'l', 's', 'e'] then some (.bool, .bool false)
  else if word = ['n', 'u', 'l', 'l'] then some (.null, .none)
  else some (.ident, .str (String.ofList word))

/-! Steps. -/

/-- The kind of a token of one character. -/
def punctuation? : Char → Option TokenKind
  | '\x7b' => some .leftBrace
  | '\x7d' => some .rightBrace
  | '/' => some .slash
  | '=' => some .equal
  | ':' => some .colon
  | ',' => some .comma
  | '|' => some .pipe
  | _ => none

/-- The open braces behind a token of one character. -/
def bracesAfter (kind : TokenKind) (braces : List Bool) : List Bool :=
  match kind, braces with
  | .leftBrace, _ => false :: braces
  | .rightBrace, _ :: outer => outer
  | .pipe, _ :: outer => true :: outer
  | _, _ => braces

/-- A step outside braces. -/
def textStep (c : Char) (rest : List Char) : Except Fault Step :=
  if c = '\x7b' then
    if commentOpen.isPrefixOf (c :: rest) then
      match commentBody? (rest.drop 3) with
      | some body => .ok ⟨body.length + 6, some (.comment, .str (String.ofList body)), []⟩
      | none => .error ⟨.unterminatedComment, 0⟩
    else .ok ⟨0, some (.leftBrace, .none), [false]⟩
  else
    let run := rest.takeWhile (· != '\x7b')
    .ok ⟨run.length, some (.text, .str (String.ofList (c :: run))), []⟩

/-- A step inside braces. -/
def tagStep (braces : List Bool) (c : Char) (rest : List Char) : Except Fault Step :=
  match punctuation? c with
  | some kind => .ok ⟨0, some (kind, .none), bracesAfter kind braces⟩
  | none =>
    if Text.isWhitespace c then .ok ⟨0, none, braces⟩
    else if c = '"' then
      match stringBody 1 rest with
      | .ok (s, n) => .ok ⟨n, some (.string, .str (String.ofList s)), braces⟩
      | .error f => .error f
    else if isWordStart c then
      match wordLength (!(braces.headD false)) .path 1 rest with
      | .ok n =>
        match classify? ((c :: rest).take n) with
        | some token => .ok ⟨n - 1, some token, braces⟩
        | none => .error ⟨.integerOutOfRange (String.ofList ((c :: rest).take n)), 0⟩
      | .error f => .error f
    else .error ⟨.unexpectedCharacter c, 0⟩

def step (braces : List Bool) (c : Char) (rest : List Char) : Except Fault Step :=
  if braces.isEmpty then textStep c rest else tagStep braces c rest

/-- The tokens of a text that starts at a position with the given braces open. -/
def scan (pos : Position) (braces : List Bool) (text : List Char) : Except LexError (List Token) :=
  match text with
  | [] => .ok [⟨.eof, .none, pos⟩]
  | c :: rest =>
    match step braces c rest with
    | .error f => .error ⟨f.reason, pos.through ((c :: rest).take f.skipped)⟩
    | .ok s =>
      let lexeme := c :: rest.take s.extra
      match scan (pos.through lexeme) s.braces (rest.drop s.extra) with
      | .error e => .error e
      | .ok tokens =>
        match s.token with
        | some (kind, payload) => .ok (⟨kind, payload, pos⟩ :: tokens)
        | none => .ok tokens
  termination_by text.length

end Lexer

/-- The tokens of a source text, closed by the end of input. -/
def tokenize (source : String) : Except LexError (List Token) :=
  Lexer.scan Position.start [] source.toList

end BraceTemplate
