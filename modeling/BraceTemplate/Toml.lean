import BraceTemplate.Json.Tree
import BraceTemplate.Text.Class

/- Configuration texts: TOML with strings, arrays and tables as its values. A text with any
   other value is refused, because nothing that can be configured takes one; so are arrays of
   tables. -/
namespace BraceTemplate
namespace Toml

/-- How a table came to be: through the header of a table in it, through a dotted key, by a
    header of its own, or written in braces. -/
inductive Origin where
  | implied
  | dotted
  | declared
  | closed
  deriving DecidableEq, Repr

inductive Item where
  | string (value : String)
  | array (items : List Item)
  | table (origin : Origin) (fields : List (String × Item))
  deriving Inhabited, Repr

abbrev Fields := List (String × Item)

/-! Tables. -/

/-- Puts a value under the rest of a dotted key into a table made by the part before it. -/
def putBelow (key : List String) (value : Item) (fields : Fields) : Option Fields :=
  match key with
  | [] => none
  | [last] =>
    match Table.lookup last fields with
    | none => some (fields ++ [(last, value)])
    | some _ => none
  | first :: rest =>
    match Table.lookup first fields with
    | none => (putBelow rest value []).map fun fs => fields ++ [(first, .table .dotted fs)]
    | some (.table origin inner) =>
      if origin = .dotted ∨ (origin = .implied ∧ 1 < rest.length) then
        (putBelow rest value inner).map fun fs => Table.insert fields first (.table origin fs)
      else none
    | some _ => none

/-- Declares the table of a header. -/
def declare (path : List String) (fields : Fields) : Option Fields :=
  match path with
  | [] => none
  | [last] =>
    match Table.lookup last fields with
    | none => some (fields ++ [(last, .table .declared [])])
    | some (.table .implied inner) => some (Table.insert fields last (.table .declared inner))
    | some _ => none
  | first :: rest =>
    match Table.lookup first fields with
    | none => (declare rest []).map fun fs => fields ++ [(first, .table .implied fs)]
    | some (.table origin inner) =>
      if origin = .closed then none
      else (declare rest inner).map fun fs => Table.insert fields first (.table origin fs)
    | some _ => none

/-- Puts a value into the table that was declared last. -/
def put (path key : List String) (value : Item) (fields : Fields) : Option Fields :=
  match path with
  | [] => putBelow key value fields
  | first :: rest =>
    match Table.lookup first fields with
    | some (.table origin inner) =>
      (put rest key value inner).map fun fs => Table.insert fields first (.table origin fs)
    | _ => none

/-! Characters and blanks. -/

/-- The characters of comments and strings, line ends apart. -/
def isTextChar (c : Char) : Bool :=
  c = '\t' || (0x20 ≤ c.toNat && c.toNat ≠ 0x7F)

def isKeyChar (c : Char) : Bool := c.isAlphanum || c = '_' || c = '-'

def skipBlanks (text : List Char) : List Char := text.dropWhile fun c => c = ' ' || c = '\t'

def lineEnd? : List Char → Option (List Char)
  | '\n' :: rest => some rest
  | '\r' :: '\n' :: rest => some rest
  | _ => none

def skipComment : List Char → List Char
  | '#' :: rest => rest.dropWhile isTextChar
  | text => text

/-- What may stand behind a statement: blanks, a comment, and the end of the line. -/
def endLine? (text : List Char) : Option (List Char) :=
  match skipComment (skipBlanks text) with
  | [] => some []
  | rest => lineEnd? rest

/-- Skips blanks, comments and line ends; a comment is followed by a line end. -/
def skipLines : Nat → List Char → Option (List Char)
  | 0, _ => none
  | fuel + 1, text =>
    match skipBlanks text with
    | '#' :: rest => (lineEnd? (rest.dropWhile isTextChar)).bind (skipLines fuel)
    | rest =>
      match lineEnd? rest with
      | some more => skipLines fuel more
      | none => some rest

/-! Strings. -/

/-- A character written by the given number of hexadecimal digits. -/
def hexChar? (digits : Nat) (text : List Char) : Option (Char × List Char) := do
  let ds ← (text.take digits).mapM Text.hexValue?
  if ds.length < digits then none
  else
    let n := ds.foldl (fun acc d => 16 * acc + d) 0
    if n.isValidChar then some (Char.ofNat n, text.drop digits) else none

/-- The character of an escape, without its backslash. -/
def escape? : List Char → Option (Char × List Char)
  | 'b' :: rest => some (Char.ofNat 8, rest)
  | 't' :: rest => some ('\t', rest)
  | 'n' :: rest => some ('\n', rest)
  | 'f' :: rest => some (Char.ofNat 12, rest)
  | 'r' :: rest => some ('\r', rest)
  | '"' :: rest => some ('"', rest)
  | '\\' :: rest => some ('\\', rest)
  | 'u' :: rest => hexChar? 4 rest
  | 'U' :: rest => hexChar? 8 rest
  | _ => none

/-- The rest of a string in one line, after its opening quote. -/
def basicString? : Nat → List Char → Option (List Char × List Char)
  | 0, _ => none
  | fuel + 1, text =>
    match text with
    | [] => none
    | '"' :: rest => some ([], rest)
    | '\\' :: rest => do
      let (c, rest) ← escape? rest
      let (cs, rest) ← basicString? fuel rest
      return (c :: cs, rest)
    | c :: rest =>
      if isTextChar c then (basicString? fuel rest).map fun (cs, rest) => (c :: cs, rest) else none

/-- The rest of a string without escapes in one line, after its opening quote. -/
def literalString? : List Char → Option (List Char × List Char)
  | [] => none
  | '\'' :: rest => some ([], rest)
  | c :: rest =>
    if isTextChar c then (literalString? rest).map fun (cs, rest) => (c :: cs, rest) else none

/-- Behind a backslash at the end of a line: skips all blanks and line ends. -/
def skipBreak? (fuel : Nat) (text : List Char) : Option (List Char) :=
  (lineEnd? (skipBlanks text)).map (skipAll fuel)
where
  skipAll : Nat → List Char → List Char
    | 0, text => text
    | fuel + 1, text =>
      match lineEnd? (skipBlanks text) with
      | some rest => skipAll fuel rest
      | none => skipBlanks text

/-- The rest of a string over several lines. Up to two quotes before the closing three
    belong to the string. -/
def longString? (quote : Char) (escapes : Bool) : Nat → List Char → Option (List Char × List Char)
  | 0, _ => none
  | fuel + 1, text =>
    let next (c : Char) (rest : List Char) : Option (List Char × List Char) :=
      (longString? quote escapes fuel rest).map fun (cs, rest) => (c :: cs, rest)
    match text with
    | [] => none
    | c :: rest =>
      if c = quote then
        let quotes := (text.takeWhile (· == quote)).length
        if 3 ≤ quotes then
          let own := min (quotes - 3) 2
          some (List.replicate own quote, text.drop (own + 3))
        else next c rest
      else if c = '\\' ∧ escapes then
        match escape? rest with
        | some (c, rest) => next c rest
        | none => (skipBreak? fuel rest).bind (longString? quote escapes fuel)
      else
        match lineEnd? text with
        | some rest => next '\n' rest
        | none => if isTextChar c then next c rest else none

/-- A line end directly behind the opening quotes does not belong to a string. -/
def skipFirstLineEnd (text : List Char) : List Char := (lineEnd? text).getD text

def string? (fuel : Nat) (text : List Char) : Option (List Char × List Char) :=
  match text with
  | '"' :: '"' :: '"' :: rest => longString? '"' true fuel (skipFirstLineEnd rest)
  | '\'' :: '\'' :: '\'' :: rest => longString? '\'' false fuel (skipFirstLineEnd rest)
  | '"' :: rest => basicString? fuel rest
  | '\'' :: rest => literalString? rest
  | _ => none

/-! Keys and values. -/

def simpleKey? (fuel : Nat) (text : List Char) : Option (String × List Char) :=
  match text with
  | '"' :: rest => (basicString? fuel rest).map fun (cs, rest) => (String.ofList cs, rest)
  | '\'' :: rest => (literalString? rest).map fun (cs, rest) => (String.ofList cs, rest)
  | _ =>
    let word := text.takeWhile isKeyChar
    if word.isEmpty then none else some (String.ofList word, text.dropWhile isKeyChar)

/-- A key, perhaps with dots, and the blanks around its parts. -/
def key? : Nat → List Char → Option (List String × List Char)
  | 0, _ => none
  | fuel + 1, text => do
    let (part, rest) ← simpleKey? fuel (skipBlanks text)
    match skipBlanks rest with
    | '.' :: rest =>
      let (parts, rest) ← key? fuel rest
      return (part :: parts, rest)
    | rest => return ([part], rest)

mutual
def value? : Nat → List Char → Option (Item × List Char)
  | 0, _ => none
  | fuel + 1, text =>
    match text with
    | '[' :: rest => (items? fuel rest).map fun (xs, rest) => (.array xs, rest)
    | '\x7b' :: rest =>
      match skipBlanks rest with
      | '\x7d' :: rest => some (.table .closed [], rest)
      | rest => (pairs? fuel [] rest).map fun (fs, rest) => (.table .closed fs, rest)
    | _ => (string? fuel text).map fun (cs, rest) => (.string (String.ofList cs), rest)

/-- The rest of an array; a comma may follow its last item. -/
def items? : Nat → List Char → Option (List Item × List Char)
  | 0, _ => none
  | fuel + 1, text => do
    match ← skipLines fuel text with
    | ']' :: rest => return ([], rest)
    | text =>
      let (x, rest) ← value? fuel text
      match ← skipLines fuel rest with
      | ',' :: rest =>
        let (xs, rest) ← items? fuel rest
        return (x :: xs, rest)
      | ']' :: rest => return ([x], rest)
      | _ => none

/-- The rest of a table in braces, of which some entries are read. -/
def pairs? : Nat → Fields → List Char → Option (Fields × List Char)
  | 0, _, _ => none
  | fuel + 1, done, text => do
    let (key, v, rest) ← pair? fuel text
    let done ← putBelow key v done
    match skipBlanks rest with
    | ',' :: rest => pairs? fuel done rest
    | '\x7d' :: rest => return (done, rest)
    | _ => none

/-- A key with its value. -/
def pair? : Nat → List Char → Option (List String × Item × List Char)
  | 0, _ => none
  | fuel + 1, text => do
    match ← key? fuel text with
    | (key, '=' :: rest) =>
      let (v, rest) ← value? fuel (skipBlanks rest)
      return (key, v, rest)
    | _ => none
end

/-! Statements. -/

/-- A table header, after its opening bracket. -/
def header? (fuel : Nat) (text : List Char) : Option (List String × List Char) :=
  match key? fuel text with
  | some (path, ']' :: rest) => some (path, rest)
  | _ => none

/-- Reads statement after statement into the tables; `path` names the one declared last. -/
def statements? : Nat → List String → Fields → List Char → Option Fields
  | 0, _, _, _ => none
  | fuel + 1, path, fields, text =>
    match skipBlanks text with
    | [] => some fields
    | '[' :: rest => do
      let (path, rest) ← header? fuel rest
      let fields ← declare path fields
      let rest ← endLine? rest
      statements? fuel path fields rest
    | rest =>
      match endLine? rest with
      | some more => statements? fuel path fields more
      | none => do
        let (key, v, more) ← pair? fuel rest
        let fields ← put path key v fields
        let more ← endLine? more
        statements? fuel path fields more

mutual
/-- An item as a tree, where a table whose only entry is empty counts as the word that is
    the key of that entry. -/
def Item.tree : Item → Json.Tree
  | .string s => .string s
  | .array xs => .array (trees xs)
  | .table _ fields =>
    match fields with
    | [(word, .array [])] => .object [(word, .null)]
    | [(word, .table _ [])] => .object [(word, .null)]
    | fields => .object (fieldTrees fields)

def trees : List Item → List Json.Tree
  | [] => []
  | x :: rest => x.tree :: trees rest

def fieldTrees : Fields → List (String × Json.Tree)
  | [] => []
  | (key, x) :: rest => (key, x.tree) :: fieldTrees rest
end

/-- The root table of a text. A byte order mark in front of it is skipped. -/
def read? (text : String) : Option Json.Tree :=
  let chars :=
    match text.toList with
    | '\uFEFF' :: rest => rest
    | chars => chars
  (statements? (2 * chars.length + 8) [] [] chars).map fun fields => .object (fieldTrees fields)

end Toml
end BraceTemplate
