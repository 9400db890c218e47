import BraceTemplate.Double.Shortest
import BraceTemplate.Json.Value

/- Writing JSON texts: in one line without blanks, or indented by two blanks a level. -/
namespace BraceTemplate
namespace Json
namespace Writer

def hexDigit (n : Nat) : Char := Nat.digitChar n

/-- Quotes, backslashes and control characters are escaped; all else stands for itself. -/
def escapeChar (c : Char) : List Char :=
  match c with
  | '"' => ['\\', '"']
  | '\\' => ['\\', '\\']
  | '\n' => ['\\', 'n']
  | '\r' => ['\\', 'r']
  | '\t' => ['\\', 't']
  | '\x08' => ['\\', 'b']
  | '\x0c' => ['\\', 'f']
  | c =>
    if c.toNat < 32 then ['\\', 'u', '0', '0', hexDigit (c.toNat / 16), hexDigit (c.toNat % 16)]
    else [c]

/-- A string between quotes. -/
def quoted (s : String) : List Char := '"' :: (s.toList.flatMap escapeChar ++ ['"'])

mutual
/-- The text of a value in one line. -/
def compact : Value → List Char
  | .null => ['n', 'u', 'l', 'l']
  | .bool true => ['t', 'r', 'u', 'e']
  | .bool false => ['f', 'a', 'l', 's', 'e']
  | .int n => (toString n).toList
  | .float x => x.dataText.toList
  | .string s => quoted s
  | .array [] => ['[', ']']
  | .array (v :: rest) => '[' :: (compact v ++ compactItems rest)
  | .object [] => ['\x7b', '\x7d']
  | .object ((k, v) :: rest) => '\x7b' :: (quoted k ++ ':' :: (compact v ++ compactFields rest))

def compactItems : List Value → List Char
  | [] => [']']
  | v :: rest => ',' :: (compact v ++ compactItems rest)

def compactFields : List (String × Value) → List Char
  | [] => ['\x7d']
  | (k, v) :: rest => ',' :: (quoted k ++ ':' :: (compact v ++ compactFields rest))
end

/-- A new line and the indentation of a level. -/
def newLine (level : Nat) : List Char := '\n' :: List.replicate (2 * level) ' '

mutual
/-- The indented text of a value that stands at a level. -/
def pretty (level : Nat) : Value → List Char
  | .array (v :: rest) =>
    '[' :: (newLine (level + 1) ++ pretty (level + 1) v ++ prettyItems level rest)
  | .object ((k, v) :: rest) =>
    '\x7b' :: (newLine (level + 1) ++ quoted k ++ [':', ' '] ++ pretty (level + 1) v ++
      prettyFields level rest)
  | .array [] => ['[', ']']
  | .object [] => ['\x7b', '\x7d']
  | v => compact v

def prettyItems (level : Nat) : List Value → List Char
  | [] => newLine level ++ [']']
  | v :: rest => ',' :: (newLine (level + 1) ++ pretty (level + 1) v ++ prettyItems level rest)

def prettyFields (level : Nat) : List (String × Value) → List Char
  | [] => newLine level ++ ['\x7d']
  | (k, v) :: rest =>
    ',' :: (newLine (level + 1) ++ quoted k ++ [':', ' '] ++ pretty (level + 1) v ++
      prettyFields level rest)
end

end Writer

/-- The text of a value in one line. -/
def Value.text (v : Value) : String := String.ofList (Writer.compact v)

/-- The indented text of a value. -/
def Value.prettyText (v : Value) : String := String.ofList (Writer.pretty 0 v)

/-- The text of a value in output: a string stands for itself and null for nothing. -/
def Value.display : Value → String
  | .null => ""
  | .string s => s
  | v => v.text

end Json
end BraceTemplate
