import BraceTemplate.Double.Shortest
import BraceTemplate.Position

/- Tokens of a template: a kind, a payload and the position of the first character. -/
namespace BraceTemplate

inductive TokenKind where
  | leftBrace
  | rightBrace
  | slash
  | ident
  | string
  | number
  | bool
  | null
  | equal
  | colon
  | comma
  | pipe
  | text
  | comment
  | eof
  deriving DecidableEq, Repr, Inhabited

namespace TokenKind

/-- The name of a kind in error messages. -/
def describe : TokenKind → String
  | .leftBrace => "'\x7b'"
  | .rightBrace => "'\x7d'"
  | .slash => "'/'"
  | .ident => "identifier"
  | .string => "string"
  | .number => "number"
  | .bool => "boolean"
  | .null => "null"
  | .equal => "'='"
  | .colon => "':'"
  | .comma => "','"
  | .pipe => "'|'"
  | .text => "text"
  | .comment => "comment"
  | .eof => "end of input"

/-- Kinds that stand for a value. -/
def isLiteral : TokenKind → Bool
  | .string | .number | .bool | .null => true
  | _ => false

end TokenKind

/-- What a token carries: a decoded text, a number or a truth value. -/
inductive Payload where
  | none
  | str (value : String)
  | int (value : Int)
  | float (value : Double)
  | bool (value : Bool)
  deriving DecidableEq, Repr, Inhabited

structure Token where
  kind : TokenKind
  payload : Payload
  pos : Position
  deriving DecidableEq, Repr, Inhabited

namespace Token

/-- The text a token carries; empty for all other payloads. -/
def text (t : Token) : String :=
  match t.payload with
  | .str s => s
  | _ => ""

/-- The token in error messages. -/
def describe (t : Token) : String :=
  match t.kind, t.payload with
  | .ident, .str s => "identifier '" ++ s ++ "'"
  | .string, .str s => "string \"" ++ s ++ "\""
  | .number, .int n => "number " ++ toString n
  | .number, .float x => "number " ++ x.plainText
  | .bool, .bool b => "boolean " ++ toString b
  | kind, _ => kind.describe

end Token
end BraceTemplate
