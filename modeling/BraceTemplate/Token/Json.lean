import BraceTemplate.Json.Writer
import BraceTemplate.Token

/- Tokens as data, and as lines for a reader. -/
namespace BraceTemplate

open Json

namespace TokenKind

/-- The name of a kind in data. -/
def name : TokenKind → String
  | .leftBrace => "LBrace"
  | .rightBrace => "RBrace"
  | .slash => "Slash"
  | .ident => "Ident"
  | .string => "String"
  | .number => "Number"
  | .bool => "Bool"
  | .null => "Null"
  | .equal => "Equal"
  | .colon => "Colon"
  | .comma => "Comma"
  | .pipe => "Pipe"
  | .text => "Text"
  | .comment => "Comment"
  | .eof => "Eof"

def all : List TokenKind :=
  [.leftBrace, .rightBrace, .slash, .ident, .string, .number, .bool, .null, .equal, .colon,
   .comma, .pipe, .text, .comment, .eof]

def ofName? (name : String) : Option TokenKind := all.find? (·.name = name)

end TokenKind

def Payload.toJson : Payload → Value
  | .none => .null
  | .str s => .string s
  | .int n => .int n
  | .float x => Value.ofDouble x
  | .bool b => .bool b

def Token.toJson (t : Token) : Value :=
  .object
    [("kind", .string t.kind.name), ("value", t.payload.toJson),
     ("line", Value.ofNat t.pos.line), ("column", Value.ofNat t.pos.column),
     ("offset", Value.ofNat t.pos.offset)]

end BraceTemplate
