import BraceTemplate.Diagnostic
import BraceTemplate.Expression.Path
import BraceTemplate.Json.Writer
import BraceTemplate.Token.Lexer

/- Expressions: the content of an interpolation. A head, which is a variable path or a
   literal, is followed by filter calls. The text may stand with or without its braces. -/
namespace BraceTemplate

open Json

/-- An argument of a filter call. A bare word is a reference to a variable. -/
structure CallArgument where
  name : Option String
  value : Value
  reference : Bool
  deriving Repr

structure FilterCall where
  name : String
  arguments : List CallArgument
  deriving Repr

structure Expression where
  headText : String
  path : List PathSegment
  literal : Option Value
  calls : List FilterCall
  deriving Repr

/-- Why a text is no expression. -/
inductive ExpressionError where
  | lexical (fault : LexFault)
  | unexpected (expected found : String)
  | invalidPath (path : String) (fault : PathFault)
  deriving DecidableEq, Repr

namespace ExpressionError

def message : ExpressionError → String
  | .lexical f => "Invalid expression syntax: " ++ f.message
  | .unexpected expected found =>
    "Invalid expression syntax: expected " ++ expected ++ ", found " ++ found
  | .invalidPath path f => "Invalid variable path '" ++ path ++ "': " ++ f.message

def code : ExpressionError → Code
  | .invalidPath .. => .invalidVariablePath
  | _ => .expressionSyntax

def toDiagnostic (e : ExpressionError) : Diagnostic := Diagnostic.error e.code e.message

end ExpressionError

namespace FilterCall

def positionalCount (c : FilterCall) : Nat := (c.arguments.filter (·.name.isNone)).length

end FilterCall

namespace Expression

/-- Whether a filter of the chain is an escaping one. -/
def escapes (isEscaping : String → Bool) (e : Expression) : Bool :=
  e.calls.any fun c => isEscaping c.name

/-- The segments of a path text. -/
def readPath (path : String) : Except ExpressionError (List PathSegment) :=
  match Path.read path with
  | .ok segments => .ok segments
  | .error f => .error (.invalidPath path f)

/-- The value that a literal token carries. -/
def literalValue : Payload → Value
  | .str s => .string s
  | .int n => .int n
  | .float x => Value.ofDouble x
  | .bool b => .bool b
  | .none => .null

def describe : Option Token → String
  | some t => t.describe
  | none => TokenKind.eof.describe

/-- The value of an argument, and whether it is a reference. -/
def operand (t? : Option Token) : Except ExpressionError (Value × Bool) :=
  match t? with
  | none => .error (.unexpected "a filter argument" (describe none))
  | some t =>
    if t.kind = .ident then .ok (.string t.text, true)
    else if t.kind.isLiteral then .ok (literalValue t.payload, false)
    else .error (.unexpected "a filter argument" t.describe)

mutual
/-- The calls in front of the tokens, up to a token that is no pipe. -/
def readCalls : List Token → Except ExpressionError (List FilterCall × List Token)
  | [] => .ok ([], [])
  | t :: rest =>
    if t.kind = .pipe then
      match rest with
      | [] => .error (.unexpected TokenKind.ident.describe (describe none))
      | name :: rest =>
        if name.kind = .ident then
          match rest with
          | [] => .ok ([⟨name.text, []⟩], [])
          | sep :: more =>
            if sep.kind = .colon then readArguments name.text [] more
            else (readCalls (sep :: more)).map fun (cs, r) => (⟨name.text, []⟩ :: cs, r)
        else .error (.unexpected TokenKind.ident.describe name.describe)
    else .ok ([], t :: rest)

/-- The arguments of a call, of which some are read, and the calls behind it. -/
def readArguments (filter : String) (done : List CallArgument) :
    List Token → Except ExpressionError (List FilterCall × List Token)
  | [] => .error (.unexpected "a filter argument" (describe none))
  | [t] =>
    match operand (some t) with
    | .ok (v, ref) => .ok ([⟨filter, done ++ [⟨none, v, ref⟩]⟩], [])
    | .error e => .error e
  | t :: next :: rest =>
    if t.kind = .ident ∧ next.kind = .equal then
      match rest with
      | [] => .error (.unexpected "a filter argument" (describe none))
      | value :: rest =>
        match operand (some value) with
        | .ok (v, ref) => readMoreArguments filter (done ++ [⟨some t.text, v, ref⟩]) rest
        | .error e => .error e
    else
      match operand (some t) with
      | .ok (v, ref) => readMoreArguments filter (done ++ [⟨none, v, ref⟩]) (next :: rest)
      | .error e => .error e

/-- A comma announces a further argument; anything else ends the call. -/
def readMoreArguments (filter : String) (done : List CallArgument) :
    List Token → Except ExpressionError (List FilterCall × List Token)
  | [] => .ok ([⟨filter, done⟩], [])
  | t :: rest =>
    if t.kind = .comma then readArguments filter done rest
    else (readCalls (t :: rest)).map fun (cs, r) => (⟨filter, done⟩ :: cs, r)
end

/-- The head: its text, its path, and its value if it is a literal. -/
def readHead (t? : Option Token) :
    Except ExpressionError (String × List PathSegment × Option Value) :=
  match t? with
  | none => .error (.unexpected "a variable or literal" (describe none))
  | some t =>
    if t.kind = .ident then (readPath t.text).map fun path => (t.text, path, none)
    else if t.kind.isLiteral then
      let value := literalValue t.payload
      .ok (value.text, [], some value)
    else .error (.unexpected "a variable or literal" t.describe)

/-- The closing brace and nothing behind it. -/
def closed : List Token → Except ExpressionError Unit
  | [] => .error (.unexpected TokenKind.rightBrace.describe (describe none))
  | t :: rest =>
    if t.kind = .rightBrace then
      match rest with
      | [] => .ok ()
      | extra :: _ => .error (.unexpected TokenKind.eof.describe extra.describe)
    else .error (.unexpected TokenKind.rightBrace.describe t.describe)

/-- The expression of tokens that start with an opening brace. -/
def ofTokens (tokens : List Token) : Except ExpressionError Expression :=
  match tokens with
  | [] => .error (.unexpected TokenKind.leftBrace.describe (describe none))
  | brace :: rest =>
    if brace.kind = .leftBrace then do
      let (headText, path, literal) ← readHead rest.head?
      let (cs, rest) ← readCalls rest.tail
      closed rest
      return ⟨headText, path, literal, cs⟩
    else .error (.unexpected TokenKind.leftBrace.describe brace.describe)

/-- The text with its braces. -/
def bracedText (text : String) : String :=
  let trimmed := Text.trim text.toList
  match trimmed with
  | '\x7b' :: _ => String.ofList trimmed
  | _ => String.ofList ('\x7b' :: (trimmed ++ ['\x7d']))

/-- Reads an expression, with or without its braces. -/
def read (text : String) : Except ExpressionError Expression :=
  match tokenize (bracedText text) with
  | .error e => .error (.lexical e.fault)
  | .ok tokens => ofTokens (tokens.takeWhile (·.kind != .eof))

end Expression

def CallArgument.toJson (a : CallArgument) : Value :=
  Value.ofFields [("name", a.name.map .string), ("value", some a.value),
    ("reference", if a.reference then some (.bool true) else none)]

def FilterCall.toJson (c : FilterCall) : Value :=
  .object [("name", .string c.name), ("args", .array (c.arguments.map CallArgument.toJson))]

end BraceTemplate
