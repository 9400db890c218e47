import BraceTemplate.Json.Writer
import BraceTemplate.Token

/- The canonical spelling of an interpolation: a head and filter calls behind pipes, with
   arguments behind a colon and no blanks but those around a pipe. -/
namespace BraceTemplate
namespace Spelling

/-- A word or a literal, as a token gives it. -/
inductive Operand where
  | word (text : String)
  | literal (value : Payload)
  deriving DecidableEq, Repr

/-- An argument of a filter call, with a name or by its place. -/
structure Argument where
  name : Option String
  value : Operand
  deriving DecidableEq, Repr

structure Call where
  filter : String
  arguments : List Argument
  deriving DecidableEq, Repr

/-- The spelling of a literal that is read back as the same value. -/
def literalText (p : Payload) : String :=
  match p with
  | .str s => String.ofList (Json.Writer.quoted s)
  | .int n => toString n
  | .float x => x.fractionText
  | .bool b => toString b
  | .none => "null"

def Operand.text : Operand → String
  | .word s => s
  | .literal p => literalText p

/-- The operand that a token stands for. -/
def Operand.ofToken? (t : Token) : Option Operand :=
  if t.kind = .ident then some (.word t.text)
  else if t.kind.isLiteral then some (.literal t.payload)
  else none

def Argument.text (a : Argument) : String :=
  match a.name with
  | some name => name ++ "=" ++ a.value.text
  | none => a.value.text

def Call.text (c : Call) : String :=
  " | " ++ c.filter ++
    (if c.arguments.isEmpty then "" else ":" ++ ",".intercalate (c.arguments.map Argument.text))

end Spelling

/-- An interpolation as it is written. -/
structure Spelling where
  head : Spelling.Operand
  calls : List Spelling.Call
  deriving DecidableEq, Repr

def Spelling.text (s : Spelling) : String :=
  s.calls.foldl (fun text c => text ++ c.text) s.head.text

end BraceTemplate
