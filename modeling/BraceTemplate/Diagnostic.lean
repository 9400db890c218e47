import BraceTemplate.Diagnostic.Code
import BraceTemplate.Json.Record
import BraceTemplate.Position
import BraceTemplate.Text.Trim

/- Diagnostics: findings with a code, a severity, and optionally the node they are about, its
   position and the source line there. Line, column and offset are one field: a finding is made
   with all three of them or with none, and a record that has only some of them is read as a
   finding without a position. A list of findings is valid when none is an error. -/
namespace BraceTemplate

open Json

structure Diagnostic where
  severity : Severity
  code : String
  message : String
  /-- The kind and the name of the node that the finding is about. -/
  nodeKind : Option String
  nodeName : Option String
  pos : Option Position
  snippet : Option String
  deriving DecidableEq, Repr

namespace Diagnostic

def plain (severity : Severity) (code message : String) : Diagnostic :=
  ⟨severity, code, message, none, none, none, none⟩

def error (code : Code) (message : String) : Diagnostic := plain .error code.name message

def warning (code : Code) (message : String) : Diagnostic := plain .warning code.name message

def withNode (d : Diagnostic) (kind name : String) : Diagnostic :=
  { d with nodeKind := some kind, nodeName := some name }

/-- A finding that names a node without saying what kind of node it is. -/
def withName (d : Diagnostic) (name : String) : Diagnostic := { d with nodeName := some name }

def located (d : Diagnostic) (pos : Position) : Diagnostic := { d with pos := some pos }

def isError (d : Diagnostic) : Bool := d.severity == .error

def isWarning (d : Diagnostic) : Bool := d.severity == .warning

/-- The line of a position, trimmed; none when nothing is left. -/
def lineText (lines : List (List Char)) (pos : Position) : Option String :=
  match lines[pos.line - 1]? with
  | none => none
  | some line =>
    let text := Text.trim line
    if text.isEmpty then none else some (String.ofList text)

/-- Adds the line of the finding unless it has one already or has no position. -/
def fillSnippet (lines : List (List Char)) (d : Diagnostic) : Diagnostic :=
  match d.snippet, d.pos with
  | none, some pos => { d with snippet := lineText lines pos }
  | _, _ => d

/-- The finding as data; what is absent is left out. -/
def toJson (d : Diagnostic) : Value :=
  let text (s : Option String) : Option Value := s.map .string
  let count (f : Position → Nat) : Option Value := d.pos.map fun p => Value.ofNat (f p)
  Value.ofFields
    [("message", some (.string d.message)), ("code", some (.string d.code)),
     ("severity", some (.string d.severity.name)),
     ("node_kind", text d.nodeKind), ("node_name", text d.nodeName),
     ("line", count Position.line), ("column", count Position.column),
     ("offset", count Position.offset), ("snippet", text d.snippet)]

/-- Reads a finding back from data. -/
def ofTree? (t : Tree) : Option Diagnostic := do
  match ← t.record? [["message"], ["code"], ["severity"], ["node_kind"], ["node_name"], ["line"],
      ["column"], ["offset"], ["snippet"]] with
  | [message, code, severity, kind, name, line, column, offset, snippet] =>
    let message ← Tree.needed Tree.string? message
    let code ← Tree.needed Tree.string? code
    let severity ←
      Tree.needed (Tree.word? [("error", Severity.error), ("warning", Severity.warning)]) severity
    let kind ← Tree.maybe Tree.string? kind
    let name ← Tree.maybe Tree.string? name
    let line ← Tree.maybe Tree.count? line
    let column ← Tree.maybe Tree.count? column
    let offset ← Tree.maybe Tree.count? offset
    let snippet ← Tree.maybe Tree.string? snippet
    let pos : Option Position := do return ⟨← line, ← column, ← offset⟩
    return ⟨severity, code, message, kind, name, pos, snippet⟩
  | _ => none

end Diagnostic

/-! Lists of findings. -/

namespace Findings

def isValid (ds : List Diagnostic) : Bool := !ds.any Diagnostic.isError

def hasWarnings (ds : List Diagnostic) : Bool := ds.any Diagnostic.isWarning

def errors (ds : List Diagnostic) : List Diagnostic := ds.filter Diagnostic.isError

def warnings (ds : List Diagnostic) : List Diagnostic := ds.filter Diagnostic.isWarning

/-- The first error, on which a check that stops at errors fails. -/
def firstError (ds : List Diagnostic) : Option Diagnostic := ds.find? Diagnostic.isError

/-- The findings with the lines of the source that they are about. -/
def fillSnippets (source : String) (ds : List Diagnostic) : List Diagnostic :=
  let lines := Text.lines source.toList
  ds.map (Diagnostic.fillSnippet lines)

/-- Whether a finding may stand before another. -/
def inOrder (a b : Diagnostic) : Bool :=
  match a.pos, b.pos with
  | _, none => true
  | none, some _ => false
  | some p, some q => p.offset ≤ q.offset

/-- The findings in the order of the source; what has no position comes last, and what has
    the same position stays in its order. -/
def sorted (ds : List Diagnostic) : List Diagnostic := ds.mergeSort inOrder

def toJson (ds : List Diagnostic) : Value :=
  .object [("valid", .bool (isValid ds)), ("errors", .array (ds.map Diagnostic.toJson))]

/-- The findings as a record of their own. -/
def recordJson (ds : List Diagnostic) : Value :=
  .object [("errors", .array (ds.map Diagnostic.toJson))]

/-- Reads the record of findings back. -/
def ofTree? (t : Tree) : Option (List Diagnostic) := do
  match ← t.record? [["errors"]] with
  | [errors] => Tree.needed (Tree.list? Diagnostic.ofTree?) errors
  | _ => none

end Findings

end BraceTemplate
