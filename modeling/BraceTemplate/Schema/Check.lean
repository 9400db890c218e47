import BraceTemplate.Diagnostic
import BraceTemplate.Schema
import BraceTemplate.Schema.TypeExpr
import BraceTemplate.Text.Case

/- Checking values against schemas. The type is checked first; length, choices and pattern
   only of a value that has the type. -/
namespace BraceTemplate
namespace Schema

open Json

variable [Formats]

/-- The subject of a message at the start of a sentence. -/
def capitalized (s : String) : String :=
  match s.toList with
  | [] => ""
  | c :: rest => String.ofList (Text.upperChar c ++ rest)

/-- Membership among choices, where a scalar is the same as its text. -/
def isChoice (choices : List Value) (v : Value) : Bool :=
  choices.any fun c =>
    c.same v ||
      (match c with
        | .array _ => false
        | .object _ => false
        | c => c.display == v.display)

/-- What is counted by a length constraint: characters or items. -/
def measure? : Value → Option Nat
  | .string s => some s.toList.length
  | .array items => some items.length
  | _ => none

def lengthFindings (s : Schema) (subject : String) (v : Value) : List Diagnostic :=
  match measure? v with
  | none => []
  | some n =>
    (match s.minLength with
      | some least =>
        if n < least then
          [Diagnostic.error .stringTooShort
            (capitalized subject ++ " must be at least " ++ toString least ++ " characters long")]
        else []
      | none => []) ++
    (match s.maxLength with
      | some most =>
        if most < n then
          [Diagnostic.error .stringTooLong
            (capitalized subject ++ " must be at most " ++ toString most ++ " characters long")]
        else []
      | none => [])

def choiceFindings (s : Schema) (subject : String) (v : Value) : List Diagnostic :=
  match s.choices with
  | none => []
  | some choices =>
    if isChoice choices v then []
    else
      [Diagnostic.error .invalidEnumValue
        (capitalized subject ++ " must be one of: " ++ ", ".intercalate (choices.map Value.display) ++
          " (got '" ++ v.display ++ "')")]

/-- Arrays and objects have no text that a pattern could match. -/
def patternFindings (s : Schema) (subject : String) (v : Value) : List Diagnostic :=
  match s.pattern, v with
  | none, _ => []
  | some _, .array _ => []
  | some _, .object _ => []
  | some pattern, v =>
    match Formats.pattern pattern with
    | .ok holds =>
      if holds v.display.toList then []
      else
        [Diagnostic.error .patternMismatch
          (capitalized subject ++ " does not match pattern '" ++ pattern ++ "'")]
    | .error reason =>
      [Diagnostic.error .invalidPattern
        ("Invalid pattern '" ++ pattern ++ "' declared for " ++ subject ++ ": " ++ reason)]

/-- The findings about a value that is present. -/
def checkPresent (s : Schema) (subject : String) (v : Value) : List Diagnostic :=
  let unknown := TypeExpr.unknown s.typeExpr
  if !unknown.isEmpty then
    unknown.map fun name =>
      Diagnostic.error .unknownType ("Unknown type '" ++ name ++ "' declared for " ++ subject)
  else if !TypeExpr.accepts s.typeExpr v then
    [Diagnostic.error .typeMismatch
      (capitalized subject ++ " must be of type " ++ s.typeExpr ++ ", got " ++ v.kindName)]
  else lengthFindings s subject v ++ choiceFindings s subject v ++ patternFindings s subject v

/-- The findings about a value; null is as good as absent. -/
def check (s : Schema) (subject : String) (value : Option Value) : List Diagnostic :=
  match value with
  | some v =>
    if v.isNull then missing else checkPresent s subject v
  | none => missing
where
  missing : List Diagnostic :=
    if s.required then
      [Diagnostic.error .requiredValueMissing (capitalized subject ++ " is required")]
    else []

/-- The findings about a value that has no name of its own. -/
def checkValue (s : Schema) (value : Option Value) : List Diagnostic := check s "value" value

/-- The value after defaults and coercion, or the first error about it. -/
def normalize (s : Schema) (value : Option Value) : Except Diagnostic Value :=
  match value.filter (!·.isNull) with
  | none =>
    if s.required then .error (Diagnostic.error .requiredValueMissing "Value is required")
    else .ok (s.fallback.getD .null)
  | some v =>
    let coerced := TypeExpr.coerce s.typeExpr v
    match Findings.firstError (checkValue s (some coerced)) with
    | some e => .error e
    | none => .ok coerced

end Schema
end BraceTemplate
