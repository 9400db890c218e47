import BraceTemplate.Check

/- A checker holds rules and remembers the expressions that it has read, so that a text that
   occurs again is not read again. Only texts that read as expressions are remembered, each with
   whether its filters escape it, which the registry is asked once. -/
namespace BraceTemplate

variable [Formats]

/-- An expression that was read with a registry. -/
structure KnownExpression where
  expression : Expression
  /-- Whether a filter of the chain is an escaping one. -/
  escapes : Bool
  deriving Repr

/-- Reads an expression and settles whether its filters escape it. -/
def Registry.know (r : Registry) (text : String) : Except ExpressionError KnownExpression :=
  (Expression.read text).map fun e => ⟨e, e.escapes r.isEscaping⟩

/-- An interpolation with what is known of its text. -/
structure KnownSite where
  site : Interpolation
  result : Except ExpressionError KnownExpression

namespace Rules

/-- The finding about a known expression that nothing escapes. -/
def checkKnownEscaping (rules : Rules) (raw : String) (k : KnownExpression) : List Diagnostic :=
  -- the registry is not asked again, so here no filter counts
  if k.escapes then [] else k.expression.checkEscaping (fun _ => false) rules.mode raw

/-- The findings about an interpolation: its syntax, its filters and its escaping. -/
def checkKnown (rules : Rules) (k : KnownSite) : List Diagnostic :=
  let findings :=
    match k.result with
    | .error e => [e.toDiagnostic]
    | .ok e => rules.checkChain e.expression ++ rules.checkKnownEscaping k.site.raw e
  findings.map fun d => (d.withNode "expression" k.site.raw).located k.site.pos

/-- The findings about the escaping of an interpolation; what cannot be read has none. -/
def checkKnownSecurity (rules : Rules) (k : KnownSite) : List Diagnostic :=
  match k.result with
  | .error _ => []
  | .ok e =>
    (rules.checkKnownEscaping k.site.raw e).map fun d =>
      (d.withNode "expression" k.site.raw).located k.site.pos

end Rules

structure Checker where
  rules : Rules
  /-- The expressions read so far, by their texts. -/
  known : List (String × KnownExpression)

namespace Checker

def ofRules (rules : Rules) : Checker := ⟨rules, []⟩

def setMode (c : Checker) (mode : SecurityMode) : Checker :=
  { c with rules := { c.rules with mode } }

def setPlatform (c : Checker) (platform : Option String) : Checker :=
  { c with rules := { c.rules with platform } }

def forget (c : Checker) : Checker := { c with known := [] }

/-- The number of expressions that are remembered. -/
def knownCount (c : Checker) : Nat := c.known.length

/-- Reads a text, or remembers how it read before. -/
def recallText (c : Checker) (text : String) : Except ExpressionError KnownExpression × Checker :=
  match Table.lookup text c.known with
  | some k => (.ok k, c)
  | none =>
    match c.rules.registry.know text with
    | .ok k => (.ok k, { c with known := c.known ++ [(text, k)] })
    | .error err => (.error err, c)

/-- The expression that a text reads as. -/
def read (c : Checker) (text : String) : Except ExpressionError Expression × Checker :=
  let (result, c) := c.recallText text
  (result.map KnownExpression.expression, c)

/-- Reads the texts of interpolations, one after the other. -/
def recallSites (c : Checker) : List Interpolation → List KnownSite × Checker
  | [] => ([], c)
  | i :: rest =>
    let (result, c) := c.recallText i.raw
    let (sites, c) := c.recallSites rest
    (⟨i, result⟩ :: sites, c)

/-! Checks that read expressions. The first error of the findings, if there is one, is what a
    check that stops at errors fails with. -/

def checkSite (c : Checker) (i : Interpolation) : List Diagnostic × Checker :=
  let (result, c) := c.recallText i.raw
  (c.rules.checkKnown ⟨i, result⟩, c)

/-- The findings about the escaping of a document, in the order of its sites. -/
def checkSecurity (c : Checker) (d : Document) : List Diagnostic × Checker :=
  let (sites, c) := c.recallSites d.sites
  (sites.flatMap c.rules.checkKnownSecurity, c)

/-- The findings about a document, in the order of their positions. -/
def checkDocument (c : Checker) (d : Document) : List Diagnostic × Checker :=
  let (sites, c) := c.recallSites d.sites
  (Findings.sorted (c.rules.findings d [] ++ sites.flatMap c.rules.checkKnown), c)

end Checker
end BraceTemplate
