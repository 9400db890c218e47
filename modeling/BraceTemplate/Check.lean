import BraceTemplate.Check.Component
import BraceTemplate.Check.Escaping
import BraceTemplate.Check.FilterChain
import BraceTemplate.Check.Header
import BraceTemplate.Check.Names

/- Checking documents. The rules are a registry, a security mode and perhaps a target
   platform. How the text of an interpolation reads does not depend on the rules, so the
   checks are given the readings of the sites beside the document. -/
namespace BraceTemplate

variable [Formats]

structure Rules where
  registry : Registry
  mode : SecurityMode
  platform : Option String
  deriving Repr

/-- An interpolation with what its text reads as. -/
structure Reading where
  site : Interpolation
  result : Except ExpressionError Expression

/-- Reads the text of an interpolation. -/
def Interpolation.reading (i : Interpolation) : Reading := ⟨i, Expression.read i.raw⟩

namespace Rules

/-- The rules of a registry in the strict mode and for no particular platform. -/
def ofRegistry (r : Registry) : Rules := ⟨r, .strict, none⟩

def checkChain (rules : Rules) (e : Expression) : List Diagnostic :=
  e.checkCalls rules.registry rules.platform

def checkEscaping (rules : Rules) (raw : String) (e : Expression) : List Diagnostic :=
  e.checkEscaping rules.registry.isEscaping rules.mode raw

/-- The findings about an interpolation: its syntax, its filters and its escaping. -/
def checkSite (rules : Rules) (r : Reading) : List Diagnostic :=
  let findings :=
    match r.result with
    | .error e => [e.toDiagnostic]
    | .ok e => rules.checkChain e ++ rules.checkEscaping r.site.raw e
  findings.map fun d => (d.withNode "expression" r.site.raw).located r.site.pos

/-- The findings about the escaping of an interpolation; what cannot be read has none. -/
def checkSecurity (rules : Rules) (r : Reading) : List Diagnostic :=
  match r.result with
  | .error _ => []
  | .ok e =>
    (rules.checkEscaping r.site.raw e).map fun d =>
      (d.withNode "expression" r.site.raw).located r.site.pos

/-- The findings about the headers of a document. -/
def checkHeaders (rules : Rules) (p : Preamble) : List Diagnostic :=
  p.cms.toList.flatMap CmsHeader.check ++
    p.platform.toList.flatMap (PlatformHeader.check rules.registry)

/-- The findings about a document whose sites read as given, part after part. -/
def findings (rules : Rules) (d : Document) (readings : List Reading) : List Diagnostic :=
  d.checkNames ++ rules.checkHeaders d.preamble ++
    d.nodes.flatMap (Node.checkUse rules.registry rules.platform) ++
    readings.flatMap rules.checkSite

/-- The findings about a document, in the order of their positions. -/
def checkDocument (rules : Rules) (d : Document) : List Diagnostic :=
  Findings.sorted (rules.findings d (d.sites.map Interpolation.reading))

end Rules
end BraceTemplate
