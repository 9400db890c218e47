import BraceTemplate.Diagnostic
import BraceTemplate.Document.Builder

/- A source text without a document is reported as one finding at the place of the fault. -/
namespace BraceTemplate
namespace TemplateError

def code : TemplateError → Code
  | .lexical _ => .lexError
  | .structural _ => .parseError

def toDiagnostic (e : TemplateError) : Diagnostic :=
  let message :=
    match e with
    | .lexical f => f.fault.message
    | .structural f => f.fault.message
  (Diagnostic.error e.code message).located e.pos

end TemplateError
end BraceTemplate
