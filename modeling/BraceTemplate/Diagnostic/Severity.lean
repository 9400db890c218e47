/- How serious a diagnostic is: an error keeps a document from being rendered, a warning is
   only reported. -/
namespace BraceTemplate

inductive Severity where
  | error
  | warning
  deriving DecidableEq, Repr, Inhabited

def Severity.name : Severity → String
  | .error => "error"
  | .warning => "warning"

end BraceTemplate
