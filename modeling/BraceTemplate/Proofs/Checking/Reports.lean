import BraceTemplate.Proofs.Checking.Memory
import BraceTemplate.Proofs.Checking.Options

/- Two ways to ask about escaping. The check of security looks at escaping alone, site after site;
   the check of a document looks at everything and puts its findings in the order of their
   positions. The code of a finding tells which check reports it, so of the findings about one
   interpolation those about escaping are picked by their code (`Rules.checkSite_escaping`), and
   with them those of a document. As sorting is stable, it does not matter whether they are sorted
   before or after they are picked, and both ways report the same
   (`Checker.security_reports`). -/
namespace BraceTemplate

/-- The finding is about output that is not escaped. -/
def Diagnostic.isEscaping (f : Diagnostic) : Bool := f.code = Code.missingEscaping.name

namespace Findings

/-- Findings are picked before they are sorted or afterwards. -/
theorem sorted_filter (p : Diagnostic → Bool) (ds : List Diagnostic) :
    sorted (ds.filter p) = (sorted ds).filter p := by
  simp only [← List.filterMap_eq_filter]
  refine sorted_filterMap (fun f f' hf => ?_) ds
  obtain ⟨rfl, -⟩ := Option.guard_eq_some_iff.mp hf
  rfl

/-- Checks with other codes say nothing about escaping. -/
theorem Among.filter_isEscaping {codes : List Code} {ds : List Diagnostic} (h : Among codes ds)
    (hcodes : ∀ c ∈ codes, c.name ≠ Code.missingEscaping.name) : ds.filter (·.isEscaping) = [] := by
  refine List.filter_eq_nil_iff.mpr fun f hf hescaping => ?_
  obtain ⟨c, hc, hreports⟩ := h f hf
  exact hcodes c hc (hreports.code.symm.trans (of_decide_eq_true hescaping))

theorem Among.filter_isEscaping_self {ds : List Diagnostic} (h : Among [.missingEscaping] ds) :
    ds.filter (·.isEscaping) = ds := by
  refine List.filter_eq_self.mpr fun f hf => ?_
  obtain ⟨c, hc, hreports⟩ := h f hf
  rw [List.mem_singleton.mp hc] at hreports
  exact decide_eq_true hreports.code

end Findings

namespace Rules
variable [Formats] (rules : Rules)

/-- What is said about escaping among all that is said about an interpolation. -/
theorem checkSite_escaping (i : Interpolation) :
    (rules.checkSite i.reading).filter (·.isEscaping) = rules.checkSecurity i.reading := by
  have hnote : ∀ ds : List Diagnostic,
      (ds.map fun f => (f.withNode "expression" i.raw).located i.pos).filter (·.isEscaping) =
        (ds.filter (·.isEscaping)).map fun f => (f.withNode "expression" i.raw).located i.pos :=
    fun ds => List.filter_map
  cases hread : Expression.read i.raw with
  | error e =>
    simp only [checkSite, checkSecurity, Interpolation.reading, hread]
    rw [hnote, e.toDiagnostic_among.filter_isEscaping (by decide), List.map_nil]
  | ok e =>
    simp only [checkSite, checkSecurity, Interpolation.reading, hread]
    rw [hnote, List.filter_append, (rules.checkChain_among e).filter_isEscaping (by decide),
      (rules.checkEscaping_among i.raw e).filter_isEscaping_self, List.nil_append]

/-- What is said about escaping among all that is said about a document. -/
theorem allFindings_escaping (d : Document) :
    (rules.allFindings d).filter (·.isEscaping) =
      d.sites.flatMap fun i => rules.checkSecurity i.reading := by
  have hnames : Findings.Among nameCodes d.checkNames := .flatMap fun t _ => t.checkNames_among
  have huses : Findings.Among useCodes
      (d.nodes.flatMap (Node.checkUse rules.registry rules.platform)) :=
    .flatMap fun n _ => n.checkUse_among rules.registry rules.platform
  rw [allFindings, findings, List.filter_append, List.filter_append, List.filter_append,
    hnames.filter_isEscaping (by decide),
    (rules.checkHeaders_among d.preamble).filter_isEscaping (by decide),
    huses.filter_isEscaping (by decide), List.flatMap_map, List.filter_flatMap]
  exact congrArg d.sites.flatMap (funext rules.checkSite_escaping)

theorem checkDocument_escaping (d : Document) :
    (rules.checkDocument d).filter (·.isEscaping) =
      Findings.sorted (d.sites.flatMap fun i => rules.checkSecurity i.reading) := by
  rw [← allFindings_escaping, Findings.sorted_filter]
  rfl

end Rules

/-- Whatever a checker was asked before, it finds the same about escaping when it is asked for the
    security of a document and when it is asked for the whole document: the findings of the former,
    put in the order of their positions, are those of the latter that are about escaping. So
    where the security is refused, the document is refused as well. -/
theorem Checker.security_reports [Formats] (rules : Rules) (ops : List Operation) (d : Document) :
    Findings.sorted ((((ofRules rules).run ops).2.inspect (.security d)).1) =
        (((ofRules rules).run ops).2.inspect (.document d)).1.filter
          (fun f => f.code = Code.missingEscaping.name) ∧
      ∀ f, (((ofRules rules).run ops).2.perform (.refuse (.security d))).1 = .refusal (some f) →
        ∃ g, (((ofRules rules).run ops).2.perform (.refuse (.document d))).1 = .refusal (some g) := by
  obtain ⟨-, -, hremembers⟩ := (Remembers.fresh rules).run ops
  generalize ((ofRules rules).run ops).2 = c at hremembers
  have hsame := c.rules.checkDocument_escaping d
  refine ⟨?_, fun f hf => ?_⟩
  · rw [(hremembers.inspect (.security d)).1, (hremembers.inspect (.document d)).1]
    exact hsame.symm
  · rw [perform_answer hremembers] at hf ⊢
    have hfirst := Answer.refusal.inj hf
    -- the error is among the findings about the document
    have hsorted := (Findings.sorted_perm _).mem_iff.mpr (List.mem_of_find?_eq_some hfirst)
    have hmem : f ∈ c.rules.checkDocument d := (List.mem_filter.mp (hsame.symm ▸ hsorted)).1
    have herror : (Findings.firstError (c.rules.checkDocument d)).isSome = true :=
      List.find?_isSome.mpr ⟨f, hmem, List.find?_some hfirst⟩
    obtain ⟨g, hg⟩ := Option.isSome_iff_exists.mp herror
    exact ⟨g, congrArg Answer.refusal hg⟩

end BraceTemplate
