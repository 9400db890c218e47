import Mathlib.Data.List.Basic
import BraceTemplate.Compile

/- Findings on their way into a compilation. Sorting them, showing lines of the source and
   splitting them by severity keeps what they say: a question about the severity, the code and
   the position of findings has the same answer for the errors of a compilation as for the
   findings of the checks (`Rules.countP_errors`). A document can be rendered when what its
   checks find is clean, that is, without errors (`Rules.isRenderable_iff`). -/
namespace BraceTemplate

namespace Diagnostic
variable (d : Diagnostic) (kind name : String) (pos : Position) (lines : List (List Char))

@[simp] theorem withNode_code : (d.withNode kind name).code = d.code := rfl

@[simp] theorem withNode_isError : (d.withNode kind name).isError = d.isError := rfl

@[simp] theorem withName_code : (d.withName name).code = d.code := rfl

@[simp] theorem withName_isError : (d.withName name).isError = d.isError := rfl

@[simp] theorem located_code : (d.located pos).code = d.code := rfl

@[simp] theorem located_isError : (d.located pos).isError = d.isError := rfl

@[simp] theorem located_pos : (d.located pos).pos = some pos := rfl

@[simp] theorem error_code (code : Code) (message : String) : (error code message).code = code.name :=
  rfl

@[simp] theorem error_isError (code : Code) (message : String) : (error code message).isError = true :=
  rfl

@[simp] theorem warning_code (code : Code) (message : String) :
    (warning code message).code = code.name := rfl

@[simp] theorem warning_isError (code : Code) (message : String) :
    (warning code message).isError = false := rfl

/-- A finding that is no error is a warning. -/
theorem isWarning_eq : d.isWarning = !d.isError := by
  cases hd : d.severity <;> simp [isWarning, isError, hd]

/-- A snippet changes nothing else. -/
theorem fillSnippet_keeps : (d.fillSnippet lines).severity = d.severity ∧
    (d.fillSnippet lines).code = d.code ∧ (d.fillSnippet lines).pos = d.pos := by
  unfold fillSnippet
  split <;> exact ⟨rfl, rfl, rfl⟩

end Diagnostic

namespace Findings
variable {α : Type} {ds ds' : List Diagnostic}

/-- No finding is an error. -/
def Clean (ds : List Diagnostic) : Prop := ∀ f ∈ ds, f.isError = false

@[simp] theorem clean_nil : Clean [] := fun _ hf => absurd hf List.not_mem_nil

@[simp] theorem clean_single {f : Diagnostic} : Clean [f] ↔ f.isError = false := by
  simp [Clean]

@[simp] theorem clean_append : Clean (ds ++ ds') ↔ Clean ds ∧ Clean ds' := by
  simp only [Clean, List.mem_append, or_imp, forall_and]

@[simp] theorem clean_ite {p : Prop} [Decidable p] :
    Clean (if p then ds else ds') ↔ (p → Clean ds) ∧ (¬ p → Clean ds') := by
  by_cases h : p <;> simp [h]

theorem clean_flatMap {check : α → List Diagnostic} {xs : List α} :
    Clean (xs.flatMap check) ↔ ∀ x ∈ xs, Clean (check x) := by
  constructor
  · exact fun h x hx f hf => h f (List.mem_flatMap.mpr ⟨x, hx, hf⟩)
  · intro h f hf
    obtain ⟨x, hx, hf⟩ := List.mem_flatMap.mp hf
    exact h x hx f hf

/-- What is said about findings in addition changes nothing. -/
theorem clean_map {g : Diagnostic → Diagnostic} (hg : ∀ f, (g f).isError = f.isError) :
    Clean (ds.map g) ↔ Clean ds := by
  simp only [Clean, List.mem_map, forall_exists_index, and_imp, forall_apply_eq_imp_iff₂, hg]

@[simp] theorem clean_withNode {kind name : String} :
    Clean (ds.map (·.withNode kind name)) ↔ Clean ds := clean_map fun _ => rfl

@[simp] theorem clean_located {pos : Position} : Clean (ds.map (·.located pos)) ↔ Clean ds :=
  clean_map fun _ => rfl

/-- Where every member is an error there must be none. -/
theorem clean_mapped {g : α → Diagnostic} (hg : ∀ x, (g x).isError = true) {xs : List α} :
    Clean (xs.map g) ↔ xs = [] := by
  cases xs with
  | nil => simp
  | cons x xs => simp [Clean, hg]

theorem firstError_eq_none : firstError ds = none ↔ Clean ds := by
  simp only [firstError, List.find?_eq_none, Clean, Bool.not_eq_true]

theorem sorted_perm (ds : List Diagnostic) : (sorted ds).Perm ds := List.mergeSort_perm ds inOrder

/-- Errors of some kind are counted before or after the source is shown. -/
theorem countP_fillSnippets {p : Diagnostic → Bool} (source : String) (ds : List Diagnostic)
    (hp : ∀ d lines, p (Diagnostic.fillSnippet lines d) = p d) :
    (fillSnippets source ds).countP p = ds.countP p := by
  rw [fillSnippets, List.countP_map]
  refine List.countP_congr fun d _ => ?_
  rw [Function.comp_apply, hp]

end Findings

variable [Formats]

/-- The findings of all checks of a document. -/
def Rules.allFindings (rules : Rules) (d : Document) : List Diagnostic :=
  rules.findings d (d.sites.map Interpolation.reading)

/-- What a source that has a document compiles to. -/
theorem Rules.compile_eq (rules : Rules) {source : String} {d : Document}
    (h : Document.parse source = .ok d) :
    rules.compile source = .ok (d.compiledWith rules.registry
      (Findings.fillSnippets source (rules.checkDocument d))) := by
  rw [compile, h]
  rfl

theorem Rules.compile_ok {rules : Rules} {source : String} {c : Compiled}
    (h : rules.compile source = .ok c) :
    ∃ d, Document.parse source = .ok d ∧ c = d.compiledWith rules.registry
      (Findings.fillSnippets source (rules.checkDocument d)) := by
  unfold compile at h
  cases hd : Document.parse source with
  | error e => rw [hd] at h; cases h
  | ok d =>
    rw [hd] at h
    exact ⟨d, rfl, (Except.ok.inj h).symm⟩

/-- The errors of a compilation with some code at some place are as many as the checks find. -/
theorem Rules.countP_errors (rules : Rules) (source : String) (d : Document)
    (p : String → Option Position → Bool) :
    (d.compiledWith rules.registry (Findings.fillSnippets source (rules.checkDocument d))).errors.countP
        (fun f => p f.code f.pos) =
      (rules.allFindings d).countP fun f => f.isError && p f.code f.pos := by
  show (Findings.errors _).countP _ = _
  rw [Findings.errors, List.countP_filter, Findings.countP_fillSnippets]
  · -- sorting permutes the findings
    refine ((Findings.sorted_perm _).countP_eq _).trans ?_
    refine List.countP_congr fun f _ => ?_
    rw [Bool.and_comm]
  · intro f lines
    obtain ⟨hseverity, hcode, hpos⟩ := f.fillSnippet_keeps lines
    simp only [Diagnostic.isError, hseverity, hcode, hpos]

/-- A compilation can be rendered when no check finds an error. -/
theorem Rules.isRenderable_iff (rules : Rules) (source : String) (d : Document) :
    (d.compiledWith rules.registry
      (Findings.fillSnippets source (rules.checkDocument d))).isRenderable = true ↔
      Findings.Clean (rules.allFindings d) := by
  have hcount := rules.countP_errors source d fun _ _ => true
  rw [List.countP_true] at hcount
  rw [Compiled.isRenderable, List.isEmpty_iff_length_eq_zero, hcount, List.countP_eq_zero]
  simp [Findings.Clean]

end BraceTemplate
