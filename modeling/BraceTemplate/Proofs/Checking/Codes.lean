import BraceTemplate.Proofs.Checking.Findings

/- What each family of checks reports: findings with certain codes, and with no line of a source
   before one is shown. The families share no code but that of an argument, so a code tells which
   check a finding comes from. -/
namespace BraceTemplate

/-- The finding has the code, and shows no line yet. -/
structure Diagnostic.Reports (f : Diagnostic) (c : Code) : Prop where
  code : f.code = c.name
  bare : f.snippet = none

/-- All findings report one of the codes. -/
def Findings.Among (codes : List Code) (ds : List Diagnostic) : Prop :=
  ∀ f ∈ ds, ∃ c ∈ codes, f.Reports c

namespace Findings.Among
variable {codes codes' : List Code} {ds ds' : List Diagnostic}

theorem nil : Among codes [] := fun _ hf => absurd hf List.not_mem_nil

theorem single {f : Diagnostic} {c : Code} (hc : c ∈ codes) (hf : f.Reports c) :
    Among codes [f] := by
  intro g hg
  obtain rfl := List.mem_singleton.mp hg
  exact ⟨c, hc, hf⟩

theorem append (h : Among codes ds) (h' : Among codes ds') : Among codes (ds ++ ds') := by
  intro f hf
  rcases List.mem_append.mp hf with hf | hf
  · exact h f hf
  · exact h' f hf

theorem flatMap {α : Type} {xs : List α} {check : α → List Diagnostic}
    (h : ∀ x ∈ xs, Among codes (check x)) : Among codes (xs.flatMap check) := by
  intro f hf
  obtain ⟨x, hx, hf⟩ := List.mem_flatMap.mp hf
  exact h x hx f hf

/-- A change that leaves codes and lines alone. -/
theorem map {change : Diagnostic → Diagnostic}
    (hchange : ∀ f c, f.Reports c → (change f).Reports c) (h : Among codes ds) :
    Among codes (ds.map change) := by
  intro f hf
  obtain ⟨g, hg, rfl⟩ := List.mem_map.mp hf
  obtain ⟨c, hc, hreports⟩ := h g hg
  exact ⟨c, hc, hchange g c hreports⟩

theorem mapped {α : Type} {xs : List α} {check : α → Diagnostic} {c : Code} (hc : c ∈ codes)
    (h : ∀ x ∈ xs, (check x).Reports c) : Among codes (xs.map check) := by
  intro f hf
  obtain ⟨x, hx, rfl⟩ := List.mem_map.mp hf
  exact ⟨c, hc, h x hx⟩

theorem mono (h : Among codes ds) (hsub : ∀ c ∈ codes, c ∈ codes') : Among codes' ds := by
  intro f hf
  obtain ⟨c, hc, hf⟩ := h f hf
  exact ⟨c, hsub c hc, hf⟩

end Findings.Among

open Findings (Among)

/-! Names. -/

def nameCodes : List Code := [.invalidTagName, .invalidAttributeName, .reservedWord]

theorem Tag.checkNames_among (t : Tag) : Among nameCodes t.checkNames := by
  refine Among.map (fun _ _ h => ⟨h.code, h.bare⟩) (Among.append (Among.map (fun _ _ h => ⟨h.code, h.bare⟩) ?_) (Among.flatMap ?_))
  · unfold checkName
    split
    · exact Among.single (c := .invalidTagName) (by decide) ⟨rfl, rfl⟩
    · split
      · exact Among.single (c := .reservedWord) (by decide) ⟨rfl, rfl⟩
      · exact Among.nil
  · intro a _
    refine Among.map (fun _ _ h => ⟨h.code, h.bare⟩) ?_
    unfold checkAttrName
    split
    · exact Among.single (c := .invalidAttributeName) (by decide) ⟨rfl, rfl⟩
    · split
      · exact Among.single (c := .reservedWord) (by decide) ⟨rfl, rfl⟩
      · exact Among.nil

/-! Headers. -/

def headerCodes : List Code :=
  [.missingHeaderType, .unknownCms, .invalidCmsSet, .unknownPlatformType, .unknownPlatformTarget,
   .invalidVersion]

theorem CmsHeader.check_among (h : CmsHeader) : Among headerCodes h.check := by
  refine Among.map (fun _ _ h => ⟨h.code, h.bare⟩) (Among.append ?_ ?_)
  · unfold typeFindings
    split
    · exact Among.single (c := .missingHeaderType) (by decide) ⟨rfl, rfl⟩
    · split
      · exact Among.nil
      · exact Among.single (c := .unknownCms) (by decide) ⟨rfl, rfl⟩
  · exact Among.mapped (c := .invalidCmsSet) (by decide) fun _ _ => ⟨rfl, rfl⟩

theorem PlatformHeader.check_among (r : Registry) (h : PlatformHeader) :
    Among headerCodes (h.check r) := by
  refine Among.map (fun _ _ h => ⟨h.code, h.bare⟩) (Among.append (Among.append ?_ ?_) ?_)
  · unfold typeFindings
    split
    · exact Among.single (c := .missingHeaderType) (by decide) ⟨rfl, rfl⟩
    · split
      · exact Among.nil
      · exact Among.single (c := .unknownPlatformType) (by decide) ⟨rfl, rfl⟩
  · exact Among.mapped (c := .unknownPlatformTarget) (by decide) fun _ _ => ⟨rfl, rfl⟩
  · unfold versionFindings
    split
    · exact Among.nil
    · split
      · exact Among.nil
      · exact Among.single (c := .invalidVersion) (by decide) ⟨rfl, rfl⟩

theorem Rules.checkHeaders_among (rules : Rules) (p : Preamble) :
    Among headerCodes (rules.checkHeaders p) :=
  Among.append (Among.flatMap fun h _ => h.check_among)
    (Among.flatMap fun h _ => h.check_among rules.registry)

/-! Uses of components. -/

/-- The codes of findings about a value that is present. -/
def presentCodes : List Code :=
  [.unknownType, .typeMismatch, .stringTooShort, .stringTooLong, .invalidEnumValue,
   .patternMismatch, .invalidPattern]

/-- The codes of findings about a value. -/
def valueCodes : List Code := .requiredValueMissing :: presentCodes

namespace Schema
open Json

theorem lengthFindings_among (s : Schema) (subject : String) (v : Value) :
    Among presentCodes (s.lengthFindings subject v) := by
  unfold lengthFindings
  split
  · exact Among.nil
  · refine Among.append ?_ ?_
    · split
      · split
        · exact Among.single (c := .stringTooShort) (by decide) ⟨rfl, rfl⟩
        · exact Among.nil
      · exact Among.nil
    · split
      · split
        · exact Among.single (c := .stringTooLong) (by decide) ⟨rfl, rfl⟩
        · exact Among.nil
      · exact Among.nil

theorem choiceFindings_among (s : Schema) (subject : String) (v : Value) :
    Among presentCodes (s.choiceFindings subject v) := by
  unfold choiceFindings
  split
  · exact Among.nil
  · split
    · exact Among.nil
    · exact Among.single (c := .invalidEnumValue) (by decide) ⟨rfl, rfl⟩

variable [Formats]

theorem patternFindings_among (s : Schema) (subject : String) (v : Value) :
    Among presentCodes (s.patternFindings subject v) := by
  unfold patternFindings
  split
  · exact Among.nil
  · exact Among.nil
  · exact Among.nil
  · split
    · split
      · exact Among.nil
      · exact Among.single (c := .patternMismatch) (by decide) ⟨rfl, rfl⟩
    · exact Among.single (c := .invalidPattern) (by decide) ⟨rfl, rfl⟩

theorem checkPresent_among (s : Schema) (subject : String) (v : Value) :
    Among presentCodes (s.checkPresent subject v) := by
  unfold checkPresent
  simp only
  split
  · exact Among.mapped (c := .unknownType) (by decide) fun _ _ => ⟨rfl, rfl⟩
  · split
    · exact Among.single (c := .typeMismatch) (by decide) ⟨rfl, rfl⟩
    · exact Among.append (Among.append (lengthFindings_among _ _ _) (choiceFindings_among _ _ _))
        (patternFindings_among _ _ _)

theorem check_among (s : Schema) (subject : String) (value : Option Value) :
    Among valueCodes (s.check subject value) := by
  have hmissing : Among valueCodes (check.missing s subject) := by
    unfold check.missing
    split
    · exact Among.single (c := .requiredValueMissing) (by decide) ⟨rfl, rfl⟩
    · exact Among.nil
  unfold check
  split
  · split
    · exact hmissing
    · exact (checkPresent_among _ _ _).mono fun c hc => List.mem_cons_of_mem _ hc
  · exact hmissing

end Schema

def useCodes : List Code :=
  [.unknownComponent, .componentPlatformIncompatible, .missingRequiredProp, .leafComponentChildren,
   .unknownType, .invalidPropType, .stringTooShort, .stringTooLong, .invalidEnumValue,
   .patternMismatch, .invalidPattern]

/-- The codes of findings about the use of a component that is there on every platform. -/
def foundUseCodes : List Code :=
  [.missingRequiredProp, .leafComponentChildren, .unknownType, .invalidPropType, .stringTooShort,
   .stringTooLong, .invalidEnumValue, .patternMismatch, .invalidPattern]

namespace Component

theorem propFinding?_among {ds : List Diagnostic} (h : Among valueCodes ds) :
    Among foundUseCodes (ds.filterMap propFinding?) := by
  intro f hf
  obtain ⟨g, hg, hfinding⟩ := List.mem_filterMap.mp hf
  obtain ⟨c, hc, hreports⟩ := h g hg
  unfold propFinding? at hfinding
  split at hfinding
  · cases hfinding
  · rename_i hmissing
    split at hfinding
    · cases hfinding
      exact ⟨.invalidPropType, by decide, rfl, hreports.bare⟩
    · rename_i hmismatch
      cases hfinding
      refine ⟨c, ?_, hreports⟩
      rw [hreports.code] at hmissing hmismatch
      have hothers : ∀ c ∈ valueCodes, c.name ≠ Code.requiredValueMissing.name →
          c.name ≠ Code.typeMismatch.name → c ∈ foundUseCodes := by decide
      exact hothers c hc hmissing hmismatch

variable (c : Component) (platform : Option String) (t : Tag) (content : List Node)

theorem checkPlatform_among : Among [.componentPlatformIncompatible] (c.checkPlatform t platform) := by
  unfold checkPlatform
  split
  · exact Among.nil
  · split
    · exact Among.nil
    · exact Among.single (c := .componentPlatformIncompatible) (by decide) ⟨rfl, rfl⟩

variable [Formats]

/-- A target platform adds its own findings in front of the others. -/
theorem check_eq : c.check platform t content =
    (c.checkPlatform t platform).map (·.withNode "tag" t.name) ++ c.check none t content := by
  simp only [check, List.map_append, List.append_assoc]
  rfl

/-- Without a target platform nothing is reported about one, and the component is there. -/
theorem check_general_among : Among foundUseCodes (c.check none t content) := by
  refine Among.append (Among.map (fun _ _ h => ⟨h.code, h.bare⟩) (Among.append ?_ ?_))
    (Among.flatMap fun a _ => ?_)
  · exact Among.mapped (c := .missingRequiredProp) (by decide) fun _ _ => ⟨rfl, rfl⟩
  · unfold checkContent
    split
    · exact Among.single (c := .leafComponentChildren) (by decide) ⟨rfl, rfl⟩
    · exact Among.nil
  · unfold checkAttr
    split
    · exact Among.map (fun _ _ h => ⟨h.code, h.bare⟩) (propFinding?_among (Schema.check_among _ _ _))
    · exact Among.nil

theorem check_among : Among useCodes (c.check platform t content) := by
  rw [check_eq]
  refine Among.append (Among.map (fun _ _ h => ⟨h.code, h.bare⟩) ?_) ?_
  · exact (c.checkPlatform_among platform t).mono (by decide)
  · exact (c.check_general_among t content).mono (by decide)

end Component

theorem Node.checkUse_among [Formats] (r : Registry) (platform : Option String) (n : Node) :
    Among useCodes (n.checkUse r platform) := by
  cases n with
  | tag t content =>
    refine Among.map (fun _ _ h => ⟨h.code, h.bare⟩) ?_
    split
    · exact Among.single (c := .unknownComponent) (by decide) ⟨rfl, rfl⟩
    · exact Component.check_among _ _ _ _
  | document _ _ => exact Among.nil
  | text _ _ => exact Among.nil
  | comment _ _ => exact Among.nil
  | interpolation _ => exact Among.nil

/-! Filter chains. -/

def chainCodes : List Code :=
  [.unknownFilter, .filterPlatformIncompatible, .missingFilterParameter, .invalidFilterArgument,
   .tooManyFilterArguments]

/-- The codes of findings about the arguments of a call. -/
def argumentCodes : List Code :=
  [.missingFilterParameter, .invalidFilterArgument, .tooManyFilterArguments]

namespace FilterCall
variable (c : FilterCall) (spec : FilterSpec)

theorem checkParameter_among [Formats] (place : Nat) (p : Parameter) :
    Among argumentCodes (c.checkParameter spec place p) := by
  unfold checkParameter
  split
  · split
    · exact Among.single (c := .missingFilterParameter) (by decide) ⟨rfl, rfl⟩
    · exact Among.nil
  · split
    · exact Among.nil
    · exact Among.single (c := .invalidFilterArgument) (by decide) ⟨rfl, rfl⟩

theorem checkSurplus_among : Among argumentCodes (c.checkSurplus spec) := by
  refine Among.append ?_ ?_
  · split
    · exact Among.single (c := .tooManyFilterArguments) (by decide) ⟨rfl, rfl⟩
    · exact Among.nil
  · intro f hf
    obtain ⟨a, _, hfinding⟩ := List.mem_filterMap.mp hf
    split at hfinding
    · cases hfinding
    · split at hfinding
      · cases hfinding
      · cases hfinding
        exact ⟨.invalidFilterArgument, by decide, rfl, rfl⟩

theorem checkArguments_among [Formats] : Among argumentCodes (c.checkArguments spec) :=
  Among.append (Among.flatMap fun p _ => c.checkParameter_among spec p.2 p.1)
    (c.checkSurplus_among spec)

theorem checkPlatform_among (platform : Option String) :
    Among [.filterPlatformIncompatible] (c.checkPlatform spec platform) := by
  unfold checkPlatform
  split
  · exact Among.nil
  · split
    · exact Among.nil
    · exact Among.single (c := .filterPlatformIncompatible) (by decide) ⟨rfl, rfl⟩

theorem check_among [Formats] (r : Registry) (platform : Option String) :
    Among chainCodes (c.check r platform) := by
  unfold check
  split
  · exact Among.single (c := .unknownFilter) (by decide) ⟨rfl, rfl⟩
  · exact Among.append ((c.checkPlatform_among _ platform).mono (by decide))
      ((c.checkArguments_among _).mono (by decide))

end FilterCall

theorem Rules.checkChain_among [Formats] (rules : Rules) (e : Expression) :
    Among chainCodes (rules.checkChain e) :=
  Among.flatMap fun c _ => c.check_among rules.registry rules.platform

/-! Interpolations. -/

theorem ExpressionError.toDiagnostic_among (e : ExpressionError) :
    Among [.expressionSyntax, .invalidVariablePath] [e.toDiagnostic] :=
  Among.single (c := e.code) (by cases e <;> simp [ExpressionError.code]) ⟨rfl, rfl⟩

theorem Rules.checkEscaping_among (rules : Rules) (raw : String) (e : Expression) :
    Among [.missingEscaping] (rules.checkEscaping raw e) := by
  unfold checkEscaping Expression.checkEscaping
  split
  · exact Among.nil
  · exact Among.single (c := .missingEscaping) (by decide) ⟨rfl, rfl⟩

end BraceTemplate
