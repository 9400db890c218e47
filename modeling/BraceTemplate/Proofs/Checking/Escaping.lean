import BraceTemplate.Proofs.Checking.Codes
import BraceTemplate.Proofs.Checking.Normalize
import BraceTemplate.Proofs.Parsing.Places

/- The strict mode refuses exactly the interpolations that are not escaped. An interpolation
   that cannot be read, or has no escaping filter, is reported by one error at its place, and
   one that escapes by none; nothing else is reported there with one of these codes, because
   no two interpolations stand at one place. So a document without errors escapes all of its
   output, also after its attributes are normalised (`Rules.compile_escapes`). -/
namespace BraceTemplate

open Findings (Among)

/-- The interpolation reads, and the registry holds a filter of its chain as escaping. -/
def Registry.Escapes (r : Registry) (i : Interpolation) : Prop :=
  ∃ e, Expression.read i.raw = .ok e ∧
    ∃ c ∈ e.calls, ∃ spec, r.filter? c.name = some spec ∧ spec.escaping = true

/-- The codes of findings about how an interpolation reads and whether it is escaped. -/
def breachCodes : List Code := [.missingEscaping, .expressionSyntax, .invalidVariablePath]

def isBreach (code : String) : Bool := (breachCodes.map Code.name).contains code

/-- A finding about reading or escaping at a place. -/
def isBreachAt (pos : Position) (code : String) (at? : Option Position) : Bool :=
  at? = some pos && isBreach code

/-- The errors about reading and escaping at a place. -/
def Compiled.breachesAt (c : Compiled) (pos : Position) : List Diagnostic :=
  c.errors.filter fun f => isBreachAt pos f.code f.pos

/-- Of an interpolation that reads, the check asks what escaping means. -/
theorem Registry.escapes_iff (r : Registry) {i : Interpolation} {e : Expression}
    (h : Expression.read i.raw = .ok e) : r.Escapes i ↔ e.escapes r.isEscaping = true := by
  simp only [Expression.escapes, isEscaping, List.any_eq_true, Option.any_eq_true]
  constructor
  · rintro ⟨e', he', hcalls⟩
    obtain rfl := Except.ok.inj (he'.symm.trans h)
    exact hcalls
  · exact fun hcalls => ⟨e, h, hcalls⟩

/-- The other checks report nothing with such a code. -/
theorem Findings.Among.no_breach {codes : List Code} {ds : List Diagnostic} (h : Among codes ds)
    (hcodes : ∀ c ∈ codes, isBreach c.name = false) (pos : Position) :
    ds.countP (fun f => f.isError && isBreachAt pos f.code f.pos) = 0 := by
  rw [List.countP_eq_zero]
  intro f hf
  obtain ⟨c, hc, hcode, -⟩ := h f hf
  simp [isBreachAt, hcode, hcodes c hc]

/-! One interpolation. -/

namespace Rules
variable [Formats] {rules : Rules} {i : Interpolation}

theorem checkSite_error {e : ExpressionError} (h : Expression.read i.raw = .error e) :
    rules.checkSite i.reading = [(e.toDiagnostic.withNode "expression" i.raw).located i.pos] := by
  simp only [checkSite, Interpolation.reading, h, List.map_singleton]

theorem checkSite_ok {e : Expression} (h : Expression.read i.raw = .ok e) :
    rules.checkSite i.reading = (rules.checkChain e ++ rules.checkEscaping i.raw e).map
      fun f => (f.withNode "expression" i.raw).located i.pos := by
  simp only [checkSite, Interpolation.reading, h]

/-- All findings about an interpolation stand at its place. -/
theorem checkSite_pos {f : Diagnostic} (h : f ∈ rules.checkSite i.reading) : f.pos = some i.pos := by
  obtain ⟨g, _, rfl⟩ := List.mem_map.mp h
  rfl

theorem checkSite_elsewhere {pos : Position} (h : i.pos ≠ pos) :
    (rules.checkSite i.reading).countP (fun f => f.isError && isBreachAt pos f.code f.pos) = 0 := by
  rw [List.countP_eq_zero]
  intro f hf
  simp [isBreachAt, checkSite_pos hf, h]

/-- The filters of a chain are no matter of escaping. -/
theorem checkSite_chain {e : Expression} (h : Expression.read i.raw = .ok e) :
    (rules.checkSite i.reading).countP (fun f => f.isError && isBreachAt i.pos f.code f.pos) =
      (rules.checkEscaping i.raw e).countP fun f => f.isError && isBreach f.code := by
  have hchain : (rules.checkChain e).countP (fun f => f.isError && isBreach f.code) = 0 := by
    rw [List.countP_eq_zero]
    intro f hf
    obtain ⟨c, hc, hcode, -⟩ := rules.checkChain_among e f hf
    have hcodes : ∀ c ∈ chainCodes, isBreach c.name = false := by decide
    simp [hcode, hcodes c hc]
  rw [checkSite_ok h, List.countP_map, List.countP_append]
  simp only [Function.comp_def, Diagnostic.located_isError, Diagnostic.withNode_isError,
    Diagnostic.located_code, Diagnostic.withNode_code, Diagnostic.located_pos, isBreachAt,
    decide_true, Bool.true_and, hchain, Nat.zero_add]

theorem checkSite_escapes (h : rules.registry.Escapes i) :
    (rules.checkSite i.reading).countP (fun f => f.isError && isBreachAt i.pos f.code f.pos) = 0 := by
  obtain ⟨e, hread, -⟩ := id h
  have hescapes := (rules.registry.escapes_iff hread).mp h
  rw [checkSite_chain hread, checkEscaping, Expression.checkEscaping, if_pos hescapes]
  rfl

theorem checkSite_breach (hmode : rules.mode = .strict) (h : ¬ rules.registry.Escapes i) :
    (rules.checkSite i.reading).countP (fun f => f.isError && isBreachAt i.pos f.code f.pos) = 1 := by
  cases hread : Expression.read i.raw with
  | error e =>
    have hcode : isBreach e.code.name = true := by cases e <;> rfl
    have hfound : (e.toDiagnostic.isError && isBreachAt i.pos e.toDiagnostic.code (some i.pos)) = true := by
      simp [isBreachAt, hcode, ExpressionError.toDiagnostic]
    rw [checkSite_error hread, List.countP_singleton]
    exact if_pos hfound
  | ok e =>
    have hescapes : ¬ e.escapes rules.registry.isEscaping = true := fun hescapes =>
      h ((rules.registry.escapes_iff hread).mpr hescapes)
    rw [checkSite_chain hread, checkEscaping, Expression.checkEscaping, if_neg hescapes, hmode]
    rfl

end Rules

/-! Documents. -/

/-- Of findings about different things, those about one are counted there. -/
theorem Findings.countP_flatMap {α β γ : Type} {xs : List α} (key : α → β) {check : α → List γ}
    {p : γ → Bool} {x : α} (hnodup : (xs.map key).Nodup) (hx : x ∈ xs)
    (hother : ∀ y, key y ≠ key x → (check y).countP p = 0) :
    (xs.flatMap check).countP p = (check x).countP p := by
  induction xs with
  | nil => cases hx
  | cons y xs ih =>
    rw [List.map_cons, List.nodup_cons] at hnodup
    rw [List.flatMap_cons, List.countP_append]
    rcases List.mem_cons.mp hx with rfl | hx
    · have hrest : (xs.flatMap check).countP p = 0 := by
        rw [List.countP_eq_zero]
        intro f hf
        obtain ⟨z, hz, hf⟩ := List.mem_flatMap.mp hf
        have hkey : key z ≠ key x := fun heq => hnodup.1 (heq ▸ List.mem_map_of_mem hz)
        exact List.countP_eq_zero.mp (hother z hkey) f hf
      rw [hrest, Nat.add_zero]
    · -- the member that is counted stands behind, and this one counts nothing
      have hkey : key y ≠ key x := fun heq => hnodup.1 (heq ▸ List.mem_map_of_mem hx)
      rw [hother y hkey, Nat.zero_add, ih hnodup.2 hx]

/-- At the place of an interpolation only its own check reports a breach. -/
theorem Rules.countP_breach [Formats] (rules : Rules) {d : Document}
    (hplaces : (Interpolation.places d.sites).Nodup)
    {i : Interpolation} (hi : i ∈ d.sites) :
    (rules.allFindings d).countP (fun f => f.isError && isBreachAt i.pos f.code f.pos) =
      (rules.checkSite i.reading).countP fun f => f.isError && isBreachAt i.pos f.code f.pos := by
  have hnames : Among nameCodes d.checkNames := Among.flatMap fun t _ => t.checkNames_among
  have huses : Among useCodes (d.nodes.flatMap (Node.checkUse rules.registry rules.platform)) :=
    Among.flatMap fun n _ => n.checkUse_among rules.registry rules.platform
  -- of the four families only the interpolations are left to count
  rw [allFindings, findings, List.countP_append, List.countP_append, List.countP_append,
    hnames.no_breach (by decide), (rules.checkHeaders_among d.preamble).no_breach (by decide),
    huses.no_breach (by decide), Nat.zero_add, List.flatMap_map]
  refine Findings.countP_flatMap Interpolation.pos hplaces hi fun j hj => ?_
  exact checkSite_elsewhere hj

/-- The strict mode is sound and complete for escaping. A document that can be rendered
    escapes every interpolation in it; and of a source that has a document, every
    interpolation that does not escape is reported once at its place, and no other is. -/
theorem Rules.compile_escapes [Formats] (r : Registry) (platform : Option String) (source : String) :
    let rules : Rules := ⟨r, .strict, platform⟩
    (∀ c, rules.compile source = .ok c → c.isRenderable = true →
      ∀ i, c.document.Holds i → r.Escapes i) ∧
    ∀ d, Document.parse source = .ok d → ∃ c, rules.compile source = .ok c ∧
      ∀ i, d.Holds i →
        (r.Escapes i → c.breachesAt i.pos = []) ∧ (¬ r.Escapes i → (c.breachesAt i.pos).length = 1) := by
  intro rules
  have hbreaches : ∀ d, Document.parse source = .ok d → ∀ i, d.Holds i →
      let c := d.compiledWith rules.registry (Findings.fillSnippets source (rules.checkDocument d))
      (r.Escapes i → c.breachesAt i.pos = []) ∧ (¬ r.Escapes i → (c.breachesAt i.pos).length = 1) := by
    intro d hd i hi c
    have hcount : (c.breachesAt i.pos).length =
        (rules.checkSite i.reading).countP fun f => f.isError && isBreachAt i.pos f.code f.pos := by
      rw [Compiled.breachesAt, ← List.countP_eq_length_filter, rules.countP_errors,
        rules.countP_breach (Document.parse_places hd) (Document.mem_sites.mpr hi)]
    refine ⟨fun hescapes => ?_, fun hbreach => ?_⟩
    · rw [← List.length_eq_zero_iff, hcount]
      exact checkSite_escapes hescapes
    · rw [hcount]
      exact checkSite_breach rfl hbreach
  refine ⟨fun c hc hrender i hi => ?_, fun d hd => ⟨_, rules.compile_eq hd, hbreaches d hd⟩⟩
  obtain ⟨d, hd, rfl⟩ := Rules.compile_ok hc
  have hsite : d.Holds i := by
    rw [← Document.mem_sites] at hi ⊢
    rwa [← d.normalize_sites rules.registry]
  -- one that did not escape would have left an error
  by_contra hbreach
  have hone := (hbreaches d hd i hsite).2 hbreach
  have hnone : (d.compiledWith rules.registry
      (Findings.fillSnippets source (rules.checkDocument d))).errors = [] := List.isEmpty_iff.mp hrender
  rw [Compiled.breachesAt, hnone] at hone
  cases hone

end BraceTemplate
