import BraceTemplate.Proofs.Checking.Acceptance

/- Arguments find their parameters twice: when a chain is checked, on the arguments as they are
   written, and when it runs, on what a filter receives of them. Names go before places in both,
   and a place counts the arguments without a name only, so both find the same argument
   (`FilterCall.argument?_runtimeArguments`). What the checks promise of a chain therefore holds
   of the run (`Expression.checkCalls_binds`). -/
namespace BraceTemplate

namespace FilterCall
variable (c : FilterCall)

/-- The places of the arguments without a name are the same at run time. -/
theorem positional_runtimeArguments : c.runtimeArguments.filter (·.name.isNone) =
    c.positional.map fun a => ⟨a.name, a.value⟩ :=
  List.filter_map

theorem named_runtimeArguments (name : String) : c.runtimeArguments.find? (·.name = some name) =
    (c.arguments.find? (·.name = some name)).map fun a => ⟨a.name, a.value⟩ :=
  List.find?_map ..

/-- A filter receives the value of the argument that was checked. -/
theorem argument?_runtimeArguments (place : Nat) (name : String) :
    Filter.argument? c.runtimeArguments place name = (c.bound? place name).map (·.value) := by
  rw [Filter.argument?, named_runtimeArguments, positional_runtimeArguments, List.getElem?_map,
    ← Option.map_or, Option.map_map, bound?]
  rfl

end FilterCall

/-- The filter finds at run time what it asks for: the arguments it requires are there, and those
    whose value is written in the call have the type of their parameter. -/
structure FilterSpec.Finds [Formats] (spec : FilterSpec) (platform : Option String) (c : FilterCall) : Prop where
  platform : ∀ target, platform = some target → spec.platforms.allows target = true
  required : ∀ (place : Nat) p, spec.params[place]? = some p → p.required = true →
    ∃ v, Filter.argument? c.runtimeArguments place p.name = some v
  typed : ∀ (place : Nat) p a, spec.params[place]? = some p → c.bound? place p.name = some a →
    a.reference = false → Filter.argument? c.runtimeArguments place p.name = some a.value ∧
      TypeExpr.accepts p.typeExpr a.value = true

theorem FilterSpec.accepts_iff_finds [Formats] (spec : FilterSpec) (platform : Option String) (c : FilterCall) :
    spec.Accepts platform c ↔ spec.Finds platform c := by
  constructor
  · intro h
    refine ⟨?_, fun place p hp hrequired => ?_, fun place p a hp hbound hvalue => ?_⟩
    · rintro target rfl
      exact h.platform
    · obtain ⟨a, hbound⟩ := h.supplied place p hp hrequired
      exact ⟨a.value, by rw [c.argument?_runtimeArguments, hbound, Option.map_some]⟩
    · exact ⟨by rw [c.argument?_runtimeArguments, hbound, Option.map_some],
        h.typed place p a hp hbound hvalue⟩
  · intro h
    refine ⟨?_, fun place p hp hrequired => ?_, fun place p a hp hbound hvalue =>
      (h.typed place p a hp hbound hvalue).2⟩
    · cases platform with
      | none => rfl
      | some target => exact h.platform target rfl
    · obtain ⟨v, hv⟩ := h.required place p hp hrequired
      rw [c.argument?_runtimeArguments] at hv
      obtain ⟨a, hbound, -⟩ := Option.map_eq_some_iff.mp hv
      exact ⟨a, hbound⟩

/-- The argument that is checked for a parameter is the one that the filter finds for it, and no
    error is found in a chain exactly when every filter of it is registered and finds its
    arguments. -/
theorem Expression.checkCalls_binds [Formats] (r : Registry) (platform : Option String) (e : Expression) :
    (∀ (spec : FilterSpec) (c : FilterCall) (place : Nat) (p : Parameter),
      spec.params[place]? = some p →
        Filter.argument? c.runtimeArguments place p.name = (c.bound? place p.name).map (·.value)) ∧
    (Findings.firstError (e.checkCalls r platform) = none ↔
      ∀ c ∈ e.calls, ∃ spec, r.filter? c.name = some spec ∧ spec.Finds platform c) := by
  refine ⟨fun spec c place p _ => c.argument?_runtimeArguments place p.name, ?_⟩
  rw [Findings.firstError_eq_none, checkCalls, Findings.clean_flatMap]
  refine forall₂_congr fun c _ => ?_
  rw [c.check_clean]
  exact exists_congr fun spec => and_congr_right fun _ => spec.accepts_iff_finds platform c

/-- A name goes before a place, and a named argument does not count as a place. -/
example : Filter.argument?
    (FilterCall.mk "f" [⟨none, .int 1, false⟩, ⟨some "x", .int 2, false⟩, ⟨none, .int 3, false⟩]).runtimeArguments
      1 "y" = some (.int 3) := by
  rfl

end BraceTemplate
