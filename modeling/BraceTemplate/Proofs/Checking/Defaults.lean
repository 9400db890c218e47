import BraceTemplate.Outcome
import BraceTemplate.Proofs.Checking.Values
import BraceTemplate.Proofs.Registry.Rereading

/- Registries whose defaults fit. A component is sound when each default fits its own schema in
   the form that an attribute gives it. Merging keeps components as they are declared, so a
   registry is sound when its manifests are, and the built-in ones are
   (`Registry.builtin_sound`). -/
namespace BraceTemplate

open Json

/-- Every default fits its own schema and can be the value of an attribute. -/
def Component.Sound [Formats] (c : Component) : Prop :=
  ∀ p ∈ c.props, ∀ v ∈ p.2.fallback, p.2.Conforms v ∧ v.Plain

instance [Formats] (c : Component) : Decidable c.Sound :=
  inferInstanceAs (Decidable (∀ p ∈ c.props, ∀ v ∈ p.2.fallback, p.2.Conforms v ∧ v.Plain))

def Registry.Sound [Formats] (r : Registry) : Prop := ∀ e ∈ r.components, e.2.Sound

/-! Built-in registries. -/

/-- No default is of a foreign format, so any readers will do. -/
theorem BuiltinManifest.sound [Formats] (m : BuiltinManifest) :
    ∀ e ∈ m.manifest.components, e.2.Sound := by
  cases m <;> exact of_decide_eq_true (by rfl)

end BraceTemplate
