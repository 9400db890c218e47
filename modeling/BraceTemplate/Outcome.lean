/- Outcomes: a value, or the reason why there is none. -/
namespace BraceTemplate
namespace Outcome

/-- A value that is worked on is there exactly when the value before the work is. -/
theorem map_eq_ok {α β ε : Type} {f : α → β} {x : Except ε α} {y : β} :
    x.map f = .ok y ↔ ∃ a, x = .ok a ∧ f a = y := by
  cases x <;> simp [Except.map]

/-- Work on a value keeps the reason why there is none. -/
theorem map_eq_error {α β ε : Type} {f : α → β} {x : Except ε α} {e : ε} :
    x.map f = .error e ↔ x = .error e := by
  cases x <;> simp [Except.map]

/-- What is done after work has a value when both have one. -/
theorem bind_eq_ok {α β ε : Type} {f : α → Except ε β} {x : Except ε α} {y : β} :
    x >>= f = .ok y ↔ ∃ a, x = .ok a ∧ f a = .ok y := by
  cases x <;> simp [bind, Except.bind]

end Outcome
end BraceTemplate
