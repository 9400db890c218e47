import BraceTemplate.Formats.Standard
import BraceTemplate.Proofs.Checking.Values

/- What coercion settles. A value is only ever converted into the form of the branch that
   converts it, and what has the form of a branch is kept and accepted. So the other branches
   of a union have no say in a value that is coerced already: coercing it again changes
   nothing, and a valid value stays valid (`TypeExpr.coerce_settled`). -/
namespace BraceTemplate
namespace TypeExpr

open Json

section
variable [Formats] {expr name : String} {v w : Value}

/-- A value in the form of a branch is kept. -/
theorem coerce_of_hasForm (hname : name ∈ branches expr) (h : hasForm v name = true) :
    coerce expr v = v :=
  if_pos (List.any_eq_true.mpr ⟨name, hname, h⟩)

/-- Coercion keeps a value or gives it the form of a branch. -/
theorem coerce_hasForm (expr : String) (v : Value) :
    coerce expr v = v ∨ ∃ name ∈ branches expr, hasForm (coerce expr v) name = true :=
  (coerce_cases expr v).imp_right fun ⟨name, hname, h⟩ => ⟨name, hname, convert?_hasForm h⟩

theorem coerce_coerce (expr : String) (v : Value) :
    coerce expr (coerce expr v) = coerce expr v := by
  rcases coerce_hasForm expr v with hkept | ⟨name, hname, hform⟩
  · rw [hkept, hkept]
  · exact coerce_of_hasForm hname hform

theorem accepts_coerce (h : accepts expr v = true) : accepts expr (coerce expr v) = true := by
  rcases coerce_hasForm expr v with hkept | ⟨name, hname, hform⟩
  · rwa [hkept]
  · exact List.any_eq_true.mpr ⟨name, hname, matchesName_of_hasForm hform⟩

/-- Coercing twice is coercing once, what is not kept has the form of some branch, and what
    the type accepts it accepts in the coerced form. -/
theorem coerce_settled (expr : String) (v : Value) :
    coerce expr (coerce expr v) = coerce expr v ∧
      (coerce expr v = v ∨ ∃ name ∈ branches expr, hasForm (coerce expr v) name = true) ∧
      (accepts expr v = true → accepts expr (coerce expr v) = true) :=
  ⟨coerce_coerce expr v, coerce_hasForm expr v, accepts_coerce⟩

end

/-- A text that spells an integer and also a float, where an unknown branch stands first. -/
theorem coerce_settled_number : accepts "widget | integer|float" (.string " 07 ") = true ∧
    accepts "widget | integer|float" (coerce "widget | integer|float" (.string " 07 ")) = true ∧
    coerce "widget | integer|float" (coerce "widget | integer|float" (.string " 07 ")) =
      coerce "widget | integer|float" (.string " 07 ") := by
  have haccepts : accepts "widget | integer|float" (.string " 07 ") = true := rfl
  obtain ⟨htwice, -, hvalid⟩ := coerce_settled "widget | integer|float" (.string " 07 ")
  exact ⟨haccepts, hvalid haccepts, htwice⟩

end TypeExpr
end BraceTemplate
