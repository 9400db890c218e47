import BraceTemplate.Formats.Standard
import BraceTemplate.Proofs.Checking.Coercion
import BraceTemplate.Proofs.Doubles
import Mathlib.Algebra.Order.Ring.Rat
import Mathlib.Tactic.NormNum.Ineq

/- Numbers as integers. A JSON number stands for a rational number, and it is of type integer
   just when that number is one (`TypeExpr.accepts_integer_iff`). Coercion then writes it as an
   integer: as the same number, unless it is a float beyond 64 bits, for which the end of the
   range is written (`TypeExpr.coerce_integer_value`). -/
namespace BraceTemplate

open Json
open Text (minInt64 maxInt64 clampInt64)

/-- The rational number that a JSON number stands for. -/
def Json.Value.toRat? : Value → Option ℚ
  | .int n => some n
  | .float x => x.toRat?
  | _ => none

theorem Text.clampInt64_cases (n : Int) :
    clampInt64 n = n ∨ (maxInt64 < n ∧ clampInt64 n = maxInt64) ∨
      (n < minInt64 ∧ clampInt64 n = minInt64) := by
  unfold clampInt64 minInt64 maxInt64
  omega

namespace TypeExpr
variable {v : Value} {q : ℚ}

theorem branches_integer : branches "integer" = ["integer"] := rfl

/-- A number is of type integer when it is an integer. -/
theorem accepts_integer_iff [Formats] (hv : v.toRat? = some q) :
    accepts "integer" v = true ↔ ∃ z : Int, (z : ℚ) = q := by
  rw [accepts, branches_integer, List.any_cons, List.any_nil, Bool.or_false]
  cases v with
  | int n =>
    cases hv
    exact iff_of_true rfl ⟨n, rfl⟩
  | float x =>
    have hx : x.toRat? = some q := hv
    change x.integer?.isSome = true ↔ _
    rw [Option.isSome_iff_exists]
    simp only [Double.integer?_eq_some_iff, hx, Option.some.injEq, eq_comm (a := q)]
  | null => cases hv
  | bool _ => cases hv
  | string _ => cases hv
  | array _ => cases hv
  | object _ => cases hv

/-- A number of type integer is coerced to an integer of the same value, except that a float
    beyond the integers of 64 bits becomes the nearest of them. -/
theorem coerce_integer_value [Formats] (hv : v.toRat? = some q) (h : accepts "integer" v = true) :
    ∃ n : Int, coerce "integer" v = .int n ∧
      ((n : ℚ) = q ∨ (∃ x, v = .float x) ∧
        (maxInt64 < q ∧ n = maxInt64 ∨ q < minInt64 ∧ n = minInt64)) := by
  obtain ⟨z, rfl⟩ := (accepts_integer_iff hv).mp h
  rw [coerce, branches_integer]
  cases v with
  | int n => exact ⟨n, rfl, .inl (Option.some.inj hv)⟩
  | float x =>
    have hz : x.integer? = some z := Double.integer?_eq_some_iff.mpr hv
    have hconverted : convert? (.float x) "integer" = some (.int (clampInt64 z)) := by
      change x.integer?.map _ = _
      rw [hz]
      rfl
    refine ⟨clampInt64 z, ?_, ?_⟩
    · rw [if_neg (by exact Bool.false_ne_true), List.findSome?_cons, hconverted]
      rfl
    rcases Text.clampInt64_cases z with hsame | ⟨hlarge, hclamp⟩ | ⟨hsmall, hclamp⟩
    · exact .inl (congrArg _ hsame)
    · exact .inr ⟨⟨x, rfl⟩, .inl ⟨by exact_mod_cast hlarge, hclamp⟩⟩
    · exact .inr ⟨⟨x, rfl⟩, .inr ⟨by exact_mod_cast hsmall, hclamp⟩⟩
  | null => cases hv
  | bool _ => cases hv
  | string _ => cases hv
  | array _ => cases hv
  | object _ => cases hv

/-- The float minus twelve. -/
theorem coerce_integer_value_whole :
    (Value.float (.finite true 6755399441055744 (-49))).toRat? = some (-12) ∧
    accepts "integer" (.float (.finite true 6755399441055744 (-49))) = true ∧
    coerce "integer" (.float (.finite true 6755399441055744 (-49))) = .int (-12) := by
  have hvalue : (Value.float (.finite true 6755399441055744 (-49))).toRat? = some (-12) := by
    exact_mod_cast Double.integer?_eq_some_iff.mp
      (rfl : (Double.finite true 6755399441055744 (-49)).integer? = some (-12))
  have haccepts : accepts "integer" (.float (.finite true 6755399441055744 (-49))) = true := rfl
  obtain ⟨n, hn, hcases⟩ := coerce_integer_value hvalue haccepts
  refine ⟨hvalue, haccepts, ?_⟩
  rcases hcases with hsame | ⟨-, ⟨hlarge, -⟩ | ⟨hsmall, -⟩⟩
  · rw [hn, show n = -12 by exact_mod_cast hsame]
  · norm_num [maxInt64] at hlarge
  · norm_num [minInt64] at hsmall

/-- The least float beyond the integers of 64 bits is of type integer, but coercion writes an
    integer that is less by one. -/
theorem not_coerce_integer_value_large :
    ∃ x : Double, x.Canonical ∧ (Value.float x).toRat? = some 9223372036854775808 ∧
      accepts "integer" (.float x) = true ∧
      coerce "integer" (.float x) = .int 9223372036854775807 := by
  refine ⟨.finite false 4503599627370496 11, by unfold Double.Canonical; decide, ?_, rfl, ?_⟩
  · exact_mod_cast Double.integer?_eq_some_iff.mp
      (rfl : (Double.finite false 4503599627370496 11).integer? = some 9223372036854775808)
  · rfl

end TypeExpr
end BraceTemplate
