import BraceTemplate.Proofs.Text
import Mathlib.Data.Rat.Cast.Defs
import Mathlib.Tactic.NormNum.Pow

/- What a double stands for. A finite double is a rational number (`Double.toRat?`), and it is
   read as an integer just when that number is one (`Double.integer?_eq_some_iff`). Rounding
   stays in the range of the finite doubles far beyond 64 bits, so an integer of 64 bits is a
   finite double (`Double.isFinite_ofInt`), however it is spelled
   (`Double.isFinite_ofDecimal`). -/
namespace BraceTemplate

theorem Text.natAbs_lt_of_isInt64 {n : Int} (h : isInt64 n = true) : n.natAbs < 2 ^ 64 := by
  obtain ⟨hmin, hmax⟩ := isInt64_iff.mp h
  unfold minInt64 at hmin
  unfold maxInt64 at hmax
  omega

namespace Double

/-- The rational number that a finite double stands for. -/
def toRat? : Double → Option ℚ
  | .finite s m e => some ((if s then -1 else 1) * (m * 2 ^ e))
  | _ => none

/-! Quotients. -/

theorem scale_pos (num : Nat) {den : Nat} (hden : 0 < den) (e : Int) : 0 < (scale num den e).2 := by
  cases e with
  | ofNat k => exact hden
  | negSucc k => exact Nat.mul_pos hden (Nat.two_pow_pos _)

/-- The numerator over the denominator is the scaled quotient. -/
theorem scale_div (num den : Nat) (e : Int) :
    ((scale num den e).1 : ℚ) / (scale num den e).2 = num / den * 2 ^ e := by
  cases e with
  | ofNat k =>
    rw [scale, Int.ofNat_eq_natCast, zpow_natCast]
    push_cast [Nat.pow_eq]
    rw [mul_div_right_comm]
  | negSucc k =>
    rw [scale, zpow_negSucc]
    push_cast [Nat.pow_eq]
    rw [← div_div, div_eq_mul_inv _ ((2 : ℚ) ^ (k + 1))]

/-- An integer is a quotient when the division leaves no remainder and gives the integer. -/
theorem div_eq_intCast_iff {n d : Nat} (hd : 0 < d) (z : Int) :
    (n : ℚ) / d = z ↔ n % d = 0 ∧ ((n / d : Nat) : Int) = z := by
  have hd' : (d : ℚ) ≠ 0 := by exact_mod_cast hd.ne'
  rw [div_eq_iff hd']
  constructor
  · intro h
    have hz : (n : Int) = z * d := by exact_mod_cast h
    have hdvd : (d : Int) ∣ n := ⟨z, by rw [hz, Int.mul_comm]⟩
    refine ⟨Nat.mod_eq_zero_of_dvd (by exact_mod_cast hdvd), ?_⟩
    rw [Int.natCast_ediv, hz, Int.mul_ediv_cancel _ (by exact_mod_cast hd.ne')]
  · rintro ⟨hmod, rfl⟩
    exact_mod_cast (Nat.div_mul_cancel (Nat.dvd_of_mod_eq_zero hmod)).symm

/-- A double is read as an integer when it stands for that integer. -/
theorem integer?_eq_some_iff {x : Double} {z : Int} :
    x.integer? = some z ↔ x.toRat? = some (z : ℚ) := by
  cases x with
  | infinite s => simp [integer?, toRat?]
  | nan => simp [integer?, toRat?]
  | finite s m e =>
    have hvalue : (m : ℚ) * 2 ^ e = (scale m 1 e).1 / (scale m 1 e).2 := by
      rw [scale_div, Nat.cast_one, div_one]
    have hwhole := fun z => div_eq_intCast_iff (n := (scale m 1 e).1) (scale_pos m Nat.one_pos e) z
    rw [integer?, toRat?, hvalue]
    cases s with
    | false =>
      simp only [Bool.false_eq_true, if_false, one_mul, Option.some.injEq, hwhole]
      simp
    | true =>
      have hneg : ∀ q : Int, -q = z ↔ q = -z := fun q => neg_eq_iff_eq_neg
      simp only [if_true, neg_one_mul, Option.some.injEq, neg_eq_iff_eq_neg, ← Int.cast_neg, hwhole]
      simp [hneg]

/-! The range of finite doubles. -/

theorem unitExponent_le (num den : Nat) :
    unitExponent num den ≤ max ((num.log2 : Int) - (den.log2 : Int) - 53) minExponent + 1 := by
  unfold unitExponent
  simp only
  split <;> omega

/-- A quotient that is not too large is rounded to a finite double. -/
theorem isFinite_ofRatio (negative : Bool) {num den : Nat} (h : num.log2 ≤ den.log2 + 1022) :
    (ofRatio negative num den).isFinite = true := by
  have he := unitExponent_le num den
  unfold minExponent at he
  unfold ofRatio maxExponent
  split
  · rfl
  · simp only
    rw [if_neg]
    · rfl
    · -- rounding up may still move the exponent by one
      split <;> simp only <;> omega

theorem isFinite_ofRatio_one (negative : Bool) {num : Nat} (h : num < 2 ^ 64) :
    (ofRatio negative num 1).isFinite = true := by
  refine isFinite_ofRatio negative ?_
  by_cases hzero : num = 0
  · rw [hzero]
    decide
  · have := (Nat.log2_lt hzero).mpr h
    omega

/-- Every integer of 64 bits has a finite double next to it. -/
theorem isFinite_ofInt {n : Int} (h : Text.isInt64 n = true) : (ofInt n).isFinite = true :=
  isFinite_ofRatio_one _ (Text.natAbs_lt_of_isInt64 h)

/-! Integers in digits. -/

/-- A first digit other than zero counts at least the power of ten of its place. -/
theorem pow_length_le {d : Char} {digits : List Char} (hd : d.isDigit = true) (hzero : d ≠ '0') :
    10 ^ digits.length ≤ digitsValue (d :: digits) := by
  have hcode : 1 ≤ d.toNat - '0'.toNat := by
    have hge := (Char.isDigit_iff_toNat.mp hd).1
    have hne : d.toNat ≠ '0'.toNat := fun h => hzero (Char.toNat_inj.mp h)
    omega
  rw [digitsValue_eq_ofDigitChars, Nat.ofDigitChars_cons, Nat.ofDigitChars_eq_ofDigitChars_zero]
  calc 10 ^ digits.length ≤ 10 ^ digits.length * (10 * 0 + (d.toNat - '0'.toNat)) :=
        Nat.le_mul_of_pos_right _ (by omega)
    _ ≤ _ := Nat.le_add_right _ _

/-- Zeros in front do not count. -/
theorem digitsValue_dropWhile (digits : List Char) :
    digitsValue (digits.dropWhile (· = '0')) = digitsValue digits := by
  induction digits with
  | nil => rfl
  | cons d digits ih =>
    by_cases hd : d = '0'
    · rw [List.dropWhile_cons_of_pos (by simpa using hd), ih, hd]
      rfl
    · rw [List.dropWhile_cons_of_neg (by simpa using hd)]

/-- The double next to an integer below 2^64 is finite, whatever digits spell the integer. -/
theorem isFinite_ofDecimal (negative : Bool) {digits : List Char}
    (hdigits : ∀ d ∈ digits, d.isDigit = true) (h : digitsValue digits < 2 ^ 64) :
    (ofDecimal negative digits 0).isFinite = true := by
  rw [← digitsValue_dropWhile] at h
  have hleft : ∀ d ∈ digits.dropWhile (· = '0'), d.isDigit = true :=
    fun d hd => hdigits d ((List.dropWhile_sublist _).mem hd)
  have hhead := List.head?_dropWhile_not (p := (· = '0')) (l := digits)
  unfold ofDecimal
  simp only
  generalize digits.dropWhile (· = '0') = left at h hleft hhead
  cases left with
  | nil => rfl
  | cons d left =>
    have hd : d ≠ '0' := by simpa using hhead
    -- so there are at most twenty digits, and the power of ten is out of reach
    have hlength : left.length < 20 := by
      refine (Nat.pow_lt_pow_iff_right (by decide : 1 < 10)).mp ?_
      calc 10 ^ left.length ≤ _ := pow_length_le (hleft d List.mem_cons_self) hd
        _ < 2 ^ 64 := h
        _ < 10 ^ 20 := by decide
    rw [List.isEmpty_cons, if_neg Bool.false_ne_true, List.length_cons, if_neg (by omega),
      if_neg (by omega)]
    exact isFinite_ofRatio_one negative (by simpa using h)

end Double
end BraceTemplate
