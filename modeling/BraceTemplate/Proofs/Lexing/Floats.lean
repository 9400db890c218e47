import BraceTemplate.Double.Shortest
import BraceTemplate.Proofs.Lexing.Words

/- Finite floats as words. The text that shows a fraction is made of digits around one point,
   behind a minus for a negative number (`Double.fractionText_digits`), so it is a number to the
   lexer, and the float that it reads back as is the float that the token carries. -/
namespace BraceTemplate

open Lexer (isDigits)

namespace Double

theorem isDigits_iff {text : List Char} :
    isDigits text = true ↔ text ≠ [] ∧ ∀ c ∈ text, c.isDigit = true := by
  simp [isDigits, List.all_eq_true]

theorem isDigits_digitChars (n : Nat) : isDigits (digitChars n) = true := by
  obtain ⟨d, ds, hds, hall⟩ := Text.toDigits_digits n
  rw [digitChars, hds, isDigits_iff]
  exact ⟨List.cons_ne_nil d ds, hall⟩

/-- Digits around a point. -/
def IsDecimal (text : List Char) : Prop :=
  ∃ whole fraction, isDigits whole = true ∧ isDigits fraction = true ∧ text = whole ++ '.' :: fraction

/-- A decimal is written with digits alone or with digits around a point. -/
theorem positional_digits (d : Decimal) :
    isDigits (positional d []) = true ∨ IsDecimal (positional d []) := by
  obtain ⟨hne, hdigits⟩ := isDigits_iff.mp (isDigits_digitChars d.digits)
  have hzeros : ∀ n, ∀ c ∈ List.replicate n '0', c.isDigit = true :=
    fun n c hc => by rw [List.eq_of_mem_replicate hc]; rfl
  unfold positional
  simp only [List.append_nil]
  split
  · refine .inl (isDigits_iff.mpr ⟨by simp [hne], fun c hc => ?_⟩)
    exact (List.mem_append.mp hc).elim (hdigits c) (hzeros _ c)
  · rename_i hpower
    have hcount : 0 < (digitChars d.digits).length := List.length_pos_iff.mpr hne
    split
    · -- the point stands among the digits
      rename_i hpoint
      refine .inr ⟨_, _, isDigits_iff.mpr ⟨?_, ?_⟩, isDigits_iff.mpr ⟨?_, ?_⟩, rfl⟩
      · rw [ne_eq, ← List.length_eq_zero_iff, List.length_take]
        omega
      · exact fun c hc => hdigits c (List.mem_of_mem_take hc)
      · rw [ne_eq, ← List.length_eq_zero_iff, List.length_drop]
        omega
      · exact fun c hc => hdigits c (List.mem_of_mem_drop hc)
    · refine .inr ⟨['0'], _, rfl, isDigits_iff.mpr ⟨by simp [hne], fun c hc => ?_⟩, rfl⟩
      exact (List.mem_append.mp hc).elim (hzeros _ c) (hdigits c)

theorem plainText_digits (s : Bool) (m : Nat) (e : Int) :
    ∃ text, (plainText (.finite s m e)).toList = signed s text ∧
      (isDigits text = true ∨ IsDecimal text) := by
  unfold plainText
  split
  · cases ‹_ = _›
  · cases ‹_ = _›
  · rename_i heq
    cases heq
    split
    · exact ⟨['0'], String.toList_ofList, .inl rfl⟩
    · exact ⟨_, String.toList_ofList, positional_digits _⟩

theorem point_not_mem {text : List Char} (h : isDigits text = true) (s : Bool) :
    '.' ∉ signed s text := by
  have hpoint : '.' ∉ text := fun hmem => absurd ((isDigits_iff.mp h).2 _ hmem) (by decide)
  cases s with
  | false => exact hpoint
  | true => simpa [signed] using hpoint

theorem signed_append (s : Bool) (text more : List Char) :
    signed s text ++ more = signed s (text ++ more) := by
  cases s <;> rfl

/-- A finite number is shown with digits around a point, behind a minus or not. -/
theorem fractionText_digits {x : Double} (h : x.isFinite = true) :
    ∃ s text, IsDecimal text ∧ x.fractionText.toList = signed s text := by
  cases x with
  | infinite s => cases h
  | nan => cases h
  | finite s m e =>
    obtain ⟨text, htext, hdigits⟩ := plainText_digits s m e
    rcases hdigits with hdigits | hdecimal
    · -- a number without a fraction is given one
      have hpoint : (plainText (.finite s m e)).toList.contains '.' = false := by
        rw [htext]
        simpa using point_not_mem hdigits s
      refine ⟨s, text ++ ['.', '0'], ⟨text, ['0'], hdigits, rfl, rfl⟩, ?_⟩
      rw [fractionText, hpoint, if_neg (by decide), String.toList_append, htext, ← signed_append]
      rfl
    · have hpoint : (plainText (.finite s m e)).toList.contains '.' = true := by
        obtain ⟨whole, fraction, -, -, rfl⟩ := hdecimal
        rw [htext]
        cases s <;> simp [signed]
      exact ⟨s, text, hdecimal, by rw [fractionText, hpoint, if_pos rfl, htext]⟩

end Double

namespace Lexer

open Double (IsDecimal signed isDigits_iff)

theorem splitOnce_point {whole fraction : List Char} (h : isDigits whole = true) :
    Text.splitOnce '.' (whole ++ '.' :: fraction) = some (whole, fraction) := by
  have hne : ∀ c ∈ whole, (c != '.') = true := by
    intro c hc
    simpa using Text.isDigit_ne ((isDigits_iff.mp h).2 c hc) (d := '.') rfl
  have hdrop : (whole ++ '.' :: fraction).dropWhile (· != '.') = '.' :: fraction := by
    rw [List.dropWhile_append_of_pos hne]
    rfl
  have htake : (whole ++ '.' :: fraction).takeWhile (· != '.') = whole := by
    rw [List.takeWhile_append_of_pos hne]
    simp
  simp only [Text.splitOnce, hdrop, htake]

/-- A decimal starts with a digit and goes on with word characters. -/
theorem decimal_cases {text : List Char} (h : IsDecimal text) :
    ∃ c tail, text = c :: tail ∧ c.isDigit = true ∧ ∀ d ∈ text, isWordChar d = true := by
  obtain ⟨whole, fraction, hwhole, hfraction, rfl⟩ := h
  obtain ⟨hne, hw⟩ := isDigits_iff.mp hwhole
  have hchars : ∀ d ∈ whole ++ '.' :: fraction, isWordChar d = true := by
    intro d hd
    have hdigit : d.isDigit = true → isWordChar d = true := fun h =>
      isWordChar_of_alphanum (by simp [Char.isAlphanum, h])
    rcases List.mem_append.mp hd with hd | hd
    · exact hdigit (hw d hd)
    · rcases List.mem_cons.mp hd with rfl | hd
      · decide
      · exact hdigit ((isDigits_iff.mp hfraction).2 d hd)
  cases whole with
  | nil => exact absurd rfl hne
  | cons c whole =>
    exact ⟨c, _, List.cons_append, hw c List.mem_cons_self, hchars⟩

theorem isNumber_signed {text : List Char} (h : IsDecimal text) (s : Bool) :
    isNumber (signed s text) = true := by
  obtain ⟨c, tail, htext, hc, -⟩ := decimal_cases h
  have hdrop : dropMinus (signed s text) = text := by
    cases s with
    | true => rfl
    | false =>
      -- the first digit is no minus
      have hminus : c ≠ '-' := Text.isDigit_ne hc rfl
      rw [htext]
      unfold dropMinus
      split
      · rename_i heq
        exact absurd (List.cons.inj heq).1 hminus
      · rfl
  obtain ⟨whole, fraction, hwhole, hfraction, rfl⟩ := h
  rw [isNumber, hdrop, splitOnce_point hwhole]
  simp [hwhole, hfraction]

/-- A finite float that reads back from the text that shows its fraction. -/
theorem wordToken_float {ns : Bool} {x : Double} (hfinite : x.isFinite = true)
    (hread : Double.read? x.fractionText.toList = some x) :
    WordToken ns x.fractionText.toList (.number, .float x) := by
  obtain ⟨s, text, hdecimal, hshown⟩ := Double.fractionText_digits hfinite
  have hpoint : x.fractionText.toList.contains '.' = true := by
    obtain ⟨whole, fraction, -, -, rfl⟩ := hdecimal
    rw [hshown]
    cases s <;> simp [signed]
  have hmade : classify? x.fractionText.toList = some (.number, .float x) := by
    rw [classify?, hpoint, hread, hshown, isNumber_signed hdecimal]
    rfl
  obtain ⟨c, tail, htext, hc, hchars⟩ := decimal_cases hdecimal
  rw [hshown] at hmade ⊢
  cases s with
  | false =>
    rw [signed, if_neg (by decide), htext] at hmade ⊢
    exact wordToken_of_chars (.inl (by simp [Char.isAlphanum, hc]))
      (fun d hd => hchars d (htext ▸ List.mem_cons_of_mem c hd)) hmade
  | true =>
    rw [signed, if_pos rfl] at hmade ⊢
    exact wordToken_of_chars (.inr (.inr rfl)) hchars hmade

end Lexer
end BraceTemplate
