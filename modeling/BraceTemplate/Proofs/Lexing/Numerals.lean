import BraceTemplate.Proofs.Doubles
import BraceTemplate.Proofs.Lexing.Floats
import BraceTemplate.Proofs.Lines

/- Words that are numbers. A number is digits, or digits around a point, behind
   a minus or not (`Lexer.isNumber_cases`). Its characters are neither blanks nor letters, so
   what is left of the word by a reader that trims it and looks for letters is the word. Digits
   of an integer of 64 bits are read as a finite double too (`Double.read?_of_int64?`). -/
namespace BraceTemplate

open Double (signed IsDecimal isDigits_iff)
open Lexer (isDigits isNumber dropMinus)

theorem Text.splitOnce_eq_some {separator : Char} {text before after : List Char}
    (h : splitOnce separator text = some (before, after)) : text = before ++ separator :: after := by
  unfold splitOnce at h
  split at h
  · rename_i c rest hdrop
    cases h
    have hc : c = separator := by
      have hnot := List.head?_dropWhile_not (p := (· != separator)) (l := text)
      rw [hdrop] at hnot
      simpa using hnot
    rw [← hc, ← hdrop, hc, List.takeWhile_append_dropWhile]
  · cases h

namespace Lexer

theorem signed_dropMinus (word : List Char) : ∃ s, word = signed s (dropMinus word) := by
  unfold dropMinus
  split
  · exact ⟨true, rfl⟩
  · exact ⟨false, rfl⟩

/-- A number is digits or a decimal, behind a minus or not. -/
theorem isNumber_cases {word : List Char} (h : isNumber word = true) :
    ∃ s text, word = signed s text ∧ (isDigits text = true ∨ IsDecimal text) := by
  obtain ⟨s, hs⟩ := signed_dropMinus word
  refine ⟨s, dropMinus word, hs, ?_⟩
  unfold isNumber at h
  split at h
  · rename_i whole fraction hsplit
    rw [Bool.and_eq_true] at h
    exact .inr ⟨whole, fraction, h.1, h.2, Text.splitOnce_eq_some hsplit⟩
  · exact .inl h

/-- A number is written with digits, points and minuses. -/
theorem isNumber_chars {word : List Char} (h : isNumber word = true) :
    ∀ c ∈ word, c.isDigit = true ∨ c = '-' ∨ c = '.' := by
  obtain ⟨s, text, rfl, htext⟩ := isNumber_cases h
  have hchars : ∀ c ∈ text, c.isDigit = true ∨ c = '.' := by
    intro c hc
    rcases htext with hdigits | ⟨whole, fraction, hwhole, hfraction, rfl⟩
    · exact .inl ((isDigits_iff.mp hdigits).2 c hc)
    · rcases List.mem_append.mp hc with hc | hc
      · exact .inl ((isDigits_iff.mp hwhole).2 c hc)
      · rcases List.mem_cons.mp hc with rfl | hc
        · exact .inr rfl
        · exact .inl ((isDigits_iff.mp hfraction).2 c hc)
  intro c hc
  cases s with
  | false => exact (hchars c hc).imp_right .inr
  | true =>
    rcases List.mem_cons.mp hc with rfl | hc
    · exact .inr (.inl rfl)
    · exact (hchars c hc).imp_right .inr

theorem isNumber_ne_nil {word : List Char} (h : isNumber word = true) : word ≠ [] := by
  rintro rfl
  exact absurd h (by decide)

/-- Nothing is trimmed from a number. -/
theorem trim_of_isNumber {word : List Char} (h : isNumber word = true) : Text.trim word = word := by
  refine Text.trim_of_clean fun c hc => ?_
  rcases isNumber_chars h c hc with hdigit | rfl | rfl
  · exact isWhitespace_of_isWordChar (isWordChar_of_alphanum (by simp [Char.isAlphanum, hdigit]))
  · decide
  · decide

theorem isAlpha_of_isNumber {word : List Char} (h : isNumber word = true) :
    ∀ c ∈ word, c.isAlpha = false := by
  intro c hc
  rcases isNumber_chars h c hc with hdigit | rfl | rfl
  · exact Text.isAlpha_of_isDigit hdigit
  · decide
  · decide

end Lexer

namespace Double

theorem readUnsigned?_digits (s : Bool) {digits : List Char} (h : isDigits digits = true) :
    readUnsigned? s digits = some (ofDecimal s digits 0) := by
  obtain ⟨hne, hdigits⟩ := isDigits_iff.mp h
  have htake : digits.takeWhile Char.isDigit = digits := List.takeWhile_eq_self_iff.mpr hdigits
  have hdrop : digits.dropWhile Char.isDigit = [] := List.dropWhile_eq_nil_iff.mpr hdigits
  simp [readUnsigned?, htake, hdrop, hne]

/-- Digits spell no word. -/
theorem lower_digits_ne {d : Char} {tail : List Char} (hd : d.isDigit = true) {name : String}
    (hname : name.toList.head?.any Char.isDigit = false) :
    String.ofList ((d :: tail).map Char.toLower) ≠ name := by
  rintro rfl
  rw [String.toList_ofList, List.map_cons, List.head?_cons, Option.any_some,
    Text.toLower_of_isDigit hd, hd] at hname
  cases hname

/-- Digits, behind a minus or not, are read as the decimal that they spell. -/
theorem read?_digits (s : Bool) {digits : List Char} (h : isDigits digits = true) :
    read? (signed s digits) = some (ofDecimal s digits 0) := by
  have hunsigned := readUnsigned?_digits s h
  obtain ⟨hne, hdigits⟩ := isDigits_iff.mp h
  obtain ⟨d, tail, rfl⟩ := List.exists_cons_of_ne_nil hne
  have hd : d.isDigit = true := hdigits d List.mem_cons_self
  have hinf : String.ofList ((d :: tail).map Char.toLower) ≠ "inf" := lower_digits_ne hd (by decide)
  have hinfinity : String.ofList ((d :: tail).map Char.toLower) ≠ "infinity" :=
    lower_digits_ne hd (by decide)
  have hnan : String.ofList ((d :: tail).map Char.toLower) ≠ "nan" := lower_digits_ne hd (by decide)
  have hminus : d ≠ '-' := Text.isDigit_ne hd rfl
  have hplus : d ≠ '+' := Text.isDigit_ne hd rfl
  unfold read?
  split
  rename_i negative rest hsign
  obtain ⟨rfl, rfl⟩ : negative = s ∧ rest = d :: tail := by
    rw [← Prod.mk.injEq, ← hsign]
    cases s <;> simp [signed, hminus, hplus]
  simp only [hinf, hinfinity, hnan, hunsigned, decide_false, Bool.or_self, Bool.false_eq_true,
    if_false]

/-- What digits spell is the magnitude of the integer that they are read as. -/
theorem digitsValue_of_int64? {s : Bool} {digits : List Char} (h : isDigits digits = true) {n : Int}
    (hn : Text.int64? (signed s digits) = some n) : digitsValue digits = n.natAbs := by
  obtain ⟨hne, hdigits⟩ := isDigits_iff.mp h
  obtain ⟨d, tail, rfl⟩ := List.exists_cons_of_ne_nil hne
  have hminus : d ≠ '-' := Text.isDigit_ne (hdigits d List.mem_cons_self) rfl
  have hplus : d ≠ '+' := Text.isDigit_ne (hdigits d List.mem_cons_self) rfl
  unfold Text.int64? at hn
  split at hn
  rename_i negative rest hsign
  obtain ⟨rfl, rfl⟩ : negative = s ∧ rest = d :: tail := by
    rw [← Prod.mk.injEq, ← hsign]
    cases s <;> simp [signed, hminus, hplus]
  simp only [Option.ite_none_left_eq_some, Option.ite_none_right_eq_some, Option.some.injEq] at hn
  obtain ⟨-, -, rfl⟩ := hn
  split <;> omega

/-- A number without a point is read as a finite double, too. -/
theorem read?_of_int64? {word : List Char} (h : Lexer.isNumber word = true) {n : Int}
    (hn : Text.int64? word = some n) : ∃ x, read? word = some x ∧ x.isFinite = true := by
  obtain ⟨s, text, rfl, hdigits | ⟨whole, fraction, -, -, rfl⟩⟩ := Lexer.isNumber_cases h
  · refine ⟨_, read?_digits s hdigits, isFinite_ofDecimal s (isDigits_iff.mp hdigits).2 ?_⟩
    rw [digitsValue_of_int64? hdigits hn]
    exact Text.natAbs_lt_of_isInt64 (Text.isInt64_of_int64? hn)
  · -- an integer has no point in it
    have hpoint : '.' ∈ signed s (whole ++ '.' :: fraction) := by cases s <;> simp [signed]
    exact absurd (Text.mem_of_int64? hn hpoint) (by decide)

end Double
end BraceTemplate
