import BraceTemplate.Json.Writer
import BraceTemplate.Proofs.Lexing.Lexes

/- Strings between quotes: whatever a text holds, its quoted form is one lexeme that carries
   the text (`Lexes.quoted`). Each escaped character is read back on its own. -/
namespace BraceTemplate
namespace Lexer

open Json.Writer (escapeChar hexDigit)

theorem charOfCode?_toNat (c : Char) : charOfCode? c.toNat = some c := by
  have h : c.toNat.isValidChar := c.valid
  rw [charOfCode?, dif_pos h]
  rfl

/-- The escape of a control character by its code. -/
theorem unicodeEscape?_control {c : Char} (h : c.toNat < 32) :
    unicodeEscape? '0' '0' (hexDigit (c.toNat / 16)) (hexDigit (c.toNat % 16)) = some c := by
  have all : ∀ n < 32, unicodeEscape? '0' '0' (hexDigit (n / 16)) (hexDigit (n % 16)) =
      charOfCode? n := by decide
  rw [all _ h, charOfCode?_toNat]

theorem stringBody_escapeChar (c : Char) (taken : Nat) (rest : List Char) :
    stringBody taken (escapeChar c ++ rest) =
      (stringBody (taken + (escapeChar c).length) rest).map fun r =>
        (c :: r.1, r.2 + (escapeChar c).length) := by
  unfold escapeChar
  split
  case h_1 | h_2 | h_3 | h_4 | h_5 | h_6 | h_7 => simp [stringBody, escaped?]
  case h_8 =>
    split
    · rename_i h
      simp [stringBody, unicodeEscape?_control h]
    · -- a character that stands for itself is neither a quote nor a backslash
      rw [List.singleton_append, stringBody]
      · rfl
      all_goals grind

theorem stringBody_quoted (s : List Char) (taken : Nat) (rest : List Char) :
    stringBody taken (s.flatMap escapeChar ++ '"' :: rest) =
      .ok (s, (s.flatMap escapeChar).length + 1) := by
  induction s generalizing taken with
  | nil => rfl
  | cons c s ih =>
    rw [List.flatMap_cons, List.append_assoc, stringBody_escapeChar, ih, List.length_append]
    simp only [Except.map]
    congr 2
    omega

theorem Lexes.quoted {p : Position} {f : Bool} {outer : List Bool} {rest : List Char} (s : String) :
    Lexes p (f :: outer) (Json.Writer.quoted s) [⟨.string, .str s, p⟩] (f :: outer) rest := by
  refine of_step (s.toList.flatMap escapeChar ++ ['"']) (some (.string, .str s)) ?_
  rw [List.append_assoc, List.singleton_append]
  simp only [step, List.isEmpty_cons, Bool.false_eq_true, if_false, tagStep]
  rw [stringBody_quoted]
  simp [punctuation?, Text.isWhitespace, String.ofList_toList]

end Lexer
end BraceTemplate
