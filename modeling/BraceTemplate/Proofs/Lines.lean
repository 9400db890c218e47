import Mathlib.Data.List.Induction
import Mathlib.Data.List.TakeWhile
import BraceTemplate.Position
import BraceTemplate.Proofs.Text

/- Lines of a text. A position counts the line ends before it and the characters behind the last
   of them (`Position.start_through`), and the line of that number is what stands around the
   position between two line ends (`Text.lines_around`): a return before a line end is dropped
   with it, which trimming does not see. -/
namespace BraceTemplate
namespace Text

/-- What stands behind the last line end. -/
def lastLine (text : List Char) : List Char := (text.reverse.takeWhile (· != '\n')).reverse

/-- What stands before the first line end. -/
def firstLine (text : List Char) : List Char := text.takeWhile (· != '\n')

/-- The line around a place. -/
def lineAround (before after : List Char) : List Char := lastLine before ++ firstLine after

theorem lastLine_append_newline (text : List Char) : lastLine (text ++ ['\n']) = [] := by
  simp [lastLine]

theorem lastLine_append_of_ne {c : Char} (hc : c ≠ '\n') (text : List Char) :
    lastLine (text ++ [c]) = lastLine text ++ [c] := by
  simp [lastLine, hc]

/-- A line end in front is not seen behind it. -/
theorem lastLine_newline_cons (text : List Char) : lastLine ('\n' :: text) = lastLine text := by
  induction text using List.reverseRecOn with
  | nil => rfl
  | append_singleton text c ih =>
    by_cases hc : c = '\n'
    · rw [hc, ← List.cons_append, lastLine_append_newline, lastLine_append_newline]
    · rw [← List.cons_append, lastLine_append_of_ne hc, lastLine_append_of_ne hc, ih]

/-- A text without a line end is its own last line. -/
theorem lastLine_of_not_mem {text : List Char} (h : '\n' ∉ text) : lastLine text = text := by
  have hall : ∀ c ∈ text.reverse, (c != '\n') = true := by
    intro c hc
    simpa using fun (e : c = '\n') => h (e ▸ List.mem_reverse.mp hc)
  rw [lastLine, List.takeWhile_eq_self_iff.mpr hall, List.reverse_reverse]

/-- Another character in front belongs to the last line when there is no line end. -/
theorem lastLine_cons {c : Char} (hc : c ≠ '\n') (text : List Char) :
    lastLine (c :: text) = if '\n' ∈ text then lastLine text else c :: text := by
  induction text using List.reverseRecOn with
  | nil => simp [lastLine, hc]
  | append_singleton text d ih =>
    rw [← List.cons_append]
    by_cases hd : d = '\n'
    · rw [hd, lastLine_append_newline, lastLine_append_newline, if_pos (by simp)]
    · rw [lastLine_append_of_ne hd, lastLine_append_of_ne hd, ih]
      by_cases hmem : '\n' ∈ text
      · rw [if_pos hmem, if_pos (List.mem_append_left _ hmem)]
      · have hnone : '\n' ∉ text ++ [d] := by simpa [hmem] using Ne.symm hd
        rw [if_neg hmem, if_neg hnone, List.cons_append]

/-! Lines by their number. -/

/-- The first piece reaches to the first line end. -/
theorem splitOn_head (text : List Char) : ∃ more, splitOn '\n' text = firstLine text :: more := by
  induction text with
  | nil => exact ⟨[], rfl⟩
  | cons c rest ih =>
    obtain ⟨more, hmore⟩ := ih
    by_cases hc : c = '\n'
    · subst hc
      exact ⟨splitOn '\n' rest, by simp [splitOn, splitWhere, firstLine]⟩
    · refine ⟨more, ?_⟩
      rw [splitOn_cons_of_ne hc hmore, firstLine, firstLine, List.takeWhile_cons_of_pos (by simpa using hc)]

/-- The piece after as many line ends as stand before a place is the line around it. -/
theorem splitOn_around (before after : List Char) :
    (splitOn '\n' (before ++ after))[before.count '\n']? = some (lineAround before after) := by
  induction before with
  | nil =>
    obtain ⟨more, hmore⟩ := splitOn_head after
    rw [List.nil_append, hmore]
    rfl
  | cons c before ih =>
    by_cases hc : c = '\n'
    · subst hc
      have hcut : splitOn '\n' ('\n' :: (before ++ after)) = [] :: splitOn '\n' (before ++ after) := by
        simp [splitOn, splitWhere]
      rw [List.cons_append, hcut, List.count_cons_self, List.getElem?_cons_succ, ih, lineAround,
        lineAround, lastLine_newline_cons]
    · obtain ⟨more, hmore⟩ := splitOn_head (before ++ after)
      rw [List.cons_append, splitOn_cons_of_ne hc hmore, List.count_cons_of_ne hc]
      rw [hmore] at ih
      rw [lineAround, lastLine_cons hc]
      by_cases hmem : '\n' ∈ before
      · -- the first piece grows, and the line is a later one
        rw [if_pos hmem]
        obtain ⟨k, hk⟩ := Nat.exists_eq_succ_of_ne_zero (List.count_pos_iff.mpr hmem).ne'
        rw [hk] at ih ⊢
        exact ih
      · have hzero : before.count '\n' = 0 := List.count_eq_zero.mpr hmem
        rw [if_neg hmem]
        rw [hzero] at ih ⊢
        rw [List.getElem?_cons_zero, lineAround, lastLine_of_not_mem hmem] at ih
        rw [List.getElem?_cons_zero, Option.some.inj ih, List.cons_append]

/-! Trimming. -/

/-- A blank at the end is trimmed away. -/
theorem trim_append_blank {c : Char} (hc : isWhitespace c = true) (text : List Char) :
    trim (text ++ [c]) = trim text := by
  have hstart : trimStart (text ++ [c]) =
      if (trimStart text).isEmpty then [] else trimStart text ++ [c] := by
    rw [trimStart, List.dropWhile_append]
    congr 1
    exact List.dropWhile_cons_of_pos hc
  rw [trim, trim, hstart]
  cases htext : trimStart text with
  | nil => rfl
  | cons d tail =>
    rw [List.isEmpty_cons, if_neg (by simp), trimEnd, List.reverse_append, List.reverse_singleton,
      List.singleton_append, List.dropWhile_cons_of_pos hc]
    rfl

theorem trim_dropReturn (line : List Char) : trim (dropReturn line) = trim line := by
  unfold dropReturn
  split
  · rename_i rest hrest
    have hline : line = rest.reverse ++ ['\r'] := by
      rw [← List.reverse_reverse line, hrest, List.reverse_cons]
    rw [hline, trim_append_blank (by decide)]
  · rfl

/-- A text without blanks is trimmed already. -/
theorem trim_of_clean {text : List Char} (h : ∀ c ∈ text, isWhitespace c = false) :
    trim text = text := by
  have hstays : ∀ l : List Char, (∀ c ∈ l, isWhitespace c = false) → l.dropWhile isWhitespace = l := by
    intro l hl
    cases l with
    | nil => rfl
    | cons c l => exact List.dropWhile_cons_of_neg (by simp [hl c List.mem_cons_self])
  rw [trim, trimStart, hstays text h, trimEnd, hstays _ (by simpa using h), List.reverse_reverse]

/-- What is no blank stays. -/
theorem mem_trim {c : Char} {text : List Char} (hc : isWhitespace c = false) (h : c ∈ text) :
    c ∈ trim text := by
  have hkeeps : ∀ l : List Char, c ∈ l → c ∈ l.dropWhile isWhitespace := by
    intro l hl
    rw [← List.takeWhile_append_dropWhile (p := isWhitespace) (l := l), List.mem_append] at hl
    rcases hl with hl | hl
    · exact absurd (List.mem_takeWhile_imp hl) (by simp [hc])
    · exact hl
  rw [trim, trimEnd, List.mem_reverse]
  exact hkeeps _ (List.mem_reverse.mpr (hkeeps text h))

/-- The line of a place is found by its number, if something stands behind the place. -/
theorem lines_around (before : List Char) {after : List Char} (hafter : firstLine after ≠ []) :
    ∃ line, (lines (before ++ after))[before.count '\n']? = some line ∧
      trim line = trim (lineAround before after) := by
  have hpiece := splitOn_around before after
  unfold lines
  cases hpieces : (splitOn '\n' (before ++ after)).reverse with
  | nil => exact absurd (List.reverse_eq_nil_iff.mp hpieces) (splitOn_ne_nil _ _)
  | cons last pieces =>
    rw [List.reverse_eq_cons_iff] at hpieces
    rw [hpieces] at hpiece
    simp only
    obtain ⟨k, hk⟩ : ∃ k, k = before.count '\n' := ⟨_, rfl⟩
    rw [← hk] at hpiece ⊢
    by_cases hlt : k < pieces.reverse.length
    · refine ⟨dropReturn (lineAround before after), ?_, trim_dropReturn _⟩
      rw [List.getElem?_append_left hlt] at hpiece
      rw [List.getElem?_append_left (by simpa using hlt), List.getElem?_map, hpiece]
      rfl
    · -- the last line is one because it is not empty
      rw [List.getElem?_append_right (by omega)] at hpiece
      have hzero : k - pieces.reverse.length = 0 := by
        obtain ⟨hin, -⟩ := List.getElem?_eq_some_iff.mp hpiece
        rw [List.length_singleton] at hin
        omega
      rw [hzero] at hpiece
      obtain rfl : last = lineAround before after := Option.some.inj hpiece
      have hne : (lineAround before after).isEmpty = false := by
        rw [lineAround, List.isEmpty_eq_false_iff]
        exact List.append_ne_nil_of_right_ne_nil _ hafter
      refine ⟨lineAround before after, ?_, rfl⟩
      rw [hne, List.getElem?_append_right (by simpa using hlt),
        List.length_map, hzero]
      rfl

end Text

theorem byteLength_append (text text' : List Char) :
    byteLength (text ++ text') = byteLength text + byteLength text' := by
  induction text with
  | nil => simp [byteLength]
  | cons c text ih =>
    show c.utf8Size + byteLength (text ++ text') = c.utf8Size + byteLength text + byteLength text'
    rw [ih, Nat.add_assoc]

/-- The position behind a text: its lines, the characters of its last line and its bytes. -/
theorem Position.start_through (text : List Char) :
    Position.start.through text =
      ⟨1 + text.count '\n', 1 + (Text.lastLine text).length, byteLength text⟩ := by
  induction text using List.reverseRecOn with
  | nil => rfl
  | append_singleton text c ih =>
    have hbytes : byteLength (text ++ [c]) = byteLength text + c.utf8Size := by
      rw [byteLength_append]
      rfl
    rw [Position.through_append, ih]
    show Position.after _ c = _
    unfold Position.after
    by_cases hc : c = '\n'
    · subst hc
      rw [if_pos rfl, Text.lastLine_append_newline, hbytes]
      simp [Nat.add_assoc]
    · rw [if_neg hc, Text.lastLine_append_of_ne hc, hbytes]
      simp [hc, Nat.add_assoc]

end BraceTemplate
