import BraceTemplate.Proofs.Text

/- Blanks and words. No character is both a blank and a letter or a number
   (`Text.isAlphanumeric_of_isWhitespace`), so a text that ends with a word has no blank to lose
   there (`Text.trim_of_tight`). For the blanks outside of ASCII this is read off the tables of
   the character classes; that the search in a table finds the run that a character lies in is
   `Text.rank_splits`. -/
namespace BraceTemplate
namespace Text

/-! Searching in sorted points. -/

variable {sorted : Array Nat} {x : Nat}

/-- The points below an index are not above `x`, and the others are. -/
structure SplitsAt (sorted : Array Nat) (x index : Nat) : Prop where
  below : ∀ i p, sorted[i]? = some p → i < index → p ≤ x
  above : ∀ i p, sorted[i]? = some p → index ≤ i → x < p

/-- Halving keeps what is known outside of the window, so the empty window splits the points. -/
theorem countBelow_splits
    (hsorted : ∀ (i j p q : Nat), i ≤ j → sorted[i]? = some p → sorted[j]? = some q → p ≤ q)
    {fuel low width : Nat} (hfuel : width < fuel) (hsize : low + width ≤ sorted.size)
    (hbelow : ∀ i p, sorted[i]? = some p → i < low → p ≤ x)
    (habove : ∀ i p, sorted[i]? = some p → low + width ≤ i → x < p) :
    SplitsAt sorted x (countBelow sorted x fuel low width) := by
  induction fuel generalizing low width with
  | zero => omega
  | succ fuel ih =>
    rw [countBelow]
    by_cases hwidth : width = 0
    · rw [if_pos hwidth]
      exact ⟨hbelow, fun i p hp hi => habove i p hp (by omega)⟩
    · rw [if_neg hwidth]
      have hmiddle : low + width / 2 < sorted.size := by omega
      have hget : sorted[low + width / 2]? = some sorted[low + width / 2] :=
        Array.getElem?_eq_getElem hmiddle
      simp only [hget]
      split
      · rename_i hle
        apply ih (by omega) (by omega)
        · intro i p hp hi
          exact Nat.le_trans (hsorted i _ p _ (by omega) hp hget) hle
        · intro i p hp hi
          exact habove i p hp (by omega)
      · rename_i hlt
        apply ih (by omega) (by omega) hbelow
        intro i p hp hi
        have hle := hsorted _ i _ p hi hget hp
        omega

/-- The rank of `x` is where sorted points pass it. -/
theorem rank_splits {l : List Nat} (hl : l.Pairwise (· ≤ ·)) (x : Nat) :
    SplitsAt l.toArray x (rank l.toArray x) := by
  apply countBelow_splits
  · intro i j p q hij hp hq
    rw [List.getElem?_toArray] at hp hq
    obtain ⟨hi, rfl⟩ := List.getElem?_eq_some_iff.mp hp
    obtain ⟨hj, rfl⟩ := List.getElem?_eq_some_iff.mp hq
    rcases Nat.eq_or_lt_of_le hij with rfl | hlt
    · exact Nat.le_refl _
    · exact List.pairwise_iff_getElem.mp hl i j hi hj hlt
  · omega
  · omega
  · omega
  · intro i p hp hi
    have := (Array.getElem?_eq_some_iff.mp hp).1
    omega

theorem points_sorted (base : Nat) (distances : List Nat) :
    (base :: points base distances).Pairwise (· ≤ ·) := by
  induction distances generalizing base with
  | nil => exact List.pairwise_singleton _ _
  | cons d rest ih =>
    have h := ih (base + d)
    refine List.pairwise_cons.mpr ⟨fun p hp => ?_, h⟩
    rcases List.mem_cons.mp hp with rfl | hp
    · omega
    · have := (List.pairwise_cons.mp h).1 p hp
      omega

/-! Runs of general categories. -/

/-- The runs with the first letter of the category, the first point and the point behind. -/
def spans : Nat → List (Char × Char × Nat) → List (Char × Nat × Nat)
  | _, [] => []
  | base, (major, _, n) :: rest => (major, base, base + n) :: spans (base + n) rest

theorem mem_spans {runs : List (Char × Char × Nat)} (base : Nat) {i : Nat} {major minor : Char} {n : Nat}
    (h : runs[i]? = some (major, minor, n)) :
    ∃ low high, (base :: points base (runs.map (·.2.2)))[i]? = some low ∧
      (base :: points base (runs.map (·.2.2)))[i + 1]? = some high ∧
      (major, low, high) ∈ spans base runs := by
  induction runs generalizing base i with
  | nil => cases h
  | cons run rest ih =>
    cases i with
    | zero =>
      obtain rfl : run = (major, minor, n) := by simpa using h
      exact ⟨base, base + n, rfl, rfl, List.mem_cons_self⟩
    | succ i =>
      obtain ⟨low, high, hlow, hhigh, hmem⟩ := ih (base + run.2.2) (by simpa using h)
      exact ⟨low, high, hlow, hhigh, List.mem_cons_of_mem _ hmem⟩

/-- A point lies in the run that the search finds. -/
theorem span_of_rank {runs : List (Char × Char × Nat)} {x i : Nat} {major minor : Char} {n : Nat}
    (hi : i = rank (0 :: points 0 (runs.map (·.2.2))).toArray x - 1)
    (hrun : runs[i]? = some (major, minor, n)) :
    ∃ low high, (major, low, high) ∈ spans 0 runs ∧ low ≤ x ∧ x < high := by
  have hsplit := rank_splits (points_sorted 0 (runs.map (·.2.2))) x
  obtain ⟨low, high, hlow, hhigh, hmem⟩ := mem_spans 0 hrun
  rw [← List.getElem?_toArray] at hlow hhigh
  refine ⟨low, high, hmem, ?_, hsplit.above (i + 1) high hhigh (by omega)⟩
  -- the first run begins with the first point of all, which nothing is below
  by_cases hzero : i = 0
  · obtain rfl : 0 = low := by simpa [hzero] using hlow
    exact Nat.zero_le x
  · exact hsplit.below i low hlow (by omega)

/-- Only an entry of numbers gives a number. -/
theorem entry_of_number {distance : Nat} {entry : Option (Char × Char)}
    (h : (entryCategory distance entry).1 = 'N') : ∃ minor, entry = some ('N', minor) := by
  unfold entryCategory at h
  split at h
  · simp at h
  · split at h <;> simp at h
  · rename_i pair _
    exact ⟨pair.2, by rw [← h]⟩

/-- A number character lies in a run of numbers. -/
theorem span_of_number {c : Char} (h : (category c).1 = 'N') :
    ∃ low high, ('N', low, high) ∈ spans 0 CategoryTable.runs ∧ low ≤ c.toNat ∧ c.toNat < high := by
  simp only [category] at h
  obtain ⟨minor, hentry⟩ := entry_of_number h
  rw [categoryKinds, List.getElem?_toArray, List.getElem?_map] at hentry
  obtain ⟨⟨major, _, n⟩, hrun, hkind⟩ := Option.map_eq_some_iff.mp hentry
  obtain ⟨rfl, -⟩ := Prod.mk.inj hkind
  exact span_of_rank rfl hrun

/-! Blanks. -/

/-- The code points of the blanks outside of ASCII. -/
def wideBlanks : List Nat :=
  [0x85, 0xA0, 0x1680, 0x2000, 0x2001, 0x2002, 0x2003, 0x2004, 0x2005, 0x2006, 0x2007, 0x2008, 0x2009,
    0x200A, 0x2028, 0x2029, 0x202F, 0x205F, 0x3000]

/-- A line that is given as its characters is read without decoding it. -/
theorem readLines_ofList {α : Type} (read : List Char → List α) (line : List Char)
    (lines : List String) :
    readLines read (String.ofList line :: lines) = read line ++ readLines read lines := by
  rw [readLines, List.flatMap_cons, String.toList_ofList]
  rfl

theorem alphabetic_wideBlanks : ∀ n ∈ wideBlanks, inRanges ClassTable.alphabetic n = false := by
  unfold ClassTable.alphabetic boundaries
  repeat rw [readLines_ofList]
  decide +kernel

theorem numbers_wideBlanks : ∀ s ∈ spans 0 CategoryTable.runs, s.1 = 'N' →
    ∀ n ∈ wideBlanks, n < s.2.1 ∨ s.2.2 ≤ n := by
  unfold CategoryTable.runs
  repeat rw [readLines_ofList]
  decide +kernel

theorem mem_wideBlanks {c : Char} (h : isWhitespace c = true) (hwide : 128 ≤ c.toNat) :
    c.toNat ∈ wideBlanks := by
  simp only [isWhitespace, Bool.or_eq_true, Bool.and_eq_true, decide_eq_true_eq, beq_iff_eq] at h
  simp only [wideBlanks, List.mem_cons, List.not_mem_nil, or_false]
  omega

/-- No letter and no number is a blank. -/
theorem isAlphanumeric_of_isWhitespace {c : Char} (h : isWhitespace c = true) :
    isAlphanumeric c = false := by
  by_cases hascii : c.toNat < 128
  · -- in ASCII the letters and digits are told by their codes
    have hcodes : c.isAlphanum = false := by
      refine Bool.eq_false_iff.mpr fun halnum => ?_
      have codes := alphanum_codes halnum
      simp only [isWhitespace, Bool.or_eq_true, Bool.and_eq_true, decide_eq_true_eq, beq_iff_eq] at h
      omega
    simpa only [isAlphanumeric, isAlphabetic, isNumeric, isAscii, hascii, decide_true, if_true,
      Char.isAlphanum] using hcodes
  · have hwide := mem_wideBlanks h (by omega)
    have halpha := alphabetic_wideBlanks _ hwide
    have hnumber : ((category c).1 == 'N') = false := by
      refine Bool.eq_false_iff.mpr fun hnumber => ?_
      obtain ⟨low, high, hspan, hlow, hhigh⟩ := span_of_number (eq_of_beq hnumber)
      rcases numbers_wideBlanks _ hspan rfl _ hwide with hbelow | habove
      · exact absurd hlow (by simpa using hbelow)
      · exact absurd hhigh (by simpa using habove)
    simp [isAlphanumeric, isAlphabetic, isNumeric, isAscii, hascii, halpha, hnumber]

/-! Texts that end tight. -/

/-- The text ends with something that is no blank. -/
def EndsTight (text : List Char) : Prop := ∃ init c, text = init ++ [c] ∧ isWhitespace c = false

theorem EndsTight.behind {text : List Char} (h : EndsTight text) (front : List Char) :
    EndsTight (front ++ text) := by
  obtain ⟨init, c, rfl, hc⟩ := h
  exact ⟨front ++ init, c, (List.append_assoc _ _ _).symm, hc⟩

theorem EndsTight.flatMap {α : Type} {text : List Char} {l : List α} {f : α → List Char}
    (h : EndsTight text) (hf : ∀ a ∈ l, EndsTight (f a)) : EndsTight (text ++ l.flatMap f) := by
  induction l generalizing text with
  | nil => simpa using h
  | cons a l ih =>
    rw [List.flatMap_cons, ← List.append_assoc]
    exact ih ((hf a List.mem_cons_self).behind text) fun b hb => hf b (List.mem_cons_of_mem a hb)

/-- A text that neither starts nor ends with a blank is trimmed already. -/
theorem trim_of_tight {c : Char} {tail : List Char} (hc : isWhitespace c = false)
    (h : EndsTight (c :: tail)) : trim (c :: tail) = c :: tail := by
  obtain ⟨init, d, htext, hd⟩ := h
  have hstart : trimStart (c :: tail) = c :: tail := List.dropWhile_cons_of_neg (by simp [hc])
  have hend : ((c :: tail).reverse.dropWhile isWhitespace) = (c :: tail).reverse := by
    rw [htext, List.reverse_append]
    exact List.dropWhile_cons_of_neg (by simp [hd])
  rw [trim, hstart, trimEnd, hend, List.reverse_reverse]

/-- A text that starts with no blank starts the same when it is trimmed. -/
theorem trim_cons {c : Char} (hc : isWhitespace c = false) (tail : List Char) :
    ∃ rest, trim (c :: tail) = c :: rest := by
  have hstart : trimStart (c :: tail) = c :: tail := List.dropWhile_cons_of_neg (by simp [hc])
  have hlast : [c].dropWhile isWhitespace = [c] := List.dropWhile_cons_of_neg (by simp [hc])
  rw [trim, hstart, trimEnd, List.reverse_cons, List.dropWhile_append, hlast]
  split
  · exact ⟨[], rfl⟩
  · exact ⟨_, by rw [List.reverse_append]; rfl⟩

end Text
end BraceTemplate
