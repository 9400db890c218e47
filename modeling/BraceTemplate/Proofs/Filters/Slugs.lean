import BraceTemplate.Formats.Standard
import BraceTemplate.Proofs.Blanks
import BraceTemplate.Proofs.Filters.Markup

/- Slugs. The words of a text are what is left of it between characters that are no letters or
   digits of ASCII. The loop that writes a slug puts a dash off until the next word begins, so it
   writes the words with one dash between each two (`Filter.slugFrom_words`). No lower-case form has
   a capital letter of ASCII, whatever script it is taken from (`Text.isUpper_of_mem_lowerChar`), so
   a slug is in lower case already and is its own slug (`Filter.IsSlugOf.slugify`). -/
namespace BraceTemplate
namespace Text

/-! Lower case. -/

/-- A number that is no code point stands for the first one. -/
theorem toNat_ofNat_cases (n : Nat) : (Char.ofNat n).toNat = n ∨ (Char.ofNat n).toNat = 0 := by
  by_cases h : n.isValidChar
  · exact .inl (congrArg Char.toNat (dif_pos h))
  · exact .inr (congrArg Char.toNat (dif_neg h))

theorem isUpper_ofNat {n : Nat} (h : 90 < n) : (Char.ofNat n).isUpper = false := by
  refine Bool.eq_false_iff.mpr fun hupper => ?_
  have hcodes := isUpper_iff.mp hupper
  rcases toNat_ofNat_cases n with hcode | hcode <;> omega

theorem isAlphanum_ofNat {n : Nat} (h : 122 < n) : (Char.ofNat n).isAlphanum = false := by
  refine Bool.eq_false_iff.mpr fun halnum => ?_
  have hcodes := alphanum_codes halnum
  rcases toNat_ofNat_cases n with hcode | hcode <;> omega

/-- A point that a mapping moves lies in a run, and its image is not before that of the run. -/
theorem image?_eq_some {m : Runs} {x n : Nat} (h : m.image? x = some n) :
    ∃ run ∈ m.runs, (run.1 ≤ x ∧ x ≤ run.2.1) ∧ run.2.2.2 ≤ n := by
  unfold Runs.image? at h
  split at h
  · rename_i first last step image hrun
    split at h <;> cases h
    rename_i hinside
    simp only [Bool.and_eq_true, decide_eq_true_eq] at hinside
    exact ⟨_, Array.mem_of_getElem? hrun, hinside.1, Nat.le_add_right _ _⟩
  · cases h

/-- The mapping to lower case leads to no capital letter of ASCII, and from the capital sigma to no
    character of ASCII at all. -/
theorem lowerRuns_images : ∀ run ∈ CaseTable.lowerRuns.runs,
    90 < run.2.2.2 ∧ (run.1 ≤ 'Σ'.toNat ∧ 'Σ'.toNat ≤ run.2.1 → 122 < run.2.2.2) := by
  unfold CaseTable.lowerRuns caseRuns
  repeat rw [readLines_ofList]
  decide +kernel

theorem lowerLong_images : ∀ entry ∈ CaseTable.lowerLong, ∀ n ∈ entry.tail, 90 < n := by decide

theorem findLong?_eq_some {table : List (List Nat)} {c : Char} {image : List Char}
    (h : findLong? table c = some image) : ∃ entry ∈ table, image = entry.tail.map Char.ofNat := by
  obtain ⟨entry, hentry, himage⟩ := List.exists_of_findSome?_eq_some h
  refine ⟨entry, hentry, ?_⟩
  cases entry with
  | nil => cases himage
  | cons source codes =>
    simp only [Option.ite_none_right_eq_some, Option.some.injEq] at himage
    exact himage.2.symm

/-- No lower-case form has a capital letter of ASCII, also none of a character outside of ASCII. -/
theorem isUpper_of_mem_lowerChar {c d : Char} (h : d ∈ lowerChar c) : d.isUpper = false := by
  unfold lowerChar at h
  split at h
  · rw [List.mem_singleton.mp h]
    exact isUpper_toLower c
  · rename_i hwide
    cases hlong : findLong? CaseTable.lowerLong c with
    | some image =>
      rw [hlong, Option.getD_some] at h
      obtain ⟨entry, hentry, rfl⟩ := findLong?_eq_some hlong
      obtain ⟨n, hn, rfl⟩ := List.mem_map.mp h
      exact isUpper_ofNat (lowerLong_images entry hentry n hn)
    | none =>
      rw [hlong, Option.getD_none, List.mem_singleton] at h
      rw [h, applyRuns]
      split
      · rename_i n hn
        obtain ⟨run, hrun, -, himage⟩ := image?_eq_some hn
        exact isUpper_ofNat (Nat.lt_of_lt_of_le (lowerRuns_images run hrun).1 himage)
      · refine Bool.eq_false_iff.mpr fun hupper => hwide ?_
        have hcodes := isUpper_iff.mp hupper
        simp only [isAscii, decide_eq_true_eq]
        omega

/-- Small letters and digits of ASCII are in lower case. -/
theorem lowerChar_of_small {c : Char} (h : (c.isLower || c.isDigit) = true) : lowerChar c = [c] := by
  have halnum : c.isAlphanum = true := by
    rw [isAlphanum_eq, h, Bool.or_true]
  have hcodes := alphanum_codes halnum
  have hascii : isAscii c = true := by
    simp only [isAscii, decide_eq_true_eq]
    omega
  rw [lowerChar, if_pos hascii]
  rcases Bool.or_eq_true_iff.mp h with hlower | hdigit
  · have hsmall := isLower_iff.mp hlower
    have hupper : c.isUpper = false := Bool.eq_false_iff.mpr fun h => by
      have hcapital := isUpper_iff.mp h
      omega
    rw [toLower_of_not_isUpper hupper]
  · rw [toLower_of_isDigit hdigit]

/-- The small form of the sigma is no letter of ASCII. -/
theorem isAlphanum_of_mem_lowerChar_sigma {d : Char} (h : d ∈ lowerChar 'Σ') : d.isAlphanum = false := by
  have hform : lowerChar 'Σ' = [applyRuns CaseTable.lowerRuns 'Σ'] := rfl
  rw [hform, List.mem_singleton] at h
  rw [h, applyRuns]
  split
  · rename_i n hn
    obtain ⟨run, hrun, hinside, himage⟩ := image?_eq_some hn
    exact isAlphanum_ofNat (Nat.lt_of_lt_of_le ((lowerRuns_images run hrun).2 hinside) himage)
  · decide

/-- The letters and digits of ASCII are the same when a text is put in lower case as a whole, where a
    final sigma takes its own form, and when it is put in lower case character by character. -/
theorem filter_lowerFrom (before text : List Char) :
    (lowerFrom before text).filter Char.isAlphanum = (text.flatMap lowerChar).filter Char.isAlphanum := by
  induction text generalizing before with
  | nil => rfl
  | cons c rest ih =>
    rw [lowerFrom, List.flatMap_cons, List.filter_append, List.filter_append, ih]
    congr 1
    split
    · rename_i hsigma
      have hnone : (lowerChar c).filter Char.isAlphanum = [] := by
        refine List.filter_eq_nil_iff.mpr fun d hd => ?_
        rw [hsigma] at hd
        simp [isAlphanum_of_mem_lowerChar_sigma hd]
      rw [hnone]
      split <;> decide
    · rfl

end Text

namespace Filter

/-! Words. -/

/-- What stands between the characters that are no letters or digits of ASCII. -/
def slugWords (text : List Char) : List (List Char) :=
  (Text.splitWhere (!·.isAlphanum) text).filter (!·.isEmpty)

theorem slugWords_separator {c : Char} (hc : c.isAlphanum = false) (rest : List Char) :
    slugWords (c :: rest) = slugWords rest := by
  unfold slugWords
  rw [Text.splitWhere_separator (by simp [hc])]
  rfl

theorem slugWords_append {c : Char} (hc : c.isAlphanum = false) (before after : List Char) :
    slugWords (before ++ c :: after) = slugWords before ++ slugWords after := by
  unfold slugWords
  rw [Text.splitWhere_append (by simp [hc]), List.filter_append]

theorem slugWords_word {word : List Char} (hne : word ≠ []) (h : ∀ c ∈ word, c.isAlphanum = true) :
    slugWords word = [word] := by
  unfold slugWords
  rw [Text.splitWhere_whole fun c hc => by simp [h c hc]]
  exact List.filter_cons_of_pos (by simpa using hne)

theorem flatten_slugWords (text : List Char) :
    (slugWords text).flatten = text.filter Char.isAlphanum := by
  unfold slugWords
  rw [List.flatten_filter_not_isEmpty, Text.flatten_splitWhere]
  simp only [Bool.not_not]

theorem mem_slugWords {word text : List Char} (h : word ∈ slugWords text) :
    word ≠ [] ∧ ∀ c ∈ word, c ∈ text ∧ c.isAlphanum = true := by
  refine ⟨by simpa using (List.mem_filter.mp h).2, fun c hc => ?_⟩
  have hflat : c ∈ text.filter Char.isAlphanum := by
    rw [← flatten_slugWords]
    exact List.mem_flatten.mpr ⟨word, h, hc⟩
  exact List.mem_filter.mp hflat

/-! Words with dashes. -/

/-- Words behind a word that is written, each with the dash that was put off. -/
def dashed (words : List (List Char)) : List Char := words.flatMap ('-' :: ·)

theorem dashed_cons (word : List Char) (words : List (List Char)) :
    dashed (word :: words) = '-' :: (word ++ dashed words) := rfl

theorem joinWith_cons (word : List Char) (words : List (List Char)) :
    Text.joinWith ['-'] (word :: words) = word ++ dashed words := by
  induction words generalizing word with
  | nil => exact (List.append_nil word).symm
  | cons next words ih =>
    calc Text.joinWith ['-'] (word :: next :: words)
        = word ++ ['-'] ++ Text.joinWith ['-'] (next :: words) := rfl
      _ = word ++ '-' :: (next ++ dashed words) := by
        rw [ih, List.append_assoc, List.singleton_append]

theorem slugWords_joinWith {words : List (List Char)}
    (h : ∀ word ∈ words, word ≠ [] ∧ ∀ c ∈ word, c.isAlphanum = true) :
    slugWords (Text.joinWith ['-'] words) = words := by
  induction words with
  | nil => rfl
  | cons word words ih =>
    obtain ⟨⟨hne, hword⟩, hwords⟩ := List.forall_mem_cons.mp h
    cases words with
    | nil => exact slugWords_word hne hword
    | cons next more =>
      rw [joinWith_cons, dashed_cons, ← joinWith_cons, slugWords_append (by decide),
        slugWords_word hne hword, ih hwords]
      rfl

/-! The loop. -/

/-- What the loop writes: at the beginning the words, behind a word the rest of the word it is in
    and further words, and where a dash is due only further words. -/
theorem slugFrom_words (text : List Char) :
    slugFrom none text = Text.joinWith ['-'] (slugWords text) ∧
    slugFrom (some true) text = dashed (slugWords text) ∧
    ∀ piece more, Text.splitWhere (!·.isAlphanum) text = piece :: more →
      slugFrom (some false) text = piece ++ dashed (more.filter (!·.isEmpty)) := by
  induction text with
  | nil =>
    refine ⟨rfl, rfl, fun piece more h => ?_⟩
    cases h
    rfl
  | cons c rest ih =>
    obtain ⟨hnone, hdue, hwithin⟩ := ih
    cases hc : c.isAlphanum with
    | true =>
      obtain ⟨piece, more, hsplit⟩ :=
        List.exists_cons_of_ne_nil (Text.splitWhere_ne_nil (!·.isAlphanum) rest)
      have hpieces : Text.splitWhere (!·.isAlphanum) (c :: rest) = (c :: piece) :: more :=
        Text.splitWhere_cons (by simp [hc]) hsplit
      have hwords : slugWords (c :: rest) = (c :: piece) :: more.filter (!·.isEmpty) := by
        rw [slugWords, hpieces]
        rfl
      have hrest := hwithin piece more hsplit
      refine ⟨?_, ?_, fun piece' more' h => ?_⟩
      · rw [slugFrom, if_pos hc, hrest, hwords, joinWith_cons]
        rfl
      · rw [slugFrom, if_pos hc, hrest, hwords, dashed_cons]
        rfl
      · rw [hpieces] at h
        cases h
        rw [slugFrom, if_pos hc, hrest]
        rfl
    | false =>
      have hnot : ¬ c.isAlphanum = true := by simp [hc]
      refine ⟨?_, ?_, fun piece more h => ?_⟩
      · rw [slugFrom, if_neg hnot, slugWords_separator hc]
        exact hnone
      · rw [slugFrom, if_neg hnot, slugWords_separator hc]
        exact hdue
      · rw [Text.splitWhere_separator (by simp [hc])] at h
        cases h
        rw [slugFrom, if_neg hnot]
        exact hdue

theorem slugify_eq (text : List Char) :
    slugify text = Text.joinWith ['-'] (slugWords (text.flatMap Text.lowerChar)) :=
  (slugFrom_words _).1

/-! Slugs. -/

/-- A word of a slug: small letters and digits of ASCII, at least one. -/
def IsSlugWord (word : List Char) : Prop := word ≠ [] ∧ ∀ c ∈ word, (c.isLower || c.isDigit) = true

theorem isSlugWord_of_mem {word text : List Char}
    (h : word ∈ slugWords (text.flatMap Text.lowerChar)) : IsSlugWord word := by
  obtain ⟨hne, hchars⟩ := mem_slugWords h
  refine ⟨hne, fun c hc => ?_⟩
  obtain ⟨hmem, halnum⟩ := hchars c hc
  obtain ⟨d, -, hd⟩ := List.mem_flatMap.mp hmem
  rwa [Text.isAlphanum_eq, Text.isUpper_of_mem_lowerChar hd, Bool.false_or] at halnum

theorem IsSlugWord.isAlphanum {word : List Char} (h : IsSlugWord word) {c : Char} (hc : c ∈ word) :
    c.isAlphanum = true := by
  rw [Text.isAlphanum_eq, h.2 c hc, Bool.or_true]

theorem mem_joinWith {words : List (List Char)} {c : Char} (h : c ∈ Text.joinWith ['-'] words) :
    c = '-' ∨ ∃ word ∈ words, c ∈ word := by
  cases words with
  | nil => cases h
  | cons word words =>
    rw [joinWith_cons, List.mem_append] at h
    rcases h with h | h
    · exact .inr ⟨word, List.mem_cons_self, h⟩
    · obtain ⟨next, hnext, hc⟩ := List.mem_flatMap.mp h
      rcases List.mem_cons.mp hc with hc | hc
      · exact .inl hc
      · exact .inr ⟨next, List.mem_cons_of_mem word hnext, hc⟩

/-- A slug is in lower case. -/
theorem lower_joinWith {words : List (List Char)} (h : ∀ word ∈ words, IsSlugWord word) :
    (Text.joinWith ['-'] words).flatMap Text.lowerChar = Text.joinWith ['-'] words := by
  have hchars : ∀ c ∈ Text.joinWith ['-'] words, Text.lowerChar c = [c] := by
    intro c hc
    rcases mem_joinWith hc with rfl | ⟨word, hword, hc⟩
    · rfl
    · exact Text.lowerChar_of_small ((h word hword).2 c hc)
  rw [List.flatMap_congr hchars, List.flatMap_singleton']

/-- The slug has these letters and digits, in words with one dash between each two. -/
def IsSlugOf (letters slug : List Char) : Prop :=
  ∃ words, slug = Text.joinWith ['-'] words ∧ (∀ word ∈ words, IsSlugWord word) ∧ words.flatten = letters

theorem slugify_isSlugOf (text : List Char) :
    IsSlugOf ((Text.lowerText text).filter Char.isAlphanum) (slugify text) := by
  refine ⟨_, slugify_eq text, fun word => isSlugWord_of_mem, ?_⟩
  rw [flatten_slugWords, ← Text.filter_lowerFrom []]
  rfl

/-- A slug is its own slug. -/
theorem IsSlugOf.slugify {letters slug : List Char} (h : IsSlugOf letters slug) :
    slugify slug = slug := by
  obtain ⟨words, rfl, hwords, -⟩ := h
  have halnum : ∀ word ∈ words, word ≠ [] ∧ ∀ c ∈ word, c.isAlphanum = true :=
    fun word hword => ⟨(hwords word hword).1, fun c hc => (hwords word hword).isAlphanum hc⟩
  rw [slugify_eq, lower_joinWith hwords, slugWords_joinWith halnum]

end Filter

open BraceTemplate.Filter (IsSlugOf)

/-- The slug of a text, a number, a truth value or null has the letters and digits of ASCII of the
    text of the value in lower case, in their order, in words with one dash between each two, and is
    its own slug. -/
theorem Builtin.slugify_slugs [Formats] {v : Json.Value} (hv : v.isCollection = false)
    (args : List FilterArgument) :
    ∃ slug : String, slugify.apply v args = .string slug ∧
      IsSlugOf ((Text.lowerText v.display.toList).filter Char.isAlphanum) slug.toList ∧
      ∀ args', slugify.apply (.string slug) args' = .string slug := by
  have hslug := Filter.slugify_isSlugOf v.display.toList
  have happly : slugify.apply v args = .string (String.ofList (Filter.slugify v.display.toList)) := by
    cases v with
    | array | object => cases hv
    | null | bool | int | float | string => rfl
  refine ⟨_, happly, by rwa [String.toList_ofList], fun args' => ?_⟩
  show Json.Value.string (String.ofList (Filter.slugify (String.ofList _).toList)) = _
  rw [String.toList_ofList, hslug.slugify]

theorem Builtin.slugify_slugs_greeting : (Json.Value.string "  Hello, World! 2025 ").isCollection = false ∧
    slugify.apply (.string "  Hello, World! 2025 ") [] = .string "hello-world-2025" ∧
    IsSlugOf "helloworld2025".toList "hello-world-2025".toList ∧
    ∀ args', slugify.apply (.string "hello-world-2025") args' = .string "hello-world-2025" := by
  have htext : Filter.slugify "  Hello, World! 2025 ".toList = "hello-world-2025".toList := by
    decide +kernel
  have hslug : slugify.apply (.string "  Hello, World! 2025 ") [] = .string "hello-world-2025" :=
    congrArg (fun text => Json.Value.string (String.ofList text)) htext
  have hletters : (Text.lowerText (Json.Value.string "  Hello, World! 2025 ").display.toList).filter
      Char.isAlphanum = "helloworld2025".toList := by decide +kernel
  obtain ⟨slug, happly, hletters', hagain⟩ :=
    slugify_slugs (v := .string "  Hello, World! 2025 ") rfl []
  rw [hslug] at happly
  cases happly
  rw [hletters] at hletters'
  exact ⟨rfl, hslug, hletters', hagain⟩

end BraceTemplate
