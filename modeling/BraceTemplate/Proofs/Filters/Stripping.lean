import BraceTemplate.Filter

/- Tags that are stripped. A tag runs from an opening angle bracket to the first closing one behind
   it. What is left of a text has no tag, though characters that were apart stand together in it: an
   opening bracket is kept only where no closing one is behind it, and stripping adds no characters
   (`Filter.not_hasTag_stripTags`). So a text without tags is all that can be left of one, and
   stripping it again changes nothing (`Filter.stripTags_of_not_hasTag`). -/
namespace BraceTemplate
namespace Filter

/-- An angle bracket opens, and somewhere behind it one closes. -/
def HasTag (text : List Char) : Prop := ['<', '>'].Sublist text

instance (text : List Char) : Decidable (HasTag text) :=
  inferInstanceAs (Decidable (['<', '>'].Sublist text))

theorem hasTag_cons {c : Char} {text : List Char} :
    HasTag (c :: text) ↔ HasTag text ∨ (c = '<' ∧ '>' ∈ text) := by
  constructor
  · intro h
    cases h with
    | cons _ h => exact .inl h
    | cons_cons _ h => exact .inr ⟨rfl, List.singleton_sublist.mp h⟩
  · rintro (h | ⟨rfl, h⟩)
    · exact h.cons c
    · exact (List.singleton_sublist.mpr h).cons_cons '<'

/-! Stripping. -/

/-- A character that opens no tag is kept. -/
theorem stripTags_keep {c : Char} {rest : List Char} (h : ¬ (c = '<' ∧ '>' ∈ rest)) :
    stripTags (c :: rest) = c :: stripTags rest := by
  rw [stripTags, if_neg (by simpa using h)]

/-- Stripping only leaves characters out. -/
theorem stripTags_sublist (text : List Char) : (stripTags text).Sublist text := by
  fun_induction stripTags text with
  | case1 => exact List.nil_sublist []
  | case2 c rest h ih =>
    have hbehind : ((rest.dropWhile (· != '>')).drop 1).Sublist rest :=
      (List.drop_sublist 1 _).trans (List.dropWhile_sublist _)
    exact (ih.trans hbehind).cons c
  | case3 c rest h ih => exact ih.cons_cons c

/-- No tag is left, also none of characters that stood apart. -/
theorem not_hasTag_stripTags (text : List Char) : ¬ HasTag (stripTags text) := by
  fun_induction stripTags text with
  | case1 => decide
  | case2 c rest h ih => exact ih
  | case3 c rest h ih =>
    rw [hasTag_cons]
    rintro (htag | ⟨rfl, hclose⟩)
    · exact ih htag
    · -- what closes a kept bracket stood behind it before
      exact h ⟨rfl, by simpa using (stripTags_sublist rest).mem hclose⟩

/-- A text without tags is kept. -/
theorem stripTags_of_not_hasTag {text : List Char} (h : ¬ HasTag text) : stripTags text = text := by
  induction text with
  | nil => rw [stripTags]
  | cons c rest ih =>
    rw [hasTag_cons, not_or] at h
    rw [stripTags_keep h.2, ih h.1]

end Filter

open BraceTemplate.Filter (HasTag)

/-- What is left of a text without its tags is a part of the text in which no opening bracket has a
    closing one behind it. It is the whole text exactly when that is so already, and stripping twice
    is stripping once. -/
theorem Builtin.striptags_strips [Formats] (s : String) (args : List FilterArgument) :
    ∃ text : String, striptags.apply (.string s) args = .string text ∧
      ¬ HasTag text.toList ∧ text.toList.Sublist s.toList ∧
      (text = s ↔ ¬ HasTag s.toList) ∧
      ∀ args', striptags.apply (.string text) args' = .string text := by
  have happly : ∀ (s : String) (args : List FilterArgument), striptags.apply (.string s) args =
      .string (String.ofList (Filter.stripTags s.toList)) := fun _ _ => rfl
  have hnone := Filter.not_hasTag_stripTags s.toList
  refine ⟨_, happly s args, ?_, ?_, ⟨fun h => ?_, fun h => ?_⟩, fun args' => ?_⟩
  · rwa [String.toList_ofList]
  · rw [String.toList_ofList]
    exact Filter.stripTags_sublist s.toList
  · rwa [← h, String.toList_ofList]
  · rw [Filter.stripTags_of_not_hasTag h, String.ofList_toList]
  · rw [happly, String.toList_ofList, Filter.stripTags_of_not_hasTag hnone]

/-- A bracket that opens inside of a tag goes with it. One that closes or opens no tag stays. -/
example : Filter.stripTags ['<', '<', 'b', '>', 'i', '>', 'x', '<'] = ['i', '>', 'x', '<'] := by
  cbv

end BraceTemplate
