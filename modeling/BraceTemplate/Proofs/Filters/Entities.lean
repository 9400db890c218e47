import BraceTemplate.Proofs.Filters.Markup

/- Entities. Escaping writes each character as itself or as an entity, and only entities have an
   ampersand, which is their first character (`Markup.Spells`). So whatever stands behind it, a
   written character is read back as one (`Markup.Spells.decode`): an escaped text has no ampersand
   but in front of an entity, and replacing the entities from left to right gives the text back, also
   where it had entities of its own (`Builtin.escape_decodes`). -/
namespace BraceTemplate

open Text (Inert)

namespace Markup

/-- The entities, each with the character that it stands for. -/
def entities : List (List Char × Char) :=
  [(['&', 'a', 'm', 'p', ';'], '&'), (['&', 'l', 't', ';'], '<'), (['&', 'g', 't', ';'], '>'),
   (['&', 'q', 'u', 'o', 't', ';'], '"'), (['&', '#', '3', '9', ';'], '\''),
   (['&', '#', '1', '0', ';'], '\n'), (['&', '#', '1', '3', ';'], '\r')]

/-- The entity at the beginning of a text. -/
def entity? (text : List Char) : Option (List Char × Char) :=
  entities.find? fun e => e.1.isPrefixOf text

/-- Replaces entities by their characters in one pass from left to right. -/
def decode : List Char → List Char
  | [] => []
  | c :: rest =>
    match entity? (c :: rest) with
    | some e => e.2 :: decode (rest.drop (e.1.length - 1))
    | none => c :: decode rest
  termination_by text => text.length
  decreasing_by
    all_goals simp only [List.length_cons, List.length_drop]
    all_goals omega

/-- Every ampersand begins an entity. -/
def Marked (text : List Char) : Prop :=
  ∀ rest, '&' :: rest <:+ text → ∃ e ∈ entities, e.1 <+: '&' :: rest

/-- How a character is written: as itself, if it is no ampersand, or as an entity. -/
inductive Spells : List Char → Char → Prop where
  | plain {c : Char} (h : c ≠ '&') : Spells [c] c
  | entity {e : List Char × Char} (h : e ∈ entities) : Spells e.1 e.2

/-! Reading what is written. -/

theorem entity?_of_mem {e : List Char × Char} (h : e ∈ entities) (rest : List Char) :
    entity? (e.1 ++ rest) = some e := by
  simp only [entities, List.mem_cons, List.not_mem_nil, or_false] at h
  rcases h with rfl | rfl | rfl | rfl | rfl | rfl | rfl <;> rfl

theorem entity?_of_ne {c : Char} (h : c ≠ '&') (rest : List Char) : entity? (c :: rest) = none := by
  refine List.find?_eq_none.mpr fun e he hprefix => h ?_
  have hhead : ∀ e ∈ entities, e.1.head? = some '&' := by decide
  obtain ⟨tail, htail⟩ := List.head?_eq_some_iff.mp (hhead e he)
  rw [htail, List.isPrefixOf_iff_prefix, List.cons_prefix_cons] at hprefix
  exact hprefix.1.symm

theorem Spells.decode {piece : List Char} {c : Char} (h : Spells piece c) (rest : List Char) :
    decode (piece ++ rest) = c :: Markup.decode rest := by
  cases h with
  | plain h =>
    rw [List.singleton_append, Markup.decode, entity?_of_ne h]
  | entity h =>
    rename_i e
    have hread := entity?_of_mem h rest
    have hne : ∀ e ∈ entities, e.1 ≠ [] := by decide
    obtain ⟨d, tail, hpiece⟩ := List.exists_cons_of_ne_nil (hne e h)
    rw [hpiece, List.cons_append] at hread ⊢
    rw [Markup.decode, hread]
    simp [hpiece]

/-- Only the first character of what is written can be an ampersand. -/
theorem Spells.ampersand {before behind : List Char} {c : Char}
    (h : Spells (before ++ '&' :: behind) c) : ∃ e ∈ entities, e.1 = '&' :: behind := by
  generalize hpiece : before ++ '&' :: behind = piece at h
  cases h with
  | plain h =>
    cases before with
    | nil => exact absurd (List.cons.inj hpiece).1.symm h
    | cons d before =>
      have hnil : before ++ '&' :: behind = [] := (List.cons.inj hpiece).2
      exact absurd hnil (by simp)
  | entity h =>
    rename_i e
    have htail : ∀ e ∈ entities, '&' ∉ e.1.tail := by decide
    cases before with
    | nil => exact ⟨e, h, hpiece.symm⟩
    | cons d before =>
      refine absurd ?_ (htail e h)
      rw [← hpiece, List.cons_append, List.tail_cons]
      exact List.mem_append_right _ List.mem_cons_self

theorem Spells.marked {piece text : List Char} {c : Char} (h : Spells piece c) (htext : Marked text) :
    Marked (piece ++ text) := by
  intro rest ⟨before, heq⟩
  rcases List.append_eq_append_iff.mp heq with ⟨a, rfl, hbehind⟩ | ⟨a, -, hbehind⟩
  · -- the ampersand stands at the end of the written character, or inside of it
    cases a with
    | nil => exact htext rest ⟨[], hbehind⟩
    | cons d behind =>
      obtain ⟨rfl, rfl⟩ := List.cons.inj hbehind
      obtain ⟨e, he, hentity⟩ := h.ampersand
      exact ⟨e, he, hentity ▸ ⟨text, rfl⟩⟩
  · exact htext rest ⟨a, hbehind.symm⟩

/-! Texts. -/

variable {write : Char → List Char} (hwrite : ∀ c, Spells (write c) c)
include hwrite

theorem decode_flatMap (text : List Char) : decode (text.flatMap write) = text := by
  induction text with
  | nil => rw [List.flatMap_nil, decode]
  | cons c text ih => rw [List.flatMap_cons, (hwrite c).decode, ih]

theorem marked_flatMap (text : List Char) : Marked (text.flatMap write) := by
  induction text with
  | nil =>
    intro rest hrest
    exact absurd (List.suffix_nil.mp hrest) (List.cons_ne_nil _ _)
  | cons c text ih =>
    rw [List.flatMap_cons]
    exact (hwrite c).marked ih

end Markup

open Markup (Spells Marked)

namespace Filter

theorem escapeChar_spells (c : Char) : Spells (escapeChar c) c := by
  unfold escapeChar
  split
  · exact .entity (e := (_, '&')) (by decide)
  · exact .entity (e := (_, '<')) (by decide)
  · exact .entity (e := (_, '>')) (by decide)
  · exact .entity (e := (_, '"')) (by decide)
  · exact .entity (e := (_, '\'')) (by decide)
  · rename_i hand _ _ _ _
    exact .plain hand

/-- What escaping for an attribute makes of a character. -/
def attrChar (c : Char) : List Char := (escapeChar c).flatMap escapeLineEnd

theorem escapeAttr_eq (text : List Char) : escapeAttr text = text.flatMap attrChar :=
  List.flatMap_assoc

theorem attrChar_spells (c : Char) : Spells (attrChar c) c := by
  unfold attrChar
  have hpiece := escapeChar_spells c
  generalize escapeChar c = piece at hpiece
  cases hpiece with
  | plain hand =>
    rw [List.flatMap_singleton]
    unfold escapeLineEnd
    split
    · exact .entity (e := (_, '\n')) (by decide)
    · exact .entity (e := (_, '\r')) (by decide)
    · exact .plain hand
  | entity h =>
    -- there is no line end in an entity
    rename_i e
    have hkeep : ∀ e ∈ Markup.entities, e.1.flatMap escapeLineEnd = e.1 := by decide
    rw [hkeep e h]
    exact .entity h

theorem escapeLineEnd_breaks (c : Char) : ∀ d ∈ escapeLineEnd c, d ≠ '\n' ∧ d ≠ '\r' := by
  unfold escapeLineEnd
  split
  · simp
  · simp
  · rename_i hfeed hreturn
    exact List.forall_mem_singleton.mpr ⟨hfeed, hreturn⟩

theorem escapeAttr_breaks (text : List Char) : ∀ d ∈ escapeAttr text, d ≠ '\n' ∧ d ≠ '\r' :=
  List.forall_mem_flatMap.mpr fun c _ => escapeLineEnd_breaks c

end Filter

/-- The text has no character of markup and no ampersand but in entities, and these give the
    original back. -/
structure Markup.Escaped (text original : List Char) : Prop where
  inert : Inert text
  marked : Marked text
  decoded : decode text = original

open Markup (Escaped)

theorem Filter.escapeHtml_escaped (text : List Char) : Escaped (escapeHtml text) text where
  inert := escapeHtml_inert text
  marked := Markup.marked_flatMap escapeChar_spells text
  decoded := Markup.decode_flatMap escapeChar_spells text

theorem Filter.escapeAttr_escaped (text : List Char) : Escaped (escapeAttr text) text where
  inert := escapeAttr_inert text
  marked := by
    rw [escapeAttr_eq]
    exact Markup.marked_flatMap attrChar_spells text
  decoded := by
    rw [escapeAttr_eq, Markup.decode_flatMap attrChar_spells]

/-- Escaping makes of every value a text that can stand in markup and from which the text of the
    value can be read back; the text for an attribute has no line ends either. -/
theorem Builtin.escape_decodes [Formats] (v : Json.Value) (args : List FilterArgument) :
    (∃ text, escape.apply v args = .string text ∧ Escaped text.toList v.display.toList) ∧
    (∃ text, escHtml.apply v args = .string text ∧ Escaped text.toList v.display.toList) ∧
    ∃ text, escAttr.apply v args = .string text ∧ Escaped text.toList v.display.toList ∧
      '\n' ∉ text.toList ∧ '\r' ∉ text.toList := by
  have hhtml : Escaped (String.ofList (Filter.escapeHtml v.display.toList)).toList v.display.toList := by
    rw [String.toList_ofList]
    exact Filter.escapeHtml_escaped _
  refine ⟨⟨_, rfl, hhtml⟩, ⟨_, rfl, hhtml⟩, _, rfl, ?_⟩
  rw [String.toList_ofList]
  have hbreaks := Filter.escapeAttr_breaks v.display.toList
  exact ⟨Filter.escapeAttr_escaped _, fun h => (hbreaks _ h).1 rfl, fun h => (hbreaks _ h).2 rfl⟩

/-- A text that looks like an entity is not taken for one. -/
example : Markup.decode (Filter.escapeAttr ['&', 'l', 't', ';', '\n', '<']) =
    ['&', 'l', 't', ';', '\n', '<'] := by
  cbv

end BraceTemplate
