import BraceTemplate.Formats.Standard
import BraceTemplate.Proofs.Checking.Acceptance
import BraceTemplate.Proofs.Checking.Defaults

/- What a renderer gets fits the schemas. The checks see the values as they are written, and
   a compilation fills in defaults and coerces values afterwards. A default fits because the
   registry is sound, and a value that is kept fits because it was checked. One that coercion
   rewrites has still a type of its schema; of what is checked besides, only the rules on the
   text can fail where it became a number of another text, and only the length, or of a zero the
   choices, where a number became its own text (`Rules.compile_conforms`). -/
namespace BraceTemplate

open Json

/-- The value is what coercion makes of one that fits, and has a type of the schema. -/
structure Schema.Coerced [Formats] (s : Schema) (written v : Value) : Prop where
  fits : s.Fits written
  coerced : TypeExpr.coerce s.typeExpr written = v
  typed : TypeExpr.accepts s.typeExpr v = true

/-- A number of another text than the value that is written. The choices and the pattern of the
    schema are about the text, and nothing else is checked of a number. -/
structure Schema.Respelled [Formats] (s : Schema) (written v : Value) : Prop
    extends s.Coerced written v where
  text : v.display ≠ written.display
  number : v.isNumber = true

/-- A number that became its own text, which is measured only now. The choices do not tell the two
    zeros apart, but their texts do. -/
structure Schema.Lettered [Formats] (s : Schema) (written v : Value) : Prop
    extends s.Coerced written v where
  text : v = .string written.display
  number : written.isNumber = true
  pattern : ∀ pattern ∈ s.pattern, Matches pattern v
  choice : (∀ x, written = .float x → x.isZero = false) →
    ∀ choices ∈ s.choices, isChoice choices v = true

/-- What coercion may have made of a value that fits, other than a value that conforms. -/
def Schema.Rewritten [Formats] (s : Schema) (written v : Value) : Prop :=
  s.Respelled written v ∨ s.Lettered written v

theorem Registry.mem_of_component? {r : Registry} {name : String} {c : Component}
    (h : r.component? name = some c) : ∃ key, (key, c) ∈ r.components := by
  obtain ⟨key, -, hc⟩ := Option.bind_eq_some_iff.mp h
  exact ⟨key, Table.mem_of_lookup hc⟩

namespace Schema
variable [Formats] {s : Schema} {a b : AttrValue} {v w : Value}

theorem Fits.conforms (h : s.Fits v) (hnull : v.isNull = false) : s.Conforms v := by
  rw [conforms_iff, if_neg (by simp [hnull])]
  exact h

/-- A default that an attribute can hold is found there as it is declared. -/
theorem conforms_default (hdefault : ∀ v ∈ s.fallback, s.Conforms v ∧ v.Plain)
    (ha : s.fallback.map .ofJson = some a) (hv : a.toJson? = some v) : s.Conforms v := by
  obtain ⟨u, hu, rfl⟩ := Option.map_eq_some_iff.mp ha
  obtain ⟨hconforms, hplain⟩ := hdefault u hu
  rw [AttrValue.toJson?_ofJson hplain] at hv
  cases hv
  exact hconforms

/-- An optional prop that is not given takes its default, or stays null. -/
theorem conforms_missing {given : Option AttrValue} (hgiven : ∀ b ∈ given, b = .null)
    (hoptional : s.required = false) (hdefault : ∀ v ∈ s.fallback, s.Conforms v ∧ v.Plain)
    (ha : s.normalized given = some a) (hv : a.toJson? = some v) : s.Conforms v := by
  have hcases : s.fallback.map .ofJson = some a ∨ a = .null := by
    cases given with
    | none => exact .inl ha
    | some b =>
      obtain rfl := hgiven b rfl
      rw [normalized, Option.or_eq_some_iff] at ha
      exact ha.imp_right fun h => (Option.some.inj h.2).symm
  rcases hcases with hfilled | rfl
  · exact conforms_default hdefault hfilled hv
  · cases hv
    exact (s.conforms_iff .null).mpr hoptional

omit [Formats] in
/-- Only null and floats out of range have null as data. -/
theorem isNull_of_toJson? (hb : b ≠ .null) (hw : b.toJson? = some w) (hnull : w.isNull = true) :
    ∃ x, b = .float x ∧ x.isFinite = false := by
  cases b with
  | float x =>
    refine ⟨x, rfl, ?_⟩
    by_contra hx
    rw [AttrValue.toJson?, Value.ofDouble, if_pos (by simpa using hx)] at hw
    cases hw
    cases hnull
  | null => exact absurd rfl hb
  | str _ => cases hw; cases hnull
  | int _ => cases hw; cases hnull
  | bool _ => cases hw; cases hnull
  | interpolation _ => cases hw

/-- A value that fits, once a branch of the type has converted it. -/
theorem Fits.coerced (hfits : s.Fits w) {name : String} (hname : name ∈ TypeExpr.branches s.typeExpr)
    (hconverted : TypeExpr.convert? w name = some (TypeExpr.coerce s.typeExpr w))
    (hplain : (TypeExpr.coerce s.typeExpr w).Plain) :
    s.Fits (TypeExpr.coerce s.typeExpr w) ∨ s.Rewritten w (TypeExpr.coerce s.typeExpr w) := by
  have htyped : TypeExpr.accepts s.typeExpr (TypeExpr.coerce s.typeExpr w) = true :=
    List.any_eq_true.mpr ⟨name, hname, TypeExpr.convert?_matches hconverted⟩
  have hcoerced : s.Coerced w (TypeExpr.coerce s.typeExpr w) := ⟨hfits, rfl, htyped⟩
  have hconverts := TypeExpr.convert?_converts hconverted
  rcases hconverts.display_cases with ⟨⟨text, rfl⟩, hspelled⟩ | ⟨hwritten, htext⟩ | ⟨hnumber, htext⟩
  · -- what is checked of the text is not lost when the text stays
    by_cases hkept : (TypeExpr.coerce s.typeExpr (.string text)).display = text
    · exact .inl (Fits.of_text (hkept.symm ▸ hfits) hplain htyped)
    · exact .inr (.inl ⟨hcoerced, hkept, hspelled.resolve_right hkept⟩)
  · rcases hwritten with hnumber | ⟨b, rfl⟩
    · refine .inr (.inr ⟨hcoerced, htext, hnumber, ?_, ?_⟩)
      · intro pattern hpattern
        rw [htext] at hconverts ⊢
        exact hconverts.matches_text (hfits.pattern pattern hpattern)
      · intro hzero choices hchoices
        rw [htext] at hconverts ⊢
        exact hconverts.isChoice_text hzero (hfits.choice choices hchoices)
    · -- a truth value would be kept
      rw [TypeExpr.coerce_bool hfits.typed] at htext
      cases htext
  · exact .inr (.inl ⟨hcoerced, htext, hnumber⟩)

/-- A literal that was checked, once it is normalised. -/
theorem conforms_literal (hb : b ≠ .null) (hw : b.toJson? = some w)
    (hchecked : w.isNull = true ∨ s.Fits w) (ha : s.normalized (some b) = some a)
    (hv : a.toJson? = some v) (hfinite : ∀ x, a = .float x → x.isFinite = true) :
    s.Conforms v ∨ s.Rewritten w v := by
  rw [normalized.eq_3 s b hb, hw] at ha
  simp only at ha
  split at ha
  · -- coercion changes nothing, and the value is the one that was checked
    cases ha
    rw [hw] at hv
    cases hv
    have hnull : ¬ v.isNull = true := by
      intro hnull
      obtain ⟨x, hx, hinfinite⟩ := isNull_of_toJson? hb hw hnull
      exact Bool.false_ne_true (hinfinite.symm.trans (hfinite x hx))
    exact .inl ((hchecked.resolve_left hnull).conforms (by simpa using hnull))
  · -- coercion changes the value, so a branch of the type converts it
    rename_i hother
    cases ha
    rcases TypeExpr.coerce_cases s.typeExpr w with hkept | ⟨name, hname, hconverted⟩
    · rw [hkept] at hother
      exact absurd (AttrValue.same_self hw) hother
    · obtain ⟨hplain, hnull⟩ := TypeExpr.convert?_plain hconverted fun x hx =>
        hfinite x (by rw [hx, AttrValue.ofJson])
      have hfits : s.Fits w :=
        hchecked.resolve_left (by simp [TypeExpr.convert?_not_null hconverted])
      rw [AttrValue.toJson?_ofJson hplain] at hv
      cases hv
      exact (hfits.coerced hname hconverted hplain).imp_left fun h => h.conforms hnull

end Schema

/-- The attributes of a tag that a component accepts, once they are normalised. -/
theorem Component.Accepts.conforms [Formats] {comp : Component} {platform : Option String} {t : Tag}
    {content : List Node} (h : comp.Accepts platform t content) (hsound : comp.Sound) {name : String}
    {s : Schema} {a : AttrValue} {v : Value} (hprop : comp.prop? name = some s)
    (ha : Table.lookup name (comp.normalizeAttrs t.attrs) = some a) (hv : a.toJson? = some v)
    (hfinite : ∀ x, a = .float x → x.isFinite = true) :
    s.Conforms v ∨ ∃ b w, t.attr? name = some b ∧ b.toJson? = some w ∧ s.Rewritten w v := by
  have hmem := Table.mem_of_lookup hprop
  rw [comp.lookup_normalizeAttrs, hprop] at ha
  simp only at ha
  by_cases hmissing : ∀ b ∈ t.attr? name, b = .null
  · -- a required prop is given by something else than null
    have hoptional : s.required = false := by
      refine Bool.eq_false_iff.mpr fun hrequired => ?_
      obtain ⟨b, hb, hnull⟩ := h.given _ hmem hrequired
      exact hnull (hmissing b hb)
    exact .inl (Schema.conforms_missing hmissing hoptional (hsound _ hmem) ha hv)
  · simp only [not_forall] at hmissing
    obtain ⟨b, hgiven, hb⟩ := hmissing
    rw [show Table.lookup name t.attrs = some b from hgiven] at ha
    obtain ⟨w, hw⟩ : ∃ w, b.toJson? = some w := by
      -- an interpolation would be kept, and have no data
      by_contra hnone
      have hb' := Option.eq_none_iff_forall_ne_some.mpr fun w hw => hnone ⟨w, hw⟩
      rw [Schema.normalized.eq_3 s b hb, hb'] at ha
      cases ha
      cases hb'.symm.trans hv
    have hchecked := (s.check_excused "value" w).mp
      (h.values _ (Table.mem_of_lookup hgiven) s w hprop hw)
    exact (Schema.conforms_literal hb hw hchecked ha hv hfinite).imp_right
      fun hrewritten => ⟨b, w, hgiven, hw, hrewritten⟩

/-- Every literal attribute that a component declares conforms to its schema, save for what
    coercion made of a literal that is written in the document and fits. -/
def Compiled.Conforms [Formats] (c : Compiled) (r : Registry) (d : Document) : Prop :=
  ∀ t' content', c.document.Contains (.tag t' content') →
    ∃ t content, d.Contains (.tag t content) ∧ t' = t.normalize r ∧
      ∀ comp, r.component? t'.name = some comp →
        ∀ name s a v, comp.prop? name = some s → t'.attr? name = some a → a.toJson? = some v →
          (∀ x, a = .float x → x.isFinite = true) →
          s.Conforms v ∨ ∃ b w, t.attr? name = some b ∧ b.toJson? = some w ∧ s.Rewritten w v

/-- A part whose code and row have leading zeros, whose label is a number or a text of some length,
    whose share is zero, whose sizes are a list, and that needs a weight. -/
def partComponent : Component :=
  { Component.plain "part" "" with
    props := [("code", { Schema.ofType "integer" with pattern := some "^01$" }),
      ("row", { Schema.ofType "integer" with choices := some [.string "01"] }),
      ("label", { Schema.ofType "string|float" with minLength := some 3 }),
      ("share", { Schema.ofType "string|integer" with choices := some [.float (.zero false)] }),
      ("sizes", { Schema.ofType "array" with fallback := some (.array [.int 1]) }),
      ("weight", { Schema.ofType "number" with required := true })]
    distinct := by decide }

def shop : Registry :=
  .ofManifests .full .native
    [("shop.json", ⟨"shop", "1.0.0", none, [], [], [("part", partComponent)], []⟩)]

def partTag : Tag :=
  ⟨"part", [("code", .str "01"), ("row", .str "01"), ("label", .int 5), ("share", .float (.zero true)),
    ("weight", .float (.infinite false))], true, ⟨1, 1, 0⟩⟩

end BraceTemplate
