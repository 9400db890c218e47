import BraceTemplate.Proofs.Blanks
import BraceTemplate.Proofs.Checking.Agreement
import BraceTemplate.Proofs.Checking.Coercion

/- Compiling what is compiled already. A second compilation looks at the values that the first one
   put in: coerced literals, and defaults, of which arrays and objects were kept as their texts. A
   coerced literal has the form that its prop asks for, a default is assumed to have it, and the
   text of an array or an object spells no value of another type (`TypeExpr.convert?_opened`). So
   a prop makes of an attribute that it has made the same attribute
   (`Schema.normalized_normalized`), and with the attributes all tags stay as they are
   (`Rules.compileDocument_idem`). -/
namespace BraceTemplate

open Json

/-! Texts of arrays and objects. -/

theorem Double.lower_opened_ne {c : Char} (hc : c = '[' ∨ c = '\x7b') (tail : List Char) {name : String}
    (hname : name.toList.head? ≠ some c) : String.ofList ((c :: tail).map Char.toLower) ≠ name := by
  rintro rfl
  refine hname ?_
  rw [String.toList_ofList, List.map_cons, List.head?_cons]
  rcases hc with rfl | rfl <;> rfl

/-- What starts with a bracket or a brace is no number and no word. -/
theorem Double.read?_opened {c : Char} (hc : c = '[' ∨ c = '\x7b') (tail : List Char) :
    read? (c :: tail) = none := by
  have hword : ∀ name ∈ ["inf", "infinity", "nan"],
      String.ofList ((c :: tail).map Char.toLower) ≠ name := fun name hname =>
    lower_opened_ne hc tail (by rcases hc with rfl | rfl <;> revert name <;> decide)
  have hunsigned : readUnsigned? false (c :: tail) = none := by
    rcases hc with rfl | rfl <;> simp [readUnsigned?]
  unfold read?
  split
  rename_i negative rest hsign
  obtain ⟨rfl, rfl⟩ : negative = false ∧ rest = c :: tail := by
    rw [← Prod.mk.injEq, ← hsign]
    rcases hc with rfl | rfl <;> rfl
  simp only [hword "inf" (by decide), hword "infinity" (by decide), hword "nan" (by decide), hunsigned,
    decide_false, Bool.or_self, Bool.false_eq_true, if_false]

namespace TypeExpr

/-- The text of an array or an object is converted for no branch. -/
theorem convert?_opened {text : String} {c : Char} {tail : List Char} (htext : text.toList = c :: tail)
    (hc : c = '[' ∨ c = '\x7b') (name : String) : convert? (.string text) name = none := by
  have hblank : Text.isWhitespace c = false := by rcases hc with rfl | rfl <;> decide
  obtain ⟨rest, htrim⟩ := Text.trim_cons hblank tail
  have hinteger : ∀ n, integer? text ≠ some n := by
    intro n hn
    rw [integer?, htext, htrim] at hn
    have hchar := Text.mem_of_int64? hn List.mem_cons_self
    rcases hc with rfl | rfl <;> exact absurd hchar (by decide)
  have hfloat : ∀ x, float? text ≠ some x := by
    intro x hx
    rw [float?, htext, htrim, Double.read?_opened hc] at hx
    simp at hx
  refine Option.eq_none_iff_forall_ne_some.mpr fun v hv => ?_
  cases convert?_converts hv with
  | integerOfText hn | numberOfInteger hn => exact hinteger _ hn
  | numberOfText hx | floatOfText hx => exact hfloat _ hx
  | isTrue | isFalse =>
    have hhead : _ = some c := congrArg List.head? htext
    rcases hc with rfl | rfl <;> exact absurd hhead (by decide)

/-- A value is never converted to null. -/
theorem convert?_isNull {w v : Value} {name : String} (h : convert? w name = some v) :
    v.isNull = false := by
  cases convert?_converts h <;> rfl

theorem coerce_opened [Formats] {text : String} {c : Char} {tail : List Char} (htext : text.toList = c :: tail)
    (hc : c = '[' ∨ c = '\x7b') (expr : String) : coerce expr (.string text) = .string text := by
  rcases coerce_cases expr (.string text) with hkept | ⟨name, -, hconverted⟩
  · exact hkept
  · rw [convert?_opened htext hc] at hconverted
    cases hconverted

end TypeExpr

/-! Attributes. -/

theorem AttrValue.ofJson_ne_null {v : Value} (h : v.isNull = false) : ofJson v ≠ .null := by
  cases v with
  | null => cases h
  | int n =>
    rw [ofJson]
    split <;> simp
  | bool | float | string | array | object => simp [ofJson]

/-- The value has the form of the prop already, and an attribute can hold it if it is an integer.
    What is read from a manifest has no integers below those of 64 bits, so of its defaults only
    larger integers are left out. -/
structure Schema.Keeps [Formats] (s : Schema) (v : Value) : Prop where
  coerced : TypeExpr.coerce s.typeExpr v = v
  bounded : ∀ n, v = .int n → Text.isInt64 n = true

namespace Schema
variable [Formats] {s : Schema} {a : AttrValue} {v : Value}

theorem normalized_of_coerced (hne : a ≠ .null) (hv : a.toJson? = some v)
    (h : TypeExpr.coerce s.typeExpr v = v) : s.normalized (some a) = some a := by
  rw [normalized.eq_3 s a hne, hv]
  simp only
  rw [h, if_pos (AttrValue.same_self hv)]

/-- The attribute that stands for a value of the form of the prop is left alone. -/
theorem normalized_ofJson (h : s.Keeps v) (hnull : v.isNull = false) :
    s.normalized (some (.ofJson v)) = some (.ofJson v) := by
  have hne := AttrValue.ofJson_ne_null hnull
  cases v with
  | null => cases hnull
  | bool b => exact normalized_of_coerced hne rfl h.coerced
  | int n =>
    exact normalized_of_coerced hne (AttrValue.toJson?_ofJson (.int (h.bounded n rfl))) h.coerced
  | float x =>
    cases hfinite : x.isFinite with
    | true => exact normalized_of_coerced hne (AttrValue.toJson?_ofJson (.float hfinite)) h.coerced
    | false =>
      -- there is no data of this kind, so the attribute has null as its data
      refine normalized_of_no_data hne fun v hv => ?_
      rw [AttrValue.ofJson, AttrValue.toJson?, Value.ofDouble, hfinite] at hv
      cases hv
      rfl
  | string text => exact normalized_of_coerced hne rfl h.coerced
  | array items =>
    refine normalized_of_coerced hne rfl ?_
    cases items <;> exact TypeExpr.coerce_opened String.toList_ofList (.inl rfl) _
  | object fields =>
    refine normalized_of_coerced hne rfl ?_
    cases fields <;> exact TypeExpr.coerce_opened String.toList_ofList (.inr rfl) _

/-- A default of the form of its prop is left alone where it was put in. -/
theorem normalized_default (hdefault : s.fallback = some v) (h : s.Keeps v) :
    s.normalized (some (.ofJson v)) = some (.ofJson v) := by
  cases hnull : v.isNull with
  | false => exact normalized_ofJson h hnull
  | true =>
    cases v with
    | null => simp [normalized, hdefault, AttrValue.ofJson]
    | bool | int | float | string | array | object => cases hnull

/-- What a value is coerced to has the form of the prop. -/
theorem keeps_converted {name : String} {w : Value} (hname : name ∈ TypeExpr.branches s.typeExpr)
    (h : TypeExpr.convert? v name = some w) : s.Keeps w where
  coerced := TypeExpr.coerce_of_hasForm hname (TypeExpr.convert?_hasForm h)
  bounded n hn := by
    obtain ⟨hplain, -⟩ := TypeExpr.convert?_plain h fun x hx => by rw [hn] at hx; cases hx
    rw [hn] at hplain
    cases hplain with
    | int hint => exact hint

/-- A prop leaves an attribute alone that it has made. -/
theorem normalized_normalized (hdefault : ∀ d ∈ s.fallback, s.Keeps d) (given : Option AttrValue) :
    s.normalized (s.normalized given) = s.normalized given := by
  by_cases hgiven : ∀ a ∈ given, a = .null
  · -- a default is put in, or there is none
    cases hfallback : s.fallback with
    | none =>
      cases given with
      | none => simp [normalized, hfallback]
      | some a =>
        obtain rfl := hgiven a rfl
        simp [normalized, hfallback]
    | some d =>
      have hfilled : s.normalized given = some (.ofJson d) := by
        cases given with
        | none => simp [normalized, hfallback]
        | some a =>
          obtain rfl := hgiven a rfl
          simp [normalized, hfallback]
      rw [hfilled]
      exact normalized_default hfallback (hdefault d hfallback)
  · simp only [not_forall] at hgiven
    obtain ⟨a, rfl, hne⟩ := hgiven
    cases hv : a.toJson? with
    | none =>
      have hkept : s.normalized (some a) = some a := normalized_of_no_data hne fun v h => by
        rw [hv] at h
        cases h
      rw [hkept, hkept]
    | some v =>
      rcases TypeExpr.coerce_cases s.typeExpr v with hsame | ⟨name, hname, hconverted⟩
      · have hkept : s.normalized (some a) = some a := normalized_of_coerced hne hv hsame
        rw [hkept, hkept]
      · have hcoerced : s.normalized (some a) = some (.ofJson (TypeExpr.coerce s.typeExpr v)) := by
          rw [normalized.eq_3 s a hne, hv]
          simp only
          rw [if_neg (by rw [TypeExpr.convert?_not_same hconverted]; exact Bool.false_ne_true)]
        rw [hcoerced]
        exact normalized_ofJson (keeps_converted hname hconverted) (TypeExpr.convert?_isNull hconverted)

/-- A prop changes nothing where it makes of an attribute what is there. -/
theorem normalizeAttr_of_normalized {as : List (String × AttrValue)} {prop : String × Schema}
    (h : prop.2.normalized (Table.lookup prop.1 as) = Table.lookup prop.1 as) :
    normalizeAttr as prop = as := by
  unfold normalizeAttr
  simp only
  split
  · rename_i hnone
    rw [hnone, normalized, Option.map_eq_none_iff] at h
    rw [h]
  · rename_i hnull
    rw [hnull, normalized] at h
    cases hfallback : prop.2.fallback with
    | none => rfl
    | some d =>
      rw [hfallback] at h
      exact Table.insert_of_lookup (hnull.trans h.symm)
  · rename_i a hne ha
    rw [ha, normalized.eq_3 prop.2 a hne] at h
    cases hv : a.toJson? with
    | none => rfl
    | some v =>
      simp only [hv] at h ⊢
      split
      · rfl
      · rename_i hother
        rw [if_neg hother] at h
        exact Table.insert_of_lookup (ha.trans h.symm)

end Schema

/-! Tags. -/

/-- The defaults of a component have the form of their props. -/
def Component.KeepsDefaults [Formats] (c : Component) : Prop := ∀ p ∈ c.props, ∀ d ∈ p.2.fallback, p.2.Keeps d

/-- Attributes that are normalised stay as they are. -/
theorem Component.normalizeAttrs_idem [Formats] {c : Component} (h : c.KeepsDefaults)
    (as : List (String × AttrValue)) :
    c.normalizeAttrs (c.normalizeAttrs as) = c.normalizeAttrs as := by
  have hkept : ∀ p ∈ c.props, p.2.normalized (Table.lookup p.1 (c.normalizeAttrs as)) =
      Table.lookup p.1 (c.normalizeAttrs as) := by
    intro p hp
    have hprop : c.prop? p.1 = some p.2 := (Table.lookup_eq_some_iff c.distinct).mpr hp
    rw [c.lookup_normalizeAttrs, hprop]
    exact Schema.normalized_normalized (h p hp) _
  generalize c.normalizeAttrs as = made at hkept ⊢
  -- no prop changes anything, so none sees what another one made
  have hfold : ∀ props : List (String × Schema), (∀ p ∈ props, p ∈ c.props) →
      props.foldl Schema.normalizeAttr made = made := by
    intro props
    induction props with
    | nil => exact fun _ => rfl
    | cons p props ih =>
      intro hprops
      obtain ⟨hp, hprops⟩ := List.forall_mem_cons.mp hprops
      rw [List.foldl_cons, Schema.normalizeAttr_of_normalized (hkept p hp)]
      exact ih hprops
  exact hfold c.props fun p hp => hp

theorem Tag.normalize_idem [Formats] {r : Registry} (h : ∀ e ∈ r.components, e.2.KeepsDefaults) (t : Tag) :
    (t.normalize r).normalize r = t.normalize r := by
  cases hfound : r.component? t.name with
  | none =>
    have hkept : t.normalize r = t := by rw [normalize, hfound]
    rw [hkept, hkept]
  | some c =>
    obtain ⟨key, hmem⟩ := Registry.mem_of_component? hfound
    have hmade : t.normalize r = { t with attrs := c.normalizeAttrs t.attrs } := by
      rw [normalize, hfound]
    rw [hmade, normalize, hfound]
    simp only
    rw [Component.normalizeAttrs_idem (h _ hmem)]

namespace Node
variable [Formats] {r : Registry}

mutual
theorem normalize_idem (h : ∀ e ∈ r.components, e.2.KeepsDefaults) : (n : Node) →
    (n.normalize r).normalize r = n.normalize r
  | .tag t content => by
    rw [normalize, normalize, t.normalize_idem h, normalizeAll_idem h content]
  | .document _ _ => rfl
  | .text _ _ => rfl
  | .comment _ _ => rfl
  | .interpolation _ => rfl

theorem normalizeAll_idem (h : ∀ e ∈ r.components, e.2.KeepsDefaults) : (ns : List Node) →
    normalizeAll r (normalizeAll r ns) = normalizeAll r ns
  | [] => rfl
  | n :: ns => by rw [normalizeAll, normalizeAll, normalize_idem h n, normalizeAll_idem h ns]
end

end Node

/-- Compiling a compiled document changes nothing, where every default has the form that its prop
    asks for and no default is an integer that an attribute cannot hold. -/
theorem Rules.compileDocument_idem [Formats] (rules : Rules)
    (h : ∀ e ∈ rules.registry.components, e.2.KeepsDefaults) (d : Document) :
    (rules.compileDocument (rules.compileDocument d).document).document =
      (rules.compileDocument d).document :=
  congrArg (Document.mk d.preamble) (Node.normalizeAll_idem h d.children)

/-- A part whose code is written as a text, and whose sizes are a list that is put in as a text. -/
theorem Rules.compileDocument_idem_part : (∀ e ∈ shop.components, e.2.KeepsDefaults) ∧
    ((ofRegistry shop).compileDocument ((ofRegistry shop).compileDocument
        ⟨⟨none, none, []⟩, [.tag partTag []]⟩).document).document =
      ((ofRegistry shop).compileDocument ⟨⟨none, none, []⟩, [.tag partTag []]⟩).document := by
  have hpart : shop.components = [("part", partComponent)] := rfl
  have hkeeps : ∀ e ∈ shop.components, e.2.KeepsDefaults := by
    rw [hpart]
    refine List.forall_mem_singleton.mpr fun p hp d hd => ?_
    simp only [partComponent, List.mem_cons, List.not_mem_nil, or_false] at hp
    -- only the sizes have a default
    obtain rfl | rfl | rfl | rfl | rfl | rfl := hp
    case inr.inr.inr.inr.inl =>
      cases hd
      exact ⟨rfl, fun n hn => by cases hn⟩
    all_goals cases hd
  exact ⟨hkeeps, compileDocument_idem (ofRegistry shop) hkeeps _⟩

end BraceTemplate
