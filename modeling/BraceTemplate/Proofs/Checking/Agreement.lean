import BraceTemplate.Proofs.Checking.Settled
import BraceTemplate.Proofs.Doubles

/- Two ways to normalise a value. A schema normalises data that it is given, and a compilation
   normalises the attributes of tags, which it turns into data and back. Both find the same: a
   literal is coerced, and what is missing or null takes the default (`Schema.Agrees`). That
   holds of every tag whose integers have 64 bits (`Tag.normalize_agrees`), and those that are
   written in a source have (`Document.parse_bounded`), so it holds of every tag of a compiled
   source (`Rules.compile_agrees`). -/
namespace BraceTemplate

open Json

/-! Coerced literals. -/

namespace TypeExpr

theorem isFinite_of_float? {text : String} {x : Double} (h : float? text = some x) :
    x.isFinite = true := by
  unfold float? at h
  simp only [Option.ite_none_left_eq_some] at h
  obtain ⟨-, h⟩ := h
  split at h
  · obtain ⟨hfinite, hx⟩ := Option.ite_none_right_eq_some.mp h
    cases hx
    exact hfinite
  · cases h

/-- A value is converted to a float only in the range of floats. -/
theorem convert?_finite {w : Value} {name : String} {x : Double}
    (h : convert? w name = some (.float x)) (hw : ∀ n, w = .int n → Text.isInt64 n = true) :
    x.isFinite = true := by
  cases convert?_converts h with
  | numberOfText hx | floatOfText hx => exact isFinite_of_float? hx
  | floatOfInt n => exact Double.isFinite_ofInt (hw n rfl)

end TypeExpr

/-- Only an integer has an integer as its data. -/
theorem AttrValue.eq_int {a : AttrValue} {n : Int} (h : a.toJson? = some (.int n)) : a = .int n := by
  cases a with
  | int m => cases h; rfl
  | float x =>
    rw [toJson?, Value.ofDouble] at h
    split at h <;> simp at h
  | str _ => cases h
  | bool _ => cases h
  | null => cases h
  | interpolation _ => cases h

/-- The integer that an attribute may be has 64 bits. -/
def AttrValue.Bounded (a : AttrValue) : Prop := ∀ n, a = .int n → Text.isInt64 n = true

namespace Schema
variable [Formats] {s : Schema} {a : AttrValue} {v : Value}

/-- The data of a literal, coerced, is the data of the attribute that is made of it. -/
theorem toJson?_normalized (ha : a.Bounded) (hv : a.toJson? = some v) (hnull : v.isNull = false) :
    (s.normalized (some a)).bind AttrValue.toJson? = some (TypeExpr.coerce s.typeExpr v) := by
  have hne : a ≠ .null := by
    rintro rfl
    cases hv
    cases hnull
  rw [normalized.eq_3 s a hne, hv]
  simp only
  rcases TypeExpr.coerce_cases s.typeExpr v with hkept | ⟨name, -, hconverted⟩
  · rw [hkept, if_pos (AttrValue.same_self hv)]
    exact hv
  · rw [if_neg (by rw [TypeExpr.convert?_not_same hconverted]; exact Bool.false_ne_true)]
    refine AttrValue.toJson?_ofJson (TypeExpr.convert?_plain hconverted fun x hx => ?_).1
    refine TypeExpr.convert?_finite (hx ▸ hconverted) fun n hn => ha n ?_
    exact AttrValue.eq_int (hn ▸ hv)

/-- Data that is normalised without a finding is coerced. -/
theorem eq_coerce_of_normalize {c : Value} (hnull : v.isNull = false)
    (h : s.normalize (some v) = .ok c) : c = TypeExpr.coerce s.typeExpr v := by
  rw [normalize, Option.filter_some, hnull, Bool.not_false, if_pos rfl] at h
  simp only at h
  split at h <;> cases h
  rfl

/-- Missing data takes the default of an optional prop, or is null. -/
theorem normalize_none (hoptional : s.required = false) :
    s.normalize none = .ok (s.fallback.getD .null) := by
  rw [normalize, Option.filter_none, hoptional]
  rfl

/-- The data of an attribute that is missing or null is the default, if an attribute can hold
    it. -/
theorem toJson?_normalized_absent {given : Option AttrValue} (hgiven : ∀ b ∈ given, b = .null)
    (hplain : ∀ d ∈ s.fallback, d.Plain) :
    ((s.normalized given).getD .null).toJson? = some (s.fallback.getD .null) := by
  have hfilled : (s.normalized given).getD .null = (s.fallback.map .ofJson).getD .null := by
    cases given with
    | none => rfl
    | some b =>
      obtain rfl := hgiven b rfl
      rw [normalized]
      cases s.fallback <;> rfl
  rw [hfilled]
  cases hfallback : s.fallback with
  | none => rfl
  | some d => exact AttrValue.toJson?_ofJson (hplain d hfallback)

/-- What has no data, or no other than null, is kept as it is written. -/
theorem normalized_of_no_data (hne : a ≠ .null) (hnull : ∀ v, a.toJson? = some v → v.isNull = true) :
    s.normalized (some a) = some a := by
  rw [normalized.eq_3 s a hne]
  cases hv : a.toJson? with
  | none => rfl
  | some v =>
    simp only
    rcases TypeExpr.coerce_cases s.typeExpr v with hkept | ⟨name, -, hconverted⟩
    · rw [hkept, if_pos (AttrValue.same_self hv)]
    · exact absurd ((TypeExpr.convert?_not_null hconverted).symm.trans (hnull v hv)) Bool.false_ne_true

/-- The attribute that is compiled for a prop has as its data what the schema makes of the data
    of the attribute that is given. One that has no data, an interpolation or a float out of
    range, is left to the renderer. -/
structure Agrees (s : Schema) (given compiled : Option AttrValue) : Prop where
  literal {a : AttrValue} {v : Value} (h : given = some a) (hv : a.toJson? = some v)
    (hnull : v.isNull = false) :
    compiled.bind AttrValue.toJson? = some (TypeExpr.coerce s.typeExpr v) ∧
      ∀ c, s.normalize (some v) = .ok c → compiled.bind AttrValue.toJson? = some c
  kept {a : AttrValue} (h : given = some a) (hne : a ≠ .null)
    (hnull : ∀ v, a.toJson? = some v → v.isNull = true) : compiled = some a
  absent (h : ∀ a ∈ given, a = .null) (hoptional : s.required = false)
    (hplain : ∀ d ∈ s.fallback, d.Plain) :
    ∃ c, s.normalize none = .ok c ∧ (compiled.getD .null).toJson? = some c

theorem normalized_agrees (s : Schema) {given : Option AttrValue} (hgiven : ∀ a ∈ given, a.Bounded) :
    s.Agrees given (s.normalized given) where
  literal h hv hnull := by
    subst h
    have hdata := toJson?_normalized (s := s) (hgiven _ rfl) hv hnull
    exact ⟨hdata, fun c hc => by rw [eq_coerce_of_normalize hnull hc, hdata]⟩
  kept h hne hnull := by
    rw [h]
    exact normalized_of_no_data hne hnull
  absent h hoptional hplain := ⟨_, normalize_none hoptional, toJson?_normalized_absent h hplain⟩

end Schema

/-! Tags. -/

/-- The integers among the attributes have 64 bits. -/
def Tag.Bounded (t : Tag) : Prop := ∀ name, ∀ a ∈ t.attr? name, a.Bounded

/-- The same tag, where every prop of the component that it names agrees with its schema. -/
structure Tag.Agrees [Formats] (r : Registry) (t t' : Tag) : Prop where
  name : t'.name = t.name
  props {c : Component} (hc : r.component? t.name = some c) {name : String} {s : Schema}
    (hs : c.prop? name = some s) : s.Agrees (t.attr? name) (t'.attr? name)

theorem Tag.normalize_agrees [Formats] (r : Registry) {t : Tag} (ht : t.Bounded) :
    t.Agrees r (t.normalize r) := by
  refine ⟨by unfold normalize; split <;> rfl, fun {c} hc {name s} hs => ?_⟩
  have hlookup : (t.normalize r).attr? name = s.normalized (t.attr? name) := by
    rw [attr?, normalize, hc]
    simp only
    rw [c.lookup_normalizeAttrs, hs]
    rfl
  rw [hlookup]
  exact s.normalized_agrees (ht name)

/-! Documents. -/

namespace Node
variable [Formats] {r : Registry}

mutual
theorem tags_normalize : (n : Node) → (∀ p content, .document p content ∉ n.walk) →
    (n.normalize r).walk.filterMap tag? = (n.walk.filterMap tag?).map (Tag.normalize r)
  | .tag t content, h => by
    have hcontent := tags_normalizeAll content fun p c hp => h p c (List.mem_cons_of_mem _ hp)
    rw [normalize, walk, walk]
    exact congrArg (t.normalize r :: ·) hcontent
  | .document p content, h => absurd List.mem_cons_self (h p content)
  | .text _ _, _ => rfl
  | .comment _ _, _ => rfl
  | .interpolation _, _ => rfl

theorem tags_normalizeAll : (ns : List Node) → (∀ p content, .document p content ∉ walkAll ns) →
    (walkAll (normalizeAll r ns)).filterMap tag? = ((walkAll ns).filterMap tag?).map (Tag.normalize r)
  | [], _ => rfl
  | n :: ns, h => by
    have hn := tags_normalize n fun p c hp => h p c (List.mem_append_left _ hp)
    have hns := tags_normalizeAll ns fun p c hp => h p c (List.mem_append_right _ hp)
    rw [normalizeAll, walkAll, walkAll, List.filterMap_append, List.filterMap_append, List.map_append,
      hn, hns]
end

end Node

/-- Where no document is nested, the tags are normalised one by one. -/
theorem Document.tags_normalize [Formats] {r : Registry} {d : Document}
    (h : ∀ p content, ¬ d.Contains (.document p content)) :
    (d.normalize r).tags = d.tags.map (Tag.normalize r) :=
  Node.tags_normalizeAll d.children fun p content hp => h p content (mem_nodes.mp hp)

/-! Written tags. -/

/-- An integer that is the value of an attribute is a token. -/
theorem Tag.WritesAttrs.token_of_int {ts : List Token} {as : List (String × AttrValue)}
    (h : WritesAttrs ts as) {name : String} {n : Int} (hmem : (name, .int n) ∈ as) :
    ∃ t ∈ ts, t.symbol = (.number, .int n) := by
  induction h with
  | nil => cases hmem
  | flag hname has ih =>
    obtain ⟨t, ht, hsymbol⟩ := ih ((List.mem_cons.mp hmem).resolve_left (by simp))
    exact ⟨t, List.mem_cons_of_mem _ ht, hsymbol⟩
  | @given word eq name' value ts v as hname heq hvalue has ih =>
    rcases List.mem_cons.mp hmem with hgiven | hmem
    · obtain ⟨-, rfl⟩ := Prod.mk.inj hgiven
      cases hvalue with
      | int hsymbol => exact ⟨_, by simp, hsymbol⟩
    · obtain ⟨t, ht, hsymbol⟩ := ih hmem
      exact ⟨t, by simp [ht], hsymbol⟩

theorem Tag.Written.token_of_int {ts : List Token} {t : Tag} (h : t.Written ts) {name : String}
    {n : Int} (hn : t.attr? name = some (.int n)) : ∃ tok ∈ ts, tok.symbol = (.number, .int n) := by
  obtain ⟨hbrace, hname, hpath, has, hends⟩ := h
  have hmem := Table.mem_of_lookup hn
  rw [← Table.ofEntries_eq_lastValues] at hmem
  obtain ⟨tok, htok, hsymbol⟩ := has.token_of_int ((Table.mem_insertAll hmem).resolve_left (by simp))
  exact ⟨tok, by simp [htok], hsymbol⟩

/-- The integers that are written in a source have 64 bits. -/
theorem Document.parse_bounded {source : String} {d : Document} (h : parse source = .ok d) :
    ∀ t ∈ d.tags, t.Bounded := by
  intro t ht name a ha n han
  obtain ⟨node, hnode, htag⟩ := List.mem_filterMap.mp ht
  obtain ⟨toks, _, es, b, -, -, hcuts, hwrites, hbuilt, rfl⟩ := parse_writes h
  obtain ⟨e, he, hgives⟩ := (Builder.builtFrom hbuilt).finish node (mem_nodes.mp hnode)
  obtain ⟨before, used, after, rfl, hwritten⟩ := hwrites.split he
  have hused : t.Written used := by
    cases hgives with
    | selfClosing => cases htag; cases hwritten with | selfClosing _ h => exact h
    | opening => cases htag; cases hwritten with | opening _ h => exact h
    | text | comment | interpolation => cases htag
  obtain ⟨tok, htok, hsymbol⟩ := hused.token_of_int (han ▸ ha)
  obtain ⟨_, _, _, _, _, -, -, hlexeme⟩ := hcuts.place (t := tok) (by simp [htok])
  have hlexed := (hsymbol ▸ hlexeme).lexed
  exact hlexed

namespace Rules

/-- A compilation normalises attributes as the schemas of their props normalise data: it does so
    for every tag that can be built, and for the tags of every source, one by one. -/
theorem compile_agrees [Formats] (rules : Rules) :
    (∀ t : Tag, t.Bounded → t.Agrees rules.registry (t.normalize rules.registry)) ∧
      ∀ source c, rules.compile source = .ok c → ∃ d, Document.parse source = .ok d ∧
        List.Forall₂ (Tag.Agrees rules.registry) d.tags c.document.tags := by
  refine ⟨fun t ht => Tag.normalize_agrees rules.registry ht, fun source c h => ?_⟩
  obtain ⟨d, hd, rfl⟩ := compile_ok h
  refine ⟨d, hd, ?_⟩
  rw [Document.compiledWith, Document.tags_normalize (Document.parse_no_document hd),
    List.forall₂_map_right_iff, List.forall₂_same]
  exact fun t ht => Tag.normalize_agrees rules.registry (Document.parse_bounded hd t ht)

/-- A grid whose columns are written as a text, and whose gap is left out. -/
theorem compile_agrees_grid :
    gridTag.Agrees (Registry.builtin .full .native) (gridTag.normalize (Registry.builtin .full .native)) ∧
    ∃ c, (ofRegistry (Registry.builtin .full .native)).compile "\x7bikb_grid columns=\"3\" /\x7d" = .ok c ∧
      ∃ d, Document.parse "\x7bikb_grid columns=\"3\" /\x7d" = .ok d ∧
        List.Forall₂ (Tag.Agrees (Registry.builtin .full .native)) d.tags c.document.tags := by
  have hbounded : gridTag.Bounded := by
    intro name a ha n hn
    rcases List.mem_singleton.mp (Table.mem_of_lookup ha) with h
    cases hn ▸ h
  obtain ⟨htag, hsource⟩ := compile_agrees (ofRegistry (Registry.builtin .full .native))
  have hcompile := compile_eq (ofRegistry (Registry.builtin .full .native)) Document.parse_grid
  exact ⟨htag gridTag hbounded, _, hcompile, hsource _ _ hcompile⟩

end Rules
end BraceTemplate
