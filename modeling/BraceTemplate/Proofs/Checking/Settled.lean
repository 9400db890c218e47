import BraceTemplate.Proofs.Checking.Conformance
import BraceTemplate.Proofs.Parsing.Grammar

/- What a compilation writes into a document. It settles the attributes of the tags that name
   a component and touches nothing else: the document that comes out is the one that was
   parsed, node for node, save for those attributes (`Rules.compile_settles`). On such a tag
   the written names keep their places and the defaults come behind them, and
   `Component.Settles` says of every name what is found under it. So there is one settled
   document (`Document.Settled.unique`). -/
namespace BraceTemplate

/-! Attributes. -/

/-- The names of the props that are not written and have a default, as they are declared. -/
def Component.addedNames (c : Component) (written : List (String × AttrValue)) : List String :=
  (c.props.filter fun p => p.2.fallback.isSome && (Table.lookup p.1 written).isNone).map (·.1)

/-- The attributes that a component makes of those that are written on a tag. -/
structure Component.Settles [Formats] (c : Component) (written settled : List (String × AttrValue)) : Prop where
  distinct : Table.Distinct settled
  names : settled.map (·.1) = written.map (·.1) ++ c.addedNames written
  undeclared {name : String} (h : c.prop? name = none) :
    Table.lookup name settled = Table.lookup name written
  interpolation {name : String} {i : Interpolation}
    (h : Table.lookup name written = some (.interpolation i)) :
    Table.lookup name settled = some (.interpolation i)
  missing {name : String} {s : Schema} (hprop : c.prop? name = some s)
    (h : Table.lookup name written = none) :
    Table.lookup name settled = s.fallback.map .ofJson
  null {name : String} {s : Schema} (hprop : c.prop? name = some s)
    (h : Table.lookup name written = some .null) :
    Table.lookup name settled = some ((s.fallback.map .ofJson).getD .null)
  /-- A literal is coerced, and stays as it is written where that makes no difference. -/
  literal {name : String} {s : Schema} {a : AttrValue} {v : Json.Value}
    (hprop : c.prop? name = some s) (h : Table.lookup name written = some a) (hnull : a ≠ .null)
    (hv : a.toJson? = some v) :
    Table.lookup name settled =
      some (if (TypeExpr.coerce s.typeExpr v).same v then a else .ofJson (TypeExpr.coerce s.typeExpr v))

/-- Only an interpolation has no data. -/
theorem AttrValue.eq_interpolation {a : AttrValue} (h : a.toJson? = none) :
    ∃ i, a = .interpolation i := by
  cases a with
  | interpolation i => exact ⟨i, rfl⟩
  | str | int | float | bool | null => cases h

/-- A prop brings its name in when it has a default and is not written. -/
theorem Schema.keys_normalizeAttr [Formats] (as : List (String × AttrValue)) (prop : String × Schema) :
    (normalizeAttr as prop).map (·.1) = as.map (·.1) ++
      if prop.2.fallback.isSome && (Table.lookup prop.1 as).isNone then [prop.1] else [] := by
  have hplace : ∀ {a : AttrValue}, Table.lookup prop.1 as = some a → ∀ v,
      (Table.insert as prop.1 v).map (·.1) = as.map (·.1) := fun ha v => by
    rw [Table.keys_insert, if_pos (List.mem_map_of_mem (Table.mem_of_lookup ha))]
  unfold normalizeAttr
  simp only
  split
  · rename_i hnone
    cases prop.2.fallback with
    | none => simp
    | some v => simp [hnone, Table.keys_insert, Table.not_mem_of_lookup hnone]
  · rename_i hnull
    cases prop.2.fallback with
    | none => simp
    | some v => simp [hnull, hplace hnull]
  · rename_i a _ ha
    rw [ha, Option.isNone_some, Bool.and_false, if_neg Bool.false_ne_true, List.append_nil]
    split
    · rfl
    · split
      · rfl
      · exact hplace ha _

namespace Component
variable [Formats] {c : Component} {as : List (String × AttrValue)}

theorem keys_normalizeAttrs (c : Component) (as : List (String × AttrValue)) :
    (c.normalizeAttrs as).map (·.1) = as.map (·.1) ++ c.addedNames as := by
  have hprops := c.distinct
  unfold normalizeAttrs addedNames
  generalize c.props = props at hprops ⊢
  induction props generalizing as with
  | nil => exact (List.append_nil _).symm
  | cons prop props ih =>
    rw [Table.Distinct, List.map_cons, List.nodup_cons] at hprops
    -- the props behind this one have other names, so it does not write them
    have hrest : ∀ p ∈ props,
        Table.lookup p.1 (Schema.normalizeAttr as prop) = Table.lookup p.1 as := fun p hp => by
      have hother : prop.1 ≠ p.1 := fun heq => hprops.1 (by rw [heq]; exact List.mem_map_of_mem hp)
      rw [Schema.lookup_normalizeAttr, if_neg hother]
    rw [List.foldl_cons, ih _ hprops.2, List.filter_congr fun p hp => by rw [hrest p hp],
      Schema.keys_normalizeAttr, List.append_assoc, List.filter_cons]
    split <;> rfl

theorem distinct_normalizeAttrs (has : Table.Distinct as) : Table.Distinct (c.normalizeAttrs as) := by
  rw [Table.Distinct, keys_normalizeAttrs, List.nodup_append]
  refine ⟨has, c.distinct.sublist (List.filter_sublist.map _), ?_⟩
  rintro name hwritten _ hadded rfl
  obtain ⟨p, hp, rfl⟩ := List.mem_map.mp hadded
  have hnone := (Bool.and_eq_true_iff.mp (List.mem_filter.mp hp).2).2
  exact Table.not_mem_of_lookup (Option.isNone_iff_eq_none.mp hnone) hwritten

theorem settles_normalizeAttrs (has : Table.Distinct as) : c.Settles as (c.normalizeAttrs as) where
  distinct := distinct_normalizeAttrs has
  names := c.keys_normalizeAttrs as
  undeclared h := by rw [c.lookup_normalizeAttrs, h]
  interpolation {name i} h := by
    rw [c.lookup_normalizeAttrs, h]
    cases c.prop? name <;> rfl
  missing hprop h := by
    rw [c.lookup_normalizeAttrs, hprop, h]
    rfl
  null {name s} hprop h := by
    rw [c.lookup_normalizeAttrs, hprop, h]
    cases hfallback : s.fallback <;> simp [Schema.normalized, hfallback]
  literal {name s a v} hprop h hnull hv := by
    rw [c.lookup_normalizeAttrs, hprop, h]
    simp only [Schema.normalized.eq_3 s a hnull, hv]
    split <;> rfl

/-- A component settles the attributes of a tag in one way. -/
theorem Settles.unique {settled settled' : List (String × AttrValue)} (h : c.Settles as settled)
    (h' : c.Settles as settled') : settled = settled' := by
  have hlookup : ∀ name, Table.lookup name settled = Table.lookup name settled' := by
    intro name
    cases hprop : c.prop? name with
    | none => rw [h.undeclared hprop, h'.undeclared hprop]
    | some s =>
      cases ha : Table.lookup name as with
      | none => rw [h.missing hprop ha, h'.missing hprop ha]
      | some a =>
        cases hv : a.toJson? with
        | none =>
          obtain ⟨i, rfl⟩ := AttrValue.eq_interpolation hv
          rw [h.interpolation ha, h'.interpolation ha]
        | some v =>
          by_cases hnull : a = .null
          · rw [h.null hprop (hnull ▸ ha), h'.null hprop (hnull ▸ ha)]
          · rw [h.literal hprop ha hnull hv, h'.literal hprop ha hnull hv]
  rw [← Table.entries_of_lookup h.distinct, ← Table.entries_of_lookup h'.distinct, h.names, h'.names]
  exact congrArg (List.filterMap · _) (funext fun name => congrArg _ (hlookup name))

end Component

/-! Trees. -/

/-- The same tag, whose attributes are settled if it names a component. -/
structure Tag.Settled [Formats] (r : Registry) (t t' : Tag) : Prop where
  name : t'.name = t.name
  selfClosing : t'.selfClosing = t.selfClosing
  pos : t'.pos = t.pos
  unknown (h : r.component? t.name = none) : t'.attrs = t.attrs
  known {c : Component} (h : r.component? t.name = some c) : c.Settles t.attrs t'.attrs

/-- The same node, with all tags in it settled. -/
inductive Node.Settled [Formats] (r : Registry) : Node → Node → Prop where
  | tag {t t' : Tag} {content content' : List Node} (h : t.Settled r t')
    (hcontent : List.Forall₂ (Settled r) content content') : Settled r (.tag t content) (.tag t' content')
  | text (value : String) (pos : Position) : Settled r (.text value pos) (.text value pos)
  | comment (value : String) (pos : Position) : Settled r (.comment value pos) (.comment value pos)
  | interpolation (site : Interpolation) : Settled r (.interpolation site) (.interpolation site)

/-- The same document, with all tags in it settled. -/
structure Document.Settled [Formats] (r : Registry) (d d' : Document) : Prop where
  preamble : d'.preamble = d.preamble
  children : List.Forall₂ (Node.Settled r) d.children d'.children

theorem Tag.Settled.unique [Formats] {r : Registry} {t a b : Tag} (h : t.Settled r a) (h' : t.Settled r b) :
    a = b := by
  have hattrs : a.attrs = b.attrs := by
    cases hfound : r.component? t.name with
    | none => rw [h.unknown hfound, h'.unknown hfound]
    | some c => exact (h.known hfound).unique (h'.known hfound)
  cases a
  cases b
  rw [Tag.mk.injEq]
  exact ⟨h.name.trans h'.name.symm, hattrs, h.selfClosing.trans h'.selfClosing.symm,
    h.pos.trans h'.pos.symm⟩

mutual
theorem Node.Settled.unique [Formats] {r : Registry} : (n : Node) → {a b : Node} → n.Settled r a →
    n.Settled r b → a = b
  | .tag _ content, _, _, .tag h hcontent, .tag h' hcontent' => by
    rw [h.unique h', uniqueAll content hcontent hcontent']
  | .text _ _, _, _, .text _ _, .text _ _ => rfl
  | .comment _ _, _, _, .comment _ _, .comment _ _ => rfl
  | .interpolation _, _, _, .interpolation _, .interpolation _ => rfl

theorem Node.Settled.uniqueAll [Formats] {r : Registry} : (ns : List Node) → {as bs : List Node} →
    List.Forall₂ (Node.Settled r) ns as → List.Forall₂ (Node.Settled r) ns bs → as = bs
  | [], _, _, .nil, .nil => rfl
  | n :: ns, _, _, .cons h hs, .cons h' hs' => by rw [Settled.unique n h h', uniqueAll ns hs hs']
end

/-- A registry settles a document in one way. -/
theorem Document.Settled.unique [Formats] {r : Registry} {d a b : Document} (h : d.Settled r a)
    (h' : d.Settled r b) : a = b := by
  cases a
  cases b
  exact congrArg₂ Document.mk (h.preamble.trans h'.preamble.symm)
    (Node.Settled.uniqueAll d.children h.children h'.children)

/-! Written nodes. -/

/-- A tag that is written has each attribute once. -/
theorem Tag.Written.distinct {ts : List Token} {t : Tag} (h : t.Written ts) :
    Table.Distinct t.attrs := by
  cases h
  rw [← Table.ofEntries_eq_lastValues]
  exact Table.distinct_ofEntries _

/-- What is below the root of a parsed document comes from an event that is written. -/
theorem Document.parse_gives {source : String} {d : Document} (h : parse source = .ok d) {n : Node}
    (hn : d.Contains n) : ∃ e ts, Event.Written ts e ∧ e.Gives n := by
  obtain ⟨_, _, _, b, _, _, _, hwrites, hbuilt, rfl⟩ := parse_writes h
  obtain ⟨e, he, hgives⟩ := (Builder.builtFrom hbuilt).finish n hn
  obtain ⟨_, used, _, _, hwritten⟩ := hwrites.split he
  exact ⟨e, used, hwritten, hgives⟩

theorem Tag.normalize_settled [Formats] (r : Registry) {t : Tag} (hattrs : Table.Distinct t.attrs) :
    t.Settled r (t.normalize r) := by
  unfold normalize
  cases hfound : r.component? t.name with
  | none =>
    refine ⟨rfl, rfl, rfl, fun _ => rfl, fun {c} hc => ?_⟩
    rw [hfound] at hc
    cases hc
  | some c =>
    refine ⟨rfl, rfl, rfl, fun hnone => ?_, fun {c'} hc => ?_⟩
    · rw [hfound] at hnone
      cases hnone
    · obtain rfl : c = c' := Option.some.inj (hfound.symm.trans hc)
      exact Component.settles_normalizeAttrs hattrs

namespace Node

mutual
theorem normalize_settled [Formats] (r : Registry) : (n : Node) →
    (∀ m ∈ n.walk, ∃ e ts, Event.Written ts e ∧ e.Gives m) → Settled r n (n.normalize r)
  | .tag t content, h => by
    obtain ⟨htag, hcontent⟩ := List.forall_mem_cons.mp h
    obtain ⟨e, ts, hwritten, hgives⟩ := htag
    have hattrs : Table.Distinct t.attrs := by
      cases hgives with
      | selfClosing => cases hwritten with | selfClosing _ h => exact h.distinct
      | opening => cases hwritten with | opening _ h => exact h.distinct
    exact .tag (Tag.normalize_settled r hattrs) (normalizeAll_settled r content hcontent)
  | .document _ _, h => by
    obtain ⟨_, _, _, hgives⟩ := (List.forall_mem_cons.mp h).1
    cases hgives
  | .text value pos, _ => .text value pos
  | .comment value pos, _ => .comment value pos
  | .interpolation site, _ => .interpolation site

theorem normalizeAll_settled [Formats] (r : Registry) : (ns : List Node) →
    (∀ m ∈ walkAll ns, ∃ e ts, Event.Written ts e ∧ e.Gives m) →
    List.Forall₂ (Settled r) ns (normalizeAll r ns)
  | [], _ => .nil
  | n :: ns, h =>
    have ⟨hn, hns⟩ := List.forall_mem_append.mp h
    .cons (normalize_settled r n hn) (normalizeAll_settled r ns hns)
end

end Node

namespace Rules

/-- A compilation settles the tags of a document and leaves everything else in it as it was
    parsed. -/
theorem compile_settles [Formats] {rules : Rules} {source : String} {c : Compiled}
    (h : rules.compile source = .ok c) :
    ∃ d, Document.parse source = .ok d ∧ d.Settled rules.registry c.document := by
  obtain ⟨d, hd, rfl⟩ := compile_ok h
  refine ⟨d, hd, rfl, Node.normalizeAll_settled rules.registry d.children fun m hm => ?_⟩
  exact Document.parse_gives hd (Document.mem_nodes.mp hm)

/-- A section whose type is null, with a grid in it. -/
theorem compile_settles_section :
    ∃ c, (ofRegistry (Registry.builtin .full .native)).compile
        "\x7bikb_section type=null\x7d\x7bikb_grid /\x7d\x7b/ikb_section\x7d" = .ok c ∧
      ∃ d, Document.parse "\x7bikb_section type=null\x7d\x7bikb_grid /\x7d\x7b/ikb_section\x7d" = .ok d ∧
        d.Settled (Registry.builtin .full .native) c.document := by
  have htokens : tokenize "\x7bikb_section type=null\x7d\x7bikb_grid /\x7d\x7b/ikb_section\x7d" =
      .ok ([⟨.leftBrace, .none, ⟨1, 1, 0⟩⟩, ⟨.ident, .str "ikb_section", ⟨1, 2, 1⟩⟩,
        ⟨.ident, .str "type", ⟨1, 14, 13⟩⟩, ⟨.equal, .none, ⟨1, 18, 17⟩⟩, ⟨.null, .none, ⟨1, 19, 18⟩⟩,
        ⟨.rightBrace, .none, ⟨1, 23, 22⟩⟩, ⟨.leftBrace, .none, ⟨1, 24, 23⟩⟩,
        ⟨.ident, .str "ikb_grid", ⟨1, 25, 24⟩⟩, ⟨.slash, .none, ⟨1, 34, 33⟩⟩,
        ⟨.rightBrace, .none, ⟨1, 35, 34⟩⟩, ⟨.leftBrace, .none, ⟨1, 36, 35⟩⟩, ⟨.slash, .none, ⟨1, 37, 36⟩⟩,
        ⟨.ident, .str "ikb_section", ⟨1, 38, 37⟩⟩, ⟨.rightBrace, .none, ⟨1, 49, 48⟩⟩] ++
          [⟨.eof, .none, ⟨1, 50, 49⟩⟩]) := by decide +kernel
  have hparse := Document.parse_of_events htokens (by simp) rfl (by decide +kernel : _ =
    ([.opening ⟨"ikb_section", [("type", .null)], false, ⟨1, 1, 0⟩⟩,
      .selfClosing ⟨"ikb_grid", [], true, ⟨1, 24, 23⟩⟩, .closing "ikb_section" ⟨1, 36, 35⟩], none)) rfl
  have hcompile := (ofRegistry (Registry.builtin .full .native)).compile_eq hparse
  exact ⟨_, hcompile, compile_settles hcompile⟩

end Rules
end BraceTemplate
