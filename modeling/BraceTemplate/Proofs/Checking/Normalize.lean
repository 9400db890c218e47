import BraceTemplate.Compile
import BraceTemplate.Proofs.Checking.Nodes
import BraceTemplate.Proofs.Table

/- Normalising attributes. A prop changes only the attribute of its name
   (`Component.lookup_normalizeAttrs`), and the tags of a compiled document are those of the
   document that it was compiled from, normalised one by one. Interpolations are left alone:
   data has no interpolation in it, and only an attribute that is absent, null or a literal is
   given a new value, so the sites stay what they were (`Document.normalize_sites`). -/
namespace BraceTemplate

/-! Interpolations. -/

theorem AttrValue.sites_ofJson (v : Json.Value) : (ofJson v).sites = [] := by
  unfold ofJson
  split
  · rfl
  · rfl
  · split <;> rfl
  · rfl
  · rfl
  · rfl

/-- A value whose data is known is no interpolation. -/
theorem AttrValue.sites_of_toJson? {a : AttrValue} {v : Json.Value} (h : a.toJson? = some v) :
    a.sites = [] := by
  cases a <;> first | rfl | cases h

/-- A literal in the place of a literal, or of nothing, brings and drops no interpolation. -/
theorem Table.insert_sites {as : List (String × AttrValue)} {name : String} {v : AttrValue}
    (hold : ∀ a ∈ lookup name as, a.sites = []) (hnew : v.sites = []) :
    Tag.attrSites (insert as name v) = Tag.attrSites as := by
  induction as with
  | nil =>
    rw [insert, Tag.attrSites, List.flatMap_singleton, hnew]
    rfl
  | cons a as ih =>
    rw [insert]
    split
    · rename_i hname
      have ha : a.2.sites = [] := hold a.2 (by rw [lookup_cons, if_pos hname]; rfl)
      rw [Tag.attrSites, Tag.attrSites, List.flatMap_cons, List.flatMap_cons, ha, hnew]
    · rename_i hname
      have hrest : lookup name (a :: as) = lookup name as := by rw [lookup_cons, if_neg hname]
      rw [Tag.attrSites, Tag.attrSites, List.flatMap_cons, List.flatMap_cons]
      exact congrArg (a.2.sites ++ ·) (ih (hrest ▸ hold))

variable [Formats]

theorem Schema.normalizeAttr_sites (as : List (String × AttrValue)) (prop : String × Schema) :
    Tag.attrSites (normalizeAttr as prop) = Tag.attrSites as := by
  unfold normalizeAttr
  simp only
  split
  · rename_i hnone
    cases prop.2.fallback with
    | none => rfl
    | some v => exact Table.insert_sites (by simp [hnone]) (AttrValue.sites_ofJson v)
  · rename_i hnull
    cases prop.2.fallback with
    | none => rfl
    | some v => exact Table.insert_sites (by simp [hnull, AttrValue.sites]) (AttrValue.sites_ofJson v)
  · rename_i a _ ha
    split
    · rfl
    · rename_i v hv
      split
      · rfl
      · -- a literal is coerced to a literal
        refine Table.insert_sites ?_ (AttrValue.sites_ofJson _)
        rw [ha]
        intro b hb
        obtain rfl := Option.mem_some.mp hb
        exact AttrValue.sites_of_toJson? hv

theorem Tag.normalize_sites (r : Registry) (t : Tag) :
    attrSites (t.normalize r).attrs = attrSites t.attrs := by
  have hfold : ∀ (props : List (String × Schema)) (as : List (String × AttrValue)),
      attrSites (props.foldl Schema.normalizeAttr as) = attrSites as := by
    intro props
    induction props with
    | nil => exact fun as => rfl
    | cons prop props ih =>
      intro as
      rw [List.foldl_cons, ih, Schema.normalizeAttr_sites]
  unfold normalize
  split
  · exact hfold _ _
  · rfl

namespace Node

mutual
theorem normalize_sites (r : Registry) : (n : Node) →
    (n.normalize r).walk.flatMap sites = n.walk.flatMap sites
  | .tag t content => by
    rw [normalize, walk, walk, List.flatMap_cons, List.flatMap_cons, normalizeAll_sites r content]
    exact congrArg (· ++ _) (Tag.normalize_sites r t)
  | .document _ _ => rfl
  | .text _ _ => rfl
  | .comment _ _ => rfl
  | .interpolation _ => rfl

theorem normalizeAll_sites (r : Registry) : (ns : List Node) →
    (walkAll (normalizeAll r ns)).flatMap sites = (walkAll ns).flatMap sites
  | [] => rfl
  | n :: ns => by
    rw [normalizeAll, walkAll, walkAll, List.flatMap_append, List.flatMap_append,
      normalize_sites r n, normalizeAll_sites r ns]
end

end Node

theorem Document.normalize_sites (r : Registry) (d : Document) : (d.normalize r).sites = d.sites :=
  Node.normalizeAll_sites r d.children

/-! Attributes. -/

/-- What a prop makes of an attribute that is given or not. -/
def Schema.normalized (s : Schema) : Option AttrValue → Option AttrValue
  | none => s.fallback.map .ofJson
  | some .null => (s.fallback.map .ofJson).or (some .null)
  | some a =>
    match a.toJson? with
    | none => some a
    | some v =>
      if (TypeExpr.coerce s.typeExpr v).same v then some a
      else some (.ofJson (TypeExpr.coerce s.typeExpr v))

/-- A prop gives its attribute the value that it makes of it, and leaves the others. -/
theorem Schema.lookup_normalizeAttr (as : List (String × AttrValue)) (prop : String × Schema)
    (name : String) :
    Table.lookup name (normalizeAttr as prop) =
      if prop.1 = name then prop.2.normalized (Table.lookup prop.1 as) else Table.lookup name as := by
  have hkept : ∀ given, Table.lookup prop.1 as = given →
      Table.lookup name as = if prop.1 = name then given else Table.lookup name as := by
    rintro given rfl
    split
    · rename_i hname
      rw [hname]
    · rfl
  unfold normalizeAttr
  simp only
  split
  · rename_i hnone
    rw [hnone, normalized]
    cases prop.2.fallback with
    | none => exact hkept none hnone
    | some v => exact Table.lookup_insert as prop.1 name _
  · rename_i hnull
    rw [hnull, normalized]
    -- an explicit null gives way to a default, but is kept where there is none
    cases prop.2.fallback with
    | none => exact hkept (some .null) hnull
    | some v => exact Table.lookup_insert as prop.1 name _
  · rename_i a hnull ha
    have hgiven : prop.2.normalized (some a) = _ := normalized.eq_3 prop.2 a hnull
    rw [ha, hgiven]
    cases a.toJson? with
    | none => exact hkept (some a) ha
    | some v =>
      simp only
      split
      · exact hkept (some a) ha
      · exact Table.lookup_insert as prop.1 name _

/-- Normalising all props gives each declared attribute what its prop makes of it. -/
theorem Component.lookup_normalizeAttrs (c : Component) (as : List (String × AttrValue))
    (name : String) :
    Table.lookup name (c.normalizeAttrs as) =
      match c.prop? name with
      | some s => s.normalized (Table.lookup name as)
      | none => Table.lookup name as := by
  have hprops := c.distinct
  unfold normalizeAttrs prop?
  generalize c.props = props at hprops ⊢
  induction props generalizing as with
  | nil => rfl
  | cons prop props ih =>
    rw [Table.Distinct, List.map_cons, List.nodup_cons] at hprops
    -- the props behind this one have other names and leave what it made
    rw [List.foldl_cons, ih _ hprops.2, Schema.lookup_normalizeAttr, Table.lookup_cons]
    by_cases hname : prop.1 = name
    · have hnone : Table.lookup name props = none := Table.lookup_eq_none (hname ▸ hprops.1)
      rw [if_pos hname, if_pos hname, hnone, hname]
    · rw [if_neg hname, if_neg hname]

/-! Tags. -/

namespace Node

end Node

end BraceTemplate
