import BraceTemplate.Check.Escaping

/- What stands in a document, said without a traversal: a node occurs among nodes when it is
   one of them or occurs among the children of one. The traversal of the checks meets exactly
   the nodes that occur (`Document.mem_nodes`), so the sites that it lists are the
   interpolations that stand anywhere (`Document.mem_sites`). -/
namespace BraceTemplate

/-- A node is one of the nodes, or stands somewhere below one. -/
inductive Node.Occurs (m : Node) : List Node → Prop where
  | top {ns : List Node} (h : m ∈ ns) : Occurs m ns
  | deep {n : Node} {ns : List Node} (hn : n ∈ ns) (h : Occurs m n.children) : Occurs m ns

namespace Node

theorem walk_eq (n : Node) : n.walk = n :: walkAll n.children := by
  cases n <;> rfl

theorem walkAll_eq (ns : List Node) : walkAll ns = ns.flatMap walk := by
  induction ns with
  | nil => rfl
  | cons n ns ih => rw [walkAll, ih, List.flatMap_cons]

theorem occurs_cons {m n : Node} {ns : List Node} (h : Occurs m ns) : Occurs m (n :: ns) := by
  cases h with
  | top h => exact .top (List.mem_cons_of_mem n h)
  | deep hn h => exact .deep (List.mem_cons_of_mem n hn) h

mutual
theorem occurs_of_mem_walk {m : Node} : (n : Node) → m ∈ n.walk → m = n ∨ Occurs m n.children
  | .document _ content, h => (List.mem_cons.mp h).imp_right (occurs_of_mem_walkAll content)
  | .tag _ content, h => (List.mem_cons.mp h).imp_right (occurs_of_mem_walkAll content)
  | .text _ _, h => .inl (List.mem_singleton.mp h)
  | .comment _ _, h => .inl (List.mem_singleton.mp h)
  | .interpolation _, h => .inl (List.mem_singleton.mp h)

theorem occurs_of_mem_walkAll {m : Node} : (ns : List Node) → m ∈ walkAll ns → Occurs m ns
  | [], h => absurd h List.not_mem_nil
  | n :: ns, h => by
    rcases List.mem_append.mp h with h | h
    · rcases occurs_of_mem_walk n h with rfl | h
      · exact .top List.mem_cons_self
      · exact .deep List.mem_cons_self h
    · exact occurs_cons (occurs_of_mem_walkAll ns h)
end

/-- The traversal meets the nodes that occur. -/
theorem mem_walkAll {m : Node} {ns : List Node} : m ∈ walkAll ns ↔ Occurs m ns := by
  constructor
  · exact occurs_of_mem_walkAll ns
  · intro h
    induction h with
    | top h =>
      rw [walkAll_eq]
      exact List.mem_flatMap.mpr ⟨m, h, by rw [walk_eq]; exact List.mem_cons_self⟩
    | deep hn h ih =>
      rw [walkAll_eq]
      exact List.mem_flatMap.mpr ⟨_, hn, by rw [walk_eq]; exact List.mem_cons_of_mem _ ih⟩

end Node

/-! Interpolations. -/

/-- The interpolations of attributes. -/
def Tag.attrSites (as : List (String × AttrValue)) : List Interpolation :=
  as.flatMap fun a => a.2.sites

namespace Node

/-- The interpolations of nodes and of all nodes below them. -/
def allSites (ns : List Node) : List Interpolation := (walkAll ns).flatMap sites

theorem allSites_append (ns ns' : List Node) : allSites (ns ++ ns') = allSites ns ++ allSites ns' := by
  simp only [allSites, walkAll_eq, List.flatMap_append]

end Node

namespace Document

/-- The node stands somewhere in the document. -/
def Contains (d : Document) (n : Node) : Prop := n.Occurs d.children

/-- The interpolation stands somewhere in the document, as a node or as the value of an
    attribute. -/
inductive Holds (d : Document) (i : Interpolation) : Prop where
  | node (h : d.Contains (.interpolation i))
  | attr {t : Tag} {content : List Node} {name : String} (h : d.Contains (.tag t content))
      (ha : (name, .interpolation i) ∈ t.attrs)

theorem mem_nodes {d : Document} {n : Node} : n ∈ d.nodes ↔ d.Contains n := Node.mem_walkAll

theorem mem_attr_sites {v : AttrValue} {i : Interpolation} : i ∈ v.sites ↔ v = .interpolation i := by
  cases v <;> simp [AttrValue.sites, eq_comm]

theorem mem_sites {d : Document} {i : Interpolation} : i ∈ d.sites ↔ d.Holds i := by
  rw [sites, List.mem_flatMap]
  constructor
  · rintro ⟨n, hn, hi⟩
    rw [mem_nodes] at hn
    cases n with
    | interpolation j =>
      obtain rfl := List.mem_singleton.mp hi
      exact .node hn
    | tag t content =>
      obtain ⟨a, ha, hi⟩ := List.mem_flatMap.mp hi
      have hvalue : a = (a.1, .interpolation i) := by rw [← mem_attr_sites.mp hi]
      exact .attr hn (hvalue ▸ ha)
    | document _ _ => cases hi
    | text _ _ => cases hi
    | comment _ _ => cases hi
  · rintro (h | ⟨h, ha⟩)
    · exact ⟨_, mem_nodes.mpr h, List.mem_singleton.mpr rfl⟩
    · exact ⟨_, mem_nodes.mpr h, List.mem_flatMap.mpr ⟨_, ha, mem_attr_sites.mpr rfl⟩⟩

end Document
end BraceTemplate
