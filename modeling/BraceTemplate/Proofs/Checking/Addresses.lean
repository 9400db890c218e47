import Mathlib.Data.List.Nodup
import BraceTemplate.Proofs.Checking.Nodes

/- Where interpolations stand in a document. An address leads from a node to an interpolation: to
   the node itself, to the value of one of its attributes, or first to one of its children. Two
   interpolations with the same text and position differ in their addresses, so that the sites of
   a document list each interpolation once means that they visit each address once
   (`Document.lists_sites`). -/
namespace BraceTemplate

/-- The values are those under the keys, and no key is visited twice. -/
def Lists {α δ : Type} (get? : α → Option δ) (values : List δ) : Prop :=
  ∃ keys : List α, keys.Nodup ∧ (∀ a, a ∈ keys ↔ (get? a).isSome = true) ∧
    keys.map get? = values.map some

namespace Lists
variable {α β γ δ : Type} {get? : α → Option δ} {further? : β → Option δ} {all? : γ → Option δ}

theorem none (h : ∀ a, get? a = none) : Lists get? [] :=
  ⟨[], List.nodup_nil, fun a => by simp [h a], rfl⟩

/-- Keys of two kinds, of which those of the first kind come first. -/
theorem append {values further : List δ} (h : Lists get? values) (h' : Lists further? further)
    (front : α → γ) (behind : β → γ) (hfront : front.Injective) (hbehind : behind.Injective)
    (hapart : ∀ a b, front a ≠ behind b) (hget : ∀ a, all? (front a) = get? a)
    (hfurther : ∀ b, all? (behind b) = further? b)
    (hno : ∀ c, (∀ a, c ≠ front a) → (∀ b, c ≠ behind b) → all? c = .none) :
    Lists all? (values ++ further) := by
  obtain ⟨keys, hnodup, hmem, hvalues⟩ := h
  obtain ⟨keys', hnodup', hmem', hvalues'⟩ := h'
  refine ⟨keys.map front ++ keys'.map behind, ?_, fun c => ?_, ?_⟩
  · refine List.nodup_append.mpr ⟨hnodup.map hfront, hnodup'.map hbehind, fun c hc c' hc' => ?_⟩
    obtain ⟨a, _, rfl⟩ := List.mem_map.mp hc
    obtain ⟨b, _, rfl⟩ := List.mem_map.mp hc'
    exact hapart a b
  · rw [List.mem_append, List.mem_map, List.mem_map]
    constructor
    · rintro (⟨a, ha, rfl⟩ | ⟨b, hb, rfl⟩)
      · rw [hget]
        exact (hmem a).mp ha
      · rw [hfurther]
        exact (hmem' b).mp hb
    · intro hsome
      by_cases hkind : ∀ a, c ≠ front a
      · by_cases hkind' : ∀ b, c ≠ behind b
        · rw [hno c hkind hkind'] at hsome
          cases hsome
        · obtain ⟨b, rfl⟩ := not_forall_not.mp hkind'
          exact .inr ⟨b, (hmem' b).mpr (hfurther b ▸ hsome), rfl⟩
      · obtain ⟨a, rfl⟩ := not_forall_not.mp hkind
        exact .inl ⟨a, (hmem a).mpr (hget a ▸ hsome), rfl⟩
  · rw [List.map_append, List.map_map, List.map_map, List.map_append, ← hvalues, ← hvalues']
    exact congrArg₂ (· ++ ·) (List.map_congr_left fun a _ => hget a)
      (List.map_congr_left fun b _ => hfurther b)

end Lists

/-- The way from a node to an interpolation. -/
inductive Address where
  | here
  | attr (place : Nat)
  | child (place : Nat) (rest : Address)

/-- The interpolation that the value is. -/
def AttrValue.site? : AttrValue → Option Interpolation
  | .interpolation i => some i
  | _ => none

namespace Node

/-- The interpolation that the node is. -/
def site? : Node → Option Interpolation
  | .interpolation i => some i
  | _ => none

def attrs : Node → List (String × AttrValue)
  | .tag t _ => t.attrs
  | _ => []

/-- The interpolation at an address, if there is one. -/
def siteAt? (n : Node) (a : Address) : Option Interpolation :=
  match a with
  | .here => n.site?
  | .attr place => n.attrs[place]?.bind fun e => e.2.site?
  | .child place rest => n.children[place]?.bind fun c => c.siteAt? rest

end Node

/-- The interpolation at an address that starts at the root. -/
def Document.siteAt? (d : Document) (a : Address) : Option Interpolation :=
  (Node.document d.preamble d.children).siteAt? a

theorem AttrValue.lists_site (v : AttrValue) : Lists (fun _ : Unit => v.site?) v.sites := by
  cases v with
  | interpolation i => exact ⟨[()], List.nodup_singleton _, fun _ => by simp [site?], rfl⟩
  | str | int | float | bool | null => exact .none fun _ => rfl

/-- The interpolations of attributes, by the places of the attributes. -/
theorem Tag.lists_attrSites (as : List (String × AttrValue)) :
    Lists (fun place : Nat => as[place]?.bind fun e => e.2.site?) (attrSites as) := by
  induction as with
  | nil => exact .none fun _ => rfl
  | cons a as ih =>
    refine a.2.lists_site.append ih (fun _ => 0) (· + 1) (fun _ _ _ => rfl) (fun _ _ => Nat.succ.inj)
      (by simp) (fun _ => rfl) (fun _ => rfl) ?_
    intro place hzero hsucc
    cases place with
    | zero => exact absurd rfl (hzero ())
    | succ place => exact absurd rfl (hsucc place)

namespace Node

/-- The interpolations below a node, by the children that hold them. -/
def childSiteAt? (ns : List Node) (p : Nat × Address) : Option Interpolation :=
  ns[p.1]?.bind fun c => c.siteAt? p.2

theorem lists_cons {n : Node} {ns : List Node} (h : Lists n.siteAt? (n.walk.flatMap sites))
    (hrest : Lists (childSiteAt? ns) (allSites ns)) :
    Lists (childSiteAt? (n :: ns)) (allSites (n :: ns)) := by
  rw [allSites, walkAll, List.flatMap_append]
  refine h.append hrest (0, ·) (fun p => (p.1 + 1, p.2)) (fun _ _ => ?_) (fun _ _ => ?_)
    (by simp) (fun _ => rfl) (fun _ => rfl) ?_
  · exact fun heq => (Prod.mk.inj heq).2
  · exact fun heq => Prod.ext (Nat.succ.inj (Prod.mk.inj heq).1) (Prod.mk.inj heq).2
  · rintro ⟨place, rest⟩ hzero hsucc
    cases place with
    | zero => exact absurd rfl (hzero rest)
    | succ place => exact absurd rfl (hsucc (place, rest))

/-- A node that is no interpolation has those of its attributes and then those below it. -/
theorem lists_walk {n : Node} (hsite : n.site? = none)
    (hbelow : Lists (childSiteAt? n.children) (allSites n.children)) :
    Lists n.siteAt? (n.walk.flatMap sites) := by
  have hown : n.sites = Tag.attrSites n.attrs := by
    cases n with
    | interpolation i => cases hsite
    | document | tag | text | comment => rfl
  rw [walk_eq, List.flatMap_cons, hown]
  refine (Tag.lists_attrSites n.attrs).append hbelow .attr (fun p => .child p.1 p.2)
    (fun _ _ => Address.attr.inj) (fun _ _ heq => ?_) (by simp) (fun _ => rfl) (fun _ => rfl) ?_
  · exact Prod.ext (Address.child.inj heq).1 (Address.child.inj heq).2
  · intro a hattr hchild
    cases a with
    | here => exact hsite
    | attr place => exact absurd rfl (hattr place)
    | child place rest => exact absurd rfl (hchild (place, rest))

mutual
theorem lists_sites : (n : Node) → Lists n.siteAt? (n.walk.flatMap sites)
  | .document _ content => lists_walk rfl (lists_allSites content)
  | .tag _ content => lists_walk rfl (lists_allSites content)
  | .text _ _ => lists_walk rfl (.none fun _ => rfl)
  | .comment _ _ => lists_walk rfl (.none fun _ => rfl)
  | .interpolation i => by
    refine ⟨[.here], List.nodup_singleton _, fun a => ?_, rfl⟩
    cases a <;> simp [siteAt?, site?, attrs, children]

theorem lists_allSites : (ns : List Node) → Lists (childSiteAt? ns) (allSites ns)
  | [] => .none fun _ => rfl
  | n :: ns => lists_cons (lists_sites n) (lists_allSites ns)
end

end Node

/-- The sites of a document list the interpolations in it, each of them once. -/
theorem Document.lists_sites (d : Document) : Lists d.siteAt? d.sites :=
  Node.lists_sites (.document d.preamble d.children)

end BraceTemplate
