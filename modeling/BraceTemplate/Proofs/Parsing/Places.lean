import Mathlib.Data.List.Basic
import Mathlib.Data.List.Flatten
import Mathlib.Data.List.Perm.Subperm
import BraceTemplate.Proofs.Parsing.Preorder

/- Where the interpolations of a parsed document stand: each at an opening brace of its own
   (`Document.parse_places`). `Interpolation.Writes` lists interpolations that are written among
   tokens one behind the other. Those that events hold are among the ones that are written in
   their tokens (`Event.Writes.sites`), and a document holds those of its events, headers apart, in
   the order of the events (`Builder.finish_sites`). -/
namespace BraceTemplate

/-- The positions of the opening braces. -/
def Token.braces (toks : List Token) : List Position :=
  (toks.filter (·.kind = .leftBrace)).map Token.pos

theorem Token.braces_append (toks toks' : List Token) :
    braces (toks ++ toks') = braces toks ++ braces toks' := by
  rw [braces, List.filter_append, List.map_append]
  rfl

theorem Token.mem_braces {toks : List Token} {p : Position} :
    p ∈ braces toks ↔ ∃ t ∈ toks, t.kind = .leftBrace ∧ t.pos = p := by
  simp [braces, and_assoc]

/-- The positions of interpolations. -/
def Interpolation.places (sites : List Interpolation) : List Position :=
  sites.map Interpolation.pos

theorem Interpolation.places_subperm {sites sites' : List Interpolation} (h : sites'.Subperm sites) :
    (places sites').Subperm (places sites) := by
  obtain ⟨kept, hperm, hsub⟩ := h
  exact ⟨places kept, hperm.map _, hsub.map _⟩

/-- Putting an attribute into a table adds its interpolation or puts it in another's place. -/
theorem Tag.attrSites_insert (as : List (String × AttrValue)) (name : String) (v : AttrValue) :
    (attrSites (Table.insert as name v)).Subperm (attrSites as ++ v.sites) := by
  induction as with
  | nil =>
    rw [Table.insert, attrSites, List.flatMap_singleton]
    exact List.Subperm.refl _
  | cons a as ih =>
    rw [Table.insert]
    split
    · -- the value that was there is written over
      have hold : (attrSites as).Subperm (a.2.sites ++ attrSites as) :=
        (List.sublist_append_right _ _).subperm
      have hswap : (v.sites ++ attrSites as).Subperm (attrSites as ++ v.sites) :=
        List.perm_append_comm.subperm
      exact hswap.trans (hold.append (List.Subperm.refl _))
    · have hcons : ∀ as', attrSites (a :: as') = a.2.sites ++ attrSites as' :=
        fun as' => List.flatMap_cons
      rw [hcons, hcons, List.append_assoc]
      exact (List.Subperm.refl _).append ih

/-- Of attributes that are written again only the last value stays. -/
theorem Tag.attrSites_lastValues (as : List (String × AttrValue)) :
    (attrSites (Table.lastValues as)).Subperm (attrSites as) := by
  have hall : ∀ done, (attrSites (Table.insertAll done as)).Subperm (attrSites done ++ attrSites as) := by
    induction as with
    | nil =>
      intro done
      rw [show attrSites [] = [] from rfl, List.append_nil]
      exact List.Subperm.refl _
    | cons a as ih =>
      intro done
      have hcons : attrSites (a :: as) = a.2.sites ++ attrSites as := List.flatMap_cons
      rw [hcons, ← List.append_assoc]
      exact (ih _).trans ((attrSites_insert done a.1 a.2).append (List.Subperm.refl _))
  rw [← Table.ofEntries_eq_lastValues]
  exact hall []

/-! What is written. -/

namespace Interpolation

/-- The interpolations are written among the tokens, one behind the other. -/
inductive Writes : List Token → List Interpolation → Prop where
  | nil : Writes [] []
  | skip {ts : List Token} {is : List Interpolation} (t : Token) (h : Writes ts is) :
    Writes (t :: ts) is
  | cons {s : Spelling} {used ts : List Token} {i : Interpolation} {is : List Interpolation}
    (h : i.Written s used) (hrest : Writes ts is) : Writes (used ++ ts) (i :: is)

/-- The interpolations are some of those that are written among the tokens, in any order. -/
def ComeFrom (ts : List Token) (sites : List Interpolation) : Prop :=
  ∃ written, Writes ts written ∧ sites.Subperm written

variable {ts ts' : List Token} {sites sites' : List Interpolation}

theorem Writes.append {is is' : List Interpolation} (h : Writes ts is) (h' : Writes ts' is') :
    Writes (ts ++ ts') (is ++ is') := by
  induction h with
  | nil => exact h'
  | skip t h ih => exact .skip t ih
  | cons h hrest ih =>
    rw [List.append_assoc]
    exact .cons h ih

theorem Writes.skips (ts : List Token) : Writes ts [] := by
  induction ts with
  | nil => exact .nil
  | cons t ts ih => exact ih.skip t

theorem Written.writes {s : Spelling} {i : Interpolation} (h : i.Written s ts) : Writes ts [i] := by
  have hwrites := Writes.cons h .nil
  rwa [List.append_nil] at hwrites

theorem Written.braces {s : Spelling} {i : Interpolation} (h : i.Written s ts) :
    ∃ behind, Token.braces ts = i.pos :: behind := by
  cases h with
  | @intro brace ts hbrace hts =>
    exact ⟨Token.braces ts, by simp [Token.braces, Token.kind_of_symbol hbrace]⟩

/-- Each interpolation stands at its own opening brace. -/
theorem Writes.places {is : List Interpolation} (h : Writes ts is) :
    (places is).Sublist (Token.braces ts) := by
  induction h with
  | nil => exact List.Sublist.refl _
  | @skip ts is t h ih => exact ih.trans (((List.sublist_cons_self t ts).filter _).map _)
  | cons h hrest ih =>
    obtain ⟨behind, hbraces⟩ := h.braces
    rw [Token.braces_append, hbraces]
    exact (ih.trans (List.sublist_append_right _ _)).cons_cons _

namespace ComeFrom

theorem of_writes (h : Writes ts sites) : ComeFrom ts sites := ⟨sites, h, List.Subperm.refl _⟩

theorem nil (ts : List Token) : ComeFrom ts [] := of_writes (.skips ts)

theorem append (h : ComeFrom ts sites) (h' : ComeFrom ts' sites') :
    ComeFrom (ts ++ ts') (sites ++ sites') := by
  obtain ⟨written, hwritten, hsub⟩ := h
  obtain ⟨written', hwritten', hsub'⟩ := h'
  exact ⟨written ++ written', hwritten.append hwritten', hsub.append hsub'⟩

theorem subperm (h : ComeFrom ts sites) (hsub : sites'.Subperm sites) : ComeFrom ts sites' := by
  obtain ⟨written, hwritten, hsites⟩ := h
  exact ⟨written, hwritten, hsub.trans hsites⟩

theorem places (h : ComeFrom ts sites) :
    (Interpolation.places sites).Subperm (Token.braces ts) := by
  obtain ⟨written, hwritten, hsub⟩ := h
  exact (places_subperm hsub).trans hwritten.places.subperm

/-- An interpolation stands at one of the tokens that it comes from. -/
theorem pos_mem (h : ComeFrom ts sites) {i : Interpolation} (hi : i ∈ sites) :
    i.pos ∈ ts.map Token.pos :=
  (List.filter_sublist.map _).subset (h.places.subset (List.mem_map_of_mem hi))

end ComeFrom
end Interpolation

open Interpolation (ComeFrom Writes)

theorem AttrValue.Written.writes {ts : List Token} {v : AttrValue} (h : v.Written ts) :
    Writes ts v.sites := by
  cases h with
  | interpolation h => exact h.writes
  | string | word | int | float | bool | null => exact .skips _

/-- Attributes write their interpolations in the order in which they are written. -/
theorem Tag.WritesAttrs.writes {ts : List Token} {as : List (String × AttrValue)} (h : WritesAttrs ts as) :
    Writes ts (attrSites as) := by
  induction h with
  | nil => exact .nil
  | flag hname has ih => exact ih.skip _
  | given hname heq hvalue has ih => exact ((hvalue.writes.append ih).skip _).skip _

/-- The tag is written with these attributes, of which some may have the same name. -/
inductive Tag.WrittenAs (as : List (String × AttrValue)) : List Token → Tag → Prop where
  | intro {brace t : Token} {name : String} {attrs ends : List Token} {self : Bool}
    (hbrace : brace.symbol = (.leftBrace, .none)) (hname : t.symbol = (.ident, .str name))
    (hpath : Event.isPath name = false) (has : WritesAttrs attrs as)
    (hends : ends.map Token.symbol = endSymbols self) :
    WrittenAs as (brace :: t :: (attrs ++ ends)) ⟨name, Table.lastValues as, self, brace.pos⟩

namespace Tag
variable {ts : List Token} {t : Tag} {as : List (String × AttrValue)}

theorem Written.writtenAs (h : t.Written ts) : ∃ as, t.WrittenAs as ts := by
  cases h with
  | intro hbrace hname hpath has hends => exact ⟨_, .intro hbrace hname hpath has hends⟩

theorem WrittenAs.attrs (h : t.WrittenAs as ts) : t.attrs = Table.lastValues as := by
  cases h
  rfl

theorem WrittenAs.writes (h : t.WrittenAs as ts) : Writes ts (attrSites as) := by
  cases h with
  | @intro brace word _ _ ends _ _ _ _ has _ =>
    have hall := has.writes.append (Writes.skips ends)
    rw [List.append_nil] at hall
    exact (hall.skip word).skip brace

theorem Written.sites (h : t.Written ts) : ComeFrom ts (attrSites t.attrs) := by
  obtain ⟨as, has⟩ := h.writtenAs
  rw [has.attrs]
  exact (ComeFrom.of_writes has.writes).subperm (attrSites_lastValues as)

end Tag

namespace Event

/-- The interpolations that an event holds. -/
def sites : Event → List Interpolation
  | .interpolation i => [i]
  | .selfClosing t => Tag.attrSites t.attrs
  | .opening t => Tag.attrSites t.attrs
  | _ => []

theorem Written.sites {ts : List Token} {e : Event} (h : e.Written ts) : ComeFrom ts e.sites := by
  cases h with
  | text | comment | closing => exact .nil _
  | interpolation halone h => exact .of_writes h.writes
  | selfClosing hself h => exact h.sites
  | opening hself h => exact h.sites

/-- What events hold is written in their tokens. -/
theorem Writes.sites {ts : List Token} {es : List Event} (h : Writes ts es) :
    ComeFrom ts (es.flatMap Event.sites) := by
  induction h with
  | nil => exact .nil _
  | cons h hrest ih => exact h.sites.append ih

end Event

/-! Building. -/

theorem Event.sites_kept (e : Event) : e.kept.sites = e.sites := by
  cases e <;> rfl

namespace Node

mutual
/-- Taking a node apart leaves its interpolations in their order. -/
theorem sites_events (unclosed : List UnclosedTag) : (n : Node) →
    (n.events unclosed).flatMap Event.sites = n.walk.flatMap sites
  | .document _ content => sites_eventsAll unclosed content
  | .tag t content => by
    have hcontent := sites_eventsAll unclosed content
    have hclosing : (if ⟨t.name, t.pos⟩ ∈ unclosed then [] else
        [Event.closing t.name Position.start]).flatMap Event.sites = [] := by
      split <;> rfl
    rw [events, walk, List.flatMap_cons]
    split
    · rw [List.flatMap_cons, hcontent]
      rfl
    · rw [List.flatMap_cons, List.flatMap_append, hclosing, List.append_nil, hcontent]
      rfl
  | .text _ _ => rfl
  | .comment _ _ => rfl
  | .interpolation _ => rfl

theorem sites_eventsAll (unclosed : List UnclosedTag) : (ns : List Node) →
    (eventsAll unclosed ns).flatMap Event.sites = allSites ns
  | [] => rfl
  | n :: ns => by
    rw [eventsAll, List.flatMap_append, sites_events unclosed n, sites_eventsAll unclosed ns, allSites,
      allSites, walkAll, List.flatMap_append]
end

end Node

/-- Hoisting the content of open tags keeps the order of what was built. -/
theorem Builder.finish_sites_events (b : Builder) : b.finish.sites = b.events.flatMap Event.sites := by
  have hopen : ∀ o : OpenTag, o.events.flatMap Event.sites = Node.allSites (.tag o.tag [] :: o.children) := by
    intro o
    rw [OpenTag.events, List.flatMap_cons, Node.sites_eventsAll]
    rfl
  show Node.allSites (b.roots ++ hoist b.stack []) = _
  rw [hoist_eq, List.append_nil, Node.allSites_append, events, List.flatMap_append, Node.sites_eventsAll,
    List.flatMap_assoc]
  refine congrArg (Node.allSites b.roots ++ ·) ?_
  induction b.stack.reverse with
  | nil => rfl
  | cons o stack ih =>
    rw [List.flatMap_cons, Node.allSites_append, ih, List.flatMap_cons, hopen]

/-! Documents. -/

namespace Builder
variable {toks : List Token} {es : List Event} {b : Builder}

/-- What is built from the tokens holds the interpolations of their events, headers apart, and in
    their order. -/
theorem finish_sites (hwritten : Event.Writes toks es) (hbuilt : empty.addAll es = .ok b) :
    b.finish.sites = (es.filter (!·.isHeader)).flatMap Event.sites := by
  have hevents : b.events = (es.filter (!·.isHeader)).map Event.kept :=
    (Follows.empty.addAll hwritten.consistent hbuilt).events
  rw [finish_sites_events, hevents, List.flatMap_map]
  exact congrArg (List.flatMap · _) (funext Event.sites_kept)

/-- What is built holds interpolations that are written in the tokens, each of them once. -/
theorem finish_comeFrom (hwritten : Event.Writes toks es) (hbuilt : empty.addAll es = .ok b) :
    ComeFrom toks b.finish.sites := by
  rw [finish_sites hwritten hbuilt]
  exact hwritten.sites.subperm (List.filter_sublist.flatMap _).subperm

end Builder

/-- No two interpolations of a parsed document stand at one place. -/
theorem Document.parse_places {source : String} {d : Document} (h : parse source = .ok d) :
    (Interpolation.places d.sites).Nodup := by
  obtain ⟨toks, eof, es, b, -, -, hcuts, hwritten, hbuilt, rfl⟩ := parse_writes h
  have hbraces : (Token.braces toks).Nodup :=
    (Position.nodup_of_offsets hcuts.behind).sublist (List.filter_sublist.map _)
  obtain ⟨kept, hperm, hsub⟩ := (Builder.finish_comeFrom hwritten hbuilt).places
  exact hperm.nodup_iff.mp (hbraces.sublist hsub)

end BraceTemplate
