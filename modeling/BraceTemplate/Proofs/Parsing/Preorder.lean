import Mathlib.Data.List.Lattice
import Mathlib.Data.List.Nodup
import Mathlib.Data.List.Pairwise
import BraceTemplate.Proofs.Parsing.Grammar
import BraceTemplate.Proofs.Parsing.Origin

/- A document lists the events of its source. `Document.events` takes a document apart again: in
   pre-order, each tag as the event that opened it, its content, and the event that closed it if
   it was closed. These are the events that are written in the tokens, without the headers
   (`Document.parse_events`). What a builder has put together so far, taken apart, is what it was
   given (`Builder.Follows`); and because no two events stand at one place, the tags that stay
   open are told from those that are closed. -/
namespace BraceTemplate

/-! Taking a document apart. -/

namespace Event

/-- Where the event starts. -/
def pos : Event → Position
  | .text _ p => p
  | .comment _ p => p
  | .interpolation i => i.pos
  | .selfClosing t => t.pos
  | .opening t => t.pos
  | .closing _ p => p

def isClosing : Event → Bool
  | .closing _ _ => true
  | _ => false

/-- The event is a header. -/
def isHeader : Event → Bool
  | .selfClosing t => Builder.isHeader t.name
  | .opening t => Builder.isHeader t.name
  | _ => false

theorem isHeader_of_tag {e : Event} {t : Tag} (he : e = .selfClosing t ∨ e = .opening t) :
    e.isHeader = Builder.isHeader t.name := by
  rcases he with rfl | rfl <;> rfl

/-- The event as a document keeps it: of a closing tag only its name. -/
def kept : Event → Event
  | .closing name _ => .closing name Position.start
  | e => e

end Event

namespace Node

mutual
/-- The events of a node, where some tags were not closed. -/
def events (unclosed : List UnclosedTag) : Node → List Event
  | .document _ content => eventsAll unclosed content
  | .tag t content =>
    if t.selfClosing then .selfClosing t :: eventsAll unclosed content
    else .opening t :: (eventsAll unclosed content ++
      if ⟨t.name, t.pos⟩ ∈ unclosed then [] else [.closing t.name Position.start])
  | .text v p => [.text v p]
  | .comment v p => [.comment v p]
  | .interpolation i => [.interpolation i]

def eventsAll (unclosed : List UnclosedTag) : List Node → List Event
  | [] => []
  | n :: rest => events unclosed n ++ eventsAll unclosed rest
end

end Node

def Document.events (d : Document) : List Event := Node.eventsAll d.preamble.unclosed d.children

namespace Event

/-- A tag says whether it closes itself. -/
def Consistent : Event → Prop
  | .selfClosing t => t.selfClosing = true
  | .opening t => t.selfClosing = false
  | _ => True

theorem Written.consistent {ts : List Token} {e : Event} (h : e.Written ts) : e.Consistent := by
  cases h with
  | selfClosing hself => exact hself
  | opening hself => exact hself
  | text | comment | interpolation | closing => trivial

theorem Writes.consistent {ts : List Token} {es : List Event} (h : Writes ts es) :
    ∀ e ∈ es, e.Consistent := by
  induction h with
  | nil => simp
  | cons h hrest ih => simpa using ⟨h.consistent, ih⟩

/-- An event stands where its first token stands. -/
theorem Written.starts {ts : List Token} {e : Event} (h : e.Written ts) :
    ∃ t ts', ts = t :: ts' ∧ e.pos = t.pos := by
  cases h with
  | text | comment | closing => exact ⟨_, _, rfl, rfl⟩
  | interpolation halone h => cases h; exact ⟨_, _, rfl, rfl⟩
  | selfClosing hself h | opening hself h => cases h; exact ⟨_, _, rfl, rfl⟩

theorem Writes.starts {ts : List Token} {es : List Event} (h : Writes ts es) :
    (es.map pos).Sublist (ts.map Token.pos) := by
  induction h with
  | nil => exact List.Sublist.refl _
  | cons h hrest ih =>
    obtain ⟨t, ts', rfl, hpos⟩ := h.starts
    rw [List.map_cons, hpos, List.map_append, List.map_cons, List.cons_append]
    exact (ih.trans (List.sublist_append_right _ _)).cons_cons _

/-- Where the events start that are no closing tags. -/
def places (es : List Event) : List Position := (es.filter (!·.isClosing)).map pos

theorem places_append (es es' : List Event) : places (es ++ es') = places es ++ places es' := by
  simp [places]

theorem places_kept (es : List Event) : places (es.map kept) = places es := by
  induction es with
  | nil => rfl
  | cons e es ih =>
    cases e with
    | closing => exact ih
    | text | comment | interpolation | selfClosing | opening => exact congrArg (_ :: ·) ih

theorem places_flatMap {α : Type} (l : List α) (f : α → List Event) :
    places (l.flatMap f) = l.flatMap fun a => places (f a) := by
  induction l with
  | nil => rfl
  | cons a l ih => rw [List.flatMap_cons, places_append, ih, List.flatMap_cons]

theorem kept_append {e : Event} (es : List Event) (h : e.isHeader = false) :
    ((es ++ [e]).filter (!·.isHeader)).map kept = (es.filter (!·.isHeader)).map kept ++ [e.kept] := by
  simp [h]

theorem place_of_mem {t : Tag} {es : List Event} (h : .opening t ∈ es) : t.pos ∈ places es :=
  List.mem_map.mpr ⟨.opening t, List.mem_filter.mpr ⟨h, rfl⟩, rfl⟩

theorem places_sublist (es : List Event) : (places es).Sublist (es.map pos) :=
  List.filter_sublist.map _

end Event

namespace Node

theorem eventsAll_append (unclosed : List UnclosedTag) (ns ns' : List Node) :
    eventsAll unclosed (ns ++ ns') = eventsAll unclosed ns ++ eventsAll unclosed ns' := by
  induction ns with
  | nil => rfl
  | cons n ns ih => rw [List.cons_append, eventsAll, ih, eventsAll, List.append_assoc]

theorem eventsAll_single (unclosed : List UnclosedTag) (n : Node) :
    eventsAll unclosed [n] = n.events unclosed := List.append_nil _

mutual
/-- Nodes of which no tag is unclosed are taken apart as closed ones. -/
theorem events_closed (unclosed : List UnclosedTag) : (n : Node) →
    (∀ t, .opening t ∈ n.events [] → ⟨t.name, t.pos⟩ ∉ unclosed) → n.events unclosed = n.events []
  | .document _ content, h => eventsAll_closed unclosed content h
  | .tag t content, h => by
    cases hself : t.selfClosing with
    | true =>
      simp only [events, hself, if_true] at h ⊢
      rw [eventsAll_closed unclosed content fun u hu => h u (List.mem_cons_of_mem _ hu)]
    | false =>
      simp only [events, hself, Bool.false_eq_true, if_false, List.not_mem_nil] at h ⊢
      have hcontent := eventsAll_closed unclosed content fun u hu =>
        h u (List.mem_cons_of_mem _ (List.mem_append_left _ hu))
      rw [hcontent, if_neg (h t List.mem_cons_self)]
  | .text _ _, _ => rfl
  | .comment _ _, _ => rfl
  | .interpolation _, _ => rfl

theorem eventsAll_closed (unclosed : List UnclosedTag) : (ns : List Node) →
    (∀ t, .opening t ∈ eventsAll [] ns → ⟨t.name, t.pos⟩ ∉ unclosed) →
    eventsAll unclosed ns = eventsAll [] ns
  | [], _ => rfl
  | n :: ns, h => by
    rw [eventsAll, eventsAll, events_closed unclosed n fun t ht => h t (List.mem_append_left _ ht),
      eventsAll_closed unclosed ns fun t ht => h t (List.mem_append_right _ ht)]
end

mutual
/-- The events of nodes start where the nodes stand, when there is no document inside them. -/
theorem places_events (unclosed : List UnclosedTag) : (n : Node) →
    (∀ p content, .document p content ∉ n.walk) →
    Event.places (n.events unclosed) = n.walk.map Node.pos
  | .document p content, h => absurd List.mem_cons_self (h p content)
  | .tag t content, h => by
    have hcontent := places_eventsAll unclosed content fun p cs hmem =>
      h p cs (List.mem_cons_of_mem _ hmem)
    have hclosing : Event.places
        (if ⟨t.name, t.pos⟩ ∈ unclosed then [] else [.closing t.name Position.start]) = [] := by
      split <;> rfl
    rw [events, walk, List.map_cons, ← hcontent]
    split
    · rfl
    · show t.pos :: Event.places (_ ++ _) = _
      rw [Event.places_append, hclosing, List.append_nil]
      rfl
  | .text _ _, _ => rfl
  | .comment _ _, _ => rfl
  | .interpolation _, _ => rfl

theorem places_eventsAll (unclosed : List UnclosedTag) : (ns : List Node) →
    (∀ p content, .document p content ∉ walkAll ns) →
    Event.places (eventsAll unclosed ns) = (walkAll ns).map Node.pos
  | [], _ => rfl
  | n :: ns, h => by
    rw [eventsAll, walkAll, Event.places_append, List.map_append,
      places_events unclosed n fun p cs hmem => h p cs (List.mem_append_left _ hmem),
      places_eventsAll unclosed ns fun p cs hmem => h p cs (List.mem_append_right _ hmem)]
end

end Node

/-! Builders. -/

namespace OpenTag

/-- An open tag as the event that opened it and those of its content. -/
def events (o : OpenTag) : List Event := .opening o.tag :: Node.eventsAll [] o.children

end OpenTag

namespace Builder

/-- What is built so far, taken apart. -/
def events (b : Builder) : List Event :=
  Node.eventsAll [] b.roots ++ b.stack.reverse.flatMap OpenTag.events

theorem events_push (b : Builder) (n : Node) : (b.push n).events = b.events ++ n.events [] := by
  obtain ⟨stack, roots, cms, platform, started⟩ := b
  cases stack with
  | nil => simp [push, events, Node.eventsAll_append, Node.eventsAll_single]
  | cons top outer =>
    simp [push, events, OpenTag.events, Node.eventsAll_append, Node.eventsAll_single]

/-- A tag that is closed becomes a node, and what closed it comes behind all that was built. -/
theorem events_close {b : Builder} {top : OpenTag} {outer : List OpenTag}
    (hstack : b.stack = top :: outer) (htop : top.tag.selfClosing = false) :
    (({ b with stack := outer } : Builder).push (.tag top.tag top.children)).events =
      b.events ++ [.closing top.tag.name Position.start] := by
  -- the open tag and its content stand behind what was there before the tag was opened
  have hsplit : b.events = ({ b with stack := outer } : Builder).events ++ top.events := by
    simp [events, hstack]
  have hnode : (Node.tag top.tag top.children).events [] =
      top.events ++ [.closing top.tag.name Position.start] := by
    simp [Node.events, htop, OpenTag.events]
  rw [events_push, hnode, ← List.append_assoc, ← hsplit]

/-- The builder was given the events, and its open tags do not close themselves. -/
structure Follows (es : List Event) (b : Builder) : Prop where
  events : b.events = (es.filter (!·.isHeader)).map Event.kept
  opened : ∀ o ∈ b.stack, o.tag.selfClosing = false

namespace Follows
variable {es : List Event} {b b' : Builder}

theorem empty : Follows [] Builder.empty := ⟨rfl, fun _ ho => absurd ho List.not_mem_nil⟩

theorem opened_push (h : ∀ o ∈ b.stack, o.tag.selfClosing = false) (n : Node) :
    ∀ o ∈ (b.push n).stack, o.tag.selfClosing = false := by
  obtain ⟨stack, roots, cms, platform, started⟩ := b
  cases stack with
  | nil => exact h
  | cons top outer =>
    intro o ho
    rcases List.mem_cons.mp ho with rfl | ho
    · exact h top List.mem_cons_self
    · exact h o (List.mem_cons_of_mem top ho)

/-- An event that adds one node. -/
theorem push (h : Follows es b) {e : Event} {n : Node} (hheader : e.isHeader = false)
    (hn : n.events [] = [e.kept]) : Follows (es ++ [e]) (b.push n) := by
  refine ⟨?_, opened_push h.opened n⟩
  rw [events_push, h.events, hn, Event.kept_append es hheader]

theorem start (h : Follows es b) : Follows es b.start := ⟨h.events, h.opened⟩

theorem header (h : Follows es b) {e : Event} (hheader : e.isHeader = true)
    (hstack : b'.stack = b.stack) (hroots : b'.roots = b.roots) : Follows (es ++ [e]) b' := by
  refine ⟨?_, hstack ▸ h.opened⟩
  rw [Builder.events, hstack, hroots, ← Builder.events, h.events]
  simp [hheader]

theorem add {e : Event} (h : Follows es b) (he : e.Consistent) (hb : b.add e = .ok b') :
    Follows (es ++ [e]) b' := by
  have hheader : ∀ {t : Tag} {name : String}, t.name = name → Builder.isHeader name = true →
      e = .selfClosing t ∨ e = .opening t → e.isHeader = true := by
    rintro t name rfl hname (rfl | rfl) <;> exact hname
  cases adds_of_add hb with
  | text v p =>
    split
    · exact h.push rfl rfl
    · exact h.start.push rfl rfl
  | comment v p => exact h.push rfl rfl
  | interpolation i => exact h.start.push rfl rfl
  | @selfClosing t ht =>
    refine h.start.push ht ?_
    have hself : t.selfClosing = true := he
    simp [Node.events, hself, Node.eventsAll, Event.kept]
  | @opening t ht hdepth =>
    refine ⟨?_, ?_⟩
    · rw [Event.kept_append es (show (Event.opening t).isHeader = false from ht), ← h.events]
      simp [Builder.events, OpenTag.events, Node.eventsAll, Event.kept]
    · intro o ho
      rcases List.mem_cons.mp ho with rfl | ho
      · exact he
      · exact h.opened o ho
  | cms he hname => exact h.header (hheader hname rfl he) rfl rfl
  | platform he hname => exact h.header (hheader hname rfl he) rfl rfl
  | @closing top outer hstack pos =>
    have htop : top.tag.selfClosing = false := h.opened top (by rw [hstack]; exact List.mem_cons_self)
    have houter : ∀ o ∈ outer, o.tag.selfClosing = false :=
      fun o ho => h.opened o (by rw [hstack]; exact List.mem_cons_of_mem top ho)
    refine ⟨?_, opened_push houter _⟩
    rw [events_close hstack htop, h.events, Event.kept_append es rfl]
    rfl

theorem addAll {rest : List Event} (h : Follows es b) (hrest : ∀ e ∈ rest, e.Consistent)
    (hb : b.addAll rest = .ok b') : Follows (es ++ rest) b' := by
  induction rest generalizing es b with
  | nil =>
    cases hb
    rwa [List.append_nil]
  | cons e rest ih =>
    rw [Builder.addAll] at hb
    split at hb
    · rename_i added hadd
      have hadded := h.add (hrest e List.mem_cons_self) hadd
      have hall := ih hadded (fun e' he' => hrest e' (List.mem_cons_of_mem e he')) hb
      rwa [List.append_assoc, List.singleton_append] at hall
    · cases hb

end Follows

theorem hoist_eq (stack : List OpenTag) (ns : List Node) :
    hoist stack ns = (stack.reverse.flatMap fun o => .tag o.tag [] :: o.children) ++ ns := by
  induction stack generalizing ns with
  | nil => rfl
  | cons top outer ih => rw [hoist, ih]; simp

/-- No tag that is closed stands where one stands that is open. -/
theorem closed_of_places {b : Builder} (h : (Event.places b.events).Nodup) {t : Tag} {o : OpenTag}
    (ho : o ∈ b.stack)
    (ht : .opening t ∈ Node.eventsAll [] b.roots ∨
      ∃ o' ∈ b.stack, .opening t ∈ Node.eventsAll [] o'.children) :
    t.pos ≠ o.tag.pos := by
  have hopen : o.tag.pos ∈ Event.places o.events := Event.place_of_mem List.mem_cons_self
  rw [events, Event.places_append, Event.places_flatMap] at h
  obtain ⟨-, hstack, hdisjoint⟩ := List.nodup_append.mp h
  rcases ht with ht | ⟨o', ho', ht⟩
  · -- the tag is closed and stands outside all open ones
    exact hdisjoint _ (Event.place_of_mem ht) _
      (List.mem_flatMap.mpr ⟨o, List.mem_reverse.mpr ho, hopen⟩)
  · obtain ⟨hown, hpairs⟩ := List.nodup_flatMap.mp hstack
    intro hpos
    by_cases heq : o' = o
    · subst heq
      have hnodup : (o'.tag.pos :: Event.places (Node.eventsAll [] o'.children)).Nodup :=
        hown o' (List.mem_reverse.mpr ho')
      exact (List.nodup_cons.mp hnodup).1 (hpos ▸ Event.place_of_mem ht)
    · -- the tag is closed inside another open one
      have : Std.Symm (Function.onFun List.Disjoint fun o : OpenTag => Event.places o.events) :=
        ⟨fun _ _ h => List.Disjoint.symm h⟩
      have hapart : (Event.places o'.events).Disjoint (Event.places o.events) :=
        hpairs.forall (List.mem_reverse.mpr ho') (List.mem_reverse.mpr ho) heq
      exact hapart (Event.place_of_mem (List.mem_cons_of_mem _ ht)) (hpos ▸ hopen)

/-- The document that is built, taken apart, is what is built so far. -/
theorem events_finish {b : Builder} (hopened : ∀ o ∈ b.stack, o.tag.selfClosing = false)
    (h : (Event.places b.events).Nodup) : b.finish.events = b.events := by
  let unclosed := b.finish.preamble.unclosed
  have hunclosed : ∀ {u : UnclosedTag}, u ∈ unclosed → ∃ o ∈ b.stack, o.tag.pos = u.pos := by
    intro u hu
    obtain ⟨o, ho, rfl⟩ := List.mem_map.mp hu
    exact ⟨o, by simpa using ho, rfl⟩
  have hroots : Node.eventsAll unclosed b.roots = Node.eventsAll [] b.roots := by
    refine Node.eventsAll_closed unclosed b.roots fun t ht hmem => ?_
    obtain ⟨o, ho, hpos⟩ := hunclosed hmem
    exact closed_of_places h ho (.inl ht) hpos.symm
  have hopen : ∀ o ∈ b.stack, Node.eventsAll unclosed (.tag o.tag [] :: o.children) = o.events := by
    intro o ho
    have hcontent : Node.eventsAll unclosed o.children = Node.eventsAll [] o.children := by
      refine Node.eventsAll_closed unclosed o.children fun t ht hmem => ?_
      obtain ⟨o', ho', hpos⟩ := hunclosed hmem
      exact closed_of_places h ho' (.inr ⟨o, ho, ht⟩) hpos.symm
    have hmem : (⟨o.tag.name, o.tag.pos⟩ : UnclosedTag) ∈ unclosed :=
      List.mem_map.mpr ⟨o, by simpa using ho, rfl⟩
    rw [Node.eventsAll, hcontent]
    simp [Node.events, hopened o ho, hmem, Node.eventsAll, OpenTag.events]
  have hflat : ∀ stack : List OpenTag, (∀ o ∈ stack, o ∈ b.stack) →
      Node.eventsAll unclosed (stack.flatMap fun o => .tag o.tag [] :: o.children) =
        stack.flatMap OpenTag.events := by
    intro stack hstack
    induction stack with
    | nil => rfl
    | cons o stack ih =>
      rw [List.flatMap_cons, Node.eventsAll_append, hopen o (hstack o List.mem_cons_self),
        ih fun o' ho' => hstack o' (List.mem_cons_of_mem o ho'), List.flatMap_cons]
  show Node.eventsAll unclosed (b.roots ++ hoist b.stack []) = _
  rw [hoist_eq, List.append_nil, Node.eventsAll_append, hroots,
    hflat _ fun o ho => List.mem_reverse.mp ho]
  rfl

end Builder

/-! Documents. -/

/-- A parsed document, taken apart in pre-order, gives the events that are written in the tokens of
    its source and no others, in their order and without the headers. Its nodes stand one behind
    the other, and there is one for each event that is no closing tag. -/
theorem Document.parse_events {source : String} {d : Document} (h : parse source = .ok d) :
    ∃ toks eof es, tokenize source = .ok (toks ++ [eof]) ∧ eof.kind = .eof ∧
      (∀ es', Event.Writes toks es' ↔ es' = es) ∧
      d.events = (es.filter (!·.isHeader)).map Event.kept ∧
      d.nodes.Pairwise (·.pos.offset < ·.pos.offset) ∧
      d.nodeCount = (es.filter fun e => !e.isHeader && !e.isClosing).length := by
  obtain ⟨toks, eof, es, b, htoks, heof, hcuts, hwritten, hbuilt, rfl⟩ := parse_writes h
  obtain ⟨hevents, hopened⟩ := Builder.Follows.empty.addAll hwritten.consistent hbuilt
  rw [List.nil_append] at hevents
  -- what starts first is read first
  have hbehind : (es.map Event.pos).Pairwise (·.offset < ·.offset) :=
    hcuts.behind.sublist hwritten.starts
  have hplaces : Event.places b.events = Event.places (es.filter (!·.isHeader)) := by
    rw [hevents, Event.places_kept]
  have hsorted : (Event.places b.events).Pairwise (·.offset < ·.offset) := by
    rw [hplaces]
    exact hbehind.sublist ((Event.places_sublist _).trans (List.filter_sublist.map _))
  have hnodup : (Event.places b.events).Nodup := Position.nodup_of_offsets hsorted
  have hfinish : b.finish.events = b.events := Builder.events_finish hopened hnodup
  have hnodes : Event.places b.events = b.finish.nodes.map Node.pos := by
    rw [← hfinish]
    refine Node.places_eventsAll _ _ fun p content hmem => ?_
    exact parse_no_document h p content (mem_nodes.mp hmem)
  refine ⟨toks, eof, es, htoks, heof, fun es' => ?_, hfinish.trans hevents, ?_, ?_⟩
  · rw [Event.writes_iff hcuts.sound, hwritten.all eof, Prod.mk.injEq, and_iff_left rfl, eq_comm]
  · rwa [hnodes, List.pairwise_map] at hsorted
  · have hlength := congrArg List.length (hplaces.symm.trans hnodes)
    rw [Event.places, List.length_map, List.length_map, List.filter_filter] at hlength
    rw [nodeCount, ← hlength]
    simp only [Bool.and_comm]

/-- A tag that is closed, with an attribute that is written twice, and one that stays open. -/
theorem Document.parse_events_unclosed :
    ∃ d, parse "\x7ba n=1 n=2\x7dt\x7b/a\x7d\x7bb\x7du" = .ok d ∧
      ∃ toks eof es, tokenize "\x7ba n=1 n=2\x7dt\x7b/a\x7d\x7bb\x7du" = .ok (toks ++ [eof]) ∧
        eof.kind = .eof ∧ (∀ es', Event.Writes toks es' ↔ es' = es) ∧
        d.events = (es.filter (!·.isHeader)).map Event.kept ∧
        d.nodes.Pairwise (·.pos.offset < ·.pos.offset) ∧
        d.nodeCount = (es.filter fun e => !e.isHeader && !e.isClosing).length := by
  have htokens : tokenize "\x7ba n=1 n=2\x7dt\x7b/a\x7d\x7bb\x7du" =
      .ok ([⟨.leftBrace, .none, ⟨1, 1, 0⟩⟩, ⟨.ident, .str "a", ⟨1, 2, 1⟩⟩, ⟨.ident, .str "n", ⟨1, 4, 3⟩⟩,
        ⟨.equal, .none, ⟨1, 5, 4⟩⟩, ⟨.number, .int 1, ⟨1, 6, 5⟩⟩, ⟨.ident, .str "n", ⟨1, 8, 7⟩⟩,
        ⟨.equal, .none, ⟨1, 9, 8⟩⟩, ⟨.number, .int 2, ⟨1, 10, 9⟩⟩, ⟨.rightBrace, .none, ⟨1, 11, 10⟩⟩,
        ⟨.text, .str "t", ⟨1, 12, 11⟩⟩, ⟨.leftBrace, .none, ⟨1, 13, 12⟩⟩, ⟨.slash, .none, ⟨1, 14, 13⟩⟩,
        ⟨.ident, .str "a", ⟨1, 15, 14⟩⟩, ⟨.rightBrace, .none, ⟨1, 16, 15⟩⟩,
        ⟨.leftBrace, .none, ⟨1, 17, 16⟩⟩, ⟨.ident, .str "b", ⟨1, 18, 17⟩⟩,
        ⟨.rightBrace, .none, ⟨1, 19, 18⟩⟩, ⟨.text, .str "u", ⟨1, 20, 19⟩⟩] ++
          [⟨.eof, .none, ⟨1, 21, 20⟩⟩]) := by decide +kernel
  have hparse := parse_of_events htokens (by simp) rfl (by decide +kernel : _ =
    ([.opening ⟨"a", [("n", .int 2)], false, ⟨1, 1, 0⟩⟩, .text "t" ⟨1, 12, 11⟩,
      .closing "a" ⟨1, 13, 12⟩, .opening ⟨"b", [], false, ⟨1, 17, 16⟩⟩, .text "u" ⟨1, 20, 19⟩],
      none)) rfl
  exact ⟨_, hparse, parse_events hparse⟩

end BraceTemplate
