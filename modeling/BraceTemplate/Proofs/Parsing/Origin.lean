import BraceTemplate.Proofs.Checking.Nodes
import BraceTemplate.Proofs.Parsing.Events

/- Every node of a parsed document comes from an event (`Document.parse_origin`): a builder
   puts the nodes of events together and makes no others, and takes headers from tags. So a
   parsed document has no document inside it, and its tags are tags that were read. -/
namespace BraceTemplate

/-- The node comes from the event; what a tag holds comes from other events. -/
inductive Event.Gives : Event → Node → Prop where
  | text (value : String) (pos : Position) : Gives (.text value pos) (.text value pos)
  | comment (value : String) (pos : Position) : Gives (.comment value pos) (.comment value pos)
  | interpolation (site : Interpolation) : Gives (.interpolation site) (.interpolation site)
  | selfClosing (t : Tag) (content : List Node) : Gives (.selfClosing t) (.tag t content)
  | opening (t : Tag) (content : List Node) : Gives (.opening t) (.tag t content)

namespace Node

/-- All nodes that occur come from the events. -/
def ComeFrom (es : List Event) (ns : List Node) : Prop := ∀ n, n.Occurs ns → ∃ e ∈ es, e.Gives n

namespace ComeFrom
variable {es : List Event} {ns ns' : List Node}

theorem nil : ComeFrom es [] := by
  intro n h
  cases h with
  | top h => cases h
  | deep hn _ => cases hn

theorem append (h : ComeFrom es ns) (h' : ComeFrom es ns') : ComeFrom es (ns ++ ns') := by
  intro n hn
  cases hn with
  | top hn =>
    rcases List.mem_append.mp hn with hn | hn
    · exact h n (.top hn)
    · exact h' n (.top hn)
  | deep hm hn =>
    rcases List.mem_append.mp hm with hm | hm
    · exact h n (.deep hm hn)
    · exact h' n (.deep hm hn)

theorem single {n : Node} {e : Event} (he : e ∈ es) (hn : e.Gives n) (h : ComeFrom es n.children) :
    ComeFrom es [n] := by
  intro m hm
  cases hm with
  | top hm =>
    obtain rfl := List.mem_singleton.mp hm
    exact ⟨e, he, hn⟩
  | deep hk hm =>
    obtain rfl := List.mem_singleton.mp hk
    exact h m hm

end ComeFrom
end Node

namespace Builder

open Node (ComeFrom)

/-- What is built so far comes from the events. -/
structure BuiltFrom (es : List Event) (b : Builder) : Prop where
  roots : ComeFrom es b.roots
  opened : ∀ o ∈ b.stack, .opening o.tag ∈ es
  content : ∀ o ∈ b.stack, ComeFrom es o.children
  cms : ∀ h ∈ b.cms, ∃ t, (.selfClosing t ∈ es ∨ .opening t ∈ es) ∧ h = cmsHeader t
  platform : ∀ h ∈ b.platform, ∃ t, (.selfClosing t ∈ es ∨ .opening t ∈ es) ∧ h = platformHeader t

namespace BuiltFrom
variable {es : List Event} {b b' : Builder}

theorem push (h : BuiltFrom es b) {n : Node} (hn : ComeFrom es [n]) : BuiltFrom es (b.push n) := by
  obtain ⟨stack, roots, cms, platform, started⟩ := b
  cases stack with
  | nil => exact ⟨h.roots.append hn, h.opened, h.content, h.cms, h.platform⟩
  | cons top outer =>
    refine ⟨h.roots, ?_, ?_, h.cms, h.platform⟩
    · intro o ho
      rcases List.mem_cons.mp ho with rfl | ho
      · exact h.opened top List.mem_cons_self
      · exact h.opened o (List.mem_cons_of_mem top ho)
    · intro o ho
      rcases List.mem_cons.mp ho with rfl | ho
      · exact (h.content top List.mem_cons_self).append hn
      · exact h.content o (List.mem_cons_of_mem top ho)

theorem start (h : BuiltFrom es b) : BuiltFrom es b.start :=
  ⟨h.roots, h.opened, h.content, h.cms, h.platform⟩

theorem add {e : Event} (h : BuiltFrom es b) (he : e ∈ es) (hb : b.add e = .ok b') :
    BuiltFrom es b' := by
  cases adds_of_add hb with
  | text v p =>
    refine push ?_ (.single he (.text v p) .nil)
    split
    · exact h
    · exact h.start
  | comment v p => exact h.push (.single he (.comment v p) .nil)
  | interpolation i => exact h.start.push (.single he (.interpolation i) .nil)
  | selfClosing => exact h.start.push (.single he (.selfClosing _ []) .nil)
  | @opening t =>
    refine ⟨h.roots, ?_, ?_, h.cms, h.platform⟩
    · intro o ho
      rcases List.mem_cons.mp ho with rfl | ho
      · exact he
      · exact h.opened o ho
    · intro o ho
      rcases List.mem_cons.mp ho with rfl | ho
      · exact .nil
      · exact h.content o ho
  | cms heq =>
    refine ⟨h.roots, h.opened, h.content, fun header hheader => ?_, h.platform⟩
    cases hheader
    exact ⟨_, heq.imp (fun htag => htag ▸ he) (fun htag => htag ▸ he), rfl⟩
  | platform heq =>
    refine ⟨h.roots, h.opened, h.content, h.cms, fun header hheader => ?_⟩
    cases hheader
    exact ⟨_, heq.imp (fun htag => htag ▸ he) (fun htag => htag ▸ he), rfl⟩
  | @closing top outer hstack pos =>
    have htop : top ∈ b.stack := by rw [hstack]; exact List.mem_cons_self
    have houter : ∀ o ∈ outer, o ∈ b.stack := by
      rw [hstack]
      exact fun o ho => List.mem_cons_of_mem top ho
    have hrest : BuiltFrom es { b with stack := outer } :=
      ⟨h.roots, fun o ho => h.opened o (houter o ho), fun o ho => h.content o (houter o ho), h.cms,
        h.platform⟩
    -- the tag comes from the event that opened it, not from the one that closes it
    exact hrest.push (.single (h.opened top htop) (.opening _ _) (h.content top htop))

theorem addAll {rest : List Event} (h : BuiltFrom es b) (hrest : ∀ e ∈ rest, e ∈ es)
    (hb : b.addAll rest = .ok b') : BuiltFrom es b' := by
  induction rest generalizing b with
  | nil =>
    cases hb
    exact h
  | cons e rest ih =>
    rw [Builder.addAll] at hb
    split at hb
    · rename_i added hadd
      refine ih (h.add (hrest e List.mem_cons_self) hadd) ?_ hb
      exact fun e' he' => hrest e' (List.mem_cons_of_mem e he')
    · cases hb

theorem hoist {stack : List OpenTag} {ns : List Node} (hopened : ∀ o ∈ stack, .opening o.tag ∈ es)
    (hcontent : ∀ o ∈ stack, ComeFrom es o.children) (hns : ComeFrom es ns) :
    ComeFrom es (Builder.hoist stack ns) := by
  induction stack generalizing ns with
  | nil => exact hns
  | cons top outer ih =>
    rw [Builder.hoist]
    refine ih (fun o ho => hopened o (List.mem_cons_of_mem top ho))
      (fun o ho => hcontent o (List.mem_cons_of_mem top ho)) ?_
    have htop : ComeFrom es [.tag top.tag []] :=
      .single (hopened top List.mem_cons_self) (.opening _ _) .nil
    exact htop.append ((hcontent top List.mem_cons_self).append hns)

theorem finish (h : BuiltFrom es b) : ComeFrom es b.finish.children :=
  h.roots.append (hoist h.opened h.content .nil)

end BuiltFrom

/-- A document is built from its events alone. -/
theorem builtFrom {es : List Event} {b : Builder} (h : empty.addAll es = .ok b) : BuiltFrom es b := by
  have hempty : BuiltFrom es empty :=
    ⟨.nil, by simp [empty], by simp [empty], by simp [empty], by simp [empty]⟩
  exact hempty.addAll (fun e he => he) h

end Builder

/-! Documents. -/

/-- Every node of a parsed document comes from an event of its tokens. -/
theorem Document.parse_origin {source : String} {d : Document} (h : parse source = .ok d) :
    ∃ toks, tokenize source = .ok toks ∧ ∀ n, d.Contains n →
      ∃ e ∈ (Event.all (Token.cut toks).2 (Token.cut toks).1).1, e.Gives n := by
  obtain ⟨toks, htoks, hd⟩ := parse_tokens h
  obtain ⟨b, hb, rfl⟩ := ofTokens_built hd
  exact ⟨toks, htoks, (Builder.builtFrom hb).finish⟩

/-- There is no document inside a parsed document. -/
theorem Document.parse_no_document {source : String} {d : Document} (h : parse source = .ok d)
    (p : Preamble) (content : List Node) : ¬ d.Contains (.document p content) := by
  intro hn
  obtain ⟨toks, -, horigin⟩ := parse_origin h
  obtain ⟨e, -, hgives⟩ := horigin _ hn
  cases hgives

end BraceTemplate
