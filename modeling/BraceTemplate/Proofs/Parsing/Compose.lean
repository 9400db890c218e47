import BraceTemplate.Proofs.Lexing.Seam
import BraceTemplate.Proofs.Parsing.Balance
import BraceTemplate.Proofs.Parsing.Readers

/- Parsing is compositional. Where a source is closed, in that its tags are and that its last token
   is a brace or a comment, another source can be put behind it: the lexer does not see the seam,
   the events are those of both, and the builder of the whole is that of the second source behind
   the nodes of the first (`Builder.Behind`). So the document of the whole is put together from the
   two documents, and a fault of the second source is the fault of the whole, each with the
   positions moved (`Document.parse_append`). -/
namespace BraceTemplate

open Lexer (bracesBehind bracesAfter)

/-! Braces. -/

theorem Lexer.bracesBehind_append (b : List Bool) (ts us : List Token) :
    bracesBehind b (ts ++ us) = bracesBehind (bracesBehind b ts) us := List.foldl_append

theorem Token.Within.length_bracesBehind {ts : List Token} {n m : Nat} (h : Within n ts m)
    {b : List Bool} (hb : b.length = n) : (bracesBehind b ts).length = m := by
  induction ts generalizing n b with
  | nil =>
    obtain rfl : n = m := h
    exact hb
  | cons t ts ih => exact ih h.2 (by rw [Lexer.length_bracesAfter, hb])

/-- Behind events no brace is open. -/
theorem Event.Writes.closed {ts : List Token} {es : List Event} (h : Writes ts es) :
    bracesBehind [] ts = [] := by
  induction h with
  | nil => rfl
  | cons h hrest ih =>
    obtain ⟨inner, close, m, rfl, hclose, hinner⟩ := h.within
    have hlength : (bracesBehind [] (inner ++ [close])).length = 0 := by
      rw [Lexer.bracesBehind_append]
      show (bracesAfter close.kind (bracesBehind [] inner)).length = 0
      rw [Lexer.length_bracesAfter, hinner.length_bracesBehind rfl, hclose]
    rw [Lexer.bracesBehind_append, List.length_eq_zero_iff.mp hlength, ih]

/-! Builders. -/

variable {f : Position → Position}

namespace Event

theorem moved_pos (f : Position → Position) (e : Event) : (e.moved f).pos = f e.pos := by
  cases e <;> rfl

theorem moved_isHeader (f : Position → Position) (e : Event) :
    (e.moved f).isHeader = e.isHeader := by
  cases e <;> rfl

theorem Violates.moved {names : List String} {e : Event} {fault : ParseFault}
    (h : Violates names e fault) (f : Position → Position) : Violates names (e.moved f) fault := by
  cases h with
  | stray name pos => exact .stray name (f pos)
  | mismatched outer pos hname => exact .mismatched outer (f pos) hname
  | deep t hdepth => exact .deep (t.moved f) hdepth

end Event

def OpenTag.moved (f : Position → Position) (o : OpenTag) : OpenTag :=
  ⟨o.tag.moved f, o.children.map (Node.moved f)⟩

namespace Builder

/-- One builder has what the other has, moved, behind the roots of a first one. -/
structure Behind (f : Position → Position) (first b b' : Builder) : Prop where
  stack : b'.stack = b.stack.map (OpenTag.moved f)
  roots : b'.roots = first.roots ++ b.roots.map (Node.moved f)
  cms : b'.cms = first.cms
  platform : b'.platform = first.platform

namespace Behind
variable {first b b' c : Builder} {e : Event} {es : List Event} {g : ParseError}

theorem names (h : Behind f first b b') : b'.names = b.names := by
  rw [Builder.names, h.stack, List.map_map]
  rfl

theorem start (h : Behind f first b b') : Behind f first b.start b'.start :=
  ⟨h.stack, h.roots, h.cms, h.platform⟩

theorem push (h : Behind f first b b') (n : Node) :
    Behind f first (b.push n) (b'.push (n.moved f)) := by
  obtain ⟨stack, roots, cms, platform, started⟩ := b
  obtain ⟨stack', roots', cms', platform', started'⟩ := b'
  obtain ⟨rfl, rfl, rfl, rfl⟩ := h
  cases stack with
  | nil => exact ⟨rfl, by simp [Builder.push], rfl, rfl⟩
  | cons top outer => exact ⟨by simp [Builder.push, OpenTag.moved], rfl, rfl, rfl⟩

theorem node_moved (t : Tag) (content : List Node) :
    (Node.tag t content).moved f = .tag (t.moved f) (content.map (Node.moved f)) := by
  rw [Node.moved, Node.movedAll_eq_map]

/-- What one builder can add, the other can. -/
theorem add (h : Behind f first b b') (hheader : e.isHeader = false) (hadd : b.add e = .ok c) :
    ∃ c', b'.add (e.moved f) = .ok c' ∧ Behind f first c c' := by
  cases adds_of_add hadd with
  | text v p =>
    refine ⟨_, rfl, ?_⟩
    have hpush : Behind f first (if isBlank v then b else b.start)
        (if isBlank v then b' else b'.start) := by
      split
      · exact h
      · exact h.start
    exact hpush.push (.text v p)
  | comment v p => exact ⟨_, rfl, h.push (.comment v p)⟩
  | interpolation i => exact ⟨_, rfl, h.start.push (.interpolation i)⟩
  | @selfClosing t hname =>
    have hpush := h.start.push (.tag t [])
    rw [node_moved] at hpush
    exact ⟨_, add_selfClosing hname, hpush⟩
  | @opening t hname hdepth =>
    have hopen : ¬ maxOpenTags ≤ b'.stack.length := by
      rw [h.stack, List.length_map]
      omega
    have hname' : isHeader (t.moved f).name = false := hname
    refine ⟨⟨⟨t.moved f, []⟩ :: b'.stack, b'.roots, b'.cms, b'.platform, true⟩, ?_, ?_⟩
    · exact (add_opening hname').trans (if_neg hopen)
    · exact ⟨congrArg (_ :: ·) h.stack, h.roots, h.cms, h.platform⟩
  | cms he hname | platform he hname =>
    rw [Event.isHeader_of_tag he, hname] at hheader
    exact absurd hheader (by decide)
  | @closing top outer hstack pos =>
    have hstack' := h.stack
    rw [hstack, List.map_cons] at hstack'
    have hrest : Behind f first { b with stack := outer }
        { b' with stack := outer.map (OpenTag.moved f) } := ⟨rfl, h.roots, h.cms, h.platform⟩
    have hpush := hrest.push (.tag top.tag top.children)
    rw [node_moved] at hpush
    refine ⟨_, ?_, hpush⟩
    show b'.closing _ _ = _
    rw [Builder.closing, hstack']
    exact if_pos rfl

/-- What one builder cannot add, the other cannot, for the same reason. -/
theorem add_error (h : Behind f first b b') (hheader : e.isHeader = false)
    (hadd : b.add e = .error g) : b'.add (e.moved f) = .error (g.moved f) := by
  obtain ⟨fault, hviolates, rfl⟩ := (add_error_iff hheader).mp hadd
  rw [add_error_iff (by rw [Event.moved_isHeader, hheader])]
  refine ⟨fault, ?_, by rw [Event.moved_pos]; rfl⟩
  rw [h.names]
  exact hviolates.moved f

theorem addAll (h : Behind f first b b') (hheaders : ∀ e ∈ es, e.isHeader = false)
    (hadd : b.addAll es = .ok c) :
    ∃ c', b'.addAll (es.map (Event.moved f)) = .ok c' ∧ Behind f first c c' := by
  induction es generalizing b b' with
  | nil =>
    cases hadd
    exact ⟨b', rfl, h⟩
  | cons e es ih =>
    obtain ⟨he, hes⟩ := List.forall_mem_cons.mp hheaders
    rw [Builder.addAll] at hadd
    split at hadd
    · rename_i d hd
      obtain ⟨d', hd', hbehind⟩ := h.add he hd
      obtain ⟨c', hc', hlast⟩ := ih hbehind hes hadd
      refine ⟨c', ?_, hlast⟩
      rw [List.map_cons, Builder.addAll, hd']
      exact hc'
    · cases hadd

theorem addAll_error (h : Behind f first b b') (hheaders : ∀ e ∈ es, e.isHeader = false)
    (hadd : b.addAll es = .error g) : b'.addAll (es.map (Event.moved f)) = .error (g.moved f) := by
  obtain ⟨before, e, after, d, rfl, hbefore, hfails⟩ := addAll_error_iff.mp hadd
  obtain ⟨hheadersb, hrest⟩ := List.forall_mem_append.mp hheaders
  obtain ⟨d', hd', hbehind⟩ := h.addAll hheadersb hbefore
  apply addAll_error_iff.mpr
  refine ⟨before.map (Event.moved f), e.moved f, after.map (Event.moved f), d', by simp, hd', ?_⟩
  exact hbehind.add_error (hrest e List.mem_cons_self) hfails

theorem finish (h : Behind f first b b') :
    b'.finish = ⟨⟨first.cms, first.platform, b.finish.preamble.unclosed.map (UnclosedTag.moved f)⟩,
      first.roots ++ b.finish.children.map (Node.moved f)⟩ := by
  have hnode : ∀ o : OpenTag, (.tag (o.moved f).tag [] :: (o.moved f).children : List Node) =
      (.tag o.tag [] :: o.children : List Node).map (Node.moved f) := by
    intro o
    rw [List.map_cons, node_moved]
    rfl
  have hhoist : hoist b'.stack [] = (hoist b.stack []).map (Node.moved f) := by
    rw [hoist_eq, hoist_eq, h.stack, List.append_nil, List.append_nil, ← List.map_reverse,
      List.flatMap_map, List.map_flatMap]
    simp only [hnode]
  have hunclosed : b'.stack.reverse.map (fun o => (⟨o.tag.name, o.tag.pos⟩ : UnclosedTag)) =
      (b.stack.reverse.map fun o => (⟨o.tag.name, o.tag.pos⟩ : UnclosedTag)).map
        (UnclosedTag.moved f) := by
    rw [h.stack, ← List.map_reverse, List.map_map, List.map_map]
    rfl
  simp only [Builder.finish, h.cms, h.platform, h.roots, hhoist, hunclosed, List.map_append,
    List.append_assoc]

end Behind

/-- A builder with no open tags is behind itself, before anything is added. -/
theorem behind_empty {b : Builder} (h : b.stack = []) : Behind f b empty b :=
  ⟨h, (List.append_nil _).symm, rfl, rfl⟩

end Builder

/-! Documents. -/

/-- The document of a source behind that of another one. -/
def Document.append (d : Document) (f : Position → Position) (d' : Document) : Document :=
  ⟨⟨d.preamble.cms, d.preamble.platform, d'.preamble.unclosed.map (UnclosedTag.moved f)⟩,
    d.children ++ d'.children.map (Node.moved f)⟩

namespace Document

theorem finish_append {b b₁ b₂ : Builder} (hstack : b.stack = []) (h : Builder.Behind f b b₁ b₂) :
    b₂.finish = b.finish.append f b₁.finish := by
  rw [h.finish, append]
  simp [Builder.finish, hstack, Builder.hoist]

/-- The document of tokens behind those of another document is put together from both. -/
theorem ofTokens_behind {ts us : List Token} {es : List Event} {b : Builder} {eof : Token}
    (hwritten : Event.Writes ts es) (hbuilt : Builder.empty.addAll es = .ok b)
    (hstack : b.stack = []) (hts : ∀ t ∈ ts, t.kind ≠ .eof) (hus : ∀ t ∈ us, t.kind ≠ .eof)
    (heof : eof.kind = .eof) (hheaders : ∀ e ∈ (Event.all eof us).1, e.isHeader = false) :
    ofTokens (ts ++ (us ++ [eof]).map (Token.moved f)) =
      Outcome.bimap (ParseError.moved f) (b.finish.append f) (ofTokens (us ++ [eof])) := by
  have hends : ∀ t ∈ ts ++ us.map (Token.moved f), t.kind ≠ .eof := by
    rw [List.forall_mem_append, List.forall_mem_map]
    exact ⟨hts, hus⟩
  have heof' : (eof.moved f).kind = .eof := heof
  have hjoin : ts ++ (us ++ [eof]).map (Token.moved f) =
      (ts ++ us.map (Token.moved f)) ++ [eof.moved f] := by simp
  have hevents := hwritten.readsAs (eof.moved f) (us.map (Token.moved f))
  rw [Event.all_moved] at hevents
  have hadd : ∀ more, Builder.empty.addAll (es ++ more) = b.addAll more := by
    intro more
    rw [Builder.addAll_append, hbuilt]
    rfl
  rw [hjoin, ofTokens_append hends heof', ofTokens_append hus heof, hevents, hadd]
  have hbehind : Builder.Behind f b Builder.empty b := Builder.behind_empty hstack
  cases hadds : Builder.empty.addAll (Event.all eof us).1 with
  | error g =>
    rw [hbehind.addAll_error hheaders hadds]
    rfl
  | ok b₁ =>
    obtain ⟨b₂, hb₂, hlast⟩ := hbehind.addAll hheaders hadds
    rw [hb₂]
    cases (Event.all eof us).2 with
    | some e => rfl
    | none => exact congrArg Except.ok (finish_append hstack hlast)

/-- A source whose tags are all closed and whose last token is a closing brace or a comment can be
    put in front of any source without headers: the whole has a document exactly when the second
    source has one, put together from the two with the positions of the second moved behind the
    first, and otherwise the fault of the second, moved. -/
theorem parse_append {source more : String} {d : Document} {toks : List Token} {last eof : Token}
    (hd : parse source = .ok d) (hclosed : d.preamble.unclosed = [])
    (htoks : tokenize source = .ok (toks ++ [last, eof]))
    (hlast : last.kind = .rightBrace ∨ last.kind = .comment)
    (hheaders : ∀ us eof', tokenize more = .ok (us ++ [eof']) →
      ∀ e ∈ (Event.all eof' us).1, e.isHeader = false) :
    parse (source ++ more) = Outcome.bimap (TemplateError.moved (Position.behind source.toList))
      (d.append (Position.behind source.toList)) (parse more) := by
  obtain ⟨ts, eof', es, b, htoks', heof, hcuts, hwritten, hbuilt, rfl⟩ := parse_writes hd
  have hsplit : (toks ++ [last]) ++ [eof] = ts ++ [eof'] := by
    rw [List.append_assoc]
    exact Except.ok.inj (htoks.symm.trans htoks')
  obtain ⟨rfl, -⟩ := List.append_inj' hsplit rfl
  have hstack : b.stack = [] := by simpa [Builder.finish] using hclosed
  have hfirm : Lexer.EndsFirm (toks ++ [last]) := by
    intro t ht
    rw [List.getLast?_concat] at ht
    obtain rfl := Option.some.inj ht
    simpa using hlast
  have htokens := Lexer.tokenize_append htoks' hfirm hwritten.closed more
  unfold parse
  rw [htokens]
  cases hmore : tokenize more with
  | error e => rfl
  | ok us =>
    obtain ⟨us, rfl, hcuts'⟩ := Lexer.tokenize_cuts hmore
    have hwhole := ofTokens_behind (f := Position.behind source.toList) hwritten hbuilt hstack
      hcuts.ne_eof hcuts'.ne_eof rfl (hheaders us _ hmore)
    simp only [Outcome.bimap, hwhole]
    cases ofTokens (us ++ [_]) <;> rfl

/-- The seam is in the second line, and the second source leaves a tag open. -/
theorem parse_append_lines :
    ∃ d toks last eof, parse "\x7ba\x7d\n\x7b/a\x7d" = .ok d ∧ d.preamble.unclosed = [] ∧
      tokenize "\x7ba\x7d\n\x7b/a\x7d" = .ok (toks ++ [last, eof]) ∧ last.kind = .rightBrace ∧
      parse ("\x7ba\x7d\n\x7b/a\x7d" ++ "\x7bb\x7dy") =
        Outcome.bimap (TemplateError.moved (Position.behind "\x7ba\x7d\n\x7b/a\x7d".toList))
          (d.append (Position.behind "\x7ba\x7d\n\x7b/a\x7d".toList)) (parse "\x7bb\x7dy") := by
  have hfirst : tokenize "\x7ba\x7d\n\x7b/a\x7d" =
      .ok ([⟨.leftBrace, .none, ⟨1, 1, 0⟩⟩, ⟨.ident, .str "a", ⟨1, 2, 1⟩⟩, ⟨.rightBrace, .none, ⟨1, 3, 2⟩⟩,
        ⟨.text, .str "\n", ⟨1, 4, 3⟩⟩, ⟨.leftBrace, .none, ⟨2, 1, 4⟩⟩, ⟨.slash, .none, ⟨2, 2, 5⟩⟩,
        ⟨.ident, .str "a", ⟨2, 3, 6⟩⟩] ++ [⟨.rightBrace, .none, ⟨2, 4, 7⟩⟩] ++
        [⟨.eof, .none, ⟨2, 5, 8⟩⟩]) := by decide +kernel
  have hsecond : tokenize "\x7bb\x7dy" =
      .ok ([⟨.leftBrace, .none, ⟨1, 1, 0⟩⟩, ⟨.ident, .str "b", ⟨1, 2, 1⟩⟩, ⟨.rightBrace, .none, ⟨1, 3, 2⟩⟩,
        ⟨.text, .str "y", ⟨1, 4, 3⟩⟩] ++ [⟨.eof, .none, ⟨1, 5, 4⟩⟩]) := by decide +kernel
  have hparse := parse_of_events hfirst (by simp) rfl (by decide +kernel : _ =
    ([.opening ⟨"a", [], false, ⟨1, 1, 0⟩⟩, .text "\n" ⟨1, 4, 3⟩, .closing "a" ⟨2, 1, 4⟩], none)) rfl
  have hheaders : ∀ us eof', tokenize "\x7bb\x7dy" = .ok (us ++ [eof']) →
      ∀ e ∈ (Event.all eof' us).1, e.isHeader = false := by
    intro us eof' htoks
    obtain ⟨rfl, heof⟩ := List.append_inj' (Except.ok.inj (hsecond.symm.trans htoks)) rfl
    obtain rfl := List.singleton_inj.mp heof
    decide +kernel
  rw [List.append_assoc] at hfirst
  exact ⟨_, _, _, _, hparse, rfl, hfirst, rfl, parse_append hparse rfl hfirst (.inl rfl) hheaders⟩

end Document
end BraceTemplate
