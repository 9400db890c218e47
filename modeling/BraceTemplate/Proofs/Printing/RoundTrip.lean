import BraceTemplate.Proofs.Printing.Tags

/- A printed template is parsed as the tree it was printed from, up to positions
   (`Document.parse_print`). `Parses` puts the three readers in a row: the text is cut into
   tokens, the tokens are read as events, and the events build the nodes. It holds of each
   node in front of what can follow it, and of nodes one after the other. -/
namespace BraceTemplate

open Lexer

/-! Building. -/

namespace Builder

/-- Adds nodes behind the content of the innermost open tag. -/
def pushAll (b : Builder) (ns : List Node) : Builder :=
  match b.stack with
  | [] => { b with roots := b.roots ++ ns }
  | top :: outer => { b with stack := { top with children := top.children ++ ns } :: outer }

theorem pushAll_nil (b : Builder) : b.pushAll [] = b := by
  obtain ⟨stack, roots, cms, platform, started⟩ := b
  cases stack <;> simp [pushAll]

theorem pushAll_append (b : Builder) (ns ns' : List Node) :
    (b.pushAll ns).pushAll ns' = b.pushAll (ns ++ ns') := by
  obtain ⟨stack, roots, cms, platform, started⟩ := b
  cases stack <;> simp [pushAll]

theorem pushAll_started (b : Builder) (ns : List Node) (s : Bool) :
    ({ b with started := s }).pushAll ns = { b.pushAll ns with started := s } := by
  obtain ⟨stack, roots, cms, platform, started⟩ := b
  cases stack <;> rfl

theorem stack_pushAll (b : Builder) (ns : List Node) :
    (b.pushAll ns).stack.length = b.stack.length := by
  obtain ⟨stack, roots, cms, platform, started⟩ := b
  cases stack <;> rfl

theorem push_started (b : Builder) (n : Node) (s : Bool) :
    ({ b with started := s }).push n = { b.push n with started := s } :=
  pushAll_started b [n] s

/-- A text adds itself; one that is not blank starts the content. -/
theorem add_text (b : Builder) (v : String) (p : Position) :
    ∃ s, b.add (.text v p) = .ok { b.push (.text v p) with started := s } := by
  obtain ⟨s, hs⟩ : ∃ s, (if isBlank v then b else b.start) = { b with started := s } := by
    split
    · exact ⟨b.started, rfl⟩
    · exact ⟨true, rfl⟩
  exact ⟨s, by rw [add, hs, push_started]⟩

/-- The events add the nodes, in any builder that has room for so many more open tags. -/
def Builds (es : List Event) (depth : Nat) (ns : List Node) : Prop :=
  ∀ b : Builder, b.stack.length + depth ≤ maxOpenTags →
    ∃ s, b.addAll es = .ok { b.pushAll ns with started := s }

theorem Builds.nil {depth : Nat} : Builds [] depth [] := by
  intro b _
  refine ⟨b.started, ?_⟩
  rw [pushAll_nil]
  rfl

theorem Builds.append {es es' : List Event} {depth depth' : Nat} {ns ns' : List Node}
    (h : Builds es depth ns) (h' : Builds es' depth' ns') :
    Builds (es ++ es') (max depth depth') (ns ++ ns') := by
  intro b hroom
  obtain ⟨s, hs⟩ := h b (by omega)
  -- the first nodes leave the stack as high as it was
  obtain ⟨s', hs'⟩ := h' { b.pushAll ns with started := s } (by simp only [stack_pushAll]; omega)
  refine ⟨s', ?_⟩
  rw [addAll_append, hs]
  simp only [Except.bind]
  rw [hs', pushAll_started, pushAll_append]

/-- An event that adds one node. -/
theorem Builds.single {e : Event} {depth : Nat} {n : Node}
    (h : ∀ b : Builder, ∃ s, b.add e = .ok { b.push n with started := s }) : Builds [e] depth [n] := by
  intro b _
  obtain ⟨s, hs⟩ := h b
  refine ⟨s, ?_⟩
  rw [addAll, hs]
  rfl

/-- A tag that is opened, filled and closed is added with its content. -/
theorem Builds.tag {t : Tag} (ht : isHeader t.name = false) {es : List Event} {depth : Nat}
    {content : List Node} (h : Builds es depth content) (pos : Position) :
    Builds (.opening t :: (es ++ [.closing t.name pos])) (depth + 1) [.tag t content] := by
  intro b hroom
  let opened : Builder := { b with stack := ⟨t, []⟩ :: b.stack, started := true }
  have hopen : b.add (.opening t) = .ok opened := by
    rw [add, ht, if_neg (by decide), opening, if_neg (by omega)]
  -- the content is built one tag deeper
  obtain ⟨s, hs⟩ := h opened (by simp only [opened, List.length_cons]; omega)
  have hclose : ({ opened.pushAll content with started := s }).add (.closing t.name pos) =
      .ok { b.push (.tag t content) with started := s } := by
    obtain ⟨stack, roots, cms, platform, started⟩ := b
    rw [add, closing]
    refine (if_pos rfl).trans ?_
    cases stack <;> rfl
  refine ⟨s, ?_⟩
  rw [addAll, hopen]
  simp only
  rw [addAll_append, hs]
  simp only [Except.bind, addAll, hclose]
  rfl

end Builder

/-! Nodes. -/

open Event Builder Spelling

/-- The text in front of `rest` is parsed as the nodes, up to positions, where so many more
    tags may be open. -/
def Parses (text rest : List Char) (depth : Nat) (ns : List Node) : Prop :=
  ∀ p, ∃ toks es ns', Lexes p [] text toks [] rest ∧ ReadsAs toks es ∧ Builds es depth ns' ∧
    Node.unplacedAll ns' = Node.unplacedAll ns

namespace Parses
variable {text text' rest : List Char} {depth depth' : Nat} {ns ns' : List Node}

theorem nil : Parses [] rest depth [] :=
  fun _ => ⟨[], [], [], Lexes.nil, ReadsAs.nil, Builds.nil, rfl⟩

theorem unplacedAll_append (ns ns' : List Node) :
    Node.unplacedAll (ns ++ ns') = Node.unplacedAll ns ++ Node.unplacedAll ns' := by
  induction ns with
  | nil => rfl
  | cons n ns ih => simp [Node.unplacedAll, ih]

theorem append (h : Parses text (text' ++ rest) depth ns) (h' : Parses text' rest depth' ns') :
    Parses (text ++ text') rest (max depth depth') (ns ++ ns') := by
  intro p
  obtain ⟨toks, es, ms, hlex, hread, hbuild, hms⟩ := h p
  obtain ⟨toks', es', ms', hlex', hread', hbuild', hms'⟩ := h' (p.through text)
  refine ⟨_, _, _, hlex.append hlex', hread.append hread', hbuild.append hbuild', ?_⟩
  rw [unplacedAll_append, unplacedAll_append, hms, hms']

/-- A piece that is read as one event, which adds one node. -/
theorem single {n : Node}
    (h : ∀ p, ∃ t ts e n', Lexes p [] text (t :: ts) [] rest ∧
      (∀ eof more, next eof t (ts ++ more) = .ok (e, more)) ∧
      (∀ b : Builder, ∃ s, b.add e = .ok { b.push n' with started := s }) ∧
      n'.unplaced = n.unplaced) : Parses text rest depth [n] := by
  intro p
  obtain ⟨t, ts, e, n', hlex, hread, hadd, hn⟩ := h p
  refine ⟨_, _, [n'], hlex, ReadsAs.single hread, Builds.single hadd, ?_⟩
  simp only [Node.unplacedAll, hn]

theorem text_node {v : String} {pos : Position} (h : (Node.text v pos).Printable IsFreeName)
    (hrest : ∀ d ∈ rest.head?, d = '\x7b') :
    Parses (Node.print (.text v pos)) rest depth [.text v pos] := by
  obtain ⟨hne, hbrace⟩ := h
  refine single fun p => ?_
  cases htext : v.toList with
  | nil => exact absurd (by simpa using htext) hne
  | cons c tail =>
    rw [htext] at hbrace
    simp only [List.mem_cons, not_or] at hbrace
    have hlex : Lexes p [] (c :: tail) _ [] rest :=
      Lexes.run (Ne.symm hbrace.1) (fun d hd e => hbrace.2 (e ▸ hd)) hrest
    rw [← htext, String.ofList_toList] at hlex
    exact ⟨_, [], _, .text v p, hlex, fun eof more => rfl, fun b => add_text b v p, rfl⟩

theorem comment_node {v : String} {pos : Position} (h : (Node.comment v pos).Printable IsFreeName) :
    Parses (Node.print (.comment v pos)) rest depth [.comment v pos] := by
  refine single fun p => ?_
  have hlex : Lexes p [] (Node.print (.comment v pos)) _ [] rest := Lexes.comment h
  rw [String.ofList_toList] at hlex
  exact ⟨_, [], _, .comment v p, hlex, fun eof more => rfl,
    fun b => ⟨b.started, congrArg _ (push_started b _ b.started)⟩, rfl⟩

theorem interpolation_node {i : Interpolation} (h : (Node.interpolation i).Printable IsFreeName) :
    Parses (Node.print (.interpolation i)) rest depth [.interpolation i] := by
  refine single fun p => ?_
  obtain ⟨t, ts, hlex, hread⟩ := lexes_interpolation p rest h
  exact ⟨t, ts, _, .interpolation ⟨i.raw, p⟩, hlex, hread,
    fun b => ⟨true, by rw [add, start, push_started]⟩, rfl⟩

theorem name_of_unplaced {t t' : Tag} (h : t'.unplaced = t.unplaced) : t'.name = t.name :=
  (Tag.mk.inj h).1

/-- A tag that closes itself. -/
theorem empty_tag {t : Tag} (h : t.Printable IsFreeName) (hself : t.selfClosing = true) :
    Parses (Print.opening t) rest depth [.tag t []] := by
  refine single fun p => ?_
  obtain ⟨tok, ts, t', hlex, ht, hread⟩ := lexes_opening p rest h
  rw [hself, if_pos rfl] at hread
  have hheader : isHeader t'.name = false := name_of_unplaced ht ▸ h.notHeader
  refine ⟨tok, ts, _, .tag t' [], hlex, hread, fun b => ⟨true, ?_⟩, by simp [Node.unplaced, ht]⟩
  rw [add, hheader, if_neg (by decide), start, push_started]

/-- A tag around its content. -/
theorem full_tag {t : Tag} {content : List Node} (h : t.Printable IsFreeName)
    (hself : t.selfClosing = false)
    (hcontent : Parses text (Print.closing t.name ++ rest) depth content) :
    Parses (Print.opening t ++ (text ++ Print.closing t.name)) rest (depth + 1)
      [.tag t content] := by
  intro p
  obtain ⟨tok, ts, t', hopen, ht, hreadOpen⟩ := lexes_opening p
    ((text ++ Print.closing t.name) ++ rest) h
  rw [hself, if_neg (by decide)] at hreadOpen
  let q := p.through (Print.opening t)
  obtain ⟨toks, es, ns, hlex, hread, hbuild, hns⟩ := hcontent q
  obtain ⟨last, lasts, hclose, hreadClose⟩ := lexes_closing (q.through text) rest h.name
  -- the tag that is read has positions of its own, but the same name
  have hname : t'.name = t.name := name_of_unplaced ht
  have hheader : isHeader t'.name = false := hname ▸ h.notHeader
  have hbuilt := hbuild.tag hheader (q.through text)
  rw [hname] at hbuilt
  refine ⟨_, _, [.tag t' ns], hopen.append (hlex.append hclose),
    (ReadsAs.single hreadOpen).append (hread.append (ReadsAs.single hreadClose)), hbuilt, ?_⟩
  simp only [Node.unplacedAll, Node.unplaced, ht, hns]

end Parses

namespace Node

/-- What is no text is printed as a brace group. -/
theorem print_starts {n : Node} (h : n.Printable IsFreeName) (hn : n.isText = false) :
    ∃ more, n.print = '\x7b' :: more := by
  cases n with
  | document _ _ => exact h.elim
  | tag t content => exact ⟨_, by rw [print, Print.opening, List.cons_append]⟩
  | text v p => cases hn
  | comment v p => exact ⟨_, rfl⟩
  | interpolation i => exact ⟨_, rfl⟩

mutual
theorem parses (rest : List Char) : (n : Node) → n.Printable IsFreeName →
    (n.isText = true → ∀ d ∈ rest.head?, d = '\x7b') → Parses n.print rest n.openDepth [n]
  | .document _ _, h, _ => h.elim
  | .tag t content, ⟨ht, hempty, hcontent⟩, _ => by
    rw [print]
    cases hself : t.selfClosing with
    | true =>
      rw [hempty hself, if_pos rfl, List.append_nil]
      exact Parses.empty_tag ht hself
    | false =>
      have hall : Parses (printAll content) (Print.closing t.name ++ rest) (openDepthAll content)
          content := parsesAll _ content hcontent (fun d hd => (Option.some.inj hd).symm)
      rw [openDepth, hself]
      exact Parses.full_tag ht hself hall
  | .text v p, h, hrest => Parses.text_node h (hrest rfl)
  | .comment v p, h, _ => Parses.comment_node h
  | .interpolation i, h, _ => Parses.interpolation_node h

theorem parsesAll (rest : List Char) : (ns : List Node) → PrintableAll IsFreeName ns →
    (∀ d ∈ rest.head?, d = '\x7b') → Parses (printAll ns) rest (openDepthAll ns) ns
  | [], _, _ => Parses.nil
  | n :: ns, ⟨hn, hadjacent, hns⟩, hrest => by
    have hbehind : n.isText = true → ∀ d ∈ (printAll ns ++ rest).head?, d = '\x7b' := by
      -- behind a text stands the brace of its neighbour or what follows all nodes
      intro htext d hd
      cases ns with
      | nil => exact hrest d hd
      | cons m ns =>
        obtain ⟨more, hmore⟩ := print_starts hns.1 (hadjacent htext m rfl)
        rw [printAll, hmore] at hd
        exact (Option.some.inj hd).symm
    exact (parses _ n hn hbehind).append (parsesAll rest ns hns hrest)
end

end Node

/-- Printing a tree and parsing the text gives the tree back, up to positions: nothing is
    taken for a header, and nothing stays open. -/
theorem Document.parse_print {nodes : List Node} (h : Node.PrintableAll IsFreeName nodes)
    (hdepth : Node.openDepthAll nodes ≤ maxOpenTags) :
    ∃ d, Document.parse (String.ofList (Node.printAll nodes)) = .ok d ∧
      d.preamble = ⟨none, none, []⟩ ∧ Node.unplacedAll d.children = Node.unplacedAll nodes := by
  obtain ⟨toks, es, nodes', hlex, hread, hbuild, hnodes⟩ :=
    Node.parsesAll [] nodes h (by simp) Position.start
  have hscan := hlex.to_end
  obtain ⟨init, hinit, hends⟩ := scan_ends hscan
  obtain ⟨rfl, -⟩ := List.append_inj' hinit rfl
  obtain ⟨s, hs⟩ := hbuild Builder.empty (by simpa [Builder.empty] using hdepth)
  let eof : Token := ⟨.eof, .none, Position.start.through (Node.printAll nodes)⟩
  have htokens : tokenize (String.ofList (Node.printAll nodes)) = .ok (toks ++ [eof]) := by
    rw [tokenize, String.toList_ofList, hscan]
  have hevents : Event.all eof toks = (es, none) := by
    have hevents := hread eof []
    rwa [List.append_nil, Event.all, List.append_nil] at hevents
  refine ⟨⟨⟨none, none, []⟩, nodes'⟩, ?_, rfl, hnodes⟩
  rw [Document.parse_of_events htokens hends rfl hevents hs]
  simp [Builder.finish, Builder.pushAll, Builder.empty, Builder.hoist]

/-- A greeting in a card, whose attributes have all kinds of values. -/
def greeting : List Node :=
  [.tag ⟨"ui:card", [("title", .str "\"Hi\""), ("level", .int (-2)), ("open", .bool true),
      ("theme", .null), ("for", .interpolation ⟨"user", Position.start⟩)], false, Position.start⟩
    [.comment " who - - " Position.start, .text "Dear " Position.start,
      .interpolation ⟨"user.name | join:\", \",last=x", Position.start⟩,
      .tag ⟨"br", [], true, Position.start⟩ []]]

theorem Document.parse_print_greeting :
    Node.PrintableAll IsFreeName greeting ∧ Node.openDepthAll greeting ≤ maxOpenTags ∧
      ∃ d, Document.parse (String.ofList (Node.printAll greeting)) = .ok d ∧
        d.preamble = ⟨none, none, []⟩ ∧ Node.unplacedAll d.children = Node.unplacedAll greeting := by
  have hword : ∀ w ∈ ["user", "name", "join", "last", "x"], IsFreeName w := by
    unfold IsFreeName
    decide
  have huser : (⟨.word "user", []⟩ : Spelling).Canonical IsFreeName :=
    ⟨⟨by decide, [⟨.field "user", false⟩], ⟨trivial, (hword "user" (by simp)).1, rfl⟩, by decide⟩,
      by simp, by simp, by simp⟩
  have hjoin : (⟨.word "user.name",
      [⟨"join", [⟨none, .literal (.str ", ")⟩, ⟨some "last", .word "x"⟩]⟩]⟩ : Spelling).Canonical
      IsFreeName := by
    refine ⟨⟨by decide, [⟨.field "user", false⟩, ⟨.field "name", false⟩], ?_, by decide⟩, ?_, ?_, ?_⟩
    · exact ⟨trivial, (hword "user" (by simp)).1, nofun, (hword "name" (by simp)).1, rfl⟩
    · simpa using hword "join" (by simp)
    · simpa using hword "last" (by simp)
    · simpa [Operand.IsArgument, IsLiteral] using (hword "x" (by simp)).symm
  have hcard : ∀ t content, greeting = [.tag t content] → t.Printable IsFreeName := by
    rintro t content heq
    cases heq
    refine ⟨by decide, rfl, by decide, by decide, ?_⟩
    simpa [AttrValue.Printable] using ⟨rfl, _, huser, rfl⟩
  have hbr : (⟨"br", [], true, Position.start⟩ : Tag).Printable IsFreeName :=
    ⟨by decide, rfl, by simp, by simp, by simp⟩
  have hall : Node.PrintableAll IsFreeName greeting := by
    refine ⟨⟨hcard _ _ rfl, by simp, ?_⟩, by simp [Node.isText], trivial⟩
    refine ⟨?_, by simp [Node.isText], ⟨by decide, by decide⟩, by simp [Node.isText],
      ⟨_, hjoin, .inl (by decide), by decide⟩, by simp [Node.isText], ⟨hbr, by simp, trivial⟩,
      by simp [Node.isText], trivial⟩
    intro hend
    have hbrace : '\x7d' ∈ " who - - ".toList := hend.subset (by simp)
    exact absurd hbrace (by decide)
  have hdepth : Node.openDepthAll greeting ≤ maxOpenTags := by decide
  exact ⟨hall, hdepth, Document.parse_print hall hdepth⟩

/-- A filter that has the name of a value is none: its interpolation is no template. -/
theorem Document.not_parse_print_keyword :
    ¬ ∀ nodes : List Node, Node.PrintableAll (fun name => Name.isWord name.toList = true) nodes →
      Node.openDepthAll nodes ≤ maxOpenTags →
      ∃ d, Document.parse (String.ofList (Node.printAll nodes)) = .ok d ∧
        d.preamble = ⟨none, none, []⟩ ∧ Node.unplacedAll d.children = Node.unplacedAll nodes := by
  intro hall
  let s : Spelling := ⟨.word "x", [⟨"null", []⟩]⟩
  have hword : Name.isWord "x".toList = true := by decide
  have hfilter : Name.isWord "null".toList = true := by decide
  have hcanonical : s.Canonical fun name => Name.isWord name.toList = true :=
    ⟨⟨by decide, [⟨.field "x", false⟩], ⟨trivial, hword, rfl⟩, by decide⟩,
      by simpa [s] using hfilter, by simp [s], by simp [s]⟩
  have hprintable : Node.PrintableAll (fun name => Name.isWord name.toList = true)
      [.interpolation ⟨"x | null", Position.start⟩] :=
    ⟨⟨s, hcanonical, .inr (by simp [s]), by decide⟩, by simp, trivial⟩
  obtain ⟨d, hd, -⟩ := hall _ hprintable (by decide)
  -- the word behind the pipe is read as a value, and no filter name is one
  have hparse : Document.parse "\x7bx | null\x7d" =
      .error (.structural ⟨.unexpected "filter name" "null", ⟨1, 6, 5⟩⟩) := by
    have htokens : tokenize "\x7bx | null\x7d" =
        .ok ([⟨.leftBrace, .none, ⟨1, 1, 0⟩⟩, ⟨.ident, .str "x", ⟨1, 2, 1⟩⟩,
          ⟨.pipe, .none, ⟨1, 4, 3⟩⟩, ⟨.null, .none, ⟨1, 6, 5⟩⟩, ⟨.rightBrace, .none, ⟨1, 10, 9⟩⟩] ++
            [⟨.eof, .none, ⟨1, 11, 10⟩⟩]) := by decide +kernel
    exact Document.parse_of_fault htokens (by simp) rfl (Event.all_cons_error (by cbv))
  have hprint : String.ofList (Node.printAll [.interpolation ⟨"x | null", Position.start⟩]) =
      "\x7bx | null\x7d" := by decide
  rw [hprint, hparse] at hd
  cases hd

end BraceTemplate
