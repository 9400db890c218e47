import BraceTemplate.Proofs.Parsing.Grammar
import BraceTemplate.Proofs.Printing.Spelling

/- Printed brace groups are read back. Each lemma gives the tokens of a piece of a printed
   tree and what is written in them: values, attributes, and the three kinds of brace groups.
   Positions of interpolations are those of the printed text, so what is read agrees with what
   was printed up to positions. -/
namespace BraceTemplate

open Lexer Spelling

/-! Values and attributes. -/

/-- The name of a tag or an attribute. -/
theorem lexes_freeName {p : Position} {outer : List Bool} {rest : List Char} {name : String}
    (h : Name.IsFree name) (hrest : EndsWord true rest) :
    Lexes p (false :: outer) name.toList [⟨.ident, .str name, p⟩] (false :: outer) rest :=
  WordToken.lexes (f := false) (wordToken_freeName h) hrest

theorem lexes_attrValue (p : Position) (outer : List Bool) {rest : List Char} {v : AttrValue}
    (h : v.Printable IsFreeName) (hrest : EndsWord true rest) :
    ∃ (toks : List Token) (v' : AttrValue),
      Lexes p (false :: outer) (Print.attrValue v) toks (false :: outer) rest ∧
      v'.unplaced = v.unplaced ∧ v'.Written toks := by
  cases v with
  | str s => exact ⟨_, .str s, Lexes.quoted s, rfl, .string rfl⟩
  | int n => exact ⟨_, .int n, (wordToken_int h).lexes hrest, rfl, .int rfl⟩
  | float x => exact h.elim
  | bool b =>
    obtain ⟨w, hw, hkey, hmade⟩ : ∃ w : String, Print.attrValue (.bool b) = w.toList ∧
        w ∈ keywords ∧ classify? w.toList = some (.bool, .bool b) := by
      cases b with
      | false => exact ⟨"false", rfl, by decide, rfl⟩
      | true => exact ⟨"true", rfl, by decide, rfl⟩
    rw [hw]
    exact ⟨_, .bool b, (wordToken_keyword hkey hmade).lexes hrest, rfl, .bool rfl⟩
  | null =>
    have hlex : Lexes p (false :: outer) "null".toList _ (false :: outer) rest :=
      (wordToken_keyword (by decide) rfl).lexes hrest
    exact ⟨_, .null, hlex, rfl, .null rfl⟩
  | interpolation i =>
    obtain ⟨s, hs, hraw⟩ := h
    obtain ⟨toks, hlex, htoks⟩ := hs.reads.lexes (p.through ['\x7b'])
    rw [← hraw] at hlex
    have hbrace : Lexes p (false :: outer) (Print.attrValue (.interpolation i))
        (⟨.leftBrace, .none, p⟩ :: toks) (false :: outer) rest := Lexes.mark '\x7b' rfl hlex
    refine ⟨_, .interpolation ⟨s.text, p⟩, hbrace, ?_, .interpolation (.intro rfl htoks)⟩
    simp [AttrValue.unplaced, Interpolation.unplaced, hraw]

theorem endsWord_attrs {as : List (String × AttrValue)} (self : Bool) {rest : List Char} :
    EndsWord true ((as.flatMap Print.attr ++ Print.tagEnd self) ++ rest) := by
  cases as with
  | nil => cases self <;> exact endsWord_mark (by simp)
  | cons a as => exact endsWord_mark (by simp)

/-- The end of a tag, behind its name and attributes. -/
theorem lexes_tagEnd (p : Position) (outer : List Bool) (rest : List Char) (self : Bool) :
    ∃ toks, Lexes p (false :: outer) (Print.tagEnd self) toks outer rest ∧
      toks.map Token.symbol = Tag.endSymbols self := by
  cases self with
  | false => exact ⟨_, Lexes.mark '\x7d' rfl Lexes.nil, rfl⟩
  | true => exact ⟨_, Lexes.blank (Lexes.mark '/' rfl (Lexes.mark '\x7d' rfl Lexes.nil)), rfl⟩

/-- Attributes with the end of their tag. -/
theorem lexes_attrs (p : Position) (outer : List Bool) (rest : List Char)
    {as : List (String × AttrValue)} (hnames : ∀ a ∈ as, Name.IsFree a.1)
    (hvalues : ∀ a ∈ as, a.2.Printable IsFreeName) (self : Bool) :
    ∃ toks ends as', Lexes p (false :: outer) (as.flatMap Print.attr ++ Print.tagEnd self)
        (toks ++ ends) outer rest ∧
      as'.map (fun a => (a.1, a.2.unplaced)) = as.map (fun a => (a.1, a.2.unplaced)) ∧
      Tag.WritesAttrs toks as' ∧ ends.map Token.symbol = Tag.endSymbols self := by
  induction as generalizing p with
  | nil =>
    obtain ⟨ends, hlex, hends⟩ := lexes_tagEnd p outer rest self
    exact ⟨[], ends, [], hlex, rfl, .nil, hends⟩
  | cons a as ih =>
    have hend : EndsWord true ((as.flatMap Print.attr ++ Print.tagEnd self) ++ rest) :=
      endsWord_attrs self
    let q := p.through [' ']
    obtain ⟨value, v, hlexValue, hv, hwritten⟩ := lexes_attrValue
      ((q.through a.1.toList).through ['=']) outer (hvalues a List.mem_cons_self) hend
    have hlexEqual : Lexes (q.through a.1.toList) (false :: outer) ('=' :: Print.attrValue a.2)
        (⟨.equal, .none, q.through a.1.toList⟩ :: value) (false :: outer)
        ((as.flatMap Print.attr ++ Print.tagEnd self) ++ rest) := Lexes.mark '=' rfl hlexValue
    have hlexName : Lexes q (false :: outer) a.1.toList [⟨.ident, .str a.1, q⟩] (false :: outer)
        (('=' :: Print.attrValue a.2) ++ ((as.flatMap Print.attr ++ Print.tagEnd self) ++ rest)) :=
      lexes_freeName (hnames a List.mem_cons_self) (endsWord_mark (by simp))
    have hlexAttr : Lexes p (false :: outer) (Print.attr a)
        (⟨.ident, .str a.1, q⟩ :: ⟨.equal, .none, q.through a.1.toList⟩ :: value) (false :: outer)
        ((as.flatMap Print.attr ++ Print.tagEnd self) ++ rest) :=
      Lexes.blank (hlexName.append hlexEqual)
    obtain ⟨toks, ends, as', hlex, has, hattrs, hends⟩ := ih (p.through (Print.attr a))
      (fun b hb => hnames b (List.mem_cons_of_mem a hb))
      (fun b hb => hvalues b (List.mem_cons_of_mem a hb))
    have hgiven : Tag.WritesAttrs (⟨.ident, .str a.1, q⟩ :: ⟨.equal, .none, q.through a.1.toList⟩ ::
        (value ++ toks)) ((a.1, v) :: as') := .given rfl rfl hwritten hattrs
    refine ⟨_, ends, _, ?_, by simp [hv, has], hgiven, hends⟩
    rw [List.flatMap_cons, List.append_assoc]
    simpa using hlexAttr.append hlex

/-! Brace groups. -/

/-- No comment starts behind the brace of a group. -/
def StartsGroup (text : List Char) : Prop := ∃ c tail, text = c :: tail ∧ c ≠ '!'

theorem StartsGroup.append {text : List Char} (h : StartsGroup text) (behind : List Char) :
    StartsGroup (text ++ behind) := by
  obtain ⟨c, tail, rfl, hc⟩ := h
  exact ⟨c, tail ++ behind, rfl, hc⟩

theorem StartsGroup.lexes {p : Position} {rest : List Char} {text : List Char}
    {toks : List Token} (hstart : StartsGroup text)
    (h : Lexes (p.through ['\x7b']) [false] text toks [] rest) :
    Lexes p [] ('\x7b' :: text) (⟨.leftBrace, .none, p⟩ :: toks) [] rest := by
  obtain ⟨c, tail, rfl, hc⟩ := hstart
  have hbrace : Lexes p [] ['\x7b'] [⟨.leftBrace, .none, p⟩] [false] (c :: tail ++ rest) := by
    refine Lexes.brace fun hprefix => hc ?_
    rw [List.cons_append] at hprefix
    exact (List.cons_prefix_cons.mp hprefix).1.symm
  exact hbrace.append h

theorem startsGroup_of_isWord {w : List Char} (h : Name.isWord w = true) : StartsGroup w := by
  obtain ⟨c, tail, rfl, hc, -⟩ := isWord_cases h
  exact ⟨c, tail, rfl, fun e => by simp [e, Name.isStart] at hc⟩

theorem startsGroup_of_isTag {name : String} (h : Name.isTag name = true) :
    StartsGroup name.toList := by
  rcases isTag_cases h with hw | ⟨ns, own, hname, hns, -⟩
  · exact startsGroup_of_isWord hw
  · rw [hname]
    exact (startsGroup_of_isWord hns).append _

theorem startsGroup_of_isHead {o : Operand} (h : o.IsHead) : StartsGroup o.text.toList := by
  match o, h with
  | .word w, ⟨_, ⟨.field name, safe⟩ :: segments, ⟨_, hname, _⟩, hw⟩ =>
    rw [Operand.text, hw, Path.print, Path.printStep]
    exact (startsGroup_of_isWord hname).append _
  | .literal (.str s), _ =>
    refine ⟨'"', s.toList.flatMap Json.Writer.escapeChar ++ ['"'], ?_, by decide⟩
    rw [Operand.text, literalText, String.toList_ofList]
    rfl
  | .literal (.int n), _ =>
    obtain ⟨c, tail, htext⟩ := Text.toString_cons n
    refine ⟨c, tail, htext, ?_⟩
    rintro rfl
    have hfirst : '!' ∈ (toString n).toList := by rw [htext]; exact List.mem_cons_self
    exact absurd (Text.toString_isDigit_or_minus hfirst) (by decide)
  | .literal (.bool true), _ => exact ⟨'t', _, rfl, by decide⟩
  | .literal (.bool false), _ => exact ⟨'f', _, rfl, by decide⟩
  | .literal .none, _ => exact ⟨'n', _, rfl, by decide⟩

theorem lexes_interpolation (p : Position) (rest : List Char) {i : Interpolation}
    (h : (Node.interpolation i).Printable IsFreeName) :
    ∃ t ts, Lexes p [] (Node.interpolation i).print (t :: ts) [] rest ∧
      ∀ eof more, Event.next eof t (ts ++ more) = .ok (.interpolation ⟨i.raw, p⟩, more) := by
  obtain ⟨s, hs, halone, hraw⟩ := h
  obtain ⟨ts, hlex, hts⟩ := hs.reads.lexes (p.through ['\x7b'])
  have hstart : StartsGroup (s.text.toList ++ ['\x7d']) := by
    rw [text_toList]
    exact ((startsGroup_of_isHead hs.head).append _).append _
  have hgroup := hstart.lexes hlex
  rw [← hraw] at hgroup
  have hwritten : Event.Written (⟨.leftBrace, .none, p⟩ :: ts) (.interpolation ⟨s.text, p⟩) :=
    .interpolation halone (.intro rfl hts)
  obtain ⟨t, ts', heq, hnext⟩ := hwritten.next
  obtain ⟨rfl, rfl⟩ := List.cons.inj heq
  exact ⟨_, _, hgroup, hraw ▸ hnext⟩

/-- A tag name is no path. -/
theorem isPath_of_isTag {name : String} (h : Name.isTag name = true) : Event.isPath name = false := by
  have hword : ∀ w, Name.isWord w = true → ∀ c ∈ w, c ≠ '.' ∧ c ≠ '[' ∧ c ≠ '?' := by
    intro w hw c hc
    have hpart := isPart_of_isWord hw c hc
    refine ⟨?_, ?_, ?_⟩ <;> rintro rfl <;> exact absurd hpart (by decide)
  have hchars : ∀ c ∈ name.toList, c ≠ '.' ∧ c ≠ '[' ∧ c ≠ '?' := by
    intro c hc
    rcases isTag_cases h with hw | ⟨ns, own, hname, hns, hown⟩
    · exact hword _ hw c hc
    · rw [hname, List.mem_append, List.mem_cons] at hc
      rcases hc with hc | rfl | hc
      · exact hword _ hns c hc
      · decide
      · exact hword _ hown c hc
  rw [Event.isPath, List.any_eq_false]
  intro c hc
  simpa [and_assoc] using hchars c hc

theorem lexes_opening (p : Position) (rest : List Char) {t : Tag} (h : t.Printable IsFreeName) :
    ∃ tok ts t', Lexes p [] (Print.opening t) (tok :: ts) [] rest ∧ t'.unplaced = t.unplaced ∧
      ∀ eof more, Event.next eof tok (ts ++ more) =
        .ok (if t.selfClosing then .selfClosing t' else .opening t', more) := by
  obtain ⟨name, attrs, self, pos⟩ := t
  obtain ⟨hname, -, hnames, hdistinct, hvalues⟩ := h
  let q := p.through ['\x7b']
  obtain ⟨toks, ends, as', hlex, has, hattrs, hends⟩ := lexes_attrs (q.through name.toList) [] rest
    hnames hvalues self
  have hdistinct' : Table.Distinct as' := by
    have hkeys := congrArg (List.map Prod.fst) has
    simp only [List.map_map, Function.comp_def] at hkeys
    rwa [Table.Distinct, hkeys]
  -- no name is written twice, so the table of the attributes is the list of them
  have htable : Table.lastValues as' = as' := by
    rw [← Table.ofEntries_eq_lastValues]
    exact Table.insertAll_of_distinct hdistinct'
  have hlexName : Lexes q [false] name.toList [⟨.ident, .str name, q⟩] [false]
      ((attrs.flatMap Print.attr ++ Print.tagEnd self) ++ rest) :=
    lexes_freeName hname (endsWord_attrs self)
  have hgroup := ((startsGroup_of_isTag hname.1).append _).lexes (hlexName.append hlex)
  have htag : Tag.Written (⟨.leftBrace, .none, p⟩ :: ⟨.ident, .str name, q⟩ :: (toks ++ ends))
      ⟨name, as', self, p⟩ := by
    rw [← htable]
    exact .intro rfl rfl (isPath_of_isTag hname.1) hattrs hends
  refine ⟨_, _, ⟨name, as', self, p⟩, hgroup, by simp [Tag.unplaced, has], fun eof more => ?_⟩
  exact Event.group_of_tag htag

theorem lexes_closing (p : Position) (rest : List Char) {name : String} (h : Name.IsFree name) :
    ∃ tok ts, Lexes p [] (Print.closing name) (tok :: ts) [] rest ∧
      ∀ eof more, Event.next eof tok (ts ++ more) = .ok (.closing name p, more) := by
  let q := (p.through ['\x7b']).through ['/']
  have hname : Lexes q [false] name.toList [⟨.ident, .str name, q⟩] [false] (['\x7d'] ++ rest) :=
    lexes_freeName h (endsWord_mark (by simp))
  have hstart : StartsGroup ('/' :: (name.toList ++ ['\x7d'])) := ⟨'/', _, rfl, by decide⟩
  refine ⟨_, _, hstart.lexes (Lexes.mark '/' rfl (hname.append (Lexes.mark '\x7d' rfl Lexes.nil))),
    fun eof more => rfl⟩

end BraceTemplate
