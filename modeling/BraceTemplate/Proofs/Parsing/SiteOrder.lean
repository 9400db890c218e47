import BraceTemplate.Proofs.Checking.Addresses
import BraceTemplate.Proofs.Parsing.Places

/- In which order the interpolations of a parsed document are listed. Those that an event holds come
   from the tokens of the event, so events bring theirs in the order of the source
   (`Event.Writes.sites_order`), and the sites of a document are those of its events, headers apart
   (`Builder.finish_sites`). Within one tag the names of attributes keep the places where they
   first occur, but a value is the last that is written for its name. So an attribute that is
   written again stands before those that are written in between, although its value comes behind
   them (`Tag.WrittenAs.sites_order`): only then are two sites listed the other way round
   (`Document.parse_lists_sites`). -/
namespace BraceTemplate

/-! What is written. -/

namespace Interpolation

/-- Interpolations that are written one behind the other stand in this order. -/
theorem Writes.ordered {ts : List Token} {is : List Interpolation} (h : Writes ts is)
    (hts : (ts.map Token.pos).Pairwise (·.offset < ·.offset)) :
    is.Pairwise (·.pos.offset < ·.pos.offset) := by
  have hbraces : (Token.braces ts).Pairwise (·.offset < ·.offset) :=
    hts.sublist (List.filter_sublist.map _)
  have hplaces : (Interpolation.places is).Pairwise (·.offset < ·.offset) := hbraces.sublist h.places
  rwa [Interpolation.places, List.pairwise_map] at hplaces

end Interpolation

/-- Both are values of one tag that is no header, and the attribute that `i` is the value of is
    written before the one that `j` is the value of, and again behind it. -/
def Interpolation.Overtakes (toks : List Token) (i j : Interpolation) : Prop :=
  ∃ ts t as name name' old, ts <:+: toks ∧ Tag.WrittenAs as ts t ∧ Builder.isHeader t.name = false ∧
    [(name, old), (name', .interpolation j), (name, .interpolation i)].Sublist as

/-- The first interpolation stands before the other, or its attribute does. -/
def Interpolation.Precedes (toks : List Token) (i j : Interpolation) : Prop :=
  i.pos.offset < j.pos.offset ∨ Overtakes toks i j

open Interpolation (Overtakes Precedes)

theorem Interpolation.Precedes.mono {ts toks : List Token} {i j : Interpolation} (h : Precedes ts i j)
    (hts : ts <:+: toks) : Precedes toks i j :=
  h.imp_right fun ⟨used, t, as, name, name', old, hused, h⟩ =>
    ⟨used, t, as, name, name', old, hused.trans hts, h⟩

/-- The interpolations of one tag. -/
theorem Tag.WrittenAs.sites_order {as : List (String × AttrValue)} {ts : List Token} {t : Tag}
    (h : t.WrittenAs as ts) (hheader : Builder.isHeader t.name = false)
    (hts : (ts.map Token.pos).Pairwise (·.offset < ·.offset)) :
    (attrSites t.attrs).Pairwise (Precedes ts) := by
  have hordered := h.writes.ordered hts
  rw [h.attrs, attrSites, List.pairwise_flatMap]
  refine ⟨fun a _ => ?_, (Table.pairwise_lastValues as).imp fun {e f} hef i hi j hj => ?_⟩
  · cases a.2 with
    | interpolation i => exact List.pairwise_singleton _ _
    | str | int | float | bool | null => exact List.Pairwise.nil
  · obtain ⟨name, v⟩ := e
    obtain ⟨name', w⟩ := f
    obtain rfl := Document.mem_attr_sites.mp hi
    obtain rfl := Document.mem_attr_sites.mp hj
    rcases hef with hsub | ⟨old, hsub⟩
    · have hpair : [i, j].Pairwise (·.pos.offset < ·.pos.offset) :=
        hordered.sublist (hsub.flatMap fun a => a.2.sites)
      exact .inl (List.rel_of_pairwise_cons hpair (List.mem_singleton.mpr rfl))
    · exact .inr ⟨ts, t, as, name, name', old, List.infix_rfl, h, hheader, hsub⟩

/-! Events. -/

namespace Event

theorem Written.sites_order {ts : List Token} {e : Event} (h : e.Written ts) (hheader : e.isHeader = false)
    (hts : (ts.map Token.pos).Pairwise (·.offset < ·.offset)) : e.sites.Pairwise (Precedes ts) := by
  cases h with
  | text | comment | closing => exact List.Pairwise.nil
  | interpolation halone h => exact List.pairwise_singleton _ _
  | selfClosing hself h | opening hself h =>
    obtain ⟨as, has⟩ := h.writtenAs
    exact has.sites_order hheader hts

/-- The interpolations of events, headers apart, come in the order of the source. -/
theorem Writes.sites_order {toks : List Token} {es : List Event} (h : Writes toks es)
    (htoks : (toks.map Token.pos).Pairwise (·.offset < ·.offset)) :
    ((es.filter (!·.isHeader)).flatMap Event.sites).Pairwise (Precedes toks) := by
  induction h with
  | nil => exact List.Pairwise.nil
  | @cons ts rest e es h hrest ih =>
    rw [List.map_append, List.pairwise_append] at htoks
    obtain ⟨hts, hbehind, hcross⟩ := htoks
    have hlater : ((es.filter (!·.isHeader)).flatMap Event.sites).Pairwise (Precedes (ts ++ rest)) :=
      (ih hbehind).imp fun hij => hij.mono (List.suffix_append ts rest).isInfix
    rw [List.filter_cons]
    cases hheader : e.isHeader with
    | true => exact hlater
    | false =>
      rw [Bool.not_false, if_pos rfl, List.flatMap_cons]
      have hown := (h.sites_order hheader hts).imp fun hij => hij.mono (List.prefix_append ts rest).isInfix
      refine List.pairwise_append.mpr ⟨hown, hlater, fun i hi j hj => ?_⟩
      have hmem : j ∈ es.flatMap Event.sites := (List.filter_sublist.flatMap _).subset hj
      exact .inl (hcross _ (h.sites.pos_mem hi) _ (hrest.sites.pos_mem hmem))

end Event

/-! Documents. -/

/-- No tag that is no header writes an attribute again. -/
def Token.WriteOnce (toks : List Token) : Prop :=
  ∀ ts t as, ts <:+: toks → Tag.WrittenAs as ts t → Builder.isHeader t.name = false →
    Table.Distinct as

theorem Token.WriteOnce.not_overtakes {toks : List Token} (h : WriteOnce toks) (i j : Interpolation) :
    ¬ Overtakes toks i j := by
  rintro ⟨ts, t, as, name, name', old, hts, hwritten, hheader, hsub⟩
  have hnames : [name, name', name].Nodup := (h ts t as hts hwritten hheader).sublist (hsub.map Prod.fst)
  simp at hnames

/-- The sites of a parsed document list every interpolation in it once, and in the order of the source
    but for attributes that a tag writes again: of two sites the second stands behind the first, or
    the attribute of the first does not only stand behind the second but also before it. Where no
    tag writes an attribute again the sites stand one behind the other. -/
theorem Document.parse_lists_sites {source : String} {d : Document} (h : parse source = .ok d) :
    Lists d.siteAt? d.sites ∧
      ∃ toks eof, tokenize source = .ok (toks ++ [eof]) ∧ eof.kind = .eof ∧
        d.sites.Pairwise (Precedes toks) ∧
        (Token.WriteOnce toks → d.sites.Pairwise (·.pos.offset < ·.pos.offset)) := by
  obtain ⟨toks, eof, es, b, htoks, heof, hcuts, hwritten, hbuilt, rfl⟩ := parse_writes h
  have horder := hwritten.sites_order hcuts.behind
  rw [← Builder.finish_sites hwritten hbuilt] at horder
  refine ⟨lists_sites _, toks, eof, htoks, heof, horder, fun honce => ?_⟩
  exact horder.imp fun {i j} hij => hij.resolve_right (honce.not_overtakes i j)

/-- An interpolation in a tag, and one in its content. -/
theorem Document.parse_lists_sites_nested :
    ∃ d, parse "\x7ba x=\x7bp\x7d\x7d\x7bq.r\x7d\x7b/a\x7d" = .ok d ∧ Lists d.siteAt? d.sites ∧
      ∃ toks eof, tokenize "\x7ba x=\x7bp\x7d\x7d\x7bq.r\x7d\x7b/a\x7d" = .ok (toks ++ [eof]) ∧ eof.kind = .eof ∧
        d.sites.Pairwise (Precedes toks) ∧
        (Token.WriteOnce toks → d.sites.Pairwise (·.pos.offset < ·.pos.offset)) := by
  have hp : Interpolation.Written ⟨.word "p", []⟩ [⟨.leftBrace, .none, ⟨1, 6, 5⟩⟩,
      ⟨.ident, .str "p", ⟨1, 7, 6⟩⟩, ⟨.rightBrace, .none, ⟨1, 8, 7⟩⟩] ⟨"p", ⟨1, 6, 5⟩⟩ := .intro rfl rfl
  have hq : Interpolation.Written ⟨.word "q.r", []⟩ [⟨.leftBrace, .none, ⟨1, 10, 9⟩⟩,
      ⟨.ident, .str "q.r", ⟨1, 11, 10⟩⟩, ⟨.rightBrace, .none, ⟨1, 14, 13⟩⟩] ⟨"q.r", ⟨1, 10, 9⟩⟩ := .intro rfl rfl
  have hattrs : Tag.WritesAttrs (⟨.ident, .str "x", ⟨1, 4, 3⟩⟩ :: ⟨.equal, .none, ⟨1, 5, 4⟩⟩ :: (_ ++ [])) _ :=
    .given rfl rfl (.interpolation hp) .nil
  have htag : Tag.Written (⟨.leftBrace, .none, ⟨1, 1, 0⟩⟩ :: ⟨.ident, .str "a", ⟨1, 2, 1⟩⟩ ::
      (_ ++ [⟨.rightBrace, .none, ⟨1, 9, 8⟩⟩]))
      ⟨"a", [("x", .interpolation ⟨"p", ⟨1, 6, 5⟩⟩)], false, ⟨1, 1, 0⟩⟩ :=
    .intro rfl rfl (by decide : Event.isPath "a" = false) hattrs rfl
  have hclosing : Event.Written [⟨.leftBrace, .none, ⟨1, 15, 14⟩⟩, ⟨.slash, .none, ⟨1, 16, 15⟩⟩,
      ⟨.ident, .str "a", ⟨1, 17, 16⟩⟩, ⟨.rightBrace, .none, ⟨1, 18, 17⟩⟩] (.closing "a" ⟨1, 15, 14⟩) :=
    .closing rfl rfl rfl rfl
  have halone : Spelling.StandsAlone ⟨.word "q.r", []⟩ := Or.inl (by decide)
  have hwrites : Event.Writes _ _ :=
    .cons (.opening rfl htag) (.cons (.interpolation halone hq) (.cons hclosing .nil))
  have htokens : tokenize "\x7ba x=\x7bp\x7d\x7d\x7bq.r\x7d\x7b/a\x7d" =
      .ok ([⟨.leftBrace, .none, ⟨1, 1, 0⟩⟩, ⟨.ident, .str "a", ⟨1, 2, 1⟩⟩, ⟨.ident, .str "x", ⟨1, 4, 3⟩⟩,
        ⟨.equal, .none, ⟨1, 5, 4⟩⟩, ⟨.leftBrace, .none, ⟨1, 6, 5⟩⟩, ⟨.ident, .str "p", ⟨1, 7, 6⟩⟩,
        ⟨.rightBrace, .none, ⟨1, 8, 7⟩⟩, ⟨.rightBrace, .none, ⟨1, 9, 8⟩⟩, ⟨.leftBrace, .none, ⟨1, 10, 9⟩⟩,
        ⟨.ident, .str "q.r", ⟨1, 11, 10⟩⟩, ⟨.rightBrace, .none, ⟨1, 14, 13⟩⟩, ⟨.leftBrace, .none, ⟨1, 15, 14⟩⟩,
        ⟨.slash, .none, ⟨1, 16, 15⟩⟩, ⟨.ident, .str "a", ⟨1, 17, 16⟩⟩, ⟨.rightBrace, .none, ⟨1, 18, 17⟩⟩] ++
          [⟨.eof, .none, ⟨1, 19, 18⟩⟩]) := by decide +kernel
  have hparse := parse_of_events htokens (by simp) rfl (hwrites.all _) rfl
  exact ⟨_, hparse, parse_lists_sites hparse⟩

/-- The value of `a` that is written last is listed before the value of `b`, behind which it stands. -/
theorem Document.not_parse_lists_sites_again :
    ∃ d, parse "\x7bx a=\x7bp\x7d b=\x7bq\x7d a=\x7br\x7d /\x7d" = .ok d ∧
      d.sites = [⟨"r", ⟨1, 18, 17⟩⟩, ⟨"q", ⟨1, 12, 11⟩⟩] ∧
      ¬ d.sites.Pairwise (·.pos.offset < ·.pos.offset) := by
  have hp : Interpolation.Written ⟨.word "p", []⟩ [⟨.leftBrace, .none, ⟨1, 6, 5⟩⟩,
      ⟨.ident, .str "p", ⟨1, 7, 6⟩⟩, ⟨.rightBrace, .none, ⟨1, 8, 7⟩⟩] ⟨"p", ⟨1, 6, 5⟩⟩ := .intro rfl rfl
  have hq : Interpolation.Written ⟨.word "q", []⟩ [⟨.leftBrace, .none, ⟨1, 12, 11⟩⟩,
      ⟨.ident, .str "q", ⟨1, 13, 12⟩⟩, ⟨.rightBrace, .none, ⟨1, 14, 13⟩⟩] ⟨"q", ⟨1, 12, 11⟩⟩ := .intro rfl rfl
  have hr : Interpolation.Written ⟨.word "r", []⟩ [⟨.leftBrace, .none, ⟨1, 18, 17⟩⟩,
      ⟨.ident, .str "r", ⟨1, 19, 18⟩⟩, ⟨.rightBrace, .none, ⟨1, 20, 19⟩⟩] ⟨"r", ⟨1, 18, 17⟩⟩ := .intro rfl rfl
  have hattrs : Tag.WritesAttrs (⟨.ident, .str "a", ⟨1, 4, 3⟩⟩ :: ⟨.equal, .none, ⟨1, 5, 4⟩⟩ :: (_ ++
      (⟨.ident, .str "b", ⟨1, 10, 9⟩⟩ :: ⟨.equal, .none, ⟨1, 11, 10⟩⟩ :: (_ ++
      (⟨.ident, .str "a", ⟨1, 16, 15⟩⟩ :: ⟨.equal, .none, ⟨1, 17, 16⟩⟩ :: (_ ++ [])))))) _ :=
    .given rfl rfl (.interpolation hp) (.given rfl rfl (.interpolation hq)
      (.given rfl rfl (.interpolation hr) .nil))
  have htag : Tag.Written (⟨.leftBrace, .none, ⟨1, 1, 0⟩⟩ :: ⟨.ident, .str "x", ⟨1, 2, 1⟩⟩ :: (_ ++
      [⟨.slash, .none, ⟨1, 22, 21⟩⟩, ⟨.rightBrace, .none, ⟨1, 23, 22⟩⟩])) ⟨"x",
      [("a", .interpolation ⟨"r", ⟨1, 18, 17⟩⟩), ("b", .interpolation ⟨"q", ⟨1, 12, 11⟩⟩)], true, ⟨1, 1, 0⟩⟩ :=
    .intro rfl rfl (by decide : Event.isPath "x" = false) hattrs rfl
  have hwrites : Event.Writes _ _ := .cons (.selfClosing rfl htag) .nil
  have htokens : tokenize "\x7bx a=\x7bp\x7d b=\x7bq\x7d a=\x7br\x7d /\x7d" =
      .ok ([⟨.leftBrace, .none, ⟨1, 1, 0⟩⟩, ⟨.ident, .str "x", ⟨1, 2, 1⟩⟩, ⟨.ident, .str "a", ⟨1, 4, 3⟩⟩,
        ⟨.equal, .none, ⟨1, 5, 4⟩⟩, ⟨.leftBrace, .none, ⟨1, 6, 5⟩⟩, ⟨.ident, .str "p", ⟨1, 7, 6⟩⟩,
        ⟨.rightBrace, .none, ⟨1, 8, 7⟩⟩, ⟨.ident, .str "b", ⟨1, 10, 9⟩⟩, ⟨.equal, .none, ⟨1, 11, 10⟩⟩,
        ⟨.leftBrace, .none, ⟨1, 12, 11⟩⟩, ⟨.ident, .str "q", ⟨1, 13, 12⟩⟩, ⟨.rightBrace, .none, ⟨1, 14, 13⟩⟩,
        ⟨.ident, .str "a", ⟨1, 16, 15⟩⟩, ⟨.equal, .none, ⟨1, 17, 16⟩⟩, ⟨.leftBrace, .none, ⟨1, 18, 17⟩⟩,
        ⟨.ident, .str "r", ⟨1, 19, 18⟩⟩, ⟨.rightBrace, .none, ⟨1, 20, 19⟩⟩, ⟨.slash, .none, ⟨1, 22, 21⟩⟩,
        ⟨.rightBrace, .none, ⟨1, 23, 22⟩⟩] ++ [⟨.eof, .none, ⟨1, 24, 23⟩⟩]) := by decide +kernel
  have hparse := parse_of_events htokens (by simp) rfl (hwrites.all _) rfl
  exact ⟨_, hparse, rfl, by decide⟩

end BraceTemplate
