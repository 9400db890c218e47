import BraceTemplate.Proofs.Parsing.Headers

/- What documents declare. Where the headers of events fit and the other events balance, there is
   a header exactly when a tag of its name is written, and it says what the attributes of that tag
   say (`Event.HeadersFit.declares`). So a document has the headers that its source declares, before
   them nothing but comments and blanks, and a source is refused for a header only when that header
   does not fit (`Document.parse_headers`). -/
namespace BraceTemplate

open Event (HeaderFits HeadersFit named? opened Balanced)

/-! Declarations. -/

/-- The items of an attribute: its text is cut at commas, the pieces are trimmed, and the empty ones
    are left out. -/
def Tag.items (t : Tag) (name : String) : List String :=
  (((t.attr? name).elim [] fun v => (Text.splitOn ',' v.plainText.toList).map Text.trim).filter
    (!·.isEmpty)).map String.ofList

/-- The header says what the attributes of the tag say. -/
structure CmsHeader.DeclaredBy (h : CmsHeader) (t : Tag) : Prop where
  cmsType : h.cmsType = (t.attr? "type").map AttrValue.plainText
  set : h.set = t.items "set"
  pos : h.pos = t.pos

/-- The header says what the attributes of the tag say. -/
structure PlatformHeader.DeclaredBy (h : PlatformHeader) (t : Tag) : Prop where
  platformType : h.platformType = (t.attr? "type").map AttrValue.plainText
  targets : h.targets = t.items "targets"
  version : h.version = (t.attr? "version").map AttrValue.plainText
  pos : h.pos = t.pos

theorem Builder.listAttr_eq_items (t : Tag) (name : String) : listAttr t name = t.items name := by
  unfold listAttr Tag.items Text.commaList
  cases t.attr? name with
  | none => rfl
  | some v => rfl

namespace Event
variable {es before after : List Event} {e : Event} {t : Tag} {name : String}

/-- There is a header exactly when a tag of its name is written. Then there is one such tag, which
    closes itself and stands outside all others, and the header is what that tag declares. -/
structure Declares {α : Type} (name : String) (declaredBy : α → Tag → Prop) (es : List Event)
    (header : Option α) : Prop where
  present : header.isSome = true ↔ ∃ e ∈ es, e.bears name = true
  single : ∀ h ∈ header, ∃ before t after, es = before ++ .selfClosing t :: after ∧ t.name = name ∧
    t.selfClosing = true ∧ opened before = [] ∧ (∀ e ∈ before ++ after, e.bears name = false) ∧
    declaredBy h t

/-- The tags that are open were opened. -/
theorem mem_opened (h : name ∈ opened es) : ∃ t, .opening t ∈ es ∧ t.name = name := by
  induction es using List.reverseRecOn with
  | nil => cases h
  | append_singleton es e ih =>
    have hbefore : name ∈ opened es → ∃ t, .opening t ∈ es ++ [e] ∧ t.name = name := by
      intro hmem
      obtain ⟨t, ht, hname⟩ := ih hmem
      exact ⟨t, List.mem_append_left _ ht, hname⟩
    rw [opened_append_singleton] at h
    cases e with
    | opening t =>
      rcases List.mem_cons.mp h with rfl | h
      · exact ⟨t, by simp, rfl⟩
      · exact hbefore h
    | closing => exact hbefore (List.mem_of_mem_tail h)
    | text | comment | interpolation | selfClosing => exact hbefore h

/-- Where no tag is opened, none is open. -/
theorem opened_eq_nil (h : ∀ t, .opening t ∉ es) : opened es = [] := by
  apply List.eq_nil_iff_forall_not_mem.mpr
  intro name hname
  obtain ⟨t, ht, -⟩ := mem_opened hname
  exact h t ht

/-- Where the others balance, no closing tag has the name of a header. -/
theorem Balanced.closing_not_header {pos : Position} (h : Balanced (es.filter (!·.isHeader)))
    (hmem : .closing name pos ∈ es) : Builder.isHeader name = false := by
  have hothers : .closing name pos ∈ es.filter (!·.isHeader) := List.mem_filter.mpr ⟨hmem, rfl⟩
  obtain ⟨before, after, hsplit⟩ := List.append_of_mem hothers
  have hfront : before ++ [.closing name pos] <+: es.filter (!·.isHeader) :=
    ⟨after, by rw [hsplit, List.append_assoc, List.singleton_append]⟩
  -- it closes a tag that was opened before, which is no header
  obtain ⟨t, ht, rfl⟩ := mem_opened (List.mem_of_mem_head? (h.closes before name pos hfront))
  have hopening := (List.prefix_append _ _ |>.trans hfront).subset ht
  simpa [isHeader] using (List.mem_filter.mp hopening).2

theorem bears_eq_false (hclosing : ∀ pos, e ≠ .closing name pos)
    (htag : ∀ t, e.tag? = some t → t.name ≠ name) : e.bears name = false := by
  cases e with
  | closing n pos =>
    have hne : n ≠ name := fun heq => hclosing pos (heq ▸ rfl)
    simp [bears, hne]
  | selfClosing t | opening t => simp [bears, tag?, htag t rfl]
  | text | comment | interpolation => rfl

/-- Before a header that fits no tag is opened. -/
theorem HeaderFits.opened_eq_nil (h : HeaderFits before t) (hfit : HeadersFit before)
    (hconsistent : ∀ e ∈ before, e.Consistent) : opened before = [] := by
  apply Event.opened_eq_nil
  intro u hu
  cases hheader : Builder.isHeader u.name with
  | false =>
    have hcontent := h.first _ hu
    simp [isContent, isHeader, hheader] at hcontent
  | true =>
    obtain ⟨earlier, later, rfl⟩ := List.append_of_mem hu
    have hclosed := (hfit earlier (.opening u) u ⟨later, by simp⟩ rfl hheader).closed
    have hopening : u.selfClosing = false := hconsistent _ hu
    rw [hclosed] at hopening
    cases hopening

/-- The header of a name, where headers fit and the others balance. -/
theorem HeadersFit.declares {α : Type} {read : Tag → α} {declaredBy : α → Tag → Prop}
    (hfit : HeadersFit es) (hbalanced : Balanced (es.filter (!·.isHeader)))
    (hconsistent : ∀ e ∈ es, e.Consistent) (hheader : Builder.isHeader name = true)
    (hread : ∀ t, declaredBy (read t) t) :
    Declares name declaredBy es ((named? name es).map read) := by
  have hclosing : ∀ e ∈ es, ∀ pos, e ≠ .closing name pos := by
    rintro _ he pos rfl
    rw [hbalanced.closing_not_header he] at hheader
    cases hheader
  cases hnamed : named? name es with
  | none =>
    have hnone := named?_eq_none.mp hnamed
    refine ⟨⟨fun h => (by cases h), ?_⟩, fun h hmem => (by cases hmem)⟩
    rintro ⟨e, he, hbears⟩
    rw [bears_eq_false (hclosing e he) (hnone e he)] at hbears
    cases hbears
  | some t =>
    obtain ⟨e, he, ht⟩ := List.mem_filterMap.mp (List.mem_of_find?_eq_some hnamed)
    have hname : t.name = name := by simpa using List.find?_some hnamed
    obtain ⟨before, after, rfl⟩ := List.append_of_mem he
    have hfits : HeaderFits before t := hfit before e t ⟨after, by simp⟩ ht (hname ▸ hheader)
    obtain rfl : e = .selfClosing t := by
      cases e with
      | selfClosing u => rw [Option.some.inj ht]
      | opening u =>
        obtain rfl := Option.some.inj ht
        have hopening : u.selfClosing = false := hconsistent _ he
        rw [hfits.closed] at hopening
        cases hopening
      | text | comment | interpolation | closing => cases ht
    have hothers : ∀ e ∈ before ++ after, e.bears name = false := by
      intro e' he'
      refine bears_eq_false (hclosing e' ?_) fun u hu => ?_
      · rcases List.mem_append.mp he' with he' | he' <;> simp [he']
      rcases List.mem_append.mp he' with he' | he'
      · exact hname ▸ hfits.single e' he' u hu
      · -- a later one of the name would not fit
        rintro rfl
        obtain ⟨earlier, later, rfl⟩ := List.append_of_mem he'
        have hlater := hfit (before ++ .selfClosing t :: earlier) e' u ⟨later, by simp⟩ hu hheader
        exact hlater.single (.selfClosing t) (by simp) t rfl hname
    refine ⟨⟨fun _ => ⟨.selfClosing t, he, by simp [bears, tag?, hname]⟩, fun _ => rfl⟩, ?_⟩
    rintro h hmem
    cases hmem
    refine ⟨before, t, after, rfl, hname, hfits.closed, ?_, hothers, hread t⟩
    refine hfits.opened_eq_nil ?_ fun e' he' => hconsistent e' (List.mem_append_left _ he')
    intro earlier e' u hfront
    exact hfit earlier e' u (hfront.trans (List.prefix_append _ _))

end Event

/-! Documents. -/

/-- A comment, or a text of blanks. -/
def Node.IsBlank : Node → Prop
  | .comment _ _ => True
  | .text value _ => ∀ c ∈ value.toList, Text.isWhitespace c = true
  | _ => False

namespace Event
variable {e : Event} {n : Node} {es : List Event}

theorem Gives.pos_eq (h : e.Gives n) : n.pos = e.pos := by
  cases h <;> rfl

theorem Gives.isBlank (h : e.Gives n) (hheader : e.isHeader = false) (hcontent : e.isContent = false) :
    n.IsBlank := by
  cases h with
  | text value pos =>
    rw [isContent, Bool.not_eq_eq_eq_not, Bool.not_false, Builder.isBlank, List.all_eq_true] at hcontent
    exact hcontent
  | comment => trivial
  | interpolation => cases hcontent
  | selfClosing | opening => simp [isContent, hheader] at hcontent

/-- What gives a node before a header that fits gives a comment or blanks. -/
theorem isBlank_before {before after : List Event} {t : Tag}
    (hplaces : ((before ++ .selfClosing t :: after).map pos).Pairwise (·.offset < ·.offset))
    (hfits : HeaderFits before t) (he : e ∈ before ++ .selfClosing t :: after)
    (hheader : e.isHeader = false) (hgives : e.Gives n) (hbefore : n.pos.offset < t.pos.offset) :
    n.IsBlank := by
  rw [hgives.pos_eq] at hbefore
  rw [List.map_append, List.map_cons, List.pairwise_append, List.pairwise_cons] at hplaces
  rcases List.mem_append.mp he with he | he
  · exact hgives.isBlank hheader (hfits.first e he)
  rcases List.mem_cons.mp he with rfl | he
  · exact absurd hbefore (Nat.lt_irrefl _)
  · have hbehind : t.pos.offset < e.pos.offset := hplaces.2.1.1 _ (List.mem_map_of_mem he)
    omega

/-- As far as events can be read they are written. -/
theorem writes_front {eof : Token} {ts : List Token} (hsound : ∀ t ∈ ts, t.symbol.Sound) :
    ∃ used, used <+: ts ∧ Writes used (all eof ts).1 := by
  fun_induction all eof ts with
  | case1 => exact ⟨[], List.nil_prefix, .nil⟩
  | case2 => exact ⟨[], List.nil_prefix, .nil⟩
  | case3 t rest e r hnext events failure hall ih =>
    obtain ⟨used, rfl, he⟩ := written_of_next (hsound t List.mem_cons_self)
      (fun u hu => hsound u (List.mem_cons_of_mem t hu)) hnext
    obtain ⟨more, hmore, hwrites⟩ := ih fun u hu => hsound u (by simp [hu])
    rw [hall] at hwrites
    refine ⟨t :: (used ++ more), ?_, .cons he hwrites⟩
    exact (List.prefix_cons_inj t).mpr ((List.prefix_append_right_inj used).mpr hmore)

end Event

/-- The nodes of a document come from events that are no headers. -/
theorem Builder.finish_gives {es : List Event} {b : Builder} {n : Node} (h : empty.addAll es = .ok b)
    (hn : n ∈ b.finish.nodes) : ∃ e ∈ es, e.isHeader = false ∧ e.Gives n := by
  obtain ⟨c, hc, rfl⟩ := Outcome.map_eq_ok.mp (addAll_of_fit (fit_of_addAll h) ▸ h)
  obtain ⟨e, he, hgives⟩ := (builtFrom hc).finish n (Document.mem_nodes.mp hn)
  obtain ⟨he, hheader⟩ := List.mem_filter.mp he
  exact ⟨e, he, by simpa using hheader, hgives⟩

namespace Document
variable {source : String}

/-- A fault of a header is that of one that does not fit, among the events that can be read. -/
theorem header_fault {err : ParseError} (h : parse source = .error (.structural err))
    (hfault : err.fault.concernsHeader = true) :
    ∃ toks eof used before e after t, tokenize source = .ok (toks ++ [eof]) ∧ used <+: toks ∧
      Event.Writes used (before ++ e :: after) ∧ e.tag? = some t ∧ Builder.isHeader t.name = true ∧
      err.pos = t.pos ∧ ¬ HeaderFits before t := by
  unfold parse at h
  split at h
  · cases h
  rename_i all htoks
  obtain ⟨toks, rfl, hcuts⟩ := Lexer.tokenize_cuts htoks
  rw [ofTokens_append hcuts.ne_eof rfl] at h
  split at h
  · rename_i f hparse
    cases h
    split at hparse
    · rename_i f hadds
      cases hparse
      obtain ⟨before, e, after, b, hsplit, hbuilt, hadd⟩ := Builder.addAll_error_iff.mp hadds
      obtain ⟨t, ht, hheader, hpos⟩ := Builder.add_header_fault hadd hfault
      obtain ⟨used, hused, hwrites⟩ := Event.writes_front hcuts.sound
      rw [hsplit] at hwrites
      refine ⟨toks, _, used, before, e, after, t, htoks, hused, hwrites, ht, hheader, hpos, ?_⟩
      intro hfits
      obtain ⟨b', hb'⟩ :=
        Builder.add_of_fits hbuilt (Builder.fit_of_addAll hbuilt) hfits ht hheader
      rw [hadd] at hb'
      cases hb'
    · split at hparse
      · rename_i f hread
        cases hparse
        have hlacks := Event.fault_in_group hcuts.sound hcuts.nested hread
        cases hlacks
        cases hfault
      · cases hparse
  · cases h

/-- Headers are taken out of a document: no tag of it has the name of one, the document has a header
    exactly when one such tag is written, which is where it may be, and before a header there are
    only comments and blanks. A source of tags has a document exactly when its headers fit and the
    other tags balance; and whatever the source, the fault of a header is that it does not fit. -/
theorem parse_headers (source : String) :
    (∀ d, parse source = .ok d → ∃ toks eof es, tokenize source = .ok (toks ++ [eof]) ∧
      (∀ es', Event.Writes toks es' ↔ es' = es) ∧
      (∀ t ∈ d.tags, t.name ≠ cmsHeaderName ∧ t.name ≠ platformHeaderName) ∧
      Event.Declares cmsHeaderName CmsHeader.DeclaredBy es d.preamble.cms ∧
      Event.Declares platformHeaderName PlatformHeader.DeclaredBy es d.preamble.platform ∧
      ∀ p, (∃ h ∈ d.preamble.cms, h.pos = p) ∨ (∃ h ∈ d.preamble.platform, h.pos = p) →
        ∀ n ∈ d.nodes, n.pos.offset < p.offset → n.IsBlank) ∧
    (∀ toks eof es, tokenize source = .ok (toks ++ [eof]) → Event.Writes toks es →
      ((∃ d, parse source = .ok d) ↔ Balanced (es.filter (!·.isHeader)) ∧ HeadersFit es)) ∧
    ∀ err, parse source = .error (.structural err) → err.fault.concernsHeader = true →
      ∃ toks eof used before e after t, tokenize source = .ok (toks ++ [eof]) ∧ used <+: toks ∧
        Event.Writes used (before ++ e :: after) ∧ e.tag? = some t ∧
        Builder.isHeader t.name = true ∧ err.pos = t.pos ∧ ¬ HeaderFits before t := by
  refine ⟨fun d hd => ?_, fun toks eof es htoks hwrites => ?_, fun err => header_fault⟩
  · obtain ⟨toks, eof, es, b, htoks, -, hcuts, hwrites, hbuilt, rfl⟩ := parse_writes hd
    obtain ⟨hbalanced, hfit⟩ := Builder.addAll_ok_iff_fit.mp ⟨b, hbuilt⟩
    obtain ⟨c, -, hdeclaring⟩ := Outcome.map_eq_ok.mp (Builder.addAll_of_fit hfit ▸ hbuilt)
    have hcms : Event.Declares cmsHeaderName CmsHeader.DeclaredBy es b.finish.preamble.cms := by
      rw [← hdeclaring]
      refine hfit.declares hbalanced hwrites.consistent rfl fun t => ⟨rfl, ?_, rfl⟩
      exact Builder.listAttr_eq_items t "set"
    have hplatform :
        Event.Declares platformHeaderName PlatformHeader.DeclaredBy es b.finish.preamble.platform := by
      rw [← hdeclaring]
      refine hfit.declares hbalanced hwrites.consistent rfl fun t => ⟨rfl, ?_, rfl, rfl⟩
      exact Builder.listAttr_eq_items t "targets"
    have hplaces : (es.map Event.pos).Pairwise (·.offset < ·.offset) :=
      hcuts.behind.sublist hwrites.starts
    refine ⟨toks, eof, es, htoks, fun es' => ?_, fun t ht => ?_, hcms, hplatform,
      fun p hp n hn hbefore => ?_⟩
    · rw [Event.writes_iff hcuts.sound, hwrites.all eof, Prod.mk.injEq, and_iff_left rfl, eq_comm]
    · obtain ⟨n, hn, htag⟩ := List.mem_filterMap.mp ht
      obtain ⟨e, -, hheader, hgives⟩ := Builder.finish_gives hbuilt hn
      have hname : Builder.isHeader t.name = false := by
        cases hgives <;> cases htag <;> exact hheader
      simpa [Builder.isHeader] using hname
    · obtain ⟨before, t, after, rfl, hname, hpos⟩ : ∃ before t after,
          es = before ++ .selfClosing t :: after ∧ Builder.isHeader t.name = true ∧ t.pos = p := by
        rcases hp with ⟨h, hh, rfl⟩ | ⟨h, hh, rfl⟩
        · obtain ⟨before, t, after, hsplit, hname, -, -, -, hdeclared⟩ := hcms.single h hh
          exact ⟨before, t, after, hsplit, hname ▸ rfl, hdeclared.pos.symm⟩
        · obtain ⟨before, t, after, hsplit, hname, -, -, -, hdeclared⟩ := hplatform.single h hh
          exact ⟨before, t, after, hsplit, hname ▸ rfl, hdeclared.pos.symm⟩
      obtain ⟨e, he, hheader, hgives⟩ := Builder.finish_gives hbuilt hn
      have hfits : HeaderFits before t := hfit before (.selfClosing t) t ⟨after, by simp⟩ rfl hname
      exact Event.isBlank_before hplaces hfits he hheader hgives (hpos ▸ hbefore)
  · rw [← Builder.addAll_ok_iff_fit, parse_of_writes htoks hwrites]
    cases Builder.empty.addAll es with
    | ok b => exact iff_of_true ⟨_, rfl⟩ ⟨b, rfl⟩
    | error f => simp

/-- Both headers behind a comment, with a line end between them and a tag behind them. -/
theorem parse_headers_both :
    ∃ d, parse "\x7b!--c--\x7d\x7bikb_cms set=\"a, ,b\" /\x7d\n\x7bikb_platform /\x7d\x7bx/\x7d" = .ok d ∧
      d.preamble.cms = some ⟨none, ["a", "b"], ⟨1, 9, 8⟩⟩ ∧
      ∃ toks eof es, tokenize "\x7b!--c--\x7d\x7bikb_cms set=\"a, ,b\" /\x7d\n\x7bikb_platform /\x7d\x7bx/\x7d" =
          .ok (toks ++ [eof]) ∧ (∀ es', Event.Writes toks es' ↔ es' = es) ∧
        (∀ t ∈ d.tags, t.name ≠ cmsHeaderName ∧ t.name ≠ platformHeaderName) ∧
        Event.Declares cmsHeaderName CmsHeader.DeclaredBy es d.preamble.cms ∧
        Event.Declares platformHeaderName PlatformHeader.DeclaredBy es d.preamble.platform ∧
        ∀ p, (∃ h ∈ d.preamble.cms, h.pos = p) ∨ (∃ h ∈ d.preamble.platform, h.pos = p) →
          ∀ n ∈ d.nodes, n.pos.offset < p.offset → n.IsBlank := by
  have htokens : tokenize "\x7b!--c--\x7d\x7bikb_cms set=\"a, ,b\" /\x7d\n\x7bikb_platform /\x7d\x7bx/\x7d" =
      .ok ([⟨.comment, .str "c", ⟨1, 1, 0⟩⟩, ⟨.leftBrace, .none, ⟨1, 9, 8⟩⟩,
        ⟨.ident, .str "ikb_cms", ⟨1, 10, 9⟩⟩, ⟨.ident, .str "set", ⟨1, 18, 17⟩⟩,
        ⟨.equal, .none, ⟨1, 21, 20⟩⟩, ⟨.string, .str "a, ,b", ⟨1, 22, 21⟩⟩,
        ⟨.slash, .none, ⟨1, 30, 29⟩⟩, ⟨.rightBrace, .none, ⟨1, 31, 30⟩⟩,
        ⟨.text, .str "\n", ⟨1, 32, 31⟩⟩, ⟨.leftBrace, .none, ⟨2, 1, 32⟩⟩,
        ⟨.ident, .str "ikb_platform", ⟨2, 2, 33⟩⟩, ⟨.slash, .none, ⟨2, 15, 46⟩⟩,
        ⟨.rightBrace, .none, ⟨2, 16, 47⟩⟩, ⟨.leftBrace, .none, ⟨2, 17, 48⟩⟩,
        ⟨.ident, .str "x", ⟨2, 18, 49⟩⟩, ⟨.slash, .none, ⟨2, 19, 50⟩⟩,
        ⟨.rightBrace, .none, ⟨2, 20, 51⟩⟩] ++ [⟨.eof, .none, ⟨2, 21, 52⟩⟩]) := by decide +kernel
  have hparse := parse_of_events htokens (by simp) rfl (by decide +kernel : _ =
    ([.comment "c" ⟨1, 1, 0⟩, .selfClosing ⟨"ikb_cms", [("set", .str "a, ,b")], true, ⟨1, 9, 8⟩⟩,
      .text "\n" ⟨1, 32, 31⟩, .selfClosing ⟨"ikb_platform", [], true, ⟨2, 1, 32⟩⟩,
      .selfClosing ⟨"x", [], true, ⟨2, 17, 48⟩⟩], none)) rfl
  exact ⟨_, hparse, by decide +kernel, (parse_headers _).1 _ hparse⟩

end Document
end BraceTemplate
