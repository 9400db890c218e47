import Mathlib.Data.List.Basic
import BraceTemplate.Formats.Standard
import BraceTemplate.Proofs.Checking.Escaping
import BraceTemplate.Proofs.Lexing.Tiles
import BraceTemplate.Proofs.Lines
import BraceTemplate.Proofs.Parsing.Grammar

/- The findings of a compilation point at the source. Every finding is about a tag, a header or an
   interpolation of the document, and stands at its place (`Rules.finding_places`); each of these
   places is that of an opening brace among the tokens (`Builder.places_braces`), which is an
   opening brace of the source (`Lexer.Cuts.brace`). So a finding gives line, column and offset of
   a brace and shows the line around it, and nothing but that line tells the compilation of a
   source from that of its document (`Rules.compile_located`). -/
namespace BraceTemplate

/-! Places of findings. -/

/-- The places of the tags, headers and interpolations of a document. -/
def Document.places (d : Document) : List Position :=
  d.tags.map Tag.pos ++ d.preamble.cms.toList.map CmsHeader.pos ++
    d.preamble.platform.toList.map PlatformHeader.pos ++ d.sites.map Interpolation.pos

theorem Findings.Among.bare {codes : List Code} {ds : List Diagnostic} (h : Among codes ds) :
    ∀ f ∈ ds, f.snippet = none := by
  intro f hf
  obtain ⟨c, -, hreports⟩ := h f hf
  exact hreports.bare

/-- The finding stands at one of the places. -/
def Diagnostic.StandsAt (places : List Position) (f : Diagnostic) : Prop := ∃ p ∈ places, f.pos = some p

theorem Findings.standsAt_located {places : List Position} {p : Position} (hp : p ∈ places)
    (ds : List Diagnostic) : ∀ f ∈ ds.map (·.located p), f.StandsAt places := by
  intro f hf
  obtain ⟨g, -, rfl⟩ := List.mem_map.mp hf
  exact ⟨p, hp, rfl⟩

namespace Rules
variable [Formats] (rules : Rules) (d : Document)

open List (forall_mem_append forall_mem_flatMap)
open Findings (standsAt_located)

theorem checkSite_bare (i : Interpolation) : ∀ f ∈ rules.checkSite i.reading, f.snippet = none := by
  intro f hf
  obtain ⟨g, hg, rfl⟩ := List.mem_map.mp hf
  show g.snippet = none
  split at hg
  · rw [List.mem_singleton.mp hg]
    rfl
  · rename_i e _
    rcases List.mem_append.mp hg with hchain | hescaping
    · exact (rules.checkChain_among e).bare g hchain
    · exact (rules.checkEscaping_among i.raw e).bare g hescaping

/-- No check shows a line. -/
theorem findings_bare : ∀ f ∈ rules.allFindings d, f.snippet = none := by
  have hnames : Findings.Among nameCodes d.checkNames := .flatMap fun t _ => t.checkNames_among
  have huses : Findings.Among useCodes (d.nodes.flatMap (Node.checkUse rules.registry rules.platform)) :=
    .flatMap fun n _ => n.checkUse_among rules.registry rules.platform
  rw [allFindings, findings, List.flatMap_map]
  simp only [forall_mem_append, forall_mem_flatMap]
  exact ⟨⟨⟨hnames.bare, (rules.checkHeaders_among d.preamble).bare⟩, forall_mem_flatMap.mp huses.bare⟩,
    fun i _ => rules.checkSite_bare i⟩

/-- Every finding stands at the place of what it is about. -/
theorem finding_places : ∀ f ∈ rules.allFindings d, f.StandsAt d.places := by
  have hplace : ∀ {p}, (p ∈ d.tags.map Tag.pos ∨ p ∈ d.preamble.cms.toList.map CmsHeader.pos) ∨
      p ∈ d.preamble.platform.toList.map PlatformHeader.pos ∨ p ∈ d.sites.map Interpolation.pos →
      p ∈ d.places := by
    intro p hp
    simpa only [Document.places, List.mem_append, or_assoc] using hp
  rw [allFindings, findings, checkHeaders, Document.checkNames, List.flatMap_map]
  simp only [forall_mem_append, forall_mem_flatMap]
  refine ⟨⟨⟨fun t ht => ?_, fun h hh => ?_, fun h hh => ?_⟩, fun n hn => ?_⟩, fun i hi f hf => ?_⟩
  · exact standsAt_located (hplace (.inl (.inl (List.mem_map_of_mem ht)))) _
  · exact standsAt_located (hplace (.inl (.inr (List.mem_map_of_mem hh)))) _
  · exact standsAt_located (hplace (.inr (.inl (List.mem_map_of_mem hh)))) _
  · cases n with
    | tag t content =>
      have ht : t ∈ d.tags := List.mem_filterMap.mpr ⟨_, hn, rfl⟩
      exact standsAt_located (hplace (.inl (.inl (List.mem_map_of_mem ht)))) _
    | document | text | comment | interpolation => exact fun f hf => absurd hf List.not_mem_nil
  · exact ⟨i.pos, hplace (.inr (.inr (List.mem_map_of_mem hi))), rules.checkSite_pos hf⟩

end Rules

/-! Opening braces. -/

/-- The tag of an event stands at an opening brace. -/
theorem Event.Writes.tag_brace {ts : List Token} {es : List Event} (h : Writes ts es) {t : Tag}
    (ht : .selfClosing t ∈ es ∨ .opening t ∈ es) : t.pos ∈ Token.braces ts := by
  obtain ⟨before, used, after, rfl, hwritten⟩ :
      ∃ before used after, ts = before ++ (used ++ after) ∧ t.Written used := by
    rcases ht with ht | ht
    · obtain ⟨before, used, after, hts, hevent⟩ := h.split ht
      cases hevent with
      | selfClosing hself hwritten => exact ⟨before, used, after, hts, hwritten⟩
    · obtain ⟨before, used, after, hts, hevent⟩ := h.split ht
      cases hevent with
      | opening hself hwritten => exact ⟨before, used, after, hts, hwritten⟩
  obtain ⟨hbrace, -, -, -, -⟩ := hwritten
  exact Token.mem_braces.mpr ⟨_, by simp, (Prod.mk.inj hbrace).1, rfl⟩

/-- The tags, headers and interpolations of a document stand at opening braces of its tokens. -/
theorem Builder.places_braces {toks : List Token} {es : List Event} {b : Builder}
    (hwritten : Event.Writes toks es) (hbuilt : empty.addAll es = .ok b) :
    ∀ p ∈ b.finish.places, p ∈ Token.braces toks := by
  have hfrom := builtFrom hbuilt
  simp only [Document.places, List.forall_mem_append, List.forall_mem_map]
  refine ⟨⟨⟨fun t ht => ?_, fun header hh => ?_⟩, fun header hh => ?_⟩, fun i hi => ?_⟩
  · obtain ⟨n, hn, htag⟩ := List.mem_filterMap.mp ht
    obtain ⟨e, he, hgives⟩ := hfrom.finish n (Document.mem_nodes.mp hn)
    cases hgives <;> cases htag
    · exact hwritten.tag_brace (.inl he)
    · exact hwritten.tag_brace (.inr he)
  · obtain ⟨t, ht, rfl⟩ := hfrom.cms header (Option.mem_toList.mp hh)
    exact hwritten.tag_brace ht
  · obtain ⟨t, ht, rfl⟩ := hfrom.platform header (Option.mem_toList.mp hh)
    exact hwritten.tag_brace ht
  · exact (finish_comeFrom hwritten hbuilt).places.subset (List.mem_map_of_mem hi)

/-- An opening brace among the tokens is one of the text. -/
theorem Lexer.Cuts.brace {p q : Position} {b : List Bool} {text : List Char} {toks : List Token}
    (h : Cuts p b text toks) (hq : q ∈ Token.braces toks) :
    ∃ before after, text = before ++ '\x7b' :: after ∧ q = p.through before := by
  obtain ⟨t, ht, hkind, rfl⟩ := Token.mem_braces.mp hq
  obtain ⟨before, w, after, b₁, b₂, rfl, hpos, hlexeme⟩ := h.place ht
  have hw : w = ['\x7b'] := by
    have hspelled := hlexeme.spelled
    rwa [Token.symbol_of_mark (h.sound t ht) hkind (by decide)] at hspelled
  exact ⟨before, after, by rw [hw]; rfl, hpos⟩

/-! Compilations. -/

namespace Findings

theorem inOrder_trans (a b c : Diagnostic) (h : inOrder a b = true) (h' : inOrder b c = true) :
    inOrder a c = true := by
  unfold inOrder at h h' ⊢
  cases ha : a.pos <;> cases hb : b.pos <;> cases hc : c.pos <;> simp_all
  exact Nat.le_trans h h'

theorem inOrder_total (a b : Diagnostic) : (inOrder a b || inOrder b a) = true := by
  unfold inOrder
  cases a.pos <;> cases b.pos <;> simp
  omega

theorem sorted_inOrder (ds : List Diagnostic) : (sorted ds).Pairwise (inOrder · ·) :=
  List.pairwise_mergeSort inOrder_trans inOrder_total ds

/-- Each finding has an offset that is not above that of a later one. -/
def Ascending (ds : List Diagnostic) : Prop :=
  ds.Pairwise fun f g => ∃ p q, f.pos = some p ∧ g.pos = some q ∧ p.offset ≤ q.offset

end Findings

namespace Diagnostic

/-- The finding without the line that it shows. -/
def bare (f : Diagnostic) : Diagnostic := { f with snippet := none }

/-- The finding gives line, column and offset of an opening brace of the source, and shows the
    line around it without the blanks at its ends. -/
def PointsInto (source : String) (f : Diagnostic) : Prop :=
  ∃ before after, source.toList = before ++ '\x7b' :: after ∧
    f.pos = some ⟨1 + before.count '\n', 1 + (Text.lastLine before).length, byteLength before⟩ ∧
    Text.trim (Text.lineAround before ('\x7b' :: after)) ≠ [] ∧
    f.snippet = some (String.ofList (Text.trim (Text.lineAround before ('\x7b' :: after))))

theorem bare_fillSnippet {f : Diagnostic} (h : f.snippet = none) (lines : List (List Char)) :
    (f.fillSnippet lines).bare = f := by
  obtain ⟨severity, code, message, kind, name, pos, snippet⟩ := f
  obtain rfl : snippet = none := h
  cases pos <;> rfl

/-- The line of a brace is found by its number. -/
theorem pointsInto_fillSnippet {source : String} {f : Diagnostic} {before after : List Char}
    (hsource : source.toList = before ++ '\x7b' :: after)
    (hpos : f.pos = some (Position.start.through before)) (hbare : f.snippet = none) :
    (f.fillSnippet (Text.lines source.toList)).PointsInto source := by
  have hbrace : Text.firstLine ('\x7b' :: after) ≠ [] := by simp [Text.firstLine]
  obtain ⟨line, hline, htrim⟩ := Text.lines_around before hbrace
  have hmem : '\x7b' ∈ Text.trim (Text.lineAround before ('\x7b' :: after)) := by
    refine Text.mem_trim (by decide) ?_
    simp [Text.lineAround, Text.firstLine]
  have hne := List.ne_nil_of_mem hmem
  rw [Position.start_through] at hpos
  refine ⟨before, after, hsource, ?_, hne, ?_⟩
  · rw [(f.fillSnippet_keeps _).2.2, hpos]
  · have hfill : (f.fillSnippet (Text.lines source.toList)).snippet =
        lineText (Text.lines source.toList) ⟨1 + before.count '\n', 1 + (Text.lastLine before).length,
          byteLength before⟩ := by
      simp only [fillSnippet, hbare, hpos]
    rw [hfill, lineText, Nat.add_sub_cancel_left, hsource, hline]
    simp only [htrim, List.isEmpty_eq_false_iff.mpr hne, Bool.false_eq_true, if_false]

end Diagnostic

open Findings (Ascending)

/-- The compilation shows the findings at a source: split by severity, in the order of their
    offsets, and each with the line that it points at. -/
structure Compiled.Shows (c : Compiled) (source : String) (findings : List Diagnostic) : Prop where
  errors : c.errors.map Diagnostic.bare = findings.filter Diagnostic.isError
  warnings : c.warnings.map Diagnostic.bare = findings.filter Diagnostic.isWarning
  all : (c.diagnostics.map Diagnostic.bare).Perm findings
  errorsAscend : Ascending c.errors
  warningsAscend : Ascending c.warnings
  point : ∀ f ∈ c.diagnostics, f.PointsInto source

namespace Rules
variable {source : String} {d : Document}

/-- Every finding about a parsed document, with its line, points into the source. -/
theorem fillSnippets_point [Formats] (rules : Rules) (h : Document.parse source = .ok d) :
    ∀ f ∈ rules.checkDocument d, (f.fillSnippet (Text.lines source.toList)).PointsInto source := by
  intro f hf
  have hf : f ∈ rules.allFindings d := (Findings.sorted_perm _).mem_iff.mp hf
  obtain ⟨toks, eof, es, b, -, -, hcuts, hwritten, hbuilt, rfl⟩ := Document.parse_writes h
  obtain ⟨p, hp, hpos⟩ := rules.finding_places _ f hf
  have hbrace := Builder.places_braces hwritten hbuilt p hp
  obtain ⟨before, after, hsource, rfl⟩ := hcuts.brace hbrace
  exact Diagnostic.pointsInto_fillSnippet hsource hpos (rules.findings_bare _ f hf)

/-- Findings that have places are in the order of the offsets of these. -/
theorem ascending_of_inOrder {ds : List Diagnostic} (hsorted : ds.Pairwise (Findings.inOrder · ·))
    (hplaces : ∀ f ∈ ds, ∃ p, f.pos = some p) : Ascending ds := by
  refine hsorted.imp_of_mem fun {f g} hf hg horder => ?_
  obtain ⟨p, hp⟩ := hplaces f hf
  obtain ⟨q, hq⟩ := hplaces g hg
  refine ⟨p, q, hp, hq, ?_⟩
  simpa [Findings.inOrder, hp, hq] using horder

/-- The findings of one severity, with their lines. -/
theorem fillSnippets_filter [Formats] (rules : Rules) (hd : Document.parse source = .ok d)
    {p : Diagnostic → Bool} (hp : ∀ f lines, p (Diagnostic.fillSnippet lines f) = p f) :
    ((Findings.fillSnippets source (rules.checkDocument d)).filter p).map Diagnostic.bare =
        (rules.checkDocument d).filter p ∧
      Ascending ((Findings.fillSnippets source (rules.checkDocument d)).filter p) ∧
      ∀ f ∈ (Findings.fillSnippets source (rules.checkDocument d)).filter p, f.PointsInto source := by
  have hpoint := fillSnippets_point rules hd
  have hbare : ∀ f ∈ rules.checkDocument d, f.snippet = none := fun f hf =>
    rules.findings_bare d f ((Findings.sorted_perm _).mem_iff.mp hf)
  have hpart : (Findings.fillSnippets source (rules.checkDocument d)).filter p =
      ((rules.checkDocument d).filter p).map (Diagnostic.fillSnippet (Text.lines source.toList)) := by
    rw [Findings.fillSnippets, List.filter_map]
    congr 1
    exact List.filter_congr fun f _ => hp f _
  have hpoints : ∀ f ∈ (Findings.fillSnippets source (rules.checkDocument d)).filter p,
      f.PointsInto source := by
    rw [hpart]
    intro f hf
    obtain ⟨g, hg, rfl⟩ := List.mem_map.mp hf
    exact hpoint g (List.mem_of_mem_filter hg)
  refine ⟨?_, ?_, hpoints⟩
  · rw [hpart, List.map_map]
    refine (List.map_congr_left fun f hf => ?_).trans (List.map_id _)
    exact Diagnostic.bare_fillSnippet (hbare f (List.mem_of_mem_filter hf)) _
  · refine ascending_of_inOrder ?_ fun f hf => ?_
    · refine List.Pairwise.filter p (List.pairwise_map.mpr ?_)
      refine (Findings.sorted_inOrder (rules.allFindings d)).imp fun {f g} horder => ?_
      rwa [Findings.inOrder, (f.fillSnippet_keeps _).2.2, (g.fillSnippet_keeps _).2.2]
    · obtain ⟨_, _, -, hpos, -⟩ := hpoints f hf
      exact ⟨_, hpos⟩

/-- The findings of a compilation are those of the checks of the parsed document, split by
    severity and in the order of their offsets. Each of them points at an opening brace of the
    source and shows the line around it. The parsed document alone compiles to the same document
    with the same findings, which show no line. -/
theorem compile_located [Formats] {rules : Rules} {c : Compiled} (h : rules.compile source = .ok c) :
    ∃ d, Document.parse source = .ok d ∧ c.Shows source (rules.checkDocument d) ∧
      rules.compileDocument d =
        ⟨c.document, c.errors.map Diagnostic.bare, c.warnings.map Diagnostic.bare⟩ := by
  obtain ⟨d, hd, rfl⟩ := compile_ok h
  have herror : ∀ (f : Diagnostic) lines, (f.fillSnippet lines).isError = f.isError := by
    intro f lines
    rw [Diagnostic.isError, (f.fillSnippet_keeps lines).1, Diagnostic.isError]
  have hwarning : ∀ (f : Diagnostic) lines, (f.fillSnippet lines).isWarning = f.isWarning := by
    intro f lines
    rw [Diagnostic.isWarning, (f.fillSnippet_keeps lines).1, Diagnostic.isWarning]
  obtain ⟨herrors, hascend, hpoint⟩ := fillSnippets_filter rules hd herror
  obtain ⟨hwarnings, hascend', hpoint'⟩ := fillSnippets_filter rules hd hwarning
  refine ⟨d, hd, ⟨herrors, hwarnings, ?_, hascend, hascend', ?_⟩, ?_⟩
  · show (List.map Diagnostic.bare (_ ++ _)).Perm _
    rw [List.map_append]
    refine ((List.Perm.of_eq herrors).append (List.Perm.of_eq hwarnings)).trans ?_
    have hsplit : Diagnostic.isWarning = fun f => !f.isError := funext Diagnostic.isWarning_eq
    rw [hsplit]
    exact List.filter_append_perm _ _
  · exact List.forall_mem_append.mpr ⟨hpoint, hpoint'⟩
  · exact congrArg₂ (Compiled.mk _) herrors.symm hwarnings.symm

/-- A reserved word on the second line, which is reported there. -/
theorem compile_located_reserved :
    ∃ c, (ofRegistry (Registry.builtin .full .native)).compile "Hi\n \x7bif /\x7d" = .ok c ∧
      ∃ d, Document.parse "Hi\n \x7bif /\x7d" = .ok d ∧
        c.Shows "Hi\n \x7bif /\x7d" ((ofRegistry (Registry.builtin .full .native)).checkDocument d) ∧
        (ofRegistry (Registry.builtin .full .native)).compileDocument d =
          ⟨c.document, c.errors.map Diagnostic.bare, c.warnings.map Diagnostic.bare⟩ := by
  have htokens : tokenize "Hi\n \x7bif /\x7d" =
      .ok ([⟨.text, .str "Hi\n ", ⟨1, 1, 0⟩⟩, ⟨.leftBrace, .none, ⟨2, 2, 4⟩⟩,
        ⟨.ident, .str "if", ⟨2, 3, 5⟩⟩, ⟨.slash, .none, ⟨2, 6, 8⟩⟩, ⟨.rightBrace, .none, ⟨2, 7, 9⟩⟩] ++
          [⟨.eof, .none, ⟨2, 8, 10⟩⟩]) := by decide +kernel
  have hparse := Document.parse_of_events htokens (by simp) rfl (by decide +kernel : _ =
    ([.text "Hi\n " ⟨1, 1, 0⟩, .selfClosing ⟨"if", [], true, ⟨2, 2, 4⟩⟩], none)) rfl
  have hcompile := (ofRegistry (Registry.builtin .full .native)).compile_eq hparse
  exact ⟨_, hcompile, compile_located hcompile⟩

end Rules
end BraceTemplate
