import BraceTemplate.Proofs.Parsing.Groups
import BraceTemplate.Proofs.Parsing.Preorder

/- Tags balance. `Event.opened` gives the names of the tags that are open behind events, innermost
   first, and `Event.Violates` says what an event may not do there: close a tag when none is open,
   close another one than the innermost, or open one too many. Events balance when none of them
   does so (`Event.balanced_iff`). A builder keeps exactly these names (`Builder.addAll_names`), so
   it accepts the events that balance and stops at the first that does not
   (`Builder.addAll_ok_iff`, `Builder.addAll_error_iff_violates`). For a source whose brace groups
   are well formed, one by one, this says whether it has a document (`Document.parse_balance`). -/
namespace BraceTemplate
namespace Event

/-- The names of the open tags behind an event, from those before it. -/
def openedAfter (names : List String) : Event → List String
  | .opening t => t.name :: names
  | .closing _ _ => names.tail
  | _ => names

/-- The names of the tags that events leave open, innermost first. -/
def opened (es : List Event) : List String := es.foldl openedAfter []

/-- The event may not stand where the tags with these names are open. -/
inductive Violates : List String → Event → ParseFault → Prop where
  | stray (name : String) (pos : Position) : Violates [] (.closing name pos) (.strayClose name)
  | mismatched {top name : String} (outer : List String) (pos : Position) (hname : top ≠ name) :
    Violates (top :: outer) (.closing name pos) (.mismatchedClose top name)
  | deep {names : List String} (t : Tag) (hdepth : maxOpenTags ≤ names.length) :
    Violates names (.opening t) (.nestingTooDeep t.name)

/-- Every closing tag names the innermost open tag, and never are too many tags open. -/
structure Balanced (es : List Event) : Prop where
  closes : ∀ before name pos, before ++ [.closing name pos] <+: es →
    (opened before).head? = some name
  bounded : ∀ before, before <+: es → (opened before).length ≤ maxOpenTags

theorem opened_append_singleton (es : List Event) (e : Event) :
    opened (es ++ [e]) = openedAfter (opened es) e := by
  simp [opened]

/-- An event that violates nothing closes the innermost tag, if any, and opens none too many. -/
theorem not_violates_iff {names : List String} {e : Event} (hnames : names.length ≤ maxOpenTags) :
    (∀ fault, ¬ Violates names e fault) ↔
      (∀ name pos, e = .closing name pos → names.head? = some name) ∧
        (openedAfter names e).length ≤ maxOpenTags := by
  constructor
  · intro h
    constructor
    · rintro name pos rfl
      cases names with
      | nil => exact absurd (.stray name pos) (h _)
      | cons top outer =>
        by_contra hne
        exact h _ (.mismatched outer pos fun heq => hne (congrArg some heq))
    · cases e with
      | opening t =>
        by_contra hdeep
        have hdepth : maxOpenTags ≤ names.length := by
          simp only [openedAfter, List.length_cons] at hdeep
          omega
        exact h _ (.deep t hdepth)
      | closing name pos =>
        simp only [openedAfter, List.length_tail]
        omega
      | text | comment | interpolation | selfClosing => exact hnames
  · rintro ⟨hcloses, hbounded⟩ fault hviolates
    cases hviolates with
    | stray name pos => cases hcloses name pos rfl
    | mismatched outer pos hname => exact hname (Option.some.inj (hcloses _ pos rfl))
    | deep t hdepth =>
      simp only [openedAfter, List.length_cons] at hbounded
      omega

theorem balanced_nil : Balanced [] := by
  constructor
  · intro before name pos h
    simp at h
  · intro before h
    rw [List.prefix_nil.mp h]
    exact Nat.zero_le _

/-- Events balance when all but the last do and the last one violates nothing. -/
theorem balanced_append_singleton {es : List Event} {e : Event} :
    Balanced (es ++ [e]) ↔ Balanced es ∧ ∀ fault, ¬ Violates (opened es) e fault := by
  constructor
  · intro h
    have hes : Balanced es := by
      constructor
      · intro before name pos hbefore
        exact h.closes before name pos (hbefore.trans (List.prefix_append _ _))
      · intro before hbefore
        exact h.bounded before (hbefore.trans (List.prefix_append _ _))
    refine ⟨hes, (not_violates_iff (hes.bounded es List.prefix_rfl)).mpr ⟨?_, ?_⟩⟩
    · rintro name pos rfl
      exact h.closes es name pos List.prefix_rfl
    · rw [← opened_append_singleton]
      exact h.bounded _ List.prefix_rfl
  · rintro ⟨hes, he⟩
    obtain ⟨hcloses, hbounded⟩ := (not_violates_iff (hes.bounded es List.prefix_rfl)).mp he
    constructor
    · intro before name pos hbefore
      rcases List.prefix_concat_iff.mp hbefore with heq | hbefore
      · obtain ⟨rfl, hlast⟩ := List.append_inj' heq rfl
        exact hcloses name pos (List.singleton_inj.mp hlast).symm
      · exact hes.closes before name pos hbefore
    · intro before hbefore
      rcases List.prefix_concat_iff.mp hbefore with rfl | hbefore
      · rwa [opened_append_singleton]
      · exact hes.bounded before hbefore

end Event

open Event (openedAfter opened Violates Balanced)

/-! Building. -/

namespace Builder
variable {b b' : Builder} {e : Event} {es : List Event} {f : ParseError}

/-- The names of the open tags, innermost first. -/
def names (b : Builder) : List String := b.stack.map (·.tag.name)

theorem names_push (b : Builder) (n : Node) : (b.push n).names = b.names := by
  obtain ⟨stack, roots, cms, platform, started⟩ := b
  cases stack <;> rfl

/-- An event that is no header opens and closes what its kind says. -/
theorem add_names (hheader : e.isHeader = false) (h : b.add e = .ok b') :
    b'.names = openedAfter b.names e := by
  cases adds_of_add h with
  | text v p =>
    rw [names_push]
    split <;> rfl
  | comment v p => exact names_push b _
  | interpolation i => exact names_push b.start _
  | selfClosing => exact names_push b.start _
  | opening => rfl
  | cms he hname | platform he hname =>
    rw [Event.isHeader_of_tag he, hname] at hheader
    exact absurd hheader (by decide)
  | closing hstack pos =>
    rw [names_push, openedAfter, names, names, hstack]
    rfl

theorem add_selfClosing {t : Tag} (hheader : isHeader t.name = false) :
    b.add (.selfClosing t) = .ok (b.start.push (.tag t [])) := by
  rw [add, hheader]
  rfl

theorem add_opening {t : Tag} (hheader : isHeader t.name = false) :
    b.add (.opening t) = b.opening t := by
  rw [add, hheader]
  rfl

/-- An event that is no header can be added unless it violates the balance. -/
theorem add_error_iff (hheader : e.isHeader = false) :
    b.add e = .error f ↔ ∃ fault, Violates b.names e fault ∧ f = ⟨fault, e.pos⟩ := by
  constructor
  · intro h
    cases e with
    | text | comment | interpolation => cases h
    | selfClosing t =>
      rw [add_selfClosing hheader] at h
      cases h
    | opening t =>
      rw [add_opening hheader, Builder.opening] at h
      split at h
      · rename_i hdepth
        cases h
        exact ⟨_, .deep t (by simpa [names] using hdepth), rfl⟩
      · cases h
    | closing name pos =>
      rw [add, Builder.closing] at h
      split at h
      · rename_i hstack
        cases h
        rw [names, hstack]
        exact ⟨_, .stray name pos, rfl⟩
      · rename_i top outer hstack
        split at h
        · cases h
        · rename_i hname
          cases h
          rw [names, hstack]
          exact ⟨_, .mismatched _ pos hname, rfl⟩
  · rintro ⟨fault, hviolates, rfl⟩
    obtain ⟨stack, roots, cms, platform, started⟩ := b
    cases stack with
    | nil =>
      cases hviolates with
      | stray => rfl
      | deep t hdepth => exact absurd hdepth (Nat.not_le_of_lt (by decide : 0 < maxOpenTags))
    | cons top outer =>
      cases hviolates with
      | mismatched outer pos hname =>
        rw [add, Builder.closing]
        exact if_neg hname
      | deep t hdepth =>
        rw [add_opening hheader, Builder.opening]
        exact if_pos (by simpa [names] using hdepth)

theorem addAll_single (b : Builder) (e : Event) : b.addAll [e] = b.add e := by
  rw [addAll]
  cases b.add e <;> rfl

theorem addAll_names (hheaders : ∀ e ∈ es, e.isHeader = false) (h : b.addAll es = .ok b') :
    b'.names = es.foldl openedAfter b.names := by
  induction es generalizing b with
  | nil =>
    cases h
    rfl
  | cons e es ih =>
    obtain ⟨he, hes⟩ := List.forall_mem_cons.mp hheaders
    rw [addAll] at h
    split at h
    · rename_i added hadd
      rw [ih hes h, add_names he hadd, List.foldl_cons]
    · cases h

/-- A builder fails at one event, when those before it have been added. -/
theorem addAll_error_iff : b.addAll es = .error f ↔
    ∃ before e after b', es = before ++ e :: after ∧ b.addAll before = .ok b' ∧
      b'.add e = .error f := by
  constructor
  · intro h
    induction es generalizing b with
    | nil => cases h
    | cons e es ih =>
      rw [addAll] at h
      split at h
      · rename_i added hadd
        obtain ⟨before, e', after, b', rfl, hbefore, he'⟩ := ih h
        refine ⟨e :: before, e', after, b', rfl, ?_, he'⟩
        rw [addAll, hadd]
        exact hbefore
      · rename_i g hadd
        cases h
        exact ⟨[], e, es, b, rfl, rfl, hadd⟩
  · rintro ⟨before, e, after, b', rfl, hbefore, he⟩
    rw [addAll_append, hbefore]
    show b'.addAll (e :: after) = _
    rw [addAll, he]

/-- Events that are no headers build a document exactly when they balance. -/
theorem addAll_ok_iff (hheaders : ∀ e ∈ es, e.isHeader = false) :
    (∃ b, empty.addAll es = .ok b) ↔ Balanced es := by
  induction es using List.reverseRecOn with
  | nil => exact iff_of_true ⟨empty, rfl⟩ Event.balanced_nil
  | append_singleton es e ih =>
    obtain ⟨hes, he⟩ := List.forall_mem_append.mp hheaders
    have he := List.forall_mem_singleton.mp he
    have hlast : ∀ b, empty.addAll es = .ok b →
        ((∃ b', b.add e = .ok b') ↔ ∀ fault, ¬ Violates (opened es) e fault) := by
      intro b hb
      have hnames : b.names = opened es := addAll_names hes hb
      constructor
      · rintro ⟨b', hadd⟩ fault hviolates
        have hfails : b.add e = .error ⟨fault, e.pos⟩ :=
          (add_error_iff he).mpr ⟨fault, hnames ▸ hviolates, rfl⟩
        rw [hadd] at hfails
        cases hfails
      · intro hnone
        cases hadd : b.add e with
        | ok b' => exact ⟨b', rfl⟩
        | error f =>
          obtain ⟨fault, hviolates, -⟩ := (add_error_iff he).mp hadd
          exact absurd (hnames ▸ hviolates) (hnone fault)
    rw [Event.balanced_append_singleton, ← ih hes, addAll_append]
    constructor
    · rintro ⟨b', hb'⟩
      obtain ⟨b, hb, hadd⟩ := Outcome.bind_eq_ok.mp hb'
      rw [addAll_single] at hadd
      exact ⟨⟨b, hb⟩, (hlast b hb).mp ⟨b', hadd⟩⟩
    · rintro ⟨⟨b, hb⟩, hnone⟩
      obtain ⟨b', hadd⟩ := (hlast b hb).mpr hnone
      refine ⟨b', Outcome.bind_eq_ok.mpr ⟨b, hb, ?_⟩⟩
      rw [addAll_single, hadd]

/-- A builder fails at the first event that violates the balance. -/
theorem addAll_error_iff_violates (hheaders : ∀ e ∈ es, e.isHeader = false) :
    empty.addAll es = .error f ↔ ∃ before e after fault, es = before ++ e :: after ∧
      Balanced before ∧ Violates (opened before) e fault ∧ f = ⟨fault, e.pos⟩ := by
  rw [addAll_error_iff]
  constructor
  · rintro ⟨before, e, after, b', rfl, hbefore, hadd⟩
    obtain ⟨hheadersb, hrest⟩ := List.forall_mem_append.mp hheaders
    obtain ⟨fault, hviolates, rfl⟩ := (add_error_iff (hrest e List.mem_cons_self)).mp hadd
    rw [addAll_names hheadersb hbefore] at hviolates
    exact ⟨before, e, after, fault, rfl, (addAll_ok_iff hheadersb).mp ⟨b', hbefore⟩, hviolates, rfl⟩
  · rintro ⟨before, e, after, fault, rfl, hbalanced, hviolates, rfl⟩
    obtain ⟨hheadersb, hrest⟩ := List.forall_mem_append.mp hheaders
    obtain ⟨b', hbefore⟩ := (addAll_ok_iff hheadersb).mpr hbalanced
    refine ⟨before, e, after, b', rfl, hbefore, ?_⟩
    refine (add_error_iff (hrest e List.mem_cons_self)).mpr ⟨fault, ?_, rfl⟩
    rwa [addAll_names hheadersb hbefore]

/-- Whatever keeps an event from being added, it is not that a token was unexpected. -/
theorem add_error_ne_unexpected (h : b.add e = .error f) (expected found : String) :
    f.fault ≠ .unexpected expected found := by
  have hdeclare : ∀ t, b.declare t = .error f → f.fault ≠ .unexpected expected found := by
    intro t ht
    unfold declare at ht
    split at ht
    · cases ht
      simp
    · split at ht
      · cases ht
        simp
      · split at ht <;> split at ht <;> cases ht <;> simp
  cases e with
  | text | comment | interpolation => cases h
  | selfClosing t =>
    rw [add] at h
    split at h
    · exact hdeclare t h
    · cases h
  | opening t =>
    rw [add] at h
    split at h
    · exact hdeclare t h
    · unfold Builder.opening at h
      split at h <;> cases h
      simp
  | closing name pos =>
    rw [add, Builder.closing] at h
    split at h
    · cases h
      simp
    · split at h <;> cases h
      simp

end Builder

/-! Documents. -/

namespace Event

theorem Written.head_pos {piece : List Token} {e : Event} (h : e.Written piece) :
    piece.head?.map Token.pos = some e.pos := by
  obtain ⟨t, ts, rfl, hpos⟩ := h.starts
  rw [hpos]
  rfl

/-- A text or a comment is an event that is no header. -/
theorem written_of_plain {t : Token} (ht : t.symbol.Sound) (hkind : t.kind ∈ [.text, .comment]) :
    ∃ e : Event, e.Written [t] ∧ e.isHeader = false := by
  obtain ⟨kind, payload, pos⟩ := t
  simp only [List.mem_cons, List.not_mem_nil, or_false] at hkind
  rcases hkind with rfl | rfl
  · obtain ⟨v, rfl⟩ := ht
    exact ⟨.text v pos, .text rfl, rfl⟩
  · obtain ⟨v, rfl⟩ := ht
    exact ⟨.comment v pos, .comment rfl, rfl⟩

/-- Where the brace groups are events, all pieces are. -/
theorem written_pieces {toks : List Token} (hsound : ∀ t ∈ toks, t.symbol.Sound)
    (hnested : Token.Nested 0 toks)
    (hgroups : ∀ piece ∈ Token.pieces toks, (∃ t ∈ piece.head?, t.kind = .leftBrace) →
      ∃ e : Event, e.Written piece ∧ e.isHeader = false) :
    ∃ es : List Event, List.Forall₂ (fun piece e => Event.Written piece e) (Token.pieces toks) es ∧
      ∀ e ∈ es, e.isHeader = false := by
  have hpiece : ∀ piece ∈ Token.pieces toks, ∃ e : Event, e.Written piece ∧ e.isHeader = false := by
    intro piece hpiece
    have hstarts := (Token.isPiece_of_nested hnested).1 rfl piece hpiece
    cases piece with
    | nil => cases hstarts
    | cons t rest =>
      rcases hstarts with hbrace | ⟨hplain, rfl⟩
      · exact hgroups _ hpiece ⟨t, rfl, hbrace⟩
      · have ht : t ∈ toks := by
          rw [← Token.flatten_piecesFrom 0 toks]
          exact List.mem_flatten.mpr ⟨[t], hpiece, List.mem_singleton_self t⟩
        exact written_of_plain (hsound t ht) hplain
  have : Nonempty Event := ⟨.comment "" Position.start⟩
  choose! eventOf hevent using hpiece
  refine ⟨(Token.pieces toks).map eventOf, ?_, ?_⟩
  · rw [List.forall₂_map_right_iff, List.forall₂_same]
    exact fun piece hmem => (hevent piece hmem).1
  · exact List.forall_mem_map.mpr fun piece hmem => (hevent piece hmem).2

end Event

namespace Document
variable {source : String}

/-- In the tokens of a source nothing else is met where an event should begin. -/
theorem parse_ne_stray_token (source found : String) (pos : Position) :
    parse source ≠ .error (.structural ⟨.unexpected "text or '\x7b'" found, pos⟩) := by
  intro h
  unfold parse at h
  split at h
  · cases h
  · rename_i all htoks
    obtain ⟨toks, rfl, hcuts⟩ := Lexer.tokenize_cuts htoks
    rw [ofTokens_append hcuts.ne_eof rfl] at h
    split at h
    · rename_i fault hparse
      cases h
      split at hparse
      · rename_i f hadds
        cases hparse
        obtain ⟨_, e, _, b, -, -, hadd⟩ := Builder.addAll_error_iff.mp hadds
        exact Builder.add_error_ne_unexpected hadd _ _ rfl
      · split at hparse
        · rename_i f hfault
          cases hparse
          -- what a group can lack is something else
          have hlacks := Event.fault_in_group hcuts.sound hcuts.nested hfault
          generalize hpos : ParseError.mk _ pos = g at hlacks
          cases hlacks with
          | intro t hpart =>
            obtain ⟨rfl, -⟩ := ParseFault.unexpected.inj (ParseError.mk.inj hpos).1
            exact absurd hpart (by decide)
        · cases hparse
    · cases h

/-- For a source each of whose brace groups is by itself a tag that is no header, a closing tag
    or an interpolation: it has a document exactly when its tags balance, and otherwise the fault is
    the first violation, at the opening brace of its group. Whatever the source, nothing else is met
    where a group or a text should begin. -/
theorem parse_balance (source : String) :
    (∀ toks eof, tokenize source = .ok (toks ++ [eof]) →
      (∀ piece ∈ Token.pieces toks, (∃ t ∈ piece.head?, t.kind = .leftBrace) →
        ∃ e : Event, e.Written piece ∧ e.isHeader = false) →
      ∃ es, List.Forall₂ (fun piece (e : Event) => e.Written piece ∧
          piece.head?.map Token.pos = some e.pos) (Token.pieces toks) es ∧
        ((∃ d, parse source = .ok d) ↔ Balanced es) ∧
        ∀ err, parse source = .error err ↔ ∃ before e after fault, es = before ++ e :: after ∧
          Balanced before ∧ Violates (opened before) e fault ∧ err = .structural ⟨fault, e.pos⟩) ∧
    ∀ found pos, parse source ≠ .error (.structural ⟨.unexpected "text or '\x7b'" found, pos⟩) := by
  refine ⟨fun toks eof htoks hgroups => ?_, parse_ne_stray_token source⟩
  obtain ⟨init, heq, hcuts⟩ := Lexer.tokenize_cuts htoks
  obtain ⟨rfl, -⟩ := List.append_inj' heq rfl
  obtain ⟨es, hes, hheaders⟩ := Event.written_pieces hcuts.sound hcuts.nested hgroups
  have hparse := parse_of_writes htoks (Event.writes_iff_pieces.mpr hes)
  refine ⟨es, hes.imp fun piece e he => ⟨he, he.head_pos⟩, ?_, fun err => ?_⟩
  · rw [← Builder.addAll_ok_iff hheaders, hparse]
    cases Builder.empty.addAll es with
    | ok b => exact iff_of_true ⟨_, rfl⟩ ⟨b, rfl⟩
    | error f => simp
  · rw [hparse]
    constructor
    · intro herr
      cases hadds : Builder.empty.addAll es with
      | ok b =>
        rw [hadds] at herr
        cases herr
      | error f =>
        rw [hadds] at herr
        cases herr
        obtain ⟨before, e, after, fault, hsplit, hbalanced, hviolates, rfl⟩ :=
          (Builder.addAll_error_iff_violates hheaders).mp hadds
        exact ⟨before, e, after, fault, hsplit, hbalanced, hviolates, rfl⟩
    · rintro ⟨before, e, after, fault, hsplit, hbalanced, hviolates, rfl⟩
      have hadds := (Builder.addAll_error_iff_violates hheaders).mpr
        ⟨before, e, after, fault, hsplit, hbalanced, hviolates, rfl⟩
      rw [hadds]

/-- A tag with a group in an attribute, one that closes itself, and a closing tag with the name of
    the outer one. -/
theorem parse_balance_crossed :
    ∃ toks eof, tokenize "\x7ba c=\x7bd\x7d\x7d\x7bb/\x7d\x7be\x7d\x7b/a\x7d" = .ok (toks ++ [eof]) ∧
      ∃ es, List.Forall₂ (fun piece (e : Event) => e.Written piece ∧
          piece.head?.map Token.pos = some e.pos) (Token.pieces toks) es ∧
        ((∃ d, parse "\x7ba c=\x7bd\x7d\x7d\x7bb/\x7d\x7be\x7d\x7b/a\x7d" = .ok d) ↔ Balanced es) ∧
        ∀ err, parse "\x7ba c=\x7bd\x7d\x7d\x7bb/\x7d\x7be\x7d\x7b/a\x7d" = .error err ↔
          ∃ before e after fault, es = before ++ e :: after ∧ Balanced before ∧
            Violates (opened before) e fault ∧ err = .structural ⟨fault, e.pos⟩ := by
  have htokens : tokenize "\x7ba c=\x7bd\x7d\x7d\x7bb/\x7d\x7be\x7d\x7b/a\x7d" =
      .ok ([⟨.leftBrace, .none, ⟨1, 1, 0⟩⟩, ⟨.ident, .str "a", ⟨1, 2, 1⟩⟩, ⟨.ident, .str "c", ⟨1, 4, 3⟩⟩,
        ⟨.equal, .none, ⟨1, 5, 4⟩⟩, ⟨.leftBrace, .none, ⟨1, 6, 5⟩⟩, ⟨.ident, .str "d", ⟨1, 7, 6⟩⟩,
        ⟨.rightBrace, .none, ⟨1, 8, 7⟩⟩, ⟨.rightBrace, .none, ⟨1, 9, 8⟩⟩,
        ⟨.leftBrace, .none, ⟨1, 10, 9⟩⟩, ⟨.ident, .str "b", ⟨1, 11, 10⟩⟩, ⟨.slash, .none, ⟨1, 12, 11⟩⟩,
        ⟨.rightBrace, .none, ⟨1, 13, 12⟩⟩, ⟨.leftBrace, .none, ⟨1, 14, 13⟩⟩,
        ⟨.ident, .str "e", ⟨1, 15, 14⟩⟩, ⟨.rightBrace, .none, ⟨1, 16, 15⟩⟩,
        ⟨.leftBrace, .none, ⟨1, 17, 16⟩⟩, ⟨.slash, .none, ⟨1, 18, 17⟩⟩, ⟨.ident, .str "a", ⟨1, 19, 18⟩⟩,
        ⟨.rightBrace, .none, ⟨1, 20, 19⟩⟩] ++ [⟨.eof, .none, ⟨1, 21, 20⟩⟩]) := by decide +kernel
  refine ⟨_, _, htokens, (parse_balance _).1 _ _ htokens fun piece hpiece _ => ?_⟩
  rw [show Token.pieces _ = [_, _, _, _] from rfl] at hpiece
  simp only [List.mem_cons, List.not_mem_nil, or_false] at hpiece
  rcases hpiece with rfl | rfl | rfl | rfl
  · have hsite : Interpolation.Written ⟨.word "d", []⟩ [⟨.leftBrace, .none, ⟨1, 6, 5⟩⟩,
        ⟨.ident, .str "d", ⟨1, 7, 6⟩⟩, ⟨.rightBrace, .none, ⟨1, 8, 7⟩⟩] ⟨"d", ⟨1, 6, 5⟩⟩ := .intro rfl rfl
    have hattrs : Tag.WritesAttrs [⟨.ident, .str "c", ⟨1, 4, 3⟩⟩, ⟨.equal, .none, ⟨1, 5, 4⟩⟩,
        ⟨.leftBrace, .none, ⟨1, 6, 5⟩⟩, ⟨.ident, .str "d", ⟨1, 7, 6⟩⟩, ⟨.rightBrace, .none, ⟨1, 8, 7⟩⟩]
        [("c", .interpolation ⟨"d", ⟨1, 6, 5⟩⟩)] := .given rfl rfl (.interpolation hsite) .nil
    have htag := @Tag.Written.intro ⟨.leftBrace, .none, ⟨1, 1, 0⟩⟩ ⟨.ident, .str "a", ⟨1, 2, 1⟩⟩ "a" _
      [⟨.rightBrace, .none, ⟨1, 9, 8⟩⟩] _ false rfl rfl (by decide) hattrs rfl
    exact ⟨_, .opening rfl htag, rfl⟩
  · exact ⟨.selfClosing ⟨"b", [], true, ⟨1, 10, 9⟩⟩,
      .selfClosing rfl (.intro rfl rfl (by decide) .nil rfl), rfl⟩
  · exact ⟨.opening ⟨"e", [], false, ⟨1, 14, 13⟩⟩,
      .opening rfl (.intro rfl rfl (by decide) .nil rfl), rfl⟩
  · exact ⟨.closing "a" ⟨1, 17, 16⟩, .closing rfl rfl rfl rfl, rfl⟩

end Document
end BraceTemplate
