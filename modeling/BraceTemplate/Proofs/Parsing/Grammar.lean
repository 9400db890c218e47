import BraceTemplate.Proofs.Lexing.Lexemes
import BraceTemplate.Proofs.Parsing.Events
import BraceTemplate.Proofs.Table

/- The grammar of events. `Event.Writes toks es` says which events stand in a list of tokens,
   without a reader: an interpolation is a spelling between braces, an attribute is a name with
   or without a value, a tag is a name with attributes and the mark that ends it. The reader of
   events takes what is written (`Event.Writes.all`), and of tokens that carry what their kinds
   say it takes nothing else (`Event.writes_of_all`), so both say the same (`Event.writes_iff`). The
   tokens of a source are such tokens, so a document is built from the events that are written in
   them (`Document.parse_writes`). -/
namespace BraceTemplate

/-- The tokens of an interpolation with this spelling, from brace to brace. -/
inductive Interpolation.Written (s : Spelling) : List Token → Interpolation → Prop where
  | intro {brace : Token} {ts : List Token} (hbrace : brace.symbol = (.leftBrace, .none))
    (hts : ts.map Token.symbol = s.symbols ++ [(.rightBrace, .none)]) :
    Written s (brace :: ts) ⟨s.text, brace.pos⟩

inductive AttrValue.Written : List Token → AttrValue → Prop where
  | string {t : Token} {v : String} (h : t.symbol = (.string, .str v)) : Written [t] (.str v)
  | word {t : Token} {v : String} (h : t.symbol = (.ident, .str v)) : Written [t] (.str v)
  | int {t : Token} {n : Int} (h : t.symbol = (.number, .int n)) : Written [t] (.int n)
  | float {t : Token} {x : Double} (h : t.symbol = (.number, .float x)) : Written [t] (.float x)
  | bool {t : Token} {b : Bool} (h : t.symbol = (.bool, .bool b)) : Written [t] (.bool b)
  | null {t : Token} (h : t.symbol = (.null, .none)) : Written [t] .null
  | interpolation {s : Spelling} {ts : List Token} {i : Interpolation} (h : i.Written s ts) :
    Written ts (.interpolation i)

namespace Tag

/-- Attributes one after the other; one without a value is true. -/
inductive WritesAttrs : List Token → List (String × AttrValue) → Prop where
  | nil : WritesAttrs [] []
  | flag {t : Token} {name : String} {ts : List Token} {as : List (String × AttrValue)}
    (hname : t.symbol = (.ident, .str name)) (has : WritesAttrs ts as) :
    WritesAttrs (t :: ts) ((name, .bool true) :: as)
  | given {t eq : Token} {name : String} {value ts : List Token} {v : AttrValue}
    {as : List (String × AttrValue)} (hname : t.symbol = (.ident, .str name))
    (heq : eq.symbol = (.equal, .none)) (hvalue : v.Written value) (has : WritesAttrs ts as) :
    WritesAttrs (t :: eq :: (value ++ ts)) ((name, v) :: as)

/-- The end of a tag; one that closes itself has a slash. -/
def endSymbols (self : Bool) : List Symbol :=
  if self then [(.slash, .none), (.rightBrace, .none)] else [(.rightBrace, .none)]

/-- The tokens of a tag without its content. Its name is no path, and an attribute that is
    written again keeps its place and takes the new value. -/
inductive Written : List Token → Tag → Prop where
  | intro {brace t : Token} {name : String} {attrs ends : List Token}
    {as : List (String × AttrValue)} {self : Bool} (hbrace : brace.symbol = (.leftBrace, .none))
    (hname : t.symbol = (.ident, .str name)) (hpath : Event.isPath name = false)
    (has : WritesAttrs attrs as) (hends : ends.map Token.symbol = endSymbols self) :
    Written (brace :: t :: (attrs ++ ends)) ⟨name, Table.lastValues as, self, brace.pos⟩

end Tag

namespace Event

/-- The tokens of one event. -/
inductive Written : List Token → Event → Prop where
  | text {t : Token} {v : String} (h : t.symbol = (.text, .str v)) : Written [t] (.text v t.pos)
  | comment {t : Token} {v : String} (h : t.symbol = (.comment, .str v)) :
    Written [t] (.comment v t.pos)
  | interpolation {s : Spelling} {ts : List Token} {i : Interpolation} (halone : s.StandsAlone)
    (h : i.Written s ts) : Written ts (.interpolation i)
  | selfClosing {ts : List Token} {t : Tag} (hself : t.selfClosing = true) (h : t.Written ts) :
    Written ts (.selfClosing t)
  | opening {ts : List Token} {t : Tag} (hself : t.selfClosing = false) (h : t.Written ts) :
    Written ts (.opening t)
  | closing {brace slash t close : Token} {name : String} (hbrace : brace.symbol = (.leftBrace, .none))
    (hslash : slash.symbol = (.slash, .none)) (hname : t.symbol = (.ident, .str name))
    (hclose : close.symbol = (.rightBrace, .none)) :
    Written [brace, slash, t, close] (.closing name brace.pos)

/-- The tokens of events one after the other. -/
inductive Writes : List Token → List Event → Prop where
  | nil : Writes [] []
  | cons {ts rest : List Token} {e : Event} {es : List Event} (h : e.Written ts)
    (hrest : Writes rest es) : Writes (ts ++ rest) (e :: es)

theorem Writes.append {ts ts' : List Token} {es es' : List Event} (h : Writes ts es)
    (h' : Writes ts' es') : Writes (ts ++ ts') (es ++ es') := by
  induction h with
  | nil => exact h'
  | cons h hrest ih =>
    rw [List.append_assoc]
    exact .cons h ih

/-- Every event is written somewhere among the tokens. -/
theorem Writes.split {ts : List Token} {es : List Event} (h : Writes ts es) {e : Event} (he : e ∈ es) :
    ∃ before used after, ts = before ++ (used ++ after) ∧ e.Written used := by
  induction h with
  | nil => cases he
  | @cons ts rest e' es h hrest ih =>
    rcases List.mem_cons.mp he with rfl | he
    · exact ⟨[], ts, rest, rfl, h⟩
    · obtain ⟨before, used, after, rfl, hused⟩ := ih he
      exact ⟨ts ++ before, used, after, (List.append_assoc _ _ _).symm, hused⟩

end Event

/-! What is written is read. -/

theorem Token.kind_of_symbol {t : Token} {kind : TokenKind} {payload : Payload}
    (h : t.symbol = (kind, payload)) : t.kind = kind := (Prod.mk.inj h).1

theorem Token.text_of_symbol {t : Token} {kind : TokenKind} {v : String}
    (h : t.symbol = (kind, .str v)) : t.text = v := by
  rw [text, show t.payload = .str v from (Prod.mk.inj h).2]

namespace Event

open Token (kind_of_symbol text_of_symbol)

variable {eof : Token} {ts more : List Token}

theorem interpolationAt_of_symbols {s : Spelling} (pos : Position)
    (h : ts.map Token.symbol = s.symbols ++ [(.rightBrace, .none)]) :
    interpolationAt eof pos (ts ++ more) = .ok (⟨s.text, pos⟩, more) := by
  have hread : spelling eof (ts ++ more) = .ok (s, more) := spelling_of_leads ⟨ts, rfl, h⟩
  rw [interpolationAt, hread]
  rfl

theorem plainValue?_of_symbol {t : Token} {kind : TokenKind} {payload : Payload}
    (h : t.symbol = (kind, payload)) (pos : Position) :
    plainValue? t = plainValue? ⟨kind, payload, pos⟩ := by
  obtain ⟨k, p, q⟩ := t
  obtain ⟨rfl, rfl⟩ := Prod.mk.inj h
  rfl

theorem attrValue_plain {t : Token} {v : AttrValue} (hkind : t.kind ≠ .leftBrace)
    (h : plainValue? t = some v) : attrValue eof (t :: more) = .ok (v, more) := by
  rw [attrValue, if_neg hkind, h]

theorem attrValue_of_written {v : AttrValue} (h : v.Written ts) :
    attrValue eof (ts ++ more) = .ok (v, more) := by
  cases h with
  | interpolation h =>
    obtain ⟨hbrace, hts⟩ := h
    rw [List.cons_append, attrValue, if_pos (kind_of_symbol hbrace),
      interpolationAt_of_symbols _ hts]
    rfl
  | string h | word h | int h | float h | bool h | null h =>
    refine attrValue_plain (by simp [kind_of_symbol h]) ?_
    exact plainValue?_of_symbol h Position.start

theorem attributes_ident {t : Token} {done : List (String × AttrValue)} {v : AttrValue}
    (hkind : t.kind = .ident) (h : attrBehind eof ts = .ok (v, more)) :
    attributes eof done (t :: ts) = attributes eof (Table.insert done t.text v) more := by
  rw [attributes.eq_def]
  simp only [hkind]
  split
  · rename_i e he
    rw [h] at he
    cases he
  · rename_i v' r hr
    rw [h] at hr
    cases hr
    rfl

/-- Behind an attribute stands a further name or the end of the tag. -/
theorem attrs_start {ends : List Token} {as : List (String × AttrValue)} {self : Bool}
    (has : Tag.WritesAttrs ts as) (hends : ends.map Token.symbol = Tag.endSymbols self) :
    ∃ t ts', ts ++ ends = t :: ts' ∧ t.kind ∈ [.ident, .slash, .rightBrace] := by
  cases has with
  | nil =>
    cases self with
    | false =>
      obtain ⟨t, ts', rfl, ht, -⟩ := List.map_eq_cons_iff.mp hends
      exact ⟨t, ts', rfl, by simp [kind_of_symbol ht]⟩
    | true =>
      obtain ⟨t, ts', rfl, ht, -⟩ := List.map_eq_cons_iff.mp hends
      exact ⟨t, ts', rfl, by simp [kind_of_symbol ht]⟩
  | flag hname has => exact ⟨_, _, rfl, by simp [kind_of_symbol hname]⟩
  | given hname heq hvalue has => exact ⟨_, _, rfl, by simp [kind_of_symbol hname]⟩

theorem attributes_end {ends : List Token} {self : Bool} (done : List (String × AttrValue))
    (hends : ends.map Token.symbol = Tag.endSymbols self) :
    attributes eof done (ends ++ more) = .ok (done, self, more) := by
  cases self with
  | false =>
    obtain ⟨t, ts', rfl, ht, hnil⟩ := List.map_eq_cons_iff.mp hends
    obtain rfl := List.map_eq_nil_iff.mp hnil
    rw [List.singleton_append, attributes.eq_def]
    simp only [kind_of_symbol ht]
  | true =>
    obtain ⟨slash, _, rfl, hslash, hbehind⟩ := List.map_eq_cons_iff.mp hends
    obtain ⟨close, _, rfl, hclose, hnil⟩ := List.map_eq_cons_iff.mp hbehind
    obtain rfl := List.map_eq_nil_iff.mp hnil
    rw [List.cons_append, List.singleton_append, attributes.eq_def]
    simp only [kind_of_symbol hslash, kind_of_symbol hclose, if_true]

/-- Attributes with the end of their tag are read behind those that are done. -/
theorem attributes_of_written {ends : List Token} {as : List (String × AttrValue)} {self : Bool}
    (has : Tag.WritesAttrs ts as) (hends : ends.map Token.symbol = Tag.endSymbols self)
    (done : List (String × AttrValue)) :
    attributes eof done (ts ++ (ends ++ more)) = .ok (Table.insertAll done as, self, more) := by
  induction has generalizing done with
  | nil => exact attributes_end done hends
  | @flag t name ts as hname has ih =>
    obtain ⟨next, ts', hnext, hkind⟩ := attrs_start has hends
    -- no equal sign follows, so the attribute is true
    have hbehind : attrBehind eof (ts ++ (ends ++ more)) = .ok (.bool true, ts ++ (ends ++ more)) := by
      rw [← List.append_assoc, hnext, List.cons_append, attrBehind, if_neg]
      intro heq
      simp [heq] at hkind
    rw [List.cons_append, attributes_ident (kind_of_symbol hname) hbehind, ih, text_of_symbol hname]
    rfl
  | @given t eq name value ts v as hname heq hvalue has ih =>
    have hbehind : attrBehind eof (eq :: (value ++ (ts ++ (ends ++ more)))) =
        .ok (v, ts ++ (ends ++ more)) := by
      rw [attrBehind, if_pos (kind_of_symbol heq), attrValue_of_written hvalue]
    rw [List.cons_append, List.cons_append, List.append_assoc,
      attributes_ident (kind_of_symbol hname) hbehind, ih, text_of_symbol hname]
    rfl

/-- A brace group whose word is no path and has no filter behind it is a tag. -/
theorem group_of_tag {brace : Token} {t : Tag} (h : t.Written (brace :: ts)) :
    group eof brace.pos (ts ++ more) =
      .ok (if t.selfClosing then .selfClosing t else .opening t, more) := by
  cases h with
  | @intro _ word name attrs ends as self hbrace hname hpath has hends =>
    obtain ⟨next, ts', hnext, hkind⟩ := attrs_start has hends
    have hattrs : attributes eof [] ((attrs ++ ends) ++ more) =
        .ok (Table.lastValues as, self, more) := by
      rw [List.append_assoc, attributes_of_written has hends, ← Table.ofEntries_eq_lastValues]
      rfl
    have hfront : (front eof ((attrs ++ ends) ++ more)).kind ≠ .pipe := by
      intro heq
      rw [hnext] at heq
      simp [show next.kind = .pipe from heq] at hkind
    obtain ⟨kind, payload, pos⟩ := word
    obtain ⟨rfl, rfl⟩ := Prod.mk.inj hname
    rw [List.cons_append, group_tag hpath hfront hattrs]
    cases self <;> rfl

/-- A group whose head stands alone, or has a filter behind it, is an interpolation. -/
theorem group_of_interpolation {brace : Position} {s : Spelling} (halone : s.StandsAlone)
    (h : ts.map Token.symbol = s.symbols ++ [(.rightBrace, .none)]) :
    group eof brace (ts ++ more) = .ok (.interpolation ⟨s.text, brace⟩, more) := by
  have hat : interpolationAt eof brace (ts ++ more) = .ok (⟨s.text, brace⟩, more) :=
    interpolationAt_of_symbols brace h
  obtain ⟨head, calls⟩ := s
  obtain ⟨t, ts', rfl, ht, hcalls⟩ := List.map_eq_cons_iff.mp h
  rw [List.cons_append] at hat ⊢
  rw [group.eq_def]
  cases head with
  | word w =>
    have hkind : t.kind = .ident := kind_of_symbol ht
    have htext : t.text = w := text_of_symbol ht
    -- a word alone would be a tag, so it is a path or has a filter behind it
    have hpath : (isPath t.text || (front eof (ts' ++ more)).kind = .pipe) = true := by
      rw [Bool.or_eq_true, decide_eq_true_eq, htext]
      refine halone.imp_right fun hne => ?_
      obtain ⟨c, cs, rfl⟩ := List.exists_cons_of_ne_nil hne
      obtain ⟨pipe, _, rfl, hpipe, -⟩ := List.map_eq_cons_iff.mp hcalls
      exact kind_of_symbol hpipe
    have hslash : t.kind ≠ .slash := by simp [hkind]
    refine (if_neg hslash).trans ((if_pos hkind).trans ((if_pos hpath).trans ?_))
    rw [hat]
    rfl
  | literal v =>
    have hliteral : t.kind.isLiteral = true := by
      rw [kind_of_symbol ht]
      cases v <;> rfl
    have hslash : t.kind ≠ .slash := fun e => by simp [e, TokenKind.isLiteral] at hliteral
    have hident : t.kind ≠ .ident := fun e => by simp [e, TokenKind.isLiteral] at hliteral
    refine (if_neg hslash).trans ((if_neg hident).trans ((if_pos hliteral).trans ?_))
    rw [hat]
    rfl

/-- A written event is what the reader takes next. -/
theorem Written.next {e : Event} (h : e.Written ts) :
    ∃ t ts', ts = t :: ts' ∧ ∀ eof more, Event.next eof t (ts' ++ more) = .ok (e, more) := by
  cases h with
  | text h | comment h =>
    refine ⟨_, [], rfl, fun eof more => ?_⟩
    rw [Event.next, kind_of_symbol h]
    simp only [text_of_symbol h, List.nil_append]
  | interpolation halone h =>
    obtain ⟨hbrace, hts⟩ := h
    refine ⟨_, _, rfl, fun eof more => ?_⟩
    rw [Event.next, kind_of_symbol hbrace]
    exact group_of_interpolation halone hts
  | selfClosing hself h | opening hself h =>
    obtain ⟨brace, ts', rfl, hbrace⟩ : ∃ brace ts', ts = brace :: ts' ∧ brace.kind = .leftBrace := by
      obtain ⟨hbrace, -⟩ := h
      exact ⟨_, _, rfl, kind_of_symbol hbrace⟩
    refine ⟨brace, ts', rfl, fun eof more => ?_⟩
    rw [Event.next, hbrace]
    exact (group_of_tag h).trans (by rw [hself]; rfl)
  | closing hbrace hslash hname hclose =>
    refine ⟨_, _, rfl, fun eof more => ?_⟩
    rw [Event.next, kind_of_symbol hbrace]
    simp only [List.cons_append, List.nil_append, group, kind_of_symbol hslash, kind_of_symbol hname,
      kind_of_symbol hclose, text_of_symbol hname, if_true]

/-- Written events are read. -/
theorem Writes.readsAs {es : List Event} (h : Writes ts es) : ReadsAs ts es := by
  induction h with
  | nil => exact .nil
  | cons h hrest ih =>
    obtain ⟨t, ts', rfl, hnext⟩ := h.next
    exact (ReadsAs.single hnext).append ih

theorem Writes.all {es : List Event} (h : Writes ts es) (eof : Token) :
    Event.all eof ts = (es, none) := by
  have hread := h.readsAs eof []
  rw [List.append_nil] at hread
  rw [hread, Event.all, List.append_nil]

/-! Nothing else is read. -/

open Token (symbol_of_mark symbol_of_ident)

theorem symbols_of_interpolationAt {pos : Position} {i : Interpolation} {r : List Token}
    (hsound : ∀ t ∈ ts, t.symbol.Sound) (h : interpolationAt eof pos ts = .ok (i, r)) :
    ∃ (s : Spelling) (used : List Token), ts = used ++ r ∧ i = ⟨s.text, pos⟩ ∧
      used.map Token.symbol = s.symbols ++ [(.rightBrace, .none)] := by
  obtain ⟨⟨s, r'⟩, hread, heq⟩ := Outcome.map_eq_ok.mp h
  cases heq
  obtain ⟨used, hts, hused⟩ := leads_of_spelling hsound hread
  exact ⟨s, used, hts, rfl, hused⟩

theorem written_of_plainValue {t : Token} {v : AttrValue} (ht : t.symbol.Sound)
    (h : plainValue? t = some v) : v.Written [t] := by
  obtain ⟨kind, payload, pos⟩ := t
  unfold plainValue? at h
  split at h <;> cases h
  · rename_i s hkind hpayload
    exact .string (Prod.ext hkind hpayload)
  · rename_i s hkind hpayload
    exact .word (Prod.ext hkind hpayload)
  · rename_i n hkind hpayload
    exact .int (Prod.ext hkind hpayload)
  · rename_i x hkind hpayload
    exact .float (Prod.ext hkind hpayload)
  · rename_i b hkind hpayload
    exact .bool (Prod.ext hkind hpayload)
  · rename_i hkind
    obtain rfl : kind = .null := hkind
    exact .null (Prod.ext rfl ht)

theorem written_of_attrValue {v : AttrValue} {r : List Token} (hsound : ∀ t ∈ ts, t.symbol.Sound)
    (h : attrValue eof ts = .ok (v, r)) : ∃ used, ts = used ++ r ∧ v.Written used := by
  unfold attrValue at h
  split at h
  · cases h
  · rename_i t rest
    have hrest : ∀ u ∈ rest, u.symbol.Sound := fun u hu => hsound u (List.mem_cons_of_mem t hu)
    split at h
    · rename_i hkind
      obtain ⟨⟨i, r'⟩, hread, heq⟩ := Outcome.map_eq_ok.mp h
      cases heq
      obtain ⟨s, used, rfl, rfl, hused⟩ := symbols_of_interpolationAt hrest hread
      have hbrace := symbol_of_mark (hsound t List.mem_cons_self) hkind (by decide)
      exact ⟨t :: used, rfl, .interpolation (.intro hbrace hused)⟩
    · split at h
      · rename_i v' hv
        cases h
        exact ⟨[t], rfl, written_of_plainValue (hsound t List.mem_cons_self) hv⟩
      · cases h

/-- An attribute behind its name is true, or has a value behind an equal sign. -/
theorem attrBehind_cases {v : AttrValue} {r : List Token} (hsound : ∀ t ∈ ts, t.symbol.Sound)
    (h : attrBehind eof ts = .ok (v, r)) :
    (v = .bool true ∧ r = ts) ∨
      ∃ eq used, ts = eq :: (used ++ r) ∧ eq.symbol = (.equal, .none) ∧ v.Written used := by
  unfold attrBehind at h
  split at h
  · cases h
    exact .inl ⟨rfl, rfl⟩
  · rename_i t rest
    split at h
    · rename_i hkind
      obtain ⟨used, rfl, hv⟩ := written_of_attrValue
        (fun u hu => hsound u (List.mem_cons_of_mem t hu)) h
      have heq := symbol_of_mark (hsound t List.mem_cons_self) hkind (by decide)
      exact .inr ⟨t, used, rfl, heq, hv⟩
    · cases h
      exact .inl ⟨rfl, rfl⟩

theorem written_of_attributes {done as : List (String × AttrValue)} {self : Bool} {r : List Token}
    (hsound : ∀ t ∈ ts, t.symbol.Sound) (h : attributes eof done ts = .ok (as, self, r)) :
    ∃ used ends entries, ts = used ++ (ends ++ r) ∧ Tag.WritesAttrs used entries ∧
      ends.map Token.symbol = Tag.endSymbols self ∧ as = Table.insertAll done entries := by
  fun_induction attributes eof done ts with
  | case1 => cases h
  | case2 done t rest hkind =>
    cases h
    have hclose := symbol_of_mark (hsound t List.mem_cons_self) hkind (by decide)
    exact ⟨[], [t], [], rfl, .nil, by simp [hclose, Tag.endSymbols], rfl⟩
  | case3 => cases h
  | case4 done t hkind close more hclose =>
    cases h
    have hslash := symbol_of_mark (hsound t (by simp)) hkind (by decide)
    have hclose := symbol_of_mark (hsound close (by simp)) hclose (by decide)
    exact ⟨[], [t, close], [], rfl, .nil, by simp [hslash, hclose, Tag.endSymbols], rfl⟩
  | case5 => cases h
  | case6 => cases h
  | case7 done t rest hkind v r' hbehind ih =>
    have hrest : ∀ u ∈ rest, u.symbol.Sound := fun u hu => hsound u (List.mem_cons_of_mem t hu)
    have hname := symbol_of_ident (hsound t List.mem_cons_self) hkind
    rcases attrBehind_cases hrest hbehind with ⟨rfl, rfl⟩ | ⟨eq, value, rfl, heq, hv⟩
    · obtain ⟨used, ends, entries, rfl, hused, hends, rfl⟩ := ih hrest h
      exact ⟨t :: used, ends, _, rfl, .flag hname hused, hends, rfl⟩
    · obtain ⟨used, ends, entries, rfl, hused, hends, rfl⟩ := ih (fun u hu => hrest u (by simp [hu])) h
      exact ⟨t :: eq :: (value ++ used), ends, _, by simp, .given hname heq hv hused, hends, rfl⟩
  | case8 => cases h

/-- Where a group is read as an interpolation, its spelling stands alone: the head is no word, or
    it is a path, or a pipe stands behind it. -/
theorem standsAlone_of_symbols {t : Token} {rest used r : List Token} {s : Spelling}
    (halone : t.kind = .ident → (isPath t.text || (front eof rest).kind = .pipe) = true)
    (hts : t :: rest = used ++ r)
    (hused : used.map Token.symbol = s.symbols ++ [(.rightBrace, .none)]) : s.StandsAlone := by
  obtain ⟨head, calls⟩ := s
  obtain ⟨t', used', rfl, hhead, hcalls⟩ := List.map_eq_cons_iff.mp hused
  obtain ⟨rfl, rfl⟩ := List.cons.inj hts
  cases head with
  | literal v => trivial
  | word w =>
    have hpath := halone (kind_of_symbol hhead)
    rw [text_of_symbol hhead, Bool.or_eq_true, decide_eq_true_eq] at hpath
    refine hpath.imp_right fun hpipe hnil => ?_
    subst hnil
    -- without calls the brace stands behind the head
    obtain ⟨close, _, rfl, hclose, -⟩ := List.map_eq_cons_iff.mp hcalls
    have hpipe : close.kind = .pipe := hpipe
    simp [kind_of_symbol hclose] at hpipe

theorem written_of_interpolationAt {brace t : Token} {rest r : List Token} {i : Interpolation}
    (hbrace : brace.symbol = (.leftBrace, .none)) (hsound : ∀ u ∈ t :: rest, u.symbol.Sound)
    (halone : t.kind = .ident → (isPath t.text || (front eof rest).kind = .pipe) = true)
    (h : interpolationAt eof brace.pos (t :: rest) = .ok (i, r)) :
    ∃ used, t :: rest = used ++ r ∧ (Event.interpolation i).Written (brace :: used) := by
  obtain ⟨s, used, hts, rfl, hused⟩ := symbols_of_interpolationAt hsound h
  exact ⟨used, hts, .interpolation (standsAlone_of_symbols halone hts hused) (.intro hbrace hused)⟩

theorem written_of_tag {brace t : Token} {rest r : List Token} {as : List (String × AttrValue)}
    {self : Bool} (hbrace : brace.symbol = (.leftBrace, .none))
    (hname : t.symbol = (.ident, .str t.text)) (hpath : isPath t.text = false)
    (hsound : ∀ u ∈ rest, u.symbol.Sound) (h : attributes eof [] rest = .ok (as, self, r)) :
    ∃ used, t :: rest = used ++ r ∧
      (if self then selfClosing ⟨t.text, as, true, brace.pos⟩
        else opening ⟨t.text, as, false, brace.pos⟩).Written (brace :: used) := by
  obtain ⟨attrs, ends, entries, rfl, hattrs, hends, rfl⟩ := written_of_attributes hsound h
  have htag : Tag.Written (brace :: t :: (attrs ++ ends))
      ⟨t.text, Table.lastValues entries, self, brace.pos⟩ := .intro hbrace hname hpath hattrs hends
  rw [← Table.ofEntries_eq_lastValues] at htag
  refine ⟨t :: (attrs ++ ends), by simp, ?_⟩
  cases self with
  | true => exact .selfClosing rfl htag
  | false => exact .opening rfl htag

theorem written_of_closing {brace slash : Token} {rest r : List Token} {e : Event}
    (hbrace : brace.symbol = (.leftBrace, .none)) (hslash : slash.kind = .slash)
    (hsound : ∀ u ∈ slash :: rest, u.symbol.Sound)
    (h : group eof brace.pos (slash :: rest) = .ok (e, r)) :
    ∃ used, slash :: rest = used ++ r ∧ e.Written (brace :: used) := by
  rw [group.eq_def] at h
  simp only [if_pos hslash] at h
  split at h
  · cases h
  · rename_i name rest
    split at h
    · rename_i hname
      split at h
      · cases h
      · rename_i close more
        split at h
        · rename_i hclose
          cases h
          exact ⟨[slash, name, close], rfl, .closing hbrace
            (symbol_of_mark (hsound slash (by simp)) hslash (by decide))
            (symbol_of_ident (hsound name (by simp)) hname)
            (symbol_of_mark (hsound close (by simp)) hclose (by decide))⟩
        · cases h
    · cases h

/-- What sound tokens behind a brace are read as is written there. -/
theorem written_of_group {brace : Token} {e : Event} {r : List Token}
    (hbrace : brace.symbol = (.leftBrace, .none)) (hsound : ∀ t ∈ ts, t.symbol.Sound)
    (h : group eof brace.pos ts = .ok (e, r)) :
    ∃ used, ts = used ++ r ∧ e.Written (brace :: used) := by
  cases ts with
  | nil => cases h
  | cons t rest =>
    by_cases hslash : t.kind = .slash
    · exact written_of_closing hbrace hslash hsound h
    · rw [group.eq_def] at h
      simp only [if_neg hslash] at h
      split at h
      · rename_i hident
        split at h
        · rename_i halone
          obtain ⟨⟨i, r'⟩, hread, heq⟩ := Outcome.map_eq_ok.mp h
          cases heq
          exact written_of_interpolationAt hbrace hsound (fun _ => halone) hread
        · rename_i halone
          obtain ⟨⟨as, self, r'⟩, hread, heq⟩ := Outcome.map_eq_ok.mp h
          cases heq
          have hpath : isPath t.text = false := by
            simp only [Bool.or_eq_true, not_or, Bool.not_eq_true] at halone
            exact halone.1
          exact written_of_tag hbrace (symbol_of_ident (hsound t List.mem_cons_self) hident) hpath
            (fun u hu => hsound u (List.mem_cons_of_mem t hu)) hread
      · rename_i hident
        split at h
        · obtain ⟨⟨i, r'⟩, hread, heq⟩ := Outcome.map_eq_ok.mp h
          cases heq
          exact written_of_interpolationAt hbrace hsound (fun h => absurd h hident) hread
        · cases h

theorem written_of_next {t : Token} {e : Event} {r : List Token} (ht : t.symbol.Sound)
    (hsound : ∀ u ∈ ts, u.symbol.Sound) (h : next eof t ts = .ok (e, r)) :
    ∃ used, ts = used ++ r ∧ e.Written (t :: used) := by
  obtain ⟨kind, payload, pos⟩ := t
  unfold next at h
  split at h
  · rename_i hkind
    obtain rfl : kind = .text := hkind
    obtain ⟨s, rfl⟩ := ht
    cases h
    exact ⟨[], rfl, .text rfl⟩
  · rename_i hkind
    obtain rfl : kind = .comment := hkind
    obtain ⟨s, rfl⟩ := ht
    cases h
    exact ⟨[], rfl, .comment rfl⟩
  · rename_i hkind
    exact written_of_group (symbol_of_mark ht hkind (by decide)) hsound h
  · cases h

/-- What sound tokens are read as is written in them. -/
theorem writes_of_all {es : List Event} (hsound : ∀ t ∈ ts, t.symbol.Sound)
    (h : all eof ts = (es, none)) : Writes ts es := by
  fun_induction all eof ts generalizing es with
  | case1 =>
    cases h
    exact .nil
  | case2 => cases h
  | case3 t rest e r hnext events failure hall ih =>
    obtain ⟨rfl, rfl⟩ := Prod.mk.inj h
    obtain ⟨used, rfl, he⟩ := written_of_next (hsound t List.mem_cons_self)
      (fun u hu => hsound u (List.mem_cons_of_mem t hu)) hnext
    have hrest := ih (fun u hu => hsound u (by simp [hu])) hall
    exact .cons he hrest

/-- The reader takes all of its tokens for the events that are written in them. -/
theorem writes_iff {es : List Event} (hsound : ∀ t ∈ ts, t.symbol.Sound) :
    Writes ts es ↔ all eof ts = (es, none) :=
  ⟨fun h => h.all eof, writes_of_all hsound⟩

end Event

/-- A document is built from the events that are written in the tokens of its source. -/
theorem Document.parse_writes {source : String} {d : Document} (h : parse source = .ok d) :
    ∃ toks eof es b, tokenize source = .ok (toks ++ [eof]) ∧ eof.kind = .eof ∧
      Lexer.Cuts Position.start [] source.toList toks ∧ Event.Writes toks es ∧
      Builder.empty.addAll es = .ok b ∧ b.finish = d := by
  obtain ⟨_, htoks, hd⟩ := parse_tokens h
  obtain ⟨toks, rfl, hcuts⟩ := Lexer.tokenize_cuts htoks
  obtain ⟨es, b, hall, hbuilt, hfinish⟩ := ofTokens_events hcuts.ne_eof rfl hd
  exact ⟨toks, _, es, b, htoks, rfl, hcuts, Event.writes_of_all hcuts.sound hall, hbuilt, hfinish⟩

/-- A source whose tokens are written events has the document that the events build, if they build
    one. -/
theorem Document.parse_of_writes {source : String} {toks : List Token} {eof : Token} {es : List Event}
    (htoks : tokenize source = .ok (toks ++ [eof])) (hwritten : Event.Writes toks es) :
    parse source = match Builder.empty.addAll es with
      | .ok b => .ok b.finish
      | .error f => .error (.structural f) := by
  obtain ⟨init, heq, hcuts⟩ := Lexer.tokenize_cuts htoks
  obtain ⟨rfl, heof⟩ := List.append_inj' heq rfl
  have hkind : eof.kind = .eof := by rw [List.singleton_inj.mp heof]
  rw [parse, htoks]
  simp only [ofTokens_append hcuts.ne_eof hkind, hwritten.all eof]
  cases Builder.empty.addAll es <;> rfl

end BraceTemplate
