import BraceTemplate.Document.Builder

/- From tokens to documents. The tokens before the end of input are read as events, and a
   document is what the events build; when the events cannot be read or put together there is
   none. -/
namespace BraceTemplate

/-- Tokens are cut at their first end of input. -/
theorem Token.cut_append {before : List Token} {eof : Token} (h : ∀ t ∈ before, t.kind ≠ .eof)
    (heof : eof.kind = .eof) (rest : List Token) :
    Token.cut (before ++ eof :: rest) = (before, eof) := by
  have hbefore : (before ++ eof :: rest).takeWhile (·.kind != .eof) = before := by
    rw [List.takeWhile_append_of_pos (by simpa using h)]
    simp [heof]
  simp [Token.cut, hbefore]

namespace Event
variable {eof t : Token} {ts more : List Token} {e : Event}

theorem all_cons_ok (h : next eof t ts = .ok (e, more)) :
    all eof (t :: ts) = (e :: (all eof more).1, (all eof more).2) := by
  rw [all.eq_def]
  simp only
  split
  · rename_i f hf
    rw [h] at hf
    cases hf
  · rename_i e' r hr
    rw [h] at hr
    cases hr
    rfl

theorem all_cons_error {f : ParseError} (h : next eof t ts = .error f) :
    all eof (t :: ts) = ([], some f) := by
  rw [all.eq_def]
  simp only
  split
  · rename_i f' hf
    rw [h] at hf
    cases hf
    rfl
  · rename_i e r hr
    rw [h] at hr
    cases hr

/-- The last event leaves no tokens. -/
theorem all_single (h : next eof t ts = .ok (e, [])) : all eof (t :: ts) = ([e], none) := by
  rw [all_cons_ok h, all.eq_def]

/-- A brace group whose word is no path and has no filter behind it is a tag. -/
theorem group_tag {brace pos : Position} {name : String} {as : List (String × AttrValue)}
    {self : Bool} (hpath : isPath name = false) (hpipe : (front eof ts).kind ≠ .pipe)
    (hattrs : attributes eof [] ts = .ok (as, self, more)) :
    group eof brace (⟨.ident, .str name, pos⟩ :: ts) =
      .ok (if self then .selfClosing ⟨name, as, true, brace⟩ else .opening ⟨name, as, false, brace⟩,
        more) := by
  have hword : ¬ (isPath name || (front eof ts).kind = .pipe) = true := by simp [hpath, hpipe]
  rw [group.eq_def]
  -- the word is no slash, it is an identifier, and it is no interpolation
  refine (if_neg (by simp)).trans ((if_pos rfl).trans ((if_neg hword).trans ?_))
  rw [hattrs]
  rfl

/-- The tokens are read as the events, whatever follows. -/
def ReadsAs (toks : List Token) (es : List Event) : Prop :=
  ∀ eof more, all eof (toks ++ more) = (es ++ (all eof more).1, (all eof more).2)

theorem ReadsAs.nil : ReadsAs [] [] := fun _ _ => rfl

theorem ReadsAs.append {toks toks' : List Token} {es es' : List Event} (h : ReadsAs toks es)
    (h' : ReadsAs toks' es') : ReadsAs (toks ++ toks') (es ++ es') := by
  intro eof more
  rw [List.append_assoc, h, h', List.append_assoc]

theorem ReadsAs.single {t : Token} {ts : List Token} {e : Event}
    (h : ∀ eof more, next eof t (ts ++ more) = .ok (e, more)) : ReadsAs (t :: ts) [e] := by
  intro eof more
  rw [List.cons_append, all_cons_ok (h eof more)]
  rfl

end Event

/-! Building. -/

namespace Builder

theorem addAll_append (b : Builder) (es es' : List Event) :
    b.addAll (es ++ es') = (b.addAll es).bind fun b' => b'.addAll es' := by
  induction es generalizing b with
  | nil => rfl
  | cons e es ih =>
    simp only [List.cons_append, addAll]
    cases b.add e with
    | error f => rfl
    | ok b' => exact ih b'

/-- What adding an event to a builder can do. -/
inductive Adds (b : Builder) : Event → Builder → Prop where
  | text (v : String) (p : Position) :
    Adds b (.text v p) ((if isBlank v then b else b.start).push (.text v p))
  | comment (v : String) (p : Position) : Adds b (.comment v p) (b.push (.comment v p))
  | interpolation (i : Interpolation) : Adds b (.interpolation i) (b.start.push (.interpolation i))
  | selfClosing {t : Tag} (hheader : isHeader t.name = false) :
    Adds b (.selfClosing t) (b.start.push (.tag t []))
  | opening {t : Tag} (hheader : isHeader t.name = false) (hdepth : b.stack.length < maxOpenTags) :
    Adds b (.opening t) { b with stack := ⟨t, []⟩ :: b.stack, started := true }
  | cms {e : Event} {t : Tag} (he : e = .selfClosing t ∨ e = .opening t)
    (hname : t.name = cmsHeaderName) (hfront : b.started = false ∧ b.stack = [])
    (hself : t.selfClosing = true) (hfirst : b.cms = none) :
    Adds b e { b with cms := some (cmsHeader t) }
  | platform {e : Event} {t : Tag} (he : e = .selfClosing t ∨ e = .opening t)
    (hname : t.name = platformHeaderName) (hfront : b.started = false ∧ b.stack = [])
    (hself : t.selfClosing = true) (hfirst : b.platform = none) :
    Adds b e { b with platform := some (platformHeader t) }
  | closing {top : OpenTag} {outer : List OpenTag} (hstack : b.stack = top :: outer) (pos : Position) :
    Adds b (.closing top.tag.name pos) (({ b with stack := outer }).push (.tag top.tag top.children))

theorem adds_of_declare {b b' : Builder} {e : Event} {t : Tag} (he : e = .selfClosing t ∨ e = .opening t)
    (hheader : isHeader t.name = true) (h : b.declare t = .ok b') : b.Adds e b' := by
  unfold declare at h
  split at h
  · cases h
  · rename_i hstarted
    have hfront : b.started = false ∧ b.stack = [] := by simpa using hstarted
    split at h
    · cases h
    · rename_i hself
      have hself : t.selfClosing = true := by simpa using hself
      split at h
      · rename_i hname
        split at h
        · cases h
        · rename_i hfirst
          cases h
          exact .cms he hname hfront hself (by simpa using hfirst)
      · rename_i hname
        have hname : t.name = platformHeaderName := by simpa [isHeader, hname] using hheader
        split at h
        · cases h
        · rename_i hfirst
          cases h
          exact .platform he hname hfront hself (by simpa using hfirst)

/-- An event that can be added does what its kind says. -/
theorem adds_of_add {b b' : Builder} {e : Event} (h : b.add e = .ok b') : b.Adds e b' := by
  cases e with
  | text v p =>
    cases h
    exact .text v p
  | comment v p =>
    cases h
    exact .comment v p
  | interpolation i =>
    cases h
    exact .interpolation i
  | selfClosing t =>
    rw [add] at h
    split at h
    · rename_i hheader
      exact adds_of_declare (.inl rfl) hheader h
    · rename_i hheader
      cases h
      exact .selfClosing (by simpa using hheader)
  | opening t =>
    rw [add] at h
    split at h
    · rename_i hheader
      exact adds_of_declare (.inr rfl) hheader h
    · rename_i hheader
      unfold Builder.opening at h
      split at h
      · cases h
      · rename_i hdepth
        cases h
        exact .opening (by simpa using hheader) (Nat.lt_of_not_le hdepth)
  | closing name pos =>
    rw [add, Builder.closing] at h
    split at h
    · cases h
    · rename_i top outer hstack
      split at h
      · rename_i hname
        cases h
        exact hname ▸ .closing hstack pos
      · cases h

end Builder

/-! Documents. -/

namespace Document
variable {source : String} {d : Document}

theorem parse_tokens (h : parse source = .ok d) :
    ∃ toks, tokenize source = .ok toks ∧ ofTokens toks = .ok d := by
  unfold parse at h
  split at h
  · cases h
  · rename_i toks htoks
    split at h
    · cases h
    · rename_i d' hd
      cases h
      exact ⟨toks, htoks, hd⟩

/-- What a document is built from. -/
theorem ofTokens_built {toks : List Token} (h : ofTokens toks = .ok d) :
    ∃ b, Builder.empty.addAll (Event.all (Token.cut toks).2 (Token.cut toks).1).1 = .ok b ∧
      b.finish = d := by
  unfold ofTokens at h
  simp only at h
  split at h
  · cases h
  · rename_i b hb
    split at h
    · cases h
    · cases h
      exact ⟨b, hb, rfl⟩

/-- The document of tokens is what their events build, unless the events end in a fault. -/
theorem ofTokens_append {ts : List Token} {eof : Token} (hends : ∀ t ∈ ts, t.kind ≠ .eof)
    (heof : eof.kind = .eof) :
    ofTokens (ts ++ [eof]) = match Builder.empty.addAll (Event.all eof ts).1 with
      | .error e => .error e
      | .ok b => match (Event.all eof ts).2 with
        | some e => .error e
        | none => .ok b.finish := by
  cases hbuilt : Builder.empty.addAll (Event.all eof ts).1 with
  | error e => simp only [ofTokens, Token.cut_append hends heof [], hbuilt]
  | ok b =>
    cases hfault : (Event.all eof ts).2 <;>
      simp only [ofTokens, Token.cut_append hends heof [], hbuilt, hfault]

/-- A document is built from the events of its tokens, all of which are read. -/
theorem ofTokens_events {ts : List Token} {eof : Token} (hends : ∀ t ∈ ts, t.kind ≠ .eof)
    (heof : eof.kind = .eof) (h : ofTokens (ts ++ [eof]) = .ok d) :
    ∃ es b, Event.all eof ts = (es, none) ∧ Builder.empty.addAll es = .ok b ∧ b.finish = d := by
  rw [ofTokens_append hends heof] at h
  split at h
  · cases h
  · rename_i b hb
    split at h
    · cases h
    · rename_i hall
      cases h
      exact ⟨_, b, Prod.ext rfl hall, hb, rfl⟩

section
variable {ts : List Token} {eof : Token} (htokens : tokenize source = .ok (ts ++ [eof]))
  (hends : ∀ t ∈ ts, t.kind ≠ .eof) (heof : eof.kind = .eof)
include htokens hends heof

/-- A source whose events build a document has that document. -/
theorem parse_of_events {es : List Event} {b : Builder} (hevents : Event.all eof ts = (es, none))
    (hbuilt : Builder.empty.addAll es = .ok b) : parse source = .ok b.finish := by
  rw [parse, htokens]
  simp only [ofTokens_append hends heof, hevents, hbuilt]

/-- A source whose first event cannot be read has no document. -/
theorem parse_of_fault {f : ParseError} (hevents : Event.all eof ts = ([], some f)) :
    parse source = .error (.structural f) := by
  rw [parse, htokens]
  simp only [ofTokens_append hends heof, hevents, Builder.addAll]

end

/-- The document of one tag that closes itself. -/
theorem parse_tag {ts : List Token} {eof : Token} {pos brace : Position} {name : String}
    {as : List (String × AttrValue)}
    (htokens : tokenize source =
      .ok (⟨.leftBrace, .none, brace⟩ :: ⟨.ident, .str name, pos⟩ :: ts ++ [eof]))
    (hends : ∀ t ∈ ts, t.kind ≠ .eof) (heof : eof.kind = .eof) (hpath : Event.isPath name = false)
    (hpipe : (Event.front eof ts).kind ≠ .pipe)
    (hattrs : Event.attributes eof [] ts = .ok (as, true, []))
    (hheader : Builder.isHeader name = false) :
    parse source = .ok ⟨⟨none, none, []⟩, [.tag ⟨name, as, true, brace⟩ []]⟩ := by
  have hevents : Event.all eof (⟨.leftBrace, .none, brace⟩ :: ⟨.ident, .str name, pos⟩ :: ts) =
      ([.selfClosing ⟨name, as, true, brace⟩], none) :=
    Event.all_single (Event.group_tag hpath hpipe hattrs)
  have hbuilt : Builder.empty.addAll [.selfClosing ⟨name, as, true, brace⟩] =
      .ok ⟨[], [.tag ⟨name, as, true, brace⟩ []], none, none, true⟩ := by
    rw [Builder.addAll, Builder.add, hheader]
    rfl
  exact parse_of_events htokens (by simpa using hends) heof hevents hbuilt

end Document
end BraceTemplate
