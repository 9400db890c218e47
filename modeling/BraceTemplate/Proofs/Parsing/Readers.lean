import BraceTemplate.Proofs.Moved
import BraceTemplate.Proofs.Parsing.Grammar

/- Readers do not look at positions. Of tokens that stand elsewhere every reader gives what it
   gives of the tokens, elsewhere (`Event.all_moved`). Each reader has one lemma, stated of values
   and of faults at once. -/
namespace BraceTemplate
namespace Event

variable (f : Position → Position)

/-- What a reader gives, elsewhere: a value, changed by `g`, and the tokens behind it. -/
def movedRead {α : Type} (g : α → α) (x : Except ParseError (α × List Token)) :
    Except ParseError (α × List Token) :=
  Outcome.bimap (ParseError.moved f) (fun p => (g p.1, p.2.map (Token.moved f))) x

@[simp] theorem movedRead_ok {α : Type} (g : α → α) (a : α) (r : List Token) :
    movedRead f g (.ok (a, r)) = .ok (g a, r.map (Token.moved f)) := rfl

@[simp] theorem movedRead_error {α : Type} (g : α → α) (e : ParseError) :
    movedRead f g (.error e : Except ParseError (α × List Token)) = .error (e.moved f) := rfl

/-- Work on the value that was read. -/
theorem movedRead_map {α β : Type} {g : α → α} {h : β → β} (k k' : α → β)
    (hk : ∀ a, k' (g a) = h (k a)) (x : Except ParseError (α × List Token)) :
    (movedRead f g x).map (fun p => (k' p.1, p.2)) = movedRead f h (x.map fun p => (k p.1, p.2)) := by
  cases x with
  | error e => rfl
  | ok p => simp [movedRead, Outcome.bimap, Except.map, hk]

/-- Calls and arguments carry no positions. -/
theorem chain_moved (eof : Token) :
    (∀ ts, calls (eof.moved f) (ts.map (Token.moved f)) = movedRead f id (calls eof ts)) ∧
    (∀ filter done ts, arguments (eof.moved f) filter done (ts.map (Token.moved f)) =
      movedRead f id (arguments eof filter done ts)) ∧
    (∀ filter done ts, moreArguments (eof.moved f) filter done (ts.map (Token.moved f)) =
      movedRead f id (moreArguments eof filter done ts)) := by
  apply calls.mutual_induct
  -- the tokens end, or the first one fits nowhere
  case case1 | case3 | case4 | case9 | case10 | case11 | case12 | case14 | case16 =>
    intros
    simp [calls, arguments, moreArguments, *]
  case case2 | case7 | case8 =>
    intros
    simp [calls.eq_def, *]
  case case5 =>
    intro t _ hpipe name hname sep more hsep ih
    simpa [calls, hpipe, hname, hsep] using ih
  case case6 =>
    intro t _ hpipe name hname sep more hsep ih
    rw [List.map_cons] at ih
    simp only [List.map_cons]
    rw [calls.eq_def, calls.eq_def eof]
    simp only [Token.moved_kind, Token.moved_text, hpipe, hname, hsep, if_true, if_false, ih,
      reduceCtorEq]
    exact movedRead_map f (g := id) (h := id) (Spelling.Call.mk name.text [] :: ·) _ (fun _ => rfl) _
  case case13 =>
    intro filter done t value ht eq hnamed v more named hv ih
    simpa [arguments, ht, hnamed, hv] using ih
  case case15 =>
    intro filter done t value ht next more hplain ih
    simpa [arguments, ht, hplain] using ih
  case case17 =>
    intro filter done t rest hcomma ih
    simpa [moreArguments, hcomma] using ih
  case case18 =>
    intro filter done t rest hcomma ih
    simp only [List.map_cons] at ih ⊢
    simp only [moreArguments, Token.moved_kind, hcomma, if_false, ih]
    exact movedRead_map f (g := id) (h := id) (Spelling.Call.mk filter done :: ·) _ (fun _ => rfl) _

theorem spelling_moved (eof : Token) (ts : List Token) :
    spelling (eof.moved f) (ts.map (Token.moved f)) = movedRead f id (spelling eof ts) := by
  cases ts with
  | nil => rfl
  | cons t rest =>
    simp only [spelling, List.map_cons, Spelling.Operand.ofToken?_moved, (chain_moved f eof).1]
    split
    · rename_i operand _
      exact movedRead_map f (Spelling.mk operand) (Spelling.mk operand) (fun _ => rfl) _
    · rfl

theorem interpolationAt_moved (eof : Token) (pos : Position) (ts : List Token) :
    interpolationAt (eof.moved f) (f pos) (ts.map (Token.moved f)) =
      movedRead f (Interpolation.moved f) (interpolationAt eof pos ts) := by
  rw [interpolationAt, spelling_moved]
  exact movedRead_map f (fun s : Spelling => Interpolation.mk s.text pos)
    (fun s => Interpolation.mk s.text (f pos)) (fun _ => rfl) _

theorem plainValue?_moved (t : Token) :
    plainValue? (t.moved f) = (plainValue? t).map (AttrValue.moved f) := by
  unfold plainValue?
  simp only [Token.moved_kind, Token.moved_payload]
  split <;> rfl

theorem attrValue_moved (eof : Token) (ts : List Token) :
    attrValue (eof.moved f) (ts.map (Token.moved f)) =
      movedRead f (AttrValue.moved f) (attrValue eof ts) := by
  cases ts with
  | nil => rfl
  | cons t rest =>
    simp only [attrValue, List.map_cons, Token.moved_kind, Token.moved_pos, interpolationAt_moved,
      plainValue?_moved]
    split
    · exact movedRead_map f AttrValue.interpolation AttrValue.interpolation (fun _ => rfl) _
    · cases plainValue? t <;> rfl

theorem attrBehind_moved (eof : Token) (ts : List Token) :
    attrBehind (eof.moved f) (ts.map (Token.moved f)) =
      movedRead f (AttrValue.moved f) (attrBehind eof ts) := by
  cases ts with
  | nil => rfl
  | cons t rest =>
    simp only [attrBehind, List.map_cons, Token.moved_kind, attrValue_moved]
    split <;> rfl

theorem attributes_ident_fault {eof t : Token} {ts : List Token} {e : ParseError}
    (done : List (String × AttrValue)) (hkind : t.kind = .ident) (h : attrBehind eof ts = .error e) :
    attributes eof done (t :: ts) = .error e := by
  rw [attributes.eq_def]
  simp only [hkind]
  split
  · rename_i e' he
    rw [h] at he
    cases he
    rfl
  · rename_i v r hr
    rw [h] at hr
    cases hr

/-- Attributes elsewhere, with the mark of the end and the tokens behind it. -/
theorem attributes_moved (eof : Token) (done : List (String × AttrValue)) (ts : List Token) :
    attributes (eof.moved f) (Tag.movedAttrs f done) (ts.map (Token.moved f)) =
      Outcome.bimap (ParseError.moved f)
        (fun p => (Tag.movedAttrs f p.1, p.2.1, p.2.2.map (Token.moved f)))
        (attributes eof done ts) := by
  fun_induction attributes eof done ts with
  | case1 =>
    rw [List.map_nil, attributes.eq_def]
    rfl
  | case2 done t rest hkind =>
    rw [List.map_cons, attributes.eq_def]
    simp only [Token.moved_kind, hkind]
    rfl
  | case3 done t hkind =>
    rw [List.map_cons, attributes.eq_def]
    simp only [Token.moved_kind, hkind]
    rfl
  | case4 done t hkind close more hclose =>
    rw [List.map_cons, attributes.eq_def]
    simp only [Token.moved_kind, hkind, List.map_cons, hclose]
    rfl
  | case5 done t hkind close more hclose =>
    rw [List.map_cons, attributes.eq_def]
    simp only [Token.moved_kind, hkind, List.map_cons, hclose]
    rfl
  | case6 done t rest hkind e hbehind =>
    have hmoved := attrBehind_moved f eof rest
    rw [hbehind, movedRead_error] at hmoved
    exact attributes_ident_fault _ hkind hmoved
  | case7 done t rest hkind v r hbehind ih =>
    have hmoved := attrBehind_moved f eof rest
    rw [hbehind, movedRead_ok] at hmoved
    rw [List.map_cons, attributes_ident (by exact hkind) hmoved, ← ih, Tag.movedAttrs_insert]
    rfl
  | case8 done t rest =>
    rw [List.map_cons, attributes.eq_def]
    simp only [Token.moved_kind]
    rfl

theorem front_moved (eof : Token) (ts : List Token) :
    front (eof.moved f) (ts.map (Token.moved f)) = (front eof ts).moved f := by
  cases ts <;> rfl

theorem group_moved (eof : Token) (brace : Position) (ts : List Token) :
    group (eof.moved f) (f brace) (ts.map (Token.moved f)) =
      movedRead f (Event.moved f) (group eof brace ts) := by
  cases ts with
  | nil => rfl
  | cons t rest =>
    have hsite : (interpolationAt (eof.moved f) (f brace) (t.moved f :: rest.map (Token.moved f))).map
          (fun p => (Event.interpolation p.1, p.2)) =
        movedRead f (Event.moved f) ((interpolationAt eof brace (t :: rest)).map
          fun p => (Event.interpolation p.1, p.2)) := by
      have hat := interpolationAt_moved f eof brace (t :: rest)
      rw [List.map_cons] at hat
      rw [hat]
      exact movedRead_map f Event.interpolation Event.interpolation (fun _ => rfl) _
    have hattrs := attributes_moved f eof [] rest
    rw [List.map_cons, group.eq_def, group.eq_def eof]
    simp only [Token.moved_kind, Token.moved_text, front_moved]
    split
    · -- a closing tag
      cases rest with
      | nil => rfl
      | cons name rest =>
        by_cases hname : name.kind = .ident
        · cases rest with
          | nil => simp [hname]
          | cons close more =>
            by_cases hclose : close.kind = .rightBrace
            · simp [hname, hclose, Event.moved]
            · simp [hname, hclose]
        · simp [hname]
    · split
      · split
        · exact hsite
        · show Except.map _ (attributes (eof.moved f) (Tag.movedAttrs f []) _) = _
          rw [hattrs]
          cases attributes eof [] rest with
          | error e => rfl
          | ok p =>
            obtain ⟨as, self, r⟩ := p
            cases self <;> rfl
      · split
        · rename_i hliteral
          exact (if_pos hliteral).trans hsite
        · rename_i hliteral
          exact if_neg hliteral

theorem next_moved (eof t : Token) (ts : List Token) :
    next (eof.moved f) (t.moved f) (ts.map (Token.moved f)) =
      movedRead f (Event.moved f) (next eof t ts) := by
  simp only [next, Token.moved_kind, Token.moved_text, Token.moved_pos]
  split
  · rfl
  · rfl
  · exact group_moved f eof t.pos ts
  · rfl

/-- The events of tokens that stand elsewhere, and the fault they end in. -/
theorem all_moved (eof : Token) (ts : List Token) :
    all (eof.moved f) (ts.map (Token.moved f)) =
      ((all eof ts).1.map (Event.moved f), (all eof ts).2.map (ParseError.moved f)) := by
  fun_induction all eof ts with
  | case1 =>
    rw [List.map_nil, all.eq_def]
    rfl
  | case2 t rest e hnext =>
    have hmoved := next_moved f eof t rest
    rw [hnext, movedRead_error] at hmoved
    exact all_cons_error hmoved
  | case3 t rest e r hnext events failure hall ih =>
    have hmoved := next_moved f eof t rest
    rw [hnext, movedRead_ok] at hmoved
    rw [List.map_cons, all_cons_ok hmoved, ih, hall]
    rfl

end Event
end BraceTemplate
