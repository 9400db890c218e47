import BraceTemplate.Proofs.Parsing.Headers
import BraceTemplate.Proofs.Parsing.Preorder
import BraceTemplate.Proofs.Parsing.Readers

/- The end of the tokens. A document is read from the tokens before the first end of input. A reader
   that is given all tokens, with whatever stands behind that end, gives the same: an end of input
   fits nowhere in an event, so no reader steps over it, and one that comes to it stops or blames it
   (`Event.Halts`, with one lemma for each reader). So it makes no difference whether tokens are cut
   before they are read or read one after another (`Document.ofTokens_eq_read`), and what is blamed
   is one of the tokens up to the end (`Builder.build_error`). -/
namespace BraceTemplate
namespace Event

open Spelling (Operand Call)

/-- What a reader gives of the tokens before an end of input, and what it gives of all tokens, with
    that end and more behind it: the same value, and the last of the tokens are left with what is
    behind them; or the same fault, at one of the tokens or at the end. -/
inductive Halts {α : Type} (eof : Token) (behind ts : List Token) :
    Except ParseError (α × List Token) → Except ParseError (α × List Token) → Prop where
  | ok (a : α) {r : List Token} (h : r <:+ ts) :
    Halts eof behind ts (.ok (a, r)) (.ok (a, r ++ eof :: behind))
  | error {e : ParseError} {t : Token} (ht : t ∈ ts ++ [eof]) (hpos : e.pos = t.pos) :
    Halts eof behind ts (.error e) (.error e)

namespace Halts
variable {α β : Type} {eof : Token} {behind ts r : List Token}
  {x y : Except ParseError (α × List Token)}

theorem of_ok {a : α} (h : Halts eof behind ts (.ok (a, r)) y) :
    y = .ok (a, r ++ eof :: behind) ∧ r <:+ ts := by
  cases h with
  | ok _ hr => exact ⟨rfl, hr⟩

theorem of_error {e : ParseError} (h : Halts eof behind ts (.error e) y) :
    y = .error e ∧ ∃ t ∈ ts ++ [eof], e.pos = t.pos := by
  cases h with
  | error ht hpos => exact ⟨rfl, _, ht, hpos⟩

theorem mono (h : Halts eof behind r x y) (hr : r <:+ ts) : Halts eof behind ts x y := by
  cases h with
  | ok a h => exact .ok a (h.trans hr)
  | error ht hpos =>
    refine .error ?_ hpos
    rw [List.mem_append] at ht ⊢
    exact ht.imp_left (hr.mem ·)

theorem cons {t : Token} (h : Halts eof behind ts x y) : Halts eof behind (t :: ts) x y :=
  h.mono (List.suffix_cons t ts)

theorem map (f : α → β) (h : Halts eof behind ts x y) :
    Halts eof behind ts (x.map fun p => (f p.1, p.2)) (y.map fun p => (f p.1, p.2)) := by
  cases h with
  | ok a h => exact .ok (f a) h
  | error ht hpos => exact .error ht hpos

/-- The end is blamed. -/
theorem atEnd (part : String) :
    Halts (α := α) eof behind ts (.error (.unexpected part eof)) (.error (.unexpected part eof)) :=
  .error (List.mem_append_right ts (List.mem_singleton_self eof)) rfl

/-- A token is blamed. -/
theorem atToken (part : String) {t : Token} (ht : t ∈ ts) :
    Halts (α := α) eof behind ts (.error (.unexpected part t)) (.error (.unexpected part t)) :=
  .error (List.mem_append_left [eof] ht) rfl

end Halts

/-! Readers. -/

theorem front_append (eof last : Token) (behind ts : List Token) :
    front last (ts ++ eof :: behind) = front eof ts := by
  cases ts <;> rfl

variable {eof : Token} (heof : eof.kind = .eof) (last : Token) (behind : List Token)
include heof

theorem ofToken?_eof : Operand.ofToken? eof = none := by
  rw [Operand.ofToken?, if_neg (by simp [heof]), if_neg (by simp [heof, TokenKind.isLiteral])]

theorem calls_eof : calls last (eof :: behind) = .error (.unexpected "'|' or '\x7d'" eof) := by
  rw [calls.eq_def]
  simp [heof]

/-- An end of input ends no call and begins no argument. -/
theorem chain_halts :
    (∀ ts, Halts eof behind ts (calls eof ts) (calls last (ts ++ eof :: behind))) ∧
    (∀ filter done ts, Halts eof behind ts (arguments eof filter done ts)
      (arguments last filter done (ts ++ eof :: behind))) ∧
    (∀ filter done ts, Halts eof behind ts (moreArguments eof filter done ts)
      (moreArguments last filter done (ts ++ eof :: behind))) := by
  have hnone := ofToken?_eof heof
  have hcalls := calls_eof heof last behind
  apply calls.mutual_induct
  -- the tokens end
  case case1 =>
    rw [List.nil_append, hcalls]
    simpa [calls] using .atEnd _
  case case3 =>
    intro t hclose hpipe
    rw [calls.eq_def, calls.eq_def last]
    simpa [hpipe, heof] using .atEnd _
  case case4 =>
    intro t hclose hpipe name hname
    rw [calls.eq_def, calls.eq_def last]
    simpa [hpipe, hname, heof, hcalls, Except.map] using .atEnd _
  case case9 =>
    intro filter done
    simpa [arguments, hnone] using .atEnd _
  case case11 =>
    intro filter done t value ht
    simpa [arguments, moreArguments, ht, heof, hcalls, Except.map] using .atEnd _
  case case12 =>
    intro filter done t value ht eq hnamed
    simpa [arguments, ht, hnamed, hnone] using .atEnd _
  case case16 =>
    intro filter done
    simpa [moreArguments, heof, hcalls, Except.map] using .atEnd _
  -- the first token fits nowhere
  case case7 =>
    intro t hclose hpipe name rest hname
    rw [calls.eq_def, calls.eq_def last]
    simpa [hpipe, hname] using .atToken _ (by simp)
  case case8 =>
    intro t rest hclose hpipe
    rw [calls.eq_def, calls.eq_def last]
    simpa [hclose, hpipe] using .atToken _ (by simp)
  case case10 =>
    intro filter done t rest ht
    simpa [arguments, ht] using .atToken _ (by simp)
  case case14 =>
    intro filter done t value ht eq hnamed v rest hv
    simpa [arguments, ht, hnamed, hv] using .atToken _ (by simp)
  -- more is read
  case case2 =>
    intro t rest hclose
    rw [calls.eq_def, calls.eq_def last]
    simpa [hclose] using .ok [] (List.suffix_cons t rest)
  case case5 =>
    intro t hclose hpipe name hname sep rest hsep ih
    rw [calls.eq_def, calls.eq_def last]
    simpa [hpipe, hname, hsep] using ih.cons.cons.cons
  case case6 =>
    intro t hclose hpipe name hname sep rest hsep ih
    rw [calls.eq_def, calls.eq_def last]
    simpa [hpipe, hname, hsep] using (ih.map (Call.mk name.text [] :: ·)).cons.cons
  case case13 =>
    intro filter done t value ht eq hnamed v rest named hv ih
    simpa [arguments, ht, hnamed, hv] using ih.cons.cons.cons
  case case15 =>
    intro filter done t value ht eq rest hplain ih
    simpa [arguments, ht, hplain] using ih.cons
  case case17 =>
    intro filter done t rest hcomma ih
    simpa [moreArguments, hcomma] using ih.cons
  case case18 =>
    intro filter done t rest hcomma ih
    simpa [moreArguments, hcomma] using ih.map (Call.mk filter done :: ·)

theorem spelling_halts (ts : List Token) :
    Halts eof behind ts (spelling eof ts) (spelling last (ts ++ eof :: behind)) := by
  cases ts with
  | nil => simpa [spelling, ofToken?_eof heof] using .atEnd _
  | cons head rest =>
    rw [List.cons_append, spelling, spelling]
    split
    · rename_i operand _
      exact (((chain_halts heof last behind).1 rest).map (Spelling.mk operand)).cons
    · exact .atToken _ List.mem_cons_self

theorem interpolationAt_halts (pos : Position) (ts : List Token) :
    Halts eof behind ts (interpolationAt eof pos ts) (interpolationAt last pos (ts ++ eof :: behind)) :=
  (spelling_halts heof last behind ts).map fun s : Spelling => Interpolation.mk s.text pos

theorem attrValue_halts (ts : List Token) :
    Halts eof behind ts (attrValue eof ts) (attrValue last (ts ++ eof :: behind)) := by
  cases ts with
  | nil => simpa [attrValue, plainValue?, heof] using .atEnd _
  | cons t rest =>
    rw [List.cons_append, attrValue, attrValue]
    split
    · exact ((interpolationAt_halts heof last behind t.pos rest).map AttrValue.interpolation).cons
    · split
      · exact .ok _ (List.suffix_cons t rest)
      · exact .atToken _ List.mem_cons_self

theorem attrBehind_halts (ts : List Token) :
    Halts eof behind ts (attrBehind eof ts) (attrBehind last (ts ++ eof :: behind)) := by
  cases ts with
  | nil => simpa [attrBehind, heof] using .ok (AttrValue.bool true) List.suffix_rfl
  | cons t rest =>
    rw [List.cons_append, attrBehind, attrBehind]
    split
    · exact (attrValue_halts heof last behind rest).cons
    · exact .ok _ List.suffix_rfl

/-- Attributes with the mark of the end of their tag, and what is made of them. -/
theorem attributes_halts {α : Type} (make : List (String × AttrValue) → Bool → α)
    (done : List (String × AttrValue)) (ts : List Token) :
    Halts eof behind ts ((attributes eof done ts).map fun p => (make p.1 p.2.1, p.2.2))
      ((attributes last done (ts ++ eof :: behind)).map fun p => (make p.1 p.2.1, p.2.2)) := by
  fun_induction attributes eof done ts with
  | case1 done =>
    rw [List.nil_append, attributes.eq_def]
    simpa [heof] using .atEnd _
  | case2 done t rest hkind =>
    rw [List.cons_append, attributes.eq_def]
    simpa [hkind] using .ok (make done false) (List.suffix_cons t rest)
  | case3 done t hkind =>
    rw [List.cons_append, attributes.eq_def]
    simpa [hkind, heof] using .atEnd _
  | case4 done t hkind close more hclose =>
    rw [List.cons_append, attributes.eq_def]
    simpa [hkind, hclose] using .ok (make done true) ⟨[t, close], rfl⟩
  | case5 done t hkind close more hclose =>
    rw [List.cons_append, attributes.eq_def]
    simpa [hkind, hclose] using .atToken _ (by simp)
  | case6 done t rest hkind e hbehind =>
    have hread := attrBehind_halts heof last behind rest
    rw [hbehind] at hread
    obtain ⟨hall, u, hu, hpos⟩ := hread.of_error
    rw [List.cons_append, attributes_ident_fault done hkind hall]
    exact (Halts.error hu hpos).cons
  | case7 done t rest hkind v r hbehind ih =>
    have hread := attrBehind_halts heof last behind rest
    rw [hbehind] at hread
    obtain ⟨hall, hr⟩ := hread.of_ok
    rw [List.cons_append, attributes_ident hkind hall]
    exact (ih.mono hr).cons
  | case8 done t rest =>
    rw [List.cons_append, attributes.eq_def]
    simpa using .atToken _ (by simp)

theorem group_halts (brace : Position) (ts : List Token) :
    Halts eof behind ts (group eof brace ts) (group last brace (ts ++ eof :: behind)) := by
  cases ts with
  | nil => simpa [group, heof, TokenKind.isLiteral] using .atEnd _
  | cons t rest =>
    rw [List.cons_append, group.eq_def, group.eq_def last]
    simp only [front_append]
    split
    · -- a closing tag
      cases rest with
      | nil => simpa [heof] using .atEnd _
      | cons name rest =>
        by_cases hname : name.kind = .ident
        · cases rest with
          | nil => simpa [hname, heof] using .atEnd _
          | cons close more =>
            by_cases hclose : close.kind = .rightBrace
            · simpa [hname, hclose] using .ok (Event.closing name.text brace) ⟨[t, name, close], rfl⟩
            · simpa [hname, hclose] using .atToken _ (by simp)
        · simpa [hname] using .atToken _ (by simp)
    · split
      · split
        · exact (interpolationAt_halts heof last behind brace (t :: rest)).map Event.interpolation
        · exact (attributes_halts heof last behind (fun as self =>
            if self then Event.selfClosing ⟨t.text, as, true, brace⟩
            else .opening ⟨t.text, as, false, brace⟩) [] rest).cons
      · split
        · exact (interpolationAt_halts heof last behind brace (t :: rest)).map Event.interpolation
        · exact .atToken _ List.mem_cons_self

theorem next_halts (t : Token) (ts : List Token) :
    Halts eof behind (t :: ts) (next eof t ts) (next last t (ts ++ eof :: behind)) := by
  unfold next
  split
  · exact .ok _ (List.suffix_cons t ts)
  · exact .ok _ (List.suffix_cons t ts)
  · exact (group_halts heof last behind t.pos ts).cons
  · exact .atToken _ List.mem_cons_self

variable {t : Token} {ts r : List Token} {e : Event}

theorem next_of_ok (h : next eof t ts = .ok (e, r)) :
    next last t (ts ++ eof :: behind) = .ok (e, r ++ eof :: behind) ∧ r <:+ t :: ts :=
  (h ▸ next_halts heof last behind t ts).of_ok

theorem next_of_error {f : ParseError} (h : next eof t ts = .error f) :
    next last t (ts ++ eof :: behind) = .error f ∧ ∃ u ∈ t :: ts ++ [eof], f.pos = u.pos :=
  (h ▸ next_halts heof last behind t ts).of_error

omit heof

theorem interpolationAt_pos {pos : Position} {i : Interpolation}
    (h : interpolationAt eof pos ts = .ok (i, r)) : i.pos = pos := by
  obtain ⟨p, -, heq⟩ := Outcome.map_eq_ok.mp h
  cases heq
  rfl

theorem group_pos {brace : Position} (h : group eof brace ts = .ok (e, r)) : e.pos = brace := by
  have hsite : ∀ ts, (interpolationAt eof brace ts).map (fun p => (Event.interpolation p.1, p.2)) =
      .ok (e, r) → e.pos = brace := by
    intro ts hread
    obtain ⟨p, hp, heq⟩ := Outcome.map_eq_ok.mp hread
    cases heq
    exact interpolationAt_pos hp
  unfold group at h
  split at h
  · cases h
  · split at h
    · -- a closing tag
      split at h
      · cases h
      · split at h
        · split at h
          · cases h
          · split at h <;> cases h
            rfl
        · cases h
    · split at h
      · split at h
        · exact hsite _ h
        · obtain ⟨⟨as, self, r'⟩, -, heq⟩ := Outcome.map_eq_ok.mp h
          cases self <;> cases heq <;> rfl
      · split at h
        · exact hsite _ h
        · cases h

/-- An event stands where its first token stands. -/
theorem next_pos (h : next eof t ts = .ok (e, r)) : e.pos = t.pos := by
  unfold next at h
  split at h
  · cases h
    rfl
  · cases h
    rfl
  · exact group_pos h
  · cases h

end Event

/-! Documents. -/

namespace Builder

/-- The document that events build, unless one cannot be added or they end in a fault. -/
def build (b : Builder) (es : List Event × Option ParseError) : Except ParseError Document :=
  match b.addAll es.1 with
  | .error e => .error e
  | .ok b =>
    match es.2 with
    | some e => .error e
    | none => .ok b.finish

/-- Reads events from all tokens and adds each at once, until an end of input stands where an event
    could begin. When the tokens run out, `last` is met. -/
def read (last : Token) (b : Builder) (tokens : List Token) : Except ParseError Document :=
  match tokens with
  | [] => .ok b.finish
  | t :: rest =>
    if t.kind = .eof then .ok b.finish
    else
      match _h : Event.next last t rest with
      | .error e => .error e
      | .ok (e, r) =>
        match b.add e with
        | .error f => .error f
        | .ok b => read last b r
  termination_by tokens.length
  decreasing_by
    have := Event.next_le _h
    simp only [List.length_cons]; omega

theorem build_nil (b : Builder) : b.build ([], none) = .ok b.finish := rfl

theorem build_cons (b : Builder) (e : Event) (es : List Event) (failure : Option ParseError) :
    b.build (e :: es, failure) = (b.add e).bind fun b => b.build (es, failure) := by
  rw [build, addAll]
  cases b.add e <;> rfl

/-- Reading on behind an event. -/
theorem read_cons (b : Builder) {last t : Token} {ts r : List Token} {e : Event}
    (ht : t.kind ≠ .eof) (h : Event.next last t ts = .ok (e, r)) :
    read last b (t :: ts) = (b.add e).bind fun b => read last b r := by
  rw [read.eq_def]
  simp only [ht, if_false]
  split
  · rename_i f hf
    rw [h] at hf
    cases hf
  · rename_i e' r' hread
    rw [h] at hread
    cases hread
    cases b.add e <;> rfl

theorem read_fault (b : Builder) {last t : Token} {ts : List Token} {f : ParseError}
    (ht : t.kind ≠ .eof) (h : Event.next last t ts = .error f) :
    read last b (t :: ts) = .error f := by
  rw [read.eq_def]
  simp only [ht, if_false]
  split
  · rename_i f' hf
    rw [h] at hf
    cases hf
    rfl
  · rename_i e r hread
    rw [h] at hread
    cases hread

variable {eof : Token} (heof : eof.kind = .eof)
include heof

theorem read_eof (b : Builder) (last : Token) (behind : List Token) :
    read last b (eof :: behind) = .ok b.finish := by
  rw [read.eq_def]
  simp only [heof, if_true]

/-- Of all tokens the same is built as of those before the first end of input. -/
theorem read_append (last : Token) (behind : List Token) {ts : List Token}
    (hts : ∀ t ∈ ts, t.kind ≠ .eof) (b : Builder) :
    read last b (ts ++ eof :: behind) = b.build (Event.all eof ts) := by
  fun_induction Event.all eof ts generalizing b with
  | case1 => exact read_eof heof b last behind
  | case2 t rest f hnext =>
    exact read_fault b (hts t List.mem_cons_self) (Event.next_of_error heof last behind hnext).1
  | case3 t rest e r hnext events failure hevents ih =>
    obtain ⟨hall, hr⟩ := Event.next_of_ok heof last behind hnext
    rw [List.cons_append, read_cons b (hts t List.mem_cons_self) hall, build_cons]
    congr 1
    funext b'
    rw [ih (fun u hu => hts u (hr.mem hu)), hevents]

/-- Tokens without an end of input are all read. -/
theorem read_eq_build {ts : List Token} (hts : ∀ t ∈ ts, t.kind ≠ .eof) (b : Builder) :
    read eof b ts = b.build (Event.all eof ts) := by
  fun_induction Event.all eof ts generalizing b with
  | case1 => rw [read, build_nil]
  | case2 t rest f hnext => exact read_fault b (hts t List.mem_cons_self) hnext
  | case3 t rest e r hnext events failure hevents ih =>
    obtain ⟨-, hr⟩ := Event.next_of_ok heof eof [] hnext
    rw [read_cons b (hts t List.mem_cons_self) hnext, build_cons]
    congr 1
    funext b'
    rw [ih (fun u hu => hts u (hr.mem hu)), hevents]

/-- What is blamed is one of the tokens, or the end behind them. -/
theorem build_error {ts : List Token} {b : Builder} {f : ParseError}
    (h : b.build (Event.all eof ts) = .error f) : ∃ t ∈ ts ++ [eof], f.pos = t.pos := by
  fun_induction Event.all eof ts generalizing b with
  | case1 => cases h
  | case2 t rest f' hnext =>
    cases h
    exact (Event.next_of_error heof eof [] hnext).2
  | case3 t rest e r hnext events failure hevents ih =>
    rw [build_cons] at h
    cases hadd : b.add e with
    | error f' =>
      rw [hadd] at h
      cases h
      exact ⟨t, List.mem_cons_self, (add_error_pos hadd).trans (Event.next_pos hnext)⟩
    | ok b' =>
      rw [hadd] at h
      rw [hevents] at ih
      obtain ⟨u, hu, hpos⟩ := ih h
      obtain ⟨-, hr⟩ := Event.next_of_ok heof eof [] hnext
      refine ⟨u, ?_, hpos⟩
      rw [List.mem_append] at hu ⊢
      exact hu.imp_left (hr.mem ·)

end Builder

namespace Token

/-- The end of tokens that have none: it stands where the last of them starts. -/
def endOf (tokens : List Token) : Token :=
  ⟨.eof, .none, (tokens.getLast?.map Token.pos).getD Position.start⟩

/-- What is met when the tokens have run out: their last one if it is an end of input. -/
def final (tokens : List Token) : Token :=
  (tokens.getLast?.filter (·.kind == .eof)).getD (endOf tokens)

/-- The tokens before the first end of input, that end, and what is behind it. -/
theorem end_cases (tokens : List Token) :
    (∀ t ∈ tokens, t.kind ≠ .eof) ∨
    ∃ before eof behind, tokens = before ++ eof :: behind ∧
      (∀ t ∈ before, t.kind ≠ .eof) ∧ eof.kind = .eof := by
  cases hfind : tokens.find? (·.kind == .eof) with
  | none => exact .inl (by simpa using hfind)
  | some eof =>
    obtain ⟨heof, before, behind, rfl, hbefore⟩ := List.find?_eq_some_iff_append.mp hfind
    exact .inr ⟨before, eof, behind, rfl, by simpa using hbefore, by simpa using heof⟩

theorem cut_of_forall {tokens : List Token} (h : ∀ t ∈ tokens, t.kind ≠ .eof) :
    Token.cut tokens = (tokens, endOf tokens) := by
  have htake : tokens.takeWhile (·.kind != .eof) = tokens :=
    List.takeWhile_eq_self_iff.mpr (by simpa using h)
  simp [Token.cut, htake, endOf]

theorem final_of_forall {tokens : List Token} (h : ∀ t ∈ tokens, t.kind ≠ .eof) :
    final tokens = endOf tokens := by
  have hlast : tokens.getLast?.filter (·.kind == .eof) = none := by
    rw [Option.filter_eq_none_iff]
    intro t ht
    simpa using h t (List.mem_of_getLast? ht)
  rw [final, hlast, Option.getD_none]

theorem exists_endOf {tokens : List Token} (h : tokens ≠ []) :
    ∃ t ∈ tokens, t.pos = (endOf tokens).pos := by
  refine ⟨tokens.getLast h, List.getLast_mem h, ?_⟩
  rw [endOf, List.getLast?_eq_some_getLast h]
  rfl

theorem exists_before {tokens : List Token} {t : Token} (h : ∀ t ∈ tokens, t.kind ≠ .eof)
    (ht : t ∈ tokens) :
    ∃ before after, tokens = before ++ t :: after ∧ ∀ u ∈ before, u.kind ≠ .eof := by
  obtain ⟨before, after, rfl⟩ := List.append_of_mem ht
  exact ⟨before, after, rfl, fun u hu => h u (List.mem_append_left _ hu)⟩

end Token

namespace Document
variable {toks : List Token}

theorem ofTokens_cut (toks : List Token) :
    ofTokens toks = Builder.empty.build (Event.all (Token.cut toks).2 (Token.cut toks).1) := rfl

theorem ofTokens_of_end {eof : Token} (heof : eof.kind = .eof) (behind : List Token)
    (h : ∀ t ∈ toks, t.kind ≠ .eof) :
    ofTokens (toks ++ eof :: behind) = Builder.empty.build (Event.all eof toks) := by
  rw [ofTokens_cut, Token.cut_append h heof]

theorem ofTokens_of_forall (h : ∀ t ∈ toks, t.kind ≠ .eof) :
    ofTokens toks = Builder.empty.build (Event.all (Token.endOf toks) toks) := by
  rw [ofTokens_cut, Token.cut_of_forall h]

/-- It makes no difference that tokens are cut before they are read. -/
theorem ofTokens_eq_read (toks : List Token) :
    ofTokens toks = Builder.empty.read (Token.final toks) toks := by
  rcases Token.end_cases toks with h | ⟨before, eof, behind, rfl, hbefore, heof⟩
  · rw [ofTokens_of_forall h, Token.final_of_forall h, Builder.read_eq_build rfl h]
  · rw [ofTokens_of_end heof behind hbefore, Builder.read_append heof _ behind hbefore]

/-- Any tokens, also ones that no text has, are read up to their first end of input: what stands
    behind it makes no difference, whether or not it is cut off before. Tokens without an end are read
    as if one stood behind them, where the last of them starts. When they make no document, one of the
    tokens up to that end is blamed. -/
theorem ofTokens_halts (toks : List Token) :
    ofTokens toks = Builder.empty.read (Token.final toks) toks ∧
    (∀ eof behind, eof.kind = .eof → ofTokens (toks ++ eof :: behind) = ofTokens (toks ++ [eof])) ∧
    ((∀ t ∈ toks, t.kind ≠ .eof) → ofTokens toks = ofTokens (toks ++ [Token.endOf toks])) ∧
    ∀ e, ofTokens toks = .error e → ∃ before t after, toks = before ++ t :: after ∧
      (∀ u ∈ before, u.kind ≠ .eof) ∧ e.pos = t.pos := by
  refine ⟨ofTokens_eq_read toks, ?_, ?_, ?_⟩
  · intro eof behind heof
    rcases Token.end_cases toks with h | ⟨before, eof', between, rfl, hbefore, heof'⟩
    · rw [ofTokens_of_end heof behind h, ofTokens_of_end heof [] h]
    · -- what is added stands behind the first end of input
      rw [List.append_assoc, List.append_assoc, List.cons_append, List.cons_append,
        ofTokens_of_end heof' _ hbefore, ofTokens_of_end heof' _ hbefore]
  · intro h
    rw [ofTokens_of_forall h, ofTokens_of_end rfl [] h]
  · intro e he
    rcases Token.end_cases toks with h | ⟨before, eof, behind, rfl, hbefore, heof⟩
    · rw [ofTokens_of_forall h] at he
      obtain ⟨t, ht, hpos⟩ := Builder.build_error rfl he
      have hne : toks ≠ [] := by
        rintro rfl
        rw [Event.all, Builder.build_nil] at he
        cases he
      obtain ⟨u, hu, hpos⟩ : ∃ u ∈ toks, e.pos = u.pos := by
        rcases List.mem_append.mp ht with ht | ht
        · exact ⟨t, ht, hpos⟩
        · obtain rfl := List.mem_singleton.mp ht
          obtain ⟨u, hu, hend⟩ := Token.exists_endOf hne
          exact ⟨u, hu, hpos.trans hend.symm⟩
      obtain ⟨before, after, heq, hbefore⟩ := Token.exists_before h hu
      exact ⟨before, u, after, heq, hbefore, hpos⟩
    · rw [ofTokens_of_end heof behind hbefore] at he
      obtain ⟨t, ht, hpos⟩ := Builder.build_error heof he
      rcases List.mem_append.mp ht with ht | ht
      · obtain ⟨first, after, rfl, hfirst⟩ := Token.exists_before hbefore ht
        exact ⟨first, t, after ++ eof :: behind, by simp, hfirst, hpos⟩
      · obtain rfl := List.mem_singleton.mp ht
        exact ⟨before, t, behind, rfl, hbefore, hpos⟩

/-- A closing tag that is cut off before its name. -/
theorem ofTokens_halts_slash :
    let toks : List Token := [⟨.leftBrace, .none, ⟨1, 1, 0⟩⟩, ⟨.slash, .none, ⟨1, 2, 1⟩⟩]
    let eof : Token := ⟨.eof, .none, ⟨1, 3, 2⟩⟩
    let fault : ParseError := ⟨.unexpected "closing tag name" "end of input", ⟨1, 2, 1⟩⟩
    ofTokens toks = .error fault ∧
      Builder.empty.read (Token.final toks) toks = .error fault ∧
      ofTokens (toks ++ eof :: toks) = ofTokens (toks ++ [eof]) ∧
      ofTokens (toks ++ [Token.endOf toks]) = .error fault ∧
      ∃ before t after, toks = before ++ t :: after ∧ (∀ u ∈ before, u.kind ≠ .eof) ∧
        fault.pos = t.pos := by
  intro toks eof fault
  obtain ⟨hread, hmore, hnone, hblamed⟩ := ofTokens_halts toks
  have hends : ∀ t ∈ toks, t.kind ≠ .eof := by decide
  have hfault : ofTokens toks = .error fault := by
    rw [ofTokens_of_forall hends, Event.all_cons_error (by rfl)]
    rfl
  exact ⟨hfault, hread ▸ hfault, hmore eof toks rfl, hnone hends ▸ hfault, hblamed fault hfault⟩

end Document

end BraceTemplate
