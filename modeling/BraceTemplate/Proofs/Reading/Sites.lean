import BraceTemplate.Proofs.Parsing.Places
import BraceTemplate.Proofs.Reading.Expressions

/- The interpolations of a parsed document are read again as expressions. Each of them is written
   among the tokens of the source, as a spelling between braces (`Interpolation.WrittenIn`), and
   the lexer's words and integers are read again where they stood, so the spelling is one that
   reads (`Spelling.reads_of_lexed`). Hence the text of the interpolation is read as the
   expression that its tokens say, and as the value of an attribute it keeps its text
   (`Document.parse_reads_sites`). -/
namespace BraceTemplate

/-! Where interpolations are written. -/

namespace Interpolation

/-- The interpolation is written among the tokens. -/
def WrittenIn (i : Interpolation) (toks : List Token) : Prop :=
  ∃ (s : Spelling) (before used after : List Token),
    toks = before ++ (used ++ after) ∧ i.Written s used

theorem Writes.written {toks : List Token} {is : List Interpolation} (h : Writes toks is)
    {i : Interpolation} (hi : i ∈ is) : i.WrittenIn toks := by
  induction h with
  | nil => cases hi
  | skip t h ih =>
    obtain ⟨s, before, used, after, rfl, hused⟩ := ih hi
    exact ⟨s, t :: before, used, after, rfl, hused⟩
  | @cons s used ts i' is h hrest ih =>
    rcases List.mem_cons.mp hi with rfl | hi
    · exact ⟨s, [], used, ts, rfl, h⟩
    · obtain ⟨s', before, used', after, rfl, hused⟩ := ih hi
      exact ⟨s', used ++ before, used', after, by simp, hused⟩

theorem ComeFrom.written {toks : List Token} {sites : List Interpolation} (h : ComeFrom toks sites)
    {i : Interpolation} (hi : i ∈ sites) : i.WrittenIn toks := by
  obtain ⟨written, hwritten, hsub⟩ := h
  exact hwritten.written (hsub.subset hi)

end Interpolation

/-! Spellings of what the lexer makes. -/

namespace Spelling

open Lexer

/-- The floats among the symbols are finite, and the text of each is read as the float. -/
def FloatsRead (xs : List Symbol) : Prop :=
  ∀ x, (.number, .float x) ∈ xs → x.isFinite = true ∧ Double.read? x.fractionText.toList = some x

theorem FloatsRead.mono {xs ys : List Symbol} (h : FloatsRead ys) (hsub : xs ⊆ ys) : FloatsRead xs :=
  fun x hx => h x (hsub hx)

/-- Symbols that neither open nor close braces and are no pipe leave the braces alone. -/
theorem lexedAll_calm {xs ys : List Symbol} {b : List Bool}
    (hcalm : ∀ x ∈ xs, x.1 ∉ [.leftBrace, .rightBrace, .pipe]) (h : LexedAll b (xs ++ ys)) :
    (∀ x ∈ xs, Lexed (!b.headD false) x) ∧ LexedAll b ys := by
  induction xs with
  | nil => exact ⟨by simp, h⟩
  | cons x xs ih =>
    obtain ⟨hx, h⟩ := h
    have hsame : bracesAfter x.1 b = b := by
      have hkind := hcalm x List.mem_cons_self
      simp only [List.mem_cons, List.not_mem_nil, or_false, not_or] at hkind
      unfold bracesAfter
      split <;> simp_all
    rw [hsame] at h
    obtain ⟨hxs, hys⟩ := ih (fun y hy => hcalm y (List.mem_cons_of_mem x hy)) h
    exact ⟨fun y hy => (List.mem_cons.mp hy).elim (fun e => e ▸ hx) (hxs y), hys⟩

theorem Operand.reads_of_lexed {ns : Bool} {o : Operand} (h : Lexed ns o.symbol)
    (hfloats : FloatsRead [o.symbol]) : o.Reads ns := by
  cases o with
  | word w => exact h
  | literal v =>
    cases v with
    | int n => exact h
    | float x => exact hfloats x List.mem_cons_self
    | str | bool | none => trivial

theorem Argument.reads_of_lexed {a : Argument} (h : ∀ x ∈ a.symbols, Lexed false x)
    (hfloats : FloatsRead a.symbols) : a.Reads := by
  have hvalue : a.value.symbol ∈ a.symbols := by
    unfold Argument.symbols
    split <;> simp
  refine ⟨fun n hn => ?_, ?_⟩
  · exact h (.ident, .str n) (by simp [Argument.symbols, Option.mem_def.mp hn])
  · exact Operand.reads_of_lexed (h _ hvalue) (hfloats.mono (by simpa using hvalue))

variable {f : Bool} {outer : List Bool} {ys : List Symbol}

/-- The pipe of a call stands in the innermost braces, so behind it no word holds a namespace
    mark. -/
theorem Call.reads_of_lexed {c : Call} (hfloats : FloatsRead c.symbols)
    (h : LexedAll (f :: outer) (c.symbols ++ ys)) : c.Reads ∧ LexedAll (true :: outer) ys := by
  obtain ⟨-, hname, h⟩ := h
  obtain ⟨hargs, hys⟩ := lexedAll_calm (argumentSymbols_calm c.arguments) h
  refine ⟨⟨hname, fun a ha => Argument.reads_of_lexed (fun x hx => ?_) (hfloats.mono ?_)⟩, hys⟩
  · exact hargs x (symbols_subset_argumentSymbols ha hx)
  · intro x hx
    exact List.mem_cons_of_mem _ (List.mem_cons_of_mem _ (symbols_subset_argumentSymbols ha hx))

theorem calls_of_lexed {cs : List Call} (hfloats : FloatsRead (cs.flatMap Call.symbols))
    (h : LexedAll (f :: outer) (cs.flatMap Call.symbols ++ ys)) : ∀ c ∈ cs, c.Reads := by
  induction cs generalizing f with
  | nil => simp
  | cons c cs ih =>
    rw [List.flatMap_cons, List.append_assoc] at h
    rw [List.flatMap_cons] at hfloats
    obtain ⟨hc, h⟩ := Call.reads_of_lexed (hfloats.mono (List.subset_append_left _ _)) h
    have hcs := ih (hfloats.mono (List.subset_append_right _ _)) h
    exact fun d hd => (List.mem_cons.mp hd).elim (fun e => e ▸ hc) (hcs d)

/-- A spelling whose symbols the lexer made behind an opening brace reads. -/
theorem reads_of_lexed {s : Spelling} (hfloats : FloatsRead s.symbols)
    (h : LexedAll (false :: outer) (s.symbols ++ ys)) : s.Reads := by
  obtain ⟨hhead, h⟩ := lexedAll_calm (by simpa using s.head.calm :
    ∀ x ∈ [s.head.symbol], x.1 ∉ [.leftBrace, .rightBrace, .pipe]) h
  refine ⟨?_, calls_of_lexed (hfloats.mono (List.subset_cons_self _ _)) h⟩
  exact Operand.reads_of_lexed (hhead _ List.mem_cons_self) (hfloats.mono (by simp [symbols]))

end Spelling

/-! Interpolations as attributes. -/

/-- A tag with the text as the interpolation that its one attribute holds. -/
def Interpolation.probe (raw : String) : String := "\x7bx v=\x7b" ++ raw ++ "\x7d /\x7d"

/-- The symbols of the tag around the spelling. -/
def Spelling.probeSymbols (s : Spelling) : List Symbol :=
  (.leftBrace, .none) :: (.ident, .str "x") :: (.ident, .str "v") :: (.equal, .none) ::
    (.leftBrace, .none) :: ((s.symbols ++ [(.rightBrace, .none)]) ++ Tag.endSymbols true)

namespace Spelling
variable {s : Spelling}

open Lexer

theorem Reads.lexes_probe (h : s.Reads) :
    LexesAs [] (Interpolation.probe s.text).toList s.probeSymbols [] [] := by
  have hends : LexesAs [false] [' ', '/', '\x7d'] (Tag.endSymbols true) [] [] :=
    .blank (.mark '/' rfl (.mark '\x7d' rfl .nil))
  have hvalue : LexesAs [false, false] ((s.text.toList ++ ['\x7d']) ++ [' ', '/', '\x7d'])
      ((s.symbols ++ [(.rightBrace, .none)]) ++ Tag.endSymbols true) [] [] := h.lexes.append hends
  have hv : LexesAs [false] "v".toList [(.ident, .str "v")] [false]
      (('=' :: '\x7b' :: ((s.text.toList ++ ['\x7d']) ++ [' ', '/', '\x7d'])) ++ []) :=
    .word (wordToken_name (by decide) (by decide)) (endsWord_mark (by simp))
  have hx : LexesAs [false] "x".toList [(.ident, .str "x")] [false] ((' ' :: ("v".toList ++
      '=' :: '\x7b' :: ((s.text.toList ++ ['\x7d']) ++ [' ', '/', '\x7d']))) ++ []) :=
    .word (wordToken_name (by decide) (by decide)) (endsWord_mark (by simp))
  have hgroup := hx.append (.blank (hv.append (.mark '=' rfl (.mark '\x7b' rfl hvalue))))
  have htext : (Interpolation.probe s.text).toList = '\x7b' :: ("x".toList ++ ' ' :: ("v".toList ++
      '=' :: '\x7b' :: ((s.text.toList ++ ['\x7d']) ++ [' ', '/', '\x7d']))) := by
    simp [Interpolation.probe]
  rw [htext]
  exact LexesAs.brace (by simp) hgroup

/-- As the value of an attribute the text of a spelling is an interpolation with this text. -/
theorem Reads.parse_probe (h : s.Reads) :
    ∃ p q, Document.parse (Interpolation.probe s.text) =
      .ok ⟨⟨none, none, []⟩, [.tag ⟨"x", [("v", .interpolation ⟨s.text, p⟩)], true, q⟩ []]⟩ := by
  obtain ⟨toks, eof, htokens, hsymbols, hends, heof⟩ := h.lexes_probe.tokenize
  obtain ⟨brace, toks, rfl, hbrace, hsymbols⟩ := List.map_eq_cons_iff.mp hsymbols
  obtain ⟨x, toks, rfl, hx, hsymbols⟩ := List.map_eq_cons_iff.mp hsymbols
  obtain ⟨v, toks, rfl, hv, hsymbols⟩ := List.map_eq_cons_iff.mp hsymbols
  obtain ⟨eq, toks, rfl, heq, hsymbols⟩ := List.map_eq_cons_iff.mp hsymbols
  obtain ⟨inner, toks, rfl, hinner, hsymbols⟩ := List.map_eq_cons_iff.mp hsymbols
  obtain ⟨value, ends, rfl, hvalue, hself⟩ := List.map_eq_append_iff.mp hsymbols
  have hattrs : Tag.WritesAttrs (v :: eq :: ((inner :: value) ++ []))
      [("v", .interpolation ⟨s.text, inner.pos⟩)] :=
    .given hv heq (.interpolation (.intro hinner hvalue)) .nil
  have htag : Tag.Written (brace :: x :: ((v :: eq :: ((inner :: value) ++ [])) ++ ends))
      ⟨"x", [("v", .interpolation ⟨s.text, inner.pos⟩)], true, brace.pos⟩ :=
    .intro hbrace hx (by decide) hattrs hself
  have hwrites := Event.Writes.cons (.selfClosing rfl htag) .nil
  have hall := hwrites.all eof
  refine ⟨inner.pos, brace.pos, ?_⟩
  exact Document.parse_of_events htokens hends heof (by simpa using hall) rfl

end Spelling

/-! Documents. -/

/-- The interpolation stands between two braces of the tokens, and the tokens between the braces
    are those of the spelling. -/
def Interpolation.SpeltIn (toks : List Token) (s : Spelling) (i : Interpolation) : Prop :=
  ∃ (before inner after : List Token) (brace close : Token),
    toks = before ++ brace :: (inner ++ close :: after) ∧ brace.kind = .leftBrace ∧
      brace.pos = i.pos ∧ close.kind = .rightBrace ∧ inner.map Token.symbol = s.symbols ∧
      i.raw = s.text

theorem Interpolation.SpeltIn.raw_eq {toks : List Token} {s : Spelling} {i : Interpolation}
    (h : i.SpeltIn toks s) : i.raw = s.text := by
  obtain ⟨_, _, _, _, _, -, -, -, -, -, hraw⟩ := h
  exact hraw

/-- What is written among tokens of the lexer is a spelling that reads. -/
theorem Interpolation.WrittenIn.spelt {i : Interpolation} {toks behind : List Token}
    (h : i.WrittenIn toks) (hlexed : Lexer.LexedAll [] (toks.map Token.symbol))
    (hfloats : Spelling.FloatsRead (toks.map Token.symbol)) :
    ∃ s, i.SpeltIn (toks ++ behind) s ∧ s.Reads := by
  obtain ⟨s, before, _, after, rfl, ⟨hbrace, hts⟩⟩ := h
  rename_i brace ts
  obtain ⟨inner, last, rfl, hinner, hlast⟩ := List.map_eq_append_iff.mp hts
  obtain ⟨close, rfl, hclose⟩ := List.map_eq_singleton_iff.mp hlast
  refine ⟨s, ⟨before, inner, after ++ behind, brace, close, by simp, (Prod.mk.inj hbrace).1, rfl,
    (Prod.mk.inj hclose).1, hinner, rfl⟩, ?_⟩
  -- the lexer made the symbols of the spelling behind the brace
  rw [List.map_append] at hlexed
  have hgroup := (Lexer.lexedAll_append hlexed).2
  rw [List.cons_append, List.map_cons, hbrace, List.map_append, List.map_append, hinner,
    List.append_assoc] at hgroup
  refine Spelling.reads_of_lexed (hfloats.mono ?_) hgroup.2
  rw [← hinner]
  refine List.map_subset _ fun t ht => ?_
  simp [ht]

namespace Document

/-- Every interpolation of a parsed document is what stands between two braces of the source: the
    tokens there are those of a spelling, the text of the interpolation is the text of the
    spelling, and it is read as the expression of the spelling, so nothing but the path of its
    head can be refused. As the value of an attribute it keeps its text. Float literals are
    finite, and the text of each is read as the same float. -/
theorem parse_reads_sites {source : String} {toks : List Token} {d : Document} {i : Interpolation}
    (htokens : tokenize source = .ok toks) (hfloats : Spelling.FloatsRead (toks.map Token.symbol))
    (h : parse source = .ok d) (hi : i ∈ d.sites) :
    ∃ s, i.SpeltIn toks s ∧ Expression.read i.raw = s.expression ∧
      ((∃ e, Expression.read i.raw = .ok e) ∨
        ∃ path fault, Expression.read i.raw = .error (.invalidPath path fault)) ∧
      ∃ p q, parse (Interpolation.probe i.raw) =
        .ok ⟨⟨none, none, []⟩, [.tag ⟨"x", [("v", .interpolation ⟨i.raw, p⟩)], true, q⟩ []]⟩ := by
  obtain ⟨init, eof, es, b, htokens', -, hcuts, hwritten, hbuilt, rfl⟩ := parse_writes h
  obtain rfl := Except.ok.inj (htokens.symm.trans htokens')
  have hin : i.WrittenIn init := (Builder.finish_comeFrom hwritten hbuilt).written hi
  obtain ⟨s, hspelt, hreads⟩ := hin.spelt hcuts.lexed
    (hfloats.mono (List.map_subset _ (List.subset_append_left _ _)))
  refine ⟨s, hspelt, ?_⟩
  rw [hspelt.raw_eq, hreads.read]
  exact ⟨rfl, s.expression_ok_or_path, hreads.parse_probe⟩

/-- A float as a head, with a call whose argument is a named path. -/
theorem parse_reads_sites_float :
    ∃ toks d i, tokenize "\x7b1.5 | f:by=a.b\x7d" = .ok toks ∧
      Spelling.FloatsRead (toks.map Token.symbol) ∧
      parse "\x7b1.5 | f:by=a.b\x7d" = .ok d ∧ i ∈ d.sites ∧
      ∃ s, i.SpeltIn toks s ∧ Expression.read i.raw = s.expression ∧
        ((∃ e, Expression.read i.raw = .ok e) ∨
          ∃ path fault, Expression.read i.raw = .error (.invalidPath path fault)) ∧
        ∃ p q, parse (Interpolation.probe i.raw) =
          .ok ⟨⟨none, none, []⟩, [.tag ⟨"x", [("v", .interpolation ⟨i.raw, p⟩)], true, q⟩ []]⟩ := by
  obtain ⟨x, hx⟩ : ∃ x : Double, x = .finite false 6755399441055744 (-52) := ⟨_, rfl⟩
  obtain ⟨ts, hts⟩ : ∃ ts : List Token, ts =
      [⟨.leftBrace, .none, ⟨1, 1, 0⟩⟩, ⟨.number, .float x, ⟨1, 2, 1⟩⟩, ⟨.pipe, .none, ⟨1, 6, 5⟩⟩,
        ⟨.ident, .str "f", ⟨1, 8, 7⟩⟩, ⟨.colon, .none, ⟨1, 9, 8⟩⟩, ⟨.ident, .str "by", ⟨1, 10, 9⟩⟩,
        ⟨.equal, .none, ⟨1, 12, 11⟩⟩, ⟨.ident, .str "a.b", ⟨1, 13, 12⟩⟩,
        ⟨.rightBrace, .none, ⟨1, 16, 15⟩⟩] := ⟨_, rfl⟩
  have htokens : tokenize "\x7b1.5 | f:by=a.b\x7d" = .ok (ts ++ [⟨.eof, .none, ⟨1, 17, 16⟩⟩]) := by
    rw [hts, hx]
    decide +kernel
  have hfloats : Spelling.FloatsRead
      (List.map Token.symbol (ts ++ [⟨.eof, .none, ⟨1, 17, 16⟩⟩])) := by
    intro y hy
    obtain rfl : y = x := by simpa [hts, Token.symbol] using hy
    rw [hx]
    exact ⟨rfl, by decide +kernel⟩
  obtain ⟨i, hi⟩ : ∃ i : Interpolation,
      i.Written ⟨.literal (.float x), [⟨"f", [⟨some "by", .word "a.b"⟩]⟩]⟩ ts := by
    rw [hts]
    exact ⟨_, .intro rfl rfl⟩
  have hevent : Event.Written ts (.interpolation i) := .interpolation (by exact trivial) hi
  have hwrites := Event.Writes.cons hevent .nil
  rw [List.append_nil] at hwrites
  have hparse := parse_of_events htokens (by simp [hts]) rfl (hwrites.all _) rfl
  exact ⟨_, _, i, htokens, hfloats, hparse, List.mem_singleton_self i,
    parse_reads_sites htokens hfloats hparse (List.mem_singleton_self i)⟩

end Document
end BraceTemplate
