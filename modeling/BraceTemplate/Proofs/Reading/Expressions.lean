import BraceTemplate.Expression
import BraceTemplate.Proofs.Blanks
import BraceTemplate.Proofs.Lexing.Lexemes
import BraceTemplate.Proofs.Printing.Spelling

/- The expression of a spelling. The reader of documents writes an interpolation as the text of
   its spelling, and the reader of expressions takes that text up again. The text has no blank at
   either end and no brace in front, so its braces are put around it as it is
   (`Spelling.Reads.bracedText`), and in braces it is cut into the symbols of the spelling. On
   these both readers do the same: a call of the one is a call of the other
   (`Expression.readCalls_of_leads`). So the text is read as `Spelling.expression` says, and only
   the path of its head can be refused (`Spelling.Reads.read`). -/
namespace BraceTemplate

open Json (Value)

namespace Lexer

/-! Words end tight. -/

/-- Nothing is left for the word, or what is left ends tight. -/
def TightFor (mode : WordMode) (text : List Char) : Prop :=
  mode = .path ∧ text = [] ∨ Text.EndsTight text

/-- A character of the word that is no blank may be its last. -/
theorem TightFor.over {mode : WordMode} {c : Char} {text : List Char}
    (hc : Text.isWhitespace c = false) (h : TightFor mode text) : Text.EndsTight (c :: text) := by
  rcases h with ⟨-, rfl⟩ | h
  · exact ⟨[], c, rfl, hc⟩
  · exact h.behind [c]

/-- Inside a bracket the word goes on. -/
theorem TightFor.inside {mode : WordMode} {text : List Char} (h : TightFor mode text)
    (hmode : mode ≠ .path) (cs : List Char) : Text.EndsTight (cs ++ text) := by
  rcases h with ⟨hpath, -⟩ | h
  · exact absurd hpath hmode
  · exact h.behind cs

/-- A text that is a word to its end ends tight: with a character of words or with the end of a
    bracket. -/
theorem wordLength_tight {ns : Bool} {mode : WordMode} {taken n : Nat} {text : List Char}
    (h : wordLength ns mode taken text = .ok n) (hn : n = taken + text.length) :
    TightFor mode text := by
  fun_induction wordLength ns mode taken text with
  | case1 => exact .inl ⟨rfl, rfl⟩
  | case2 ns taken c rest hc ih =>
    exact .inr ((ih h (by grind)).over (isWhitespace_of_isWordChar hc))
  | case3 ns taken rest _ ih => exact .inr ((ih h (by grind)).inside (by simp) ['['])
  | case4 ns taken c rest _ _ hmark ih =>
    simp only [Bool.and_eq_true, decide_eq_true_eq] at hmark
    obtain ⟨⟨rfl, -⟩, -⟩ := hmark
    exact .inr ((ih h (by grind)).over (by decide))
  | case5 ns taken c rest =>
    obtain rfl := Except.ok.inj h
    rw [List.length_cons] at hn
    omega
  | case6 => cases h
  | case7 ns opened taken rest ih => exact .inr ((ih h (by grind)).over (by decide))
  | case8 ns opened taken rest _ ih => exact .inr ((ih h (by grind)).inside (by simp) ['"'])
  | case9 ns opened taken c rest _ _ ih => exact .inr ((ih h (by grind)).inside (by simp) [c])
  | case10 => cases h
  | case11 => cases h
  | case12 ns opened taken c rest ih =>
    exact .inr ((ih h (by grind)).inside (by simp) ['\\', c])
  | case13 ns opened taken rest _ ih => exact .inr ((ih h (by grind)).inside (by simp) ['"'])
  | case14 ns opened taken c rest _ _ ih => exact .inr ((ih h (by grind)).inside (by simp) [c])

theorem WordToken.tight {ns : Bool} {w : List Char} {x : Symbol} (h : WordToken ns w x) :
    Text.EndsTight w := by
  obtain ⟨⟨c, tail, rfl, hc, hwhole⟩, -⟩ := h
  have hlength := hwhole [] (by simp [EndsWord])
  rw [List.append_nil] at hlength
  exact (wordLength_tight hlength (Nat.add_comm _ _)).over hc.2.1

/-! Sources in braces. -/

/-- An opening brace that starts no comment. -/
theorem LexesAs.brace {text rest : List Char} {xs : List Symbol} {b : List Bool}
    (hopen : ¬ ['!', '-', '-'] <+: text ++ rest) (h : LexesAs [false] text xs b rest) :
    LexesAs [] ('\x7b' :: text) ((.leftBrace, .none) :: xs) b rest := by
  intro p
  obtain ⟨toks, hlex, rfl⟩ := h (p.through ['\x7b'])
  exact ⟨_, (Lexes.brace hopen).append hlex, rfl⟩

/-- A source that is cut into symbols to its end has tokens with these symbols, and the end of
    input behind them. -/
theorem LexesAs.tokenize {source : String} {xs : List Symbol}
    (h : LexesAs [] source.toList xs [] []) :
    ∃ (toks : List Token) (eof : Token), tokenize source = .ok (toks ++ [eof]) ∧
      toks.map Token.symbol = xs ∧ (∀ t ∈ toks, t.kind ≠ .eof) ∧ eof.kind = .eof := by
  obtain ⟨toks, hlex, htoks⟩ := h Position.start
  have hscan : BraceTemplate.tokenize source = .ok _ := hlex.to_end
  obtain ⟨init, hinit, hends⟩ := scan_ends hscan
  obtain ⟨rfl, -⟩ := List.append_inj' hinit rfl
  exact ⟨toks, _, hscan, htoks, hends, rfl⟩

end Lexer

namespace Spelling

open Lexer
open Text (EndsTight)

/-! The text of a spelling in braces. -/

theorem endsTight_quoted (s : String) : EndsTight (Json.Writer.quoted s) :=
  ⟨'"' :: s.toList.flatMap Json.Writer.escapeChar, '"', rfl, by decide⟩

theorem Operand.Reads.tight {ns : Bool} {o : Operand} (h : o.Reads ns) : EndsTight o.text.toList := by
  rcases h.written with ⟨s, -, htext⟩ | hword
  · rw [htext]
    exact endsTight_quoted s
  · exact hword.tight

theorem Argument.Reads.tight {a : Argument} (h : a.Reads) : EndsTight a.text.toList := by
  have hvalue := h.value.tight
  cases hname : a.name with
  | none => simpa [Argument.text, hname] using hvalue
  | some name => simpa [Argument.text, hname] using (hvalue.behind ['=']).behind name.toList

theorem Call.Reads.tight {c : Call} (h : c.Reads) : EndsTight (callChars c) := by
  refine EndsTight.behind ?_ [' ', '|', ' ']
  cases hargs : c.arguments with
  | nil => simpa [argumentChars] using h.filter.tight
  | cons a as =>
    have hall : ∀ b ∈ a :: as, b.Reads := hargs ▸ h.arguments
    have hfirst : EndsTight (':' :: a.text.toList) := (hall a List.mem_cons_self).tight.behind [':']
    refine EndsTight.behind (hfirst.flatMap fun b hb => ?_) c.filter.toList
    exact (hall b (List.mem_cons_of_mem a hb)).tight.behind [',']

theorem Reads.tight {s : Spelling} (h : s.Reads) : EndsTight s.text.toList := by
  rw [text_toList]
  exact h.head.tight.flatMap fun c hc => (h.calls c hc).tight

/-- An operand starts with a quote or as a word does. -/
theorem Operand.Reads.starts {ns : Bool} {o : Operand} (h : o.Reads ns) :
    ∃ c tail, o.text.toList = c :: tail ∧ Text.isWhitespace c = false ∧ c ∉ ['\x7b', '!'] := by
  rcases h.written with ⟨s, -, htext⟩ | ⟨⟨c, tail, htext, ⟨hmark, hblank, -, hstart⟩, -⟩, -⟩
  · exact ⟨'"', _, htext, by decide, by decide⟩
  · refine ⟨c, tail, htext, hblank, ?_⟩
    simp only [List.mem_cons, List.not_mem_nil, or_false]
    rintro (rfl | rfl)
    · simp [punctuation?] at hmark
    · exact absurd hstart (by decide)

theorem Reads.starts {s : Spelling} (h : s.Reads) :
    ∃ c tail, s.text.toList = c :: tail ∧ Text.isWhitespace c = false ∧ c ∉ ['\x7b', '!'] := by
  obtain ⟨c, tail, htext, hc⟩ := h.head.starts
  exact ⟨c, tail ++ s.calls.flatMap callChars, by rw [text_toList, htext, List.cons_append], hc⟩

/-- Braces are put around a text without blanks at its ends as it is. -/
theorem bracedText_of_tight {s : String} {c : Char} {tail : List Char} (hs : s.toList = c :: tail)
    (hblank : Text.isWhitespace c = false) (hbrace : c ≠ '\x7b') (htight : EndsTight s.toList) :
    (Expression.bracedText s).toList = '\x7b' :: (s.toList ++ ['\x7d']) := by
  have htrim : Text.trim s.toList = c :: tail := by
    rw [hs]
    exact Text.trim_of_tight hblank (hs ▸ htight)
  unfold Expression.bracedText
  simp only [htrim]
  split
  · rename_i heq
    exact absurd (List.cons.inj heq).1 hbrace
  · rw [String.toList_ofList, hs]

theorem Reads.bracedText {s : Spelling} (h : s.Reads) :
    (Expression.bracedText s.text).toList = '\x7b' :: (s.text.toList ++ ['\x7d']) := by
  obtain ⟨c, tail, htext, hblank, hc⟩ := h.starts
  exact bracedText_of_tight htext hblank (fun e => hc (by simp [e])) h.tight

/-! What a spelling means. -/

/-- The value of an operand, and whether it is a reference. -/
def Operand.meaning : Operand → Value × Bool
  | .word w => (.string w, true)
  | .literal v => (Expression.literalValue v, false)

/-- An operand as a head: a word is a path, and a literal stands for its value. -/
def Operand.asHead : Operand → Except ExpressionError (String × List PathSegment × Option Value)
  | .word w => (Expression.readPath w).map fun path => (w, path, none)
  | .literal v => .ok ((Expression.literalValue v).text, [], some (Expression.literalValue v))

def Argument.meaning (a : Argument) : CallArgument := ⟨a.name, a.value.meaning.1, a.value.meaning.2⟩

def Call.meaning (c : Call) : FilterCall := ⟨c.filter, c.arguments.map Argument.meaning⟩

end Spelling

/-- The expression that a spelling stands for, unless its head is no path. -/
def Spelling.expression (s : Spelling) : Except ExpressionError Expression :=
  s.head.asHead.map fun (text, path, literal) => ⟨text, path, literal, s.calls.map Call.meaning⟩

namespace Expression

open Event (chainSymbols chainSymbols_cons chain_starts further_starts)
open Spelling (Operand Argument Call furtherSymbols argumentSymbols furtherSymbols_cons literalKind)

variable {ts r : List Token}

/-! Symbols are read. -/

theorem literalKind_isLiteral (v : Payload) : (literalKind v).isLiteral = true := by
  cases v <;> rfl

theorem literalKind_ne_ident (v : Payload) : literalKind v ≠ .ident := by
  cases v <;> simp [literalKind]

theorem operand_of_symbol {t : Token} {o : Operand} (h : t.symbol = o.symbol) :
    operand (some t) = .ok o.meaning := by
  obtain ⟨kind, payload, pos⟩ := t
  cases o with
  | word w =>
    obtain ⟨rfl, rfl⟩ := Prod.mk.inj h
    rfl
  | literal v =>
    obtain ⟨hkind, hpayload⟩ := Prod.mk.inj h
    obtain rfl : payload = v := hpayload
    obtain rfl : kind = literalKind payload := hkind
    simp [operand, literalKind_ne_ident, literalKind_isLiteral, Operand.meaning]

/-- One argument in front of what is no equal sign. -/
theorem readArguments_of_leads {filter : String} {done : List CallArgument} {a : Argument} {t : Token}
    (ht : t.kind ≠ .equal) (h : Leads a.symbols ts (t :: r)) :
    readArguments filter done ts = readMoreArguments filter (done ++ [a.meaning]) (t :: r) := by
  obtain ⟨name, value⟩ := a
  cases name with
  | none =>
    obtain ⟨v, _, rfl, hv, h⟩ := Leads.cons_iff.mp h
    obtain rfl := Leads.nil_iff.mp h
    rw [readArguments.eq_def]
    simp [operand_of_symbol hv, ht, Argument.meaning]
  | some n =>
    obtain ⟨word, _, rfl, hword, h⟩ := Leads.cons_iff.mp h
    obtain ⟨eq, _, rfl, heq, h⟩ := Leads.cons_iff.mp h
    obtain ⟨v, _, rfl, hv, h⟩ := Leads.cons_iff.mp h
    obtain rfl := Leads.nil_iff.mp h
    obtain ⟨hkind, htext⟩ := Prod.mk.inj hword
    have hn : word.text = n := by simp [Token.text, htext]
    have hequal : eq.kind = .equal := (Prod.mk.inj heq).1
    simp [readArguments, operand_of_symbol hv, hkind, hequal, hn, Argument.meaning]

/-- Calls are read up to their closing brace, which is left. -/
def ReadsCalls (cs : List Call) (r ts : List Token) : Prop :=
  ∃ close, close.kind = .rightBrace ∧ readCalls ts = .ok (cs.map Call.meaning, close :: r)

theorem readMoreArguments_of_leads {cs : List Call}
    (hcalls : ∀ ts, Leads (chainSymbols cs) ts r → ReadsCalls cs r ts)
    (filter : String) (done : List CallArgument) {as : List Argument}
    (h : Leads (furtherSymbols as ++ chainSymbols cs) ts r) :
    ∃ close, close.kind = .rightBrace ∧ readMoreArguments filter done ts =
      .ok (⟨filter, done ++ as.map Argument.meaning⟩ :: cs.map Call.meaning, close :: r) := by
  induction as generalizing done ts with
  | nil =>
    obtain ⟨close, hclose, hread⟩ := hcalls ts h
    obtain ⟨t, ts', rfl, ht⟩ := chain_starts h
    -- no comma follows, so the call ends here and the calls behind it are read
    have hcomma : t.kind ≠ .comma := by rcases ht with ht | ht <;> simp [ht]
    refine ⟨close, hclose, ?_⟩
    rw [readMoreArguments, if_neg hcomma, hread, List.map_nil, List.append_nil]
    rfl
  | cons a as ih =>
    rw [furtherSymbols_cons, List.cons_append, List.append_assoc] at h
    obtain ⟨comma, _, rfl, hcomma, h⟩ := Leads.cons_iff.mp h
    obtain ⟨behind, ha, h⟩ := Leads.append_iff.mp h
    obtain ⟨t, ts', rfl, ht⟩ := further_starts h
    obtain ⟨close, hclose, hread⟩ := ih (done ++ [a.meaning]) h
    refine ⟨close, hclose, ?_⟩
    rw [readMoreArguments, if_pos (Prod.mk.inj hcomma).1, readArguments_of_leads ht ha, hread,
      List.append_assoc, List.singleton_append, List.map_cons]

/-- The symbols of calls are read as the calls. -/
theorem readCalls_of_leads {cs : List Call} (h : Leads (chainSymbols cs) ts r) :
    ReadsCalls cs r ts := by
  induction cs generalizing ts with
  | nil =>
    obtain ⟨close, _, rfl, hclose, h⟩ := Leads.cons_iff.mp h
    obtain rfl := Leads.nil_iff.mp h
    have hbrace : close.kind = .rightBrace := (Prod.mk.inj hclose).1
    exact ⟨close, hbrace, by simp [readCalls.eq_def, hbrace]⟩
  | cons c cs ih =>
    obtain ⟨filter, as⟩ := c
    simp only [chainSymbols_cons, Call.symbols, List.cons_append] at h
    obtain ⟨pipe, _, rfl, hpipe, h⟩ := Leads.cons_iff.mp h
    obtain ⟨name, _, rfl, hname, h⟩ := Leads.cons_iff.mp h
    obtain ⟨hident, htext⟩ := Prod.mk.inj hname
    have hfilter : name.text = filter := by simp [Token.text, htext]
    have hpipe : pipe.kind = .pipe := (Prod.mk.inj hpipe).1
    cases as with
    | nil =>
      obtain ⟨close, hclose, hread⟩ := ih h
      obtain ⟨t, ts', rfl, ht⟩ := chain_starts h
      -- no colon follows the name, so the call has no arguments
      have hcolon : t.kind ≠ .colon := by rcases ht with ht | ht <;> simp [ht]
      refine ⟨close, hclose, ?_⟩
      simp [readCalls, hpipe, hident, hcolon, hread, hfilter, Except.map, Call.meaning]
    | cons a as =>
      rw [argumentSymbols, List.cons_append, List.append_assoc] at h
      obtain ⟨colon, _, rfl, hcolon, h⟩ := Leads.cons_iff.mp h
      obtain ⟨behind, ha, h⟩ := Leads.append_iff.mp h
      obtain ⟨t, ts', rfl, ht⟩ := further_starts h
      have hcolon : colon.kind = .colon := (Prod.mk.inj hcolon).1
      obtain ⟨close, hclose, hread⟩ :=
        readMoreArguments_of_leads (fun _ => ih) filter [a.meaning] h
      refine ⟨close, hclose, ?_⟩
      simp [readCalls, hpipe, hident, hcolon, hfilter, readArguments_of_leads ht ha, hread,
        Call.meaning]

theorem readHead_of_symbol {t : Token} {o : Operand} (h : t.symbol = o.symbol) :
    readHead (some t) = o.asHead := by
  obtain ⟨kind, payload, pos⟩ := t
  cases o with
  | word w =>
    obtain ⟨rfl, rfl⟩ := Prod.mk.inj h
    rfl
  | literal v =>
    obtain ⟨hkind, hpayload⟩ := Prod.mk.inj h
    obtain rfl : payload = v := hpayload
    obtain rfl : kind = literalKind payload := hkind
    simp [readHead, literalKind_ne_ident, literalKind_isLiteral, Operand.asHead]

/-- The symbols of a spelling in braces are read as its expression. -/
theorem ofTokens_of_symbols {s : Spelling} {toks : List Token}
    (h : toks.map Token.symbol = (.leftBrace, .none) :: (s.symbols ++ [(.rightBrace, .none)])) :
    ofTokens toks = s.expression := by
  obtain ⟨brace, toks, rfl, hbrace, h⟩ := List.map_eq_cons_iff.mp h
  obtain ⟨head, toks, rfl, hhead, h⟩ := List.map_eq_cons_iff.mp h
  obtain ⟨close, hclose, hread⟩ := readCalls_of_leads ⟨toks, (List.append_nil toks).symm, h⟩
  have hbrace : brace.kind = .leftBrace := (Prod.mk.inj hbrace).1
  have hclosed : closed [close] = .ok () := by simp [closed, hclose]
  rw [ofTokens, if_pos hbrace, List.head?_cons, List.tail_cons, readHead_of_symbol hhead,
    Spelling.expression]
  cases s.head.asHead with
  | error e => rfl
  | ok head =>
    show (readCalls toks >>= fun read => closed read.2 >>= fun _ => _) = _
    rw [hread]
    show (closed [close] >>= fun _ => _) = _
    rw [hclosed]
    rfl

end Expression

namespace Spelling

open Lexer

/-- In its braces the text of a spelling is cut into the symbols of the spelling. -/
theorem Reads.tokenize {s : Spelling} (h : s.Reads) :
    ∃ (toks : List Token) (eof : Token),
      tokenize (Expression.bracedText s.text) = .ok (toks ++ [eof]) ∧
      toks.map Token.symbol = (.leftBrace, .none) :: (s.symbols ++ [(.rightBrace, .none)]) ∧
      (∀ t ∈ toks, t.kind ≠ .eof) ∧ eof.kind = .eof := by
  apply LexesAs.tokenize
  rw [h.bracedText]
  refine LexesAs.brace ?_ h.lexes
  obtain ⟨c, tail, htext, -, hc⟩ := h.starts
  rw [htext]
  intro hprefix
  obtain ⟨rfl, -⟩ := List.cons_prefix_cons.mp hprefix
  exact hc (by simp)

/-- The text of a spelling is read as the expression of the spelling. -/
theorem Reads.read {s : Spelling} (h : s.Reads) : Expression.read s.text = s.expression := by
  obtain ⟨toks, eof, htokens, hsymbols, hinit, heof⟩ := h.tokenize
  have htake : (toks ++ [eof]).takeWhile (·.kind != .eof) = toks := by
    rw [List.takeWhile_append_of_pos (by simpa using hinit)]
    simp [heof]
  simp only [Expression.read, htokens, htake]
  exact Expression.ofTokens_of_symbols hsymbols

/-- Only the path of its head can be refused. -/
theorem expression_ok_or_path (s : Spelling) :
    (∃ e, s.expression = .ok e) ∨ ∃ w fault, s.expression = .error (.invalidPath w fault) := by
  unfold expression
  cases s.head with
  | literal v => exact .inl ⟨_, rfl⟩
  | word w =>
    simp only [Operand.asHead, Expression.readPath]
    cases Path.read w with
    | ok path => exact .inl ⟨_, rfl⟩
    | error fault => exact .inr ⟨w, fault, rfl⟩

end Spelling
end BraceTemplate
