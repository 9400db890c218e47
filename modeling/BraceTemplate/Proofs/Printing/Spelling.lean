import BraceTemplate.Proofs.Lexing.Floats
import BraceTemplate.Proofs.Lexing.Strings
import BraceTemplate.Proofs.Parsing.Symbols

/- The text of a spelling is cut into its symbols. `Spelling.Reads` says that each word and each
   literal of a spelling is read as what it is; the text behind an opening brace, with the brace
   that closes it, then gives the symbols of the spelling (`Spelling.Reads.lexes`). The proof
   goes by the parts of a spelling: operands, arguments and calls. Canonical spellings are read
   in this way (`Spelling.Canonical.reads`). -/
namespace BraceTemplate

namespace Lexer

/-- Wherever it stands, the text in front of `rest` is cut into tokens with these symbols. -/
def LexesAs (b : List Bool) (text : List Char) (xs : List Symbol) (b' : List Bool)
    (rest : List Char) : Prop :=
  ∀ p, ∃ toks, Lexes p b text toks b' rest ∧ toks.map Token.symbol = xs

namespace LexesAs
variable {b b₁ b₂ : List Bool} {text text' rest : List Char} {xs xs' : List Symbol} {f : Bool}
  {outer : List Bool}

theorem nil : LexesAs b [] [] b rest := fun _ => ⟨[], Lexes.nil, rfl⟩

theorem append (h : LexesAs b text xs b₁ (text' ++ rest)) (h' : LexesAs b₁ text' xs' b₂ rest) :
    LexesAs b (text ++ text') (xs ++ xs') b₂ rest := by
  intro p
  obtain ⟨toks, hlex, htoks⟩ := h p
  obtain ⟨toks', hlex', htoks'⟩ := h' (p.through text)
  exact ⟨toks ++ toks', hlex.append hlex', by rw [List.map_append, htoks, htoks']⟩

/-- A mark of one character, and what stands behind it. -/
theorem mark (c : Char) {kind : TokenKind} (hc : punctuation? c = some kind)
    (h : LexesAs (bracesAfter kind (f :: outer)) text xs b₁ rest) :
    LexesAs (f :: outer) (c :: text) ((kind, .none) :: xs) b₁ rest := by
  intro p
  obtain ⟨toks, hlex, rfl⟩ := h (p.through [c])
  exact ⟨⟨kind, .none, p⟩ :: toks, Lexes.mark c hc hlex, rfl⟩

theorem blank (h : LexesAs (f :: outer) text xs b₁ rest) :
    LexesAs (f :: outer) (' ' :: text) xs b₁ rest := by
  intro p
  obtain ⟨toks, hlex, htoks⟩ := h (p.through [' '])
  exact ⟨toks, Lexes.blank hlex, htoks⟩

theorem word {w : List Char} {x : Symbol} (h : WordToken (!f) w x) (hrest : EndsWord (!f) rest) :
    LexesAs (f :: outer) w [x] (f :: outer) rest :=
  fun _ => ⟨_, h.lexes hrest, rfl⟩

theorem quoted (s : String) :
    LexesAs (f :: outer) (Json.Writer.quoted s) [(.string, .str s)] (f :: outer) rest :=
  fun _ => ⟨_, Lexes.quoted s, rfl⟩

end LexesAs
end Lexer

namespace Spelling

open Lexer

/-! The characters of a spelling. -/

/-- Arguments behind the first one. -/
def furtherChars (as : List Argument) : List Char := as.flatMap fun a => ',' :: a.text.toList

def argumentChars : List Argument → List Char
  | [] => []
  | a :: rest => ':' :: (a.text.toList ++ furtherChars rest)

def callChars (c : Call) : List Char :=
  ' ' :: '|' :: ' ' :: (c.filter.toList ++ argumentChars c.arguments)

theorem intercalate_cons (separator : Char) (first : List Char) (rest : List (List Char)) :
    [separator].intercalate (first :: rest) = first ++ rest.flatMap (separator :: ·) := by
  induction rest generalizing first with
  | nil => simp
  | cons second rest ih => rw [List.intercalate_cons_cons, ih]; simp

theorem call_toList (c : Call) : c.text.toList = callChars c := by
  cases hargs : c.arguments with
  | nil => simp [Call.text, callChars, argumentChars, hargs]
  | cons a rest =>
    simp only [Call.text, callChars, argumentChars, furtherChars, hargs, List.isEmpty_cons,
      Bool.false_eq_true, if_false, String.toList_append, String.toList_intercalate, List.map_cons,
      List.map_map]
    rw [show ",".toList = [','] from rfl, intercalate_cons, List.flatMap_map]
    simp

theorem text_toList (s : Spelling) :
    s.text.toList = s.head.text.toList ++ s.calls.flatMap callChars := by
  have hfold : ∀ (calls : List Call) (text : String),
      (calls.foldl (fun text c => text ++ c.text) text).toList =
        text.toList ++ calls.flatMap callChars := by
    intro calls
    induction calls with
    | nil => simp
    | cons c calls ih => intro text; simp [ih, call_toList]
  exact hfold s.calls s.head.text

/-! What is read as it is. -/

/-- A literal whose text is read as the literal. -/
def LiteralReads : Payload → Prop
  | .int n => Text.isInt64 n = true
  | .float x => x.isFinite = true ∧ Double.read? x.fractionText.toList = some x
  | _ => True

/-- An operand whose text is read as the operand, where a word may hold a namespace mark when
    `ns` says so. -/
def Operand.Reads (ns : Bool) : Operand → Prop
  | .word w => WordToken ns w.toList (.ident, .str w)
  | .literal v => LiteralReads v

structure Argument.Reads (a : Argument) : Prop where
  name : ∀ n ∈ a.name, WordToken false n.toList (.ident, .str n)
  value : a.value.Reads false

structure Call.Reads (c : Call) : Prop where
  filter : WordToken false c.filter.toList (.ident, .str c.filter)
  arguments : ∀ a ∈ c.arguments, a.Reads

/-- Every word and literal is read as what it is; behind a pipe no word holds a namespace mark. -/
structure Reads (s : Spelling) : Prop where
  head : s.head.Reads true
  calls : ∀ c ∈ s.calls, c.Reads

variable {f : Bool} {outer : List Bool} {rest : List Char}

/-- Blanks and the marks of interpolations and attributes end a word. -/
theorem endsWord_mark {ns : Bool} {c : Char} (h : c ∈ [' ', ',', '=', '\x7d']) :
    EndsWord ns (c :: rest) := by
  intro d hd
  obtain rfl : c = d := Option.some.inj hd
  simp only [List.mem_cons, List.not_mem_nil, or_false] at h
  rcases h with rfl | rfl | rfl | rfl <;> exact ⟨by decide, by decide, fun _ => by decide⟩

/-- Behind a pipe a colon belongs to no word. -/
theorem endsWord_colon : EndsWord false (':' :: rest) := by
  intro d hd
  obtain rfl : ':' = d := Option.some.inj hd
  exact ⟨by decide, by decide, fun h => absurd h (by decide)⟩

/-- A literal is written as a quoted string or as a word. -/
theorem LiteralReads.written (ns : Bool) {v : Payload} (h : LiteralReads v) :
    (∃ s, v = .str s ∧ (literalText v).toList = Json.Writer.quoted s) ∨
      WordToken ns (literalText v).toList (literalKind v, v) := by
  cases v with
  | str s => exact .inl ⟨s, rfl, String.toList_ofList⟩
  | int n => exact .inr (wordToken_int h)
  | float x => exact .inr (wordToken_float h.1 h.2)
  | bool b =>
    cases b with
    | false => exact .inr (wordToken_keyword (w := "false") (by decide) rfl)
    | true => exact .inr (wordToken_keyword (w := "true") (by decide) rfl)
  | none => exact .inr (wordToken_keyword (w := "null") (by decide) rfl)

/-- An operand is written as a quoted string or as a word. -/
theorem Operand.Reads.written {ns : Bool} {o : Operand} (h : o.Reads ns) :
    (∃ s, o.symbol = (.string, .str s) ∧ o.text.toList = Json.Writer.quoted s) ∨
      WordToken ns o.text.toList o.symbol := by
  cases o with
  | word w => exact .inr h
  | literal v =>
    rcases LiteralReads.written ns h with ⟨s, rfl, htext⟩ | hword
    · exact .inl ⟨s, rfl, htext⟩
    · exact .inr hword

theorem Operand.Reads.lexes {o : Operand} (h : o.Reads (!f)) (hrest : EndsWord (!f) rest) :
    LexesAs (f :: outer) o.text.toList [o.symbol] (f :: outer) rest := by
  rcases h.written with ⟨s, hsymbol, htext⟩ | hword
  · rw [hsymbol, htext]
    exact .quoted s
  · exact .word hword hrest

theorem Argument.Reads.lexes {a : Argument} (h : a.Reads) (hrest : EndsWord false rest) :
    LexesAs (true :: outer) a.text.toList a.symbols (true :: outer) rest := by
  obtain ⟨name, value⟩ := a
  have hvalue : LexesAs (true :: outer) value.text.toList [value.symbol] (true :: outer) rest :=
    Operand.Reads.lexes h.value hrest
  cases name with
  | none => exact hvalue
  | some n =>
    have hname : LexesAs (true :: outer) n.toList [(.ident, .str n)] (true :: outer)
        ('=' :: value.text.toList ++ rest) := .word (h.name n rfl) (endsWord_mark (by simp))
    have htext : (Argument.text ⟨some n, value⟩).toList = n.toList ++ '=' :: value.text.toList := by
      simp [Argument.text]
    rw [htext]
    exact hname.append (.mark '=' rfl hvalue)

theorem endsWord_further (as : List Argument) (hrest : EndsWord false rest) :
    EndsWord false (furtherChars as ++ rest) := by
  cases as with
  | nil => exact hrest
  | cons a as => exact endsWord_mark (by simp)

theorem lexes_further {as : List Argument} (h : ∀ a ∈ as, a.Reads) (hrest : EndsWord false rest) :
    LexesAs (true :: outer) (furtherChars as) (furtherSymbols as) (true :: outer) rest := by
  induction as with
  | nil => exact .nil
  | cons a as ih =>
    rw [furtherSymbols_cons]
    have ha : LexesAs (true :: outer) a.text.toList a.symbols (true :: outer)
        (furtherChars as ++ rest) := (h a List.mem_cons_self).lexes (endsWord_further as hrest)
    exact .mark ',' rfl (ha.append (ih fun b hb => h b (List.mem_cons_of_mem a hb)))

theorem lexes_arguments {as : List Argument} (h : ∀ a ∈ as, a.Reads) (hrest : EndsWord false rest) :
    LexesAs (true :: outer) (argumentChars as) (argumentSymbols as) (true :: outer) rest := by
  cases as with
  | nil => exact .nil
  | cons a as =>
    have ha : LexesAs (true :: outer) a.text.toList a.symbols (true :: outer)
        (furtherChars as ++ rest) := (h a List.mem_cons_self).lexes (endsWord_further as hrest)
    exact .mark ':' rfl (ha.append (lexes_further (fun b hb => h b (List.mem_cons_of_mem a hb)) hrest))

theorem Call.Reads.lexes {c : Call} (h : c.Reads) (hrest : EndsWord false rest) :
    LexesAs (f :: outer) (callChars c) c.symbols (true :: outer) rest := by
  have hend : EndsWord false (argumentChars c.arguments ++ rest) := by
    cases c.arguments with
    | nil => exact hrest
    | cons a as => exact endsWord_colon
  have hname : LexesAs (true :: outer) c.filter.toList [(.ident, .str c.filter)] (true :: outer)
      (argumentChars c.arguments ++ rest) := .word h.filter hend
  exact .blank (.mark '|' rfl (.blank (hname.append (lexes_arguments h.arguments hrest))))

/-- Behind a call or a head stands a blank or the closing brace. -/
theorem endsWord_calls {ns : Bool} (cs : List Call) :
    EndsWord ns ((cs.flatMap callChars ++ ['\x7d']) ++ rest) := by
  cases cs with
  | nil => exact endsWord_mark (by simp)
  | cons c cs => exact endsWord_mark (by simp)

theorem lexes_calls {cs : List Call} (h : ∀ c ∈ cs, c.Reads) :
    LexesAs (f :: outer) (cs.flatMap callChars ++ ['\x7d']) (Event.chainSymbols cs) outer rest := by
  induction cs generalizing f with
  | nil => exact .mark '\x7d' rfl .nil
  | cons c cs ih =>
    rw [List.flatMap_cons, List.append_assoc, Event.chainSymbols_cons]
    exact ((h c List.mem_cons_self).lexes (endsWord_calls cs)).append
      (ih fun d hd => h d (List.mem_cons_of_mem c hd))

/-- The text of a spelling, with the brace that closes it, gives the symbols of the spelling. -/
theorem Reads.lexes {s : Spelling} (h : s.Reads) :
    LexesAs (false :: outer) (s.text.toList ++ ['\x7d']) (s.symbols ++ [(.rightBrace, .none)]) outer
      rest := by
  have hhead : LexesAs (false :: outer) s.head.text.toList [s.head.symbol] (false :: outer)
      ((s.calls.flatMap callChars ++ ['\x7d']) ++ rest) :=
    Operand.Reads.lexes (f := false) h.head (endsWord_calls s.calls)
  rw [text_toList, List.append_assoc]
  exact hhead.append (lexes_calls h.calls)

/-! Canonical spellings. -/

/-- A name of a filter or an argument is a word and no keyword. -/
def IsFreeName (name : String) : Prop := Name.isWord name.toList = true ∧ name ∉ keywords

theorem IsLiteral.reads {v : Payload} (h : IsLiteral v) : LiteralReads v := by
  cases v with
  | float x => exact h.elim
  | int n => exact h
  | str | bool | none => trivial

theorem Canonical.reads {s : Spelling} (h : s.Canonical IsFreeName) : s.Reads := by
  have hname : ∀ {n}, IsFreeName n → WordToken false n.toList (.ident, .str n) :=
    fun h => wordToken_name h.1 h.2
  refine ⟨?_, fun c hc => ⟨hname (h.filters c hc), fun a ha => ⟨?_, ?_⟩⟩⟩
  · match s.head, h.head with
    | .word w, ⟨hkey, path, hpath, hw⟩ => exact wordToken_path hpath hw hkey
    | .literal v, hv => exact hv.reads
  · exact fun n hn => hname (h.names c hc a ha n hn)
  · match a.value, h.values c hc a ha with
    | .word w, ⟨hkey, hw⟩ => exact wordToken_name hw hkey
    | .literal v, hv => exact hv.reads

end Spelling
end BraceTemplate
