import BraceTemplate.Proofs.Reading.Expressions

/- Paths as expressions. The head of an expression is cut out of the text by the lexer, which looks
   for the end of a bracket on its own, and only then read as a path. A path that the lexer takes
   as one word is an expression of its own (`Expression.read_of_word`). When the lexer stops before
   the end of the path or takes the closing brace to it, what it has is no path, because what is
   left stands where a path would end (`Path.Spelled.not_further`); so nothing else is ever read
   (`Expression.word_of_read`). The lexer knows no single quotes: an end of a bracket or a double
   quote between them leads it astray, and nothing else does (`Expression.read_path`). -/
namespace BraceTemplate

open Text (EndsTight)

namespace Path
variable {plain : List Char → Prop} {w : List Char} {path : List PathSegment}

/-! Spellings and what is behind them. -/

theorem endsTight_name {name : List Char} (h : isFieldName name = true) : EndsTight name := by
  obtain ⟨init, c, rfl⟩ : ∃ init c, name = init ++ [c] := by
    cases name using List.reverseRecOn with
    | nil => cases h
    | append_singleton init c => exact ⟨init, c, rfl⟩
  have hc := isFieldName_chars h c (by simp)
  exact ⟨init, c, rfl, Lexer.isWhitespace_of_isWordChar (Lexer.isWordChar_of_isWordStart hc)⟩

theorem SpelledBehind.tight {safe : Bool} (h : SpelledBehind plain safe w path) {front : List Char}
    (hfront : EndsTight front) : EndsTight (front ++ w) := by
  induction h generalizing front with
  | nil => rwa [List.append_nil]
  | field hname h ih => exact (ih (endsTight_name hname)).behind _ |>.behind front
  | @bracket next inside w s path _ h ih =>
    have hend : EndsTight [']'] := ⟨[], ']', rfl, by decide⟩
    have hbracket := ((ih hend).behind inside).behind ['[']
    exact hbracket.behind front

/-- A path ends with a character of names or with the end of a bracket. -/
theorem Spelled.tight (h : Spelled plain w path) : EndsTight w := by
  obtain ⟨hname, h⟩ := h
  exact h.tight (endsTight_name hname)

/-- A path goes no further than its first end. -/
theorem Spelled.not_further {path' : List PathSegment} {c : Char} {rest : List Char}
    (h : Spelled Anyhow w path) (hends : EndsPath (c :: rest)) :
    ¬ Spelled Anyhow (w ++ c :: rest) path' := by
  intro h'
  have hshort : segments 0 _ = _ := segments_spelled h hends
  have hlong : segments 0 _ = _ := segments_spelled h' endsPath_nil
  rw [List.append_nil, hshort] at hlong
  cases hlong

/-- What ends a word ends a path. -/
theorem endsPath_of_stopsWord {rest : List Char} (h : Lexer.StopsWord rest) : EndsPath rest := by
  intro c hc
  obtain ⟨hword, hbracket⟩ := h c hc
  refine ⟨Bool.eq_false_iff.mpr fun hname => ?_, ?_⟩
  · rw [Lexer.isWordChar_of_isWordStart hname] at hword
    cases hword
  · simp only [List.mem_cons, List.not_mem_nil, or_false]
    rintro (rfl | rfl | rfl)
    · exact hbracket rfl
    all_goals exact absurd hword (by decide)

end Path

namespace Lexer

/-- A scan that starts at a word takes it as its first token. -/
theorem scan_word {p : Position} {f : Bool} {outer : List Bool} {c : Char} {rest : List Char}
    {toks : List Token} (hc : StartsWord c) (h : scan p (f :: outer) (c :: rest) = .ok toks) :
    ∃ n token more, wordLength (!f) .path 1 rest = .ok n ∧
      classify? ((c :: rest).take n) = some token ∧ toks = ⟨token.1, token.2, p⟩ :: more := by
  obtain ⟨hmark, hblank, hquote, hstart⟩ := hc
  rw [scan] at h
  simp only [step, List.isEmpty_cons, Bool.false_eq_true, if_false, tagStep, hmark, hblank,
    if_neg hquote, hstart, if_true, List.headD_cons] at h
  cases hlength : wordLength (!f) .path 1 rest with
  | error e => simp [hlength] at h
  | ok n =>
    cases hmade : classify? ((c :: rest).take n) with
    | none => simp [hlength, hmade] at h
    | some token =>
      simp only [hlength, hmade] at h
      split at h
      · cases h
      · cases h
        exact ⟨n, token, _, rfl, hmade, rfl⟩

end Lexer

namespace Expression

open Lexer
open BraceTemplate.Path (Spelled Anyhow)

variable {p : String} {path : List PathSegment}

/-- A path that is a word is an expression of its own. -/
theorem read_of_word (h : Path.read p = .ok path) (hword : WordToken true p.toList (.ident, .str p)) :
    read p = .ok ⟨p, path, none, []⟩ := by
  have hreads : Spelling.Reads ⟨.word p, []⟩ := ⟨hword, by simp⟩
  have hread : readPath p = .ok path := by rw [readPath, h]
  have hexpression : Spelling.expression ⟨.word p, []⟩ = .ok ⟨p, path, none, []⟩ := by
    simp [Spelling.expression, Spelling.Operand.asHead, hread, Except.map]
  exact hreads.read.trans hexpression

/-- A path is a word when the lexer takes all of it. -/
theorem wordToken_iff (h : Path.read p = .ok path) (hp : p ∉ keywords) :
    WordToken true p.toList (.ident, .str p) ↔
      wordLength true .path 1 p.toList.tail = .ok p.toList.length := by
  obtain ⟨c, tail, hw, hc⟩ := startsName_of_spelled (Path.read_eq_ok.mp h)
  have hmade := classify?_name hw hc hp
  rw [hw] at hmade ⊢
  rw [List.tail_cons, List.length_cons]
  constructor
  · rintro ⟨⟨d, more, heq, -, hwhole⟩, -⟩
    obtain ⟨rfl, rfl⟩ := List.cons.inj heq
    have hlength := hwhole [] (by simp [EndsWord])
    rwa [List.append_nil] at hlength
  · intro hlength
    have hall : (c :: tail).take (tail.length + 1) = c :: tail := by
      rw [List.take_succ_cons, List.take_length]
    obtain ⟨used, behind, htail, hn, -, hword⟩ :=
      wordToken_of_wordLength (startsWord_of_isWordStart hc.1) hlength (hall ▸ hmade)
    obtain rfl : behind = [] := by
      rw [htail, List.length_append] at hn
      exact List.length_eq_zero_iff.mp (by omega)
    rwa [htail, List.append_nil]

/-- A word that is read as a head and starts as a name does is a path. -/
theorem spelled_of_head {w : List Char} {c : Char} {tail : List Char} {token : TokenKind × Payload}
    {pos : Position} {head : String × List PathSegment × Option Json.Value} (hw : w = c :: tail)
    (hc : StartsName c) (hmade : classify? w = some token)
    (hread : readHead (some ⟨token.1, token.2, pos⟩) = .ok head) : ∃ path, Spelled Anyhow w path := by
  have hlist : (String.ofList w).toList = w := String.toList_ofList
  by_cases hkey : String.ofList w ∈ keywords
  · -- a keyword is a name as well
    have hname : Path.isFieldName w = true := by
      simp only [keywords, List.mem_cons, List.not_mem_nil, or_false] at hkey
      rw [← hlist]
      rcases hkey with h | h | h <;> rw [h] <;> decide
    have hpath : Spelled Anyhow (w ++ []) _ := .path hname .nil
    exact ⟨_, List.append_nil w ▸ hpath⟩
  · have hident := classify?_name (hlist.trans hw) hc hkey
    rw [hlist, hmade] at hident
    obtain rfl := Option.some.inj hident
    obtain ⟨path, hpath, -⟩ := Outcome.map_eq_ok.mp hread
    simp only [readPath, Token.text] at hpath
    split at hpath
    · rename_i segments hsegments
      exact ⟨segments, hlist ▸ Path.read_eq_ok.mp hsegments⟩
    · cases hpath

/-- What is an expression has a head. -/
theorem readHead_of_ofTokens {brace word : Token} {toks : List Token} {e : Expression}
    (h : ofTokens (brace :: word :: toks) = .ok e) : ∃ head, readHead (some word) = .ok head := by
  unfold ofTokens at h
  simp only at h
  split at h
  · obtain ⟨head, hread, -⟩ := Outcome.bind_eq_ok.mp h
    exact ⟨head, hread⟩
  · cases h

/-- A text that is read starts with a word that is read as its head. -/
theorem head_of_read {c : Char} {tail : List Char} {e : Expression} (hw : p.toList = c :: tail)
    (hc : StartsName c) (htight : EndsTight p.toList) (he : read p = .ok e) :
    ∃ n token pos head, wordLength true .path 1 (tail ++ ['\x7d']) = .ok n ∧
      classify? ((c :: (tail ++ ['\x7d'])).take n) = some token ∧
      readHead (some ⟨token.1, token.2, pos⟩) = .ok head := by
  have hstart := startsWord_of_isWordStart hc.1
  have hbrace : c ≠ '\x7b' := fun e => absurd hc.1 (by rw [e]; decide)
  have htext : (bracedText p).toList = ['\x7b'] ++ c :: (tail ++ ['\x7d']) := by
    rw [Spelling.bracedText_of_tight hw hstart.2.1 hbrace htight, hw]
    rfl
  unfold read at he
  split at he
  · cases he
  rename_i toks htokens
  have hcomment : ¬ ['!', '-', '-'] <+: c :: (tail ++ ['\x7d']) := by
    intro hprefix
    obtain ⟨rfl, -⟩ := List.cons_prefix_cons.mp hprefix
    exact absurd hc.1 (by decide)
  rw [BraceTemplate.tokenize, htext, Lexes.brace hcomment] at htokens
  obtain ⟨behind, hscan, rfl⟩ := Outcome.map_eq_ok.mp htokens
  obtain ⟨n, token, more, hlength, hmade, rfl⟩ := scan_word hstart hscan
  have hkind : token.1 ≠ .eof := by
    rcases classify?_cases hmade with ⟨m, rfl, -⟩ | ⟨y, rfl⟩ | ⟨v, rfl⟩ | rfl | rfl <;> simp
  rw [List.singleton_append, List.takeWhile_cons_of_pos (by decide),
    List.takeWhile_cons_of_pos (by simpa using hkind)] at he
  obtain ⟨head, hread⟩ := readHead_of_ofTokens he
  exact ⟨n, token, _, head, hlength, hmade, hread⟩

/-- A path is read only when the lexer takes all of it as one word. -/
theorem word_of_read {e : Expression} (h : Path.read p = .ok path) (he : read p = .ok e) :
    ∃ token, WordToken true p.toList token := by
  have hspelled := Path.read_eq_ok.mp h
  obtain ⟨c, tail, hw, hc⟩ := startsName_of_spelled hspelled
  obtain ⟨n, token, pos, head, hlength, hmade, hread⟩ := head_of_read hw hc hspelled.tight he
  obtain ⟨used, behind, hsplit, rfl, hstops, hword⟩ :=
    wordToken_of_wordLength (startsWord_of_isWordStart hc.1) hlength hmade
  have htake : (c :: (tail ++ ['\x7d'])).take (used.length + 1) = c :: used := by
    rw [hsplit, List.take_succ_cons, List.take_left]
  obtain ⟨path', hpath⟩ := spelled_of_head rfl hc (htake ▸ hmade) hread
  rw [hw] at hspelled ⊢
  rcases List.append_eq_append_iff.mp hsplit with ⟨further, hused, hbrace⟩ | ⟨left, htail, hleft⟩
  · -- the word goes over the whole path, and no path goes on with a brace
    cases further with
    | nil =>
      rw [List.append_nil] at hused
      exact ⟨token, hused ▸ hword⟩
    | cons d further =>
      obtain ⟨rfl, -⟩ := List.cons.inj hbrace
      rw [hused] at hpath
      have hends : Path.EndsPath ('\x7d' :: further) := by
        intro d hd
        obtain rfl := Option.some.inj hd
        decide
      exact absurd hpath (hspelled.not_further hends)
  · -- the word stops inside the path, where a path would have ended
    cases left with
    | nil =>
      rw [List.append_nil] at htail
      exact ⟨token, htail ▸ hword⟩
    | cons d left =>
      rw [htail] at hspelled
      have hends : Path.EndsPath (d :: left) := by
        intro x hx
        exact Path.endsPath_of_stopsWord hstops x (by rw [hleft]; exact hx)
      exact absurd hspelled (hpath.not_further hends)

/-- A path is an expression exactly when the lexer takes all of it as one word, and then it is the
    path without literal and calls. The lexer does so unless an end of a bracket or a double quote
    stands between single quotes. -/
theorem read_path (h : Path.read p = .ok path) (hp : p ∉ keywords) :
    (∀ e, read p = .ok e ↔ e = ⟨p, path, none, []⟩ ∧
      wordLength true .path 1 p.toList.tail = .ok p.toList.length) ∧
    (Spelled Harmless p.toList path → read p = .ok ⟨p, path, none, []⟩) := by
  refine ⟨fun e => ⟨fun he => ?_, ?_⟩, fun hspelled => ?_⟩
  · obtain ⟨token, hword⟩ := word_of_read h he
    obtain ⟨c, tail, hw, hc⟩ := startsName_of_spelled (Path.read_eq_ok.mp h)
    obtain rfl : (.ident, .str p) = token :=
      Option.some.inj ((classify?_name hw hc hp).symm.trans hword.made)
    have hread := read_of_word h hword
    rw [he] at hread
    exact ⟨Except.ok.inj hread, (wordToken_iff h hp).mp hword⟩
  · rintro ⟨rfl, hlength⟩
    exact read_of_word h ((wordToken_iff h hp).mpr hlength)
  · exact read_of_word h (wordToken_spelled hspelled hp)

/-- The end of a bracket between double quotes is part of the key. -/
theorem read_path_quoted :
    let path : List PathSegment :=
      [⟨.field "a", true⟩, ⟨.field "b", false⟩, ⟨.key "k", false⟩, ⟨.key "]", false⟩]
    Path.read "a?.b['k'][\"]\"]" = .ok path ∧
      read "a?.b['k'][\"]\"]" = .ok ⟨"a?.b['k'][\"]\"]", path, none, []⟩ := by
  have hpath : Path.read "a?.b['k'][\"]\"]" = .ok [⟨.field "a", true⟩, ⟨.field "b", false⟩,
      ⟨.key "k", false⟩, ⟨.key "]", false⟩] := by decide +kernel
  have hlast : Path.StepSpelled Harmless ['"', ']', '"'] (.key "]") :=
    .key (.plain (by decide) (by decide) .nil)
  have hfirst : Path.StepSpelled Harmless ['\'', 'k', '\''] (.key "k") :=
    .singleKey ⟨by decide, by decide⟩ (.plain (by decide) (by decide) .nil)
  have hbrackets := Path.SpelledBehind.bracket hfirst (.bracket hlast .nil)
  have hfield : Path.SpelledBehind Harmless true (Path.joint true ++ (['b'] ++ _)) _ :=
    .field rfl hbrackets
  have hspelled : Spelled Harmless (['a'] ++ _) _ := .path rfl hfield
  exact ⟨hpath, (read_path hpath (by decide)).2 hspelled⟩

/-- Between single quotes the lexer ends the bracket. -/
theorem not_read_path_bracket :
    ¬ ∀ p path, Path.read p = .ok path → p ∉ keywords → read p = .ok ⟨p, path, none, []⟩ := by
  intro h
  have hpath : Path.read "a[']']" = .ok [⟨.field "a", false⟩, ⟨.key "]", false⟩] := by
    decide +kernel
  have hfault : tokenize (bracedText "a[']']") = .error ⟨.unexpectedCharacter '\'', ⟨1, 6, 5⟩⟩ := by
    decide +kernel
  have hread := h _ _ hpath (by decide)
  rw [read, hfault] at hread
  cases hread

end Expression
end BraceTemplate
