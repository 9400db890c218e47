import Mathlib.Data.List.TakeWhile
import BraceTemplate.Proofs.Lexing.Words
import BraceTemplate.Proofs.Parsing.Symbols

/- The lexemes of a text. `Lexeme b w x b' rest` says what one step of the lexer can take in
   front of `rest`: a run of text, a comment, a brace, a mark, a blank, a string or a word, and
   nothing else (`lexeme_of_step`). `Cuts p b text toks` puts lexemes one behind the other, and a
   text that is scanned is cut into lexemes that give its tokens (`scan_cuts`). So every token
   stands at a lexeme of its own (`Cuts.place`), behind the token before it (`Cuts.behind`), is not
   the end of input (`Cuts.ne_eof`) and carries what its kind says (`Cuts.sound`), and words and
   integers are read again where they stand (`Cuts.lexed`). -/
namespace BraceTemplate
namespace Lexer

/-- In front of `rest`, where the braces `b` are open, the characters are one lexeme: the symbol
    that it makes, if it is no blank, and the braces that are open behind it. -/
inductive Lexeme : List Bool → List Char → Option Symbol → List Bool → List Char → Prop where
  | text {run rest : List Char} (hne : run ≠ []) (hrun : '\x7b' ∉ run)
    (hrest : ∀ c ∈ rest.head?, c = '\x7b') :
    Lexeme [] run (some (.text, .str (String.ofList run))) [] rest
  | comment {body rest : List Char} (hbody : ¬ ['-', '-', '\x7d'] <:+: body) :
    Lexeme [] (commentOpen ++ (body ++ ['-', '-', '\x7d']))
      (some (.comment, .str (String.ofList body))) [] rest
  | brace {rest : List Char} (hrest : ¬ ['!', '-', '-'] <+: rest) :
    Lexeme [] ['\x7b'] (some (.leftBrace, .none)) [false] rest
  | mark {f : Bool} {outer : List Bool} {c : Char} {kind : TokenKind} {rest : List Char}
    (hc : punctuation? c = some kind) :
    Lexeme (f :: outer) [c] (some (kind, .none)) (bracesAfter kind (f :: outer)) rest
  | blank {f : Bool} {outer : List Bool} {c : Char} {rest : List Char}
    (hc : Text.isWhitespace c = true) : Lexeme (f :: outer) [c] none (f :: outer) rest
  | string {f : Bool} {outer : List Bool} {tail s rest : List Char}
    (htail : ∀ taken more, stringBody taken (tail ++ more) = .ok (s, tail.length)) :
    Lexeme (f :: outer) ('"' :: tail) (some (.string, .str (String.ofList s))) (f :: outer) rest
  | word {f : Bool} {outer : List Bool} {w rest : List Char} {x : Symbol}
    (hw : WordToken (!f) w x) : Lexeme (f :: outer) w (some x) (f :: outer) rest

/-! One step takes a lexeme. -/

/-- The body of a comment reaches to its first end. -/
theorem commentBody?_some {text body : List Char} (h : commentBody? text = some body) :
    ¬ ['-', '-', '\x7d'] <:+: body ∧ ∃ rest, text = body ++ ('-' :: '-' :: '\x7d' :: rest) := by
  fun_induction commentBody? text generalizing body with
  | case1 => cases h
  | case2 rest =>
    cases h
    exact ⟨by simp, rest, rfl⟩
  | case3 c text hopen ih =>
    obtain ⟨body, hbody, rfl⟩ := Option.map_eq_some_iff.mp h
    obtain ⟨hno, rest, rfl⟩ := ih hbody
    refine ⟨fun hinfix => ?_, rest, rfl⟩
    rcases List.infix_cons_iff.mp hinfix with ⟨after, hprefix⟩ | hinfix
    · -- an end that begins with the first character would have ended the body before it
      obtain ⟨rfl, rfl⟩ := List.cons.inj hprefix
      exact hopen (after ++ ('-' :: '-' :: '\x7d' :: rest)) rfl rfl
    · exact hno hinfix

/-- A string is read from its own characters, whatever stands behind it. -/
theorem stringBody_some {taken n : Nat} {text s : List Char} (h : stringBody taken text = .ok (s, n)) :
    ∃ tail rest, text = tail ++ rest ∧ n = tail.length ∧
      ∀ taken more, stringBody taken (tail ++ more) = .ok (s, tail.length) := by
  fun_induction stringBody taken text generalizing s n with
  | case1 => cases h
  | case2 taken rest =>
    cases h
    exact ⟨['"'], rest, rfl, rfl, fun _ _ => rfl⟩
  | case3 taken a b c d rest ch hescape ih =>
    obtain ⟨⟨s, n⟩, hs, heq⟩ := Outcome.map_eq_ok.mp h
    cases heq
    obtain ⟨tail, rest, rfl, rfl, hread⟩ := ih hs
    refine ⟨'\\' :: 'u' :: a :: b :: c :: d :: tail, rest, rfl, rfl, fun taken more => ?_⟩
    simp only [List.cons_append, stringBody, hescape, hread, Except.map]
    rfl
  | case4 => cases h
  | case5 => cases h
  | case6 => cases h
  | case7 taken e rest _ _ ch hescape ih =>
    obtain ⟨⟨s, n⟩, hs, heq⟩ := Outcome.map_eq_ok.mp h
    cases heq
    obtain ⟨tail, rest, rfl, rfl, hread⟩ := ih hs
    refine ⟨'\\' :: e :: tail, rest, rfl, rfl, fun taken more => ?_⟩
    have hu : e ≠ 'u' := by
      rintro rfl
      cases hescape
    rw [List.cons_append, List.cons_append, stringBody, hescape]
    · simp only [hread, Except.map]
      rfl
    all_goals grind
  | case8 => cases h
  | case9 taken c rest hquote _ _ hend hescape ih =>
    obtain ⟨⟨s, n⟩, hs, heq⟩ := Outcome.map_eq_ok.mp h
    cases heq
    have hbackslash : c ≠ '\\' := by
      intro hc
      cases rest with
      | nil => exact hend hc rfl
      | cons e rest => exact hescape e rest hc rfl
    obtain ⟨tail, rest, rfl, rfl, hread⟩ := ih hs
    refine ⟨c :: tail, rest, rfl, rfl, fun taken more => ?_⟩
    rw [List.cons_append, stringBody]
    · simp only [hread, Except.map]
      rfl
    all_goals grind

/-- A run of text is what stands before the next brace. -/
theorem run_split (text : List Char) :
    ∃ run behind, text = run ++ behind ∧ (run ++ behind).takeWhile (· != '\x7b') = run ∧
      '\x7b' ∉ run ∧ ∀ d ∈ behind.head?, d = '\x7b' := by
  refine ⟨text.takeWhile (· != '\x7b'), text.dropWhile (· != '\x7b'),
    List.takeWhile_append_dropWhile.symm, by rw [List.takeWhile_append_dropWhile], ?_, ?_⟩
  · intro hmem
    have hin := List.mem_takeWhile_imp hmem
    simp at hin
  · intro d hd
    have hstop := List.head?_dropWhile_not (· != '\x7b') text
    rw [hd] at hstop
    simpa using hstop

theorem lexeme_of_textStep {c : Char} {rest : List Char} {s : Step} (h : textStep c rest = .ok s) :
    Lexeme [] (c :: rest.take s.extra) s.token s.braces (rest.drop s.extra) := by
  unfold textStep at h
  split at h
  · rename_i hc
    obtain rfl : c = '\x7b' := hc
    split at h
    · rename_i hopen
      obtain ⟨behind, hbehind⟩ := List.isPrefixOf_iff_prefix.mp hopen
      obtain rfl : rest = '!' :: '-' :: '-' :: behind := (List.cons.inj hbehind).2.symm
      split at h
      · rename_i body hbody
        cases h
        obtain ⟨hno, rest, rfl⟩ := commentBody?_some hbody
        have hlength : body.length + 6 = ('!' :: '-' :: '-' :: (body ++ ['-', '-', '\x7d'])).length := by
          simp
        have hrest : '!' :: '-' :: '-' :: (body ++ '-' :: '-' :: '\x7d' :: rest) =
            '!' :: '-' :: '-' :: (body ++ ['-', '-', '\x7d']) ++ rest := by simp
        simp only [hlength, hrest, List.take_left, List.drop_left]
        exact .comment hno
      · cases h
    · rename_i hopen
      cases h
      refine .brace fun hprefix => hopen ?_
      exact List.isPrefixOf_iff_prefix.mpr (List.cons_prefix_cons.mpr ⟨rfl, hprefix⟩)
  · rename_i hc
    cases h
    obtain ⟨run, behind, rfl, hrun, hno, hbehind⟩ := run_split rest
    simp only [hrun, List.take_left, List.drop_left]
    refine .text (List.cons_ne_nil c run) ?_ hbehind
    rw [List.mem_cons, not_or]
    exact ⟨Ne.symm hc, hno⟩

theorem lexeme_of_tagStep {f : Bool} {outer : List Bool} {c : Char} {rest : List Char} {s : Step}
    (h : tagStep (f :: outer) c rest = .ok s) :
    Lexeme (f :: outer) (c :: rest.take s.extra) s.token s.braces (rest.drop s.extra) := by
  unfold tagStep at h
  split at h
  · rename_i kind hkind
    cases h
    exact .mark hkind
  · rename_i hmark
    split at h
    · rename_i hblank
      cases h
      exact .blank hblank
    · rename_i hblank
      split at h
      · rename_i hquote
        obtain rfl : c = '"' := hquote
        split at h
        · rename_i body n hbody
          cases h
          obtain ⟨tail, rest, rfl, rfl, hread⟩ := stringBody_some hbody
          simp only [List.take_left, List.drop_left]
          exact .string hread
        · cases h
      · rename_i hquote
        split at h
        · rename_i hstart
          split at h
          · rename_i n hlength
            split at h
            · rename_i token htoken
              cases h
              have hword : StartsWord c := ⟨hmark, by simpa using hblank, hquote, hstart⟩
              obtain ⟨tail, rest, rfl, rfl, -, hw⟩ := wordToken_of_wordLength hword hlength htoken
              simp only [Nat.add_sub_cancel, List.take_left, List.drop_left]
              exact .word hw
            · cases h
          · cases h
        · cases h

/-- What a step takes is a lexeme. -/
theorem lexeme_of_step {b : List Bool} {c : Char} {rest : List Char} {s : Step}
    (h : step b c rest = .ok s) :
    Lexeme b (c :: rest.take s.extra) s.token s.braces (rest.drop s.extra) := by
  cases b with
  | nil => exact lexeme_of_textStep h
  | cons f outer => exact lexeme_of_tagStep h

/-! What a lexeme is. -/

theorem punctuation?_sound {c : Char} {kind : TokenKind} (h : punctuation? c = some kind) :
    kind ∈ [.leftBrace, .rightBrace, .slash, .equal, .colon, .comma, .pipe] := by
  unfold punctuation? at h
  split at h <;> cases h <;> decide

/-- What a word is made into: a number, a keyword or the word itself. -/
theorem classify?_cases {word : List Char} {x : Symbol} (h : classify? word = some x) :
    (∃ n, x = (.number, .int n) ∧ Text.isInt64 n = true) ∨ (∃ y, x = (.number, .float y)) ∨
      (∃ b, x = (.bool, .bool b)) ∨ x = (.null, .none) ∨ x = (.ident, .str (String.ofList word)) := by
  rcases classify?_split h with ⟨n, -, hn, hx⟩ | ⟨y, -, -, -, hx⟩ | ⟨b, -, hx⟩ | hx
  · exact .inl ⟨n, hx, Text.isInt64_of_int64? hn⟩
  · exact .inr (.inl ⟨y, hx⟩)
  · exact .inr (.inr (.inl ⟨b, hx⟩))
  · exact .inr (.inr (.inr hx))

namespace Lexeme
variable {b b' : List Bool} {w rest : List Char} {x : Symbol}

theorem ne_nil {token : Option Symbol} (h : Lexeme b w token b' rest) : w ≠ [] := by
  cases h with
  | text hne => exact hne
  | comment | brace | mark | blank | string => simp [commentOpen]
  | word hw =>
    obtain ⟨c, tail, rfl, -⟩ := hw.whole
    simp

/-- The symbol of a lexeme carries what its kind says. -/
theorem sound (h : Lexeme b w (some x) b' rest) : x.Sound := by
  cases h with
  | text | comment | string => exact ⟨_, rfl⟩
  | brace => rfl
  | mark hc =>
    have hkind := punctuation?_sound hc
    simp only [List.mem_cons, List.not_mem_nil, or_false] at hkind
    rcases hkind with rfl | rfl | rfl | rfl | rfl | rfl | rfl <;> rfl
  | word hw =>
    rcases classify?_cases hw.made with ⟨n, rfl, -⟩ | ⟨y, rfl⟩ | ⟨v, rfl⟩ | rfl | rfl
    · exact .inl ⟨n, rfl⟩
    · exact .inr ⟨y, rfl⟩
    · exact ⟨v, rfl⟩
    · rfl
    · exact ⟨_, rfl⟩

/-- A lexeme is never the end of input. -/
theorem ne_eof (h : Lexeme b w (some x) b' rest) : x.1 ≠ .eof := by
  cases h with
  | text | comment | brace | string => simp
  | @mark f outer c kind rest hc =>
    rintro (rfl : kind = .eof)
    exact absurd (punctuation?_sound hc) (by decide)
  | word hw =>
    rcases classify?_cases hw.made with ⟨n, rfl, -⟩ | ⟨y, rfl⟩ | ⟨v, rfl⟩ | rfl | rfl <;> simp

/-- The open braces behind a lexeme are told by its symbol. -/
theorem braces (h : Lexeme b w (some x) b' rest) : b' = bracesAfter x.1 b := by
  cases h with
  | text | comment | brace | string | mark => rfl
  | word hw =>
    rcases classify?_cases hw.made with ⟨n, rfl, -⟩ | ⟨y, rfl⟩ | ⟨v, rfl⟩ | rfl | rfl <;> rfl

end Lexeme

/-! Lexemes one behind the other. -/

/-- From a position on, the text is cut into lexemes that give the tokens. -/
inductive Cuts : Position → List Bool → List Char → List Token → Prop where
  | nil {p : Position} {b : List Bool} : Cuts p b [] []
  | blank {p : Position} {b b' : List Bool} {w rest : List Char} {toks : List Token}
    (h : Lexeme b w none b' rest) (hrest : Cuts (p.through w) b' rest toks) :
    Cuts p b (w ++ rest) toks
  | token {p : Position} {b b' : List Bool} {w rest : List Char} {x : Symbol} {toks : List Token}
    (h : Lexeme b w (some x) b' rest) (hrest : Cuts (p.through w) b' rest toks) :
    Cuts p b (w ++ rest) (⟨x.1, x.2, p⟩ :: toks)

/-- A text that is scanned is cut into lexemes up to its end. -/
theorem scan_cuts {p : Position} {b : List Bool} {text : List Char} {toks : List Token}
    (h : scan p b text = .ok toks) :
    ∃ init, toks = init ++ [⟨.eof, .none, p.through text⟩] ∧ Cuts p b text init := by
  fun_induction scan p b text generalizing toks with
  | case1 p b =>
    obtain rfl := Except.ok.inj h
    exact ⟨[], rfl, .nil⟩
  | case2 => cases h
  | case3 => cases h
  | case4 p b c rest s hstep _ ts hscan kind payload htoken =>
    rename_i ih
    obtain rfl := Except.ok.inj h
    obtain ⟨init, rfl, hcuts⟩ := ih hscan
    have hlexeme := lexeme_of_step hstep
    rw [htoken] at hlexeme
    have hsplit : c :: rest = (c :: rest.take s.extra) ++ rest.drop s.extra := by
      rw [List.cons_append, List.take_append_drop]
    rw [hsplit, Position.through_append]
    exact ⟨_, rfl, .token hlexeme hcuts⟩
  | case5 p b c rest s hstep _ ts hscan htoken =>
    rename_i ih
    obtain rfl := Except.ok.inj h
    obtain ⟨init, rfl, hcuts⟩ := ih hscan
    have hlexeme := lexeme_of_step hstep
    rw [htoken] at hlexeme
    have hsplit : c :: rest = (c :: rest.take s.extra) ++ rest.drop s.extra := by
      rw [List.cons_append, List.take_append_drop]
    rw [hsplit, Position.through_append]
    exact ⟨init, rfl, .blank hlexeme hcuts⟩

/-- What the lexer says of a symbol beside its kind: a word is read again as the word, where it
    may hold a namespace mark when `ns` says so, and an integer has 64 bits. -/
def Lexed (ns : Bool) : Symbol → Prop
  | (.ident, .str w) => WordToken ns w.toList (.ident, .str w)
  | (.number, .int n) => Text.isInt64 n = true
  | _ => True

/-- Symbols as the lexer makes them one behind the other where the braces `b` are open. -/
def LexedAll : List Bool → List Symbol → Prop
  | _, [] => True
  | b, x :: xs => Lexed (!b.headD false) x ∧ LexedAll (bracesAfter x.1 b) xs

theorem lexedAll_append {xs ys : List Symbol} {b : List Bool} (h : LexedAll b (xs ++ ys)) :
    LexedAll b xs ∧ LexedAll (xs.foldl (fun b x => bracesAfter x.1 b) b) ys := by
  induction xs generalizing b with
  | nil => exact ⟨trivial, h⟩
  | cons x xs ih => exact ⟨⟨h.1, (ih h.2).1⟩, (ih h.2).2⟩

theorem Lexeme.lexed {b b' : List Bool} {w rest : List Char} {x : Symbol}
    (h : Lexeme b w (some x) b' rest) : Lexed (!b.headD false) x := by
  cases h with
  | text | comment | brace | string => trivial
  | mark hc =>
    have hkind := punctuation?_sound hc
    simp only [List.mem_cons, List.not_mem_nil, or_false] at hkind
    rcases hkind with rfl | rfl | rfl | rfl | rfl | rfl | rfl <;> trivial
  | word hw =>
    rcases classify?_cases hw.made with ⟨n, rfl, hn⟩ | ⟨y, rfl⟩ | ⟨v, rfl⟩ | rfl | rfl
    · exact hn
    · trivial
    · trivial
    · trivial
    · rw [Lexed, String.toList_ofList]
      exact hw

namespace Cuts
variable {p : Position} {b : List Bool} {text : List Char} {toks : List Token}

/-- Every token stands at a lexeme of its own. -/
theorem place (h : Cuts p b text toks) {t : Token} (ht : t ∈ toks) :
    ∃ before w after b₁ b₂, text = before ++ (w ++ after) ∧ t.pos = p.through before ∧
      Lexeme b₁ w (some t.symbol) b₂ after := by
  induction h with
  | nil => cases ht
  | @blank p b b' w rest toks h hrest ih =>
    obtain ⟨before, w', after, b₁, b₂, rfl, hpos, hlexeme⟩ := ih ht
    exact ⟨w ++ before, w', after, b₁, b₂, by simp, by rw [hpos, Position.through_append], hlexeme⟩
  | @token p b b' w rest x toks h hrest ih =>
    rcases List.mem_cons.mp ht with rfl | ht
    · exact ⟨[], w, rest, b, b', rfl, rfl, h⟩
    · obtain ⟨before, w', after, b₁, b₂, rfl, hpos, hlexeme⟩ := ih ht
      exact ⟨w ++ before, w', after, b₁, b₂, by simp, by rw [hpos, Position.through_append], hlexeme⟩

/-- Tokens carry what their kinds say. -/
theorem sound (h : Cuts p b text toks) : ∀ t ∈ toks, t.symbol.Sound := by
  intro t ht
  obtain ⟨_, _, _, _, _, -, -, hlexeme⟩ := h.place ht
  exact hlexeme.sound

theorem ne_eof (h : Cuts p b text toks) : ∀ t ∈ toks, t.kind ≠ .eof := by
  intro t ht
  obtain ⟨_, _, _, _, _, -, -, hlexeme⟩ := h.place ht
  exact hlexeme.ne_eof

/-- No token stands before the position from which the text is cut. -/
theorem offset_le (h : Cuts p b text toks) : ∀ t ∈ toks, p.offset ≤ t.pos.offset := by
  intro t ht
  obtain ⟨before, _, _, _, _, -, hpos, -⟩ := h.place ht
  rw [hpos, Position.offset_through]
  exact Nat.le_add_right _ _

/-- Every token stands behind the one before it, because a lexeme takes at least one character. -/
theorem behind (h : Cuts p b text toks) : (toks.map Token.pos).Pairwise (·.offset < ·.offset) := by
  induction h with
  | nil => exact .nil
  | blank h hrest ih => exact ih
  | @token p b b' w rest x toks h hrest ih =>
    refine List.pairwise_cons.mpr ⟨List.forall_mem_map.mpr fun t ht => ?_, ih⟩
    obtain ⟨c, w, rfl⟩ := List.exists_cons_of_ne_nil h.ne_nil
    have hbehind := hrest.offset_le t ht
    have hc := c.utf8Size_pos
    rw [Position.through_cons, Position.offset_through, Position.offset_after] at hbehind
    show p.offset < t.pos.offset
    omega

theorem lexed (h : Cuts p b text toks) : LexedAll b (toks.map Token.symbol) := by
  induction h with
  | nil => trivial
  | @blank p b b' w rest toks h hrest ih =>
    cases h
    exact ih
  | @token p b b' w rest x toks h hrest ih =>
    have hbraces := h.braces
    subst hbraces
    exact ⟨h.lexed, ih⟩

end Cuts

/-- The end of input stands behind the text, as the last token and no other. -/
theorem scan_ends {p : Position} {b : List Bool} {text : List Char} {toks : List Token}
    (h : scan p b text = .ok toks) :
    ∃ init, toks = init ++ [⟨.eof, .none, p.through text⟩] ∧ ∀ t ∈ init, t.kind ≠ .eof := by
  obtain ⟨init, rfl, hcuts⟩ := scan_cuts h
  exact ⟨init, rfl, hcuts.ne_eof⟩

/-- The tokens of a source: its lexemes, and the end of input behind all of it. -/
theorem tokenize_cuts {source : String} {toks : List Token} (h : tokenize source = .ok toks) :
    ∃ init, toks = init ++ [⟨.eof, .none, Position.start.through source.toList⟩] ∧
      Cuts Position.start [] source.toList init := scan_cuts h

end Lexer
end BraceTemplate
