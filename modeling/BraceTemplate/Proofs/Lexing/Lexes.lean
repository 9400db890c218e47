import BraceTemplate.Token.Lexer

/- What a piece of text adds to the tokens. `Lexes p b text toks b' rest` says that a scan at
   position `p` with the braces `b` open cuts `text` into `toks` when `rest` stands behind it,
   and goes on there with the braces `b'` open. One lexeme is one step of the lexer
   (`Lexes.of_step`), and longer texts are put together by `Lexes.append`; the lexemes of text
   outside braces and the marks inside braces are below. -/
namespace BraceTemplate
namespace Lexer

/-- The text in front of `rest` gives the tokens, and the scan goes on behind it. -/
def Lexes (p : Position) (b : List Bool) (text : List Char) (toks : List Token) (b' : List Bool)
    (rest : List Char) : Prop :=
  scan p b (text ++ rest) = (scan (p.through text) b' rest).map (toks ++ ·)

/-- The tokens of one lexeme: one, or none for a blank. -/
def lexemeTokens (p : Position) (token : Option (TokenKind × Payload)) : List Token :=
  token.toList.map fun t => ⟨t.1, t.2, p⟩

namespace Lexes
variable {p : Position} {b b₁ b₂ : List Bool} {text text' rest : List Char} {toks toks' : List Token}

theorem nil : Lexes p b [] [] b rest := by
  unfold Lexes
  rw [List.nil_append, Position.through_nil]
  cases scan p b rest <;> rfl

theorem append (h : Lexes p b text toks b₁ (text' ++ rest))
    (h' : Lexes (p.through text) b₁ text' toks' b₂ rest) :
    Lexes p b (text ++ text') (toks ++ toks') b₂ rest := by
  unfold Lexes at h h' ⊢
  rw [List.append_assoc, h, h', Position.through_append]
  cases scan ((p.through text).through text') b₂ rest with
  | error e => rfl
  | ok ts => simp [Except.map]

/-- A step that takes a whole lexeme. -/
theorem of_step {c : Char} (tail : List Char) (token : Option (TokenKind × Payload))
    (h : step b c (tail ++ rest) = .ok ⟨tail.length, token, b₁⟩) :
    Lexes p b (c :: tail) (lexemeTokens p token) b₁ rest := by
  unfold Lexes
  rw [List.cons_append, scan, h]
  simp only [List.take_left, List.drop_left]
  cases scan (p.through (c :: tail)) b₁ rest with
  | error e => rfl
  | ok ts =>
    cases token with
    | none => simp [lexemeTokens, Except.map]
    | some t => simp [lexemeTokens, Except.map]

/-- A text that is cut to the end of the input gives its tokens and the end of input. -/
theorem to_end (h : Lexes p b text toks b₁ []) :
    scan p b text = .ok (toks ++ [⟨.eof, .none, p.through text⟩]) := by
  unfold Lexes at h
  rw [List.append_nil] at h
  rw [h, scan]
  rfl

/-! Outside braces. -/

theorem step_run {c : Char} {tail : List Char} (hc : c ≠ '\x7b') (htail : ∀ d ∈ tail, d ≠ '\x7b')
    (hrest : ∀ d ∈ rest.head?, d = '\x7b') :
    step [] c (tail ++ rest) =
      .ok ⟨tail.length, some (.text, .str (String.ofList (c :: tail))), []⟩ := by
  have hstop : rest.takeWhile (· != '\x7b') = [] := by
    cases rest with
    | nil => rfl
    | cons d more => simp [List.takeWhile, hrest d rfl]
  have hrun : (tail ++ rest).takeWhile (· != '\x7b') = tail := by
    rw [List.takeWhile_append_of_pos (by simpa using htail), hstop, List.append_nil]
  simp only [step, List.isEmpty_nil, if_true, textStep, if_neg hc, hrun]

/-- A run of characters up to a brace or the end of input. -/
theorem run {c : Char} {tail : List Char} (hc : c ≠ '\x7b') (htail : ∀ d ∈ tail, d ≠ '\x7b')
    (hrest : ∀ d ∈ rest.head?, d = '\x7b') :
    Lexes p [] (c :: tail) [⟨.text, .str (String.ofList (c :: tail)), p⟩] [] rest :=
  of_step tail (some (.text, .str (String.ofList (c :: tail)))) (step_run hc htail hrest)

theorem step_brace (hrest : ¬ ['!', '-', '-'] <+: rest) :
    step [] '\x7b' rest = .ok ⟨0, some (.leftBrace, .none), [false]⟩ := by
  have hopen : commentOpen.isPrefixOf ('\x7b' :: rest) = false := by
    rw [Bool.eq_false_iff, ne_eq, List.isPrefixOf_iff_prefix]
    intro h
    exact hrest ((List.cons_prefix_cons.mp h).2)
  simp only [step, List.isEmpty_nil, if_true, textStep, hopen]
  rfl

/-- An opening brace that starts no comment. -/
theorem brace (hrest : ¬ ['!', '-', '-'] <+: rest) :
    Lexes p [] ['\x7b'] [⟨.leftBrace, .none, p⟩] [false] rest :=
  of_step [] (some (.leftBrace, .none)) (step_brace hrest)

/-- The first end of a comment is the one behind a body without such an end. -/
theorem commentBody?_append (rest : List Char) {body : List Char} (h : ¬ ['-', '-', '\x7d'] <:+: body) :
    commentBody? (body ++ ('-' :: '-' :: '\x7d' :: rest)) = some body := by
  induction body with
  | nil => rfl
  | cons c body ih =>
    have hbody : ¬ ['-', '-', '\x7d'] <:+: body := fun hi => h (List.infix_cons hi)
    rw [List.cons_append, commentBody?, ih hbody]
    · rfl
    · -- the three characters in front are no end, wherever the body stops
      rintro after rfl heq
      match body, heq with
      | [], heq => simp at heq
      | [d], heq => simp at heq
      | d :: e :: more, heq =>
        simp only [List.cons_append, List.cons.injEq] at heq
        obtain ⟨rfl, rfl, -⟩ := heq
        exact h (List.IsPrefix.isInfix ⟨more, rfl⟩)

theorem step_comment {body : List Char} (h : ¬ ['-', '-', '\x7d'] <:+: body) :
    step [] '\x7b' ('!' :: '-' :: '-' :: (body ++ ['-', '-', '\x7d']) ++ rest) =
      .ok ⟨body.length + 6, some (.comment, .str (String.ofList body)), []⟩ := by
  have hbody := commentBody?_append rest h
  have hopen : commentOpen.isPrefixOf
      ('\x7b' :: ('!' :: '-' :: '-' :: (body ++ ['-', '-', '\x7d'])) ++ rest) = true := rfl
  simp only [step, List.isEmpty_nil, if_true, textStep]
  rw [← List.cons_append, hopen]
  simp only [if_true, List.cons_append, List.append_assoc, List.drop_succ_cons, List.drop_zero,
    List.nil_append, hbody]

/-- A comment whose body holds no end of a comment. -/
theorem comment {body : List Char} (h : ¬ ['-', '-', '\x7d'] <:+: body) :
    Lexes p [] (commentOpen ++ (body ++ ['-', '-', '\x7d']))
      [⟨.comment, .str (String.ofList body), p⟩] [] rest := by
  refine of_step ('!' :: '-' :: '-' :: (body ++ ['-', '-', '\x7d']))
    (some (.comment, .str (String.ofList body))) ?_
  rw [step_comment h]
  simp

/-! Inside braces. -/

variable {f : Bool} {outer : List Bool}

/-- A mark of one character, and what stands behind it. -/
theorem mark (c : Char) {kind : TokenKind} (h : punctuation? c = some kind)
    (h' : Lexes (p.through [c]) (bracesAfter kind (f :: outer)) text toks b₁ rest) :
    Lexes p (f :: outer) (c :: text) (⟨kind, .none, p⟩ :: toks) b₁ rest := by
  have hmark : Lexes p (f :: outer) [c] [⟨kind, .none, p⟩] (bracesAfter kind (f :: outer))
      (text ++ rest) := by
    refine of_step [] (some (kind, .none)) ?_
    simp only [step, List.isEmpty_cons, Bool.false_eq_true, if_false, tagStep, h, List.length_nil]
  exact hmark.append h'

/-- A blank adds nothing. -/
theorem blank (h : Lexes (p.through [' ']) (f :: outer) text toks b₁ rest) :
    Lexes p (f :: outer) (' ' :: text) toks b₁ rest := by
  have hblank : Lexes p (f :: outer) [' '] [] (f :: outer) (text ++ rest) := of_step [] none rfl
  exact hblank.append h

end Lexes
end Lexer
end BraceTemplate
