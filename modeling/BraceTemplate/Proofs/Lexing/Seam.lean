import BraceTemplate.Proofs.Lexing.Lexemes
import BraceTemplate.Proofs.Lines
import BraceTemplate.Proofs.Moved

/- Texts one behind the other. A place in the second text stands elsewhere in the whole
   (`Position.behind`), and a scan that starts there finds the same tokens, moved (`scan_behind`).
   A step of the lexer looks no further than the character or two behind its lexeme
   (`step_append`). So where the first text ends in a closing brace or a comment, with no brace
   open, the seam is not seen: the tokens of the whole are those of the first text and, moved,
   those of the second (`tokenize_append`). -/
namespace BraceTemplate

/-! Positions. -/

namespace Position

/-- A position in a text that stands behind another one. -/
def behind (before : List Char) (p : Position) : Position where
  line := p.line + before.count '\n'
  column := if p.line = 1 then p.column + (Text.lastLine before).length else p.column
  offset := p.offset + byteLength before

theorem behind_start (before : List Char) : start.behind before = start.through before := by
  rw [start_through]
  simp [behind, start]

theorem line_after {p : Position} (hp : 1 ≤ p.line) (c : Char) : 1 ≤ (p.after c).line := by
  unfold after
  split
  · exact Nat.le_add_left 1 p.line
  · exact hp

theorem line_through {p : Position} (hp : 1 ≤ p.line) (text : List Char) :
    1 ≤ (p.through text).line := by
  induction text generalizing p with
  | nil => exact hp
  | cons c text ih => exact ih (line_after hp c)

/-- On the first line the characters of the text before count, on later lines they do not. -/
theorem after_behind {p : Position} (hp : 1 ≤ p.line) (before : List Char) (c : Char) :
    (p.behind before).after c = (p.after c).behind before := by
  by_cases hc : c = '\n'
  · have hlater : p.line + 1 ≠ 1 := by omega
    simp only [after, behind, if_pos hc, if_neg hlater]
    congr 1 <;> omega
  · simp only [after, behind, if_neg hc]
    split
    · congr 1 <;> omega
    · congr 1
      omega

theorem through_behind {p : Position} (hp : 1 ≤ p.line) (before text : List Char) :
    (p.behind before).through text = (p.through text).behind before := by
  induction text generalizing p with
  | nil => rfl
  | cons c text ih => rw [through_cons, through_cons, after_behind hp, ih (line_after hp c)]

end Position

namespace Lexer

/-- A scan that starts elsewhere finds the same tokens there, or the same fault. -/
theorem scan_behind {p : Position} (hp : 1 ≤ p.line) (before : List Char) (b : List Bool)
    (text : List Char) : scan (p.behind before) b text =
      Outcome.bimap (LexError.moved (Position.behind before))
        (List.map (Token.moved (Position.behind before))) (scan p b text) := by
  fun_induction scan p b text with
  | case1 p b =>
    rw [scan]
    rfl
  | case2 p b c rest fault hstep =>
    rw [scan, hstep]
    simp only [Position.through_behind hp]
    rfl
  | case3 p b c rest s hstep lexeme e hscan ih =>
    have hmoved := ih (Position.line_through hp _)
    rw [hscan] at hmoved
    rw [scan, hstep]
    simp only [Position.through_behind hp]
    rw [hmoved]
    rfl
  | case4 p b c rest s hstep lexeme toks hscan kind payload htoken ih =>
    have hmoved := ih (Position.line_through hp _)
    rw [hscan] at hmoved
    rw [scan, hstep]
    simp only [Position.through_behind hp]
    rw [hmoved]
    simp only [Outcome.bimap, htoken]
    rfl
  | case5 p b c rest s hstep lexeme toks hscan htoken ih =>
    have hmoved := ih (Position.line_through hp _)
    rw [hscan] at hmoved
    rw [scan, hstep]
    simp only [Position.through_behind hp]
    rw [hmoved]
    simp only [Outcome.bimap, htoken]

/-! Steps in front of more text. -/

variable {ns : Bool} {mode : WordMode} {taken n : Nat} {text : List Char}

theorem opensLocalName_append (h : text ≠ []) (more : List Char) :
    opensLocalName (text ++ more) = opensLocalName text := by
  cases text with
  | nil => exact absurd rfl h
  | cons c text => rfl

/-- A word that is read to `n` ends before the text does, and not in front of a last colon. -/
structure EndsInside (taken n : Nat) (text : List Char) : Prop where
  short : n < taken + text.length
  colon : text.drop (n - taken) ≠ [':']

theorem EndsInside.over (cs : List Char) (h : EndsInside taken n (cs ++ text))
    (hn : taken + cs.length ≤ n) : EndsInside (taken + cs.length) n text := by
  constructor
  · have hshort := h.short
    rw [List.length_append] at hshort
    omega
  · have hcolon := h.colon
    have hsplit : n - taken = cs.length + (n - (taken + cs.length)) := by omega
    rwa [hsplit, List.drop_append, List.drop_eq_nil_of_le (Nat.le_add_right _ _), List.nil_append,
      Nat.add_sub_cancel_left] at hcolon

/-- Such a word is the same in front of more text. -/
theorem wordLength_append (h : wordLength ns mode taken text = .ok n) (hends : EndsInside taken n text)
    (more : List Char) : wordLength ns mode taken (text ++ more) = .ok n := by
  fun_induction wordLength ns mode taken text with
  | case1 ns taken =>
    cases h
    exact absurd hends.short (Nat.lt_irrefl _)
  | case2 ns taken c rest hc ih =>
    rw [List.cons_append, wordLength, if_pos hc]
    exact ih h (hends.over [c] (wordLength_le h))
  | case3 ns taken rest hc ih =>
    rw [List.cons_append, wordLength, if_neg hc, if_pos rfl]
    exact ih h (hends.over ['['] (wordLength_le h))
  | case4 ns taken c rest hc hbracket hmark ih =>
    have hopens : opensLocalName rest = true := (Bool.and_eq_true _ _ ▸ hmark).2
    have hne : rest ≠ [] := fun e => by simp [e, opensLocalName] at hopens
    rw [List.cons_append, wordLength, if_neg hc, if_neg hbracket, opensLocalName_append hne,
      if_pos hmark]
    exact ih h (hends.over [c] (wordLength_le h))
  | case5 ns taken c rest hword hbracket hmark =>
    cases h
    -- a colon that ends the word has something behind it already
    have hlater : (c = ':' && ns && opensLocalName (rest ++ more)) = false := by
      by_cases hc : c = ':'
      · have hne : rest ≠ [] := by
          rintro rfl
          exact hends.colon (by simp [hc])
        rw [opensLocalName_append hne]
        simpa using hmark
      · simp [hc]
    rw [List.cons_append, wordLength, if_neg hword, if_neg hbracket, hlater]
    rfl
  | case6 => cases h
  | case7 ns opened taken rest ih =>
    rw [List.cons_append, wordLength, if_pos rfl]
    exact ih h (hends.over [']'] (wordLength_le h))
  | case8 ns opened taken rest hclose ih =>
    rw [List.cons_append, wordLength, if_neg hclose, if_pos rfl]
    exact ih h (hends.over ['"'] (wordLength_le h))
  | case9 ns opened taken c rest hclose hquote ih =>
    rw [List.cons_append, wordLength, if_neg hclose, if_neg hquote]
    exact ih h (hends.over [c] (wordLength_le h))
  | case10 => cases h
  | case11 => cases h
  | case12 ns opened taken c rest ih =>
    rw [List.cons_append, List.cons_append, wordLength]
    exact ih h (hends.over ['\\', c] (wordLength_le h))
  | case13 ns opened taken rest hescape ih =>
    rw [List.cons_append, wordLength, if_pos rfl]
    · exact ih h (hends.over ['"'] (wordLength_le h))
    · exact hescape
  | case14 ns opened taken c rest hescape hquote ih =>
    rw [List.cons_append, wordLength, if_neg hquote]
    · exact ih h (hends.over [c] (wordLength_le h))
    · exact hescape

/-- What stands behind a lexeme keeps further text from changing it: there is something, unless the
    lexeme shows its own end, and it is no colon alone, and behind a brace it begins no comment. -/
structure Firm (token : Option Symbol) (behind : List Char) : Prop where
  ended : behind = [] → ∃ x, token = some x ∧ x.1 ∈ [.rightBrace, .comment]
  colon : behind ≠ [':']
  brace : token = some (.leftBrace, .none) → behind.head? ≠ some '!'

theorem Firm.ne_nil {x : Symbol} {behind : List Char} (h : Firm (some x) behind)
    (hx : x.1 ∉ [.rightBrace, .comment]) : behind ≠ [] := by
  intro hnil
  obtain ⟨y, hy, hkind⟩ := h.ended hnil
  obtain rfl := Option.some.inj hy
  exact hx hkind

variable {b : List Bool} {c : Char} {rest : List Char} {s : Step}

/-- The step takes the same lexeme in front of further text, where the lexeme is firm. -/
def Keeps (b : List Bool) (c : Char) (rest : List Char) (s : Step) : Prop :=
  ∃ tail behind, rest = tail ++ behind ∧ s.extra = tail.length ∧
    ∀ more, Firm s.token behind → step b c (tail ++ (behind ++ more)) = .ok s

theorem textStep_keeps (h : textStep c rest = .ok s) : Keeps [] c rest s := by
  unfold textStep at h
  split at h
  · rename_i hc
    obtain rfl : c = '\x7b' := hc
    split at h
    · rename_i hopen
      obtain ⟨behind, hbehind⟩ := List.isPrefixOf_iff_prefix.mp hopen
      obtain rfl : rest = '!' :: '-' :: '-' :: behind := (List.cons.inj hbehind).2.symm
      split at h
      · rename_i body hbody
        cases h
        obtain ⟨hno, behind, rfl⟩ := commentBody?_some hbody
        refine ⟨'!' :: '-' :: '-' :: (body ++ ['-', '-', '\x7d']), behind, by simp, by simp, ?_⟩
        exact fun more _ => Lexes.step_comment hno
      · cases h
    · rename_i hopen
      cases h
      refine ⟨[], rest, rfl, rfl, fun more hfirm => ?_⟩
      -- neither the brace alone nor what stands behind it is the start of a comment
      refine Lexes.step_brace fun hcomment => hfirm.brace rfl ?_
      obtain ⟨d, rest, rfl⟩ := List.exists_cons_of_ne_nil (hfirm.ne_nil (by simp))
      exact congrArg some (List.cons_prefix_cons.mp hcomment).1.symm
  · rename_i hc
    cases h
    obtain ⟨run, behind, rfl, hrun, hno, hbehind⟩ := run_split rest
    refine ⟨run, behind, rfl, by rw [hrun], fun more hfirm => ?_⟩
    obtain ⟨d, behind, rfl⟩ := List.exists_cons_of_ne_nil (hfirm.ne_nil (by simp))
    rw [hrun]
    exact Lexes.step_run hc (fun e he heq => hno (heq ▸ he)) hbehind

/-- A word is read to the same place in front of further text, and is the same token. -/
theorem word_keeps {token : Symbol} (hlength : wordLength ns mode 1 rest = .ok n)
    (htoken : classify? ((c :: rest).take n) = some token) :
    ∃ tail behind, rest = tail ++ behind ∧ n = 1 + tail.length ∧ ∀ more, Firm (some token) behind →
      wordLength ns mode 1 (tail ++ (behind ++ more)) = .ok (1 + tail.length) ∧
      classify? ((c :: (tail ++ (behind ++ more))).take (1 + tail.length)) = some token := by
  obtain ⟨tail, behind, rfl, rfl, -⟩ := readsAgain hlength
  have htake : ∀ text, (c :: (tail ++ text)).take (1 + tail.length) = c :: tail := by
    intro text
    rw [Nat.add_comm, List.take_succ_cons, List.take_left]
  rw [htake] at htoken
  refine ⟨tail, behind, rfl, rfl, fun more hfirm => ⟨?_, by rw [htake, htoken]⟩⟩
  have hkind : token.1 ∉ [.rightBrace, .comment] := by
    rcases classify?_cases htoken with ⟨m, rfl, -⟩ | ⟨y, rfl⟩ | ⟨v, rfl⟩ | rfl | rfl <;> simp
  have hbehind := List.length_pos_iff.mpr (hfirm.ne_nil hkind)
  have hends : EndsInside 1 (1 + tail.length) (tail ++ behind) := by
    constructor
    · rw [List.length_append]
      omega
    · rw [Nat.add_sub_cancel_left, List.drop_left]
      exact hfirm.colon
  rw [← List.append_assoc]
  exact wordLength_append hlength hends more

theorem tagStep_keeps {f : Bool} {outer : List Bool} (h : tagStep (f :: outer) c rest = .ok s) :
    Keeps (f :: outer) c rest s := by
  unfold tagStep at h
  split at h
  · rename_i kind hkind
    cases h
    refine ⟨[], rest, rfl, rfl, fun more _ => ?_⟩
    show tagStep _ c _ = _
    simp only [tagStep, hkind]
  · rename_i hmark
    split at h
    · rename_i hblank
      cases h
      refine ⟨[], rest, rfl, rfl, fun more _ => ?_⟩
      show tagStep _ c _ = _
      simp only [tagStep, hmark, hblank, if_true]
    · rename_i hblank
      split at h
      · rename_i hquote
        split at h
        · rename_i body n hbody
          cases h
          obtain ⟨tail, behind, rfl, rfl, hread⟩ := stringBody_some hbody
          refine ⟨tail, behind, rfl, rfl, fun more _ => ?_⟩
          show tagStep _ c _ = _
          unfold tagStep
          rw [hmark]
          simp only [hquote, if_true, hread]
          rfl
        · cases h
      · rename_i hquote
        split at h
        · rename_i hstart
          split at h
          · rename_i n hlength
            split at h
            · rename_i token htoken
              cases h
              obtain ⟨tail, behind, rfl, rfl, hagain⟩ := word_keeps hlength htoken
              refine ⟨tail, behind, rfl, Nat.add_sub_cancel_left _ _, fun more hfirm => ?_⟩
              obtain ⟨hread, htoken⟩ := hagain more hfirm
              show tagStep _ c _ = _
              unfold tagStep
              rw [hmark]
              simp only [hblank, hquote, hstart, if_true, if_false, hread, htoken]
              rfl
            · cases h
          · cases h
        · cases h

theorem step_keeps (h : step b c rest = .ok s) : Keeps b c rest s := by
  cases b with
  | nil => exact textStep_keeps h
  | cons f outer => exact tagStep_keeps h

/-! Scans in front of more text. -/

/-- The braces that are open behind tokens. -/
def bracesBehind (b : List Bool) (toks : List Token) : List Bool :=
  toks.foldl (fun b t => bracesAfter t.kind b) b

/-- The last token shows its own end. -/
def EndsFirm (toks : List Token) : Prop := ∀ t ∈ toks.getLast?, t.kind ∈ [.rightBrace, .comment]

theorem EndsFirm.of_cons {t : Token} {toks : List Token} (h : EndsFirm (t :: toks)) :
    EndsFirm toks := by
  intro u hu
  apply h u
  rw [List.getLast?_cons, Option.mem_def.mp hu]
  rfl

variable {p : Position} {toks : List Token} {eof : Token}

theorem scan_nil (h : scan p b [] = .ok (toks ++ [eof])) : toks = [] := by
  rw [scan] at h
  have heq : toks ++ [eof] = [] ++ [_] := (Except.ok.inj h).symm
  exact (List.append_inj' heq rfl).1

/-- A blank stands inside braces and leaves them alone. -/
theorem Lexeme.inside {b b' : List Bool} {w rest : List Char} (h : Lexeme b w none b' rest) :
    b ≠ [] ∧ b' = b := by
  cases h with
  | blank => exact ⟨List.cons_ne_nil _ _, rfl⟩

/-- A colon alone is a token that does not show its end. -/
theorem scan_colon (h : scan p b [':'] = .ok (toks ++ [eof])) : ¬ EndsFirm toks := by
  obtain ⟨x, b', hstep, hx⟩ : ∃ x b', step b ':' [] = .ok ⟨0, some x, b'⟩ ∧
      x.1 ∉ [.rightBrace, .comment] := by
    cases b with
    | nil => exact ⟨(.text, .str (String.ofList [':'])), [], rfl, by simp⟩
    | cons f outer => exact ⟨(.colon, .none), f :: outer, rfl, by simp⟩
  rw [scan, hstep] at h
  simp only [List.take_nil, List.drop_nil, scan] at h
  have heq : toks ++ [eof] = [_] ++ [_] := (Except.ok.inj h).symm
  obtain ⟨rfl, -⟩ := List.append_inj' heq rfl
  intro hfirm
  exact hx (hfirm _ rfl)

/-- Inside braces there begins nothing with an exclamation mark. -/
theorem scan_exclamation {f : Bool} {outer : List Bool} {ts : List Token} :
    scan p (f :: outer) ('!' :: text) ≠ .ok ts := by
  have hstep : step (f :: outer) '!' text = .error ⟨.unexpectedCharacter '!', 0⟩ := by
    have hword : isWordStart '!' = false := by decide
    have hblank : Text.isWhitespace '!' = false := by decide
    simp [step, tagStep, punctuation?, hword, hblank]
  rw [scan, hstep]
  simp

theorem firm_of_scan {token : Option Symbol} {behind : List Char}
    (hended : behind = [] → ∃ x, token = some x ∧ x.1 ∈ [.rightBrace, .comment])
    (hbraces : token = some (.leftBrace, .none) → b ≠ [])
    (hscan : scan p b behind = .ok (toks ++ [eof])) (hfirm : EndsFirm toks) : Firm token behind := by
  refine ⟨hended, ?_, fun hbrace hhead => ?_⟩
  · rintro rfl
    exact scan_colon hscan hfirm
  · obtain ⟨f, outer, rfl⟩ := List.exists_cons_of_ne_nil (hbraces hbrace)
    obtain ⟨rest, rfl⟩ := List.head?_eq_some_iff.mp hhead
    exact scan_exclamation hscan

/-- In front of more text too, a firm lexeme comes first and the tokens behind it follow. -/
theorem lexes_of_step (hstep : step b c rest = .ok s)
    (hfirm : Firm s.token (rest.drop s.extra)) {more : List Char}
    (hbehind : Lexes (p.through (c :: rest.take s.extra)) s.braces (rest.drop s.extra) toks [] more) :
    Lexes p b (c :: rest) (lexemeTokens p s.token ++ toks) [] more := by
  obtain ⟨tail, behind, rfl, hextra, hkeeps⟩ := step_keeps hstep
  rw [hextra, List.drop_left] at hfirm hbehind
  rw [List.take_left] at hbehind
  have hfirst : Lexes p b (c :: tail) (lexemeTokens p s.token) s.braces (behind ++ more) := by
    apply Lexes.of_step
    rw [hkeeps more hfirm, ← hextra]
  exact hfirst.append hbehind

/-- A text that ends with a closing brace or a comment, outside all braces, is cut in the same way
    in front of more text. -/
theorem scan_append (h : scan p b text = .ok (toks ++ [eof])) (hfirm : EndsFirm toks)
    (hclosed : bracesBehind b toks = []) (more : List Char) : Lexes p b text toks [] more := by
  fun_induction scan p b text generalizing toks with
  | case1 p b =>
    obtain rfl : toks = [] := scan_nil (p := p) (b := b) (by rw [scan]; exact h)
    obtain rfl : b = [] := hclosed
    exact .nil
  | case2 => cases h
  | case3 => cases h
  | case4 p b c rest s hstep lexeme ts hscan kind payload htoken =>
    rename_i ih
    obtain ⟨init, rfl, -⟩ := scan_ends hscan
    have heq : toks ++ [eof] = (_ :: init) ++ [_] := (Except.ok.inj h).symm
    obtain ⟨rfl, hlast⟩ := List.append_inj' heq rfl
    rw [← hlast] at hscan
    have hlexeme := lexeme_of_step hstep
    rw [htoken] at hlexeme
    have hbraces : s.braces = bracesAfter kind b := hlexeme.braces
    have hbehind := ih hscan hfirm.of_cons (by rw [hbraces]; exact hclosed)
    have hnow : Firm s.token (rest.drop s.extra) := by
      refine firm_of_scan ?_ ?_ hscan hfirm.of_cons
      · -- when nothing stands behind it, the token is the last one
        intro hnil
        rw [hnil] at hscan
        obtain rfl := scan_nil hscan
        exact ⟨(kind, payload), htoken, hfirm _ rfl⟩
      · intro hbrace
        obtain rfl : kind = .leftBrace := by
          rw [htoken] at hbrace
          exact (Prod.mk.inj (Option.some.inj hbrace)).1
        rw [hbraces]
        exact List.cons_ne_nil _ _
    have hall := lexes_of_step hstep hnow hbehind
    rwa [htoken] at hall
  | case5 p b c rest s hstep lexeme ts hscan htoken =>
    rename_i ih
    obtain rfl := Except.ok.inj h
    have hlexeme := lexeme_of_step hstep
    rw [htoken] at hlexeme
    obtain ⟨hopen, hbraces⟩ := hlexeme.inside
    have hbehind := ih hscan hfirm (by rw [hbraces]; exact hclosed)
    have hnow : Firm s.token (rest.drop s.extra) := by
      refine firm_of_scan ?_ (fun hbrace => ?_) hscan hfirm
      · -- behind a blank at the end a brace would be open
        intro hnil
        rw [hnil] at hscan
        obtain rfl := scan_nil hscan
        exact absurd hclosed hopen
      · rw [htoken] at hbrace
        cases hbrace
    have hall := lexes_of_step hstep hnow hbehind
    rwa [htoken] at hall

/-- The tokens of a source behind another one whose tokens end firm and outside all braces. -/
theorem tokenize_append {source : String} (htoks : tokenize source = .ok (toks ++ [eof]))
    (hfirm : EndsFirm toks) (hclosed : bracesBehind [] toks = []) (more : String) :
    tokenize (source ++ more) = Outcome.bimap (LexError.moved (Position.behind source.toList))
      (fun ts => toks ++ ts.map (Token.moved (Position.behind source.toList))) (tokenize more) := by
  have hseam : Lexes Position.start [] source.toList toks [] more.toList :=
    scan_append htoks hfirm hclosed more.toList
  unfold Lexes at hseam
  rw [← Position.behind_start, scan_behind (Nat.le_refl _)] at hseam
  rw [tokenize, String.toList_append, hseam, tokenize]
  cases scan Position.start [] more.toList <;> rfl

end Lexer
end BraceTemplate
