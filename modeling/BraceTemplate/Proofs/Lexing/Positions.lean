import BraceTemplate.Proofs.Lexing.Lexemes
import BraceTemplate.Proofs.Lines

/- Positions of tokens and of faults. Every token stands behind the characters before it
   (`Lexer.Cuts.place`), and so does a fault, which is found at a character that is still there
   (`Lexer.scan_fault`): a step reports it inside the lexeme that it has begun
   (`Lexer.step_fault`). A position behind characters counts what is in front of it
   (`Position.isIn_through`), so all positions that the lexer gives are exact, those of the tokens
   ascend to the end of the source, and a fault lies before it (`Lexer.tokenize_positions`). -/
namespace BraceTemplate

theorem byteLength_toList (s : String) : byteLength s.toList = s.utf8ByteSize := by
  obtain ⟨l, rfl⟩ : ∃ l, s = String.ofList l := ⟨s.toList, (String.ofList_toList).symm⟩
  rw [String.toList_ofList]
  induction l using List.reverseRecOn with
  | nil => rfl
  | append_singleton l c ih =>
    have hpush : String.ofList (l ++ [c]) = (String.ofList l).push c := by
      rw [← String.toList_inj]
      simp
    rw [hpush, String.utf8ByteSize_push, byteLength_append, ih]
    rfl

theorem byteLength_pos {text : List Char} (h : text ≠ []) : 0 < byteLength text := by
  obtain ⟨c, tail, rfl⟩ := List.exists_cons_of_ne_nil h
  exact Nat.lt_of_lt_of_le c.utf8Size_pos (Nat.le_add_right _ (byteLength tail))

namespace Position

/-- The position is that of a place between characters of the source: it counts the lines up to
    there and the characters since the last line end, both from one, and the bytes before it. -/
def IsIn (source : String) (p : Position) : Prop :=
  ∃ before after : String, source = before ++ after ∧
    p = ⟨1 + before.toList.count '\n', 1 + (Text.lastLine before.toList).length, before.utf8ByteSize⟩

theorem isIn_through {source : String} {before after : List Char}
    (h : source.toList = before ++ after) : (start.through before).IsIn source := by
  refine ⟨String.ofList before, String.ofList after, ?_, ?_⟩
  · rw [← String.ofList_append, ← h, String.ofList_toList]
  · rw [← byteLength_toList, String.toList_ofList, start_through]

end Position

namespace Lexer

/-! Faults. -/

/-- A fault lies before the end of what a string body is read from. -/
theorem stringBody_fault {taken : Nat} {text : List Char} {f : Fault} (htaken : 0 < taken)
    (h : stringBody taken text = .error f) : f.skipped < taken + text.length := by
  fun_induction stringBody taken text with
  | case1 | case6 =>
    cases h
    exact Nat.add_pos_left htaken _
  | case2 => cases h
  | case3 taken a b c d rest ch hescape ih =>
    have hlt := ih (by omega) (Outcome.map_eq_error.mp h)
    simp only [List.length_cons]
    omega
  | case4 | case5 | case8 =>
    cases h
    simp
  | case7 taken e rest _ _ ch hescape ih =>
    have hlt := ih (by omega) (Outcome.map_eq_error.mp h)
    simp only [List.length_cons]
    omega
  | case9 taken c rest _ _ _ _ _ ih =>
    have hlt := ih (by omega) (Outcome.map_eq_error.mp h)
    simp only [List.length_cons]
    omega

/-- The bracket in which a word stands was opened among the characters that are behind. -/
def WordMode.OpenedBefore (taken : Nat) : WordMode → Prop
  | .path => True
  | .bracket opened => opened < taken
  | .quoted opened => opened < taken

/-- A word only fails for a bracket that it has opened. -/
theorem wordLength_fault {ns : Bool} {mode : WordMode} {taken : Nat} {text : List Char} {f : Fault}
    (hmode : mode.OpenedBefore taken) (h : wordLength ns mode taken text = .error f) :
    f.skipped < taken + text.length := by
  fun_induction wordLength ns mode taken text with
  | case1 | case5 => cases h
  | case2 ns taken c rest _ ih | case4 ns taken c rest _ _ _ ih =>
    have hlt := ih trivial h
    rw [List.length_cons]
    omega
  | case3 ns taken rest _ ih =>
    have hlt := ih (Nat.lt_succ_self taken) h
    rw [List.length_cons]
    omega
  | case6 | case10 | case11 =>
    cases h
    exact Nat.lt_of_lt_of_le hmode (Nat.le_add_right _ _)
  | case7 ns opened taken rest ih =>
    have hlt := ih trivial h
    rw [List.length_cons]
    omega
  | case8 ns opened taken rest _ ih | case9 ns opened taken c rest _ _ ih
  | case13 ns opened taken rest _ ih | case14 ns opened taken c rest _ _ ih =>
    have hlt := ih (Nat.lt_succ_of_lt hmode) h
    rw [List.length_cons]
    omega
  | case12 ns opened taken c rest ih =>
    have hlt := ih (Nat.lt_succ_of_lt (Nat.lt_succ_of_lt hmode)) h
    simp only [List.length_cons]
    omega

theorem textStep_fault {c : Char} {rest : List Char} {f : Fault} (h : textStep c rest = .error f) :
    f.skipped = 0 := by
  unfold textStep at h
  split at h
  · split at h
    · split at h
      · cases h
      · cases h
        rfl
    · cases h
  · cases h

theorem tagStep_fault {b : List Bool} {c : Char} {rest : List Char} {f : Fault}
    (h : tagStep b c rest = .error f) : f.skipped < 1 + rest.length := by
  have hfirst : 0 < 1 + rest.length := Nat.add_pos_left Nat.one_pos _
  unfold tagStep at h
  split at h
  · cases h
  · split at h
    · cases h
    · split at h
      · split at h
        · cases h
        · rename_i hbody
          cases h
          exact stringBody_fault Nat.one_pos hbody
      · split at h
        · split at h
          · split at h
            · cases h
            · cases h
              exact hfirst
          · rename_i hword
            cases h
            have hpath : WordMode.path.OpenedBefore 1 := trivial
            exact wordLength_fault hpath hword
        · cases h
          exact hfirst

/-- A step finds its fault at one of the characters in front of it. -/
theorem step_fault {b : List Bool} {c : Char} {rest : List Char} {f : Fault}
    (h : step b c rest = .error f) : f.skipped < (c :: rest).length := by
  rw [List.length_cons, Nat.add_comm]
  unfold step at h
  split at h
  · rw [textStep_fault h]
    exact Nat.add_pos_left Nat.one_pos _
  · exact tagStep_fault h

/-- A scan that fails does so at a character of the text. -/
theorem scan_fault {p : Position} {b : List Bool} {text : List Char} {e : LexError}
    (h : scan p b text = .error e) :
    ∃ before after, text = before ++ after ∧ after ≠ [] ∧ e.pos = p.through before := by
  fun_induction scan p b text with
  | case1 => cases h
  | case2 p b c rest f hstep =>
    cases h
    refine ⟨(c :: rest).take f.skipped, (c :: rest).drop f.skipped, ?_, ?_, rfl⟩
    · exact (List.take_append_drop _ _).symm
    · rw [ne_eq, List.drop_eq_nil_iff, Nat.not_le]
      exact step_fault hstep
  | case3 p b c rest s hstep lexeme e' hscan ih =>
    cases h
    obtain ⟨before, after, hrest, hafter, hpos⟩ := ih hscan
    refine ⟨lexeme ++ before, after, ?_, hafter, ?_⟩
    · rw [List.append_assoc, ← hrest]
      exact congrArg (c :: ·) (List.take_append_drop _ _).symm
    · rw [hpos, Position.through_append]
  | case4 => cases h
  | case5 => cases h

/-! Positions of tokens. -/

/-- Every token stands before the end of the text. -/
theorem Cuts.before_end {p : Position} {b : List Bool} {text : List Char} {toks : List Token}
    (h : Cuts p b text toks) : ∀ t ∈ toks, t.pos.offset < (p.through text).offset := by
  intro t ht
  obtain ⟨before, w, after, _, _, rfl, hpos, hlexeme⟩ := h.place ht
  have hw := byteLength_pos hlexeme.ne_nil
  rw [hpos, Position.offset_through, Position.offset_through, byteLength_append, byteLength_append]
  omega

/-- Positions are exact. Those of the tokens of a source are places between its characters, their
    offsets ascend strictly, and the end of input is the last of them, at the length of the source
    in bytes. The position of a fault is such a place too, and lies before the end. -/
theorem tokenize_positions (source : String) :
    match tokenize source with
    | .ok toks => (∀ t ∈ toks, t.pos.IsIn source) ∧
        (toks.map Token.pos).Pairwise (·.offset < ·.offset) ∧
        ∃ init eof, toks = init ++ [eof] ∧ (∀ t ∈ init, t.kind ≠ .eof) ∧ eof.kind = .eof ∧
          eof.pos.offset = source.utf8ByteSize
    | .error e => e.pos.IsIn source ∧ e.pos.offset < source.utf8ByteSize := by
  cases htokens : tokenize source with
  | ok toks =>
    obtain ⟨init, rfl, hcuts⟩ := tokenize_cuts htokens
    refine ⟨fun t ht => ?_, ?_, init, _, rfl, hcuts.ne_eof, rfl, ?_⟩
    · rcases List.mem_append.mp ht with ht | ht
      · obtain ⟨before, w, after, _, _, hsource, hpos, -⟩ := hcuts.place ht
        rw [hpos]
        exact Position.isIn_through hsource
      · rw [List.mem_singleton.mp ht]
        exact Position.isIn_through (List.append_nil _).symm
    · rw [List.map_append, List.pairwise_append]
      refine ⟨hcuts.behind, List.pairwise_singleton _ _, List.forall_mem_map.mpr fun t ht => ?_⟩
      simpa using hcuts.before_end t ht
    · rw [Position.offset_through, byteLength_toList]
      exact Nat.zero_add _
  | error e =>
    obtain ⟨before, after, hsource, hafter, hpos⟩ := scan_fault htokens
    have hbehind := byteLength_pos hafter
    refine ⟨hpos ▸ Position.isIn_through hsource, ?_⟩
    rw [hpos, Position.offset_through, ← byteLength_toList, hsource, byteLength_append]
    show 0 + byteLength before < _
    omega

/-- The escape that is none stands on the second line, behind two characters of two bytes. -/
example : tokenize "é\nü\x7ba \"\\q\"" = .error ⟨.invalidEscape, ⟨2, 6, 9⟩⟩ := by decide +kernel

end Lexer
end BraceTemplate
