import BraceTemplate.Proofs.Lexing.Lexes
import BraceTemplate.Proofs.Blanks
import BraceTemplate.Proofs.Printing.Print
import BraceTemplate.Proofs.Reading.Paths

/- Words inside braces. A word goes on over the characters of names and paths and over whole
   brackets, and ends in front of anything else (`EndsWord`); what it is made of says whether
   it is a number, a keyword or an identifier. `WordToken ns word token` says that the word is
   read to its end as the token in front of whatever ends a word. Names, paths, numbers and
   keywords are such words, and so is every word that the lexer takes
   (`wordToken_of_wordLength`). -/
namespace BraceTemplate
namespace Lexer

/-! How far a word goes. -/

/-- A character that a word starts with inside braces. -/
def StartsWord (c : Char) : Prop :=
  punctuation? c = none ∧ Text.isWhitespace c = false ∧ c ≠ '"' ∧ isWordStart c = true

theorem isWhitespace_of_isWordChar {c : Char} (h : isWordChar c = true) :
    Text.isWhitespace c = false := by
  by_contra hblank
  have halnum := Text.isAlphanumeric_of_isWhitespace (Bool.of_not_eq_false hblank)
  simp only [isWordChar, halnum, Bool.false_or, Bool.or_eq_true, decide_eq_true_eq] at h
  rcases h with ((rfl | rfl) | rfl) | rfl <;> exact hblank (by decide)

theorem isWordChar_of_isWordStart {c : Char} (h : isWordStart c = true) : isWordChar c = true := by
  simp only [isWordStart] at h
  simp only [isWordChar, h, Bool.true_or]

theorem startsWord_of_isWordStart {c : Char} (h : isWordStart c = true) : StartsWord c := by
  have ne : ∀ d : Char, isWordStart d = false → c ≠ d := fun d hd e => by simp [e, hd] at h
  refine ⟨?_, isWhitespace_of_isWordChar (isWordChar_of_isWordStart h), ne _ (by decide), h⟩
  unfold punctuation?
  split <;> first | rfl | exact absurd rfl (ne _ (by decide))

theorem startsWord_of_ascii {c : Char} (h : c.isAlphanum = true ∨ c = '_' ∨ c = '-') :
    StartsWord c := by
  refine startsWord_of_isWordStart ?_
  rcases h with h | rfl | rfl
  · simp [isWordStart, Text.isAlphanumeric_of_alphanum h]
  · decide
  · decide

variable {ns : Bool} {taken opened : Nat} {rest : List Char}

theorem wordLength_run {cs : List Char} (h : ∀ c ∈ cs, isWordChar c = true) :
    wordLength ns .path taken (cs ++ rest) = wordLength ns .path (taken + cs.length) rest := by
  induction cs generalizing taken with
  | nil => rfl
  | cons c cs ih =>
    rw [List.cons_append, wordLength, if_pos (h c (by simp)), ih (fun d hd => h d (by simp [hd]))]
    rw [List.length_cons, Nat.add_assoc, Nat.add_comm 1]

theorem wordLength_bracket_run {cs : List Char} (h : ∀ c ∈ cs, c ≠ ']' ∧ c ≠ '"') :
    wordLength ns (.bracket opened) taken (cs ++ rest) =
      wordLength ns (.bracket opened) (taken + cs.length) rest := by
  induction cs generalizing taken with
  | nil => rfl
  | cons c cs ih =>
    rw [List.cons_append, wordLength, if_neg (h c (by simp)).1, if_neg (h c (by simp)).2,
      ih (fun d hd => h d (by simp [hd]))]
    rw [List.length_cons, Nat.add_assoc, Nat.add_comm 1]

open BraceTemplate.Path (KeySpelled StepSpelled SpelledBehind Spelled)

theorem wordLength_keySpelled {w k : List Char} (h : KeySpelled '"' w k) :
    wordLength ns (.quoted opened) taken (w ++ rest) =
      wordLength ns (.quoted opened) (taken + w.length) rest := by
  induction h generalizing taken with
  | nil => rfl
  | @escaped c w k h ih =>
    -- an escape takes two characters, and the second is read as it is
    simp only [List.cons_append, wordLength, ih, List.length_cons]
    congr 1; omega
  | @plain c w k hquote hbackslash h ih =>
    rw [List.cons_append, wordLength, if_neg hquote, ih, List.length_cons]
    · congr 1; omega
    · exact hbackslash

/-- Between single quotes the lexer sees neither a quote nor the end of the bracket. -/
def Harmless (w : List Char) : Prop := ']' ∉ w ∧ '"' ∉ w

/-- A bracket belongs to the word. -/
theorem wordLength_stepSpelled {inside : List Char} {s : PathStep} (h : StepSpelled Harmless inside s) :
    wordLength ns .path taken ('[' :: (inside ++ ']' :: rest)) =
      wordLength ns .path (taken + (inside.length + 2)) rest := by
  have hopen : isWordChar '[' = false := by decide
  rw [wordLength, hopen, if_neg (by decide), if_pos rfl]
  -- without double quotes the bracket goes up to its first end
  have hplain : ']' ∉ inside → '"' ∉ inside →
      wordLength ns (.bracket taken) (taken + 1) (inside ++ ']' :: rest) =
        wordLength ns .path (taken + (inside.length + 2)) rest := by
    intro hend hquote
    rw [wordLength_bracket_run fun c hc => ⟨fun e => hend (e ▸ hc), fun e => hquote (e ▸ hc)⟩,
      wordLength, if_pos rfl]
    congr 1; omega
  cases h with
  | index hend hn => exact hplain hend (Path.quote_not_mem hn (.inl rfl))
  | @key w k hk =>
    simp only [List.cons_append, List.append_assoc, List.nil_append]
    rw [wordLength, if_neg (by decide), if_pos rfl, wordLength_keySpelled hk, wordLength, if_pos rfl,
      wordLength, if_pos rfl]
    · simp only [List.length_cons, List.length_append, List.length_nil]
      congr 1; omega
    · decide
  | @singleKey w k hw hk => exact hplain (by simp [hw.1]) (by simp [hw.2])

/-- The segments of a path belong to its word. -/
theorem wordLength_spelledBehind {safe : Bool} {w : List Char} {path : List PathSegment}
    (h : SpelledBehind Harmless safe w path) :
    wordLength ns .path taken (w ++ rest) = wordLength ns .path (taken + w.length) rest := by
  induction h generalizing taken with
  | nil => rfl
  | @field safe next name w path hname h ih =>
    have hjoint : ∀ c ∈ Path.joint safe, isWordChar c = true := by
      cases safe <;> simp [Path.joint, isWordChar]
    rw [List.append_assoc, List.append_assoc, wordLength_run hjoint,
      wordLength_run fun c hc => isWordChar_of_isWordStart (Path.isFieldName_chars hname c hc), ih]
    simp only [List.length_append]
    congr 1; omega
  | @bracket next inside w s path hstep h ih =>
    rw [List.cons_append, List.append_assoc, List.cons_append, wordLength_stepSpelled hstep, ih]
    simp only [List.length_cons, List.length_append]
    congr 1; omega

/-- Nothing that stands here belongs to a word before it. -/
def EndsWord (ns : Bool) (rest : List Char) : Prop :=
  ∀ c ∈ rest.head?, isWordChar c = false ∧ c ≠ '[' ∧ (ns = true → c ≠ ':')

theorem wordLength_stop (h : EndsWord ns rest) : wordLength ns .path taken rest = .ok taken := by
  cases rest with
  | nil => rfl
  | cons c rest =>
    obtain ⟨hword, hbracket, hcolon⟩ := h c rfl
    rw [wordLength, hword, if_neg (by decide), if_neg hbracket, if_neg]
    simp only [Bool.and_eq_true, decide_eq_true_eq, not_and]
    rintro ⟨hc, hns⟩
    exact absurd hc (hcolon hns)

/-- In front of whatever ends a word, the word is read to its end and makes the token. A
    namespace mark may belong to it when `ns` says so. -/
structure WordToken (ns : Bool) (word : List Char) (token : TokenKind × Payload) : Prop where
  whole : ∃ c tail, word = c :: tail ∧ StartsWord c ∧
    ∀ rest, EndsWord ns rest → wordLength ns .path 1 (tail ++ rest) = .ok (tail.length + 1)
  made : classify? word = some token

theorem WordToken.lexes {p : Position} {f : Bool} {outer : List Bool} {word : List Char}
    {token : TokenKind × Payload} (h : WordToken (!f) word token) (hrest : EndsWord (!f) rest) :
    Lexes p (f :: outer) word [⟨token.1, token.2, p⟩] (f :: outer) rest := by
  obtain ⟨⟨c, tail, rfl, ⟨hmark, hblank, hquote, hstart⟩, hwhole⟩, htoken⟩ := h
  have htake : (c :: (tail ++ rest)).take (tail.length + 1) = c :: tail := by
    rw [List.take_succ_cons, List.take_left]
  refine Lexes.of_step tail (some token) ?_
  simp only [step, List.isEmpty_cons, Bool.false_eq_true, if_false, tagStep, hmark, hblank,
    if_neg hquote, hstart, if_true, List.headD_cons, hwhole rest hrest, htake, htoken,
    Nat.add_sub_cancel]

/-- A word of word characters alone. -/
theorem wordToken_of_chars {c : Char} {tail : List Char} {token : TokenKind × Payload}
    (hc : c.isAlphanum = true ∨ c = '_' ∨ c = '-') (htail : ∀ d ∈ tail, isWordChar d = true)
    (hmade : classify? (c :: tail) = some token) : WordToken ns (c :: tail) token := by
  refine ⟨⟨c, tail, rfl, startsWord_of_ascii hc, fun rest hrest => ?_⟩, hmade⟩
  rw [wordLength_run htail, wordLength_stop hrest, Nat.add_comm]

/-! What words are. -/

theorem isStart_cases {c : Char} (h : Name.isStart c = true) : c.isAlpha = true ∨ c = '_' := by
  simpa [Name.isStart] using h

theorem isDigit_of_isStart {c : Char} (h : Name.isStart c = true) : c.isDigit = false := by
  rcases isStart_cases h with h | rfl
  · exact Bool.eq_false_iff.mpr fun hdigit => by simp [Text.isAlpha_of_isDigit hdigit] at h
  · decide

/-- A text that starts with no digit, minus or point is no number. -/
theorem isNumber_cons {c : Char} {tail : List Char} (hdigit : c.isDigit = false) (hminus : c ≠ '-')
    (hpoint : c ≠ '.') : isNumber (c :: tail) = false := by
  have hdrop : dropMinus (c :: tail) = c :: tail := by
    unfold dropMinus
    split
    · rename_i heq
      exact absurd (List.cons.inj heq).1 hminus
    · rfl
  unfold isNumber
  rw [hdrop]
  split
  · -- a point further on leaves the first character in front of it
    rename_i whole fraction heq
    have hwhole : whole = (c :: tail).takeWhile (· != '.') := by
      unfold Text.splitOnce at heq
      split at heq <;> simp_all
    have htake : whole = c :: tail.takeWhile (· != '.') := by
      rw [hwhole, List.takeWhile_cons_of_pos (by simpa using hpoint)]
    simp [htake, isDigits, hdigit]
  · simp [isDigits, hdigit]

/-- What a word is made into, by what it is. -/
theorem classify?_split {word : List Char} {x : TokenKind × Payload} (h : classify? word = some x) :
    (∃ n, isNumber word = true ∧ Text.int64? word = some n ∧ x = (.number, .int n)) ∨
      (∃ y, isNumber word = true ∧ '.' ∈ word ∧ Double.read? word = some y ∧ x = (.number, .float y)) ∨
      (∃ b, word = (toString b).toList ∧ x = (.bool, .bool b)) ∨ x = (.null, .none) ∨
      x = (.ident, .str (String.ofList word)) := by
  unfold classify? at h
  split at h
  · rename_i hnumber
    split at h
    · rename_i hpoint
      obtain ⟨y, hy, rfl⟩ := Option.map_eq_some_iff.mp h
      exact .inr (.inl ⟨y, hnumber, by simpa using hpoint, hy, rfl⟩)
    · obtain ⟨n, hn, rfl⟩ := Option.map_eq_some_iff.mp h
      exact .inl ⟨n, hnumber, hn, rfl⟩
  · split at h
    · rename_i hword
      cases h
      exact .inr (.inr (.inl ⟨true, hword, rfl⟩))
    · split at h
      · rename_i hword
        cases h
        exact .inr (.inr (.inl ⟨false, hword, rfl⟩))
      · split at h
        · cases h
          exact .inr (.inr (.inr (.inl rfl)))
        · cases h
          exact .inr (.inr (.inr (.inr rfl)))

/-- A word that is neither a number nor a keyword is an identifier. -/
theorem classify?_ident {w : String} (hnumber : isNumber w.toList = false) (hw : w ∉ keywords) :
    classify? w.toList = some (.ident, .str w) := by
  have ne : ∀ k ∈ keywords, w.toList ≠ k.toList := fun k hk e => hw (String.toList_inj.mp e ▸ hk)
  have htrue : w.toList ≠ ['t', 'r', 'u', 'e'] := ne "true" (by simp [keywords])
  have hfalse : w.toList ≠ ['f', 'a', 'l', 's', 'e'] := ne "false" (by simp [keywords])
  have hnull : w.toList ≠ ['n', 'u', 'l', 'l'] := ne "null" (by simp [keywords])
  simp [classify?, hnumber, htrue, hfalse, hnull]

theorem not_mem_toString {n : Int} {c : Char} (hdigit : c.isDigit = false) (hminus : c ≠ '-') :
    c ∉ (toString n).toList := by
  intro h
  rcases Text.toString_isDigit_or_minus h with h | h
  · simp [hdigit] at h
  · exact hminus h

theorem classify?_int {n : Int} (h : Text.isInt64 n = true) :
    classify? (toString n).toList = some (.number, .int n) := by
  have hpoint : '.' ∉ (toString n).toList := not_mem_toString rfl (by decide)
  obtain ⟨d, ds, hds, hall⟩ := Text.toDigits_digits n.natAbs
  have hdrop : dropMinus (toString n).toList = d :: ds := by
    rw [Text.toString_chars, hds]
    split
    · -- no minus stands in front, and the first digit is none
      have hd : d ≠ '-' := Text.isDigit_ne (hall d (by simp)) rfl
      unfold dropMinus
      split
      · rename_i heq
        exact absurd (List.cons.inj heq).1 hd
      · rfl
    · rfl
  -- without a point there is no fraction, and what is left are digits
  have hsplit : Text.splitOnce '.' (d :: ds) = none := by
    have hne : ∀ c ∈ d :: ds, (c != '.') = true := by
      intro c hc
      simpa using Text.isDigit_ne (hall c hc) (d := '.') rfl
    have hnil : (d :: ds).dropWhile (· != '.') = [] := by
      rw [← List.append_nil (d :: ds), List.dropWhile_append_of_pos hne]
      rfl
    simp only [Text.splitOnce, hnil]
  have hnumber : isNumber (toString n).toList = true := by
    simp only [isNumber, hdrop, hsplit]
    simpa [isDigits] using hall
  simp only [classify?, hnumber, if_true]
  rw [if_neg (by simpa using hpoint), Text.int64?_toString h]
  rfl

/-! The words of templates. -/

theorem isPart_of_isStart {c : Char} (h : Name.isStart c = true) : Name.isPart c = true := by
  rcases isStart_cases h with h | rfl
  · simp [Name.isPart, Char.isAlphanum, h]
  · decide

theorem isPart_of_isWord {w : List Char} (h : Name.isWord w = true) :
    ∀ c ∈ w, Name.isPart c = true := by
  intro c hc
  cases w with
  | nil => cases hc
  | cons d tail =>
    simp only [Name.isWord, Bool.and_eq_true, List.all_eq_true] at h
    rcases List.mem_cons.mp hc with rfl | hc
    · exact isPart_of_isStart h.1
    · exact h.2 c hc

theorem isWordChar_of_isPart {c : Char} (h : Name.isPart c = true) : isWordChar c = true := by
  simp only [Name.isPart, Bool.or_eq_true, decide_eq_true_eq] at h
  rcases h with (h | rfl) | rfl
  · simp [isWordChar, Text.isAlphanumeric_of_alphanum h]
  · decide
  · decide

theorem isWord_chars {w : List Char} (h : Name.isWord w = true) : ∀ c ∈ w, isWordChar c = true :=
  fun c hc => isWordChar_of_isPart (isPart_of_isWord h c hc)

/-- A name is one character that starts it and others that go on with it. -/
theorem isWord_cases {w : List Char} (h : Name.isWord w = true) :
    ∃ c tail, w = c :: tail ∧ Name.isStart c = true ∧ ∀ d ∈ tail, isWordChar d = true := by
  cases w with
  | nil => simp [Name.isWord] at h
  | cons c tail =>
    simp only [Name.isWord, Bool.and_eq_true, List.all_eq_true] at h
    exact ⟨c, tail, rfl, h.1, fun d hd => isWordChar_of_isPart (h.2 d hd)⟩

/-- A tag name is a word, or two words around a colon. -/
theorem isTag_cases {name : String} (h : Name.isTag name = true) :
    Name.isWord name.toList = true ∨
      ∃ ns own, name.toList = ns ++ ':' :: own ∧ Name.isWord ns = true ∧ Name.isWord own = true := by
  have hjoin := Text.joinWith_splitOn ':' name.toList
  unfold Name.isTag at h
  split at h
  · rename_i own hsplit
    rw [hsplit] at hjoin
    rw [← hjoin]
    exact .inl h
  · rename_i ns own hsplit
    rw [hsplit] at hjoin
    rw [Bool.and_eq_true] at h
    exact .inr ⟨ns, own, by simpa [Text.joinWith] using hjoin.symm, h.1, h.2⟩
  · simp at h

/-! Words as tokens. -/

/-- A character that a name starts with, and no number. -/
def StartsName (c : Char) : Prop := isWordStart c = true ∧ c.isDigit = false ∧ c ≠ '-'

theorem startsName_of_isStart {c : Char} (h : Name.isStart c = true) : StartsName c := by
  refine ⟨?_, isDigit_of_isStart h, fun e => by simp [e, Name.isStart] at h⟩
  rcases isStart_cases h with h | rfl
  · simp [isWordStart, Text.isAlphanumeric_of_alphanum (c := c) (by simp [Char.isAlphanum, h])]
  · decide

/-- A text that starts as a name does is an identifier. -/
theorem classify?_name {w : String} {c : Char} {tail : List Char} (hw : w.toList = c :: tail)
    (hc : StartsName c) (hkey : w ∉ keywords) : classify? w.toList = some (.ident, .str w) := by
  obtain ⟨hstart, hdigit, hminus⟩ := hc
  have hpoint : c ≠ '.' := fun e => absurd hstart (by rw [e]; decide)
  refine classify?_ident ?_ hkey
  rw [hw]
  exact isNumber_cons hdigit hminus hpoint

/-- An identifier, whose length is known. -/
theorem wordToken_ident {w : String} {c : Char} {tail : List Char} (hw : w.toList = c :: tail)
    (hc : StartsName c) (hkey : w ∉ keywords)
    (hwhole : ∀ rest, EndsWord ns rest →
      wordLength ns .path 1 (tail ++ rest) = .ok (tail.length + 1)) :
    WordToken ns w.toList (.ident, .str w) :=
  ⟨⟨c, tail, hw, startsWord_of_isWordStart hc.1, hwhole⟩, classify?_name hw hc hkey⟩

theorem wordToken_name {w : String} (h : Name.isWord w.toList = true) (hkey : w ∉ keywords) :
    WordToken ns w.toList (.ident, .str w) := by
  obtain ⟨c, tail, hw, hc, htail⟩ := isWord_cases h
  refine wordToken_ident hw (startsName_of_isStart hc) hkey fun rest hrest => ?_
  rw [wordLength_run htail, wordLength_stop hrest, Nat.add_comm]

/-- The name of a tag or an attribute, where no pipe stands before it in its braces. -/
theorem wordToken_freeName {w : String} (h : Name.IsFree w) :
    WordToken true w.toList (.ident, .str w) := by
  obtain ⟨htag, hkey⟩ := h
  rcases isTag_cases htag with hword | ⟨ns, own, hw, hns, hown⟩
  · exact wordToken_name hword hkey
  · obtain ⟨c, tail, rfl, hc, htail⟩ := isWord_cases hns
    obtain ⟨d, more, rfl, hd, hmore⟩ := isWord_cases hown
    refine wordToken_ident (hw.trans (List.cons_append ..)) (startsName_of_isStart hc) hkey
      fun rest hrest => ?_
    -- the colon belongs to the word, for a name starts behind it
    have hopens : opensLocalName (d :: (more ++ rest)) = true := by
      rcases isStart_cases hd with h | rfl
      · have codes := Text.alphanum_codes (c := d) (by simp [Char.isAlphanum, h])
        have hascii : Text.isAscii d = true := by
          simp only [Text.isAscii, decide_eq_true_eq]
          omega
        simp [opensLocalName, Text.isAlphabetic, hascii, h]
      · rfl
    rw [List.append_assoc, wordLength_run htail, List.cons_append, List.cons_append, wordLength,
      if_neg (by decide), if_neg (by decide), hopens]
    simp only [decide_true, Bool.and_self, if_true]
    rw [← List.cons_append, wordLength_run (isWord_chars hown), wordLength_stop]
    · simp only [List.length_append, List.length_cons]
      congr 1
      omega
    · -- the one namespace is behind, so a colon would end the word as well
      intro e he
      obtain ⟨hword, hbracket, -⟩ := hrest e he
      exact ⟨hword, hbracket, fun h => absurd h (by decide)⟩

/-- A path starts as a name does. -/
theorem startsName_of_spelled {plain : List Char → Prop} {w : List Char} {path : List PathSegment}
    (h : Spelled plain w path) : ∃ c tail, w = c :: tail ∧ StartsName c := by
  obtain @⟨_, name, behind, _, hname, -⟩ := h
  cases name with
  | nil => cases hname
  | cons c name =>
    refine ⟨c, name ++ behind, rfl, Path.isFieldName_chars hname c List.mem_cons_self, ?_⟩
    simpa [Path.isFieldName] using (Bool.and_eq_true_iff.mp hname).2

theorem wordLength_spelled {c : Char} {tail : List Char} {path : List PathSegment}
    (h : Spelled Harmless (c :: tail) path) (hrest : EndsWord ns rest) :
    wordLength ns .path 1 (tail ++ rest) = .ok (tail.length + 1) := by
  generalize hw : c :: tail = w at h
  obtain @⟨_, name, behind, _, hname, hbehind⟩ := h
  cases name with
  | nil => cases hname
  | cons d name =>
    obtain ⟨rfl, rfl⟩ := List.cons.inj (hw.trans (List.cons_append ..))
    have hchars : ∀ e ∈ name, isWordChar e = true := fun e he =>
      isWordChar_of_isWordStart (Path.isFieldName_chars hname e (List.mem_cons_of_mem c he))
    rw [List.append_assoc, wordLength_run hchars, wordLength_spelledBehind hbehind,
      wordLength_stop hrest]
    simp only [List.length_append]
    congr 1; omega

/-- A path, however it is spelled. -/
theorem wordToken_spelled {w : String} {path : List PathSegment} (h : Spelled Harmless w.toList path)
    (hkey : w ∉ keywords) : WordToken ns w.toList (.ident, .str w) := by
  obtain ⟨c, tail, hw, hc⟩ := startsName_of_spelled h
  exact wordToken_ident hw hc hkey fun rest hrest => wordLength_spelled (hw ▸ h) hrest

theorem isFieldName_of_isWord {w : List Char} (h : Name.isWord w = true) :
    Path.isFieldName w = true := by
  obtain ⟨c, tail, rfl, hc, -⟩ := isWord_cases h
  obtain ⟨-, hdigit, hminus⟩ := startsName_of_isStart hc
  simp only [Path.isFieldName, Bool.and_eq_true, List.all_eq_true, Bool.not_eq_true',
    Bool.or_eq_false_iff, decide_eq_false_iff_not]
  refine ⟨fun d hd => ?_, hdigit, hminus⟩
  have hpart := isPart_of_isWord h d hd
  simp only [Name.isPart, Bool.or_eq_true, decide_eq_true_eq] at hpart
  rcases hpart with (hpart | rfl) | rfl
  · simp [Path.isNameChar, Text.isAlphanumeric_of_alphanum hpart]
  · decide
  · decide

/-- A variable path whose names are words. -/
theorem wordToken_path {w : String} {segments : List PathSegment}
    (h : Path.WellFormed Name.isWord segments) (hw : w.toList = Path.print segments)
    (hkey : w ∉ keywords) : WordToken ns w.toList (.ident, .str w) := by
  have hspelled : Spelled Harmless (Path.print segments) segments :=
    Path.spelled_print (h.mono fun _ => isFieldName_of_isWord)
  rw [← hw] at hspelled
  exact wordToken_spelled hspelled hkey

theorem isWordChar_of_alphanum {c : Char} (h : c.isAlphanum = true) : isWordChar c = true := by
  simp [isWordChar, Text.isAlphanumeric_of_alphanum h]

/-- An integer of 64 bits. -/
theorem wordToken_int {n : Int} (h : Text.isInt64 n = true) :
    WordToken ns (toString n).toList (.number, .int n) := by
  have hmade := classify?_int h
  have hchars : ∀ c ∈ (toString n).toList, c.isDigit = true ∨ c = '-' :=
    fun c => Text.toString_isDigit_or_minus
  obtain ⟨c, tail, hcs⟩ := Text.toString_cons n
  rw [hcs] at hmade hchars ⊢
  refine wordToken_of_chars ?_ (fun d hd => ?_) hmade
  · rcases hchars c List.mem_cons_self with h | h
    · exact .inl (by simp [Char.isAlphanum, h])
    · exact .inr (.inr h)
  · rcases hchars d (List.mem_cons_of_mem c hd) with h | rfl
    · exact isWordChar_of_alphanum (by simp [Char.isAlphanum, h])
    · decide

/-- A keyword stands for its value. -/
theorem wordToken_keyword {w : String} {token : TokenKind × Payload} (hw : w ∈ keywords)
    (hmade : classify? w.toList = some token) : WordToken ns w.toList token := by
  obtain ⟨c, tail, hcs, hchars⟩ :
      ∃ c tail, w.toList = c :: tail ∧ ∀ d ∈ c :: tail, d.isAlpha = true := by
    simp only [keywords, List.mem_cons, List.not_mem_nil, or_false] at hw
    rcases hw with rfl | rfl | rfl
    · exact ⟨'t', ['r', 'u', 'e'], rfl, by simp⟩
    · exact ⟨'f', ['a', 'l', 's', 'e'], rfl, by simp⟩
    · exact ⟨'n', ['u', 'l', 'l'], rfl, by simp⟩
  have halnum : ∀ d ∈ c :: tail, d.isAlphanum = true :=
    fun d hd => by simp [Char.isAlphanum, hchars d hd]
  rw [hcs] at hmade ⊢
  exact wordToken_of_chars (.inl (halnum c List.mem_cons_self))
    (fun d hd => isWordChar_of_alphanum (halnum d (List.mem_cons_of_mem c hd))) hmade

/-! Words that are read. -/

variable {text : List Char} {mode : WordMode} {n : Nat}

theorem isWordChar_of_opensLocalName (h : opensLocalName rest = true) :
    ∃ c tail, rest = c :: tail ∧ isWordChar c = true := by
  cases rest with
  | nil => cases h
  | cons c tail =>
    refine ⟨c, tail, rfl, ?_⟩
    simp only [opensLocalName, Bool.or_eq_true, decide_eq_true_eq] at h
    rcases h with h | rfl
    · simp [isWordChar, Text.isAlphanumeric, h]
    · decide

theorem wordLength_le (h : wordLength ns mode taken text = .ok n) : taken ≤ n := by
  fun_induction wordLength ns mode taken text generalizing n <;> grind

/-- No character here goes on with a word before it, but for a namespace mark. -/
def StopsWord (rest : List Char) : Prop := ∀ c ∈ rest.head?, isWordChar c = false ∧ c ≠ '['

/-- So much of the text is the word, what is behind it does not go on with it, and it is read to
    the same end in front of whatever ends a word. -/
def ReadsAgain (ns : Bool) (mode : WordMode) (taken : Nat) (text : List Char) (n : Nat) : Prop :=
  ∃ used behind, text = used ++ behind ∧ n = taken + used.length ∧ StopsWord behind ∧
    ∀ rest, EndsWord ns rest → wordLength ns mode taken (used ++ rest) = .ok n

/-- Characters that a word goes on over, whatever stands behind them. -/
theorem ReadsAgain.over {m : WordMode} (cs : List Char)
    (hover : ∀ rest, wordLength ns mode taken (cs ++ rest) =
      wordLength ns m (taken + cs.length) rest)
    (h : ReadsAgain ns m (taken + cs.length) text n) :
    ReadsAgain ns mode taken (cs ++ text) n := by
  obtain ⟨used, behind, rfl, hn, hstops, hagain⟩ := h
  refine ⟨cs ++ used, behind, (List.append_assoc ..).symm, ?_, hstops, fun rest hrest => ?_⟩
  · rw [List.length_append, hn, Nat.add_assoc]
  · rw [List.append_assoc, hover, hagain rest hrest]

/-- A namespace mark is read again, because the character behind it belongs to the word. -/
theorem ReadsAgain.mark (hopens : opensLocalName text = true)
    (hlength : wordLength false .path (taken + 1) text = .ok n)
    (h : ReadsAgain false .path (taken + 1) text n) :
    ReadsAgain true .path taken (':' :: text) n := by
  obtain ⟨used, behind, htext, hn, hstops, hagain⟩ := h
  obtain ⟨c, tail, rfl, hc⟩ := isWordChar_of_opensLocalName hopens
  have hlonger : taken + 1 + 1 ≤ n := by
    rw [wordLength, if_pos hc] at hlength
    exact wordLength_le hlength
  cases used with
  | nil => simp at hn; omega
  | cons d used =>
    obtain ⟨rfl, rfl⟩ := List.cons.inj htext
    refine ⟨':' :: c :: used, behind, rfl, ?_, hstops, fun rest hrest => ?_⟩
    · simp only [List.length_cons] at hn ⊢
      omega
    · have hopens' : opensLocalName (c :: (used ++ rest)) = true := hopens
      have hrest' : EndsWord false rest := fun c hc =>
        ⟨(hrest c hc).1, (hrest c hc).2.1, fun h => absurd h (by decide)⟩
      have hagain := hagain rest hrest'
      simp only [List.cons_append] at hagain ⊢
      rw [wordLength, if_neg (by decide), if_neg (by decide), hopens']
      simpa using hagain

theorem readsAgain (h : wordLength ns mode taken text = .ok n) : ReadsAgain ns mode taken text n := by
  fun_induction wordLength ns mode taken text generalizing n with
  | case1 ns taken =>
    cases h
    exact ⟨[], [], rfl, rfl, by simp [StopsWord], fun rest hrest => wordLength_stop hrest⟩
  | case2 ns taken c rest hc ih =>
    exact .over [c] (fun rest => by rw [List.singleton_append, wordLength, if_pos hc]; rfl) (ih h)
  | case3 ns taken rest hc ih =>
    refine ReadsAgain.over (m := .bracket taken) ['['] (fun rest => ?_) (ih h)
    rw [List.singleton_append, wordLength, if_neg hc, if_pos rfl]
    rfl
  | case4 ns taken c rest _ _ hmark ih =>
    simp only [Bool.and_eq_true, decide_eq_true_eq] at hmark
    obtain ⟨⟨rfl, rfl⟩, hopens⟩ := hmark
    exact .mark hopens h (ih h)
  | case5 ns taken c rest hword hbracket hmark =>
    cases h
    refine ⟨[], c :: rest, rfl, rfl, fun d hd => ?_, fun rest hrest => wordLength_stop hrest⟩
    obtain rfl := Option.some.inj hd
    exact ⟨Bool.of_not_eq_true hword, hbracket⟩
  | case6 => cases h
  | case7 ns opened taken rest ih =>
    exact .over [']'] (fun rest => by simp [wordLength]) (ih h)
  | case8 ns opened taken rest _ ih =>
    exact .over ['"'] (fun rest => by simp [wordLength]) (ih h)
  | case9 ns opened taken c rest hend hquote ih =>
    exact .over [c] (fun rest => by simp [wordLength, hend, hquote]) (ih h)
  | case10 => cases h
  | case11 => cases h
  | case12 ns opened taken c rest ih =>
    exact .over ['\\', c] (fun rest => by simp [wordLength]) (ih h)
  | case13 ns opened taken rest _ ih =>
    exact .over ['"'] (fun rest => by simp [wordLength]) (ih h)
  | case14 ns opened taken c rest hescape hquote ih =>
    exact .over [c] (fun rest => by simp [wordLength, hquote]) (ih h)

/-- Every word that the lexer takes is as long as it can be, and one in front of whatever ends a
    word. -/
theorem wordToken_of_wordLength {c : Char} {token : TokenKind × Payload} (hc : StartsWord c)
    (hlength : wordLength ns .path 1 text = .ok n) (hmade : classify? ((c :: text).take n) = some token) :
    ∃ tail behind, text = tail ++ behind ∧ n = tail.length + 1 ∧ StopsWord behind ∧
      WordToken ns (c :: tail) token := by
  obtain ⟨tail, behind, rfl, hn, hstops, hagain⟩ := readsAgain hlength
  rw [Nat.add_comm] at hn
  refine ⟨tail, behind, rfl, hn, hstops, ⟨c, tail, rfl, hc, fun rest hrest => ?_⟩, ?_⟩
  · rw [hagain rest hrest, hn]
  · rwa [hn, List.take_succ_cons, List.take_left] at hmade

end Lexer
end BraceTemplate
