import BraceTemplate.Proofs.Lines
import BraceTemplate.Proofs.Printing.Path

/- What the reader of paths accepts. `Path.Spelled` says how paths are written: names with points
   between them, and behind a name brackets with an index or with a key in quotes of either kind,
   where a backslash stands before a character that is taken as it is. The reader takes a spelling
   to its end and stops there (`Path.segments_spelled`), and what it reads is one
   (`Path.spelled_of_segments`); so it accepts exactly the spellings (`Path.read_eq_ok`). A printed
   path is a spelling of it and only well-formed paths are spelled, which makes printing and reading
   inverse to each other (`Path.read_print`). -/
namespace BraceTemplate
namespace Path

/-- A name is not empty and starts with neither a digit of ASCII nor a dash. -/
def isFieldName : List Char → Bool
  | [] => false
  | c :: rest => (c :: rest).all isNameChar && !(c.isDigit || c = '-')

/-! How paths are written. -/

/-- The characters between two quotes spell the key. -/
inductive KeySpelled (quote : Char) : List Char → List Char → Prop where
  | nil : KeySpelled quote [] []
  | escaped {c : Char} {w k : List Char} (h : KeySpelled quote w k) :
    KeySpelled quote ('\\' :: c :: w) (c :: k)
  | plain {c : Char} {w k : List Char} (hquote : c ≠ quote) (hbackslash : c ≠ '\\')
    (h : KeySpelled quote w k) : KeySpelled quote (c :: w) (c :: k)

/-- The characters between two brackets spell the step. What stands between single quotes is
    `plain`. -/
inductive StepSpelled (plain : List Char → Prop) : List Char → PathStep → Prop where
  | index {w : List Char} {n : Int} (hend : ']' ∉ w) (h : Text.int64? (Text.trim w) = some n) :
    StepSpelled plain w (.index n)
  | key {w k : List Char} (h : KeySpelled '"' w k) :
    StepSpelled plain ('"' :: (w ++ ['"'])) (.key (String.ofList k))
  | singleKey {w k : List Char} (hplain : plain w) (h : KeySpelled '\'' w k) :
    StepSpelled plain ('\'' :: (w ++ ['\''])) (.key (String.ofList k))

/-- The point between a segment and a name behind it. -/
def joint (safe : Bool) : List Char := if safe then ['?', '.'] else ['.']

/-- The text spells segments behind one that is safe or not. -/
inductive SpelledBehind (plain : List Char → Prop) : Bool → List Char → List PathSegment → Prop where
  | nil : SpelledBehind plain false [] []
  | field {safe next : Bool} {name w : List Char} {path : List PathSegment}
    (hname : isFieldName name = true) (h : SpelledBehind plain next w path) :
    SpelledBehind plain safe (joint safe ++ (name ++ w)) (⟨.field (String.ofList name), next⟩ :: path)
  | bracket {next : Bool} {inside w : List Char} {s : PathStep} {path : List PathSegment}
    (hstep : StepSpelled plain inside s) (h : SpelledBehind plain next w path) :
    SpelledBehind plain false ('[' :: (inside ++ ']' :: w)) (⟨s, next⟩ :: path)

/-- The text spells a path: a name and what is behind it. -/
inductive Spelled (plain : List Char → Prop) : List Char → List PathSegment → Prop where
  | path {next : Bool} {name w : List Char} {path : List PathSegment}
    (hname : isFieldName name = true) (h : SpelledBehind plain next w path) :
    Spelled plain (name ++ w) (⟨.field (String.ofList name), next⟩ :: path)

/-- Whatever stands between single quotes. -/
def Anyhow (_ : List Char) : Prop := True

/-! Names. -/

variable {total opened : Nat} {text rest : List Char}

theorem isFieldName_chars {w : List Char} (h : isFieldName w = true) : ∀ c ∈ w, isNameChar c = true := by
  cases w with
  | nil => cases h
  | cons c w =>
    rw [isFieldName, Bool.and_eq_true, List.all_eq_true] at h
    exact h.1

theorem name_append {w : List Char} (hw : isFieldName w = true)
    (hrest : ∀ c ∈ rest.head?, isNameChar c = false) :
    name total (w ++ rest) = .ok (String.ofList w, rest) := by
  have hstop : rest.takeWhile isNameChar = [] := by
    cases rest with
    | nil => rfl
    | cons c rest => exact List.takeWhile_cons_of_neg (by simp [hrest c rfl])
  have htake : (w ++ rest).takeWhile isNameChar = w := by
    rw [List.takeWhile_append_of_pos (isFieldName_chars hw), hstop, List.append_nil]
  have hdrop : (w ++ rest).dropWhile isNameChar = rest := by
    have hall := List.takeWhile_append_dropWhile (p := isNameChar) (l := w ++ rest)
    rw [htake] at hall
    exact List.append_cancel_left hall
  cases w with
  | nil => cases hw
  | cons c w =>
    rw [isFieldName, Bool.and_eq_true, Bool.not_eq_true'] at hw
    unfold name
    rw [htake, hdrop]
    simp only [hw.2, Bool.false_eq_true, if_false]

theorem name_eq_ok {field : String} (h : name total text = .ok (field, rest)) :
    ∃ w, text = w ++ rest ∧ field = String.ofList w ∧ isFieldName w = true := by
  unfold name at h
  split at h
  · cases h
  · rename_i c w hw
    split at h
    · cases h
    · rename_i hstart
      obtain ⟨rfl, rfl⟩ := Prod.mk.inj (Except.ok.inj h)
      refine ⟨c :: w, ?_, rfl, ?_⟩
      · rw [← hw, List.takeWhile_append_dropWhile]
      · rw [isFieldName, Bool.and_eq_true, List.all_eq_true, Bool.not_eq_true']
        exact ⟨fun d hd => List.mem_takeWhile_imp (hw ▸ hd), by simpa using hstart⟩

/-! Brackets. -/

theorem key?_eq_some {quote : Char} (hquote : quote ≠ '\\') {k : List Char} :
    key? quote text = some (k, rest) ↔ ∃ w, text = w ++ quote :: rest ∧ KeySpelled quote w k := by
  constructor
  · intro h
    fun_induction key? quote text generalizing k with
    | case1 | case2 => cases h
    | case3 c text ih =>
      obtain ⟨⟨k, r⟩, hk, heq⟩ := Option.map_eq_some_iff.mp h
      cases heq
      obtain ⟨w, rfl, hw⟩ := ih hk
      exact ⟨'\\' :: c :: w, rfl, .escaped hw⟩
    | case4 text =>
      cases h
      exact ⟨[], rfl, .nil⟩
    | case5 c text hend hescape hc ih =>
      obtain ⟨⟨k, r⟩, hk, heq⟩ := Option.map_eq_some_iff.mp h
      cases heq
      obtain ⟨w, rfl, hw⟩ := ih hk
      have hbackslash : c ≠ '\\' := by
        rintro rfl
        cases htext : w ++ quote :: rest with
        | nil => simp at htext
        | cons d more => exact hescape d more rfl htext
      exact ⟨c :: w, rfl, .plain hc hbackslash hw⟩
  · rintro ⟨w, rfl, hw⟩
    induction hw with
    | nil =>
      rw [List.nil_append, key?, if_pos rfl]
      · exact fun h => absurd h hquote
      · exact fun _ _ h => absurd h hquote
    | escaped h ih => rw [List.cons_append, List.cons_append, key?, ih]; rfl
    | plain hc hbackslash h ih =>
      rw [List.cons_append, key?, if_neg hc, ih]
      · rfl
      · exact fun h => absurd h hbackslash
      · exact fun _ _ h => absurd h hbackslash

/-- No quote stands in the text of an index. -/
theorem quote_not_mem {w : List Char} {n : Int} (h : Text.int64? (Text.trim w) = some n) {c : Char}
    (hc : c = '"' ∨ c = '\'') : c ∉ w := by
  intro hmem
  have hblank : Text.isWhitespace c = false := by rcases hc with rfl | rfl <;> decide
  have hchar := Text.mem_of_int64? h (Text.mem_trim hblank hmem)
  rcases hc with rfl | rfl <;> exact absurd hchar (by decide)

/-- What is read as a quoted key. -/
theorem inBracket_quoted {quote : Char} (hquote : quote = '"' ∨ quote = '\'') {s : PathStep} :
    inBracket opened (quote :: text) = .ok (s, rest) ↔
      ∃ w k, text = w ++ quote :: rest ∧ KeySpelled quote w k ∧ s = .key (String.ofList k) := by
  have hbackslash : quote ≠ '\\' := by rcases hquote with rfl | rfl <;> decide
  have hkey : ∀ k r, key? quote text = some (k, r) →
      inBracket opened (quote :: text) = .ok (.key (String.ofList k), r) := by
    intro k r hk
    rcases hquote with rfl | rfl <;> simp [inBracket, hk]
  constructor
  · intro h
    cases hread : key? quote text with
    | none =>
      have hfault : inBracket opened (quote :: text) = .error (.unterminatedKey opened) := by
        rcases hquote with rfl | rfl <;> simp [inBracket, hread]
      rw [hfault] at h
      cases h
    | some read =>
      obtain ⟨k, r⟩ := read
      rw [hkey k r hread] at h
      obtain ⟨rfl, rfl⟩ := Prod.mk.inj (Except.ok.inj h)
      obtain ⟨w, htext, hw⟩ := (key?_eq_some hbackslash).mp hread
      exact ⟨w, k, htext, hw, rfl⟩
  · rintro ⟨w, k, htext, hw, rfl⟩
    exact hkey k rest ((key?_eq_some hbackslash).mpr ⟨w, htext, hw⟩)

/-- What is read as an index. -/
theorem inBracket_index (hopen : ∀ c ∈ text.head?, c ≠ '"' ∧ c ≠ '\'') {s : PathStep} :
    inBracket opened text = .ok (s, rest) ↔
      ∃ n, Text.int64? (Text.trim (text.takeWhile (· != ']'))) = some n ∧ s = .index n ∧
        rest = text.dropWhile (· != ']') := by
  constructor
  · intro h
    unfold inBracket at h
    split at h
    · exact absurd rfl (hopen _ rfl).1
    · exact absurd rfl (hopen _ rfl).2
    · simp only at h
      split at h
      · rename_i n hn
        obtain ⟨rfl, rfl⟩ := Prod.mk.inj (Except.ok.inj h)
        exact ⟨n, hn, rfl, rfl⟩
      · cases h
  · rintro ⟨n, hn, rfl, rfl⟩
    unfold inBracket
    split
    · exact absurd rfl (hopen _ rfl).1
    · exact absurd rfl (hopen _ rfl).2
    · simp only [hn]

/-- The end of a bracket is the first one that is in no key. -/
theorem takeWhile_end {w : List Char} (hend : ']' ∉ w) (rest : List Char) :
    (w ++ ']' :: rest).takeWhile (· != ']') = w ∧
      (w ++ ']' :: rest).dropWhile (· != ']') = ']' :: rest := by
  have hall : ∀ c ∈ w, (c != ']') = true := fun c hc => by
    simpa using fun (e : c = ']') => hend (e ▸ hc)
  exact ⟨by simp [List.takeWhile_append_of_pos hall], by simp [List.dropWhile_append_of_pos hall]⟩

/-- A bracket is read exactly when a step is spelled up to its end. -/
theorem bracket_eq_ok {s : PathStep} :
    bracket opened text = .ok (s, rest) ↔
      ∃ w, text = w ++ ']' :: rest ∧ StepSpelled Anyhow w s := by
  have hbracket : bracket opened text = .ok (s, rest) ↔
      inBracket opened text = .ok (s, ']' :: rest) := by
    unfold bracket
    constructor
    · intro h
      split at h
      · cases h
      · rename_i hinside
        obtain ⟨rfl, rfl⟩ := Prod.mk.inj (Except.ok.inj h)
        exact hinside
      · cases h
    · intro h
      rw [h]
      rfl
  rw [hbracket]
  constructor
  · intro h
    by_cases hquoted : ∃ quote tail, text = quote :: tail ∧ (quote = '"' ∨ quote = '\'')
    · obtain ⟨quote, tail, rfl, hquote⟩ := hquoted
      obtain ⟨w, k, rfl, hw, rfl⟩ := (inBracket_quoted hquote).mp h
      refine ⟨quote :: (w ++ [quote]), by simp, ?_⟩
      rcases hquote with rfl | rfl
      · exact .key hw
      · exact .singleKey trivial hw
    · have hopen : ∀ c ∈ text.head?, c ≠ '"' ∧ c ≠ '\'' := by
        intro c hc
        obtain ⟨tail, rfl⟩ := List.head?_eq_some_iff.mp hc
        exact ⟨fun e => hquoted ⟨c, tail, rfl, .inl e⟩, fun e => hquoted ⟨c, tail, rfl, .inr e⟩⟩
      obtain ⟨n, hn, rfl, hrest⟩ := (inBracket_index hopen).mp h
      refine ⟨text.takeWhile (· != ']'), ?_, .index (fun hmem => ?_) hn⟩
      · rw [hrest, List.takeWhile_append_dropWhile]
      · simpa using List.mem_takeWhile_imp hmem
  · rintro ⟨w, rfl, hw⟩
    cases hw with
    | @index _ n hend hn =>
      obtain ⟨htake, hdrop⟩ := takeWhile_end hend rest
      refine (inBracket_index fun c hc => ?_).mpr ⟨n, by rw [htake]; exact hn, rfl, hdrop.symm⟩
      -- the bracket starts with a character of the index or ends at once
      cases w with
      | nil =>
        obtain rfl : ']' = c := Option.some.inj hc
        decide
      | cons d w =>
        obtain rfl : d = c := Option.some.inj hc
        exact ⟨fun e => quote_not_mem hn (.inl e) List.mem_cons_self,
          fun e => quote_not_mem hn (.inr e) List.mem_cons_self⟩
    | @key w k hk => exact (inBracket_quoted (.inl rfl)).mpr ⟨w, k, by simp, hk, rfl⟩
    | @singleKey w k _ hk => exact (inBracket_quoted (.inr rfl)).mpr ⟨w, k, by simp, hk, rfl⟩

theorem brackets_bracket {s : PathStep} {inside : List Char} (h : StepSpelled Anyhow inside s) :
    brackets total ('[' :: (inside ++ ']' :: text)) =
      (brackets total text).map fun (ss, r) => (s :: ss, r) := by
  have hbracket : ∀ opened, bracket opened (inside ++ ']' :: text) = .ok (s, text) :=
    fun opened => bracket_eq_ok.mpr ⟨inside, rfl, h⟩
  rw [brackets]
  split
  · rename_i f hf
    rw [hbracket] at hf
    cases hf
  · rename_i s' r hs
    rw [hbracket] at hs
    obtain ⟨rfl, rfl⟩ := Prod.mk.inj (Except.ok.inj hs)
    rfl

theorem brackets_other (h : ∀ c ∈ text.head?, c ≠ '[') : brackets total text = .ok ([], text) := by
  rw [brackets.eq_def]
  split
  · exact absurd rfl (h '[' rfl)
  · rfl

/-! Segments. -/

/-- What is read behind a step. -/
def readBehind (total : Nat) (step : PathStep) (text : List Char) :
    Except PathFault (List PathSegment) :=
  match brackets total text with
  | .error f => .error f
  | .ok (steps, rest) =>
    match joint? rest with
    | some (safe, more) => (segments total more).map (segmentsOf safe (step :: steps) ++ ·)
    | none => ended total (segmentsOf false (step :: steps)) rest

theorem segments_eq (text : List Char) : segments total text =
    match name total text with
    | .error f => .error f
    | .ok (field, rest) => readBehind total (.field field) rest := by
  rw [segments]
  unfold readBehind
  split <;> rename_i hname <;> rw [hname]
  split <;> rename_i hbrackets <;> simp only [hbrackets]
  split <;> rename_i hjoint <;> simp only [hjoint]

theorem segments_name {w : List Char} (hw : isFieldName w = true)
    (hrest : ∀ c ∈ rest.head?, isNameChar c = false) :
    segments total (w ++ rest) = readBehind total (.field (String.ofList w)) rest := by
  rw [segments_eq, name_append hw hrest]

theorem ended_map {path : List PathSegment} (x : PathSegment) :
    (ended total path text).map (x :: ·) = ended total (x :: path) text := by
  cases text <;> rfl

/-- A bracket belongs to the step before it. -/
theorem readBehind_bracket {step s : PathStep} {inside : List Char} (h : StepSpelled Anyhow inside s) :
    readBehind total step ('[' :: (inside ++ ']' :: text)) =
      (readBehind total s text).map (⟨step, false⟩ :: ·) := by
  unfold readBehind
  rw [brackets_bracket h]
  cases brackets total text with
  | error f => rfl
  | ok read =>
    obtain ⟨steps, rest⟩ := read
    simp only [Except.map]
    cases joint? rest with
    | none => exact (ended_map _).symm
    | some further =>
      obtain ⟨safe, more⟩ := further
      show (segments total more).map _ = ((segments total more).map _).map _
      cases segments total more <;> rfl

theorem readBehind_joint (step : PathStep) (safe : Bool) :
    readBehind total step (joint safe ++ text) =
      (segments total text).map (⟨step, safe⟩ :: ·) := by
  have hnone : brackets total (joint safe ++ text) = .ok ([], joint safe ++ text) :=
    brackets_other fun c hc => by
      cases safe <;> obtain rfl := Option.some.inj hc <;> decide
  unfold readBehind
  rw [hnone]
  cases safe <;> rfl

/-- Nothing here goes on with a path. -/
def EndsPath (text : List Char) : Prop :=
  ∀ c ∈ text.head?, isNameChar c = false ∧ c ∉ ['[', '.', '?']

theorem endsPath_nil : EndsPath [] := by simp [EndsPath]

theorem readBehind_end (step : PathStep) (h : EndsPath text) :
    readBehind total step text = ended total [⟨step, false⟩] text := by
  have hnone : brackets total text = .ok ([], text) :=
    brackets_other fun c hc e => (h c hc).2 (by simp [e])
  have hjoint : joint? text = none := by
    unfold joint?
    split
    · exact absurd (by simp) (h '?' rfl).2
    · exact absurd (by simp) (h '.' rfl).2
    · rfl
  unfold readBehind
  rw [hnone]
  simp only [hjoint]
  rfl

/-- What stands behind a name is no part of it. -/
theorem SpelledBehind.starts {plain : List Char → Prop} {safe : Bool} {w : List Char}
    {path : List PathSegment} (h : SpelledBehind plain safe w path) (hrest : EndsPath rest) :
    ∀ c ∈ (w ++ rest).head?, isNameChar c = false := by
  intro c hc
  cases h with
  | nil => exact (hrest c hc).1
  | @field safe next name w path _ _ =>
    cases safe <;> obtain rfl := Option.some.inj hc <;> decide
  | bracket =>
    obtain rfl := Option.some.inj hc
    decide

/-- A spelling is read to its end, where only the end of the text is no fault. -/
theorem readBehind_spelled {safe : Bool} {w : List Char} {path : List PathSegment}
    (h : SpelledBehind Anyhow safe w path) (hrest : EndsPath rest) (step : PathStep) :
    readBehind total step (w ++ rest) = ended total (⟨step, safe⟩ :: path) rest := by
  induction h generalizing step with
  | nil => exact readBehind_end step hrest
  | @field safe next name w path hname h ih =>
    rw [List.append_assoc, List.append_assoc, readBehind_joint,
      segments_name hname (h.starts hrest), ih, ended_map]
  | @bracket next inside w s path hstep h ih =>
    rw [List.cons_append, List.append_assoc, List.cons_append, readBehind_bracket hstep, ih, ended_map]

theorem segments_spelled {w : List Char} {path : List PathSegment} (h : Spelled Anyhow w path)
    (hrest : EndsPath rest) : segments total (w ++ rest) = ended total path rest := by
  obtain ⟨hname, h⟩ := h
  rw [List.append_assoc, segments_name hname (h.starts hrest), readBehind_spelled h hrest]

/-- The brackets that are read are spelled in front of what they leave. -/
theorem spelledBehind_of_brackets {steps : List PathStep} {safe : Bool} {path : List PathSegment}
    (h : brackets total text = .ok (steps, rest)) (hrest : SpelledBehind Anyhow safe rest path)
    (step : PathStep) :
    ∃ next more, segmentsOf safe (step :: steps) = ⟨step, next⟩ :: more ∧
      SpelledBehind Anyhow next text (more ++ path) := by
  fun_induction brackets total text generalizing steps step with
  | case1 text f hf => cases h
  | case2 text s r hs ih =>
    obtain ⟨⟨ss, r⟩, hss, heq⟩ := Outcome.map_eq_ok.mp h
    cases heq
    obtain ⟨inside, rfl, hinside⟩ := bracket_eq_ok.mp hs
    obtain ⟨next, more, hmore, hspelled⟩ := ih hss s
    refine ⟨false, ⟨s, next⟩ :: more, ?_, .bracket hinside hspelled⟩
    rw [segmentsOf, hmore]
    simp
  | case3 text _ =>
    obtain ⟨rfl, rfl⟩ := Prod.mk.inj (Except.ok.inj h)
    exact ⟨safe, [], rfl, hrest⟩

theorem joint?_eq_some {safe : Bool} (h : joint? text = some (safe, rest)) :
    text = joint safe ++ rest := by
  unfold joint? at h
  split at h <;> cases h <;> rfl

/-- What is read is spelled. -/
theorem spelled_of_segments {path : List PathSegment} (h : segments total text = .ok path) :
    Spelled Anyhow text path := by
  fun_induction segments total text generalizing path with
  | case1 | case2 => cases h
  | case3 text field rest hname steps behind hbrackets safe more hjoint ih =>
    obtain ⟨further, hfurther, rfl⟩ := Outcome.map_eq_ok.mp h
    obtain ⟨w, rfl, rfl, hw⟩ := name_eq_ok hname
    obtain rfl := joint?_eq_some hjoint
    -- the path behind the point starts with a name
    have hbehind : SpelledBehind Anyhow safe (joint safe ++ more) further := by
      obtain ⟨hname, hpath⟩ := ih hfurther
      exact .field hname hpath
    obtain ⟨next, tail, hsegments, hspelled⟩ := spelledBehind_of_brackets hbrackets hbehind _
    rw [hsegments]
    exact .path hw hspelled
  | case4 text field rest hname steps behind hbrackets hjoint =>
    obtain ⟨w, rfl, rfl, hw⟩ := name_eq_ok hname
    unfold ended at h
    split at h
    · obtain ⟨next, tail, hsegments, hspelled⟩ := spelledBehind_of_brackets hbrackets .nil _
      rw [← Except.ok.inj h, hsegments]
      rw [List.append_nil] at hspelled
      exact .path hw hspelled
    · cases h

theorem Spelled.ne_nil {plain : List Char → Prop} {w : List Char} {path : List PathSegment}
    (h : Spelled plain w path) : w ≠ [] := by
  obtain @⟨_, name, _, _, hname, -⟩ := h
  cases name with
  | nil => cases hname
  | cons c name => simp

/-- The reader accepts exactly the spellings of paths. -/
theorem read_eq_ok {p : String} {path : List PathSegment} :
    read p = .ok path ↔ Spelled Anyhow p.toList path := by
  unfold read
  constructor
  · intro h
    simp only at h
    split at h
    · cases h
    · exact spelled_of_segments h
  · intro h
    have hread : segments p.toList.length (p.toList ++ []) = _ := segments_spelled h endsPath_nil
    rw [List.append_nil] at hread
    simp only
    rw [if_neg (by simpa using h.ne_nil), hread]
    rfl

/-! Printing. -/

theorem keySpelled_print (k : List Char) : KeySpelled '"' (k.flatMap printKeyChar) k := by
  induction k with
  | nil => exact .nil
  | cons c k ih =>
    rw [List.flatMap_cons, printKeyChar]
    split
    · exact .escaped ih
    · rename_i hc
      rw [not_or] at hc
      exact .plain hc.1 hc.2 ih

theorem stepSpelled_index {plain : List Char → Prop} {n : Int} (h : Text.isInt64 n = true) :
    StepSpelled plain (toString n).toList (.index n) := by
  have hclean : ∀ c ∈ (toString n).toList, Text.isWhitespace c = false := by
    intro c hc
    rcases Text.toString_isDigit_or_minus hc with hd | rfl
    · have hcodes := Char.isDigit_iff_toNat.mp hd
      have hlow : 48 ≤ c.toNat := hcodes.1
      have hhigh : c.toNat ≤ 57 := hcodes.2
      simp only [Text.isWhitespace, Bool.or_eq_false_iff]
      simp
      omega
    · decide
  refine .index (fun hmem => ?_) ?_
  · rcases Text.toString_isDigit_or_minus hmem with hd | hminus
    · exact absurd hd (by decide)
    · exact absurd hminus (by decide)
  · rw [Text.trim_of_clean hclean, Text.int64?_toString h]

/-- Printed segments spell the segments. -/
theorem spelledBehind_print {plain : List Char → Prop} {safe : Bool} {path : List PathSegment}
    (h : WellFormedBehind isFieldName safe path) :
    SpelledBehind plain safe (printBehind safe path) path := by
  induction path generalizing safe with
  | nil =>
    obtain rfl : safe = false := h
    exact .nil
  | cons segment path ih =>
    obtain ⟨step, next⟩ := segment
    obtain ⟨hsafe, hstep, hpath⟩ := h
    have hrest := ih hpath
    cases step with
    | field name =>
      have hspelled : SpelledBehind plain safe (joint safe ++ (name.toList ++ printBehind next path))
          (⟨.field (String.ofList name.toList), next⟩ :: path) := .field hstep hrest
      rw [String.ofList_toList, ← List.append_assoc] at hspelled
      exact hspelled
    | index n =>
      obtain rfl : safe = false := Bool.eq_false_iff.mpr fun e => hsafe e
      have hspelled := SpelledBehind.bracket (stepSpelled_index hstep) hrest
      simpa [printBehind, printJoint, printStep] using hspelled
    | key k =>
      obtain rfl : safe = false := Bool.eq_false_iff.mpr fun e => hsafe e
      have hspelled := SpelledBehind.bracket (.key (keySpelled_print k.toList)) hrest
      simpa [printBehind, printJoint, printStep] using hspelled

/-- A printed path spells the path. -/
theorem spelled_print {plain : List Char → Prop} {path : List PathSegment}
    (h : WellFormed isFieldName path) : Spelled plain (print path) path := by
  match path, h with
  | ⟨.field name, next⟩ :: path, ⟨_, hname, hpath⟩ =>
    have hspelled : Spelled plain (name.toList ++ printBehind next path)
        (⟨.field (String.ofList name.toList), next⟩ :: path) := .path hname (spelledBehind_print hpath)
    rw [String.ofList_toList] at hspelled
    exact hspelled

theorem SpelledBehind.wellFormed {plain : List Char → Prop} {safe : Bool} {w : List Char}
    {path : List PathSegment} (h : SpelledBehind plain safe w path) :
    WellFormedBehind isFieldName safe path := by
  induction h with
  | nil => rfl
  | @field safe next name w path hname h ih =>
    refine ⟨fun _ => trivial, ?_, ih⟩
    rw [IsStep, String.toList_ofList]
    exact hname
  | @bracket next inside w s path hstep h ih =>
    refine ⟨fun e => absurd e (by decide), ?_, ih⟩
    cases hstep with
    | index _ hn => exact Text.isInt64_of_int64? hn
    | key | singleKey => trivial

/-- Only well-formed paths are spelled. -/
theorem Spelled.wellFormed {plain : List Char → Prop} {w : List Char} {path : List PathSegment}
    (h : Spelled plain w path) : WellFormed isFieldName path := by
  obtain ⟨hname, h⟩ := h
  refine ⟨trivial, ?_, h.wellFormed⟩
  rw [IsStep, String.toList_ofList]
  exact hname

/-- Printing and reading paths are inverse to each other: exactly the well-formed paths are read
    back from their print, and whatever is read is such a path. -/
theorem read_print :
    (∀ path, read (String.ofList (print path)) = .ok path ↔ WellFormed isFieldName path) ∧
      ∀ p path, read p = .ok path →
        WellFormed isFieldName path ∧ read (String.ofList (print path)) = .ok path := by
  have hprint : ∀ path, WellFormed isFieldName path →
      read (String.ofList (print path)) = .ok path := fun path h => by
    rw [read_eq_ok, String.toList_ofList]
    exact spelled_print h
  have hread : ∀ p path, read p = .ok path → WellFormed isFieldName path :=
    fun p path h => (read_eq_ok.mp h).wellFormed
  exact ⟨fun path => ⟨hread _ path, hprint path⟩,
    fun p path h => ⟨hread p path h, hprint path (hread p path h)⟩⟩

/-- A sign, blanks and single quotes are not printed, but the key is the same. -/
theorem read_print_quoted :
    let path : List PathSegment :=
      [⟨.field "a", true⟩, ⟨.field "b", false⟩, ⟨.index 7, false⟩, ⟨.key "x\"]", false⟩]
    read "a?.b[ +7 ]['x\"]']" = .ok path ∧
      read (String.ofList (print path)) = .ok path ∧ WellFormed isFieldName path := by
  have hread : read "a?.b[ +7 ]['x\"]']" = .ok [⟨.field "a", true⟩, ⟨.field "b", false⟩,
      ⟨.index 7, false⟩, ⟨.key "x\"]", false⟩] := by decide +kernel
  obtain ⟨hformed, hprint⟩ := read_print.2 _ _ hread
  exact ⟨hread, hprint, hformed⟩

end Path
end BraceTemplate
