import BraceTemplate.Text.Integer
import BraceTemplate.Text.Trim

/- Facts about texts: the letters and digits of ASCII belong to the Unicode classes, cutting a
   text at separators loses nothing, and an integer of 64 bits reads back from the digits it
   is written in (`int64?_toString`). -/
namespace BraceTemplate

theorem Double.digitsValue_eq_ofDigitChars (digits : List Char) :
    Double.digitsValue digits = Nat.ofDigitChars 10 digits 0 := by
  simp only [Double.digitsValue, Nat.ofDigitChars, Nat.mul_comm]

theorem Double.digitsValue_toDigits (n : Nat) : Double.digitsValue (Nat.toDigits 10 n) = n := by
  rw [Double.digitsValue_eq_ofDigitChars, Nat.ofDigitChars_ten_toDigits]

namespace Text

/-! Letters and digits. -/

theorem alpha_codes {c : Char} (h : c.isAlpha = true) :
    (65 ≤ c.toNat ∧ c.toNat ≤ 90) ∨ (97 ≤ c.toNat ∧ c.toNat ≤ 122) := by
  have hcodes : (decide (65 ≤ c.toNat ∧ c.toNat ≤ 90) ||
      decide (97 ≤ c.toNat) && decide (c.toNat ≤ 122)) = true := h
  simpa only [Bool.or_eq_true, Bool.and_eq_true, decide_eq_true_eq] using hcodes

/-- A digit is no letter. -/
theorem isAlpha_of_isDigit {c : Char} (h : c.isDigit = true) : c.isAlpha = false := by
  rw [Bool.eq_false_iff]
  intro halpha
  have hletter := alpha_codes halpha
  have hcode : c.toNat ≤ 57 := (Char.isDigit_iff_toNat.mp h).2
  omega

theorem toLower_of_isDigit {c : Char} (h : c.isDigit = true) : c.toLower = c := by
  have hcode : c.toNat ≤ 57 := (Char.isDigit_iff_toNat.mp h).2
  exact dif_neg fun hupper => absurd (show 65 ≤ c.toNat from hupper.1) (by omega)

theorem isAlphanum_eq (c : Char) : c.isAlphanum = (c.isUpper || (c.isLower || c.isDigit)) :=
  Bool.or_assoc _ _ _

theorem alphanum_codes {c : Char} (h : c.isAlphanum = true) :
    (48 ≤ c.toNat ∧ c.toNat ≤ 57) ∨ (65 ≤ c.toNat ∧ c.toNat ≤ 90) ∨
      (97 ≤ c.toNat ∧ c.toNat ≤ 122) := by
  rw [Char.isAlphanum, Bool.or_eq_true] at h
  rcases h with halpha | hdigit
  · exact .inr (alpha_codes halpha)
  · exact .inl (Char.isDigit_iff_toNat.mp hdigit)

theorem isUpper_iff {c : Char} : c.isUpper = true ↔ 65 ≤ c.toNat ∧ c.toNat ≤ 90 :=
  decide_eq_true_iff

theorem isLower_iff {c : Char} : c.isLower = true ↔ 97 ≤ c.toNat ∧ c.toNat ≤ 122 :=
  Bool.and_eq_true_iff.trans (and_congr decide_eq_true_iff decide_eq_true_iff)

/-- The small form of a capital letter has another code, and other characters are their own. -/
theorem toLower_cases (c : Char) :
    (c.isUpper = true ∧ c.toLower.toNat = c.toNat + 32) ∨ (c.isUpper = false ∧ c.toLower = c) := by
  by_cases h : c.isUpper = true
  · refine .inl ⟨h, ?_⟩
    have hcode : c.val.toNat ≤ 90 := (isUpper_iff.mp h).2
    have hmoved : c.toLower.val = c.val + 32 := congrArg Char.val (dif_pos (of_decide_eq_true h))
    have hval : c.toLower.val.toNat = (c.val.toNat + 32) % 2 ^ 32 := by
      rw [hmoved, UInt32.toNat_add]
      rfl
    exact hval.trans (Nat.mod_eq_of_lt (by omega))
  · exact .inr ⟨by simpa using h, dif_neg fun hupper => h (decide_eq_true hupper)⟩

theorem isUpper_toLower (c : Char) : c.toLower.isUpper = false := by
  rcases toLower_cases c with ⟨hupper, hcode⟩ | ⟨hupper, hsame⟩
  · have hcodes := isUpper_iff.mp hupper
    refine Bool.eq_false_iff.mpr fun h => ?_
    have hcodes' := isUpper_iff.mp h
    omega
  · rw [hsame, hupper]

theorem toLower_of_not_isUpper {c : Char} (h : c.isUpper = false) : c.toLower = c := by
  rcases toLower_cases c with ⟨hupper, -⟩ | ⟨-, hsame⟩
  · exact absurd (h.symm.trans hupper) Bool.false_ne_true
  · exact hsame

theorem isAlpha_toLower {c : Char} (h : c.isAlpha = true) : c.toLower.isAlpha = true := by
  rcases toLower_cases c with ⟨hupper, hcode⟩ | ⟨-, hsame⟩
  · have hcodes := isUpper_iff.mp hupper
    have hlower : c.toLower.isLower = true := isLower_iff.mpr (by omega)
    exact Bool.or_eq_true_iff.mpr (.inr hlower)
  · rw [hsame, h]

theorem isAlphanumeric_of_alphanum {c : Char} (h : c.isAlphanum = true) :
    isAlphanumeric c = true := by
  have codes := alphanum_codes h
  have hascii : isAscii c = true := by
    simp only [isAscii, decide_eq_true_eq]
    omega
  simpa only [isAlphanumeric, isAlphabetic, isNumeric, hascii, if_true, Char.isAlphanum] using h

/-! Pieces. -/

section Pieces
variable {isSeparator : Char → Bool} {c : Char} {rest piece : List Char} {more : List (List Char)}

/-- There is always a piece, though it may be empty. -/
theorem splitWhere_ne_nil (isSeparator : Char → Bool) (text : List Char) :
    splitWhere isSeparator text ≠ [] := by
  cases text with
  | nil => exact List.cons_ne_nil _ _
  | cons c rest =>
    unfold splitWhere
    split
    · exact List.cons_ne_nil _ _
    · split <;> exact List.cons_ne_nil _ _

theorem splitWhere_separator (hc : isSeparator c = true) (rest : List Char) :
    splitWhere isSeparator (c :: rest) = [] :: splitWhere isSeparator rest := by
  rw [splitWhere, if_pos hc]

/-- A character that is no separator belongs to the first piece. -/
theorem splitWhere_cons (hc : isSeparator c = false) (h : splitWhere isSeparator rest = piece :: more) :
    splitWhere isSeparator (c :: rest) = (c :: piece) :: more := by
  rw [splitWhere, if_neg (by simp [hc]), h]

/-- The pieces are what is left of a text without the separators. -/
theorem flatten_splitWhere (isSeparator : Char → Bool) (text : List Char) :
    (splitWhere isSeparator text).flatten = text.filter (!isSeparator ·) := by
  induction text with
  | nil => rfl
  | cons c rest ih =>
    cases hc : isSeparator c with
    | true =>
      rw [splitWhere_separator hc, List.flatten_cons, ih, List.filter_cons_of_neg (by simp [hc])]
      rfl
    | false =>
      obtain ⟨piece, more, hsplit⟩ := List.exists_cons_of_ne_nil (splitWhere_ne_nil isSeparator rest)
      rw [hsplit, List.flatten_cons] at ih
      rw [splitWhere_cons hc hsplit, List.flatten_cons, List.filter_cons_of_pos (by simp [hc]), ← ih]
      rfl

/-- A separator cuts a text in two. -/
theorem splitWhere_append (hc : isSeparator c = true) (before after : List Char) :
    splitWhere isSeparator (before ++ c :: after) =
      splitWhere isSeparator before ++ splitWhere isSeparator after := by
  induction before with
  | nil => exact splitWhere_separator hc after
  | cons d before ih =>
    rw [List.cons_append]
    cases hd : isSeparator d with
    | true => rw [splitWhere_separator hd, splitWhere_separator hd, ih, List.cons_append]
    | false =>
      obtain ⟨piece, more, hsplit⟩ := List.exists_cons_of_ne_nil (splitWhere_ne_nil isSeparator before)
      rw [hsplit, List.cons_append] at ih
      rw [splitWhere_cons hd ih, splitWhere_cons hd hsplit, List.cons_append]

/-- A text without separators is one piece. -/
theorem splitWhere_whole {text : List Char} (h : ∀ c ∈ text, isSeparator c = false) :
    splitWhere isSeparator text = [text] := by
  induction text with
  | nil => rfl
  | cons c rest ih =>
    obtain ⟨hc, hrest⟩ := List.forall_mem_cons.mp h
    exact splitWhere_cons hc (ih hrest)

end Pieces

theorem splitOn_ne_nil (separator : Char) (text : List Char) : splitOn separator text ≠ [] :=
  splitWhere_ne_nil _ text

theorem splitOn_cons_of_ne {separator c : Char} {rest piece : List Char} {more : List (List Char)}
    (hc : c ≠ separator) (h : splitOn separator rest = piece :: more) :
    splitOn separator (c :: rest) = (c :: piece) :: more :=
  splitWhere_cons (beq_false_of_ne hc) h

/-- Cutting at a separator loses nothing. -/
theorem joinWith_splitOn (separator : Char) (text : List Char) :
    joinWith [separator] (splitOn separator text) = text := by
  induction text with
  | nil => rfl
  | cons c rest ih =>
    cases hsplit : splitOn separator rest with
    | nil => exact absurd hsplit (splitOn_ne_nil separator rest)
    | cons piece more =>
      rw [hsplit] at ih
      by_cases hc : c = separator
      · subst hc
        have hcut : splitOn c (c :: rest) = [] :: splitOn c rest := by
          unfold splitOn
          exact splitWhere_separator (by simp) rest
        rw [hcut, hsplit]
        simp [joinWith, ih]
      · rw [splitOn_cons_of_ne hc hsplit]
        cases more <;> simpa [joinWith] using ih

/-! Decimal integers. -/

theorem isInt64_iff {n : Int} : isInt64 n = true ↔ minInt64 ≤ n ∧ n ≤ maxInt64 := by
  simp only [isInt64, Bool.and_eq_true, decide_eq_true_eq]

/-- The digits of a natural number are at least one. -/
theorem toDigits_digits (n : Nat) :
    ∃ d ds, Nat.toDigits 10 n = d :: ds ∧ ∀ c ∈ d :: ds, c.isDigit = true := by
  cases h : Nat.toDigits 10 n with
  | nil => exact absurd h Nat.toDigits_ne_nil
  | cons d ds =>
    refine ⟨d, ds, rfl, fun c hc => ?_⟩
    exact Nat.isDigit_of_mem_toDigits (n := n) (by decide) (by decide) (h ▸ hc)

/-- The text of an integer: its digits, behind a minus when it is negative. -/
theorem toString_chars (n : Int) :
    (toString n).toList =
      if 0 ≤ n then Nat.toDigits 10 n.natAbs else '-' :: Nat.toDigits 10 n.natAbs := by
  rw [Int.toString_eq_repr, Int.repr_eq_if]
  split
  · rw [Nat.toList_repr]
    congr 1
    omega
  · rw [String.toList_append, Nat.toList_repr]
    have : (-n).toNat = n.natAbs := by omega
    rw [this]
    rfl

theorem isDigit_ne {c d : Char} (h : c.isDigit = true) (hd : d.isDigit = false) : c ≠ d :=
  fun e => by simp [e, hd] at h

/-- The text of an integer is made of digits and perhaps a minus. -/
theorem toString_isDigit_or_minus {n : Int} {c : Char} (h : c ∈ (toString n).toList) :
    c.isDigit = true ∨ c = '-' := by
  have digit : ∀ m, c ∈ Nat.toDigits 10 m → c.isDigit = true :=
    fun m hm => Nat.isDigit_of_mem_toDigits (by decide) (by decide) hm
  rw [toString_chars] at h
  split at h
  · exact .inl (digit _ h)
  · rcases List.mem_cons.mp h with h | h
    · exact .inr h
    · exact .inl (digit _ h)

theorem toString_cons (n : Int) : ∃ c tail, (toString n).toList = c :: tail := by
  obtain ⟨d, ds, hds, -⟩ := toDigits_digits n.natAbs
  rw [toString_chars, hds]
  split <;> exact ⟨_, _, rfl⟩

theorem int64?_toString {n : Int} (h : isInt64 n = true) :
    int64? (toString n).toList = some n := by
  obtain ⟨d, ds, hds, hall⟩ := toDigits_digits n.natAbs
  have hd : d.isDigit = true := hall d (by simp)
  have hminus : d ≠ '-' := isDigit_ne hd rfl
  have hplus : d ≠ '+' := isDigit_ne hd rfl
  have hval : Double.digitsValue (d :: ds) = n.natAbs := by
    rw [← hds, Double.digitsValue_toDigits]
  have htail : ∀ c ∈ ds, c.isDigit = true := fun c hc => hall c (List.mem_cons_of_mem d hc)
  rw [toString_chars, hds]
  by_cases hn : 0 ≤ n
  · have habs : (n.natAbs : Int) = n := by omega
    rw [if_pos hn]
    simpa [int64?, hminus, hplus, hval, habs, h, hd] using htail
  · have habs : -(n.natAbs : Int) = n := by omega
    have hdigits : ((d :: ds).isEmpty || !(d :: ds).all Char.isDigit) = false := by
      rw [List.isEmpty_cons, Bool.false_or, Bool.not_eq_false', List.all_eq_true]
      exact hall
    rw [if_neg hn]
    simp only [int64?, hdigits, hval, habs, h, Bool.false_eq_true, if_false, if_true]

theorem isInt64_of_int64? {text : List Char} {n : Int} (h : int64? text = some n) :
    isInt64 n = true := by
  unfold int64? at h
  simp only [Option.ite_none_left_eq_some, Option.ite_none_right_eq_some, Option.some.injEq] at h
  obtain ⟨-, hn, rfl⟩ := h
  exact hn

/-- An integer is written with digits and perhaps a sign. -/
theorem mem_of_int64? {text : List Char} {n : Int} (h : int64? text = some n) {c : Char}
    (hc : c ∈ text) : c.isDigit = true ∨ c = '-' ∨ c = '+' := by
  unfold int64? at h
  simp only [Option.ite_none_left_eq_some, Bool.or_eq_true, Bool.not_eq_true', not_or,
    Bool.not_eq_false, List.all_eq_true] at h
  obtain ⟨⟨-, hall⟩, -⟩ := h
  split at hall
  · rcases List.mem_cons.mp hc with rfl | hc
    · exact .inr (.inl rfl)
    · exact .inl (hall c hc)
  · rcases List.mem_cons.mp hc with rfl | hc
    · exact .inr (.inr rfl)
    · exact .inl (hall c hc)
  · exact .inl (hall c hc)

end Text
end BraceTemplate
