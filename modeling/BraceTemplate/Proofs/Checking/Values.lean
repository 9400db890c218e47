import BraceTemplate.Proofs.Checking.Codes
import BraceTemplate.Proofs.Text

/- Values and schemas. A value fits a schema when it has one of its types, all of them known,
   and keeps to its constraints (`Schema.Fits`); checking a value that is present is clean just
   then, whatever the messages call the value. Coercion gives a value of the form and so of the
   type that was asked for (`TypeExpr.convert?_hasForm`, `TypeExpr.convert?_matches`), and a
   value that keeps its text keeps fitting. -/
namespace BraceTemplate

open Json
open Findings (Clean)

/-! Fitting. -/

namespace Schema

variable [Formats]

/-- A pattern can be read and matches the text of a value, unless the value has no text. -/
def Matches (pattern : String) : Value → Prop
  | .array _ => True
  | .object _ => True
  | v => ∃ holds, Formats.pattern pattern = .ok holds ∧ holds v.display.toList = true

/-- The value is of a type of the schema and keeps to its constraints. -/
structure Fits (s : Schema) (v : Value) : Prop where
  known : TypeExpr.unknown s.typeExpr = []
  typed : TypeExpr.accepts s.typeExpr v = true
  least : ∀ n ∈ measure? v, ∀ least ∈ s.minLength, least ≤ n
  most : ∀ n ∈ measure? v, ∀ most ∈ s.maxLength, n ≤ most
  choice : ∀ choices ∈ s.choices, isChoice choices v = true
  pattern : ∀ pattern ∈ s.pattern, Matches pattern v

/-- Checking the value by itself finds no error. -/
def Conforms (s : Schema) (v : Value) : Prop := Findings.firstError (s.checkValue (some v)) = none

instance (s : Schema) (v : Value) : Decidable (s.Conforms v) :=
  inferInstanceAs (Decidable (Findings.firstError (s.checkValue (some v)) = none))

variable (s : Schema) (subject : String) (v : Value)

omit [Formats] in
theorem lengthFindings_clean : Clean (s.lengthFindings subject v) ↔
    (∀ n ∈ measure? v, ∀ least ∈ s.minLength, least ≤ n) ∧
      ∀ n ∈ measure? v, ∀ most ∈ s.maxLength, n ≤ most := by
  unfold lengthFindings
  cases measure? v with
  | none => simp
  | some n =>
    rw [Findings.clean_append]
    refine and_congr ?_ ?_
    · cases s.minLength <;> simp
    · cases s.maxLength <;> simp

omit [Formats] in
theorem choiceFindings_clean : Clean (s.choiceFindings subject v) ↔
    ∀ choices ∈ s.choices, isChoice choices v = true := by
  unfold choiceFindings
  cases s.choices <;> simp

theorem patternFindings_clean : Clean (s.patternFindings subject v) ↔
    ∀ pattern ∈ s.pattern, Matches pattern v := by
  unfold patternFindings
  cases s.pattern with
  | none => simp
  | some pattern => cases v <;> cases hread : Formats.pattern pattern <;> simp [Matches, hread]

/-- Checking a value that is present is clean when the value fits. -/
theorem checkPresent_clean : Clean (s.checkPresent subject v) ↔ s.Fits v := by
  unfold checkPresent
  simp only
  split
  · rename_i hunknown
    rw [Findings.clean_mapped fun _ => rfl]
    simp only [Bool.not_eq_true', List.isEmpty_eq_false_iff] at hunknown
    exact ⟨fun h => absurd h hunknown, fun h => absurd h.known hunknown⟩
  · rename_i hknown
    simp only [Bool.not_eq_true', List.isEmpty_eq_false_iff, ne_eq, not_not] at hknown
    split
    · rename_i htype
      simp only [Bool.not_eq_true'] at htype
      simp only [Findings.clean_single, Diagnostic.error_isError, Bool.true_eq_false, false_iff]
      exact fun h => Bool.false_ne_true (htype.symm.trans h.typed)
    · rename_i htype
      simp only [Bool.not_eq_true', Bool.not_eq_false] at htype
      rw [Findings.clean_append, Findings.clean_append, lengthFindings_clean, choiceFindings_clean,
        patternFindings_clean]
      constructor
      · rintro ⟨⟨⟨hleast, hmost⟩, hchoice⟩, hpattern⟩
        exact ⟨hknown, htype, hleast, hmost, hchoice, hpattern⟩
      · intro h
        exact ⟨⟨⟨h.least, h.most⟩, h.choice⟩, h.pattern⟩

/-- A value conforms when it may be left out, or fits. -/
theorem conforms_iff : s.Conforms v ↔
    if v.isNull = true then s.required = false else s.Fits v := by
  rw [Conforms, Findings.firstError_eq_none, checkValue, check]
  split
  · unfold check.missing
    cases s.required <;> simp
  · exact s.checkPresent_clean "value" v

end Schema

/-! Values of attributes. -/

/-- A value that an attribute can hold as it is: no array or object, and no number out of
    range. -/
inductive Json.Value.Plain : Value → Prop where
  | null : Plain .null
  | bool (b : Bool) : Plain (.bool b)
  | int {n : Int} (h : Text.isInt64 n = true) : Plain (.int n)
  | float {x : Double} (h : x.isFinite = true) : Plain (.float x)
  | string (text : String) : Plain (.string text)

instance : DecidablePred Value.Plain
  | .null => .isTrue .null
  | .bool b => .isTrue (.bool b)
  | .int n => decidable_of_iff (Text.isInt64 n = true) ⟨.int, fun | .int h => h⟩
  | .float x => decidable_of_iff (x.isFinite = true) ⟨.float, fun | .float h => h⟩
  | .string text => .isTrue (.string text)
  | .array _ => .isFalse nofun
  | .object _ => .isFalse nofun

theorem AttrValue.toJson?_ofJson {v : Value} (h : v.Plain) : (ofJson v).toJson? = some v := by
  cases h with
  | null => rfl
  | bool b => rfl
  | int h => rw [ofJson, if_pos h, toJson?]
  | float h => rw [ofJson, toJson?, Value.ofDouble, if_pos h]
  | string text => rfl

/-- The data of an attribute is the same as itself, for it is no number out of range. -/
theorem AttrValue.same_self {a : AttrValue} {v : Value} (h : a.toJson? = some v) :
    v.same v = true := by
  cases a with
  | str s => cases h; simp [Value.same]
  | int n => cases h; simp [Value.same]
  | float x =>
    cases h
    unfold Value.ofDouble
    cases x <;> simp [Double.isFinite, Value.same, Double.eq]
  | bool b => cases h; simp [Value.same]
  | null => cases h; rfl
  | interpolation i => cases h

theorem Schema.isChoice_of_text {choices : List Value} {v : Value}
    (h : isChoice choices (.string v.display) = true) : isChoice choices v = true := by
  obtain ⟨c, hc, hsame⟩ := List.any_eq_true.mp h
  -- a choice is also met by a value whose text is the text of the choice
  refine List.any_eq_true.mpr ⟨c, hc, Bool.or_eq_true_iff.mpr (.inr ?_)⟩
  cases c <;> simp [Value.same, Value.display] at hsame ⊢ <;> exact hsame

/-- A value whose type is accepted fits when its text does. -/
theorem Schema.Fits.of_text [Formats] {s : Schema} {v : Value} (h : s.Fits (.string v.display))
    (hplain : v.Plain) (htyped : TypeExpr.accepts s.typeExpr v = true) : s.Fits v := by
  have hmatches : ∀ pattern ∈ s.pattern, Matches pattern v := by
    intro pattern hpattern
    obtain ⟨holds, hread, hholds⟩ := h.pattern pattern hpattern
    cases hplain <;> exact ⟨holds, hread, hholds⟩
  have hchoice := fun choices hchoices => isChoice_of_text (h.choice choices hchoices)
  cases hplain with
  | string text => exact h
  | _ =>
    -- nothing is measured of a value that is no text
    exact ⟨h.known, htyped, fun _ hn => absurd hn (Option.not_mem_none _),
      fun _ hn => absurd hn (Option.not_mem_none _), hchoice, hmatches⟩

/-! Texts of numbers. -/

/-- The text of a double is never one of an integer: it has a point, an exponent or a word. -/
theorem Double.dataText_letter (x : Double) :
    ∃ c ∈ x.dataText.toList, c.isDigit = false ∧ c ≠ '-' := by
  have hmarked : ∀ {negative : Bool} {text : List Char} {c : Char}, c ∈ text →
      c ∈ (String.ofList (signed negative text)).toList := by
    intro negative text c hc
    rw [String.toList_ofList, signed]
    split
    · exact List.mem_cons_of_mem _ hc
    · exact hc
  unfold dataText
  split
  · split
    · exact ⟨'.', hmarked (by decide), rfl, by decide⟩
    · simp only
      split
      · refine ⟨'.', hmarked ?_, rfl, by decide⟩
        unfold positional
        simp only
        split_ifs <;> simp
      · refine ⟨'e', hmarked ?_, rfl, by decide⟩
        unfold scientific
        simp only
        split <;> simp
  · exact ⟨'n', by decide, rfl, by decide⟩

theorem Double.dataText_ne_toString (x : Double) (n : Int) : x.dataText ≠ toString n := by
  intro h
  obtain ⟨c, hc, hdigit, hminus⟩ := x.dataText_letter
  rcases Text.toString_isDigit_or_minus (h ▸ hc) with hd | hm
  · exact Bool.false_ne_true (hdigit.symm.trans hd)
  · exact hminus hm

def Json.Value.isNumber : Value → Bool
  | .int _ => true
  | .float _ => true
  | _ => false

@[simp] theorem Json.Value.display_int (n : Int) : (Value.int n).display = toString n :=
  String.ofList_toList

@[simp] theorem Json.Value.display_float (x : Double) : (Value.float x).display = x.dataText :=
  String.ofList_toList

@[simp] theorem Json.Value.display_bool (b : Bool) : (Value.bool b).display = toString b := by
  cases b <;> rfl

/-! Coercion. -/

theorem Text.isInt64_clampInt64 (n : Int) : isInt64 (clampInt64 n) = true := by
  rw [isInt64_iff]
  unfold clampInt64 minInt64 maxInt64
  omega

namespace TypeExpr

/-- The conversions of scalars: which value becomes which as a value of which type. -/
inductive Converts : Value → String → Value → Prop where
  | textOfInt (n : Int) : Converts (.int n) "string" (.string (toString n))
  | textOfFloat (x : Double) : Converts (.float x) "string" (.string x.dataText)
  | textOfBool (b : Bool) : Converts (.bool b) "string" (.string (toString b))
  | integerOfText {text : String} {n : Int} (h : integer? text = some n) :
    Converts (.string text) "integer" (.int n)
  | integerOfFloat {x : Double} {n : Int} (h : x.integer? = some n) :
    Converts (.float x) "integer" (.int (Text.clampInt64 n))
  | numberOfInteger {text : String} {n : Int} (h : integer? text = some n) :
    Converts (.string text) "number" (.int n)
  | numberOfText {text : String} {x : Double} (h : float? text = some x) :
    Converts (.string text) "number" (.float x)
  | floatOfText {text : String} {x : Double} (h : float? text = some x) :
    Converts (.string text) "float" (.float x)
  | floatOfInt (n : Int) : Converts (.int n) "float" (.float (Double.ofInt n))
  | isTrue : Converts (.string "true") "boolean" (.bool true)
  | isFalse : Converts (.string "false") "boolean" (.bool false)

namespace Converts
variable {w v : Value} {name : String}

/-- A text becomes a number or keeps its text, or a number or truth value becomes its own text, or
    a number becomes one of another kind and another text. -/
theorem display_cases (h : Converts w name v) :
    ((∃ text, w = .string text) ∧ (v.isNumber = true ∨ v.display = w.display)) ∨
      ((w.isNumber = true ∨ ∃ b, w = .bool b) ∧ v = .string w.display) ∨
      (v.isNumber = true ∧ v.display ≠ w.display) := by
  cases h with
  | textOfInt n => exact .inr (.inl ⟨.inl rfl, by rw [Value.display_int]⟩)
  | textOfFloat x => exact .inr (.inl ⟨.inl rfl, by rw [Value.display_float]⟩)
  | textOfBool b => exact .inr (.inl ⟨.inr ⟨b, rfl⟩, by rw [Value.display_bool]⟩)
  | integerOfFloat =>
    refine .inr (.inr ⟨rfl, ?_⟩)
    rw [Value.display_int, Value.display_float]
    exact (Double.dataText_ne_toString _ _).symm
  | floatOfInt n =>
    refine .inr (.inr ⟨rfl, ?_⟩)
    rw [Value.display_float, Value.display_int]
    exact Double.dataText_ne_toString _ _
  | integerOfText | numberOfInteger | numberOfText | floatOfText => exact .inl ⟨⟨_, rfl⟩, .inl rfl⟩
  | isTrue | isFalse => exact .inl ⟨⟨_, rfl⟩, .inr rfl⟩

theorem text_eq {text : String} (h : Converts w name (.string text)) : text = w.display := by
  cases h with
  | textOfInt n => exact (Value.display_int n).symm
  | textOfFloat x => exact (Value.display_float x).symm
  | textOfBool b => exact (Value.display_bool b).symm

/-- The text of a number or truth value matches the patterns that the value matches. -/
theorem matches_text [Formats] {text pattern : String} (h : Converts w name (.string text))
    (hmatches : Schema.Matches pattern w) : Schema.Matches pattern (.string text) := by
  rw [h.text_eq]
  cases h <;> exact hmatches

/-- Only zeros of two signs are the same and have two texts. -/
theorem eq_of_same {text : String} {c : Value} (h : Converts w name (.string text))
    (hzero : ∀ x, w = .float x → x.isZero = false) (hsame : c.same w = true) : c = w := by
  cases h with
  | textOfInt n => cases c <;> simp_all [Value.same]
  | textOfBool b => cases c <;> simp_all [Value.same]
  | textOfFloat x =>
    have hx : x.isZero = false := hzero x rfl
    cases c with
    | float y =>
      have heq : y.eq x = true := by simpa only [Value.same] using hsame
      cases x <;> cases y <;> simp_all [Double.eq]
    | _ => simp [Value.same] at hsame

theorem isChoice_text {text : String} {choices : List Value} (h : Converts w name (.string text))
    (hzero : ∀ x, w = .float x → x.isZero = false) (hchoice : Schema.isChoice choices w = true) :
    Schema.isChoice choices (.string text) = true := by
  obtain ⟨c, hc, hmeets⟩ := List.any_eq_true.mp hchoice
  rw [h.text_eq]
  refine List.any_eq_true.mpr ⟨c, hc, Bool.or_eq_true_iff.mpr (.inr ?_)⟩
  rcases Bool.or_eq_true_iff.mp hmeets with hsame | htext
  · obtain rfl := h.eq_of_same hzero hsame
    cases h <;> exact beq_self_eq_true _
  · exact htext

end Converts

theorem convert?_converts {w v : Value} {name : String} (h : convert? w name = some v) :
    Converts w name v := by
  unfold convert? at h
  split at h
  · cases h; exact .textOfInt _
  · cases h; exact .textOfFloat _
  · cases h; exact .textOfBool _
  · obtain ⟨n, hn, rfl⟩ := Option.map_eq_some_iff.mp h
    exact .integerOfText hn
  · obtain ⟨n, hn, rfl⟩ := Option.map_eq_some_iff.mp h
    exact .integerOfFloat hn
  · split at h
    · rename_i hn
      cases h
      exact .numberOfInteger hn
    · obtain ⟨x, hx, rfl⟩ := Option.map_eq_some_iff.mp h
      exact .numberOfText hx
  · obtain ⟨x, hx, rfl⟩ := Option.map_eq_some_iff.mp h
    exact .floatOfText hx
  · cases h; exact .floatOfInt _
  · cases h; exact .isTrue
  · cases h; exact .isFalse
  · cases h

/-- A value is converted to one that has the form of the type. -/
theorem convert?_hasForm [Formats] {w v : Value} {name : String} (h : convert? w name = some v) :
    hasForm v name = true := by
  cases convert?_converts h <;> rfl

/-- A value in the form of a type is a value of the type. -/
theorem matchesName_of_hasForm [Formats] {v : Value} {name : String} (h : hasForm v name = true) : matchesName v name = true := by
  unfold hasForm at h
  split at h <;> first | rfl | exact h | cases h

/-- A value is converted to one that the type accepts. -/
theorem convert?_matches [Formats] {w v : Value} {name : String} (h : convert? w name = some v) :
    matchesName v name = true :=
  matchesName_of_hasForm (convert?_hasForm h)

/-- A value is converted to one that an attribute can hold, if it is in the range of floats,
    and never to null. -/
theorem convert?_plain {w v : Value} {name : String} (h : convert? w name = some v)
    (hfinite : ∀ x, v = .float x → x.isFinite = true) : v.Plain ∧ v.isNull = false := by
  cases convert?_converts h with
  | textOfInt | textOfFloat | textOfBool => exact ⟨.string _, rfl⟩
  | integerOfText hn | numberOfInteger hn => exact ⟨.int (Text.isInt64_of_int64? hn), rfl⟩
  | integerOfFloat => exact ⟨.int (Text.isInt64_clampInt64 _), rfl⟩
  | numberOfText | floatOfText | floatOfInt => exact ⟨.float (hfinite _ rfl), rfl⟩
  | isTrue | isFalse => exact ⟨.bool _, rfl⟩

theorem convert?_not_null {w v : Value} {name : String} (h : convert? w name = some v) :
    w.isNull = false := by
  cases convert?_converts h <;> rfl

/-- A value is converted to one of another kind. -/
theorem convert?_not_same {w v : Value} {name : String} (h : convert? w name = some v) :
    v.same w = false := by
  cases convert?_converts h <;> rfl

/-- Coercion keeps a value or converts it for a branch. -/
theorem coerce_cases [Formats] (expr : String) (w : Value) :
    coerce expr w = w ∨ ∃ name ∈ branches expr, convert? w name = some (coerce expr w) := by
  unfold coerce
  split
  · exact .inl rfl
  · cases hfound : (branches expr).findSome? (convert? w) with
    | none => exact .inl rfl
    | some v =>
      obtain ⟨name, hname, hv⟩ := List.exists_of_findSome?_eq_some hfound
      exact .inr ⟨name, hname, hv⟩

/-- A truth value that a type accepts is kept, for it has the form of every branch that takes it. -/
theorem coerce_bool [Formats] {expr : String} {b : Bool} (h : accepts expr (.bool b) = true) :
    coerce expr (.bool b) = .bool b := by
  obtain ⟨name, hname, hmatches⟩ := List.any_eq_true.mp h
  have hform : hasForm (.bool b) name = true := by
    by_cases hboolean : name = "boolean"
    · rw [hboolean]
      rfl
    · -- the types of numbers take no truth value
      unfold hasForm
      split <;> first | exact hmatches | exact absurd rfl hboolean | cases hmatches
  exact if_pos (List.any_eq_true.mpr ⟨name, hname, hform⟩)

end TypeExpr
end BraceTemplate
