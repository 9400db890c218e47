import BraceTemplate.Document.Event
import BraceTemplate.Formats.Standard
import BraceTemplate.Proofs.Checking.Values
import BraceTemplate.Proofs.Lexing.Numerals

/- Values with and without quotes. A number or a truth value is accepted by the types of numbers
   and truth values just as the text that spells it is (`TypeExpr.accepts_quoted`), with one
   exception: a float without a fraction is an integer, but its spelling has a point and is
   none. The two differ where nothing but that makes the value valid. -/
namespace BraceTemplate
namespace TypeExpr

open Json
open Lexer (isNumber classify?)

/-- The types of numbers and truth values. -/
def bareTypes : List String := ["number", "float", "integer", "boolean"]

/-- The value is a float without a fraction, and the type takes numbers only as integers. -/
def WholeOnly (expr : String) (v : Value) : Prop :=
  (∃ x z, v = .float x ∧ x.integer? = some z) ∧ "integer" ∈ branches expr ∧
    "number" ∉ branches expr ∧ "float" ∉ branches expr

variable {w : String}

theorem float?_of_isNumber (h : isNumber w.toList = true) {x : Double}
    (hx : Double.read? w.toList = some x) (hfinite : x.isFinite = true) : float? w = some x := by
  have hne : w.toList.isEmpty = false := by simpa using Lexer.isNumber_ne_nil h
  have halpha : (w.toList.any fun c => c.isAlpha && c != 'e' && c != 'E') = false := by
    rw [List.any_eq_false]
    intro c hc
    simp [Lexer.isAlpha_of_isNumber h c hc]
  simp [float?, Lexer.trim_of_isNumber h, hne, halpha, hx, hfinite]

theorem integer?_of_isNumber (h : isNumber w.toList = true) :
    integer? w = Text.int64? w.toList := by
  rw [integer?, Lexer.trim_of_isNumber h]

/-- No truth value is a number. -/
theorem ne_keyword_of_isNumber (h : isNumber w.toList = true) :
    (w == "true" || w == "false") = false := by
  have htrue : w ≠ "true" := by rintro rfl; exact absurd h (by decide)
  have hfalse : w ≠ "false" := by rintro rfl; exact absurd h (by decide)
  simp [htrue, hfalse]

theorem matchesName_int [Formats] (h : isNumber w.toList = true) {n : Int} (hn : Text.int64? w.toList = some n)
    {name : String} (hname : name ∈ bareTypes) :
    matchesName (.int n) name = matchesName (.string w) name := by
  obtain ⟨x, hx, hfinite⟩ := Double.read?_of_int64? h hn
  have hfloat : true = (float? w).isSome := by rw [float?_of_isNumber h hx hfinite]; rfl
  have hint : true = (integer? w).isSome := by rw [integer?_of_isNumber h, hn]; rfl
  simp only [bareTypes, List.mem_cons, List.not_mem_nil, or_false] at hname
  rcases hname with rfl | rfl | rfl | rfl
  · exact hfloat
  · exact hfloat
  · exact hint
  · exact (ne_keyword_of_isNumber h).symm

theorem matchesName_bool [Formats] (b : Bool) {name : String} (hname : name ∈ bareTypes) :
    matchesName (.bool b) name = matchesName (.string (toString b)) name := by
  have hfloat : false = (float? (toString b)).isSome := by cases b <;> rfl
  have hint : false = (integer? (toString b)).isSome := by cases b <;> rfl
  simp only [bareTypes, List.mem_cons, List.not_mem_nil, or_false] at hname
  rcases hname with rfl | rfl | rfl | rfl
  · exact hfloat
  · exact hfloat
  · exact hint
  · cases b <;> rfl

/-- A float is a number in either spelling, but its text is never an integer. -/
theorem matchesName_float [Formats] (h : isNumber w.toList = true) (hpoint : '.' ∈ w.toList) {x : Double}
    (hx : Double.read? w.toList = some x) (hfinite : x.isFinite = true) {name : String}
    (hname : name ∈ bareTypes) :
    (matchesName (.string w) name = true ↔ name = "number" ∨ name = "float") ∧
      (matchesName (.float x) name = true ↔
        (name = "number" ∨ name = "float") ∨ name = "integer" ∧ ∃ z, x.integer? = some z) := by
  have hfloat : (float? w).isSome = true := by rw [float?_of_isNumber h hx hfinite]; rfl
  have hint : (integer? w).isSome ≠ true := by
    intro hsome
    obtain ⟨n, hn⟩ := Option.isSome_iff_exists.mp hsome
    rw [integer?_of_isNumber h] at hn
    exact absurd (Text.mem_of_int64? hn hpoint) (by decide)
  simp only [bareTypes, List.mem_cons, List.not_mem_nil, or_false] at hname
  rcases hname with rfl | rfl | rfl | rfl
  · exact ⟨iff_of_true hfloat (.inl rfl), iff_of_true rfl (.inl (.inl rfl))⟩
  · exact ⟨iff_of_true hfloat (.inr rfl), iff_of_true rfl (.inl (.inr rfl))⟩
  · refine ⟨iff_of_false hint (by decide), ?_⟩
    change x.integer?.isSome = true ↔ _
    simp [Option.isSome_iff_exists]
  · have hbool : matchesName (.string w) "boolean" ≠ true :=
      ne_true_of_eq_false (ne_keyword_of_isNumber h)
    exact ⟨iff_of_false hbool (by decide), iff_of_false Bool.false_ne_true (by simp)⟩

/-- The literal that a finite number or a truth value is written as, and what is written. -/
theorem literal_cases {kind : TokenKind} {payload : Payload} {pos : Position} {a : AttrValue}
    {v : Value} (hword : classify? w.toList = some (kind, payload))
    (hkind : kind = .number ∨ kind = .bool) (ha : Event.plainValue? ⟨kind, payload, pos⟩ = some a)
    (hv : a.toJson? = some v) (hfinite : v.isNull = false) :
    (∃ n, isNumber w.toList = true ∧ Text.int64? w.toList = some n ∧ v = .int n) ∨
      (∃ x, isNumber w.toList = true ∧ '.' ∈ w.toList ∧ Double.read? w.toList = some x ∧
        x.isFinite = true ∧ v = .float x) ∨
      ∃ b, w = toString b ∧ v = .bool b := by
  rcases Lexer.classify?_split hword with ⟨n, hnumber, hn, hx⟩ | ⟨x, hnumber, hpoint, hx, hsymbol⟩ |
    ⟨b, hb, hx⟩ | hx | hx
  · cases hx
    cases ha
    cases hv
    exact .inl ⟨n, hnumber, hn, rfl⟩
  · cases hsymbol
    cases ha
    cases hv
    unfold Value.ofDouble at hfinite ⊢
    split
    · exact .inr (.inl ⟨x, hnumber, hpoint, hx, ‹_›, rfl⟩)
    · rename_i hinfinite
      rw [if_neg hinfinite] at hfinite
      cases hfinite
  · cases hx
    cases ha
    cases hv
    exact .inr (.inr ⟨b, String.toList_inj.mp hb, rfl⟩)
  · cases hx
    simp at hkind
  · cases hx
    simp at hkind

theorem accepts_iff [Formats] {expr : String} {v : Value} {P : String → Prop}
    (h : ∀ name ∈ branches expr, (matchesName v name = true ↔ P name)) :
    accepts expr v = true ↔ ∃ name ∈ branches expr, P name := by
  rw [accepts, List.any_eq_true]
  exact exists_congr fun name => and_congr_right (h name)

/-- Values that match the same branches are accepted alike. -/
theorem accepts_congr [Formats] {expr : String} {v u : Value}
    (h : ∀ name ∈ branches expr, matchesName v name = matchesName u name) :
    accepts expr v = accepts expr u := by
  rw [Bool.eq_iff_iff, accepts_iff fun name hname => by rw [h name hname], accepts, List.any_eq_true]

/-- A type takes the text of a float when it takes floats, and the float also when it takes
    integers and the float is one. -/
theorem accepts_float_iff [Formats] (h : isNumber w.toList = true) (hpoint : '.' ∈ w.toList) {x : Double}
    (hx : Double.read? w.toList = some x) (hfinite : x.isFinite = true) {expr : String}
    (hexpr : ∀ name ∈ branches expr, name ∈ bareTypes) :
    (accepts expr (.string w) = true ↔ "number" ∈ branches expr ∨ "float" ∈ branches expr) ∧
      (accepts expr (.float x) = true ↔ ("number" ∈ branches expr ∨ "float" ∈ branches expr) ∨
        "integer" ∈ branches expr ∧ ∃ z, x.integer? = some z) := by
  have hmatches := fun name hname => matchesName_float h hpoint hx hfinite (hexpr name hname)
  rw [accepts_iff fun name hname => (hmatches name hname).1,
    accepts_iff fun name hname => (hmatches name hname).2]
  simp only [and_or_left, exists_or, and_left_comm, exists_eq_left, exists_eq_right, and_self]

/-- A number or a truth value is valid with and without quotes alike, unless it is a float that
    is valid only for having no fraction: its text is no integer. -/
theorem accepts_quoted [Formats] {kind : TokenKind} {payload : Payload} {pos : Position} {a : AttrValue}
    {v : Value} (hword : classify? w.toList = some (kind, payload))
    (hkind : kind = .number ∨ kind = .bool) (ha : Event.plainValue? ⟨kind, payload, pos⟩ = some a)
    (hv : a.toJson? = some v) (hfinite : v.isNull = false) {expr : String}
    (hexpr : ∀ name ∈ branches expr, name ∈ bareTypes) :
    (¬ WholeOnly expr v → accepts expr v = accepts expr (.string w)) ∧
      (WholeOnly expr v → accepts expr v = true ∧ accepts expr (.string w) = false) := by
  have hnever : ∀ {u : Value}, (∀ x, u ≠ .float x) → ¬ WholeOnly expr u :=
    fun hu ⟨⟨x, _, hx, _⟩, _⟩ => hu x hx
  rcases literal_cases hword hkind ha hv hfinite with ⟨n, hnumber, hn, rfl⟩ |
    ⟨x, hnumber, hpoint, hx, hx', rfl⟩ | ⟨b, rfl, rfl⟩
  · exact ⟨fun _ => accepts_congr fun name hname => matchesName_int hnumber hn (hexpr name hname),
      fun h => absurd h (hnever nofun)⟩
  · obtain ⟨htext, hfloat⟩ := accepts_float_iff hnumber hpoint hx hx' hexpr
    refine ⟨fun hno => ?_, fun ⟨⟨y, z, hy, hz⟩, hinteger, hnofloat⟩ => ?_⟩
    · rw [Bool.eq_iff_iff, htext, hfloat, or_iff_left_iff_imp]
      rintro ⟨hinteger, z, hz⟩
      by_contra hnofloat
      exact hno ⟨⟨x, z, rfl, hz⟩, hinteger, not_or.mp hnofloat⟩
    · cases hy
      rw [← Bool.not_eq_true, htext, hfloat]
      exact ⟨.inr ⟨hinteger, z, hz⟩, not_or.mpr hnofloat⟩
  · exact ⟨fun _ => accepts_congr fun name hname => matchesName_bool b (hexpr name hname),
      fun h => absurd h (hnever nofun)⟩

/-- Minus two and a half, as an integer or a float. -/
theorem accepts_quoted_fraction :
    classify? "-2.50".toList = some (.number, .float (.finite true 5629499534213120 (-51))) ∧
    (∀ name ∈ branches "integer | float", name ∈ bareTypes) ∧
    ¬ WholeOnly "integer | float" (.float (.finite true 5629499534213120 (-51))) ∧
    accepts "integer | float" (.float (.finite true 5629499534213120 (-51))) =
      accepts "integer | float" (.string "-2.50") := by
  have hword : classify? "-2.50".toList =
      some (.number, .float (.finite true 5629499534213120 (-51))) := by decide +kernel
  have hexpr : ∀ name ∈ branches "integer | float", name ∈ bareTypes := by decide
  have hno : ¬ WholeOnly "integer | float" (.float (.finite true 5629499534213120 (-51))) :=
    fun h => h.2.2.2 (by decide)
  have hplain : Event.plainValue? ⟨.number, .float (.finite true 5629499534213120 (-51)), ⟨1, 1, 0⟩⟩ =
      some (.float (.finite true 5629499534213120 (-51))) := rfl
  exact ⟨hword, hexpr, hno, (accepts_quoted hword (.inl rfl) hplain rfl rfl hexpr).1 hno⟩

/-- Twelve with a fraction of zero is an integer without quotes and none with them. -/
theorem not_accepts_quoted_whole :
    classify? "12.0".toList = some (.number, .float (.finite false 6755399441055744 (-49))) ∧
    accepts "integer" (.float (.finite false 6755399441055744 (-49))) = true ∧
    accepts "integer" (.string "12.0") = false := by
  decide +kernel

end TypeExpr
end BraceTemplate
