import BraceTemplate.Formats.Standard
import BraceTemplate.Proofs.Registry.Merging

/- What escaping filters put out. A text is inert when it has none of the characters that open or
   close a tag or the value of an attribute. The implementations of the filters that the built-in
   manifests hold as escaping make inert texts of the texts of values, but two of them treat texts
   only and hand lists and records on as they are: with these two a value that is no scalar comes
   out as it went in, markup included (`Registry.applyFilter_inert`). -/
namespace BraceTemplate

/-! Inert texts. -/

namespace Text

/-- The characters that open or close a tag or the value of an attribute. -/
def isMarkup (c : Char) : Bool := c = '<' || c = '>' || c = '"' || c = '\''

/-- The text can stand in markup as it is. -/
def Inert (text : List Char) : Prop := ∀ c ∈ text, isMarkup c = false

instance (text : List Char) : Decidable (Inert text) :=
  List.decidableBAll (isMarkup · = false) text

theorem inert_flatMap {α : Type} {write : α → List Char} {xs : List α} (h : ∀ x ∈ xs, Inert (write x)) :
    Inert (xs.flatMap write) :=
  List.forall_mem_flatMap.mpr h

/-- Letters and digits are no markup. -/
theorem isMarkup_of_isAlphanum {c : Char} (h : c.isAlphanum = true) : isMarkup c = false := by
  refine Bool.eq_false_iff.mpr fun hmarkup => ?_
  simp only [isMarkup, Bool.or_eq_true, decide_eq_true_eq] at hmarkup
  rcases hmarkup with ((rfl | rfl) | rfl) | rfl <;> cases h

end Text

open Text (Inert)

/-! Escaping. -/

namespace Filter

theorem escapeChar_inert (c : Char) : Inert (escapeChar c) := by
  unfold escapeChar
  split
  · decide
  · decide
  · decide
  · decide
  · decide
  · rename_i hand hless hgreater hdouble hsingle
    simp only [Inert, Text.isMarkup, List.mem_singleton, forall_eq, Bool.or_eq_false_iff,
      decide_eq_false_iff_not]
    exact ⟨⟨⟨hless, hgreater⟩, hdouble⟩, hsingle⟩

theorem escapeHtml_inert (text : List Char) : Inert (escapeHtml text) :=
  Text.inert_flatMap fun c _ => escapeChar_inert c

theorem escapeAttr_inert (text : List Char) : Inert (escapeAttr text) := by
  refine Text.inert_flatMap fun c hc => ?_
  unfold escapeLineEnd
  split
  · decide
  · decide
  · exact List.forall_mem_singleton.mpr (escapeHtml_inert text c hc)

/-! Words and addresses. -/

theorem slugFrom_inert (state : Option Bool) (text : List Char) : Inert (slugFrom state text) := by
  induction text generalizing state with
  | nil => exact List.forall_mem_nil _
  | cons c rest ih =>
    rw [slugFrom]
    split
    · rename_i hc
      have hone := Text.isMarkup_of_isAlphanum hc
      refine List.forall_mem_append.mpr ⟨?_, ih _⟩
      split
      · exact List.forall_mem_cons.mpr ⟨by decide, List.forall_mem_singleton.mpr hone⟩
      · exact List.forall_mem_singleton.mpr hone
    · exact ih _

theorem slugify_inert (text : List Char) : Inert (slugify text) := slugFrom_inert none _

end Filter

namespace Url

theorem encodeByte_inert {b : Nat} (h : b < 256) : Inert (encodeByte b) := by
  have hdigit : ∀ n < 16, Text.isMarkup (upperHex n) = false := by decide
  simp only [encodeByte, Inert, List.forall_mem_cons]
  exact ⟨by decide, hdigit _ (by omega), hdigit _ (by omega), List.forall_mem_nil _⟩

theorem formEncode_inert (text : List Char) : Inert (formEncode text) := by
  refine Text.inert_flatMap fun c _ => ?_
  split
  · rename_i hplain
    simp only [Bool.or_eq_true, decide_eq_true_eq] at hplain
    refine List.forall_mem_singleton.mpr ?_
    rcases hplain with (((hplain | rfl) | rfl) | rfl) | rfl
    · exact Text.isMarkup_of_isAlphanum hplain
    all_goals decide
  · split
    · decide
    · -- bytes are written with hexadecimal digits
      refine Text.inert_flatMap fun b hb => encodeByte_inert ?_
      obtain ⟨byte, -, rfl⟩ := List.mem_map.mp hb
      exact byte.toNat_lt

end Url

/-! Filters. -/

/-- A list or a record. -/
def Json.Value.isCollection : Json.Value → Bool
  | .array _ => true
  | .object _ => true
  | _ => false

namespace Builtin
variable {f : Builtin} {v : Json.Value}

/-- The implementations of the filters that are held as escaping. -/
def escaping : List Builtin := [.escape, .escHtml, .escAttr, .escUrl, .slugify, .urlEncode]

/-- The filter treats texts only, and the value is none. -/
def HandsOn (f : Builtin) (v : Json.Value) : Prop :=
  (f = .slugify ∨ f = .urlEncode) ∧ v.isCollection = true

theorem apply_of_handsOn [Formats] (h : f.HandsOn v) (args : List FilterArgument) : f.apply v args = v := by
  obtain ⟨hf, hv⟩ := h
  cases v with
  | array items | object fields => rcases hf with rfl | rfl <;> rfl
  | null | bool | int | float | string => cases hv

theorem mapText_inert {write : List Char → List Char} (hwrite : ∀ text, Inert (write text))
    (hv : v.isCollection = false) : Inert (Filter.mapText write v).display.toList := by
  have htext : Filter.mapText write v = .string (String.ofList (write v.display.toList)) := by
    cases v with
    | array | object => cases hv
    | null | bool | int | float | string => rfl
  rw [htext, Json.Value.display, String.toList_ofList]
  exact hwrite _

theorem apply_inert [Formats] (hf : f ∈ escaping) (hv : ¬ f.HandsOn v) (args : List FilterArgument) :
    Inert (f.apply v args).display.toList := by
  have hscalar : f = .slugify ∨ f = .urlEncode → v.isCollection = false := fun h => by
    simpa [HandsOn, h] using hv
  simp only [escaping, List.mem_cons, List.not_mem_nil, or_false] at hf
  rcases hf with rfl | rfl | rfl | rfl | rfl | rfl
  · rw [apply, Json.Value.display, String.toList_ofList]
    exact Filter.escapeHtml_inert _
  · rw [apply, Json.Value.display, String.toList_ofList]
    exact Filter.escapeHtml_inert _
  · rw [apply, Json.Value.display, String.toList_ofList]
    exact Filter.escapeAttr_inert _
  · rw [apply, Json.Value.display, String.toList_ofList]
    exact Filter.escapeHtml_inert _
  · exact mapText_inert Filter.slugify_inert (hscalar (.inl rfl))
  · exact mapText_inert Url.formEncode_inert (hscalar (.inr rfl))

end Builtin

/-! Registries. -/

theorem BuiltinManifest.escaping_filters (m : BuiltinManifest) : ∀ e ∈ m.manifest.filters,
    e.2.escaping = true → ∀ f ∈ Builtin.ofName? e.2.implementationName, f ∈ Builtin.escaping := by
  cases m <;> decide +kernel

namespace Registry
variable {r : Registry} {profile : Profile} {cms : Cms} {name : String} {spec : FilterSpec} {f : Builtin}

/-- What is held as escaping is one of the filters that escape. -/
theorem mem_escaping (hspec : (builtin profile cms).filter? name = some spec)
    (hescaping : spec.escaping = true) (hf : Builtin.ofName? spec.implementationName = some f) :
    f ∈ Builtin.escaping :=
  forall_filters (P := fun spec => spec.escaping = true →
      ∀ f ∈ Builtin.ofName? spec.implementationName, f ∈ Builtin.escaping)
    (forall_builtin (P := fun m => ∀ e ∈ m.filters, e.2.escaping = true →
      ∀ f ∈ Builtin.ofName? e.2.implementationName, f ∈ Builtin.escaping) BuiltinManifest.escaping_filters)
    _ (Table.mem_of_lookup hspec) hescaping f hf

/-- A filter that a registry of the built-in manifests holds as escaping, and that a built-in filter
    implements, puts out an inert text. Only `slugify` and `url_encode` do not for lists and records,
    which they hand on as they are. -/
theorem applyFilter_inert [Formats] (hload : Catalog.builtin.load profile cms = .ok r)
    (hspec : r.filter? name = some spec) (hescaping : spec.escaping = true)
    (hf : Builtin.ofName? spec.implementationName = some f) (v : Json.Value) (args : List FilterArgument) :
    (¬ f.HandsOn v → Inert (r.applyFilter name v args).display.toList) ∧
      (f.HandsOn v → r.applyFilter name v args = v) := by
  rw [load_builtin] at hload
  cases hload
  have happly : (builtin profile cms).applyFilter name v args = f.apply v args := by
    simp only [applyFilter, hspec, Option.bind_some, hf]
  rw [happly]
  exact ⟨fun hv => Builtin.apply_inert (mem_escaping hspec hescaping hf) hv args,
    fun hv => Builtin.apply_of_handsOn hv args⟩

/-- A list that is escaped under a name with an implementation of another name. -/
theorem applyFilter_inert_textarea : Catalog.builtin.load .full .wordpress = .ok (builtin .full .wordpress) ∧
    ∃ spec, (builtin .full .wordpress).filter? "esc_textarea" = some spec ∧ spec.escaping = true ∧
      Builtin.ofName? spec.implementationName = some .escHtml ∧
      (¬ Builtin.escHtml.HandsOn (.array [.string "<b>"]) →
        Inert ((builtin .full .wordpress).applyFilter "esc_textarea" (.array [.string "<b>"]) []).display.toList) ∧
      (Builtin.escHtml.HandsOn (.array [.string "<b>"]) →
        (builtin .full .wordpress).applyFilter "esc_textarea" (.array [.string "<b>"]) [] =
          .array [.string "<b>"]) := by
  have hload := load_builtin .full .wordpress
  exact ⟨hload, _, rfl, rfl, rfl, applyFilter_inert hload rfl rfl rfl _ _⟩

/-- A list of markup comes out of an escaping filter as it is. -/
theorem not_applyFilter_inert_list : ∃ r, Catalog.builtin.load .full .native = .ok r ∧
    r.isEscaping "slugify" = true ∧
    (∃ spec, r.filter? "slugify" = some spec ∧ Builtin.ofName? spec.implementationName = some .slugify) ∧
    ¬ Inert (r.applyFilter "slugify" (.array [.string "<b>"]) []).display.toList := by
  refine ⟨_, load_builtin .full .native, by decide +kernel, ⟨_, rfl, rfl⟩, by decide +kernel⟩

end Registry
end BraceTemplate
