import BraceTemplate.Formats.Standard
import BraceTemplate.Proofs.Checking.Integers
import BraceTemplate.Proofs.Filters.Binding
import BraceTemplate.Proofs.Registry.Merging

/- Shortening texts. The built-in manifests declare `truncate` with a length of type integer and a
   text for the end (`Registry.filter?_truncate`). So a call that refers to no variable and in which
   no error is found gives a length that coercion makes an integer, and an end that is a text or is
   left out (`FilterCall.Shortens`). The filter itself takes its length only from an integer: it
   shortens by a length that is written as one, and leaves the text alone where the length is a text
   or a float that stands for one (`Registry.applyFilter_truncate`). -/
namespace BraceTemplate

open Json

/-- A value of type integer is coerced to an integer. -/
theorem TypeExpr.coerce_integer [Formats] {v : Value} (h : accepts "integer" v = true) :
    ∃ n, coerce "integer" v = .int n := by
  rw [accepts, branches_integer, List.any_cons, List.any_nil, Bool.or_false] at h
  rw [coerce, branches_integer]
  cases v with
  | int n => exact ⟨n, rfl⟩
  | float x =>
    obtain ⟨n, hn⟩ := Option.isSome_iff_exists.mp (show x.integer?.isSome = true from h)
    exact ⟨Text.clampInt64 n, by simp [hasForm, convert?, hn]⟩
  | string text =>
    obtain ⟨n, hn⟩ := Option.isSome_iff_exists.mp (show (integer? text).isSome = true from h)
    exact ⟨n, by simp [hasForm, convert?, hn]⟩
  | null | bool | array | object => cases h

/-! Calls. -/

namespace FilterCall
variable {c : FilterCall} {place : Nat} {name : String} {a : CallArgument}

/-- No argument refers to a variable. -/
def Literal (c : FilterCall) : Prop := ∀ a ∈ c.arguments, a.reference = false

instance (c : FilterCall) : Decidable c.Literal :=
  inferInstanceAs (Decidable (∀ a ∈ c.arguments, a.reference = false))

theorem mem_of_bound? (h : c.bound? place name = some a) : a ∈ c.arguments := by
  rcases Option.or_eq_some_iff.mp h with hnamed | ⟨-, hplaced⟩
  · exact List.mem_of_find?_eq_some hnamed
  · exact (List.mem_filter.mp (List.mem_of_getElem? hplaced)).1

/-- What the call puts behind a shortened text. -/
def ending (c : FilterCall) : String := ((c.bound? 1 "end").map (·.value.display)).getD "..."

/-- The arguments of a call that shortens texts: a length that stands for an integer, and an end
    that is a text. -/
structure Shortens [Formats] (c : FilterCall) (length : Value) (n : Int) : Prop where
  given : (c.bound? 0 "length").map (·.value) = some length
  integer : TypeExpr.coerce "integer" length = .int n
  ending : ∀ a, c.bound? 1 "end" = some a → ∃ text, a.value = .string text

variable [Formats] {length : Value} {n : Int}

theorem Shortens.argument? (h : c.Shortens length n) :
    Filter.argument? c.runtimeArguments 0 "length" = some length := by
  rw [c.argument?_runtimeArguments, h.given]

/-- The filter reads the end that the call gives. -/
theorem Shortens.argumentText (h : c.Shortens length n) :
    Filter.argumentText c.runtimeArguments 1 "end" "..." = c.ending := by
  rw [Filter.argumentText, c.argument?_runtimeArguments, FilterCall.ending]
  cases hend : c.bound? 1 "end" with
  | none => rfl
  | some a =>
    -- a text is not null, for which the filter would take the usual end
    obtain ⟨text, htext⟩ := h.ending a hend
    rw [Option.map_some, htext, Option.map_some, htext]
    rfl

theorem Shortens.shorten (h : c.Shortens (.int n) n) (hn : 0 ≤ n) (s : String) :
    Filter.truncate (.string s) c.runtimeArguments =
      .string (String.ofList (Filter.shorten n.toNat c.ending.toList s.toList)) := by
  obtain ⟨limit, rfl⟩ := Int.eq_ofNat_of_zero_le hn
  rw [Filter.truncate, h.argument?, h.argumentText]
  rfl

/-- A length that is written otherwise, or is negative, counts as absent. -/
theorem Shortens.keep (h : c.Shortens length n) (hlength : length = .int n → n < 0) (s : String) :
    Filter.truncate (.string s) c.runtimeArguments = .string s := by
  rw [Filter.truncate, h.argument?]
  split
  · rename_i limit heq
    cases heq
    have hsame : Int.ofNat limit = n := Value.int.inj h.integer
    exact absurd (hlength (by rw [hsame])) (by rw [← hsame]; exact Int.not_lt.mpr (Int.natCast_nonneg limit))
  · rfl

end FilterCall

/-! The declaration. -/

/-- The parameters of the filter that shortens texts, and what does its work. -/
structure FilterSpec.ShortensTexts (spec : FilterSpec) : Prop where
  params : spec.params = [BuiltinManifests.neededParam "length" "integer",
    BuiltinManifests.presetParam "end" "string" (.string "...")]
  implementation : Builtin.ofName? spec.implementationName = some .truncate

theorem FilterSpec.ShortensTexts.shortens [Formats] {spec : FilterSpec} (hspec : spec.ShortensTexts)
    {platform : Option String} {c : FilterCall} (h : spec.Accepts platform c)
    (hliteral : c.Literal) : ∃ length n, c.Shortens length n := by
  have hlength : spec.params[0]? = some (BuiltinManifests.neededParam "length" "integer") := by
    rw [hspec.params]
    rfl
  have hend : spec.params[1]? = some (BuiltinManifests.presetParam "end" "string" (.string "...")) := by
    rw [hspec.params]
    rfl
  obtain ⟨a, ha⟩ := h.supplied 0 _ hlength rfl
  have hinteger := h.typed 0 _ a hlength ha (hliteral a (FilterCall.mem_of_bound? ha))
  obtain ⟨n, hn⟩ := TypeExpr.coerce_integer hinteger
  refine ⟨a.value, n, congrArg (Option.map (·.value)) ha, hn, fun b hb => ?_⟩
  have htext := h.typed 1 _ b hend hb (hliteral b (FilterCall.mem_of_bound? hb))
  cases hv : b.value with
  | string text => exact ⟨text, rfl⟩
  | _ =>
    rw [hv] at htext
    cases htext

namespace Registry

theorem filter?_truncate (profile : Profile) (cms : Cms) :
    ∃ spec, (builtin profile cms).filter? "truncate" = some spec ∧ spec.ShortensTexts := by
  cases profile <;> cases cms <;> exact ⟨_, rfl, rfl, rfl⟩

variable {r : Registry} {profile : Profile} {cms : Cms} {platform : Option String} {e : Expression}
  {c : FilterCall}

/-- In a registry of the built-in manifests, let a chain without errors hold a call of `truncate`
    without references. The call gives a length, and coercion makes it an integer. When it is
    written as an integer that is not negative, a text of at most that many characters is kept, and
    of a longer one the first characters are kept with the end behind them. Any other length leaves
    every text as it is. -/
theorem applyFilter_truncate [Formats] (hload : Catalog.builtin.load profile cms = .ok r)
    (hclean : Findings.firstError (e.checkCalls r platform) = none) (hc : c ∈ e.calls)
    (hname : c.name = "truncate") (hliteral : c.Literal) :
    ∃ length n, (c.bound? 0 "length").map (·.value) = some length ∧
      TypeExpr.coerce "integer" length = .int n ∧ ∀ s : String,
        (length = .int n → 0 ≤ n →
          (s.toList.length ≤ n → r.applyFilter "truncate" (.string s) c.runtimeArguments = .string s) ∧
          (n < s.toList.length → r.applyFilter "truncate" (.string s) c.runtimeArguments =
            .string (String.ofList (s.toList.take n.toNat) ++ c.ending))) ∧
        ((length = .int n → n < 0) →
          r.applyFilter "truncate" (.string s) c.runtimeArguments = .string s) := by
  rw [load_builtin] at hload
  cases hload
  obtain ⟨spec, hspec, hshortens⟩ := filter?_truncate profile cms
  obtain ⟨spec', hspec', haccepts⟩ :=
    ((FilterCall.check_clean c (builtin profile cms) platform).mp
      (Findings.clean_flatMap.mp (Findings.firstError_eq_none.mp hclean) c hc))
  rw [hname, hspec] at hspec'
  cases hspec'
  obtain ⟨length, n, h⟩ := hshortens.shortens haccepts hliteral
  have happly : ∀ s, (builtin profile cms).applyFilter "truncate" (.string s) c.runtimeArguments =
      Filter.truncate (.string s) c.runtimeArguments := by
    intro s
    simp only [applyFilter, hspec, Option.bind_some, hshortens.implementation]
    rfl
  refine ⟨length, n, h.given, h.integer, fun s => ⟨?_, fun hother => ?_⟩⟩
  · rintro rfl hn
    rw [happly, h.shorten hn, Filter.shorten]
    refine ⟨fun hshort => ?_, fun hlong => ?_⟩
    · rw [if_pos (by omega), String.ofList_toList]
    · rw [if_neg (by omega), String.ofList_append, String.ofList_toList]
  · rw [happly, h.keep hother]

/-- A call that names its end and gives its length behind it. -/
def endFirst : FilterCall :=
  ⟨"truncate", [⟨some "end", .string "!", false⟩, ⟨none, .int 2, false⟩]⟩

theorem applyFilter_truncate_endFirst :
    Catalog.builtin.load .full .native = .ok (builtin .full .native) ∧
    Findings.firstError ((Expression.mk "x" [] none [endFirst]).checkCalls (builtin .full .native)
      (some "web")) = none ∧
    endFirst.name = "truncate" ∧ endFirst.Literal ∧
    (builtin .full .native).applyFilter "truncate" (.string "abc") endFirst.runtimeArguments =
      .string "ab!" := by
  have hload := load_builtin .full .native
  have hclean : Findings.firstError ((Expression.mk "x" [] none [endFirst]).checkCalls
      (builtin .full .native) (some "web")) = none := rfl
  have hliteral : endFirst.Literal := by decide
  refine ⟨hload, hclean, rfl, hliteral, ?_⟩
  obtain ⟨length, n, hgiven, hinteger, htexts⟩ :=
    applyFilter_truncate hload hclean (List.mem_singleton_self endFirst) rfl hliteral
  cases hgiven
  cases hinteger
  exact ((htexts "abc").1 rfl (by decide)).2 (by decide)

/-- A call whose length is a text of digits. -/
def quotedLength : FilterCall := ⟨"truncate", [⟨none, .string "3", false⟩]⟩

/-- No error is found in the call, and its length is coerced to three, but a text of six characters
    is not shortened. -/
theorem not_applyFilter_truncate_quotedLength : ∃ r, Catalog.builtin.load .full .native = .ok r ∧
    Findings.firstError ((Expression.mk "x" [] none [quotedLength]).checkCalls r none) = none ∧
    quotedLength.Literal ∧ (quotedLength.bound? 0 "length").map (·.value) = some (.string "3") ∧
    TypeExpr.coerce "integer" (.string "3") = .int 3 ∧
    r.applyFilter "truncate" (.string "abcdef") quotedLength.runtimeArguments = .string "abcdef" :=
  ⟨_, load_builtin .full .native, rfl, by decide, rfl, rfl, rfl⟩

end Registry
end BraceTemplate
