import BraceTemplate.Formats.Standard
import BraceTemplate.Proofs.Checking.Codes
import BraceTemplate.Proofs.Registry.Naming

/- What is offered is what is accepted. The components and filters that a registry lists for a
   platform are those that a template for the platform may use: a listing sorts and sifts the
   entries of a table (`Registry.mem_listing`), a check looks one of them up
   (`Tag.checkUse_lacks_iff`, `FilterCall.check_lacks_iff`), and where everything is stored under
   its own name the two decide the same names (`Registry.offers_accepted`). -/
namespace BraceTemplate

/-! Findings that are not reported. -/

namespace Findings

/-- No finding reports one of the codes. -/
def Lacks (codes : List Code) (ds : List Diagnostic) : Prop :=
  ∀ f ∈ ds, ∀ c ∈ codes, f.code ≠ c.name

variable {codes codes' : List Code} {ds ds' : List Diagnostic}

theorem lacks_nil : Lacks codes [] := fun _ hf => absurd hf List.not_mem_nil

theorem lacks_append : Lacks codes (ds ++ ds') ↔ Lacks codes ds ∧ Lacks codes ds' :=
  List.forall_mem_append

theorem lacks_flatMap {α : Type} {xs : List α} {check : α → List Diagnostic} :
    Lacks codes (xs.flatMap check) ↔ ∀ x ∈ xs, Lacks codes (check x) :=
  List.forall_mem_flatMap

theorem lacks_map {g : Diagnostic → Diagnostic} (hg : ∀ f, (g f).code = f.code) :
    Lacks codes (ds.map g) ↔ Lacks codes ds := by
  rw [Lacks, List.forall_mem_map]
  simp only [hg]
  rfl

/-- Findings with other codes. -/
theorem Among.lacks (h : Among codes ds) (hother : ∀ c ∈ codes, ∀ c' ∈ codes', c.name ≠ c'.name) :
    Lacks codes' ds := by
  intro f hf c' hc'
  obtain ⟨c, hc, hreports⟩ := h f hf
  rw [hreports.code]
  exact hother c hc c' hc'

theorem not_lacks_single {f : Diagnostic} {c : Code} (hc : c ∈ codes) (hf : f.code = c.name) :
    ¬ Lacks codes [f] :=
  fun h => h f List.mem_cons_self c hc hf

/-- A finding that is there unless something is allowed. -/
theorem lacks_unless {allowed : Bool} {f : Diagnostic} {c : Code} (hc : c ∈ codes)
    (hf : f.code = c.name) : Lacks codes (if allowed then [] else [f]) ↔ allowed = true := by
  cases allowed with
  | true => exact iff_of_true lacks_nil rfl
  | false => exact iff_of_false (not_lacks_single hc hf) (by decide)

end Findings

open Findings (Lacks)

/-- The codes that say that a component is not there for a template. -/
def absentUseCodes : List Code := [.unknownComponent, .componentPlatformIncompatible]

/-- The codes that say that a filter is not there for a template. -/
def absentCallCodes : List Code := [.unknownFilter, .filterPlatformIncompatible]

theorem Component.checkPlatform_lacks_iff (c : Component) (t : Tag) (platform : String) :
    Lacks absentUseCodes (c.checkPlatform t (some platform)) ↔
      c.platforms.allows platform = true :=
  Findings.lacks_unless (c := .componentPlatformIncompatible) (by decide) rfl

/-- A tag is a use of an available component unless a finding says otherwise. -/
theorem Tag.checkUse_lacks_iff [Formats] (r : Registry) (platform : String) (t : Tag) (content : List Node) :
    Lacks absentUseCodes (t.checkUse r (some platform) content) ↔
      ∃ c, r.component? t.name = some c ∧ c.platforms.allows platform = true := by
  rw [checkUse, Findings.lacks_map (g := (·.located t.pos)) fun _ => rfl]
  cases r.component? t.name with
  | none =>
    exact iff_of_false (Findings.not_lacks_single (c := .unknownComponent) (by decide) rfl) (by simp)
  | some c =>
    -- the other findings about a use have other codes
    have hothers : Lacks absentUseCodes (c.check none t content) :=
      (c.check_general_among t content).lacks (by decide)
    show Lacks absentUseCodes (c.check (some platform) t content) ↔ _
    rw [Component.check_eq, Findings.lacks_append, and_iff_left hothers,
      Findings.lacks_map (g := (·.withNode "tag" t.name)) fun _ => rfl,
      Component.checkPlatform_lacks_iff]
    simp

theorem FilterCall.checkPlatform_lacks_iff (c : FilterCall) (spec : FilterSpec)
    (platform : String) : Lacks absentCallCodes (c.checkPlatform spec (some platform)) ↔
      spec.platforms.allows platform = true :=
  Findings.lacks_unless (c := .filterPlatformIncompatible) (by decide) rfl

/-- A call is one of an available filter unless a finding says otherwise. -/
theorem FilterCall.check_lacks_iff [Formats] (r : Registry) (platform : String) (c : FilterCall) :
    Lacks absentCallCodes (c.check r (some platform)) ↔
      ∃ spec, r.filter? c.name = some spec ∧ spec.platforms.allows platform = true := by
  rw [check]
  cases r.filter? c.name with
  | none =>
    exact iff_of_false (Findings.not_lacks_single (c := .unknownFilter) (by decide) rfl) (by simp)
  | some spec =>
    have hothers : Lacks absentCallCodes (c.checkArguments spec) :=
      (c.checkArguments_among spec).lacks (by decide)
    show Lacks absentCallCodes (c.checkPlatform spec (some platform) ++ _) ↔ _
    rw [Findings.lacks_append, and_iff_left hothers, FilterCall.checkPlatform_lacks_iff]
    simp

/-! Listings. -/

namespace Registry

section
variable {α : Type} {name : α → String} {allowed : α → Bool} {table : List (String × α)}

theorem mem_sortByName {x : α} {xs : List α} : x ∈ sortByName name xs ↔ x ∈ xs :=
  (List.mergeSort_perm xs _).mem_iff

/-- What has different names is sorted strictly. -/
theorem sortByName_increasing {xs : List α} (h : (xs.map name).Nodup) :
    (sortByName name xs).Pairwise (name · < name ·) := by
  have hsorted : (sortByName name xs).Pairwise fun a b => name a ≤ name b := by
    refine (List.pairwise_mergeSort ?_ ?_ xs).imp fun hab => String.not_lt.mp (by simpa using hab)
    · intro a b c hab hbc
      simp only [Bool.not_eq_true', decide_eq_false_iff_not, String.not_lt] at hab hbc ⊢
      exact String.le_trans hab hbc
    · intro a b
      simp only [Bool.or_eq_true, Bool.not_eq_true', decide_eq_false_iff_not, String.not_lt]
      exact String.le_total _ _
  have hdistinct : (sortByName name xs).Pairwise (name · ≠ name ·) := by
    apply List.pairwise_map.mp
    exact ((List.mergeSort_perm xs _).map name).nodup_iff.mpr h
  refine hsorted.imp₂ (fun a b hle hne => ?_) hdistinct
  exact String.not_le.mp fun hge => hne (String.le_antisymm hle hge)

/-- A listing of what a table holds under names of their own. -/
theorem listing_increasing (hdistinct : Table.Distinct table)
    (hnames : ∀ e ∈ table, name e.2 = e.1) (allowed : α → Bool) :
    ((sortByName name (table.map (·.2))).filter allowed).Pairwise (name · < name ·) := by
  have hkeys : (table.map (·.2)).map name = table.map (·.1) := by
    rw [List.map_map]
    exact List.map_congr_left hnames
  refine (sortByName_increasing ?_).filter allowed
  rw [hkeys]
  exact hdistinct

/-- A listing has the names under which something allowed is found. -/
theorem mem_listing (hdistinct : Table.Distinct table) (hnames : ∀ e ∈ table, name e.2 = e.1)
    {key : String} : key ∈ ((sortByName name (table.map (·.2))).filter allowed).map name ↔
      ∃ x, Table.lookup key table = some x ∧ allowed x = true := by
  simp only [List.mem_map, List.mem_filter, mem_sortByName, Table.lookup_eq_some_iff hdistinct]
  constructor
  · rintro ⟨x, ⟨⟨e, he, rfl⟩, hallowed⟩, rfl⟩
    exact ⟨e.2, by rwa [hnames e he], hallowed⟩
  · rintro ⟨x, hx, hallowed⟩
    exact ⟨x, ⟨⟨_, hx, rfl⟩, hallowed⟩, hnames _ hx⟩

end

/-- The listings for a platform are in strict order, and hold exactly the names that are accepted
    there. -/
structure Offers [Formats] (r : Registry) (platform : String) : Prop where
  components : (r.availableComponents (some platform) none).Pairwise (·.name < ·.name)
  filters : (r.availableFilters (some platform)).Pairwise (·.name < ·.name)
  uses : ∀ (t : Tag) content, Lacks absentUseCodes (t.checkUse r (some platform) content) ↔
    ∃ key, r.resolve? t.name = some key ∧
      key ∈ (r.availableComponents (some platform) none).map (·.name)
  calls : ∀ call : FilterCall, Lacks absentCallCodes (call.check r (some platform)) ↔
    call.name ∈ (r.availableFilters (some platform)).map (·.name)
  chains : ∀ e : Expression, Lacks absentCallCodes (e.checkCalls r (some platform)) ↔
    ∀ call ∈ e.calls, call.name ∈ (r.availableFilters (some platform)).map (·.name)

theorem offers_accepted [Formats] (profile : Profile) (cms : Cms) (sources : List (String × Manifest))
    (platform : String) (h : (ofManifests profile cms sources).StoredByName) :
    (ofManifests profile cms sources).Offers platform := by
  have hmerges := merges_ofManifests profile cms sources
  generalize ofManifests profile cms sources = r at h hmerges
  have hlisted : ∀ key, key ∈ (r.availableComponents (some platform) none).map (·.name) ↔
      ∃ c, Table.lookup key r.components = some c ∧ c.platforms.allows platform = true := by
    intro key
    rw [availableComponents, componentList,
      mem_listing hmerges.components.distinct h.components]
    simp [PlatformSet.allowsTarget]
  have hcalls : ∀ call : FilterCall, Lacks absentCallCodes (call.check r (some platform)) ↔
      call.name ∈ (r.availableFilters (some platform)).map (·.name) := by
    intro call
    rw [FilterCall.check_lacks_iff, availableFilters, filterList,
      mem_listing hmerges.filters.distinct h.filters]
    rfl
  refine ⟨?_, ?_, ?_, hcalls, ?_⟩
  · exact listing_increasing hmerges.components.distinct h.components _
  · exact listing_increasing hmerges.filters.distinct h.filters _
  · intro t content
    simp only [Tag.checkUse_lacks_iff, hlisted, component?, Option.bind_eq_some_iff]
    constructor
    · rintro ⟨c, ⟨key, hkey, hc⟩, hallows⟩
      exact ⟨key, hkey, c, hc, hallows⟩
    · rintro ⟨key, hkey, c, hc, hallows⟩
      exact ⟨c, ⟨key, hkey, hc⟩, hallows⟩
  · intro e
    rw [Expression.checkCalls, Findings.lacks_flatMap]
    simp only [hcalls]

/-- The built-in manifests store everything under its own name. -/
theorem offers_accepted_builtin : (builtin .full .native).StoredByName ∧
    (builtin .full .native).Offers "amp" := by
  have hnames := storedByName_builtin .full .native
  exact ⟨hnames, offers_accepted .full .native _ "amp" hnames⟩

end Registry
end BraceTemplate
