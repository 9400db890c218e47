import BraceTemplate.Proofs.Json.Records
import BraceTemplate.Proofs.Registry.Naming

/- Declarations that are exported and read back. What a reader of schemas, parameters, components or
   filters gives is settled: its values are those of JSON, and a name is declared once
   (`Component.settled_of_ofTree?` and its like). What is settled is read from its own record as it was
   (`Component.Settled.survives`): a field that is not written is one whose default is what it held.
   The names and namespaces that a manifest supplies leave a declaration settled
   (`Manifest.Settled.fill`), so everything that a manifest declares survives
   (`Manifest.declarations_survive`). -/
namespace BraceTemplate

open Json

/-! Schemas. -/

/-- The values of a schema are those of JSON. -/
structure Schema.Settled (s : Schema) : Prop where
  choices : ∀ vs ∈ s.choices, ∀ v ∈ vs, v.Settled
  fallback : ∀ v ∈ s.fallback, v.Given

theorem Schema.settled_of_ofTree? {t : Tree} {s : Schema} (h : ofTree? t = some s) : s.Settled := by
  unfold ofTree? at h
  obtain ⟨fields, -, h⟩ := Option.bind_eq_some_iff.mp h
  split at h
  · simp only [bind, Option.bind_eq_some_iff, pure, Option.some.injEq] at h
    obtain ⟨_, -, _, -, _, -, _, -, choices, hchoices, _, -, fallback, hfallback, _, -, rfl⟩ := h
    exact ⟨Tree.maybe_values?_again hchoices, Tree.maybe_value?_again hfallback⟩
  · cases h

theorem Schema.Settled.survives {s : Schema} (h : s.Settled) : Survives ofTree? toJson s := by
  rw [Survives, ofTree?, toJson, Tree.record?_written (by simp [Tree.Declares])]
  simp only [List.map_cons, List.map_nil, Option.map_some, Option.bind_eq_bind, Option.bind_some,
    Tree.orElse_written (Tree.string_written _), Tree.orElse_written (Tree.bool_written _),
    Tree.maybe_string_written, Tree.maybe_count_written, Tree.maybe_value_written h.fallback,
    Tree.maybe_values_written h.choices]
  rfl

/-- A default that is null would be written, and read as none. -/
example : ¬ Survives Schema.ofTree? Schema.toJson
    { Schema.ofType Schema.anyType with fallback := some .null } := by
  intro h
  exact absurd (congrArg (Option.map (·.fallback.isSome)) h) (by decide +kernel)

/-! Parameters of filters. -/

def Parameter.Settled (p : Parameter) : Prop := ∀ v ∈ p.fallback, v.Given

theorem Parameter.settled_of_ofTree? {t : Tree} {p : Parameter} (h : ofTree? t = some p) :
    p.Settled := by
  unfold ofTree? at h
  obtain ⟨fields, -, h⟩ := Option.bind_eq_some_iff.mp h
  split at h
  · simp only [bind, Option.bind_eq_some_iff, pure, Option.some.injEq] at h
    obtain ⟨_, -, _, -, _, -, fallback, hfallback, _, -, rfl⟩ := h
    exact Tree.maybe_value?_again hfallback
  · cases h

theorem Parameter.Settled.survives {p : Parameter} (h : p.Settled) : Survives ofTree? toJson p := by
  rw [Survives, ofTree?, toJson, Tree.record?_written (by simp [Tree.Declares])]
  simp only [List.map_cons, List.map_nil, Option.map_some, Option.bind_eq_bind, Option.bind_some,
    Tree.needed_written (Tree.string_written _), Tree.orElse_written (Tree.string_written _),
    Tree.orElse_written (Tree.bool_written _), Tree.maybe_string_written,
    Tree.maybe_value_written h]
  rfl

/-! Sets of platforms. -/

theorem PlatformSet.survives (s : PlatformSet) : Survives ofTree? toJson s := by
  cases s with
  | all => rfl
  | only ids => exact congrArg (Option.map only) (Tree.strings_written ids)

/-- In a record all platforms are left out, and so are the platforms of a record without a set. -/
theorem PlatformSet.survives_in_record (s : PlatformSet) :
    Tree.orElse ofTree? .all (s.toJson?.map Tree.ofValue) = some s := by
  cases s with
  | all => rfl
  | only ids => exact survives (.only ids)

/-! Components. -/

def Component.Settled (c : Component) : Prop := ∀ p ∈ c.props, p.2.Settled

theorem Component.settled_of_ofTree? {t : Tree} {c : Component} (h : ofTree? t = some c) :
    c.Settled := by
  unfold ofTree? at h
  obtain ⟨fields, -, h⟩ := Option.bind_eq_some_iff.mp h
  split at h
  · simp only [bind, Option.bind_eq_some_iff, pure, Option.some.injEq] at h
    obtain ⟨props, hprops, _, -, _, -, _, -, _, -, _, -, _, -, _, -, _, -, rfl⟩ := h
    exact fun p hp => (Tree.mem_tableOrNone hprops p hp).elim fun _ => Schema.settled_of_ofTree?
  · cases h

theorem Component.Settled.survives {c : Component} (h : c.Settled) : Survives ofTree? toJson c := by
  have hprops : Tree.tableOrNone Schema.ofTree?
      (some (Tree.ofValue (.object (c.props.map fun p => (p.1, p.2.toJson))))) =
        some ⟨c.props, c.distinct⟩ :=
    Tree.table?_written ⟨c.props, c.distinct⟩ fun p hp => (h p hp).survives
  rw [Survives, ofTree?, toJson, Tree.record?_written (by simp [Tree.Declares])]
  simp only [List.map_cons, List.map_nil, Option.map_some, Option.bind_eq_bind, Option.bind_some,
    Tree.orElse_written (Tree.string_written _), Tree.orElse_written (Tree.bool_written _),
    Tree.orElse_written (Tree.strings_written _), Tree.maybe_string_written, hprops,
    PlatformSet.survives_in_record]
  rfl

/-! Filters. -/

def FilterSpec.Settled (f : FilterSpec) : Prop := ∀ p ∈ f.params, p.Settled

theorem FilterSpec.settled_of_ofTree? {t : Tree} {f : FilterSpec} (h : ofTree? t = some f) :
    f.Settled := by
  unfold ofTree? at h
  obtain ⟨fields, -, h⟩ := Option.bind_eq_some_iff.mp h
  split at h
  · simp only [bind, Option.bind_eq_some_iff, pure, Option.some.injEq] at h
    obtain ⟨_, -, params, hparams, _, -, _, -, _, -, _, -, _, -, rfl⟩ := h
    rcases Tree.orElse_cases hparams with rfl | ⟨t, ht⟩
    · exact List.forall_mem_nil _
    · exact fun p hp => (Tree.mem_list? ht p hp).elim fun _ => Parameter.settled_of_ofTree?
  · cases h

theorem FilterSpec.Settled.survives {f : FilterSpec} (h : f.Settled) : Survives ofTree? toJson f := by
  have hparams : Tree.orElse (Tree.list? Parameter.ofTree?) []
      (some (Tree.ofValue (.array (f.params.map Parameter.toJson)))) = some f.params :=
    Tree.list?_written fun p hp => (h p hp).survives
  rw [Survives, ofTree?, toJson, Tree.record?_written (by simp [Tree.Declares])]
  simp only [List.map_cons, List.map_nil, Option.map_some, Option.bind_eq_bind, Option.bind_some,
    Tree.orElse_written (Tree.string_written _), Tree.orElse_written (Tree.bool_written _),
    Tree.maybe_string_written, hparams, PlatformSet.survives_in_record]
  rfl

/-! Manifests. -/

namespace Manifest

structure Settled (m : Manifest) : Prop where
  components : ∀ e ∈ m.components, e.2.Settled
  filters : ∀ e ∈ m.filters, e.2.Settled

theorem settled_of_ofTree? {t : Tree} {m : Manifest} (h : ofTree? t = some m) : m.Settled := by
  unfold ofTree? at h
  obtain ⟨fields, -, h⟩ := Option.bind_eq_some_iff.mp h
  split at h
  · simp only [bind, Option.bind_eq_some_iff, pure, Option.some.injEq] at h
    obtain ⟨_, -, _, -, _, -, _, -, _, -, components, hcomponents, filters, hfilters, rfl⟩ := h
    constructor
    · exact fun e he => (Tree.mem_tableOrNone hcomponents e he).elim fun _ =>
        Component.settled_of_ofTree?
    · exact fun e he => (Tree.mem_tableOrNone hfilters e he).elim fun _ =>
        FilterSpec.settled_of_ofTree?
  · cases h

/-- Supplying names and namespaces leaves props and parameters as they are. -/
theorem Settled.fill {m : Manifest} (h : m.Settled) : m.fill.Settled := by
  constructor
  · intro e he
    obtain ⟨written, hwritten, rfl⟩ := List.mem_map.mp he
    exact h.components written hwritten
  · intro e he
    obtain ⟨written, hwritten, rfl⟩ := List.mem_map.mp he
    exact h.filters written hwritten

theorem settled_of_read {path text : String} {m : Manifest} (h : read path text = .ok m) :
    m.Settled := by
  obtain ⟨written, hwritten, rfl⟩ := read_eq_ok.mp h
  obtain ⟨t, -, ht⟩ := Option.bind_eq_some_iff.mp hwritten
  exact (settled_of_ofTree? ht).fill

/-- Whatever is read of a declaration is read again from what it is written as, in any of its spellings,
    and so is every declaration of a manifest with what the manifest supplies to it. -/
theorem declarations_survive :
    (∀ t s, Schema.ofTree? t = some s → Survives Schema.ofTree? Schema.toJson s) ∧
    (∀ t p, Parameter.ofTree? t = some p → Survives Parameter.ofTree? Parameter.toJson p) ∧
    (∀ t s, PlatformSet.ofTree? t = some s → Survives PlatformSet.ofTree? PlatformSet.toJson s) ∧
    (∀ t c, Component.ofTree? t = some c → Survives Component.ofTree? Component.toJson c) ∧
    (∀ t f, FilterSpec.ofTree? t = some f → Survives FilterSpec.ofTree? FilterSpec.toJson f) ∧
    ∀ path text m, read path text = .ok m →
      (∀ e ∈ m.components, Survives Component.ofTree? Component.toJson e.2) ∧
      ∀ e ∈ m.filters, Survives FilterSpec.ofTree? FilterSpec.toJson e.2 := by
  refine ⟨fun t s h => (Schema.settled_of_ofTree? h).survives,
    fun t p h => (Parameter.settled_of_ofTree? h).survives, fun t s _ => s.survives,
    fun t c h => (Component.settled_of_ofTree? h).survives,
    fun t f h => (FilterSpec.settled_of_ofTree? h).survives, fun path text m h => ?_⟩
  have hsettled := settled_of_read h
  exact ⟨fun e he => (hsettled.components e he).survives,
    fun e he => (hsettled.filters e he).survives⟩

/-! A card whose schema gives null, whose platform is a word, and which is a leaf by another name. -/

def toneTree : Tree :=
  .object [("enum", .array [.string "b", .null, .string "a"]), ("default", .string "a"),
    ("minLength", .null)]

def cardTree : Tree :=
  .object [("is_leaf", .bool true), ("platforms", .string "web"),
    ("props", .object [("tone", toneTree), ("align", .object [])])]

def lengthTree : Tree := .object [("name", .string "length"), ("default", .int 3)]

def clipTree : Tree := .object [("params", .array [lengthTree]), ("platforms", .string "all")]

/-- A card and a filter in a manifest that supplies their names and a namespace. -/
def cardText : String :=
  "\x7b\"name\": \"a\", \"namespace\": \"ui\", \"components\": \x7b\"card\": " ++
    "\x7b\"platforms\": \"web\", \"props\": \x7b\"tone\": \x7b\"default\": 3\x7d\x7d\x7d\x7d, " ++
    "\"filters\": \x7b\"clip\": \x7b\x7d\x7d\x7d"

theorem declarations_survive_card :
    (∃ s, Schema.ofTree? toneTree = some s ∧ Survives Schema.ofTree? Schema.toJson s) ∧
    (∃ p, Parameter.ofTree? lengthTree = some p ∧
      Survives Parameter.ofTree? Parameter.toJson p) ∧
    (∃ s, PlatformSet.ofTree? (.string "web") = some s ∧
      Survives PlatformSet.ofTree? PlatformSet.toJson s) ∧
    (∃ c, Component.ofTree? cardTree = some c ∧ Survives Component.ofTree? Component.toJson c) ∧
    (∃ f, FilterSpec.ofTree? clipTree = some f ∧
      Survives FilterSpec.ofTree? FilterSpec.toJson f) ∧
    ∃ m, read "a.json" cardText = .ok m ∧
      m.components.map (fun e => (e.2.name, e.2.origin)) = [("card", some "ui")] ∧
      m.filters.map (·.2.name) = ["clip"] ∧
      (∀ e ∈ m.components, Survives Component.ofTree? Component.toJson e.2) ∧
      ∀ e ∈ m.filters, Survives FilterSpec.ofTree? FilterSpec.toJson e.2 := by
  obtain ⟨s, hs⟩ := Option.isSome_iff_exists.mp
    (show (Schema.ofTree? toneTree).isSome = true by decide +kernel)
  obtain ⟨p, hp⟩ := Option.isSome_iff_exists.mp
    (show (Parameter.ofTree? lengthTree).isSome = true by decide +kernel)
  obtain ⟨c, hc⟩ := Option.isSome_iff_exists.mp
    (show (Component.ofTree? cardTree).isSome = true by decide +kernel)
  obtain ⟨f, hf⟩ := Option.isSome_iff_exists.mp
    (show (FilterSpec.ofTree? clipTree).isSome = true by decide +kernel)
  have hanswers : (read "a.json" cardText).toOption.map (fun m =>
      (m.components.map fun e => (e.2.name, e.2.origin), m.filters.map (·.2.name))) =
      some ([("card", some "ui")], ["clip"]) := by decide +kernel
  obtain ⟨m, hm, heq⟩ := Option.map_eq_some_iff.mp hanswers
  obtain ⟨hcomponents, hfilters⟩ := Prod.mk.inj heq
  have hread : read "a.json" cardText = .ok m := by
    cases hread : read "a.json" cardText with
    | error e => rw [hread] at hm; cases hm
    | ok m' => rw [hread] at hm; cases hm; rfl
  obtain ⟨hschema, hparameter, hplatforms, hcomponent, hfilter, hmanifest⟩ := declarations_survive
  exact ⟨⟨s, hs, hschema _ s hs⟩, ⟨p, hp, hparameter _ p hp⟩,
    ⟨.only ["web"], rfl, hplatforms (.string "web") _ rfl⟩, ⟨c, hc, hcomponent _ c hc⟩,
    ⟨f, hf, hfilter _ f hf⟩, m, hread, hcomponents, hfilters, hmanifest _ _ m hread⟩

end Manifest
end BraceTemplate
