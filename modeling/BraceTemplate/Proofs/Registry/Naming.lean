import BraceTemplate.Proofs.Registry.Overriding

/- Names and keys. A manifest stores its components and filters under keys, and a declaration is
   called by its key unless it gives a name of its own (`Manifest.storedByName_read`). Lookup goes
   by keys (`Registry.component?_eq_lookup`), the handlers go by names (`Registry.handler_eq_called`).
   The two agree about a tag when the components that are called by its key are those that are
   stored under it (`Registry.handler_agrees`), and so about all tags where every component is
   stored under its own name. -/
namespace BraceTemplate

/-- Components and filters are stored under their own names. -/
structure Manifest.StoredByName (m : Manifest) : Prop where
  components : ∀ e ∈ m.components, e.2.name = e.1
  filters : ∀ e ∈ m.filters, e.2.name = e.1

/-- Components and filters are stored under their own names. -/
structure Registry.StoredByName (r : Registry) : Prop where
  components : ∀ e ∈ r.components, e.2.name = e.1
  filters : ∀ e ∈ r.filters, e.2.name = e.1

namespace Manifest

/-- No declaration gives a name other than its key. -/
structure NamesNone (m : Manifest) : Prop where
  components : ∀ e ∈ m.components, e.2.name = "" ∨ e.2.name = e.1
  filters : ∀ e ∈ m.filters, e.2.name = "" ∨ e.2.name = e.1

/-- The name that a declaration gets when none is given. -/
theorem filledName {name key : String} (h : name = "" ∨ name = key) :
    (if name.isEmpty then key else name) = key := by
  split
  · rfl
  · rename_i hempty
    exact h.resolve_left fun heq => hempty (String.isEmpty_iff.mpr heq)

theorem storedByName_fill {m : Manifest} (h : m.NamesNone) : m.fill.StoredByName := by
  constructor
  · intro e he
    obtain ⟨written, hwritten, rfl⟩ := List.mem_map.mp he
    exact filledName (h.components written hwritten)
  · intro e he
    obtain ⟨written, hwritten, rfl⟩ := List.mem_map.mp he
    exact filledName (h.filters written hwritten)

/-- Reading a text supplies what its declarations leave out. -/
theorem read_eq_ok {path text : String} {m : Manifest} : read path text = .ok m ↔
    ∃ written, (Json.Tree.read? text).bind ofTree? = some written ∧ m = written.fill := by
  rw [read]
  cases (Json.Tree.read? text).bind ofTree? with
  | none => simp
  | some written => simp [eq_comm]

/-- A manifest whose text gives no names stores everything under its own name. -/
theorem storedByName_read {path text : String} {m : Manifest} (h : read path text = .ok m)
    (hnames : ∀ written, (Json.Tree.read? text).bind ofTree? = some written → written.NamesNone) :
    m.StoredByName := by
  obtain ⟨written, hwritten, rfl⟩ := read_eq_ok.mp h
  exact storedByName_fill (hnames written hwritten)

end Manifest

/-- The built-in declarations have their own names as keys. -/
theorem BuiltinManifests.storedByName_declare (name origin nsPrefix : String)
    (platforms : List Platform) (components : List Component) (filters : List FilterSpec) :
    (declare name origin nsPrefix platforms components filters).StoredByName := by
  apply Manifest.storedByName_fill
  constructor
  · intro e he
    obtain ⟨c, -, rfl⟩ := List.mem_map.mp he
    exact .inr rfl
  · intro e he
    obtain ⟨f, -, rfl⟩ := List.mem_map.mp he
    exact .inr rfl

/-- A tag has the handler of the last component with its name. -/
theorem Dispatch.handler_ofComponents (cs : List Component) (tag : String) :
    (ofComponents cs).handler tag =
      ((cs.reverse.find? (·.name = tag)).map Component.handlerName).getD fallback := by
  rw [handler, ofComponents, Table.lookup_ofEntries, Table.lookup, ← List.map_reverse,
    List.find?_map, Option.map_map]
  rfl

namespace Registry

variable {profile : Profile} {cms : Cms} {sources : List (String × Manifest)}

theorem storedByName_ofManifests (h : ∀ s ∈ sources, s.2.StoredByName) :
    (ofManifests profile cms sources).StoredByName where
  components := forall_entries components Manifest.components rfl (fun _ _ _ => rfl)
    fun s hs => (h s hs).components
  filters := forall_entries filters Manifest.filters rfl (fun _ _ _ => rfl)
    fun s hs => (h s hs).filters

theorem storedByName_builtin (profile : Profile) (cms : Cms) :
    (builtin profile cms).StoredByName := by
  refine storedByName_ofManifests (forall_builtin fun m => ?_)
  cases m <;> exact BuiltinManifests.storedByName_declare _ _ _ _ _ _

/-! Lookup. -/

variable {r : Registry} {name : String}

/-- A name that stands for no key is not one itself. -/
theorem lookup_of_not_resolve? (h : r.resolve? name = none) :
    Table.lookup name r.components = none := by
  unfold resolve? at h
  split at h
  · cases h
  · rename_i hmissing
    exact Option.not_isSome_iff_eq_none.mp hmissing

/-- The key that a tag stands for, or the tag itself when it stands for none. -/
def keyOf (r : Registry) (tag : String) : String := (r.resolve? tag).getD tag

/-- A component is found under the key that a tag stands for. -/
theorem component?_eq_lookup (r : Registry) (tag : String) :
    r.component? tag = Table.lookup (r.keyOf tag) r.components := by
  rw [component?, keyOf]
  cases hkey : r.resolve? tag with
  | none => exact (lookup_of_not_resolve? hkey).symm
  | some key => rfl

/-! Handlers. -/

/-- The last component that is called so. -/
def called? (r : Registry) (name : String) : Option Component :=
  (r.components.map (·.2)).reverse.find? (·.name = name)

/-- A tag has the handler of the last component that is called by its key. -/
theorem handler_eq_called (r : Registry) (tag : String) : r.handler tag =
    ((r.called? (r.keyOf tag)).map Component.handlerName).getD Dispatch.fallback :=
  Dispatch.handler_ofComponents _ _

/-- The components that are called so are those that are stored under this key. -/
def CalledByKey (r : Registry) (name : String) : Prop :=
  ∀ e ∈ r.components, e.2.name = name ↔ e.1 = name

theorem StoredByName.calledByKey (h : r.StoredByName) (name : String) : r.CalledByKey name := by
  intro e he
  rw [h.components e he]

theorem called?_eq_lookup (hdistinct : Table.Distinct r.components) (h : r.CalledByKey name) :
    r.called? name = Table.lookup name r.components := by
  rw [called?]
  cases hfound : Table.lookup name r.components with
  | none =>
    -- a component of this name would be stored under it
    refine List.find?_eq_none.mpr fun c hc hname => ?_
    obtain ⟨e, he, rfl⟩ := List.mem_map.mp (List.mem_reverse.mp hc)
    refine Table.not_mem_of_lookup hfound (List.mem_map.mpr ⟨e, he, ?_⟩)
    exact (h e he).mp (of_decide_eq_true hname)
  | some c =>
    have hc : (name, c) ∈ r.components := Table.mem_of_lookup hfound
    cases hlast : (r.components.map (·.2)).reverse.find? (·.name = name) with
    | none =>
      -- the component that is stored there has this name
      have hmem : c ∈ (r.components.map (·.2)).reverse :=
        List.mem_reverse.mpr (List.mem_map.mpr ⟨_, hc, rfl⟩)
      exact absurd (decide_eq_true ((h _ hc).mpr rfl)) (List.find?_eq_none.mp hlast c hmem)
    | some c' =>
      -- and any other of this name would be stored there too
      obtain ⟨e, he, rfl⟩ :=
        List.mem_map.mp (List.mem_reverse.mp (List.mem_of_find?_eq_some hlast))
      have hkey : e.1 = name := (h e he).mp (of_decide_eq_true (List.find?_some hlast :))
      rw [← hfound, ← hkey]
      exact ((Table.lookup_eq_some_iff hdistinct).mpr he).symm

/-- A tag has the handler that its component names, or the name of the component when it names
    none; without a component the tag has the fallback. -/
structure HandlerAgrees (r : Registry) (tag : String) : Prop where
  found : ∀ c, r.component? tag = some c → r.handler tag = c.handler.getD c.name
  missing : r.component? tag = none → r.handler tag = Dispatch.fallback

/-- The handlers agree with the lookup about every tag whose key calls the components that are
    stored under it. -/
theorem handler_agrees (profile : Profile) (cms : Cms) (sources : List (String × Manifest))
    (tag : String) (h : (ofManifests profile cms sources).CalledByKey
      ((ofManifests profile cms sources).keyOf tag)) :
    HandlerAgrees (ofManifests profile cms sources) tag := by
  have hdistinct := (merges_ofManifests profile cms sources).components.distinct
  have hhandler := handler_eq_called (ofManifests profile cms sources) tag
  rw [called?_eq_lookup hdistinct h, ← component?_eq_lookup] at hhandler
  constructor
  · intro c hc
    rw [hhandler, hc]
    rfl
  · intro hnone
    rw [hhandler, hnone]
    rfl

/-- So it is with the handler that WordPress names for images. -/
theorem handler_agrees_image :
    (builtin .full .wordpress).CalledByKey ((builtin .full .wordpress).keyOf "media:image") ∧
      (builtin .full .wordpress).handler "media:image" = "wp_image" ∧
      HandlerAgrees (builtin .full .wordpress) "media:image" := by
  have hcalled : (builtin .full .wordpress).CalledByKey
      ((builtin .full .wordpress).keyOf "media:image") :=
    (storedByName_builtin .full .wordpress).calledByKey _
  exact ⟨hcalled, by decide +kernel, handler_agrees .full .wordpress _ "media:image" hcalled⟩

/-- A component that is called otherwise than its key. -/
def tileText : String :=
  "\x7b\"name\": \"a\", \"components\": \x7b\"card\": " ++
    "\x7b\"name\": \"tile\", \"handler\": \"h\"\x7d\x7d\x7d"

/-- Such a component is found under its key, which then has the fallback, and its handler is
    found under its name, where there is no component. -/
theorem not_handler_agrees_tile : ∃ m, Manifest.read "a.json" tileText = .ok m ∧
    (∃ c, (ofManifests .full .native [("a.json", m)]).component? "card" = some c ∧
      c.handler = some "h") ∧
    (ofManifests .full .native [("a.json", m)]).handler "card" = "container" ∧
    (ofManifests .full .native [("a.json", m)]).component? "tile" = none ∧
    (ofManifests .full .native [("a.json", m)]).handler "tile" = "h" := by
  have hanswers : (Manifest.read "a.json" tileText).toOption.map (fun m =>
      let r := ofManifests .full .native [("a.json", m)]
      ((r.component? "card").map (·.handler), r.handler "card", (r.component? "tile").isNone,
        r.handler "tile")) = some (some (some "h"), "container", true, "h") := by decide +kernel
  obtain ⟨m, hm, heq⟩ := Option.map_eq_some_iff.mp hanswers
  simp only [Prod.mk.injEq, Option.map_eq_some_iff, Option.isNone_iff_eq_none] at heq
  cases hread : Manifest.read "a.json" tileText with
  | error e => rw [hread] at hm; cases hm
  | ok m' =>
    rw [hread] at hm
    cases hm
    exact ⟨m, rfl, heq⟩

end Registry
end BraceTemplate
