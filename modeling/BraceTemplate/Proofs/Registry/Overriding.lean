import BraceTemplate.Outcome
import BraceTemplate.Proofs.Registry.Merging

/- Later declarations win. Each table of a registry is the table of all entries that its manifests
   declare, in their order (`Registry.table_ofManifests`), so under a name it holds the whole
   declaration of the last manifest that has one, and nothing else (`Registry.LastWins`). A catalog
   puts the manifests of the profile first, then the further sources, then the manifest of the
   system; so that manifest is never overridden, and the further sources override the profile
   (`Catalog.load_lastWins`). -/
namespace BraceTemplate

variable {α : Type}

namespace Registry
variable {declared : Manifest → List (String × α)} {sources sources' : List (String × Manifest)}
  {key : String} {value : α}

/-- No manifest declares the key. -/
def Undeclared (declared : Manifest → List (String × α)) (sources : List (String × Manifest))
    (key : String) : Prop :=
  ∀ source ∈ sources, key ∉ (declared source.2).map (·.1)

/-- The last manifest that declares the key gives it this value. -/
def LastDeclared (declared : Manifest → List (String × α)) (sources : List (String × Manifest))
    (key : String) (value : α) : Prop :=
  ∃ before source after, sources = before ++ source :: after ∧
    Table.Last (declared source.2) key value ∧ Undeclared declared after key

/-- The table holds of each key what the last manifest that declares it says. -/
structure LastWins (declared : Manifest → List (String × α)) (sources : List (String × Manifest))
    (table : List (String × α)) : Prop where
  distinct : Table.Distinct table
  last : ∀ key value, Table.lookup key table = some value ↔ LastDeclared declared sources key value
  undeclared : ∀ key, Table.lookup key table = none ↔ Undeclared declared sources key

theorem lastDeclared_cons {source : String × Manifest} :
    LastDeclared declared (source :: sources) key value ↔
      LastDeclared declared sources key value ∨
        Undeclared declared sources key ∧ Table.Last (declared source.2) key value := by
  constructor
  · rintro ⟨before, s, after, heq, hlast, hafter⟩
    cases before with
    | nil =>
      obtain ⟨rfl, rfl⟩ := List.cons.inj heq
      exact .inr ⟨hafter, hlast⟩
    | cons first before =>
      obtain ⟨rfl, rfl⟩ := List.cons.inj heq
      exact .inl ⟨before, s, after, rfl, hlast, hafter⟩
  · rintro (⟨before, s, after, rfl, hlast, hafter⟩ | ⟨hnone, hlast⟩)
    · exact ⟨source :: before, s, after, rfl, hlast, hafter⟩
    · exact ⟨[], source, sources, rfl, hlast, hnone⟩

/-- Among all entries that manifests declare, a key is missing when no manifest declares it. -/
theorem lookup_declared_eq_none :
    Table.lookup key (sources.flatMap fun s => declared s.2).reverse = none ↔
      Undeclared declared sources key := by
  rw [Table.lookup_eq_none_iff, List.map_reverse, List.mem_reverse, List.map_flatMap, Undeclared]
  simp only [List.mem_flatMap, not_exists, not_and]

/-- From behind, the first of all entries with a key is the one that was declared last. -/
theorem lookup_declared_eq_some :
    Table.lookup key (sources.flatMap fun s => declared s.2).reverse = some value ↔
      LastDeclared declared sources key value := by
  induction sources with
  | nil => simp [Table.lookup, LastDeclared]
  | cons source sources ih =>
    rw [List.flatMap_cons, List.reverse_append, Table.lookup_append, Option.or_eq_some_iff, ih,
      lookup_declared_eq_none, Table.lookup_reverse_eq_some, lastDeclared_cons]

theorem lastWins_ofEntries (declared : Manifest → List (String × α))
    (sources : List (String × Manifest)) :
    LastWins declared sources (Table.ofEntries (sources.flatMap fun s => declared s.2)) where
  distinct := Table.distinct_ofEntries _
  last key value := by rw [Table.lookup_ofEntries, lookup_declared_eq_some]
  undeclared key := by rw [Table.lookup_ofEntries, lookup_declared_eq_none]

/-- Of sources behind others the last ones count. -/
theorem lastDeclared_append : LastDeclared declared (sources ++ sources') key value ↔
    LastDeclared declared sources' key value ∨
      Undeclared declared sources' key ∧ LastDeclared declared sources key value := by
  simp only [← lookup_declared_eq_some, ← lookup_declared_eq_none]
  rw [List.flatMap_append, List.reverse_append, Table.lookup_append, Option.or_eq_some_iff]

theorem lastDeclared_single {source : String × Manifest} :
    LastDeclared declared [source] key value ↔ Table.Last (declared source.2) key value := by
  rw [lastDeclared_cons]
  simp [LastDeclared, Undeclared]

/-! Registries. -/

variable {profile : Profile} {cms : Cms}

/-- A table that merging fills with the entries of a manifest is the table of all entries. -/
theorem table_ofManifests (table : Registry → List (String × α))
    (declared : Manifest → List (String × α)) (hempty : table (empty profile cms) = [])
    (hmerge : ∀ r path m, table (merge r path m) = Table.insertAll (table r) (declared m)) :
    table (ofManifests profile cms sources) =
      Table.ofEntries (sources.flatMap fun s => declared s.2) := by
  have hfold : ∀ r : Registry, table (sources.foldl (fun r s => r.merge s.1 s.2) r) =
      Table.insertAll (table r) (sources.flatMap fun s => declared s.2) := by
    induction sources with
    | nil => exact fun _ => rfl
    | cons source sources ih =>
      intro r
      rw [List.foldl_cons, ih, hmerge, List.flatMap_cons, Table.insertAll_append]
  rw [ofManifests, hfold, hempty]
  rfl

/-- The platforms of a manifest by their ids. -/
def platformsById (m : Manifest) : List (String × Platform) := m.platforms.map fun p => (p.id, p)

/-- The registry is what the manifests make together, the last declaration of each name winning. -/
structure Merges (profile : Profile) (cms : Cms) (sources : List (String × Manifest))
    (r : Registry) : Prop where
  profile : r.profile = profile
  cms : r.cms = cms
  components : LastWins Manifest.components sources r.components
  filters : LastWins Manifest.filters sources r.filters
  platforms : LastWins platformsById sources r.platforms
  namespaces : LastWins Manifest.namespaces sources r.namespaces
  manifests : r.manifests = sources.map fun s => s.2.info s.1
  schemaVersion : r.schemaVersion =
    ((sources.map (·.2.schemaVersion)).find? (!·.isEmpty)).getD ""

/-- What merging does to the parts of a registry that are no tables. -/
theorem foldl_merge (r : Registry) (sources : List (String × Manifest)) :
    let merged := sources.foldl (fun r s => r.merge s.1 s.2) r
    merged.profile = r.profile ∧ merged.cms = r.cms ∧
      merged.manifests = r.manifests ++ sources.map (fun s => s.2.info s.1) ∧
      merged.schemaVersion = if r.schemaVersion.isEmpty then
        ((sources.map (·.2.schemaVersion)).find? (!·.isEmpty)).getD "" else r.schemaVersion := by
  induction sources generalizing r with
  | nil =>
    refine ⟨rfl, rfl, (List.append_nil _).symm, ?_⟩
    by_cases hempty : r.schemaVersion.isEmpty = true
    · rw [if_pos hempty]
      exact String.isEmpty_iff.mp hempty
    · rw [if_neg hempty]
      rfl
  | cons source sources ih =>
    obtain ⟨hprofile, hcms, hmanifests, hversion⟩ := ih (r.merge source.1 source.2)
    refine ⟨hprofile, hcms, ?_, ?_⟩
    · rw [List.foldl_cons, hmanifests, List.map_cons]
      simp [merge]
    · rw [List.foldl_cons, hversion, List.map_cons, List.find?_cons]
      by_cases hempty : r.schemaVersion.isEmpty = true
      · by_cases hfirst : source.2.schemaVersion.isEmpty = true <;> simp [merge, hempty, hfirst]
      · simp [merge, hempty]

theorem merges_ofManifests (profile : Profile) (cms : Cms) (sources : List (String × Manifest)) :
    Merges profile cms sources (ofManifests profile cms sources) := by
  obtain ⟨hprofile, hcms, hmanifests, hversion⟩ := foldl_merge (empty profile cms) sources
  refine ⟨hprofile, hcms, ?_, ?_, ?_, ?_, hmanifests, hversion⟩
  · rw [table_ofManifests components Manifest.components rfl fun _ _ _ => rfl]
    exact lastWins_ofEntries _ _
  · rw [table_ofManifests filters Manifest.filters rfl fun _ _ _ => rfl]
    exact lastWins_ofEntries _ _
  · rw [table_ofManifests platforms platformsById rfl fun _ _ _ => rfl]
    exact lastWins_ofEntries _ _
  · rw [table_ofManifests namespaces Manifest.namespaces rfl fun _ _ _ => rfl]
    exact lastWins_ofEntries _ _

end Registry

open Registry (LastWins LastDeclared Undeclared Merges)

/-! Catalogs. -/

/-- A built-in manifest with its path. -/
def BuiltinManifest.entry (m : BuiltinManifest) : String × Manifest := (m.path, m.manifest)

namespace Catalog

/-- What the text of a source reads as, with the path of the source. -/
def Reads (s : ManifestSource) (entry : String × Manifest) : Prop :=
  entry.1 = s.path ∧ Manifest.read s.path s.text = .ok entry.2

theorem readAll_eq_ok {ss : List ManifestSource} {extra : List (String × Manifest)} :
    readAll ss = .ok extra ↔ List.Forall₂ Reads ss extra := by
  induction ss generalizing extra with
  | nil => simp [readAll, eq_comm]
  | cons s ss ih =>
    rw [readAll, Outcome.bind_eq_ok]
    constructor
    · rintro ⟨m, hm, hrest⟩
      obtain ⟨ms, hms, heq⟩ := Outcome.bind_eq_ok.mp hrest
      cases heq
      exact .cons ⟨rfl, hm⟩ (ih.mp hms)
    · rintro (_ | ⟨⟨hpath, hm⟩, hrest⟩)
      rename_i entry extra
      refine ⟨entry.2, hm, Outcome.bind_eq_ok.mpr ⟨extra, ih.mpr hrest, ?_⟩⟩
      rw [← hpath]
      rfl

/-- Who wins in a loaded registry: the manifest of the system, then the last of the further sources,
    then the last of the profile's manifests. -/
structure Precedence (declared : Manifest → List (String × α)) (profile : Profile) (cms : Cms)
    (extra : List (String × Manifest)) (table : List (String × α)) : Prop where
  system : ∀ key value, Table.Last (declared cms.manifest.manifest) key value →
    Table.lookup key table = some value
  further : ∀ key value, key ∉ (declared cms.manifest.manifest).map (·.1) →
    LastDeclared declared extra key value → Table.lookup key table = some value
  profile : ∀ key value, key ∉ (declared cms.manifest.manifest).map (·.1) →
    Undeclared declared extra key →
    LastDeclared declared (profile.manifests.map BuiltinManifest.entry) key value →
    Table.lookup key table = some value

theorem precedence {declared : Manifest → List (String × α)} {profile : Profile} {cms : Cms}
    {extra : List (String × Manifest)} {table : List (String × α)}
    (h : LastWins declared (profile.manifests.map BuiltinManifest.entry ++ extra ++
      [cms.manifest.entry]) table) : Precedence declared profile cms extra table := by
  have hsystem : ∀ key, key ∉ (declared cms.manifest.manifest).map (·.1) →
      Undeclared declared [cms.manifest.entry] key := by
    intro key hkey source hsource
    rw [List.mem_singleton.mp hsource]
    exact hkey
  constructor
  · intro key value hlast
    apply (h.last key value).mpr
    exact Registry.lastDeclared_append.mpr (.inl (Registry.lastDeclared_single.mpr hlast))
  · intro key value hkey hlast
    apply (h.last key value).mpr
    refine Registry.lastDeclared_append.mpr (.inr ⟨hsystem key hkey, ?_⟩)
    exact Registry.lastDeclared_append.mpr (.inl hlast)
  · intro key value hkey hextra hlast
    apply (h.last key value).mpr
    refine Registry.lastDeclared_append.mpr (.inr ⟨hsystem key hkey, ?_⟩)
    exact Registry.lastDeclared_append.mpr (.inr ⟨hextra, hlast⟩)

/-- A catalog loads exactly when its further sources can be read, and then its manifests are merged
    in the order of their paths. -/
theorem load_eq_ok {c : Catalog} {profile : Profile} {cms : Cms} {r : Registry} :
    c.load profile cms = .ok r ↔ ∃ extra, List.Forall₂ Reads c.extra extra ∧
      r = Registry.ofManifests profile cms (profile.manifests.map BuiltinManifest.entry ++ extra ++
        [cms.manifest.entry]) := by
  rw [load, Outcome.bind_eq_ok]
  simp only [readAll_eq_ok]
  constructor
  · rintro ⟨extra, hreads, heq⟩
    exact ⟨extra, hreads, (Except.ok.inj heq).symm⟩
  · rintro ⟨extra, hreads, rfl⟩
    exact ⟨extra, hreads, rfl⟩

theorem paths_of_reads {ss : List ManifestSource} {extra : List (String × Manifest)}
    (h : List.Forall₂ Reads ss extra) : extra.map (·.1) = ss.map (·.path) := by
  induction h with
  | nil => rfl
  | cons hread _ ih => rw [List.map_cons, List.map_cons, ih, hread.1]

/-- Merging makes of any manifests the tables in which the last declaration of a name wins. A loaded
    catalog merges the manifests of the profile, the further sources and the manifest of the system
    in this order, so the system comes before the further sources and these before the profile. -/
theorem load_lastWins :
    (∀ profile cms sources, Merges profile cms sources (.ofManifests profile cms sources)) ∧
    ∀ (c : Catalog) profile cms r, c.load profile cms = .ok r ↔
      ∃ extra, List.Forall₂ Reads c.extra extra ∧
        r = .ofManifests profile cms (profile.manifests.map BuiltinManifest.entry ++ extra ++
          [cms.manifest.entry]) ∧
        r.manifests.map (·.path) = c.paths profile cms ∧
        Precedence Manifest.components profile cms extra r.components ∧
        Precedence Manifest.filters profile cms extra r.filters ∧
        Precedence Registry.platformsById profile cms extra r.platforms ∧
        Precedence Manifest.namespaces profile cms extra r.namespaces := by
  refine ⟨Registry.merges_ofManifests, fun c profile cms r => ?_⟩
  rw [load_eq_ok]
  constructor
  · rintro ⟨extra, hreads, rfl⟩
    have hmerges := Registry.merges_ofManifests profile cms
      (profile.manifests.map BuiltinManifest.entry ++ extra ++ [cms.manifest.entry])
    refine ⟨extra, hreads, rfl, ?_, precedence hmerges.components, precedence hmerges.filters,
      precedence hmerges.platforms, precedence hmerges.namespaces⟩
    rw [hmerges.manifests, paths, ← paths_of_reads hreads]
    simp only [List.map_append, List.map_map, List.map_cons, List.map_nil]
    rfl
  · rintro ⟨extra, hreads, heq, -⟩
    exact ⟨extra, hreads, heq⟩

/-- The manifest of WordPress gives images another handler than the profile does. -/
example : (Registry.builtin .full .wordpress).handler "ikb_image" = "wp_image" ∧
    (Registry.builtin .full .native).handler "ikb_image" = "ikb_image" := by decide +kernel

end Catalog
end BraceTemplate
