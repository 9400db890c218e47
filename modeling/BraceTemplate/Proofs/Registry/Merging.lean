import BraceTemplate.Registry.Catalog
import BraceTemplate.Proofs.Table

/- Merging manifests. A registry has no entries but those of its manifests, as they are declared
   there. So what holds of every declaration of a manifest holds of what a registry finds under a
   name, and the built-in registries are known by the manifests that are always at hand. -/
namespace BraceTemplate
namespace Registry

variable {α : Type} {profile : Profile} {cms : Cms} {sources : List (String × Manifest)}

/-- What holds of the entries of manifests holds of the merged ones, for each table that merging
    fills with the entries of a manifest. -/
theorem forall_entries {P : String × α → Prop} (table : Registry → List (String × α))
    (declared : Manifest → List (String × α)) (hempty : table (empty profile cms) = [])
    (hmerge : ∀ r path m, table (merge r path m) = Table.insertAll (table r) (declared m))
    (h : ∀ source ∈ sources, ∀ e ∈ declared source.2, P e) :
    ∀ e ∈ table (ofManifests profile cms sources), P e := by
  have hfold : ∀ r : Registry, (∀ e ∈ table r, P e) →
      ∀ e ∈ table (sources.foldl (fun r s => r.merge s.1 s.2) r), P e := by
    induction sources with
    | nil => exact fun r hr => hr
    | cons source sources ih =>
      intro r hr
      -- merging keeps the entries that are there and adds those of the manifest
      refine ih (fun s hs => h s (List.mem_cons_of_mem _ hs)) _ fun e he => ?_
      rw [hmerge] at he
      rcases Table.mem_insertAll he with he | he
      · exact hr e he
      · exact h source List.mem_cons_self e he
  refine hfold _ fun e he => ?_
  rw [hempty] at he
  cases he

theorem forall_filters {P : FilterSpec → Prop}
    (h : ∀ source ∈ sources, ∀ e ∈ source.2.filters, P e.2) :
    ∀ e ∈ (ofManifests profile cms sources).filters, P e.2 :=
  forall_entries filters Manifest.filters rfl (fun _ _ _ => rfl) h

/-! The built-in registries. -/

/-- What holds of all built-in manifests holds of the sources of a built-in registry. -/
theorem forall_builtin {P : Manifest → Prop} (h : ∀ m : BuiltinManifest, P m.manifest) :
    ∀ source ∈ profile.manifests.map (fun m => (m.path, m.manifest)) ++
      [(cms.manifest.path, cms.manifest.manifest)], P source.2 := by
  intro source hsource
  rcases List.mem_append.mp hsource with hsource | hsource
  · obtain ⟨m, -, rfl⟩ := List.mem_map.mp hsource
    exact h m
  · rw [List.mem_singleton.mp hsource]
    exact h cms.manifest

/-- Without further sources the built-in manifests are loaded, and nothing can go wrong. -/
theorem load_builtin (profile : Profile) (cms : Cms) :
    Catalog.builtin.load profile cms = .ok (builtin profile cms) := by
  show Except.ok (ofManifests profile cms (_ ++ [] ++ _)) = _
  rw [List.append_nil]
  rfl

end Registry
end BraceTemplate
