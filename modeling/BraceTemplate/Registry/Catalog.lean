import BraceTemplate.Registry
import BraceTemplate.Registry.Builtin

/- The catalog: what is merged for a profile and a content management system. The manifests
   of the profile come first, then the further sources in their order, then the manifest of
   the system. -/
namespace BraceTemplate

/-- A manifest text with the path that names it. -/
structure ManifestSource where
  path : String
  text : String
  deriving DecidableEq, Repr

/-- The sources beside the built-in manifests. -/
structure Catalog where
  extra : List ManifestSource
  deriving DecidableEq, Repr

namespace Catalog

def builtin : Catalog := ⟨[]⟩

/-- The paths of all sources in the order of their merging. -/
def paths (c : Catalog) (profile : Profile) (cms : Cms) : List String :=
  profile.manifests.map BuiltinManifest.path ++ c.extra.map (·.path) ++ [cms.manifest.path]

/-- The manifests of sources, unless one of them cannot be read. -/
def readAll : List ManifestSource → Except RegistryError (List (String × Manifest))
  | [] => .ok []
  | s :: rest => do
    let m ← Manifest.read s.path s.text
    let ms ← readAll rest
    return (s.path, m) :: ms

def load (c : Catalog) (profile : Profile) (cms : Cms) : Except RegistryError Registry := do
  let entry (m : BuiltinManifest) : String × Manifest := (m.path, m.manifest)
  let extra ← readAll c.extra
  return Registry.ofManifests profile cms
    (profile.manifests.map entry ++ extra ++ [entry cms.manifest])

end Catalog

/-- The registry of the built-in manifests alone, which cannot fail to load. -/
def Registry.builtin (profile : Profile) (cms : Cms) : Registry :=
  let entry (m : BuiltinManifest) : String × Manifest := (m.path, m.manifest)
  .ofManifests profile cms (profile.manifests.map entry ++ [entry cms.manifest])

end BraceTemplate
