import BraceTemplate.Registry.Catalog

/- A store publishes one registry at a time. Loading another leaves the published one as it
   is when it fails, and registries that were handed out never change. -/
namespace BraceTemplate

structure Store where
  catalog : Catalog
  current : Registry
  deriving Repr

namespace Store

def load (c : Catalog) (profile : Profile) (cms : Cms) : Except RegistryError Store :=
  (c.load profile cms).map fun r => ⟨c, r⟩

/-- A store of a registry from elsewhere, which reloads from the built-in manifests. -/
def ofRegistry (r : Registry) : Store := ⟨Catalog.builtin, r⟩

/-- Loads and publishes a registry; the answer is the registry or why there is none. -/
def reload (s : Store) (profile : Profile) (cms : Cms) : Except RegistryError Registry × Store :=
  match s.catalog.load profile cms with
  | .ok r => (.ok r, { s with current := r })
  | .error e => (.error e, s)

/-- Publishes a registry; the answer is the one before it. -/
def replace (s : Store) (r : Registry) : Registry × Store := (s.current, { s with current := r })

end Store
end BraceTemplate
