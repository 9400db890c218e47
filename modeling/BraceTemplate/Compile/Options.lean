import BraceTemplate.Check.Escaping
import BraceTemplate.Json.Writer
import BraceTemplate.Registry.Profile

/- What a compilation is for and how strict it is. Every option has a default, and a record
   of options names only those that exist. -/
namespace BraceTemplate

open Json

structure Options where
  profile : Profile
  cms : Cms
  /-- The target platform; without one nothing is refused because of a platform. -/
  platform : Option String
  mode : SecurityMode
  /-- The paths of further manifests. -/
  manifests : List String
  deriving DecidableEq, Repr

namespace Options

def default : Options := ⟨.full, .native, none, .strict, []⟩

def names : List String := ["profile", "cms", "platform", "mode", "manifests"]

/-- Whether a record has no field beside the declared ones. -/
def hasOnlyNames : Tree → Bool
  | .object fields => fields.all fun f => names.contains f.1
  | _ => true

def ofTree? (t : Tree) : Option Options := do
  if !hasOnlyNames t then none
  else
    match ← t.record? (names.map ([·])) with
    | [profile, cms, platform, mode, manifests] =>
      return {
        profile := ← Tree.orElse Profile.ofTree? default.profile profile
        cms := ← Tree.orElse Cms.ofTree? default.cms cms
        platform := ← Tree.maybe Tree.string? platform
        mode := ← Tree.orElse SecurityMode.ofTree? default.mode mode
        manifests := ← Tree.orElse (Tree.list? Tree.string?) default.manifests manifests }
    | _ => none

def toJson (o : Options) : Value :=
  Value.ofFields
    [("profile", some (.string o.profile.name)), ("cms", some (.string o.cms.name)),
     ("platform", o.platform.map .string), ("mode", some (.string o.mode.name)),
     ("manifests", if o.manifests.isEmpty then none else some (Value.ofStrings o.manifests))]

end Options
end BraceTemplate
