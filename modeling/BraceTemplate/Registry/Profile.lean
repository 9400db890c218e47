import BraceTemplate.Json.Record

/- What a registry is loaded for: a profile, which names a set of built-in manifests, and a
   content management system, whose manifest is merged last. -/
namespace BraceTemplate

inductive Profile where
  | minimal
  | full
  | headless
  deriving DecidableEq, Repr

inductive Cms where
  | wordpress
  | drupal
  | joomla
  | native
  deriving DecidableEq, Repr

/-- Why no registry can be loaded. -/
inductive RegistryError where
  | unknownProfile (name : String)
  | unknownCms (name : String)
  | invalidManifest (path : String)
  deriving DecidableEq, Repr

namespace RegistryError

def message : RegistryError → String
  | .unknownProfile name =>
    "Unknown profile: " ++ name ++ " (expected one of minimal, full, headless)"
  | .unknownCms name =>
    "Unknown CMS: " ++ name ++ " (expected one of wordpress, drupal, joomla, native)"
  | .invalidManifest path => "Invalid manifest " ++ path

end RegistryError

namespace Profile

def all : List Profile := [.minimal, .full, .headless]

def name : Profile → String
  | .minimal => "minimal"
  | .full => "full"
  | .headless => "headless"

def ofName? (name : String) : Option Profile := all.find? (·.name = name)

def read (name : String) : Except RegistryError Profile :=
  match ofName? name with
  | some p => .ok p
  | none => .error (.unknownProfile name)

def ofTree? : Json.Tree → Option Profile := Json.Tree.word? (all.map fun p => (p.name, p))

end Profile

namespace Cms

def all : List Cms := [.wordpress, .drupal, .joomla, .native]

def name : Cms → String
  | .wordpress => "wordpress"
  | .drupal => "drupal"
  | .joomla => "joomla"
  | .native => "native"

def ofName? (name : String) : Option Cms := all.find? (·.name = name)

def read (name : String) : Except RegistryError Cms :=
  match ofName? name with
  | some c => .ok c
  | none => .error (.unknownCms name)

def ofTree? : Json.Tree → Option Cms := Json.Tree.word? (all.map fun c => (c.name, c))

end Cms
end BraceTemplate
