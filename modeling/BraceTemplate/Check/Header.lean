import BraceTemplate.Diagnostic
import BraceTemplate.Document.Builder
import BraceTemplate.Registry

/- Header declarations: the content management system and the platforms for which a template
   is written. -/
namespace BraceTemplate

/-- What a template may ask of its content management system. -/
def cmsCapabilities : List String :=
  ["menus", "widgets", "blocks", "views", "regions", "modules", "positions", "shortcodes",
   "taxonomies", "users", "media", "forms", "comments", "search", "i18n", "rest"]

namespace Version

/-- The characters of what follows the three numbers. -/
def isLabelChar (c : Char) : Bool := c.isAlphanum || c = '.' || c = '-'

/-- A label is absent or not empty. -/
def isLabel : Option (List Char) → Bool
  | none => true
  | some label => !label.isEmpty && label.all isLabelChar

/-- What stands before the first separator, and what stands behind it. -/
def cut (separator : Char) (text : List Char) : List Char × Option (List Char) :=
  match Text.splitOnce separator text with
  | some (before, after) => (before, some after)
  | none => (text, none)

def isNumber (text : List Char) : Bool := !text.isEmpty && text.all Text.isDecimalDigit

/-- Three numbers with dots between them. -/
def isCore (text : List Char) : Bool :=
  match Text.splitOn '.' text with
  | [major, minor, patch] => isNumber major && isNumber minor && isNumber patch
  | _ => false

/-- A semantic version: three numbers, then perhaps `-` and a label, then perhaps `+` and a
    label. -/
def isSemantic (version : String) : Bool :=
  let (release, build) := cut '+' version.toList
  let (core, pre) := cut '-' release
  isCore core && isLabel pre && isLabel build

end Version

/-- The words of a message that lists what is expected. -/
def expectedOneOf (names : List String) : String :=
  " (expected one of: " ++ ", ".intercalate names ++ ")"

namespace CmsHeader

def typeFindings (h : CmsHeader) : List Diagnostic :=
  match h.cmsType with
  | none =>
    [(Diagnostic.error .missingHeaderType "CMS declaration is missing its 'type' attribute").withNode
      "header" cmsHeaderName]
  | some cms =>
    if (Cms.ofName? cms).isSome then []
    else
      [(Diagnostic.error .unknownCms
        ("Unknown CMS '" ++ cms ++ "'" ++ expectedOneOf (Cms.all.map Cms.name))).withNode
          "attribute" "type"]

def setFindings (h : CmsHeader) : List Diagnostic :=
  (h.set.filter (!cmsCapabilities.contains ·)).map fun capability =>
    (Diagnostic.error .invalidCmsSet
      ("Unknown CMS capability '" ++ capability ++ "' in 'set'")).withNode "attribute" "set"

/-- The findings about the declaration. -/
def check (h : CmsHeader) : List Diagnostic :=
  (h.typeFindings ++ h.setFindings).map (·.located h.pos)

end CmsHeader

namespace PlatformHeader

def typeFindings (h : PlatformHeader) : List Diagnostic :=
  match h.platformType with
  | none =>
    [(Diagnostic.error .missingHeaderType
      "Platform declaration is missing its 'type' attribute").withNode "header" platformHeaderName]
  | some kind =>
    if (PlatformKind.ofName? kind).isSome then []
    else
      [(Diagnostic.error .unknownPlatformType
        ("Unknown platform type '" ++ kind ++ "'" ++
          expectedOneOf (PlatformKind.all.map PlatformKind.name))).withNode "attribute" "type"]

def targetFindings (r : Registry) (h : PlatformHeader) : List Diagnostic :=
  (h.targets.filter fun target => (r.platform? target).isNone).map fun target =>
    (Diagnostic.error .unknownPlatformTarget
      ("Unknown platform target '" ++ target ++ "'" ++
        expectedOneOf (r.platformList.map (·.id)))).withNode "attribute" "targets"

def versionFindings (h : PlatformHeader) : List Diagnostic :=
  match h.version with
  | none => []
  | some version =>
    if Version.isSemantic version then []
    else
      [(Diagnostic.error .invalidVersion
        ("Version '" ++ version ++ "' is not a semantic version (x.y.z)")).withNode
          "attribute" "version"]

/-- The findings about the declaration, with the platforms of a registry as targets. -/
def check (r : Registry) (h : PlatformHeader) : List Diagnostic :=
  (h.typeFindings ++ h.targetFindings r ++ h.versionFindings).map (·.located h.pos)

end PlatformHeader
end BraceTemplate
