import BraceTemplate.Json.Record

/- Delivery platforms, and the sets of platforms on which a declared thing is available. -/
namespace BraceTemplate

open Json

/-- The broad class of a platform. -/
inductive PlatformKind where
  | web
  | mobile
  | desktop
  deriving DecidableEq, Repr

namespace PlatformKind

def all : List PlatformKind := [.web, .mobile, .desktop]

def name : PlatformKind → String
  | .web => "web"
  | .mobile => "mobile"
  | .desktop => "desktop"

def ofName? (name : String) : Option PlatformKind := all.find? (·.name = name)

/-- The kind of a name, or the message that there is none. -/
def read (name : String) : Except String PlatformKind :=
  match ofName? name with
  | some kind => .ok kind
  | none => .error ("unknown platform category: " ++ name)

end PlatformKind

structure Platform where
  id : String
  kind : PlatformKind
  deriving DecidableEq, Repr

namespace Platform

def ofTree? (t : Tree) : Option Platform := do
  match ← t.record? [["id"], ["category"]] with
  | [id, kind] =>
    return {
      id := ← Tree.needed Tree.string? id
      kind := ← Tree.needed (Tree.word? (PlatformKind.all.map fun k => (k.name, k))) kind }
  | _ => none

def toJson (p : Platform) : Value :=
  .object [("id", .string p.id), ("category", .string p.kind.name)]

end Platform

/-- All platforms, or the listed ones. -/
inductive PlatformSet where
  | all
  | only (ids : List String)
  deriving DecidableEq, Repr, Inhabited

namespace PlatformSet

def allows (platform : String) : PlatformSet → Bool
  | .all => true
  | .only ids => ids.contains platform

/-- Without a target platform everything is available. -/
def allowsTarget (target : Option String) (s : PlatformSet) : Bool :=
  match target with
  | none => true
  | some p => s.allows p

/-- A single word is a set of its own, unless it says that all platforms are meant. -/
def ofTree? : Tree → Option PlatformSet
  | .string id => some (if id = "all" then .all else .only [id])
  | t => (Tree.list? Tree.string? t).map .only

def toJson : PlatformSet → Value
  | .all => .string "all"
  | .only ids => Value.ofStrings ids

/-- The spelling in a record, where all platforms go without saying. -/
def toJson? : PlatformSet → Option Value
  | .all => none
  | .only ids => some (Value.ofStrings ids)

end PlatformSet
end BraceTemplate
