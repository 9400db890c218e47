import BraceTemplate.Document

/- Documents as data. A node names its kind in the field `type`; parts that are absent or
   empty are left out of the root. -/
namespace BraceTemplate

open Json

def Position.toJson (p : Position) : Value :=
  .object [("line", .int p.line), ("column", .int p.column), ("offset", .int p.offset)]

def Interpolation.toJson (i : Interpolation) : Value :=
  .object [("raw", .string i.raw), ("loc", i.pos.toJson)]

/-- An attribute is its plain value, an interpolation its spelling and position. -/
def AttrValue.toJson (v : AttrValue) : Value :=
  match v with
  | .interpolation i => i.toJson
  | other => Value.ofOption other.toJson?

def CmsHeader.toJson (h : CmsHeader) : Value :=
  .object [("type", Value.ofOption (h.cmsType.map .string)), ("set", Value.ofStrings h.set),
    ("loc", h.pos.toJson)]

def PlatformHeader.toJson (h : PlatformHeader) : Value :=
  .object [("type", Value.ofOption (h.platformType.map .string)),
    ("targets", Value.ofStrings h.targets),
    ("version", Value.ofOption (h.version.map .string)), ("loc", h.pos.toJson)]

def UnclosedTag.toJson (u : UnclosedTag) : Value :=
  .object [("name", .string u.name), ("loc", u.pos.toJson)]

/-- The fields of a root whose content is given. -/
def Preamble.fields (p : Preamble) (children : Value) : List (String × Value) :=
  [("children", children)] ++
    (p.cms.map fun h => ("cms_header", h.toJson)).toList ++
    (p.platform.map fun h => ("platform_header", h.toJson)).toList ++
    (if p.unclosed.isEmpty then []
      else [("unclosed", .array (p.unclosed.map UnclosedTag.toJson))])

namespace Node

mutual
def toJson : Node → Value
  | .document p cs => .object (("type", .string "document") :: p.fields (.array (listJson cs)))
  | .tag t cs =>
    .object [("type", .string "tag"), ("name", .string t.name),
      ("attrs", .object (t.attrs.map fun a => (a.1, a.2.toJson))),
      ("children", .array (listJson cs)), ("self_closing", .bool t.selfClosing),
      ("loc", t.pos.toJson)]
  | .text v p => .object [("type", .string "text"), ("value", .string v), ("loc", p.toJson)]
  | .comment v p => .object [("type", .string "comment"), ("value", .string v), ("loc", p.toJson)]
  | .interpolation i =>
    .object [("type", .string "expression"), ("raw", .string i.raw), ("loc", i.pos.toJson)]

def listJson : List Node → List Value
  | [] => []
  | n :: rest => toJson n :: listJson rest
end

end Node

def Document.toJson (d : Document) : Value :=
  .object (d.preamble.fields (.array (Node.listJson d.children)))

end BraceTemplate
