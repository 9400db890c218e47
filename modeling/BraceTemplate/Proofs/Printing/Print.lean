import BraceTemplate.Check.Names
import BraceTemplate.Document.Builder
import BraceTemplate.Proofs.Printing.Path

/- Printing template trees. `Node.print` writes a node as a template: texts as they are,
   comments and interpolations between their braces, a tag with its attributes, its content
   and its closing tag. `Node.Printable` describes the trees that a template can say: no
   brace in a text, no two texts side by side, names that are words, interpolations in their
   canonical spelling. `Node.unplaced` forgets positions, which printing cannot keep. -/
namespace BraceTemplate

namespace Lexer

/-- The words that are read as values. -/
def keywords : List String := ["true", "false", "null"]

end Lexer

open Lexer (keywords)

/-! Printing. -/

namespace Print

def attrValue : AttrValue → List Char
  | .str s => Json.Writer.quoted s
  | .int n => (toString n).toList
  | .float x => x.fractionText.toList
  | .bool b => (toString b).toList
  | .null => ['n', 'u', 'l', 'l']
  | .interpolation i => '\x7b' :: (i.raw.toList ++ ['\x7d'])

/-- An attribute behind a blank. -/
def attr (a : String × AttrValue) : List Char :=
  ' ' :: (a.1.toList ++ '=' :: attrValue a.2)

/-- The end of a tag; one that closes itself has a slash. -/
def tagEnd (self : Bool) : List Char := if self then [' ', '/', '\x7d'] else ['\x7d']

/-- A tag without its content. -/
def opening (t : Tag) : List Char :=
  '\x7b' :: (t.name.toList ++ (t.attrs.flatMap attr ++ tagEnd t.selfClosing))

def closing (name : String) : List Char := '\x7b' :: '/' :: (name.toList ++ ['\x7d'])

end Print

namespace Node

mutual
def print : Node → List Char
  | .document _ content => printAll content
  | .tag t content =>
    Print.opening t ++ (if t.selfClosing then [] else printAll content ++ Print.closing t.name)
  | .text v _ => v.toList
  | .comment v _ => Lexer.commentOpen ++ (v.toList ++ ['-', '-', '\x7d'])
  | .interpolation i => '\x7b' :: (i.raw.toList ++ ['\x7d'])

/-- Nodes one after the other. -/
def printAll : List Node → List Char
  | [] => []
  | n :: rest => print n ++ printAll rest
end

end Node

/-! What can be printed. -/

namespace Spelling

/-- Texts, integers of 64 bits, truth values and null. -/
def IsLiteral : Payload → Prop
  | .int n => Text.isInt64 n = true
  | .float _ => False
  | _ => True

/-- A head is a path or a literal. A keyword is the literal that it spells. -/
def Operand.IsHead : Operand → Prop
  | .word w => w ∉ keywords ∧ ∃ path, Path.WellFormed Name.isWord path ∧ w.toList = Path.print path
  | .literal p => IsLiteral p

/-- The value of an argument is a name or a literal. -/
def Operand.IsArgument : Operand → Prop
  | .word w => w ∉ keywords ∧ Name.isWord w.toList = true
  | .literal p => IsLiteral p

/-- The canonical form, for the names that filters and arguments may have. -/
structure Canonical (isName : String → Prop) (s : Spelling) : Prop where
  head : s.head.IsHead
  filters : ∀ c ∈ s.calls, isName c.filter
  names : ∀ c ∈ s.calls, ∀ a ∈ c.arguments, ∀ n ∈ a.name, isName n
  values : ∀ c ∈ s.calls, ∀ a ∈ c.arguments, a.value.IsArgument

/-- A brace group with this content is no tag: its head is no mere word, or a filter follows. -/
def StandsAlone (s : Spelling) : Prop :=
  match s.head with
  | .word w => Event.isPath w = true ∨ s.calls ≠ []
  | .literal _ => True

end Spelling

variable (isName : String → Prop)

def AttrValue.Printable : AttrValue → Prop
  | .int n => Text.isInt64 n = true
  | .float _ => False
  | .interpolation i => ∃ s : Spelling, s.Canonical isName ∧ i.raw = s.text
  | _ => True

/-- A word, or two with a colon between them, that is no value. -/
def Name.IsFree (name : String) : Prop := Name.isTag name = true ∧ name ∉ keywords

instance (name : String) : Decidable (Name.IsFree name) := inferInstanceAs (Decidable (_ ∧ _))

structure Tag.Printable (t : Tag) : Prop where
  name : Name.IsFree t.name
  notHeader : Builder.isHeader t.name = false
  attrNames : ∀ a ∈ t.attrs, Name.IsFree a.1
  distinct : (t.attrs.map (·.1)).Nodup
  values : ∀ a ∈ t.attrs, a.2.Printable isName

namespace Node

def isText : Node → Bool
  | .text _ _ => true
  | _ => false

mutual
/-- A node that a template can say. -/
def Printable : Node → Prop
  | .document _ _ => False
  | .tag t content =>
    t.Printable isName ∧ (t.selfClosing = true → content = []) ∧ PrintableAll content
  | .text v _ => v ≠ "" ∧ '\x7b' ∉ v.toList
  | .comment v _ => ¬ ['-', '-', '\x7d'] <:+: v.toList
  | .interpolation i => ∃ s : Spelling, s.Canonical isName ∧ s.StandsAlone ∧ i.raw = s.text

/-- Siblings of which no two texts stand side by side. -/
def PrintableAll : List Node → Prop
  | [] => True
  | n :: rest =>
    n.Printable ∧ (n.isText = true → ∀ m ∈ rest.head?, m.isText = false) ∧ PrintableAll rest
end

mutual
/-- How many tags that do not close themselves are open at once. -/
def openDepth : Node → Nat
  | .document _ content => openDepthAll content
  | .tag t content => openDepthAll content + (if t.selfClosing then 0 else 1)
  | .text _ _ => 0
  | .comment _ _ => 0
  | .interpolation _ => 0

def openDepthAll : List Node → Nat
  | [] => 0
  | n :: rest => max (openDepth n) (openDepthAll rest)
end

end Node

/-! Forgetting positions. -/

def Interpolation.unplaced (i : Interpolation) : Interpolation := ⟨i.raw, Position.start⟩

def AttrValue.unplaced : AttrValue → AttrValue
  | .interpolation i => .interpolation i.unplaced
  | v => v

def Tag.unplaced (t : Tag) : Tag :=
  ⟨t.name, t.attrs.map fun a => (a.1, a.2.unplaced), t.selfClosing, Position.start⟩

namespace Node

mutual
/-- The node as if all of it stood at the start of the text. -/
def unplaced : Node → Node
  | .document p content => .document p (unplacedAll content)
  | .tag t content => .tag t.unplaced (unplacedAll content)
  | .text v _ => .text v Position.start
  | .comment v _ => .comment v Position.start
  | .interpolation i => .interpolation i.unplaced

def unplacedAll : List Node → List Node
  | [] => []
  | n :: rest => unplaced n :: unplacedAll rest
end

end Node
end BraceTemplate
