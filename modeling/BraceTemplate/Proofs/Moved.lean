import BraceTemplate.Document.Builder

/- Positions put elsewhere. Tokens, events, nodes and errors carry positions; `moved f` changes
   each of these by `f` and nothing else. -/
namespace BraceTemplate

variable (f : Position → Position)

def Token.moved (t : Token) : Token := { t with pos := f t.pos }

def LexError.moved (e : LexError) : LexError := { e with pos := f e.pos }

def Interpolation.moved (i : Interpolation) : Interpolation := { i with pos := f i.pos }

def AttrValue.moved : AttrValue → AttrValue
  | .interpolation i => .interpolation (i.moved f)
  | v => v

/-- Attributes keep their names and their order. -/
def Tag.movedAttrs (as : List (String × AttrValue)) : List (String × AttrValue) :=
  as.map fun a => (a.1, a.2.moved f)

def Tag.moved (t : Tag) : Tag := { t with attrs := Tag.movedAttrs f t.attrs, pos := f t.pos }

def UnclosedTag.moved (u : UnclosedTag) : UnclosedTag := { u with pos := f u.pos }

def Preamble.moved (p : Preamble) : Preamble where
  cms := p.cms.map fun h => { h with pos := f h.pos }
  platform := p.platform.map fun h => { h with pos := f h.pos }
  unclosed := p.unclosed.map (UnclosedTag.moved f)

mutual
def Node.moved : Node → Node
  | .document p content => .document (p.moved f) (Node.movedAll content)
  | .tag t content => .tag (t.moved f) (Node.movedAll content)
  | .text v p => .text v (f p)
  | .comment v p => .comment v (f p)
  | .interpolation i => .interpolation (i.moved f)

def Node.movedAll : List Node → List Node
  | [] => []
  | n :: rest => Node.moved n :: Node.movedAll rest
end

def Event.moved : Event → Event
  | .text v p => .text v (f p)
  | .comment v p => .comment v (f p)
  | .interpolation i => .interpolation (i.moved f)
  | .selfClosing t => .selfClosing (t.moved f)
  | .opening t => .opening (t.moved f)
  | .closing name p => .closing name (f p)

def ParseError.moved (e : ParseError) : ParseError := { e with pos := f e.pos }

def TemplateError.moved : TemplateError → TemplateError
  | .lexical e => .lexical (e.moved f)
  | .structural e => .structural (e.moved f)

/-- A value and a reason why there is none, each changed in its own way. -/
def Outcome.bimap {α β δ ε : Type} (g : ε → δ) (h : α → β) : Except ε α → Except δ β
  | .ok a => .ok (h a)
  | .error e => .error (g e)

/-! What stays. -/

namespace Token
variable (t : Token)

@[simp] theorem moved_kind : (t.moved f).kind = t.kind := rfl

@[simp] theorem moved_payload : (t.moved f).payload = t.payload := rfl

@[simp] theorem moved_pos : (t.moved f).pos = f t.pos := rfl

@[simp] theorem moved_text : (t.moved f).text = t.text := rfl

end Token

@[simp] theorem Spelling.Operand.ofToken?_moved (t : Token) :
    Spelling.Operand.ofToken? (t.moved f) = Spelling.Operand.ofToken? t := rfl

@[simp] theorem ParseError.unexpected_moved (expected : String) (t : Token) :
    ParseError.unexpected expected (t.moved f) = (ParseError.unexpected expected t).moved f := rfl

theorem Node.movedAll_eq_map (ns : List Node) : Node.movedAll f ns = ns.map (Node.moved f) := by
  induction ns with
  | nil => rfl
  | cons n ns ih => rw [Node.movedAll, ih, List.map_cons]

/-- An attribute is put into a table by its name. -/
theorem Tag.movedAttrs_insert (as : List (String × AttrValue)) (name : String) (v : AttrValue) :
    Tag.movedAttrs f (Table.insert as name v) = Table.insert (Tag.movedAttrs f as) name (v.moved f) := by
  induction as with
  | nil => rfl
  | cons a as ih =>
    obtain ⟨k, w⟩ := a
    rw [Table.insert]
    by_cases hk : k = name
    · simp [hk, Tag.movedAttrs, Table.insert]
    · simp only [Tag.movedAttrs, List.map_cons] at ih ⊢
      rw [if_neg hk, List.map_cons, ih, Table.insert, if_neg hk]

end BraceTemplate
