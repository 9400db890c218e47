import BraceTemplate.Expression.Path

/- Printing variable paths. Names stand between points, the point behind a safe segment has a
   question mark, and brackets hold an index or a quoted key. -/
namespace BraceTemplate
namespace Path

/-- A character of a key between its quotes. -/
def printKeyChar (c : Char) : List Char := if c = '"' ∨ c = '\\' then ['\\', c] else [c]

def printStep : PathStep → List Char
  | .field name => name.toList
  | .index n => '[' :: ((toString n).toList ++ [']'])
  | .key k => '[' :: '"' :: (k.toList.flatMap printKeyChar ++ ['"', ']'])

/-- What joins a step to the segment before it. -/
def printJoint (safe : Bool) : PathStep → List Char
  | .field _ => if safe then ['?', '.'] else ['.']
  | _ => []

/-- The segments behind one that is safe or not. -/
def printBehind : Bool → List PathSegment → List Char
  | _, [] => []
  | safe, s :: rest => printJoint safe s.step ++ printStep s.step ++ printBehind s.safe rest

/-- The text of a path. -/
def print : List PathSegment → List Char
  | [] => []
  | s :: rest => printStep s.step ++ printBehind s.safe rest

/-- A step with a good name, or with an index of 64 bits. -/
def IsStep (isName : List Char → Bool) : PathStep → Prop
  | .field name => isName name.toList = true
  | .index n => Text.isInt64 n = true
  | .key _ => True

def IsField : PathStep → Prop
  | .field _ => True
  | _ => False

/-- Segments behind one that is safe or not: behind a safe one stands a name. -/
def WellFormedBehind (isName : List Char → Bool) : Bool → List PathSegment → Prop
  | safe, [] => safe = false
  | safe, s :: rest =>
    (safe = true → IsField s.step) ∧ IsStep isName s.step ∧ WellFormedBehind isName s.safe rest

/-- A path starts with a name. -/
def WellFormed (isName : List Char → Bool) : List PathSegment → Prop
  | [] => False
  | s :: rest => IsField s.step ∧ IsStep isName s.step ∧ WellFormedBehind isName s.safe rest

theorem WellFormedBehind.mono {isName isName' : List Char → Bool}
    (hname : ∀ w, isName w = true → isName' w = true) {safe : Bool} {path : List PathSegment}
    (h : WellFormedBehind isName safe path) : WellFormedBehind isName' safe path := by
  induction path generalizing safe with
  | nil => exact h
  | cons segment path ih =>
    obtain ⟨step, next⟩ := segment
    obtain ⟨hsafe, hstep, hpath⟩ := h
    refine ⟨hsafe, ?_, ih hpath⟩
    cases step with
    | field name => exact hname _ hstep
    | index n => exact hstep
    | key k => trivial

/-- Names may be told by a weaker rule. -/
theorem WellFormed.mono {isName isName' : List Char → Bool}
    (hname : ∀ w, isName w = true → isName' w = true) {path : List PathSegment}
    (h : WellFormed isName path) : WellFormed isName' path := by
  match path, h with
  | ⟨.field name, safe⟩ :: path, ⟨hfield, hstep, hpath⟩ =>
    exact ⟨hfield, hname _ hstep, hpath.mono hname⟩

end Path
end BraceTemplate
