/- Positions in a source text. A position counts lines and columns from one, columns in
   characters, and the bytes of the UTF-8 form before it. -/
namespace BraceTemplate

structure Position where
  line : Nat
  column : Nat
  offset : Nat
  deriving DecidableEq, Repr, Inhabited

namespace Position

/-- The start of every text. -/
def start : Position := ⟨1, 1, 0⟩

/-- The position behind one character. -/
def after (p : Position) (c : Char) : Position :=
  if c = '\n' then ⟨p.line + 1, 1, p.offset + c.utf8Size⟩
  else ⟨p.line, p.column + 1, p.offset + c.utf8Size⟩

/-- The position behind a text. -/
def through (p : Position) (text : List Char) : Position := text.foldl after p

theorem through_nil (p : Position) : p.through [] = p := rfl

theorem through_cons (p : Position) (c : Char) (text : List Char) :
    p.through (c :: text) = (p.after c).through text := rfl

theorem through_append (p : Position) (a b : List Char) :
    p.through (a ++ b) = (p.through a).through b := by
  simp [through, List.foldl_append]

theorem offset_after (p : Position) (c : Char) : (p.after c).offset = p.offset + c.utf8Size := by
  unfold after; split <;> rfl

/-- Positions whose offsets ascend differ. -/
theorem nodup_of_offsets {ps : List Position} (h : ps.Pairwise (·.offset < ·.offset)) : ps.Nodup := by
  refine h.imp fun hlt heq => ?_
  rw [heq] at hlt
  exact Nat.lt_irrefl _ hlt

end Position

/-- The number of bytes of a text in UTF-8. -/
def byteLength (text : List Char) : Nat := text.foldr (fun c n => c.utf8Size + n) 0

theorem Position.offset_through (p : Position) (text : List Char) :
    (p.through text).offset = p.offset + byteLength text := by
  induction text generalizing p with
  | nil => simp [through, byteLength]
  | cons c rest ih =>
    rw [through_cons, ih, offset_after]
    simp [byteLength, Nat.add_assoc]

end BraceTemplate
