/- Sets of characters as sorted points. A set is given by the points where membership
   changes, so a character belongs to it when an odd number of points is not above it. -/
namespace BraceTemplate
namespace Text

/-- What the lines of a table say, one behind the other. -/
def readLines {α : Type} (read : List Char → List α) (lines : List String) : List α :=
  lines.flatMap fun line => read line.toList

/-- The decimal numbers of a line, separated by blanks. -/
def numbers (line : List Char) : List Nat :=
  let step (acc : List Nat × Option Nat) (c : Char) : List Nat × Option Nat :=
    if c.isDigit then (acc.1, some (acc.2.getD 0 * 10 + (c.toNat - 48)))
    else (match acc.2 with | some n => n :: acc.1 | none => acc.1, none)
  let (ns, last) := line.foldl step ([], none)
  ((match last with | some n => n :: ns | none => ns)).reverse

/-- Running sums: distances become points. -/
def points : Nat → List Nat → List Nat
  | _, [] => []
  | base, d :: rest => (base + d) :: points (base + d) rest

def boundaries (lines : List String) : Array Nat :=
  (points 0 (readLines numbers lines)).toArray

/-- Halves the window `[low, low + width)` until it is empty; the fuel is its width. -/
def countBelow (sorted : Array Nat) (x : Nat) : Nat → Nat → Nat → Nat
  | 0, low, _ => low
  | fuel + 1, low, width =>
    if width = 0 then low
    else
      let half := width / 2
      match sorted[low + half]? with
      | none => low
      | some p =>
        if p ≤ x then countBelow sorted x fuel (low + half + 1) (width - half - 1)
        else countBelow sorted x fuel low half

/-- How many of the sorted points are not above `x`. -/
def rank (sorted : Array Nat) (x : Nat) : Nat :=
  countBelow sorted x (sorted.size + 1) 0 sorted.size

/-- Membership in the set that the points bound. -/
def inRanges (sorted : Array Nat) (x : Nat) : Bool := rank sorted x % 2 == 1

/-- The runs of a line: two letters and a length each. -/
def letterRuns (line : List Char) : List (Char × Char × Nat) :=
  let step (acc : List (Char × Char × Nat) × Option Char) (c : Char) :=
    if c.isDigit then
      match acc.1 with
      | (a, b, n) :: rest => ((a, b, n * 10 + (c.toNat - 48)) :: rest, none)
      | [] => ([], none)
    else
      match acc.2 with
      | some a => ((a, c, 0) :: acc.1, none)
      | none => (acc.1, some c)
  (line.foldl step (([], none) : List (Char × Char × Nat) × Option Char)).1.reverse

/-- Groups of four numbers. -/
def quads : List Nat → List (Nat × Nat × Nat × Nat)
  | a :: b :: c :: d :: rest => (a, b, c, d) :: quads rest
  | _ => []

/-- Runs of a mapping: every `step`-th point from `first` to `last`, and the image of
    `first`. The first points stand apart for searching. -/
structure Runs where
  starts : Array Nat
  runs : Array (Nat × Nat × Nat × Nat)

def caseRuns (lines : List String) : Runs :=
  let runs := quads (readLines numbers lines)
  ⟨(runs.map (·.1)).toArray, runs.toArray⟩

/-- The image of a point under a mapping, if the mapping moves it. -/
def Runs.image? (m : Runs) (x : Nat) : Option Nat :=
  match m.runs[rank m.starts x - 1]? with
  | some (first, last, step, image) =>
    if first ≤ x && x ≤ last && (x - first) % step == 0 then some (image + (x - first)) else none
  | none => none

end Text
end BraceTemplate
