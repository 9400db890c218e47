import BraceTemplate.Json.Value
import BraceTemplate.Outcome
import BraceTemplate.Text.Integer
import BraceTemplate.Text.Trim

/- Variable paths. A path is made of names between points; brackets behind a name hold an
   index or a quoted key. A step before `?.` is safe: it gives null instead of failing when
   there is nothing to step into. -/
namespace BraceTemplate

inductive PathStep where
  | field (name : String)
  | index (value : Int)
  | key (value : String)
  deriving DecidableEq, Repr

structure PathSegment where
  step : PathStep
  safe : Bool
  deriving DecidableEq, Repr

/-- Why a text is no path; positions count characters from zero. -/
inductive PathFault where
  | empty
  | missingName (place : Nat)
  | badNameStart (place : Nat)
  | unexpected (c : Char) (place : Nat)
  | unterminatedKey (place : Nat)
  | unterminatedBracket (place : Nat)
  | invalidIndex (text : String) (place : Nat)
  deriving DecidableEq, Repr

def PathFault.message : PathFault → String
  | .empty => "path is empty"
  | .missingName n => "expected a name at position " ++ toString n
  | .badNameStart n =>
    "names must start with a letter or '_' (position " ++ toString n ++ ")"
  | .unexpected c n => "unexpected '" ++ c.toString ++ "' at position " ++ toString n
  | .unterminatedKey n => "unterminated key at position " ++ toString n
  | .unterminatedBracket n => "unterminated '[' at position " ++ toString n
  | .invalidIndex text n => "invalid index '" ++ text ++ "' at position " ++ toString n

namespace Path

def isNameChar (c : Char) : Bool := Text.isAlphanumeric c || c = '_' || c = '-'

/-- A quoted key up to its closing quote; a backslash stands before a literal character. -/
def key? (quote : Char) : List Char → Option (List Char × List Char)
  | [] => none
  | ['\\'] => none
  | '\\' :: c :: rest => (key? quote rest).map fun (k, r) => (c :: k, r)
  | c :: rest => if c = quote then some ([], rest) else (key? quote rest).map fun (k, r) => (c :: k, r)

/-- What stands in a bracket, from behind its opening at position `opened`. -/
def inBracket (opened : Nat) (text : List Char) : Except PathFault (PathStep × List Char) :=
  let quoted (quote : Char) (rest : List Char) : Except PathFault (PathStep × List Char) :=
    match key? quote rest with
    | some (k, r) => .ok (.key (String.ofList k), r)
    | none => .error (.unterminatedKey opened)
  match text with
  | '"' :: rest => quoted '"' rest
  | '\'' :: rest => quoted '\'' rest
  | text =>
    let written := text.takeWhile (· != ']')
    match Text.int64? (Text.trim written) with
    | some n => .ok (.index n, text.dropWhile (· != ']'))
    | none => .error (.invalidIndex (String.ofList written) opened)

/-- A bracket from behind its opening up to its end. -/
def bracket (opened : Nat) (text : List Char) : Except PathFault (PathStep × List Char) :=
  match inBracket opened text with
  | .error f => .error f
  | .ok (step, ']' :: rest) => .ok (step, rest)
  | .ok _ => .error (.unterminatedBracket opened)

theorem key?_le {quote : Char} {text k r : List Char} (h : key? quote text = some (k, r)) :
    r.length ≤ text.length := by
  fun_induction key? quote text generalizing k with
  | case1 | case2 => cases h
  | case3 c rest ih =>
    obtain ⟨⟨tail, _⟩, hread, heq⟩ := Option.map_eq_some_iff.mp h
    cases heq
    exact Nat.le_add_right_of_le (Nat.le_add_right_of_le (ih hread))
  | case4 c rest =>
    cases h
    exact Nat.le_add_right _ 1
  | case5 c rest _ _ _ ih =>
    obtain ⟨⟨tail, _⟩, hread, heq⟩ := Option.map_eq_some_iff.mp h
    cases heq
    exact Nat.le_add_right_of_le (ih hread)

theorem inBracket_le {opened : Nat} {text : List Char} {s : PathStep} {r : List Char}
    (h : inBracket opened text = .ok (s, r)) : r.length ≤ text.length := by
  have hquoted : ∀ quote rest, (match key? quote rest with
      | some (k, r) => Except.ok (PathStep.key (String.ofList k), r)
      | none => .error (PathFault.unterminatedKey opened)) = .ok (s, r) → r.length ≤ rest.length := by
    intro quote rest h
    split at h
    · rename_i k r' hkey
      cases h
      exact key?_le hkey
    · cases h
  unfold inBracket at h
  simp only at h
  split at h
  · exact Nat.le_add_right_of_le (hquoted _ _ h)
  · exact Nat.le_add_right_of_le (hquoted _ _ h)
  · split at h <;> cases h
    exact (List.dropWhile_sublist _).length_le

theorem bracket_le {opened : Nat} {text : List Char} {s : PathStep} {r : List Char}
    (h : bracket opened text = .ok (s, r)) : r.length ≤ text.length := by
  unfold bracket at h
  split at h
  · cases h
  · rename_i hinside
    cases h
    exact Nat.le_of_succ_le (inBracket_le hinside)
  · cases h

/-- The brackets in front of a text. `total` is the length of the whole path. -/
def brackets (total : Nat) (text : List Char) : Except PathFault (List PathStep × List Char) :=
  match text with
  | '[' :: rest =>
    match _h : bracket (total - (rest.length + 1)) rest with
    | .error f => .error f
    | .ok (s, r) => (brackets total r).map fun (ss, r) => (s :: ss, r)
  | text => .ok ([], text)
  termination_by text.length
  decreasing_by
    have := bracket_le _h
    simp only [List.length_cons]; omega

theorem brackets_le {total : Nat} {text : List Char} {ss : List PathStep} {r : List Char}
    (h : brackets total text = .ok (ss, r)) : r.length ≤ text.length := by
  fun_induction brackets total text generalizing ss r with
  | case1 => cases h
  | case2 rest s behind hbracket ih =>
    obtain ⟨⟨steps, _⟩, hread, heq⟩ := Outcome.map_eq_ok.mp h
    cases heq
    exact Nat.le_add_right_of_le (Nat.le_trans (ih hread) (bracket_le hbracket))
  | case3 =>
    cases h
    exact Nat.le_refl _

/-- The steps as segments, of which the last one is safe or not. -/
def segmentsOf (safe : Bool) : List PathStep → List PathSegment
  | [] => []
  | [s] => [⟨s, safe⟩]
  | s :: rest => ⟨s, false⟩ :: segmentsOf safe rest

/-- A name in front of a text. -/
def name (total : Nat) (text : List Char) : Except PathFault (String × List Char) :=
  match text.takeWhile isNameChar with
  | [] => .error (.missingName (total - text.length))
  | c :: rest =>
    if c.isDigit || c = '-' then .error (.badNameStart (total - text.length))
    else .ok (String.ofList (c :: rest), text.dropWhile isNameChar)

theorem name_shorter {total : Nat} {text : List Char} {s : String} {r : List Char}
    (h : name total text = .ok (s, r)) : r.length < text.length := by
  have e := congrArg List.length (List.takeWhile_append_dropWhile (p := isNameChar) (l := text))
  rw [List.length_append] at e
  unfold name at h
  split at h
  · simp at h
  · rename_i c rest hw
    rw [hw, List.length_cons] at e
    split at h
    · simp at h
    · simp only [Except.ok.injEq, Prod.mk.injEq] at h
      rw [← h.2]
      omega

/-- The point in front of a further name, which is safe or not, and what stands behind it. -/
def joint? : List Char → Option (Bool × List Char)
  | '?' :: '.' :: more => some (true, more)
  | '.' :: more => some (false, more)
  | _ => none

theorem joint?_shorter {text more : List Char} {safe : Bool} (h : joint? text = some (safe, more)) :
    more.length < text.length := by
  unfold joint? at h
  split at h <;> cases h <;> simp only [List.length_cons] <;> omega

/-- A path has nothing behind it. -/
def ended (total : Nat) (path : List PathSegment) : List Char → Except PathFault (List PathSegment)
  | [] => .ok path
  | c :: more => .error (.unexpected c (total - (more.length + 1)))

/-- The segments of a text that starts with a name. -/
def segments (total : Nat) (text : List Char) : Except PathFault (List PathSegment) :=
  match _h : name total text with
  | .error f => .error f
  | .ok (field, rest) =>
    match _h' : brackets total rest with
    | .error f => .error f
    | .ok (steps, behind) =>
      match _h'' : joint? behind with
      | some (safe, more) => (segments total more).map (segmentsOf safe (.field field :: steps) ++ ·)
      | none => ended total (segmentsOf false (.field field :: steps)) behind
  termination_by text.length
  decreasing_by
    have shorter := name_shorter _h
    have still := brackets_le _h'
    have further := joint?_shorter _h''
    omega

/-- The segments of a whole path. -/
def read (path : String) : Except PathFault (List PathSegment) :=
  let text := path.toList
  if text.isEmpty then .error .empty else segments text.length text

end Path

open Json in
def PathSegment.toJson (s : PathSegment) : Value :=
  let safe := if s.safe then [("safe", Value.bool true)] else []
  match s.step with
  | .field n => .object ([("type", .string "field"), ("name", .string n)] ++ safe)
  | .index n => .object ([("type", .string "index"), ("value", .int n)] ++ safe)
  | .key k => .object ([("type", .string "key"), ("value", .string k)] ++ safe)

end BraceTemplate
