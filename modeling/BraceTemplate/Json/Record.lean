import BraceTemplate.Json.Tree

/- Reading records out of JSON trees. A record is written as an object, whose unknown keys
   are passed over, or as an array that gives the fields in their declared order. A field
   may have several names, but is written once. -/
namespace BraceTemplate
namespace Json
namespace Tree

def string? : Tree → Option String
  | .string s => some s
  | _ => none

def bool? : Tree → Option Bool
  | .bool b => some b
  | _ => none

/-- A count: an integer that is not negative. -/
def count? : Tree → Option Nat
  | .int (.ofNat n) => some n
  | _ => none

/-- Null stands for an absent value. -/
def optional? (read : Tree → Option α) : Tree → Option (Option α)
  | .null => some none
  | t => (read t).map some

/-- All results, if every member can be read. -/
def all? (read : α → Option β) : List α → Option (List β)
  | [] => some []
  | x :: rest =>
    match read x, all? read rest with
    | some y, some ys => some (y :: ys)
    | _, _ => none

def list? (read : Tree → Option α) : Tree → Option (List α)
  | .array items => all? read items
  | _ => none

/-- A table from keys to records: of a repeated key the first place and the last value. -/
def table? (read : Tree → Option α) : Tree → Option { table : List (String × α) // Table.Distinct table }
  | .object fields =>
    (all? (fun f : String × Tree => (read f.2).map (f.1, ·)) fields).map fun entries =>
      ⟨Table.ofEntries entries, Table.distinct_ofEntries entries⟩
  | _ => none

/-- One of several words, written as a string or as the only key of an object with null. -/
def word? (words : List (String × α)) : Tree → Option α
  | .string s => Table.lookup s words
  | .object [(key, .null)] => Table.lookup key words
  | _ => none

/-- The tree of a field that has any of the given names; none when it is written twice. -/
def field? (names : List String) (fields : List (String × Tree)) : Option (Option Tree) :=
  match fields.filter fun f => names.contains f.1 with
  | [] => some none
  | [f] => some (some f.2)
  | _ => none

/-- The trees of the declared fields, in their declared order. -/
def record? (declared : List (List String)) : Tree → Option (List (Option Tree))
  | .object fields => all? (fun names => field? names fields) declared
  | .array items =>
    if items.length ≤ declared.length then
      some (items.map some ++ List.replicate (declared.length - items.length) none)
    else none
  | _ => none

/-- The value of a field that may be missing. -/
def orElse (read : Tree → Option α) (missing : α) : Option Tree → Option α
  | none => some missing
  | some t => read t

/-- The table of a field that may be missing. -/
def tableOrNone (read : Tree → Option α) :
    Option Tree → Option { table : List (String × α) // Table.Distinct table } :=
  orElse (table? read) ⟨[], Table.distinct_nil⟩

/-- The value of a field that must be written. -/
def needed (read : Tree → Option α) : Option Tree → Option α
  | none => none
  | some t => read t

/-- The value of a field that may be missing or null. -/
def maybe (read : Tree → Option α) : Option Tree → Option (Option α) :=
  orElse (optional? read) none

end Tree
end Json
end BraceTemplate
