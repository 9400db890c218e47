import BraceTemplate.Json.Number
import BraceTemplate.Json.Tree
import BraceTemplate.Text.Class

/- Reading JSON texts. Blanks are the four of the format, strings hold no control
   characters, and nothing but blanks may follow the value. -/
namespace BraceTemplate
namespace Json
namespace Reader

def isBlank (c : Char) : Bool := c = ' ' || c = '\t' || c = '\n' || c = '\r'

def skipBlanks (text : List Char) : List Char := text.dropWhile isBlank

/-- Four hexadecimal digits. -/
def hexUnit? : List Char → Option (Nat × List Char)
  | a :: b :: c :: d :: rest =>
    match Text.hexValue? a, Text.hexValue? b, Text.hexValue? c, Text.hexValue? d with
    | some a, some b, some c, some d => some (((a * 16 + b) * 16 + c) * 16 + d, rest)
    | _, _, _, _ => none
  | _ => none

/-- What stands for itself or a control character behind a backslash. -/
def simpleEscape? : Char → Option Char
  | '"' => some '"'
  | '\\' => some '\\'
  | '/' => some '/'
  | 'b' => some '\x08'
  | 'f' => some '\x0c'
  | 'n' => some '\n'
  | 'r' => some '\r'
  | 't' => some '\t'
  | _ => none

/-- The characters of a string up to its closing quote, newest first. The flag falls when
    an escape names half of a surrogate pair without its other half. -/
def stringBody? : Nat → List Char → Bool → List Char → Option (List Char × Bool × List Char)
  | 0, _, _, _ => none
  | fuel + 1, acc, sound, text =>
    match text with
    | [] => none
    | '"' :: rest => some (acc, sound, rest)
    | '\\' :: 'u' :: rest =>
      match hexUnit? rest with
      | none => none
      | some (unit, rest) =>
        if 0xD800 ≤ unit && unit < 0xDC00 then
          match rest with
          | '\\' :: 'u' :: more =>
            match hexUnit? more with
            | none => none
            | some (low, after) =>
              if 0xDC00 ≤ low && low < 0xE000 then
                let c := Char.ofNat (0x10000 + (unit - 0xD800) * 0x400 + (low - 0xDC00))
                stringBody? fuel (c :: acc) sound after
              else stringBody? fuel acc false rest
          | _ => stringBody? fuel acc false rest
        else if 0xDC00 ≤ unit && unit < 0xE000 then stringBody? fuel acc false rest
        else stringBody? fuel (Char.ofNat unit :: acc) sound rest
    | '\\' :: c :: rest =>
      match simpleEscape? c with
      | some d => stringBody? fuel (d :: acc) sound rest
      | none => none
    | c :: rest => if c.toNat < 32 then none else stringBody? fuel (c :: acc) sound rest

/-- A string whose opening quote has been read; no value when it is not sound. -/
def string? (text : List Char) : Option (Option String × List Char) :=
  (stringBody? (text.length + 1) [] true text).map fun (acc, sound, rest) =>
    (if sound then some (String.ofList acc.reverse) else none, rest)

/-- Drops a word from the front of a text. -/
def keyword? (word : List Char) (text : List Char) : Option (List Char) :=
  if word.isPrefixOf text then some (text.drop word.length) else none

/-- The greatest depth of arrays and objects that still has a value. -/
def maxDepth : Nat := 127

mutual
/-- One value. `depth` counts the arrays and objects around it; fuel is the text's length. -/
def tree? : Nat → Nat → List Char → Option (Tree × List Char)
  | 0, _, _ => none
  | fuel + 1, depth, text =>
    match skipBlanks text with
    | [] => none
    | '"' :: rest =>
      (string? rest).map fun (s?, rest) =>
        (match s? with | some s => .string s | none => .unusable, rest)
    | '[' :: rest =>
      let whole := fun (r : List Tree × List Char) =>
        (if depth < maxDepth then Tree.array r.1 else Tree.unusable, r.2)
      match skipBlanks rest with
      | ']' :: rest => some (whole ([], rest))
      | rest => (items? fuel (depth + 1) rest).map whole
    | '{' :: rest =>
      let whole := fun (r : List (Option String × Tree) × List Char) =>
        (if depth < maxDepth && r.1.all (·.1.isSome)
          then Tree.object (r.1.map fun f => (f.1.getD "", f.2)) else Tree.unusable, r.2)
      match skipBlanks rest with
      | '\x7d' :: rest => some (whole ([], rest))
      | rest => (fields? fuel (depth + 1) rest).map whole
    | 't' :: rest => (keyword? ['r', 'u', 'e'] rest).map (.bool true, ·)
    | 'f' :: rest => (keyword? ['a', 'l', 's', 'e'] rest).map (.bool false, ·)
    | 'n' :: rest => (keyword? ['u', 'l', 'l'] rest).map (.null, ·)
    | text =>
      (Number.split? text).map fun (s, rest) =>
        (match s.value? with
          | some (.int n) => .int n
          | some (.float x) => .float x
          | none => .unusable, rest)

def items? : Nat → Nat → List Char → Option (List Tree × List Char)
  | 0, _, _ => none
  | fuel + 1, depth, text =>
    match tree? fuel depth text with
    | none => none
    | some (t, rest) =>
      match skipBlanks rest with
      | ']' :: rest => some ([t], rest)
      | ',' :: rest => (items? fuel depth rest).map fun (ts, rest) => (t :: ts, rest)
      | _ => none

def fields? : Nat → Nat → List Char → Option (List (Option String × Tree) × List Char)
  | 0, _, _ => none
  | fuel + 1, depth, text =>
    match skipBlanks text with
    | '"' :: rest =>
      match string? rest with
      | none => none
      | some (key, rest) =>
        match skipBlanks rest with
        | ':' :: rest =>
          match tree? fuel depth rest with
          | none => none
          | some (t, rest) =>
            match skipBlanks rest with
            | '\x7d' :: rest => some ([(key, t)], rest)
            | ',' :: rest => (fields? fuel depth rest).map fun (fs, rest) => ((key, t) :: fs, rest)
            | _ => none
        | _ => none
    | _ => none
end

end Reader

/-- Reads a whole text. -/
def Tree.read? (text : String) : Option Tree :=
  let cs := text.toList
  match Reader.tree? (cs.length + 1) 0 cs with
  | some (t, rest) => if (Reader.skipBlanks rest).isEmpty then some t else none
  | none => none

/-- Reads a whole text as a value. -/
def Value.read? (text : String) : Option Value := (Tree.read? text).bind Tree.value?

end Json
end BraceTemplate
