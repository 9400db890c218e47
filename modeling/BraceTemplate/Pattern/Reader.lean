import BraceTemplate.Pattern.Property

/- Reading patterns. The reader follows the text from left to right with the flags that are
   in force; flags set inside a group end with it. Fuel is the length of the text: every call
   goes on with a shorter text. -/
namespace BraceTemplate
namespace Pattern

/-- Flags: case variants match, anchors match at lines, the point matches line ends, carriage
    returns end lines, blanks are layout, classes reach beyond ASCII. -/
structure Flags where
  fold : Bool
  lines : Bool
  pointAll : Bool
  returns : Bool
  layout : Bool
  unicode : Bool
  deriving DecidableEq, Repr

def Flags.initial : Flags := ⟨false, false, false, false, false, true⟩

/-- Why a text is no pattern. -/
inductive Fault where
  | malformed
  | tooLarge
  deriving DecidableEq, Repr

/-- The greatest weight of a pattern. -/
def maxWeight : Nat := 10485760

/-- What is wrong in a few words. The place in the pattern is not told. -/
def Fault.message : Fault → String
  | .malformed => "regex parse error:"
  | .tooLarge => "Compiled regex exceeds size limit of " ++ toString maxWeight ++ " bytes."

/-- Drops layout in front of a text: blanks, and comments up to the end of their line. -/
def skipLayout (inComment : Bool) : List Char → List Char
  | [] => []
  | c :: rest =>
    if inComment then skipLayout (c != '\n') rest
    else if c = '#' then skipLayout true rest
    else if Text.isWhitespace c then skipLayout false rest
    else c :: rest

def skip (flags : Flags) (text : List Char) : List Char :=
  if flags.layout then skipLayout false text else text

/-! Flags. -/

def setFlag? (flags : Flags) (on : Bool) : Char → Option Flags
  | 'i' => some { flags with fold := on }
  | 'm' => some { flags with lines := on }
  | 's' => some { flags with pointAll := on }
  | 'R' => some { flags with returns := on }
  | 'x' => some { flags with layout := on }
  | 'u' => some { flags with unicode := on }
  | 'U' => some flags
  | _ => none

/-- Flags up to a colon or a closing parenthesis, which is left in front; `seen` are the
    marks so far, newest first. -/
def flags? (flags : Flags) (seen : List Char) : List Char → Option (Flags × List Char × List Char)
  | [] => none
  | c :: rest =>
    if c = ':' || c = ')' then
      if seen.head? = some '-' then none else some (flags, seen, c :: rest)
    else if seen.contains c then none
    else if c = '-' then flags? flags ('-' :: seen) rest
    else
      match setFlag? flags (!seen.contains '-') c with
      | some flags => flags? flags (c :: seen) rest
      | none => none

/-! Escapes. -/

/-- One element of a pattern that may also stand in a set, as far as it is a set. -/
inductive Element where
  | literal (c : Char)
  | set (s : CharSet)
  | look (a : Assertion)
  deriving Repr

def isMeta (c : Char) : Bool := ['\\', '.', '+', '*', '?', '(', ')', '|', '[', ']', '\x7b', '\x7d', '^',
  '$', '#', '&', '-', '~'].contains c

/-- ASCII characters other than letters, digits and angle brackets may be escaped. -/
def isEscapable (c : Char) : Bool :=
  isMeta c || (Text.isAscii c && !c.isAlphanum && c != '<' && c != '>')

def charOf? (n : Nat) : Option Char :=
  if h : n.isValidChar then some (Char.ofNatAux n h) else none

/-- A code point in hexadecimal: a fixed number of digits, or any number in braces. -/
def hex? (flags : Flags) (count : Nat) (text : List Char) : Option (Char × List Char) :=
  let value (ds : List Char) : Option Char := do
    let ns ← ds.mapM Text.hexValue?
    if ds.isEmpty then none
    else
      let c ← charOf? (ns.foldl (fun n d => n * 16 + d) 0)
      if !flags.unicode && 127 < c.toNat then none else some c
  let tidy (cs : List Char) : List Char :=
    if flags.layout then cs.filter (!Text.isWhitespace ·) else cs
  match skip flags text with
  | '\x7b' :: rest =>
    let inside := rest.takeWhile (· != '\x7d')
    match rest.drop inside.length with
    | _ :: after => (value (tidy inside)).map (·, skip flags after)
    | [] => none
  | rest =>
    if rest.length < count then none
    else (value (rest.take count)).map (·, skip flags (rest.drop count))

/-- A named property: one letter, or a name in braces with an optional value. -/
def named? (flags : Flags) (negated : Bool) (text : List Char) : Option (CharSet × List Char) := do
  let wrap (negated : Bool) (p : CharProperty) : CharSet :=
    let set : CharSet := if flags.fold then .fold (.property p) else .property p
    if negated then .not set else set
  let splitAt (mark : List Char) (name : List Char) : Option (List Char × List Char) :=
    (List.range name.length).findSome? fun i =>
      if mark.isPrefixOf (name.drop i) then some (name.take i, name.drop (i + mark.length)) else none
  if !flags.unicode then none
  else
    match skip flags text with
    | '\x7b' :: rest =>
      let name := rest.takeWhile (· != '\x7d')
      match rest.drop name.length with
      | [] => none
      | _ :: after =>
        match splitAt ['!', '='] name with
        | some (n, v) => (valuedProperty? n v).map fun p => (wrap (!negated) p, after)
        | none =>
          match (splitAt [':'] name).or (splitAt ['='] name) with
          | some (n, v) => (valuedProperty? n v).map fun p => (wrap negated p, after)
          | none => (property? name).map fun p => (wrap negated p, after)
    | '\\' :: _ => none
    | c :: rest => (property? [c]).map fun p => (wrap negated p, skip flags rest)
    | [] => none

/-- The set of a class letter; complements of ASCII sets are no sets of characters. -/
def classLetter? (flags : Flags) (negated : Bool) (p : CharProperty) (ascii : String) :
    Option CharSet :=
  if flags.unicode then some (if negated then .not (.property p) else .property p)
  else if negated then none
  else asciiClass? ascii.toList

/-- The names of word assertions in braces behind `\b`. -/
def wordAssertion? (name : List Char) : Option Assertion :=
  if name = "start".toList then some .wordStart
  else if name = "end".toList then some .wordEnd
  else if name = "start-half".toList then some .wordStartHalf
  else if name = "end-half".toList then some .wordEndHalf
  else none

/-- What stands behind `\b`: nothing, the name of an assertion, or a repetition. -/
def boundary? (flags : Flags) (text : List Char) : Option (Element × List Char) :=
  let isNameChar (c : Char) : Bool := c.isAlpha || c = '-'
  match text with
  | '\x7b' :: rest =>
    match skip flags rest with
    | [] => none
    | c :: more =>
      if isNameChar c then
        let body := (c :: more).takeWhile (· != '\x7d')
        match (c :: more).drop body.length with
        | [] => none
        | _ :: after =>
          let name := if flags.layout then body.filter (!Text.isWhitespace ·) else body
          (wordAssertion? name).map fun a => (.look a, after)
      else some (.look .wordBoundary, text)
  | text => some (.look .wordBoundary, text)

/-- The element behind a backslash. -/
def escape? (flags : Flags) (text : List Char) : Option (Element × List Char) :=
  match text with
  | [] => none
  | c :: rest =>
    let set (s : Option CharSet) : Option (Element × List Char) := s.map (.set ·, rest)
    match c with
    | 'x' => (hex? flags 2 rest).map fun (c, r) => (.literal c, r)
    | 'u' => (hex? flags 4 rest).map fun (c, r) => (.literal c, r)
    | 'U' => (hex? flags 8 rest).map fun (c, r) => (.literal c, r)
    | 'p' => (named? flags false rest).map fun (s, r) => (.set s, r)
    | 'P' => (named? flags true rest).map fun (s, r) => (.set s, r)
    | 'd' => set (classLetter? flags false .decimalDigit "digit")
    | 'D' => set (classLetter? flags true .decimalDigit "digit")
    | 's' => set (classLetter? flags false .whitespace "space")
    | 'S' => set (classLetter? flags true .whitespace "space")
    | 'w' => set (classLetter? flags false .word "word")
    | 'W' => set (classLetter? flags true .word "word")
    | 'a' => some (.literal '\x07', rest)
    | 'f' => some (.literal '\x0c', rest)
    | 't' => some (.literal '\t', rest)
    | 'n' => some (.literal '\n', rest)
    | 'r' => some (.literal '\r', rest)
    | 'v' => some (.literal '\x0b', rest)
    | 'A' => some (.look .startText, rest)
    | 'z' => some (.look .endText, rest)
    | 'b' => boundary? flags rest
    | 'B' => some (.look .notWordBoundary, rest)
    | '<' => some (.look .wordStart, rest)
    | '>' => some (.look .wordEnd, rest)
    | c => if isEscapable c then some (.literal c, rest) else none

/-! Sets in brackets. -/

/-- A set named like `[:alpha:]`, from behind its opening bracket. -/
def asciiName? (text : List Char) : Option (CharSet × List Char) :=
  match text with
  | ':' :: rest =>
    let (negated, rest) := match rest with | '^' :: r => (true, r) | r => (false, r)
    let name := rest.takeWhile (· != ':')
    match rest.drop name.length with
    | ':' :: ']' :: after =>
      (asciiClass? name).map fun s => (if negated then .not s else s, after)
    | _ => none
  | _ => none

inductive SetOp where
  | inter
  | minus
  | either
  deriving DecidableEq, Repr

def foldIf (flags : Flags) (s : CharSet) : CharSet := if flags.fold then .fold s else s

/-- Joins what stands before an operator with what stands behind it. -/
def combine (flags : Flags) (left : Option (CharSet × SetOp)) (right : CharSet) : CharSet :=
  match left with
  | none => right
  | some (l, op) =>
    let l := foldIf flags l
    let r := foldIf flags right
    match op with
    | .inter => .inter l r
    | .minus => .minus l r
    | .either => .either l r

/-- A character or an escape in a set. -/
def setElement? (flags : Flags) (text : List Char) : Option (Element × List Char) :=
  match text with
  | [] => none
  | '\\' :: rest => escape? flags rest
  | c :: rest => some (.literal c, rest)

/-- A range, a character or an escape in a set. -/
def setRange? (flags : Flags) (text : List Char) : Option (CharSet × List Char) :=
  match setElement? flags text with
  | none => none
  | some (first, rest) =>
    let single : Option CharSet :=
      match first with
      | .literal c => some (.single c)
      | .set s => some s
      | .look _ => none
    match skip flags rest with
    | [] => none
    | '-' :: more =>
      let next := (skip flags more).head?
      if next = some ']' || next = some '-' then single.map (·, '-' :: more)
      else
        match first, setElement? flags (skip flags more) with
        | .literal low, some (.literal high, rest) =>
          if low ≤ high then some (.range low high, rest) else none
        | _, _ => none
    | rest => single.map (·, rest)

/-- Dashes at the start of a set stand for themselves. -/
def leadingDashes (flags : Flags) (any : Bool) : Nat → List Char → Bool × List Char
  | 0, text => (any, text)
  | fuel + 1, text =>
    match text with
    | '-' :: rest => leadingDashes flags true fuel (skip flags rest)
    | text => (any, text)

mutual
/-- A set from behind its opening bracket. -/
def bracketSet? (flags : Flags) : Nat → List Char → Option (CharSet × List Char)
  | 0, _ => none
  | fuel + 1, text =>
    let text := skip flags text
    let (negated, text) :=
      match text with
      | '^' :: rest => (true, skip flags rest)
      | text => (false, text)
    if negated && !flags.unicode then none
    else
      let (dash, text) := leadingDashes flags false text.length text
      let start : CharSet := if dash then .single '-' else .empty
      match text with
      | ']' :: rest =>
        if dash then setItems? flags negated none start fuel text
        else setItems? flags negated none (.single ']') fuel (skip flags rest)
      | text => setItems? flags negated none start fuel text

/-- The items of a set; `left` is what stands before the last operator. -/
def setItems? (flags : Flags) (negated : Bool) (left : Option (CharSet × SetOp))
    (items : CharSet) : Nat → List Char → Option (CharSet × List Char)
  | 0, _ => none
  | fuel + 1, text =>
    let operator (op : SetOp) (rest : List Char) : Option (CharSet × List Char) :=
      setItems? flags negated (some (combine flags left items, op)) .empty fuel rest
    match skip flags text with
    | [] => none
    | ']' :: rest =>
      let set := foldIf flags (combine flags left items)
      some (if negated then .not set else set, rest)
    | '&' :: '&' :: rest => operator .inter rest
    | '-' :: '-' :: rest => operator .minus rest
    | '~' :: '~' :: rest => operator .either rest
    | '[' :: rest =>
      match asciiName? rest with
      | some (s, rest) => setItems? flags negated left (.union items s) fuel rest
      | none =>
        match bracketSet? flags fuel rest with
        | some (s, rest) => setItems? flags negated left (.union items s) fuel rest
        | none => none
    | text =>
      match setRange? flags text with
      | some (s, rest) => setItems? flags negated left (.union items s) fuel rest
      | none => none
end

/-! Repetitions. -/

/-- A count between blanks; the inner option is none when there is no digit. -/
def count? (flags : Flags) (text : List Char) : Option (Option Nat × List Char) :=
  let start := text.dropWhile Text.isWhitespace
  let isPart (c : Char) : Bool := c.isDigit || (flags.layout && Text.isWhitespace c)
  let written := start.takeWhile isPart
  let digits := written.filter Char.isDigit
  let rest := (start.drop written.length).dropWhile Text.isWhitespace
  if digits.isEmpty then some (none, rest)
  else
    let n := digits.foldl (fun n c => n * 10 + (c.toNat - 48)) 0
    if n < Nat.pow 2 32 then some (some n, rest) else none

/-- The bounds of a repetition, from behind the opening brace to behind the closing one. -/
def bounds? (flags : Flags) (text : List Char) : Option ((Nat × Option Nat) × List Char) :=
  match count? flags (skip flags text) with
  | some (some least, '\x7d' :: rest) => some ((least, some least), rest)
  | some (some least, ',' :: rest) =>
    match skip flags rest with
    | '\x7d' :: rest => some ((least, none), rest)
    | rest =>
      match count? flags rest with
      | some (some most, '\x7d' :: rest) =>
        if least ≤ most then some ((least, some most), rest) else none
      | _ => none
  | _ => none

/-- A question mark behind a repetition changes only which match is preferred. -/
def dropLazy : List Char → List Char
  | '?' :: rest => rest
  | text => text

/-! Patterns. -/

def sequence : List (Option Pattern) → Pattern
  | [] => .empty
  | none :: rest => sequence rest
  | some p :: rest => .seq p (sequence rest)

def choice : List Pattern → Pattern
  | [] => .empty
  | [p] => p
  | p :: rest => .alt p (choice rest)

/-- The pattern of the branches before this one, newest first, and of this branch's parts. -/
def close (branches : List Pattern) (parts : List (Option Pattern)) : Pattern :=
  choice ((sequence parts.reverse :: branches).reverse)

def literal (flags : Flags) (c : Char) : Pattern := .chars (foldIf flags (.single c))

/-- The point; without classes beyond ASCII it is no set of characters. -/
def point? (flags : Flags) : Option Pattern :=
  if !flags.unicode then none
  else if flags.pointAll then some (.chars (.property .any))
  else if flags.returns then some (.chars (.not (.union (.single '\n') (.single '\r'))))
  else some (.chars (.not (.single '\n')))

def anchor (flags : Flags) (start : Bool) : Pattern :=
  let a : Assertion :=
    if flags.lines then
      if flags.returns then (if start then .startLineCr else .endLineCr)
      else (if start then .startLine else .endLine)
    else (if start then .startText else .endText)
  .look a false

def ofElement (flags : Flags) : Element → Pattern
  | .literal c => literal flags c
  | .set s => .chars s
  | .look a => .look a (!flags.unicode)

/-- The name of a group up to its closing angle. -/
def groupName? (text : List Char) : Option (List Char × List Char) :=
  let isStart (c : Char) : Bool := c = '_' || Text.isAlphabetic c
  let isPart (c : Char) : Bool :=
    c = '_' || c = '.' || c = '[' || c = ']' || Text.isAlphanumeric c
  let name := text.takeWhile (· != '>')
  match name, text.drop name.length with
  | c :: more, _ :: rest => if isStart c && more.all isPart then some (name, rest) else none
  | _, _ => none

/-- Reads parts and branches up to the end of the group, or of the text. `names` are the names
    of the groups before. -/
def parts? (inGroup : Bool) :
    Nat → Flags → List Pattern → List (Option Pattern) → List (List Char) → List Char →
      Option (Pattern × List (List Char) × List Char)
  | 0, _, _, _, _, _ => none
  | fuel + 1, flags, branches, parts, names, text =>
    let add (p : Pattern) (rest : List Char) :=
      parts? inGroup fuel flags branches (some p :: parts) names rest
    let repeatLast (least : Nat) (most : Option Nat) (rest : List Char) :=
      match parts with
      | some p :: before =>
        parts? inGroup fuel flags branches (some (.repeat p least most) :: before) names rest
      | _ => none
    let group (inner : Flags) (names : List (List Char)) (rest : List Char) :=
      match parts? true fuel inner [] [] names rest with
      | some (p, names, rest) => parts? inGroup fuel flags branches (some p :: parts) names rest
      | none => none
    match skip flags text with
    | [] => if inGroup then none else some (close branches parts, names, [])
    | ')' :: rest => if inGroup then some (close branches parts, names, rest) else none
    | '|' :: rest =>
      parts? inGroup fuel flags (sequence parts.reverse :: branches) [] names rest
    | '*' :: rest => repeatLast 0 none (dropLazy rest)
    | '+' :: rest => repeatLast 1 none (dropLazy rest)
    | '?' :: rest => repeatLast 0 (some 1) (dropLazy rest)
    | '\x7b' :: rest =>
      match bounds? flags rest with
      | some ((least, most), rest) => repeatLast least most (dropLazy (skip flags rest))
      | none => none
    | '[' :: rest =>
      match bracketSet? flags (rest.length + 1) rest with
      | some (s, rest) => add (.chars s) rest
      | none => none
    | '\\' :: rest =>
      match escape? flags rest with
      | some (e, rest) => add (ofElement flags e) rest
      | none => none
    | '.' :: rest =>
      match point? flags with
      | some p => add p rest
      | none => none
    | '^' :: rest => add (anchor flags true) rest
    | '$' :: rest => add (anchor flags false) rest
    | '(' :: rest =>
      let named (rest : List Char) :=
        match groupName? rest with
        | some (name, rest) => if names.contains name then none else group flags (name :: names) rest
        | none => none
      match skip flags rest with
      | '?' :: '=' :: _ => none
      | '?' :: '!' :: _ => none
      | '?' :: '<' :: '=' :: _ => none
      | '?' :: '<' :: '!' :: _ => none
      | '?' :: 'P' :: '<' :: rest => named rest
      | '?' :: '<' :: rest => named rest
      | '?' :: rest =>
        match flags? flags [] rest with
        | some (inner, _, ':' :: rest) => group inner names rest
        | some (inner, seen, ')' :: rest) =>
          if seen.isEmpty then none
          else parts? inGroup fuel inner branches (none :: parts) names rest
        | _ => none
      | rest => group flags names rest
    | c :: rest => add (literal flags c) rest

/-- The pattern of a text. -/
def read (text : String) : Except Fault Pattern :=
  let cs := text.toList
  match parts? false (cs.length + 1) Flags.initial [] [] [] cs with
  | some (p, _, _) => if maxWeight < p.weight then .error .tooLarge else .ok p
  | none => .error .malformed

end Pattern
end BraceTemplate
