import BraceTemplate.Text.Case

/- Patterns over texts. A set of characters is built from ranges and properties; a pattern
   from sets, assertions about a place in the text, sequence, choice and repetition. The
   meaning of a pattern is the set of places at which a match can end (`Pattern.ends`). -/
namespace BraceTemplate

/-- A property of characters that a pattern can name. -/
inductive CharProperty where
  | any
  | ascii
  | assigned
  | alphabetic
  | whitespace
  | lowercase
  | uppercase
  | cased
  | caseIgnorable
  | graphemeExtend
  | category (major : Char) (minor : Option Char)
  | casedLetter
  | word
  | decimalDigit
  deriving DecidableEq, Repr

/-- Letters, marks, decimal digits, connectors and joiners are the characters of words. -/
def isWordChar (c : Char) : Bool :=
  if Text.isAscii c then c.isAlphanum || c = '_'
  else
    let kind := Text.category c
    Text.isAlphabetic c || kind.1 == 'M' || kind == ('N', 'd') || kind == ('P', 'c') ||
      c.toNat == 0x200C || c.toNat == 0x200D

def CharProperty.holds (p : CharProperty) (c : Char) : Bool :=
  match p with
  | .any => true
  | .ascii => Text.isAscii c
  | .assigned => Text.category c != ('C', 'n')
  | .alphabetic => Text.isAlphabetic c
  | .whitespace => Text.isWhitespace c
  | .lowercase => Text.isLowercase c
  | .uppercase => Text.isUppercase c
  | .cased => Text.isCased c
  | .caseIgnorable => Text.isCaseIgnorable c
  | .graphemeExtend => Text.isGraphemeExtend c
  | .category major none => (Text.category c).1 == major
  | .category major (some minor) => Text.category c == (major, minor)
  | .casedLetter =>
    let kind := Text.category c
    kind.1 == 'L' && (kind.2 == 'u' || kind.2 == 'l' || kind.2 == 't')
  | .word => isWordChar c
  | .decimalDigit => Text.isDecimalDigit c

inductive CharSet where
  | empty
  | range (low high : Char)
  | property (p : CharProperty)
  | union (a b : CharSet)
  | inter (a b : CharSet)
  | minus (a b : CharSet)
  | either (a b : CharSet)
  | not (a : CharSet)
  /-- All case variants of the characters of a set. -/
  | fold (a : CharSet)
  deriving Repr

/-- The characters that are case variants of one another. -/
def caseVariants (c : Char) : List Char :=
  let base := Text.foldChar c
  let unfolded := Text.CaseTable.foldRuns.runs.toList.filterMap fun (first, last, step, image) =>
    let n := first + (base.toNat - image)
    if image ≤ base.toNat && n ≤ last && (n - first) % step == 0 then some (Char.ofNat n) else none
  base :: (if Text.isAscii base then [base.toUpper] else []) ++ unfolded

namespace CharSet

def contains : CharSet → Char → Bool
  | .empty, _ => false
  | .range low high, c => low ≤ c && c ≤ high
  | .property p, c => p.holds c
  | .union a b, c => a.contains c || b.contains c
  | .inter a b, c => a.contains c && b.contains c
  | .minus a b, c => a.contains c && !b.contains c
  | .either a b, c => a.contains c != b.contains c
  | .not a, c => !a.contains c
  | .fold a, c => (caseVariants c).any a.contains

def single (c : Char) : CharSet := .range c c

/-- About how many bytes the set takes in a compiled pattern. -/
def weight : CharSet → Nat
  | .empty => 32
  | .range low high => if low.toNat < 128 && high.toNat < 128 then 32 else 96
  | .property .word => 47000
  | .property .alphabetic => 45000
  | .property .decimalDigit => 4500
  | .property .whitespace => 700
  | .property .ascii => 32
  | .property .any => 300
  | .property _ => 20000
  | .union a b => a.weight + b.weight
  | .inter a b => max a.weight b.weight
  | .minus a b => max a.weight b.weight
  | .either a b => a.weight + b.weight
  | .not a => a.weight + 300
  | .fold a => a.weight

end CharSet

/-- What has to hold at a place between two characters. -/
inductive Assertion where
  | startText
  | endText
  | startLine
  | endLine
  | startLineCr
  | endLineCr
  | wordBoundary
  | notWordBoundary
  | wordStart
  | wordEnd
  | wordStartHalf
  | wordEndHalf
  deriving DecidableEq, Repr

inductive Pattern where
  | empty
  | chars (set : CharSet)
  | look (assertion : Assertion) (asciiWords : Bool)
  | seq (first second : Pattern)
  | alt (first second : Pattern)
  | repeat (body : Pattern) (least : Nat) (most : Option Nat)
  deriving Repr

/-- Whether an assertion holds between the characters before and behind a place. -/
def Assertion.holds (a : Assertion) (asciiWords : Bool) (before after : Option Char) : Bool :=
  let isWord (c : Option Char) : Bool :=
    match c with
    | some c => if asciiWords then c.isAlphanum || c = '_' else isWordChar c
    | none => false
  match a with
  | .startText => before.isNone
  | .endText => after.isNone
  | .startLine => before.isNone || before = some '\n'
  | .endLine => after.isNone || after = some '\n'
  | .startLineCr =>
    before.isNone || before = some '\n' || (before = some '\r' && after != some '\n')
  | .endLineCr =>
    after.isNone || after = some '\r' || (after = some '\n' && before != some '\r')
  | .wordBoundary => isWord before != isWord after
  | .notWordBoundary => isWord before == isWord after
  | .wordStart => !isWord before && isWord after
  | .wordEnd => isWord before && !isWord after
  | .wordStartHalf => !isWord before
  | .wordEndHalf => !isWord after

namespace Pattern

/-! Matching. Places are counted from the start of the text; sets of places are sorted. -/

/-- The union of two sorted lists without repetition. -/
def merge : List Nat → List Nat → List Nat
  | [], ys => ys
  | xs, [] => xs
  | x :: xs, y :: ys =>
    if x < y then x :: merge xs (y :: ys)
    else if y < x then y :: merge (x :: xs) ys
    else x :: merge xs ys
  termination_by xs ys => xs.length + ys.length

/-- Applies a step so many times, or until nothing changes. -/
def iterate (f : List Nat → List Nat) : Nat → List Nat → List Nat
  | 0, ps => ps
  | n + 1, ps =>
    let qs := f ps
    if qs = ps then ps else iterate f n qs

/-- Adds what up to so many further steps reach. -/
def grow (f : List Nat → List Nat) : Nat → List Nat → List Nat
  | 0, ps => ps
  | n + 1, ps =>
    let qs := merge ps (f ps)
    if qs = ps then ps else grow f n qs

/-- The place before, when there is one. -/
def charBefore (text : Array Char) (i : Nat) : Option Char :=
  if i = 0 then none else text[i - 1]?

/-- The places at which a match can end that starts at one of the given places. -/
def ends (text : Array Char) : Pattern → List Nat → List Nat
  | .empty, ps => ps
  | .chars set, ps =>
    ps.filterMap fun i =>
      match text[i]? with
      | some c => if set.contains c then some (i + 1) else none
      | none => none
  | .look a asciiWords, ps => ps.filter fun i => a.holds asciiWords (charBefore text i) text[i]?
  | .seq a b, ps => ends text b (ends text a ps)
  | .alt a b, ps => merge (ends text a ps) (ends text b ps)
  | .repeat body least most, ps =>
    let base := iterate (ends text body) least ps
    let further := match most with | some m => m - least | none => text.size + 1
    grow (ends text body) (min further (text.size + 1)) base

/-- Whether the pattern matches somewhere in a text. -/
def matchesIn (p : Pattern) (text : List Char) : Bool :=
  let text := text.toArray
  !(ends text p (List.range (text.size + 1))).isEmpty

/-- About how many bytes the compiled pattern takes. -/
def weight : Pattern → Nat
  | .empty => 32
  | .chars set => set.weight
  | .look _ _ => 32
  | .seq a b => a.weight + b.weight
  | .alt a b => a.weight + b.weight + 40
  | .repeat body least most =>
    match most with
    | some m => body.weight * max m 1 + 72 * (m - least)
    | none => body.weight * max least 1 + 40

end Pattern
end BraceTemplate
