import BraceTemplate.Document
import BraceTemplate.Expression.Spelling
import BraceTemplate.Outcome

/- Events of a token list: a text, a comment, an interpolation, or a tag that opens, closes
   or does both. `Event.next` reads one event from the front of the tokens and leaves fewer
   tokens behind. A token list is read up to its first end of input, which is handed along
   as `eof` and is blamed when the tokens run out. -/
namespace BraceTemplate

/-- Why tokens do not form a document. -/
inductive ParseFault where
  | unexpected (expected found : String)
  | mismatchedClose (opened written : String)
  | strayClose (name : String)
  | headerAfterContent (name : String)
  | duplicateHeader (expected name : String)
  | headerNotSelfClosing (name : String)
  | nestingTooDeep (name : String)
  deriving DecidableEq, Repr

structure ParseError where
  fault : ParseFault
  pos : Position
  deriving DecidableEq, Repr

def ParseError.unexpected (expected : String) (found : Token) : ParseError :=
  ⟨.unexpected expected found.describe, found.pos⟩

inductive Event where
  | text (value : String) (pos : Position)
  | comment (value : String) (pos : Position)
  | interpolation (site : Interpolation)
  | selfClosing (tag : Tag)
  | opening (tag : Tag)
  | closing (name : String) (pos : Position)
  deriving DecidableEq, Repr

namespace Event

open Spelling (Operand Argument Call)

/-- The token in front, or the end of input. -/
def front (eof : Token) : List Token → Token
  | [] => eof
  | t :: _ => t

/-- What is read leaves fewer tokens than there were. -/
def Shortens {α : Type} (ts : List Token) (result : Except ParseError (α × List Token)) : Prop :=
  ∀ a r, result = .ok (a, r) → r.length < ts.length

namespace Shortens
variable {α β : Type} {ts r : List Token} {x : Except ParseError (α × List Token)}

theorem error (e : ParseError) : Shortens (α := α) ts (.error e) := nofun

theorem ok {a : α} (h : r.length < ts.length) : Shortens ts (.ok (a, r)) := by
  rintro _ _ ⟨⟩
  exact h

theorem cons {t : Token} (h : Shortens ts x) : Shortens (t :: ts) x :=
  fun a r hx => Nat.lt_succ_of_lt (h a r hx)

theorem map (f : α → β) (h : Shortens ts x) : Shortens ts (x.map fun p => (f p.1, p.2)) := by
  intro b r hx
  obtain ⟨⟨a, r'⟩, ha, heq⟩ := Outcome.map_eq_ok.mp hx
  cases heq
  exact h a r' ha

end Shortens

/-! Interpolations. -/

mutual
/-- The calls behind a head or behind a whole call, up to the closing brace. -/
def calls (eof : Token) : List Token → Except ParseError (List Call × List Token)
  | [] => .error (.unexpected "'|' or '\x7d'" eof)
  | t :: rest =>
    if t.kind = .rightBrace then .ok ([], rest)
    else if t.kind = .pipe then
      match rest with
      | [] => .error (.unexpected "filter name" eof)
      | name :: rest =>
        if name.kind = .ident then
          match rest with
          | [] => .error (.unexpected "'|' or '\x7d'" eof)
          | sep :: more =>
            if sep.kind = .colon then arguments eof name.text [] more
            else (calls eof (sep :: more)).map fun (cs, r) => (⟨name.text, []⟩ :: cs, r)
        else .error (.unexpected "filter name" name)
    else .error (.unexpected "'|' or '\x7d'" t)

/-- The arguments of a call, of which some are read, and the calls behind it. -/
def arguments (eof : Token) (filter : String) (done : List Argument) :
    List Token → Except ParseError (List Call × List Token)
  | [] => .error (.unexpected "filter argument" eof)
  | t :: rest =>
    match Operand.ofToken? t with
    | none => .error (.unexpected "filter argument" t)
    | some value =>
      match rest with
      | [] => .error (.unexpected "'|' or '\x7d'" eof)
      | eq :: more =>
        if t.kind = .ident ∧ eq.kind = .equal then
          match more with
          | [] => .error (.unexpected "argument value" eof)
          | v :: more =>
            match Operand.ofToken? v with
            | some named => moreArguments eof filter (done ++ [⟨some t.text, named⟩]) more
            | none => .error (.unexpected "argument value" v)
        else moreArguments eof filter (done ++ [⟨none, value⟩]) (eq :: more)

/-- A comma announces a further argument; anything else ends the call. -/
def moreArguments (eof : Token) (filter : String) (done : List Argument) :
    List Token → Except ParseError (List Call × List Token)
  | [] => .error (.unexpected "'|' or '\x7d'" eof)
  | t :: rest =>
    if t.kind = .comma then arguments eof filter done rest
    else (calls eof (t :: rest)).map fun (cs, r) => (⟨filter, done⟩ :: cs, r)
end

/-- An interpolation behind its opening brace. -/
def spelling (eof : Token) (tokens : List Token) : Except ParseError (Spelling × List Token) :=
  match tokens with
  | [] => .error (.unexpected "variable path" eof)
  | head :: rest =>
    match Operand.ofToken? head with
    | some operand => (calls eof rest).map fun (cs, r) => (⟨operand, cs⟩, r)
    | none => .error (.unexpected "variable path" head)

/-- Reading calls uses up tokens. -/
theorem chain_shorter (eof : Token) :
    (∀ ts, Shortens ts (calls eof ts)) ∧
    (∀ filter done ts, Shortens ts (arguments eof filter done ts)) ∧
    (∀ filter done ts, Shortens ts (moreArguments eof filter done ts)) := by
  apply calls.mutual_induct
  -- nothing is read
  case case1 | case3 | case4 | case7 | case8 =>
    intros
    rw [calls.eq_def]
    simpa [*] using .error _
  case case9 | case10 | case11 | case12 | case14 =>
    intros
    rw [arguments.eq_def]
    simpa [*] using .error _
  case case16 =>
    intro filter done
    simpa [moreArguments] using .error _
  -- the brace that closes the interpolation is left out
  case case2 =>
    intro t rest hclose
    rw [calls.eq_def]
    simpa [hclose] using .ok (Nat.lt_succ_self _)
  -- more is read
  case case5 =>
    intro t hclose hpipe name hname sep rest hsep ih
    rw [calls.eq_def]
    simpa [hpipe, hname, hsep] using ih.cons.cons.cons
  case case6 =>
    intro t hclose hpipe name hname sep rest hsep ih
    rw [calls.eq_def]
    simpa [hpipe, hname, hsep] using (ih.map (Call.mk name.text [] :: ·)).cons.cons
  case case13 =>
    intro filter done t value ht eq hnamed v rest named hv ih
    simpa [arguments, ht, hnamed, hv] using ih.cons.cons.cons
  case case15 =>
    intro filter done t value ht eq rest hplain ih
    simpa [arguments, ht, hplain] using ih.cons
  case case17 =>
    intro filter done t rest hcomma ih
    simpa [moreArguments, hcomma] using ih.cons
  case case18 =>
    intro filter done t rest hcomma ih
    simpa [moreArguments, hcomma] using ih.map (Call.mk filter done :: ·)

theorem spelling_shorter (eof : Token) (ts : List Token) : Shortens ts (spelling eof ts) := by
  cases ts with
  | nil => exact .error _
  | cons head rest =>
    rw [spelling]
    split
    · rename_i operand _
      exact (((chain_shorter eof).1 rest).map (Spelling.mk operand)).cons
    · exact .error _

/-- The site of an interpolation that opens at a position. -/
def interpolationAt (eof : Token) (pos : Position) (tokens : List Token) :
    Except ParseError (Interpolation × List Token) :=
  (spelling eof tokens).map fun (s, r) => (⟨s.text, pos⟩, r)

theorem interpolationAt_shorter (eof : Token) (pos : Position) (ts : List Token) :
    Shortens ts (interpolationAt eof pos ts) :=
  (spelling_shorter eof ts).map fun s : Spelling => Interpolation.mk s.text pos

/-! Tags. -/

/-- The value of an attribute that one token gives. -/
def plainValue? (t : Token) : Option AttrValue :=
  match t.kind, t.payload with
  | .string, .str s => some (.str s)
  | .ident, .str s => some (.str s)
  | .number, .int n => some (.int n)
  | .number, .float x => some (.float x)
  | .bool, .bool b => some (.bool b)
  | .null, _ => some .null
  | _, _ => none

/-- The value behind an equal sign. -/
def attrValue (eof : Token) (tokens : List Token) : Except ParseError (AttrValue × List Token) :=
  match tokens with
  | [] => .error (.unexpected "attribute value" eof)
  | t :: rest =>
    if t.kind = .leftBrace then
      (interpolationAt eof t.pos rest).map fun (i, r) => (.interpolation i, r)
    else
      match plainValue? t with
      | some v => .ok (v, rest)
      | none => .error (.unexpected "attribute value" t)

theorem attrValue_shorter (eof : Token) (ts : List Token) : Shortens ts (attrValue eof ts) := by
  cases ts with
  | nil => exact .error _
  | cons t rest =>
    rw [attrValue]
    split
    · exact ((interpolationAt_shorter eof t.pos rest).map AttrValue.interpolation).cons
    · split
      · exact .ok (Nat.lt_succ_self _)
      · exact .error _

/-- One attribute behind its name: a value behind an equal sign, or true. -/
def attrBehind (eof : Token) (tokens : List Token) : Except ParseError (AttrValue × List Token) :=
  match tokens with
  | [] => .ok (.bool true, [])
  | t :: rest => if t.kind = .equal then attrValue eof rest else .ok (.bool true, t :: rest)

theorem attrBehind_le {eof : Token} {ts : List Token} {v : AttrValue} {r : List Token}
    (h : attrBehind eof ts = .ok (v, r)) : r.length ≤ ts.length := by
  cases ts with
  | nil =>
    cases h
    exact Nat.le_refl _
  | cons t rest =>
    rw [attrBehind] at h
    split at h
    · exact Nat.le_of_lt ((attrValue_shorter eof rest).cons v r h)
    · cases h
      exact Nat.le_refl _

/-- The attributes of a tag up to its closing brace, and whether a slash stands before the
    brace. An attribute written again keeps its place and takes the new value. -/
def attributes (eof : Token) (done : List (String × AttrValue)) (tokens : List Token) :
    Except ParseError (List (String × AttrValue) × Bool × List Token) :=
  match tokens with
  | [] => .error (.unexpected "attribute name, '/' or '\x7d'" eof)
  | t :: rest =>
    match t.kind with
    | .rightBrace => .ok (done, false, rest)
    | .slash =>
      match rest with
      | [] => .error (.unexpected "'\x7d' after '/'" eof)
      | close :: more =>
        if close.kind = .rightBrace then .ok (done, true, more)
        else .error (.unexpected "'\x7d' after '/'" close)
    | .ident =>
      match _h : attrBehind eof rest with
      | .error e => .error e
      | .ok (v, r) => attributes eof (Table.insert done t.text v) r
    | _ => .error (.unexpected "attribute name, '/' or '\x7d'" t)
  termination_by tokens.length
  decreasing_by
    have := attrBehind_le _h
    simp only [List.length_cons]; omega

/-- Reading attributes uses up tokens, whatever is made of them and of the mark behind them. -/
theorem attributes_shorter {α : Type} (make : List (String × AttrValue) → Bool → α) (eof : Token)
    (done : List (String × AttrValue)) (ts : List Token) :
    Shortens ts ((attributes eof done ts).map fun p => (make p.1 p.2.1, p.2.2)) := by
  fun_induction attributes eof done ts with
  | case1 | case3 | case5 | case6 | case8 => exact .error _
  | case2 done t rest hkind => exact .ok (Nat.lt_succ_self _)
  | case4 done t hkind close more hclose => exact .ok (by simp only [List.length_cons]; omega)
  | case7 done t rest hkind v r hbehind ih =>
    intro a r' hr'
    have hless := ih a r' hr'
    have hbound := attrBehind_le hbehind
    simp only [List.length_cons]
    omega

/-! Brace groups. -/

/-- An expression's head is a path when it has a point, a bracket or a question mark. -/
def isPath (head : String) : Bool := head.toList.any fun c => c = '.' || c = '[' || c = '?'

/-- The group behind an opening brace: a closing tag, an interpolation or a tag. -/
def group (eof : Token) (brace : Position) (tokens : List Token) :
    Except ParseError (Event × List Token) :=
  match tokens with
  | [] => .error (.unexpected "tag name or expression" eof)
  | t :: rest =>
    if t.kind = .slash then
      match rest with
      | [] => .error (.unexpected "closing tag name" eof)
      | name :: rest =>
        if name.kind = .ident then
          match rest with
          | [] => .error (.unexpected "'\x7d'" eof)
          | close :: more =>
            if close.kind = .rightBrace then .ok (.closing name.text brace, more)
            else .error (.unexpected "'\x7d'" close)
        else .error (.unexpected "closing tag name" name)
    else if t.kind = .ident then
      if isPath t.text || (front eof rest).kind = .pipe then
        (interpolationAt eof brace (t :: rest)).map fun (i, r) => (.interpolation i, r)
      else
        (attributes eof [] rest).map fun (as, self, r) =>
          (if self then .selfClosing ⟨t.text, as, true, brace⟩
            else .opening ⟨t.text, as, false, brace⟩, r)
    else if t.kind.isLiteral then
      (interpolationAt eof brace (t :: rest)).map fun (i, r) => (.interpolation i, r)
    else .error (.unexpected "tag name or expression" t)

theorem group_shorter (eof : Token) (brace : Position) (ts : List Token) :
    Shortens ts (group eof brace ts) := by
  fun_cases group eof brace ts with
  | case1 | case2 | case3 | case5 | case6 | case10 => exact .error _
  | case4 => exact .ok (by simp only [List.length_cons]; omega)
  | case7 | case9 => exact (interpolationAt_shorter eof brace _).map Event.interpolation
  | case8 t rest =>
    exact (attributes_shorter (fun as self => if self then Event.selfClosing ⟨t.text, as, true, brace⟩
      else .opening ⟨t.text, as, false, brace⟩) eof [] rest).cons

/-- The event that begins with a token, and the tokens behind it. -/
def next (eof : Token) (t : Token) (rest : List Token) : Except ParseError (Event × List Token) :=
  match t.kind with
  | .text => .ok (.text t.text t.pos, rest)
  | .comment => .ok (.comment t.text t.pos, rest)
  | .leftBrace => group eof t.pos rest
  | _ => .error (.unexpected "text or '\x7b'" t)

theorem next_le {eof t : Token} {rest : List Token} {e : Event} {r : List Token}
    (h : next eof t rest = .ok (e, r)) : r.length ≤ rest.length := by
  unfold next at h
  split at h
  · cases h
    exact Nat.le_refl _
  · cases h
    exact Nat.le_refl _
  · exact Nat.le_of_lt (group_shorter eof t.pos rest e r h)
  · cases h

/-- The events of a token list, up to the first token that begins none. -/
def all (eof : Token) (tokens : List Token) : List Event × Option ParseError :=
  match tokens with
  | [] => ([], none)
  | t :: rest =>
    match _h : next eof t rest with
    | .error e => ([], some e)
    | .ok (event, r) =>
      let (events, failure) := all eof r
      (event :: events, failure)
  termination_by tokens.length
  decreasing_by
    have := next_le _h
    simp only [List.length_cons]; omega

end Event
end BraceTemplate
