import BraceTemplate.Document.Event
import BraceTemplate.Token.Lexer

/- Building a document from events. The tags that are open form a stack. Closing a tag moves
   it into its parent. At the end of input a tag that is still open is taken for an empty one,
   and what followed it becomes its siblings. Headers are taken out of the tree. -/
namespace BraceTemplate

def cmsHeaderName : String := "ikb_cms"

def platformHeaderName : String := "ikb_platform"

/-- How many tags may be open at once. -/
def maxOpenTags : Nat := 512

/-- An open tag and the content read for it so far. -/
structure OpenTag where
  tag : Tag
  children : List Node
  deriving Repr, Inhabited

/-- A document under construction; the innermost open tag comes first. -/
structure Builder where
  stack : List OpenTag
  roots : List Node
  cms : Option CmsHeader
  platform : Option PlatformHeader
  started : Bool
  deriving Repr, Inhabited

namespace Builder

def empty : Builder := ⟨[], [], none, none, false⟩

/-- Adds a node behind the content of the innermost open tag. -/
def push (b : Builder) (n : Node) : Builder :=
  match b.stack with
  | [] => { b with roots := b.roots ++ [n] }
  | top :: outer => { b with stack := { top with children := top.children ++ [n] } :: outer }

def start (b : Builder) : Builder := { b with started := true }

def isHeader (name : String) : Bool := name == cmsHeaderName || name == platformHeaderName

/-- The items of an attribute that holds a list. -/
def listAttr (t : Tag) (name : String) : List String :=
  match t.attr? name with
  | some v => (Text.commaList v.plainText.toList).map String.ofList
  | none => []

def textAttr (t : Tag) (name : String) : Option String := (t.attr? name).map AttrValue.plainText

def cmsHeader (t : Tag) : CmsHeader := ⟨textAttr t "type", listAttr t "set", t.pos⟩

def platformHeader (t : Tag) : PlatformHeader :=
  ⟨textAttr t "type", listAttr t "targets", textAttr t "version", t.pos⟩

/-- Takes a header out: it stands before all content and outside all tags, closes itself,
    and is the only one of its kind. -/
def declare (b : Builder) (t : Tag) : Except ParseError Builder :=
  if b.started || !b.stack.isEmpty then .error ⟨.headerAfterContent t.name, t.pos⟩
  else if !t.selfClosing then .error ⟨.headerNotSelfClosing t.name, t.pos⟩
  else if t.name = cmsHeaderName then
    if b.cms.isSome then .error ⟨.duplicateHeader "a single CMS header" t.name, t.pos⟩
    else .ok { b with cms := some (cmsHeader t) }
  else
    if b.platform.isSome then .error ⟨.duplicateHeader "a single platform header" t.name, t.pos⟩
    else .ok { b with platform := some (platformHeader t) }

def opening (b : Builder) (t : Tag) : Except ParseError Builder :=
  if maxOpenTags ≤ b.stack.length then .error ⟨.nestingTooDeep t.name, t.pos⟩
  else .ok { b with stack := ⟨t, []⟩ :: b.stack, started := true }

def closing (b : Builder) (name : String) (pos : Position) : Except ParseError Builder :=
  match b.stack with
  | [] => .error ⟨.strayClose name, pos⟩
  | top :: outer =>
    if top.tag.name = name then
      .ok (({ b with stack := outer }).push (.tag top.tag top.children))
    else .error ⟨.mismatchedClose top.tag.name name, pos⟩

def isBlank (text : String) : Bool := text.toList.all Text.isWhitespace

def add (b : Builder) : Event → Except ParseError Builder
  | .text v p => .ok ((if isBlank v then b else b.start).push (.text v p))
  | .comment v p => .ok (b.push (.comment v p))
  | .interpolation i => .ok (b.start.push (.interpolation i))
  | .selfClosing t => if isHeader t.name then b.declare t else .ok (b.start.push (.tag t []))
  | .opening t => if isHeader t.name then b.declare t else b.opening t
  | .closing name pos => b.closing name pos

def addAll (b : Builder) : List Event → Except ParseError Builder
  | [] => .ok b
  | e :: rest =>
    match b.add e with
    | .ok b => b.addAll rest
    | .error f => .error f

/-- The nodes that the open tags leave behind: each as an empty tag before its content. -/
def hoist : List OpenTag → List Node → List Node
  | [], nodes => nodes
  | top :: outer, nodes => hoist outer (.tag top.tag [] :: (top.children ++ nodes))

def finish (b : Builder) : Document where
  preamble := ⟨b.cms, b.platform, b.stack.reverse.map fun o => ⟨o.tag.name, o.tag.pos⟩⟩
  children := b.roots ++ hoist b.stack []

end Builder

/-- The tokens before the first end of input, and that end; a list without one ends where
    its last token starts. -/
def Token.cut (tokens : List Token) : List Token × Token :=
  let before := tokens.takeWhile (·.kind != .eof)
  match tokens.drop before.length with
  | eof :: _ => (before, eof)
  | [] =>
    let pos := (tokens.getLast?.map Token.pos).getD Position.start
    (before, ⟨.eof, .none, pos⟩)

/-- The document of a token list. -/
def Document.ofTokens (tokens : List Token) : Except ParseError Document :=
  let (before, eof) := Token.cut tokens
  let (events, failure) := Event.all eof before
  match Builder.empty.addAll events with
  | .error e => .error e
  | .ok b =>
    match failure with
    | some e => .error e
    | none => .ok b.finish

namespace ParseFault

/-- The kind of a fault as an identifier. -/
def name : ParseFault → String
  | .unexpected .. => "Unexpected"
  | .mismatchedClose .. => "MismatchedClose"
  | .strayClose .. => "StrayClose"
  | .headerAfterContent .. => "HeaderAfterContent"
  | .duplicateHeader .. => "DuplicateHeader"
  | .headerNotSelfClosing .. => "HeaderNotSelfClosing"
  | .nestingTooDeep .. => "NestingTooDeep"

def title : ParseFault → String
  | .unexpected .. => "unexpected token"
  | .mismatchedClose .. => "mismatched closing tag"
  | .strayClose .. => "closing tag without an open tag"
  | .headerAfterContent .. => "header declared after content"
  | .duplicateHeader .. => "duplicate header"
  | .headerNotSelfClosing .. => "header must be self-closing"
  | .nestingTooDeep .. => "tags nested too deeply"

def closingText (name : String) : String := "\x7b/" ++ name ++ "\x7d"

def openingText (name : String) : String := "\x7b" ++ name ++ "\x7d"

/-- What could have stood at the fault. -/
def expected : ParseFault → String
  | .unexpected expected _ => expected
  | .mismatchedClose opened _ => closingText opened
  | .strayClose _ => "an open tag"
  | .headerAfterContent _ => "header before any content"
  | .duplicateHeader expected _ => expected
  | .headerNotSelfClosing _ => "self-closing header"
  | .nestingTooDeep _ => "at most " ++ toString maxOpenTags ++ " nested tags"

/-- What stands at the fault. -/
def found : ParseFault → String
  | .unexpected _ found => found
  | .mismatchedClose _ written => closingText written
  | .strayClose name => closingText name
  | .headerAfterContent name => openingText name
  | .duplicateHeader _ name => "\x7b" ++ name ++ " /\x7d"
  | .headerNotSelfClosing name => openingText name
  | .nestingTooDeep name => openingText name

def message (f : ParseFault) : String :=
  f.title ++ ": expected " ++ f.expected ++ ", found " ++ f.found

end ParseFault

/-- Why a source text has no document. -/
inductive TemplateError where
  | lexical (error : LexError)
  | structural (error : ParseError)
  deriving DecidableEq, Repr

namespace TemplateError

def pos : TemplateError → Position
  | .lexical e => e.pos
  | .structural e => e.pos

/-- The error with its place, in one line. -/
def message (e : TemplateError) : String :=
  let place := " at line " ++ toString e.pos.line ++ ", column " ++ toString e.pos.column
  match e with
  | .lexical f => "Lex error: " ++ f.fault.message ++ place
  | .structural f => "Parse error: " ++ f.fault.message ++ place

end TemplateError

/-- The document of a source text. -/
def Document.parse (source : String) : Except TemplateError Document :=
  match tokenize source with
  | .error e => .error (.lexical e)
  | .ok tokens =>
    match Document.ofTokens tokens with
    | .error e => .error (.structural e)
    | .ok d => .ok d

end BraceTemplate
