import BraceTemplate.Url.Host

/- Addresses. Reading follows the standard of the web: the scheme is lower-cased, dots in
   paths are resolved, default ports are dropped, and characters out of place are
   percent-encoded. An address without a scheme is relative and is reported as such. -/
namespace BraceTemplate

inductive Url.PathForm where
  | rootless (text : List Char)
  | segments (items : List (List Char))
  deriving DecidableEq, Repr

structure Url where
  scheme : List Char
  authority : Option (List Char × Option Url.Host × Option Nat)
  path : Url.PathForm
  query : Option (List Char)
  fragment : Option (List Char)
  deriving DecidableEq, Repr

namespace Url

/-- What reading an address comes to. -/
inductive Reading where
  | absolute (url : Url)
  | relative
  | invalid
  deriving DecidableEq, Repr

inductive SchemeKind where
  | file
  | special
  | other
  deriving DecidableEq, Repr

/-- The schemes of the web and their default ports. -/
def specialSchemes : List (String × Nat) :=
  [("http", 80), ("https", 443), ("ws", 80), ("wss", 443), ("ftp", 21)]

def kindOf (scheme : List Char) : SchemeKind :=
  if String.ofList scheme = "file" then .file
  else if specialSchemes.any fun s => s.1 = String.ofList scheme then .special
  else .other

def defaultPort? (scheme : List Char) : Option Nat :=
  (specialSchemes.find? fun s => s.1 = String.ofList scheme).map (·.2)

def isIgnored (c : Char) : Bool := c = '\t' || c = '\n' || c = '\r'

/-- The text without control characters and blanks at its ends, and without tabs and line
    ends anywhere. -/
def clean (text : List Char) : List Char :=
  let isEdge (c : Char) : Bool := c.toNat ≤ 32
  (((text.dropWhile isEdge).reverse.dropWhile isEdge).reverse).filter (!isIgnored ·)

def isSchemeChar (c : Char) : Bool := c.isAlphanum || c = '+' || c = '-' || c = '.'

/-- The scheme in front of a clean text, and what stands behind its colon. -/
def splitScheme? (text : List Char) : Option (List Char × List Char) :=
  match text.takeWhile isSchemeChar, text.dropWhile isSchemeChar with
  | c :: rest, ':' :: after => if c.isAlpha then some ((c :: rest).map Char.toLower, after) else none
  | _, _ => none

def isSlash (kind : SchemeKind) (c : Char) : Bool := c = '/' || (c = '\\' && kind != .other)

def endsAuthority (kind : SchemeKind) (c : Char) : Bool := isSlash kind c || c = '?' || c = '#'

/-! User information, host and port. -/

/-- Name and password as they are written in front of the host. -/
def userText (text : List Char) : List Char :=
  let name := text.takeWhile (· != ':')
  let password := (text.dropWhile (· != ':')).drop 1
  let written := encode inUserSet name ++
    (if password.isEmpty then [] else ':' :: encode inUserSet password)
  if written.isEmpty then [] else written ++ ['@']

/-- The user information in front of the last at sign of an authority, and what is behind. -/
def splitUser (authority : List Char) : Option (List Char × List Char) :=
  let behind := (authority.reverse.takeWhile (· != '@')).reverse
  if authority.contains '@' then some (authority.take (authority.length - behind.length - 1), behind)
  else none

/-- The host in front of a port: a colon inside brackets is part of the host. -/
def splitPort : Bool → List Char → List Char × Option (List Char)
  | _, [] => ([], none)
  | inside, c :: rest =>
    if c = ':' && !inside then ([], some rest)
    else
      let (host, port) := splitPort (c = '[' || (inside && c != ']')) rest
      (c :: host, port)

/-- A port of at most 16 bits; none when it is empty or the default. -/
def port? (scheme text : List Char) : Option (Option Nat) :=
  if !text.all Char.isDigit then none
  else if text.isEmpty then some none
  else
    let n := text.foldl (fun n c => n * 10 + (c.toNat - 48)) 0
    if 65535 < n then none
    else if defaultPort? scheme = some n then some none
    else some (some n)

/-- The host as its kind of scheme demands; an empty text is no host. -/
def host? (kind : SchemeKind) (text : List Char) : Option (Option Host) :=
  if text.isEmpty then (if kind = .special then none else some none)
  else if kind = .other then (Host.readOpaque? text).map some
  else (Host.readSpecial? text).map some

/-- Reads an authority: user, host and port. `next` is what stands behind it. -/
def authority? (kind : SchemeKind) (scheme authority next : List Char) :
    Option (List Char × Option Host × Option Nat) := do
  let (user, rest) ←
    match splitUser authority with
    | none => some ([], authority)
    | some ([], behind) => if behind.isEmpty && !next.isEmpty then none else some ([], behind)
    | some (user, behind) => some (userText user, behind)
  let (hostText, portText) := splitPort false rest
  let host ← host? kind hostText
  if host.isNone && (portText.isSome || !user.isEmpty) then none
  else
    let port ←
      match portText with
      | none => some none
      | some p => port? scheme p
    return (user, host, port)

/-! Paths. -/

/-- A dot may be written as a percent triple. -/
def plainDots : List Char → List Char
  | '%' :: '2' :: 'e' :: rest => '.' :: plainDots rest
  | '%' :: '2' :: 'E' :: rest => '.' :: plainDots rest
  | c :: rest => c :: plainDots rest
  | [] => []

def isDriveLetter (text : List Char) : Bool :=
  match text with
  | [c, d] => c.isAlpha && (d = ':' || d = '|')
  | _ => false

/-- The segments without the last one; the letter of a drive is never left. -/
def goBack (done : List (List Char)) : List (List Char) :=
  match done.getLast? with
  | some s => if isDriveLetter s then done else done.dropLast
  | none => []

/-- Adds a segment behind those read; one dot stays, two dots go back. A segment of dots at
    the end leaves an empty one. -/
def addSegment (done : List (List Char)) (segment : List Char) (last : Bool) : List (List Char) :=
  let plain := plainDots segment
  if plain = ['.', '.'] then goBack done ++ (if last then [[]] else [])
  else if plain = ['.'] then done ++ (if last then [[]] else [])
  else done ++ [segment]

def resolve (done : List (List Char)) : List (List Char) → List (List Char)
  | [] => done
  | [s] => addSegment done s true
  | s :: rest => resolve (addSegment done s false) rest

/-- The segments of a path behind its first slash. -/
def segments (kind : SchemeKind) (text : List Char) : List (List Char) :=
  resolve [] ((Text.splitWhere (isSlash kind) text).map (encode inPathSet))

/-- The path of an address that has an authority. -/
def pathBehindAuthority (kind : SchemeKind) (text : List Char) : PathForm :=
  match text with
  | [] => .segments (if kind = .other then [] else [[]])
  | c :: rest => .segments (segments kind (if isSlash kind c then rest else c :: rest))

/-! Queries and fragments. -/

/-- Splits a text into what stands before a query or fragment, the query and the fragment. -/
def splitTail (text : List Char) : List Char × Option (List Char) × Option (List Char) :=
  let before := text.takeWhile fun c => c != '?' && c != '#'
  match text.drop before.length with
  | '?' :: rest =>
    let query := rest.takeWhile (· != '#')
    match rest.drop query.length with
    | '#' :: fragment => (before, some query, some fragment)
    | _ => (before, some query, none)
  | '#' :: fragment => (before, none, some fragment)
  | _ => (before, none, none)

def finish (kind : SchemeKind) (scheme : List Char)
    (authority : Option (List Char × Option Host × Option Nat)) (path : PathForm)
    (query fragment : Option (List Char)) : Url where
  scheme := scheme
  authority := authority
  path := path
  query := query.map (encode (if kind = .other then inQuerySet else inSpecialQuerySet))
  fragment := fragment.map (encode inFragmentSet)

/-- Where the authority ends: at a slash, a query or a fragment, and also at a backslash
    behind the colon of a port. -/
def cutAuthority (kind : SchemeKind) (text : List Char) : List Char × List Char :=
  let authority := text.takeWhile (!endsAuthority kind ·)
  let rest := text.drop authority.length
  let behindUser := match splitUser authority with | some (_, b) => b | none => authority
  match splitPort false behindUser with
  | (_, some port) =>
    let surplus := port.dropWhile (· != '\\')
    if surplus.isEmpty then (authority, rest)
    else (authority.take (authority.length - surplus.length), '/' :: (surplus ++ rest))
  | _ => (authority, rest)

/-- An address with an authority, from behind the slashes. -/
def readAuthority (kind : SchemeKind) (scheme text : List Char) : Reading :=
  let (authority, rest) := cutAuthority kind text
  let (pathText, query, fragment) := splitTail rest
  match authority? kind scheme authority rest with
  | none => .invalid
  | some a => .absolute (finish kind scheme (some a) (pathBehindAuthority kind pathText) query fragment)

/-- An address of a file: the host may be empty, `localhost`, or left out before a drive. -/
def readFile (scheme text : List Char) : Reading :=
  let (before, query, fragment) := splitTail text
  let build (host : Option Host) (path : List Char) : Reading :=
    .absolute (finish .file scheme (some ([], host, none)) (pathBehindAuthority .file path) query fragment)
  match before with
  | a :: b :: rest =>
    if isSlash .file a && isSlash .file b then
      let hostText := rest.takeWhile (!isSlash .file ·)
      if hostText.isEmpty || isDriveLetter hostText then build none rest
      else
        match Host.readSpecial? hostText with
        | none => .invalid
        | some host =>
          build (if host.text = ['l', 'o', 'c', 'a', 'l', 'h', 'o', 's', 't'] then none else some host)
            (rest.drop hostText.length)
    else build none before
  | _ => build none before

/-- An address of any other scheme: with an authority, with a path, or without a root. -/
def readOther (scheme text : List Char) : Reading :=
  match text with
  | '/' :: '/' :: rest => readAuthority .other scheme rest
  | _ =>
    let (before, query, fragment) := splitTail text
    let path : PathForm :=
      match before with
      | '/' :: rest => .segments (segments .other rest)
      | other => .rootless (encode isControl other)
    .absolute (finish .other scheme none path query fragment)

/-- Reads an address that stands alone. -/
def read (text : List Char) : Reading :=
  match splitScheme? (clean text) with
  | none => .relative
  | some (scheme, rest) =>
    match kindOf scheme with
    | .file => readFile scheme rest
    | .special => readAuthority .special scheme (rest.dropWhile (isSlash .special))
    | .other => readOther scheme rest

/-! Writing. -/

def segmentsText (items : List (List Char)) : List Char := items.flatMap ('/' :: ·)

def authorityText (a : List Char × Option Host × Option Nat) : List Char :=
  ['/', '/'] ++ a.1 ++ (match a.2.1 with | some h => h.text | none => []) ++
    (match a.2.2 with | some p => ':' :: Nat.toDigits 10 p | none => [])

/-- A path that could be taken for an authority is kept apart by a dot. -/
def pathText (hasAuthority : Bool) : PathForm → List Char
  | .rootless t => t
  | .segments items =>
    let text := segmentsText items
    if !hasAuthority && ['/', '/'].isPrefixOf text then ['/', '.'] ++ text else text

def text (u : Url) : List Char :=
  u.scheme ++ ':' :: ((match u.authority with | some a => authorityText a | none => []) ++
    pathText u.authority.isSome u.path ++
    (match u.query with | some q => '?' :: q | none => []) ++
    (match u.fragment with | some f => '#' :: f | none => []))

end Url
end BraceTemplate
