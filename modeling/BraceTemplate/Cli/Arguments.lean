import BraceTemplate.Table
import BraceTemplate.Text.Trim

/- Arguments of the command line: options, a command, and the options and operands of the
   command. The common options may stand before and behind the command; what stands behind
   it counts. -/
namespace BraceTemplate
namespace Cli

/-- The common options. -/
structure Flags where
  profile : Option String
  cms : Option String
  platform : Option String
  mode : Option String
  manifests : List String
  config : Option String
  deriving DecidableEq, Repr

inductive Command where
  | compile (file : String) (json : Bool)
  | tokens (file : String) (json : Bool)
  | schema
  | components (category : Option String)
  | filters
  | manifests
  deriving DecidableEq, Repr

/-- Why no command is run: the version or help is asked for, or the arguments are wrong. -/
inductive Stop where
  | version
  | help
  | usage
  deriving DecidableEq, Repr

/-- The options that take a value, everywhere. -/
def commonOptions : List String := ["profile", "cms", "platform", "mode", "manifest", "config"]

/-- The options whose value is a path, which cannot be empty. -/
def pathOptions : List String := ["manifest", "config"]

/-- The only option that may be repeated. -/
def repeatedOption : String := "manifest"

/-- What a command takes beside the common options. -/
structure Shape where
  options : List String
  switches : List String
  operands : Nat
  deriving DecidableEq, Repr

def shapes : List (String × Shape) :=
  [("compile", ⟨[], ["json"], 1⟩), ("tokens", ⟨[], ["json"], 1⟩), ("schema", ⟨[], [], 0⟩),
   ("components", ⟨["category"], [], 0⟩), ("filters", ⟨[], [], 0⟩), ("manifests", ⟨[], [], 0⟩)]

/-- What is given at one level: before the command or behind it. -/
structure Given where
  options : List (String × String)
  switches : List String
  operands : List String
  deriving DecidableEq, Repr

namespace Given

def none : Given := ⟨[], [], []⟩

def option? (g : Given) (name : String) : Option String := Table.lookup name g.options

def manifests (g : Given) : List String :=
  (g.options.filter (·.1 = repeatedOption)).map (·.2)

/-- Adds the value of an option, unless it is there already or is an empty path. -/
def addOption (g : Given) (name value : String) : Except Stop Given :=
  if (g.option? name).isSome && name != repeatedOption then .error .usage
  else if pathOptions.contains name && value.isEmpty then .error .usage
  else .ok { g with options := g.options ++ [(name, value)] }

def addSwitch (g : Given) (name : String) : Except Stop Given :=
  if g.switches.contains name then .error .usage
  else .ok { g with switches := g.switches ++ [name] }

end Given

/-- What an argument looks like. -/
inductive Word where
  | divider
  | long (name : String) (value : Option String)
  | short (letters : List Char)
  | plain (text : String)
  deriving DecidableEq, Repr

def Word.read (text : String) : Word :=
  match text.toList with
  | ['-', '-'] => .divider
  | '-' :: '-' :: rest =>
    match Text.splitOnce '=' rest with
    | some (name, value) => .long (String.ofList name) (some (String.ofList value))
    | none => .long (String.ofList rest) none
  | '-' :: c :: rest => .short (c :: rest)
  | _ => .plain text

/-- A short option asks for help, or before the command for the version. -/
def shortStop (top : Bool) : List Char → Stop
  | 'h' :: _ => .help
  | 'V' :: _ => if top then .version else .usage
  | _ => .usage

/-- A long option without a value that is no switch of the command. -/
def longStop (top : Bool) (name : String) : Stop :=
  if name = "help" then .help
  else if top && name = "version" then .version
  else .usage

/-- Reads the options and operands of a command. Behind a divider all are operands. -/
def readCommand (shape : Shape) (g : Given) : List String → Except Stop Given
  | [] => .ok g
  | text :: rest =>
    let operand (text : String) : Except Stop Given :=
      if text.isEmpty || shape.operands ≤ g.operands.length then .error .usage
      else .ok { g with operands := g.operands ++ [text] }
    match Word.read text with
    | .divider =>
      if g.operands.length + rest.length ≤ shape.operands && !rest.contains "" then
        .ok { g with operands := g.operands ++ rest }
      else .error .usage
    | .short letters => .error (shortStop false letters)
    | .plain text =>
      match operand text with
      | .error e => .error e
      | .ok g => readCommand shape g rest
    | .long name value? =>
      if commonOptions.contains name || shape.options.contains name then
        match value?, rest with
        | some value, rest =>
          match g.addOption name value with
          | .error e => .error e
          | .ok g => readCommand shape g rest
        | none, value :: rest =>
          match Word.read value with
          | .plain value =>
            match g.addOption name value with
            | .error e => .error e
            | .ok g => readCommand shape g rest
          | _ => .error .usage
        | none, [] => .error .usage
      else if shape.switches.contains name && value?.isNone then
        match g.addSwitch name with
        | .error e => .error e
        | .ok g => readCommand shape g rest
      else .error (if value?.isNone then longStop false name else .usage)

/-- Reads the options before the command, its name, and leaves what stands behind it. -/
def readTop (g : Given) : List String → Except Stop (Given × String × List String)
  | [] => .error .usage
  | text :: rest =>
    match Word.read text with
    | .divider => .error .usage
    | .short letters => .error (shortStop true letters)
    | .plain name =>
      if (Table.lookup name shapes).isSome then .ok (g, name, rest)
      else if name = "help" then .error .help
      else .error .usage
    | .long name value? =>
      if commonOptions.contains name then
        match value?, rest with
        | some value, rest =>
          match g.addOption name value with
          | .error e => .error e
          | .ok g => readTop g rest
        | none, value :: rest =>
          match Word.read value with
          | .plain value =>
            match g.addOption name value with
            | .error e => .error e
            | .ok g => readTop g rest
          | _ => .error .usage
        | none, [] => .error .usage
      else .error (if value?.isNone then longStop true name else .usage)

/-- The common options: for each of them what stands behind the command, if it is there. -/
def Flags.ofGiven (before behind : Given) : Flags :=
  let last (name : String) : Option String := (behind.option? name).or (before.option? name)
  { profile := last "profile"
    cms := last "cms"
    platform := last "platform"
    mode := last "mode"
    manifests := if behind.manifests.isEmpty then before.manifests else behind.manifests
    config := last "config" }

def Command.ofGiven? (name : String) (g : Given) : Option Command :=
  let json := g.switches.contains "json"
  match name, g.operands with
  | "compile", [file] => some (.compile file json)
  | "tokens", [file] => some (.tokens file json)
  | "schema", [] => some .schema
  | "components", [] => some (.components (g.option? "category"))
  | "filters", [] => some .filters
  | "manifests", [] => some .manifests
  | _, _ => none

/-- Reads the arguments of the program. -/
def readArguments (args : List String) : Except Stop (Flags × Command) := do
  let (before, name, rest) ← readTop Given.none args
  match Table.lookup name shapes with
  | none => .error .usage
  | some shape =>
    let behind ← readCommand shape Given.none rest
    match Command.ofGiven? name behind with
    | some command => .ok (Flags.ofGiven before behind, command)
    | none => .error .usage

end Cli
end BraceTemplate
