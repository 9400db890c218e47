import BraceTemplate.Cli.Arguments
import BraceTemplate.Cli.Listing
import BraceTemplate.Cli.Path
import BraceTemplate.Compile
import BraceTemplate.Diagnostic.Excerpt
import BraceTemplate.Formats.Standard
import BraceTemplate.Registry.Export
import BraceTemplate.Token.Json
import BraceTemplate.Token.Lexer
import BraceTemplate.Toml

/- The program: what it prints and how it ends, given its arguments and a way to read files.
   Files are read in the order in which they are needed, and the first one that is missing
   or wrong ends the run with a message. -/
namespace BraceTemplate
namespace Cli

open Json

/-- A way to look at files, within a monad of its own. -/
structure Files (m : Type → Type) where
  isFile : String → m Bool
  read? : String → m (Option String)

/-- What a run prints, and the status with which it ends. -/
structure Outcome where
  status : Nat
  output : String
  errors : String
  deriving DecidableEq, Repr

namespace Outcome

def printed (text : String) : Outcome := ⟨0, text, ""⟩

def lines (ls : List String) : Outcome := printed (String.join (ls.map (· ++ "\n")))

def json (v : Value) : String := v.prettyText ++ "\n"

/-- The end of a run that cannot do its work. -/
def failed (message : String) : Outcome := ⟨1, "", "Error: " ++ message ++ "\n"⟩

end Outcome

def versionText : String := "ikb 0.1.0\n"

def helpText : String :=
  "IKB template compiler\n\nUsage: ikb [OPTIONS] <COMMAND>\n\nCommands:\n" ++
  "  compile     Compile a template and report diagnostics\n" ++
  "  tokens      Print the token stream of a template\n" ++
  "  schema      Print the JSON schema of the loaded registry\n" ++
  "  components  List components (restricted to --platform when given)\n" ++
  "  filters     List filters (restricted to --platform when given)\n" ++
  "  manifests   List the manifest sources merged into the registry\n"

/-- The configuration that is read when no other is named. -/
def defaultConfig : String := "ikb.toml"

/-! Options and registries. -/

variable {m : Type → Type} [Monad m]

/-- Reads a file that must be there. -/
def readFile (files : Files m) (what path : String) : ExceptT String m String := do
  match ← files.read? path with
  | some text => return text
  | none => throw ("Failed to read " ++ what ++ ": " ++ path)

/-- Reads a configuration. The manifests that it names lie in its own directory. -/
def readConfig (files : Files m) (path : String) : ExceptT String m Options := do
  let text ← readFile files "config file" path
  match (Toml.read? text).bind Options.ofTree? with
  | some o => return { o with manifests := o.manifests.map (Path.join (Path.parent path)) }
  | none => throw ("Invalid config file: " ++ path)

/-- The options of the configuration, if there is one. -/
def configured (files : Files m) (flags : Flags) : ExceptT String m Options := do
  match flags.config with
  | some path => readConfig files path
  | none =>
    if ← files.isFile defaultConfig then readConfig files defaultConfig else return Options.default

/-- The options with the flags, which count more than a configuration. -/
def Flags.apply (flags : Flags) (o : Options) : Except String Options := do
  let profile ←
    match flags.profile with
    | some name => (Profile.read name).mapError RegistryError.message
    | none => pure o.profile
  let cms ←
    match flags.cms with
    | some name => (Cms.read name).mapError RegistryError.message
    | none => pure o.cms
  let mode ←
    match flags.mode with
    | some name => SecurityMode.read name
    | none => pure o.mode
  return ⟨profile, cms, flags.platform.or o.platform, mode, o.manifests ++ flags.manifests⟩

def loadOptions (files : Files m) (flags : Flags) : ExceptT String m Options := do
  let o ← configured files flags
  match flags.apply o with
  | .ok o => return o
  | .error e => throw e

/-- Reads the manifests of paths, one after the other. -/
def readManifests (files : Files m) : List String → ExceptT String m (List ManifestSource)
  | [] => return []
  | path :: rest => do
    let text ← readFile files "manifest" path
    let sources ← readManifests files rest
    return ⟨path, text⟩ :: sources

def loadRegistry (files : Files m) (o : Options) : ExceptT String m Registry := do
  let sources ← readManifests files o.manifests
  match Catalog.load ⟨sources⟩ o.profile o.cms with
  | .ok r => return r
  | .error _ => throw "Failed to load component registry"

/-! Commands. -/

/-- A compiled document as data. The time that it took is not measured. -/
def compiledJson (c : Compiled) : Value :=
  .object
    [("document", c.document.toJson),
     ("metadata", .object
       [("compilation_time_ms", .int 0),
        ("errors", .array (c.errors.map Diagnostic.toJson)),
        ("warnings", .array (c.warnings.map Diagnostic.toJson))])]

def summary (c : Compiled) : String :=
  toString c.errors.length ++ " error(s), " ++ toString c.warnings.length ++ " warning(s)\n"

/-- Compiles a source text and shows the document or the findings. -/
def compileSource (rules : Rules) (source : String) (json : Bool) : Outcome :=
  match rules.compile source with
  | .error e =>
    if json then ⟨1, Outcome.json (.object [("fatal", e.toDiagnostic.toJson)]), ""⟩
    else ⟨1, "", e.toDiagnostic.report (some source)⟩
  | .ok c =>
    let status := if c.isRenderable then 0 else 1
    if json then ⟨status, Outcome.json (compiledJson c), ""⟩
    else ⟨status, "", Findings.report (some source) c.diagnostics ++ summary c⟩

/-- Shows the tokens of a source text. -/
def showTokens (source : String) (json : Bool) : Outcome :=
  match tokenize source with
  | .error e => ⟨1, "", (TemplateError.lexical e).toDiagnostic.report (some source)⟩
  | .ok ts =>
    if json then .printed (Outcome.json (.array (ts.map Token.toJson)))
    else .lines (ts.map Token.line)

def runCommand (files : Files m) (flags : Flags) : Command → ExceptT String m Outcome
  | .compile file json => do
    let o ← loadOptions files flags
    let source ← readFile files "template" file
    let r ← loadRegistry files o
    return compileSource (o.rules r) source json
  | .tokens file json => do
    let source ← readFile files "template" file
    return showTokens source json
  | .schema => do
    let r ← loadRegistry files (← loadOptions files flags)
    return .printed (Outcome.json r.schemaJson)
  | .components category => do
    let o ← loadOptions files flags
    let r ← loadRegistry files o
    return .lines ((r.availableComponents o.platform category).map Component.line)
  | .filters => do
    let o ← loadOptions files flags
    let r ← loadRegistry files o
    return .lines ((r.availableFilters o.platform).map FilterSpec.line)
  | .manifests => do
    let r ← loadRegistry files (← loadOptions files flags)
    return .lines (r.manifests.map ManifestInfo.line)

/-- A run of the program. Wrong arguments end it with status 2. -/
def run (files : Files m) (args : List String) : m Outcome := do
  match readArguments args with
  | .error .version => return .printed versionText
  | .error .help => return .printed helpText
  | .error .usage => return ⟨2, "", "Error: wrong arguments; see ikb --help\n"⟩
  | .ok (flags, command) =>
    match ← (runCommand files flags command).run with
    | .ok outcome => return outcome
    | .error message => return .failed message

end Cli
end BraceTemplate
