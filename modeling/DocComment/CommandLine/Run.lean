import DocComment.CommandLine.Console
import DocComment.CommandLine.Invocation
import DocComment.Run.Listing
import DocComment.Settings
import DocComment.SymbolFile

/-!
# Running the command

`run` says what the command does, given all that it may look at: its arguments, the environment, the
files and standard input.
-/

namespace DocComment.CommandLine

/-- All that the command may look at. Files are known by the normal forms of their names. -/
structure Surroundings where
  args : List String
  environment : List (String × String)
  files : String → FileEntry
  input : ByteArray

/-- Why a comment was not formatted. -/
inductive Failure where
  | settings (cause : SettingsError)
  | badName (path : String)
  | symbols (path : String) (cause : SymbolFileError)
  | input (cause : ReadError)
  | format (cause : FormatError)
  deriving DecidableEq, Repr

namespace Failure

/-- What is said about a failure that the command is prepared for. It dies of any other. -/
def message? : Failure → Option String
  | .symbols path cause => some (cause.message path)
  | .input cause => some ("Cannot read the comment: " ++ cause.message)
  | .format .malformed => some FormatError.malformed.message
  | _ => none

end Failure

/-- How the command ends. -/
inductive Outcome where
  /-- It writes what was asked for. -/
  | done (output : String)
  /-- The words make no invocation. -/
  | misused (cause : UsageError)
  /-- The comment was not formatted. -/
  | failed (cause : Failure)
  deriving DecidableEq, Repr

namespace Outcome

def exitCode : Outcome → Nat
  | .done _ => 0
  | .misused _ => 2
  | .failed _ => 1

def output : Outcome → String
  | .done output => output
  | .failed cause =>
    match cause.message? with
    | some message => Console.plain ("Error: " ++ message ++ "\n")
    | none => ""
  | .misused _ => ""

end Outcome

def versionText : String := "docfmt v0.1.0\n"

def helpText : String :=
  "Usage: docfmt [OPTIONS] [PATH]\n\n" ++
  "Format a documentation comment.\n\n" ++
  "  PATH                  File holding the comment XML (default: read stdin)\n" ++
  "  -s, --symbols         JSON symbol table used to resolve references\n" ++
  "  -r, --runs            Print the typed display runs instead of plain text\n" ++
  "  -p, --position        Position used for minimal qualification (with --runs)\n" ++
  "  -q, --qualification   How much of a resolved symbol's name to show\n" ++
  "  -v, --verbose         Enable debug logging\n" ++
  "  -V, --version         Show version and exit\n" ++
  "  --help                Show this message and exit\n"

/-- Checks that the file of the comment is there, if one is named. -/
def checkPath (files : String → FileEntry) : Option String → Except UsageError Unit
  | none => .ok ()
  | some path =>
    match files (PathName.normal path) with
    | .missing => .error (.noSuchFile path)
    | .directory => .error (.isDirectory path)
    | .file _ => .ok ()

/-- The symbol file that is used. -/
def symbolsPath? (settings : Settings) (i : Invocation) : Option String :=
  (i.symbols.map PathName.normal).or settings.symbolsPath

/-- The semantic model that is used, if there is a symbol file. -/
def model (files : String → FileEntry) (path : Option String) :
    Except Failure (Option SemanticModel) :=
  match path with
  | none => .ok none
  | some path =>
    if PathName.isPossible path then
      ((SymbolFile.load (files path)).map some).mapError (.symbols path)
    else .error (.badName path)

def comment (s : Surroundings) (path : Option String) : Except Failure String :=
  let text :=
    match path with
    | none => FileEntry.decode s.input
    | some path => (s.files (PathName.normal path)).text
  text.mapError .input

def format (settings : Settings) (i : Invocation) (model : Option SemanticModel) (raw : String) :
    Except FormatError String :=
  let qualification := i.qualification.getD settings.qualification
  let formatter : Formatter := { settings.formatter with format := { qualification } }
  if i.runs then
    (formatter.formatToRuns raw model (some i.position) none).map Run.listing
  else
    (formatter.formatToString raw (model.map SemanticModel.table)).map fun text =>
      Console.plain text ++ "\n"

def settings (environment : List (String × String)) (files : String → FileEntry) :
    Except Failure Settings :=
  (Settings.load environment (files Settings.envFileName)).mapError .settings

def respond (s : Surroundings) (i : Invocation) : Except Failure String := do
  let settings ← settings s.environment s.files
  let model ← model s.files (symbolsPath? settings i)
  let raw ← comment s i.path
  (format settings i model raw).mapError .format

/-- What the command does. -/
def run (s : Surroundings) : Outcome :=
  match request s.args with
  | .error e => .misused e
  | .ok .version => .done versionText
  | .ok .help => .done helpText
  | .ok (.format i) =>
    match checkPath s.files i.path with
    | .error e => .misused e
    | .ok () =>
      match respond s i with
      | .error e => .failed e
      | .ok output => .done output

/-- The files that the command may look at, given what the environment file is. -/
def paths (args : List String) (environment : List (String × String)) (envFile : FileEntry) :
    List String :=
  match request args with
  | .ok (.format i) =>
    let symbols :=
      match Settings.load environment envFile with
      | .ok settings => symbolsPath? settings i
      | .error _ => none
    (i.path.map PathName.normal).toList ++ symbols.toList
  | _ => []

/-- Whether the command reads standard input. -/
def readsInput (args : List String) : Bool :=
  match request args with
  | .ok (.format i) => i.path.isNone
  | _ => false

end DocComment.CommandLine
