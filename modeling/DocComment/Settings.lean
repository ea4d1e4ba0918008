import DocComment.DisplayFormat
import DocComment.EnvFile
import DocComment.FileEntry
import DocComment.Formatter
import DocComment.PathName

/-!
# Settings

Settings are variables of the environment, and of an environment file where the environment lacks
them. The names of variables are compared without regard to case.
-/

namespace DocComment

/-- What can be set. -/
structure Settings where
  lineBreak : String := "\r\n"
  /-- How much of the names of symbols is shown. -/
  qualification : Qualification := .containingTypes
  /-- The symbol file that is used where no other is named. -/
  symbolsPath : Option String := none
  deriving DecidableEq, Repr, Inhabited

/-- Why there are no settings. -/
inductive SettingsError where
  /-- The environment file cannot be read. -/
  | unreadable
  /-- There is no qualification of this name. -/
  | badQualification (name : String)
  deriving DecidableEq, Repr

namespace Settings

def lineBreakVariable : String := "docfmt_line_break"

def qualificationVariable : String := "docfmt_qualification"

def symbolsVariable : String := "docfmt_symbols"

def envFileName : String := ".env"

/-- A character in lower case, as far as the result can be an ASCII letter: besides the capital
letters of ASCII only the Kelvin sign becomes one. -/
def lower (c : Char) : Char :=
  if c.toNat = 0x212A then 'k' else c.toLower

/-- The last value of a variable whose name is given in lower case. -/
def last? (known : EnvFile.Variables) (name : String) : Option String :=
  ((known.reverse.find? fun v => String.ofList (v.1.toList.map lower) = name).map (·.2)).join

/-- The value of a variable. The environment goes before the file. -/
def value? (environment : List (String × String)) (file : EnvFile.Variables) (name : String) :
    Option String :=
  last? (environment.map fun (name, value) => (name, some value)) name |>.or (last? file name)

def ofVariables (environment : List (String × String)) (file : EnvFile.Variables) :
    Except SettingsError Settings :=
  let base : Settings := {}
  let lineBreak := (value? environment file lineBreakVariable).getD base.lineBreak
  let symbolsPath := (value? environment file symbolsVariable).map PathName.normal
  match value? environment file qualificationVariable with
  | none => .ok { lineBreak, symbolsPath }
  | some name =>
    match Qualification.ofName? name with
    | none => .error (.badQualification name)
    | some qualification => .ok { lineBreak, qualification, symbolsPath }

/-- The settings in the environment and in an environment file. A file that is not there sets
nothing. -/
def load (environment : List (String × String)) (envFile : FileEntry) :
    Except SettingsError Settings :=
  match envFile.text with
  | .ok text => ofVariables environment (EnvFile.variablesOf environment text)
  | .error .notUtf8 => .error .unreadable
  | .error _ => ofVariables environment []

/-- The environment file with a name, which may start in the home directory. -/
def envFile (environment : List (String × String)) (files : String → FileEntry) (name : String) :
    FileEntry :=
  match PathName.expandHome? (environment.lookup "HOME") (PathName.normal name) with
  | none => .missing
  | some path => files path

def format (s : Settings) : DisplayFormat :=
  { qualification := s.qualification }

def formatter (s : Settings) : Formatter :=
  { lineBreak := s.lineBreak, format := s.format }

end Settings

end DocComment
