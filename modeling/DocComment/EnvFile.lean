import DocComment.Text.Blank

/-!
# Environment files

An environment file has a binding of a variable on each line: perhaps the word `export`, the name,
`=` and the value, which may stand in quotes, and perhaps a comment. A line that cannot be read is
skipped. A value may refer to variables that are bound above it or stand in the environment.
-/

namespace DocComment

/-- A binding as it is written. A name without `=` has no value. -/
structure Binding where
  name : String
  value : Option String
  deriving DecidableEq, Repr, Inhabited

namespace EnvFile

/-! ### Lines -/

def isLineEnd (c : Char) : Bool :=
  c = '\n' || c = '\r'

def isGap (c : Char) : Bool :=
  Text.isBlank c && !isLineEnd c

/-- What follows the blanks at the start of the text, within the line. -/
def skipGap (s : List Char) : List Char :=
  s.dropWhile isGap

/-- What follows the end of the line that the text stands at. -/
def skipLineEnd : List Char → List Char
  | '\r' :: '\n' :: rest => rest
  | c :: rest => if isLineEnd c then rest else c :: rest
  | [] => []

def skipLine (s : List Char) : List Char :=
  skipLineEnd (s.dropWhile fun c => !isLineEnd c)

/-- What follows a comment, if there is one, and the end of the line, which must come next. -/
def endLine? (s : List Char) : Option (List Char) :=
  let s := skipGap s
  let s := if s.head? = some '#' then s.dropWhile fun c => !isLineEnd c else s
  if s.head?.all isLineEnd then some (skipLineEnd s) else none

/-! ### Names and values -/

/-- Whether a name without quotes goes on with `c`. -/
def isNameChar (c : Char) : Bool :=
  c ≠ '=' && c ≠ '#' && !Text.isBlank c

/-- Reads the name of a variable, with or without quotes. At a comment there is no name. -/
def takeName? (s : List Char) : Option (Option (List Char) × List Char) :=
  match s with
  | '#' :: _ => some (none, s)
  | '\'' :: rest =>
    match rest.takeWhile (· ≠ '\''), rest.dropWhile (· ≠ '\'') with
    | c :: name, _ :: rest => some (some (c :: name), rest)
    | _, _ => none
  | _ =>
    match s.takeWhile isNameChar with
    | [] => none
    | name => some (some name, s.dropWhile isNameChar)

/-- Reads a quoted value after its opening quote. A backslash takes the next character with it. -/
def takeQuoted? (quote : Char) : List Char → Option (List Char × List Char)
  | [] => none
  | '\\' :: c :: rest => (takeQuoted? quote rest).map fun (content, rest) =>
    ('\\' :: c :: content, rest)
  | c :: rest =>
    if c = quote then some ([], rest)
    else (takeQuoted? quote rest).map fun (content, rest) => (c :: content, rest)

/-- What a backslash and the given character stand for between quotes of the given kind. -/
def escape? (quote c : Char) : Option Char :=
  if c = '\\' ∨ c = '\'' then some c
  else if quote = '\'' then none
  else match c with
    | '"' => some '"'
    | 'a' => some '\x07'
    | 'b' => some '\x08'
    | 'f' => some '\x0c'
    | 'n' => some '\n'
    | 'r' => some '\r'
    | 't' => some '\t'
    | 'v' => some '\x0b'
    | _ => none

/-- The text that stands between quotes. A backslash with nothing to say stands for itself. -/
def unescaped (quote : Char) : List Char → List Char
  | [] => []
  | [c] => [c]
  | c :: d :: rest =>
    if c = '\\' then
      match escape? quote d with
      | some e => e :: unescaped quote rest
      | none => c :: unescaped quote (d :: rest)
    else c :: unescaped quote (d :: rest)

/-- The text up to the first `#` that follows a blank. -/
def withoutComment : List Char → List Char
  | [] => []
  | [c] => [c]
  | c :: d :: rest =>
    if Text.isBlank c ∧ d = '#' then [] else c :: withoutComment (d :: rest)

/-- The value that is written without quotes. -/
def unquoted (s : List Char) : List Char :=
  Text.trim (withoutComment s)

/-- Reads a value after its `=`. -/
def takeValue? (s : List Char) : Option (List Char × List Char) :=
  let inLine (c : Char) : Bool := !isLineEnd c
  let plain := (unquoted (s.takeWhile inLine), s.dropWhile inLine)
  match skipGap s with
  | [] => some plain
  | c :: rest =>
    if c = '\'' ∨ c = '"' then
      (takeQuoted? c rest).map fun (content, rest) => (unescaped c content, rest)
    else some plain

/-! ### Bindings -/

/-- What follows the word `export` and a blank. -/
def skipExport (s : List Char) : List Char :=
  match s with
  | 'e' :: 'x' :: 'p' :: 'o' :: 'r' :: 't' :: rest =>
    if rest.head?.any isGap then skipGap rest else s
  | _ => s

/-- The text from where reading stopped, if the line there is not a binding or a comment. -/
abbrev Stopped := List Char

/-- Reads the line that the text starts in, which is not blank. -/
def takeBinding (s : List Char) : Except Stopped (Option Binding × List Char) :=
  let s := skipExport s
  match takeName? s with
  | none => .error s
  | some (name, s) =>
    let s := skipGap s
    let value : Except Stopped (Option (List Char) × List Char) :=
      match s with
      | '=' :: rest =>
        match takeValue? rest with
        | none => .error (skipGap rest)
        | some (value, rest) => .ok (some value, rest)
      | _ => .ok (none, s)
    match value with
    | .error s => .error s
    | .ok (value, s) =>
      match endLine? s with
      | none => .error s
      | some rest =>
        .ok (name.map fun name => ⟨String.ofList name, value.map String.ofList⟩, rest)

/-- The bindings in a text that is read in at most `fuel` steps. -/
def bindingsFrom : Nat → List Char → List Binding
  | 0, _ => []
  | fuel + 1, s =>
    match s.dropWhile Text.isBlank with
    | [] => []
    | s =>
      match takeBinding s with
      | .error stopped => bindingsFrom fuel (skipLine stopped)
      | .ok (binding, rest) => binding.toList ++ bindingsFrom fuel rest

/-- The character that may stand in front of a text to tell the order of bytes. -/
def byteOrderMark : Char := '\uFEFF'

/-- The text without a byte order mark at its start. -/
def withoutMark : List Char → List Char
  | [] => []
  | c :: rest => if c = byteOrderMark then rest else c :: rest

/-- The bindings in a text. Each step reads at least one character. -/
def bindings (s : String) : List Binding :=
  bindingsFrom (s.length + 1) (withoutMark s.toList)

/-! ### References to variables -/

/-- Variables and their values, if they have any. The first entry of a name counts. -/
abbrev Variables := List (String × Option String)

/-- The value of a variable, or else the default. -/
def valueOf (known : Variables) (name default : String) : String :=
  match known.lookup name with
  | some value => value.getD ""
  | none => default

/-- The name and the default of the reference that the text starts with after `$` and a brace, and
what follows it. -/
def takeReference? (s : List Char) : Option ((String × String) × List Char) :=
  let isName (c : Char) : Bool := c ≠ '\x7d' && c ≠ ':'
  let name := String.ofList (s.takeWhile isName)
  match s.dropWhile isName with
  | ':' :: '-' :: rest =>
    match rest.dropWhile (· ≠ '\x7d') with
    | [] => none
    | _ :: after => some ((name, String.ofList (rest.takeWhile (· ≠ '\x7d'))), after)
  | '\x7d' :: after => some ((name, ""), after)
  | _ => none

/-- The text with references replaced by values, read in at most `fuel` steps. -/
def expandFrom (known : Variables) : Nat → List Char → List Char
  | 0, s => s
  | _, [] => []
  | fuel + 1, '$' :: '\x7b' :: s =>
    match takeReference? s with
    | some ((name, default), rest) =>
      (valueOf known name default).toList ++ expandFrom known fuel rest
    | none => '$' :: expandFrom known fuel ('\x7b' :: s)
  | fuel + 1, c :: s => c :: expandFrom known fuel s

def expand (known : Variables) (s : String) : String :=
  String.ofList (expandFrom known s.length s.toList)

/-- Gives a variable a value. A variable keeps the place of its first binding. -/
def bind (name : String) (value : Option String) : Variables → Variables
  | [] => [(name, value)]
  | (n, v) :: rest => if n = name then (n, value) :: rest else (n, v) :: bind name value rest

/-- The variables of a file, in the order of their first bindings. A value may refer to the
variables of the file above it and to those of the environment. -/
def variablesOf (environment : List (String × String)) (s : String) : Variables :=
  (bindings s).foldl (fun bound binding =>
    let known := bound ++ environment.map fun (name, value) => (name, some value)
    bind binding.name (binding.value.map (expand known)) bound) []

end EnvFile

end DocComment
