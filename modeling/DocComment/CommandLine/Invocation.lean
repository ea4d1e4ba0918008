import DocComment.DisplayFormat
import DocComment.Text.WholeNumber

/-!
# Invocations

The words after the name of the command are options and arguments in any order. An option is written
with two hyphens and its name or with one hyphen and its letter; letters of options without a value
may be joined. The word `--` ends the options.
-/

namespace DocComment.CommandLine

/-- What can be chosen. -/
inductive Choice where
  | symbols
  | position
  | qualification
  | runs
  | verbose
  | version
  | help
  deriving DecidableEq, Repr, Inhabited

namespace Choice

def all : List Choice :=
  [.symbols, .position, .qualification, .runs, .verbose, .version, .help]

def name : Choice → String
  | .symbols => "symbols"
  | .position => "position"
  | .qualification => "qualification"
  | .runs => "runs"
  | .verbose => "verbose"
  | .version => "version"
  | .help => "help"

def letter? : Choice → Option Char
  | .symbols => some 's'
  | .position => some 'p'
  | .qualification => some 'q'
  | .runs => some 'r'
  | .verbose => some 'v'
  | .version => some 'V'
  | .help => none

def takesValue : Choice → Bool
  | .symbols | .position | .qualification => true
  | _ => false

def ofName? (name : String) : Option Choice :=
  all.find? (·.name = name)

def ofLetter? (c : Char) : Option Choice :=
  all.find? (·.letter? = some c)

end Choice

/-- Why the words do not make an invocation. -/
inductive UsageError where
  | noSuchOption (name : String)
  | missingValue (option : String)
  | unexpectedValue (option : String)
  | badPosition (value : String)
  | badQualification (value : String)
  | noSuchFile (path : String)
  | isDirectory (path : String)
  | extraArgument (word : String)
  deriving DecidableEq, Repr

def UsageError.message : UsageError → String
  | .noSuchOption name => "No such option: " ++ name
  | .missingValue option => "Option '" ++ option ++ "' requires an argument."
  | .unexpectedValue option => "Option '" ++ option ++ "' does not take a value."
  | .badPosition value => "Invalid value for '--position': '" ++ value ++ "' is not in range."
  | .badQualification value => "Invalid value for '--qualification': '" ++ value ++ "'."
  | .noSuchFile path => "Invalid value for '[PATH]': File '" ++ path ++ "' does not exist."
  | .isDirectory path => "Invalid value for '[PATH]': File '" ++ path ++ "' is a directory."
  | .extraArgument word => "Got unexpected extra argument (" ++ word ++ ")"

/-! ### Words -/

/-- An option with its value, or an argument. -/
inductive Word where
  | option (choice : Choice) (value : String)
  | argument (word : String)
  deriving DecidableEq, Repr

/-- The options in joined letters, and the words after them. If the last letter takes a value,
that is the rest of the word, or else the next word. -/
def cluster : List Char → List String → Except UsageError (List Word × List String)
  | [], rest => .ok ([], rest)
  | c :: cs, rest =>
    let option := String.ofList ['-', c]
    match Choice.ofLetter? c with
    | none => .error (.noSuchOption option)
    | some choice =>
      if choice.takesValue then
        match cs, rest with
        | [], [] => .error (.missingValue option)
        | [], value :: rest => .ok ([.option choice value], rest)
        | cs, rest => .ok ([.option choice (String.ofList cs)], rest)
      else (cluster cs rest).map fun (words, rest) => (.option choice "" :: words, rest)

/-- The option with a long name, and the words after it. The value stands behind `=` or is the next
word. -/
def longOption (s : List Char) (rest : List String) :
    Except UsageError (List Word × List String) :=
  let name := String.ofList (s.takeWhile (· ≠ '='))
  let attached :=
    match s.dropWhile (· ≠ '=') with
    | [] => none
    | _ :: value => some (String.ofList value)
  match Choice.ofName? name with
  | none => .error (.noSuchOption ("--" ++ name))
  | some choice =>
    match choice.takesValue, attached, rest with
    | true, some value, rest => .ok ([.option choice value], rest)
    | true, none, value :: rest => .ok ([.option choice value], rest)
    | true, none, [] => .error (.missingValue ("--" ++ name))
    | false, none, rest => .ok ([.option choice ""], rest)
    | false, some _, _ => .error (.unexpectedValue ("--" ++ name))

/-- The options and arguments in at most `fuel` words. -/
def wordsFrom : Nat → List String → Except UsageError (List Word)
  | 0, _ => .ok []
  | _, [] => .ok []
  | fuel + 1, word :: rest =>
    match word.toList with
    | ['-', '-'] => .ok (rest.map .argument)
    | '-' :: '-' :: s => do
      let (first, rest) ← longOption s rest
      let others ← wordsFrom fuel rest
      return first ++ others
    | '-' :: c :: s => do
      let (first, rest) ← cluster (c :: s) rest
      let others ← wordsFrom fuel rest
      return first ++ others
    | _ => (wordsFrom fuel rest).map (.argument word :: ·)

/-- The options and arguments that words stand for. Each takes at least one word. -/
def words (args : List String) : Except UsageError (List Word) :=
  wordsFrom args.length args

/-! ### Invocations -/

/-- What is asked for. -/
structure Invocation where
  /-- The file that holds the comment; without one it is read from standard input. -/
  path : Option String := none
  symbols : Option String := none
  /-- Whether the runs are listed, and not only their text written. -/
  runs : Bool := false
  /-- The position that names are shortened for. -/
  position : Int := 0
  /-- How much of the names of symbols is shown. -/
  qualification : Option Qualification := none
  /-- Whether more is told about errors. -/
  verbose : Bool := false
  deriving DecidableEq, Repr, Inhabited

/-- What the words ask for first of all. -/
inductive Request where
  | version
  | help
  | format (invocation : Invocation)
  deriving DecidableEq, Repr

/-- The value of the last option of a kind. -/
def lastValue? (choice : Choice) (words : List Word) : Option String :=
  words.foldl (fun last word =>
    match word with
    | .option c value => if c = choice then some value else last
    | .argument _ => last) none

def arguments (words : List Word) : List String :=
  words.filterMap fun word =>
    match word with
    | .option _ _ => none
    | .argument word => some word

def position (value : Option String) : Except UsageError Int :=
  match value with
  | none => .ok 0
  | some value =>
    match Text.wholeNumber? value.toList with
    | none => .error (.badPosition value)
    | some n => if n < 0 then .error (.badPosition value) else .ok n

def qualification (value : Option String) : Except UsageError (Option Qualification) :=
  match value with
  | none => .ok none
  | some value =>
    match Qualification.ofName? value with
    | none => .error (.badQualification value)
    | some q => .ok (some q)

/-- The invocation that options and arguments make. There is at most one argument. -/
def invocation (words : List Word) : Except UsageError Invocation := do
  let position ← position (lastValue? .position words)
  let qualification ← qualification (lastValue? .qualification words)
  let path ←
    match arguments words with
    | [] => pure none
    | [path] => pure (some path)
    | _ :: extra :: _ => throw (.extraArgument extra)
  return {
    path, position, qualification
    symbols := lastValue? .symbols words
    runs := (lastValue? .runs words).isSome
    verbose := (lastValue? .verbose words).isSome }

/-- What words ask for. To ask for the version or for help counts more than anything but options
that cannot be read, and of the two what is asked for first counts. -/
def request (args : List String) : Except UsageError Request := do
  let words ← words args
  let early := words.findSome? fun word =>
    match word with
    | .option .version _ => some Request.version
    | .option .help _ => some Request.help
    | _ => none
  match early with
  | some request => return request
  | none => return .format (← invocation words)

end DocComment.CommandLine
