import DocComment.Binary64
import DocComment.FileEntry
import DocComment.Json.Reader
import DocComment.Symbol.Imports
import DocComment.Text.WholeNumber

/-!
# Symbol files

A symbol file is a JSON object with the IDs of symbols and with import scopes, each a pair of a
position and a list of namespaces. Other members are ignored. Positions may also be written as
numbers with a point or an exponent, as truth values, or as text.
-/

namespace DocComment

/-- What a symbol file lists. -/
structure SymbolFile where
  symbols : List String := []
  imports : List ImportScope := []
  deriving DecidableEq, Repr, Inhabited

/-- Why a symbol file cannot be used. -/
inductive SymbolFileError where
  | unreadable (cause : ReadError)
  /-- The text is not JSON, or not of the right shape. -/
  | invalid
  /-- The file lists something that is not the ID of a symbol. -/
  | badId (cause : IdError)
  deriving DecidableEq, Repr

def SymbolFileError.message (path : String) : SymbolFileError → String
  | .unreadable cause => "Cannot read symbol file " ++ path ++ ": " ++ cause.message
  | .invalid => "Invalid symbol file " ++ path ++ ": it is not a symbol table in JSON"
  | .badId cause => "Invalid symbol file " ++ path ++ ": " ++ cause.message

namespace SymbolFile

/-- The position that a JSON value gives. -/
def position? : Json.Value → Option Int
  | .bool b => some (if b then 1 else 0)
  | .number (.whole n) => some n
  | .number (.decimal negative mantissa exponent) =>
    (Binary64.wholeOfDecimal? mantissa exponent).map fun n => if negative then -(n : Int) else n
  | .string s => Text.wholeNumber? s.toList
  | _ => none

/-! ### The file -/

def strings? (v : Json.Value) : Option (List String) := do
  let elements ← v.array?
  elements.mapM Json.Value.string?

/-- An import scope: a position and a list of namespaces. -/
def scope? : Json.Value → Option ImportScope
  | .array [position, namespaces] => do
    let position ← position? position
    let namespaces ← strings? namespaces
    return ⟨position, namespaces⟩
  | _ => none

/-- A list of import scopes. -/
def scopes? (v : Json.Value) : Option (List ImportScope) := do
  let elements ← v.array?
  elements.mapM scope?

/-- The symbol file that a JSON value describes. Both lists may be left out. -/
def ofJson? (v : Json.Value) : Option SymbolFile :=
  match v with
  | .object _ => do
    let symbols ← ((v.member? "symbols").map strings?).getD (some [])
    let imports ← ((v.member? "imports").map scopes?).getD (some [])
    return { symbols, imports }
  | _ => none

def ofText? (s : String) : Option SymbolFile :=
  (Json.Value.ofText? s.toList).bind ofJson?

/-- The semantic model in a file that lists what `read` makes of its text. -/
def loadWith (read : String → Option SymbolFile) (entry : FileEntry) :
    Except SymbolFileError SemanticModel :=
  match entry.text with
  | .error e => .error (.unreadable e)
  | .ok text =>
    match read text with
    | none => .error .invalid
    | some file =>
      match SymbolTable.ofIds file.symbols with
      | .error e => .error (.badId e)
      | .ok table => .ok (SemanticModel.ofScopes table file.imports)

/-- The semantic model in a symbol file. -/
def load (entry : FileEntry) : Except SymbolFileError SemanticModel :=
  loadWith ofText? entry

end SymbolFile

end DocComment
