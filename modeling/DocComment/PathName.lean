import DocComment.Text.Separated

/-!
# Names of files

Names of files are kept in a normal form: without empty segments and segments `.`, except that a
name may start with one slash, or with exactly two. The name without segments is `.`.
-/

namespace DocComment.PathName

/-- The slashes that the normal form of a name starts with. -/
def root (s : List Char) : List Char :=
  let slashes := (s.takeWhile (· = '/')).length
  if slashes = 0 then [] else if slashes = 2 then ['/', '/'] else ['/']

/-- The segments of a name that count. -/
def segments (s : List Char) : List (List Char) :=
  (Text.separated '/' s).filter fun segment => segment ≠ [] && segment ≠ ['.']

def normal (path : String) : String :=
  let s := root path.toList ++ ['/'].intercalate (segments path.toList)
  if s = [] then "." else String.ofList s

/-- Whether a file can have the name: it does not hold `NUL`. -/
def isPossible (path : String) : Bool :=
  !path.toList.contains '\x00'

/-- The name with the home directory in place of a segment `~` at its start. The homes of others are
not known. -/
def expandHome? (home : Option String) (path : String) : Option String :=
  match path.toList with
  | ['~'] => home
  | '~' :: '/' :: rest => home.map fun home => normal (home ++ "/" ++ String.ofList rest)
  | '~' :: _ => none
  | _ => some path

end DocComment.PathName
