import DocComment.Text.Digit

/-!
# References to resources

The names of namespaces are URI references: an optional scheme, an authority, a path, a query and a
fragment, each with its own characters and with `%` only in front of two hexadecimal digits. The
parts are read one after the other, and nothing may be left over.
-/

namespace DocComment.Xml.Uri

/-- Whether `c` is one of the digits of base sixteen. -/
def isHex (c : Char) : Bool :=
  c.isDigit || ('a' ≤ c && c ≤ 'f') || ('A' ≤ c && c ≤ 'F')

/-- Whether `c` may stand anywhere in a URI without a meaning of its own. -/
def isPlain (c : Char) : Bool :=
  c.isAlphanum || "-._~!$&\x27()*+,;=".toList.contains c

/-- What follows the plain characters, the characters `extra` and the `%` with two hexadecimal
digits at the start of the text. -/
def skip (extra : List Char) : List Char → List Char
  | [] => []
  | '%' :: a :: b :: rest =>
    if isHex a && isHex b then skip extra rest else '%' :: a :: b :: rest
  | c :: rest => if isPlain c || extra.contains c then skip extra rest else c :: rest

def maxPort : Nat := 0x7fffffff

/-- What follows a port and its colon, if there is one. -/
def afterPort? : List Char → Option (List Char)
  | ':' :: rest =>
    let digits := rest.takeWhile Text.isAsciiDigit
    if digits ≠ [] ∧ Text.decimalValue digits ≤ maxPort then
      some (rest.dropWhile Text.isAsciiDigit)
    else none
  | s => some s

/-- What follows a host. A host in brackets may hold anything. -/
def afterHost? : List Char → Option (List Char)
  | '[' :: rest =>
    match rest.dropWhile (· ≠ ']') with
    | [] => none
    | _ :: rest => some rest
  | s => some (skip [] s)

/-- What follows an authority: perhaps a user and `@`, a host, perhaps a port. -/
def afterAuthority? (s : List Char) : Option (List Char) :=
  let host :=
    match skip [':'] s with
    | '@' :: rest => rest
    | _ => s
  (afterHost? host).bind afterPort?

/-- What follows a path that starts with a slash, if there is one. -/
def afterRootedPath : List Char → List Char
  | '/' :: rest => skip [':', '@', '/'] rest
  | s => s

/-- What follows an authority after `//` and a path, or a path alone. The first segment of a path
alone may hold the characters `extra`. -/
def afterHierarchy? (extra : List Char) : List Char → Option (List Char)
  | '/' :: '/' :: rest => (afterAuthority? rest).map afterRootedPath
  | s => some (afterRootedPath (skip extra s))

/-- What follows a scheme and its colon. -/
def afterScheme? : List Char → Option (List Char)
  | [] => none
  | c :: s =>
    match s.dropWhile fun d => d.isAlphanum || d = '+' || d = '-' || d = '.' with
    | ':' :: rest => if c.isAlpha then some rest else none
    | _ => none

/-- What follows a query and a fragment, where there are any. -/
def afterQuery (s : List Char) : List Char :=
  let s :=
    match s with
    | '?' :: rest => skip [':', '@', '/', '?'] rest
    | _ => s
  match s with
  | '#' :: rest => skip [':', '@', '/', '?', '[', ']'] rest
  | _ => s

/-- Whether the text is a URI: a reference with a scheme. -/
def isAbsolute (s : List Char) : Bool :=
  match (afterScheme? s).bind (afterHierarchy? [':', '@']) with
  | some rest => afterQuery rest = []
  | none => false

/-- Whether the text is a reference without a scheme. It has no colon in the first segment of its
path. -/
def isRelative (s : List Char) : Bool :=
  match afterHierarchy? ['@'] s with
  | some rest => afterQuery rest = []
  | none => false

/-- Whether the text is a URI reference. -/
def isReference (s : List Char) : Bool :=
  isAbsolute s || isRelative s

end DocComment.Xml.Uri
