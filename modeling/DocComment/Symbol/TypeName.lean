import DocComment.Run.Basic
import DocComment.Symbol.Arity
import DocComment.Symbol.Basic
import DocComment.Text.Blank
import DocComment.Text.Separated
import DocComment.Text.Word

/-!
# Types of parameters

The types of parameters are shown shortened: names without their namespaces and arities, framework
types by their keywords, generic arguments in angle brackets, arrays by their rank, and positional
parameters of generic types and methods by made-up names.
-/

namespace DocComment.TypeName

/-- A piece of the type of a parameter. -/
inductive Token where
  /-- The bounds of an array, between brackets. -/
  | bounds (content : List Char)
  /-- A type parameter of the method, by its position. -/
  | methodParameter (position : List Char)
  /-- A type parameter of the type, by its position. -/
  | typeParameter (position : List Char)
  | name (content : List Char)
  /-- Any other character that is not blank. -/
  | other (c : Char)
  deriving DecidableEq, Repr

/-! ### Tokens -/

/-- Whether a segment of a dotted name may start with `c`. -/
def isNameStart (c : Char) : Bool :=
  c.isAlpha || c = '_'

/-- Whether a segment of a dotted name may go on with `c`. -/
def isNameChar (c : Char) : Bool :=
  Text.isWord c || c = Arity.mark

/-- Reads on in a dotted name. A dot belongs to it only with the start of a segment behind it. -/
def takeName : List Char → List Char × List Char
  | [] => ([], [])
  | [c] => if isNameChar c then ([c], []) else ([], [c])
  | c :: d :: rest =>
    if isNameChar c then (c :: (takeName (d :: rest)).1, (takeName (d :: rest)).2)
    else if c = '.' ∧ isNameStart d then (c :: d :: (takeName rest).1, (takeName rest).2)
    else ([], c :: d :: rest)

/-- Reads a token whose first character is `c`. -/
def takeToken (c : Char) (rest : List Char) : Token × List Char :=
  let digits := rest.takeWhile Text.isDigit
  let inner := rest.drop 1
  let innerDigits := inner.takeWhile Text.isDigit
  if c = '[' ∧ ']' ∈ rest then
    (.bounds (rest.takeWhile (· ≠ ']')), (rest.dropWhile (· ≠ ']')).drop 1)
  else if c = Arity.mark ∧ rest.head? = some Arity.mark ∧ innerDigits ≠ [] then
    (.methodParameter innerDigits, inner.dropWhile Text.isDigit)
  else if c = Arity.mark ∧ digits ≠ [] then
    (.typeParameter digits, rest.dropWhile Text.isDigit)
  else if isNameStart c then (.name (c :: (takeName rest).1), (takeName rest).2)
  else (.other c, rest)

theorem length_takeName_le (s : List Char) : (takeName s).2.length ≤ s.length := by
  fun_induction takeName s <;> simp_all <;> omega

theorem length_takeToken_le (c : Char) (s : List Char) : (takeToken c s).2.length ≤ s.length := by
  have drop (t : List Char) (p : Char → Bool) : (t.dropWhile p).length ≤ t.length :=
    (List.dropWhile_suffix p).length_le
  have := drop s (· ≠ ']')
  have := drop (s.drop 1) Text.isDigit
  have := drop s Text.isDigit
  have := length_takeName_le s
  unfold takeToken
  simp only [List.length_drop] at *
  split
  · simp only [List.length_drop]; omega
  · split
    · simp only; omega
    · split
      · assumption
      · split
        · assumption
        · exact Nat.le_refl _

/-- The tokens of a type. Blanks only keep them apart. -/
def tokens : List Char → List Token
  | [] => []
  | c :: rest =>
    if Text.isBlank c then tokens rest
    else (takeToken c rest).1 :: tokens (takeToken c rest).2
termination_by s => s.length
decreasing_by
  · simp
  · exact Nat.lt_succ_of_le (length_takeToken_le c rest)

/-! ### Display -/

/-- The framework types that are shown by a keyword. -/
def keywords : List (String × String) :=
  [("System.Boolean", "bool"), ("System.Byte", "byte"), ("System.SByte", "sbyte"),
    ("System.Char", "char"), ("System.Decimal", "decimal"), ("System.Double", "double"),
    ("System.Single", "float"), ("System.Int16", "short"), ("System.Int32", "int"),
    ("System.Int64", "long"), ("System.UInt16", "ushort"), ("System.UInt32", "uint"),
    ("System.UInt64", "ulong"), ("System.Object", "object"), ("System.String", "string"),
    ("System.Void", "void")]

/-- The last segment of a dotted name, without its arity. -/
def simpleName (name : List Char) : String :=
  String.ofList (Arity.strip ((Text.separated '.' name).getLast?.getD []))

namespace Token

/-- The runs that show a token. Braces become angle brackets; of the bounds of an array only the
commas stay. -/
def runs : Token → List Run
  | .bounds content =>
    [Run.punctuation (String.ofList ('[' :: content.filter (· = ',') ++ [']']))]
  | .methodParameter position => [⟨.typeName, "TM" ++ String.ofList position⟩]
  | .typeParameter position => [⟨.typeName, "T" ++ String.ofList position⟩]
  | .name content =>
    match keywords.lookup (String.ofList content) with
    | some keyword => [⟨.keyword, keyword⟩]
    | none => [⟨.typeName, simpleName content⟩]
  | .other c =>
    if c = ',' then [Run.punctuation ",", Run.space]
    else if c = '[' then [Run.punctuation "[]"]
    else if c = '\x7b' then [Run.punctuation "<"]
    else if c = '\x7d' then [Run.punctuation ">"]
    else if c = '*' then [Run.punctuation "*"]
    else if c = Arity.mark then [⟨.typeName, "T"⟩]
    else [⟨.typeName, simpleName [c]⟩]

end Token

/-- The runs that show the type of a parameter. A final `@` marks a parameter by reference. -/
def runs (type : String) : List Run :=
  if type.toList.getLast? = some '@' then
    ⟨.keyword, "ref"⟩ :: Run.space :: (tokens type.toList.dropLast).flatMap Token.runs
  else (tokens type.toList).flatMap Token.runs

end DocComment.TypeName
