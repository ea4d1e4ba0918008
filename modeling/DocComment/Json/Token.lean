import DocComment.Json.Value
import DocComment.Text.Digit
import DocComment.Text.Hex

/-!
# JSON tokens

`tokens?` cuts a JSON text into brackets, marks, strings, numbers and words. The grammar is the
strict one, with the words `NaN`, `Infinity` and `-Infinity` besides.
-/

namespace DocComment.Json

open Text (charOf? decimalValue isAsciiDigit number?)

/-- A piece of a JSON text. -/
inductive Token where
  | openArray
  | closeArray
  | openObject
  | closeObject
  | comma
  | colon
  | null
  | bool (b : Bool)
  | number (n : Number)
  | string (s : String)
  deriving DecidableEq, Repr, Inhabited

def isSpace (c : Char) : Bool :=
  c = ' ' || c = '\t' || c = '\n' || c = '\r'

/-! ### Strings -/

/-- A part of a string: a character, or a code unit of 16 bits given by its number. -/
inductive StringPart where
  | char (c : Char)
  | unit (n : Nat)
  deriving DecidableEq, Repr

/-- The character that a backslash makes of a character. -/
def escape? : Char → Option Char
  | '"' => some '"'
  | '\\' => some '\\'
  | '/' => some '/'
  | 'b' => some '\x08'
  | 'f' => some '\x0c'
  | 'n' => some '\n'
  | 'r' => some '\r'
  | 't' => some '\t'
  | _ => none

/-- Reads the parts of a string after its opening quote. -/
def takeParts? : List Char → Option (List StringPart × List Char)
  | [] => none
  | '"' :: rest => some ([], rest)
  | '\\' :: 'u' :: a :: b :: c :: d :: rest => do
    let n ← number? 16 [a, b, c, d]
    let (parts, rest) ← takeParts? rest
    return (.unit n :: parts, rest)
  | '\\' :: c :: rest => do
    let c ← escape? c
    let (parts, rest) ← takeParts? rest
    return (.char c :: parts, rest)
  | c :: rest => do
    guard (' ' ≤ c && c ≠ '\\')
    let (parts, rest) ← takeParts? rest
    return (.char c :: parts, rest)

/-- The character of two code units, a high surrogate and a low one. -/
def pairOf? (high low : Nat) : Option Char :=
  if 0xD800 ≤ high ∧ high < 0xDC00 ∧ 0xDC00 ≤ low ∧ low < 0xE000 then
    charOf? (0x10000 + (high - 0xD800) * 0x400 + (low - 0xDC00))
  else none

/-- The characters of the parts of a string. Surrogates must come in pairs. -/
def joinParts? : List StringPart → Option (List Char)
  | [] => some []
  | .char c :: rest => (joinParts? rest).map (c :: ·)
  | .unit high :: .unit low :: rest =>
    match pairOf? high low with
    | some c => (joinParts? rest).map (c :: ·)
    | none => do
      let c ← charOf? high
      (joinParts? (.unit low :: rest)).map (c :: ·)
  | .unit n :: rest => do
    let c ← charOf? n
    (joinParts? rest).map (c :: ·)

/-- Reads a string after its opening quote. -/
def takeString? (s : List Char) : Option (String × List Char) := do
  let (parts, rest) ← takeParts? s
  let content ← joinParts? parts
  return (String.ofList content, rest)

/-! ### Numbers -/

/-- Reads digits, of which there must be one. -/
def takeDigits? (s : List Char) : Option (List Char × List Char) :=
  if s.head?.any isAsciiDigit then some (s.takeWhile isAsciiDigit, s.dropWhile isAsciiDigit)
  else none

/-- Reads the digits of a fraction after its point, if there is a point. -/
def takeFraction? : List Char → Option (Option (List Char) × List Char)
  | '.' :: rest => (takeDigits? rest).map fun (digits, rest) => (some digits, rest)
  | s => some (none, s)

/-- Reads an exponent, if there is one. -/
def takeExponent? : List Char → Option (Option Int × List Char)
  | [] => some (none, [])
  | c :: rest =>
    if c = 'e' ∨ c = 'E' then
      let negative := rest.head? = some '-'
      let unsigned := if negative ∨ rest.head? = some '+' then rest.drop 1 else rest
      (takeDigits? unsigned).map fun (digits, rest) =>
        let n : Int := decimalValue digits
        (some (if negative then -n else n), rest)
    else some (none, c :: rest)

/-- The most digits that a number may have before its point. -/
def maxDigits : Nat := 4300

/-- Reads a number without its sign. The digits before the point start with zero only if there is no
other. -/
def takeUnsigned? (negative : Bool) (s : List Char) : Option (Number × List Char) := do
  let (digits, rest) ← takeDigits? s
  guard ((digits.head? ≠ some '0' || digits.length = 1) && digits.length ≤ maxDigits)
  let (fraction, rest) ← takeFraction? rest
  let (exponent, rest) ← takeExponent? rest
  if fraction.isNone && exponent.isNone then
    let n : Int := decimalValue digits
    return (.whole (if negative then -n else n), rest)
  else
    let fraction := fraction.getD []
    return (.decimal negative (decimalValue (digits ++ fraction))
      (exponent.getD 0 - fraction.length), rest)

/-! ### Tokens -/

/-- The words, and what they stand for. -/
def wordTokens : List (String × Token) :=
  [("null", .null), ("true", .bool true), ("false", .bool false), ("NaN", .number .notFinite),
    ("Infinity", .number .notFinite), ("-Infinity", .number .notFinite)]

def mark? : Char → Option Token
  | '[' => some .openArray
  | ']' => some .closeArray
  | '\x7b' => some .openObject
  | '\x7d' => some .closeObject
  | ',' => some .comma
  | ':' => some .colon
  | _ => none

def takeWord? (s : List Char) : Option (Token × List Char) :=
  (wordTokens.find? fun w => w.1.toList.isPrefixOf s).map fun w => (w.2, s.drop w.1.length)

/-- Reads a token whose first character is `c`. -/
def takeToken? (c : Char) (rest : List Char) : Option (Token × List Char) :=
  match mark? c, takeWord? (c :: rest) with
  | some t, _ => some (t, rest)
  | none, some t => some t
  | none, none =>
    if c = '"' then (takeString? rest).map fun (s, rest) => (.string s, rest)
    else if c = '-' then (takeUnsigned? true rest).map fun (n, rest) => (.number n, rest)
    else (takeUnsigned? false (c :: rest)).map fun (n, rest) => (.number n, rest)

/-- The tokens of a text of at most `fuel` characters. -/
def tokensFrom? : Nat → List Char → Option (List Token)
  | _, [] => some []
  | 0, _ :: _ => none
  | fuel + 1, c :: rest =>
    if isSpace c then tokensFrom? fuel rest
    else do
      let (t, rest) ← takeToken? c rest
      let ts ← tokensFrom? fuel rest
      return t :: ts

/-- The tokens of a JSON text. Each takes at least one character, so there are no more tokens than
characters. -/
def tokens? (s : List Char) : Option (List Token) :=
  tokensFrom? s.length s

end DocComment.Json
