import DocComment.Json.Token

/-!
# Reading JSON

`Value.ofTokens?` builds a value from tokens. What is open around the place that is read is kept in
frames, so the nesting of values is the number of frames.
-/

namespace DocComment.Json

/-- How deep arrays and objects that hold something may be nested. -/
def maxDepth : Nat := 200

/-- An array or object that is open, with what has been read of it, last part first. -/
inductive Frame where
  | array (before : List Value)
  | object (before : List (String × Value)) (key : String)

namespace Value

mutual

/-- Reads a value, and then what is open around it. -/
def open? (frames : List Frame) : List Token → Option Value
  | .null :: rest => close? frames .null rest
  | .bool b :: rest => close? frames (.bool b) rest
  | .number n :: rest => close? frames (.number n) rest
  | .string s :: rest => close? frames (.string s) rest
  | .openArray :: .closeArray :: rest => close? frames (.array []) rest
  | .openArray :: rest =>
    if frames.length < maxDepth then open? (.array [] :: frames) rest else none
  | .openObject :: .closeObject :: rest => close? frames (.object []) rest
  | .openObject :: .string key :: .colon :: rest =>
    if frames.length < maxDepth then open? (.object [] key :: frames) rest else none
  | _ => none

/-- Reads on after a value `v`. -/
def close? (frames : List Frame) (v : Value) : List Token → Option Value
  | [] => if frames.isEmpty then some v else none
  | .comma :: .string key :: .colon :: rest =>
    match frames with
    | .object before last :: frames =>
      open? (.object ((last, v) :: before) key :: frames) rest
    | _ => none
  | .comma :: rest =>
    match frames with
    | .array before :: frames => open? (.array (v :: before) :: frames) rest
    | _ => none
  | .closeArray :: rest =>
    match frames with
    | .array before :: frames => close? frames (.array (v :: before).reverse) rest
    | _ => none
  | .closeObject :: rest =>
    match frames with
    | .object before last :: frames =>
      close? frames (.object ((last, v) :: before).reverse) rest
    | _ => none
  | _ => none

end

def ofTokens? (tokens : List Token) : Option Value :=
  open? [] tokens

def ofText? (s : List Char) : Option Value :=
  (tokens? s).bind ofTokens?

end Value

end DocComment.Json
