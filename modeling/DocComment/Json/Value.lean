/-!
# JSON values

What a JSON text stands for. Numbers keep apart whole numbers, which are exact at any size, and
those with a point or an exponent.
-/

namespace DocComment.Json

/-- A number as it is written. -/
inductive Number where
  /-- A whole number without a point or an exponent. -/
  | whole (n : Int)
  /-- The number `mantissa * 10 ^ exponent`, with its sign. -/
  | decimal (negative : Bool) (mantissa : Nat) (exponent : Int)
  /-- One of the words for what is no finite number. -/
  | notFinite
  deriving DecidableEq, Repr, Inhabited

/-- A JSON value. The members of an object stand in the order in which they are written. -/
inductive Value where
  | null
  | bool (b : Bool)
  | number (n : Number)
  | string (s : String)
  | array (elements : List Value)
  | object (members : List (String × Value))
  deriving Repr, Inhabited

namespace Value

/-- The value of a member. Of members with one name, the last one counts. -/
def member? (v : Value) (name : String) : Option Value :=
  match v with
  | .object members => members.reverse.lookup name
  | _ => none

def string? : Value → Option String
  | .string s => some s
  | _ => none

def array? : Value → Option (List Value)
  | .array elements => some elements
  | _ => none

end Value

end DocComment.Json
