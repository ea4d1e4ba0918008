import DocComment.Text.Hex
import DocComment.Xml.Char

/-!
# References to characters

A reference stands between `&` and `;`. It names one of the five predefined entities, or a character
by its code point in decimal or hexadecimal digits. No other entity is known.
-/

namespace DocComment.Xml

/-- The character with a code point, if it is one that a document may hold. -/
def charOf? (n : Nat) : Option Char :=
  (Text.charOf? n).filter isChar

/-- The character that a reference stands for, given what is written between `&` and `;`. -/
def entity? : List Char → Option Char
  | ['l', 't'] => some '<'
  | ['g', 't'] => some '>'
  | ['a', 'm', 'p'] => some '&'
  | ['a', 'p', 'o', 's'] => some '\''
  | ['q', 'u', 'o', 't'] => some '"'
  | '#' :: 'x' :: digits => (Text.number? 16 digits).bind charOf?
  | '#' :: digits => (Text.number? 10 digits).bind charOf?
  | _ => none

/-- Reads a reference after its `&`, and gives what follows its `;`. -/
def takeReference? (s : List Char) : Option (Char × List Char) :=
  match s.dropWhile (· ≠ ';') with
  | [] => none
  | _ :: rest => (entity? (s.takeWhile (· ≠ ';'))).map (·, rest)

theorem length_lt_of_takeReference? {s rest : List Char} {c : Char}
    (h : takeReference? s = some (c, rest)) : rest.length < s.length := by
  unfold takeReference? at h
  split at h
  · simp at h
  · next d tail hd =>
    obtain ⟨_, _, h⟩ := Option.map_eq_some_iff.mp h
    have := (List.dropWhile_suffix (l := s) (· ≠ ';')).length_le
    rw [hd] at this
    obtain ⟨_, rfl⟩ := Prod.mk.inj h
    simp only [List.length_cons] at this
    omega

end DocComment.Xml
