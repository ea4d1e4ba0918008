import DocComment.Text.Ranges

/-!
# Blank characters, trimming and words

Blanks are the white space of all scripts: the horizontal and vertical spaces, the separators
U+001C to U+001F, the next-line control, and the line and paragraph separators. The zero-width
characters U+200B and U+FEFF and the Mongolian vowel separator U+180E are no blanks.

The words of a text are its maximal stretches without blanks, and `collapse` writes them with single
spaces between them. `words_eq_nil_iff`: a text has no word exactly when it is blank throughout.
-/

namespace DocComment.Text

/-- The blanks. -/
def blankRanges : List (Nat × Nat) :=
  [(0x9, 0xD), (0x1C, 0x20), (0x85, 0x85), (0xA0, 0xA0), (0x1680, 0x1680), (0x2000, 0x200A),
    (0x2028, 0x2029), (0x202F, 0x202F), (0x205F, 0x205F), (0x3000, 0x3000)]

def isBlank (c : Char) : Bool :=
  inRanges c.toNat blankRanges

/-- The text without the blanks at its start. -/
def trimStart (s : List Char) : List Char :=
  s.dropWhile isBlank

def trimEnd (s : List Char) : List Char :=
  (s.reverse.dropWhile isBlank).reverse

def trim (s : List Char) : List Char :=
  trimEnd (trimStart s)

/-- Puts a character in front of the first of some words. -/
def consToFirst (c : Char) : List (List Char) → List (List Char)
  | [] => [[c]]
  | w :: ws => (c :: w) :: ws

/-- The maximal stretches without blanks, in order. -/
def words : List Char → List (List Char)
  | [] => []
  | [c] => if isBlank c then [] else [[c]]
  | c :: d :: rest =>
    if isBlank c then words (d :: rest)
    else if isBlank d then [c] :: words (d :: rest)
    else consToFirst c (words (d :: rest))

/-- The words of a text with one space between each and the next. -/
def collapse (s : List Char) : List Char :=
  [' '].intercalate (words s)

@[simp] theorem consToFirst_ne_nil (c : Char) (ws : List (List Char)) : consToFirst c ws ≠ [] := by
  cases ws <;> simp [consToFirst]

theorem words_eq_nil_iff (s : List Char) : words s = [] ↔ ∀ c ∈ s, isBlank c = true := by
  fun_induction words s with
  | case1 => simp
  | case2 c h => simp [h]
  | case3 c h => simp [h]
  | case4 c d rest h ih => rw [ih]; simp [h]
  | case5 c d rest h _ _ => simp [h]
  | case6 c d rest h _ _ => simp [h]

end DocComment.Text

namespace DocComment

def trimmed (s : String) : String :=
  String.ofList (Text.trim s.toList)

end DocComment
