import DocComment.Text.Separated
import DocComment.Xml.Entity

/-!
# Tokens of markup

`tokens?` cuts markup, whose line ends are line feeds, into pieces of text, comments, processing
instructions and tags. The pieces of text stand as they are read, one for a character, a reference
or a literal section; `joinText` makes the longest possible texts of them and drops empty ones.

`length_lt_of_next?` says that every token takes at least one character, so reading ends.
-/

namespace DocComment.Xml

/-- A piece of markup. Names are as written; references in texts and values are resolved. -/
inductive Token where
  | text (content : List Char)
  | comment (content : String)
  | instruction (target data : String)
  | startTag (name : String) (attributes : List (String × String))
  | emptyTag (name : String) (attributes : List (String × String))
  | endTag (name : String)
  deriving DecidableEq, Repr, Inhabited

/-! ### Parts of tokens -/

/-- What follows the character `c` at the start of `s`. -/
def takeChar? (c : Char) : List Char → Option (List Char)
  | [] => none
  | d :: rest => if d = c then some rest else none

/-- What follows the blanks at the start of `s`. -/
def skipSpace (s : List Char) : List Char :=
  s.dropWhile isSpace

/-- The most bytes that a part of a name may have. -/
def maxNameSize : Nat := 50000

/-- Whether no part of a name, between colons, is too long. -/
def isShort (name : List Char) : Bool :=
  (Text.separated ':' name).all fun part => (String.ofList part).utf8ByteSize ≤ maxNameSize

def takeName? : List Char → Option (String × List Char)
  | [] => none
  | c :: rest =>
    if isNameStart c && isShort (c :: rest.takeWhile isNameChar) then
      some (String.ofList (c :: rest.takeWhile isNameChar), rest.dropWhile isNameChar)
    else none

/-- Cuts the text at the first `mark`, which is not empty, and drops the mark. -/
def takeThrough? (mark : List Char) : List Char → Option (List Char × List Char)
  | [] => none
  | c :: s =>
    if mark.isPrefixOf (c :: s) then some ([], (c :: s).drop mark.length)
    else (takeThrough? mark s).map fun (before, rest) => (c :: before, rest)

/-- The value that is written between the quotes of an attribute: blanks become spaces, references
become their characters, and `<` is not allowed. `pending` is what has been read of a reference,
last character first. -/
def attributeValue? : Option (List Char) → List Char → Option (List Char)
  | none, [] => some []
  | some _, [] => none
  | none, c :: rest =>
    if c = '<' then none
    else if c = '&' then attributeValue? (some []) rest
    else (attributeValue? none rest).map ((if isSpace c then ' ' else c) :: ·)
  | some pending, c :: rest =>
    if c = ';' then
      (entity? pending.reverse).bind fun d => (attributeValue? none rest).map (d :: ·)
    else attributeValue? (some (c :: pending)) rest

def takeValue? : List Char → Option (String × List Char)
  | [] => none
  | quote :: s =>
    if quote = '"' ∨ quote = '\'' then
      match s.dropWhile (· ≠ quote) with
      | [] => none
      | _ :: rest =>
        (attributeValue? none (s.takeWhile (· ≠ quote))).map fun value =>
          (String.ofList value, rest)
    else none

/-- Reads an attribute: its name, `=` and its value, with blanks around `=`. -/
def takeAttribute? (s : List Char) : Option ((String × String) × List Char) := do
  let (name, s) ← takeName? s
  let s ← takeChar? '=' (skipSpace s)
  let (value, s) ← takeValue? (skipSpace s)
  return ((name, value), s)

/-! ### What is left after a part is shorter -/

theorem length_skipSpace_le (s : List Char) : (skipSpace s).length ≤ s.length :=
  (List.dropWhile_suffix _).length_le

theorem length_lt_of_takeChar? {c : Char} {s rest : List Char} (h : takeChar? c s = some rest) :
    rest.length < s.length := by
  cases s with
  | nil => simp [takeChar?] at h
  | cons d s =>
    simp only [takeChar?, Option.ite_none_right_eq_some, Option.some.injEq] at h
    simp [h.2]

theorem length_lt_of_takeName? {s rest : List Char} {name : String}
    (h : takeName? s = some (name, rest)) : rest.length < s.length := by
  cases s with
  | nil => simp [takeName?] at h
  | cons c s =>
    simp only [takeName?, Option.ite_none_right_eq_some, Option.some.injEq, Prod.mk.injEq] at h
    have := (List.dropWhile_suffix (l := s) isNameChar).length_le
    rw [← h.2.2, List.length_cons]
    omega

theorem length_lt_of_takeThrough? {mark s before rest : List Char} (hm : mark ≠ [])
    (h : takeThrough? mark s = some (before, rest)) : rest.length < s.length := by
  induction s generalizing before with
  | nil => simp [takeThrough?] at h
  | cons c s ih =>
    rw [takeThrough?] at h
    split at h
    · simp only [Option.some.injEq, Prod.mk.injEq] at h
      rw [← h.2, List.length_drop, List.length_cons]
      have := List.length_pos_iff.mpr hm
      omega
    · obtain ⟨⟨before', rest'⟩, h', heq⟩ := Option.map_eq_some_iff.mp h
      obtain ⟨_, rfl⟩ := Prod.mk.inj heq
      exact Nat.lt_succ_of_lt (ih h')

theorem length_lt_of_takeValue? {s rest : List Char} {value : String}
    (h : takeValue? s = some (value, rest)) : rest.length < s.length := by
  cases s with
  | nil => simp [takeValue?] at h
  | cons quote s =>
    rw [takeValue?] at h
    split at h
    · split at h
      · simp at h
      · next d tail hd =>
        obtain ⟨_, _, heq⟩ := Option.map_eq_some_iff.mp h
        obtain ⟨_, rfl⟩ := Prod.mk.inj heq
        have := (List.dropWhile_suffix (l := s) (· ≠ quote)).length_le
        rw [hd] at this
        simp only [List.length_cons] at this ⊢
        omega
    · simp at h

theorem length_lt_of_takeAttribute? {s rest : List Char} {a : String × String}
    (h : takeAttribute? s = some (a, rest)) : rest.length < s.length := by
  simp only [takeAttribute?, Option.bind_eq_bind, Option.bind_eq_some_iff, Option.pure_def,
    Option.some.injEq, Prod.mk.injEq] at h
  obtain ⟨⟨name, s₁⟩, h₁, s₂, h₂, ⟨value, s₃⟩, h₃, _, rfl⟩ := h
  have := length_lt_of_takeName? h₁
  have := length_lt_of_takeChar? h₂
  have := length_lt_of_takeValue? h₃
  have := length_skipSpace_le s₁
  have := length_skipSpace_le s₂
  simp only at *
  omega

/-! ### Tokens -/

/-- Reads the attributes of a tag, each after a blank, up to the `>` or `/` that ends the tag. -/
def takeAttributes? (s : List Char) : Option (List (String × String) × List Char) :=
  match skipSpace s with
  | '>' :: rest => some ([], '>' :: rest)
  | '/' :: rest => some ([], '/' :: rest)
  | _ =>
    if s.head?.any isSpace then
      match _h : takeAttribute? (skipSpace s) with
      | none => none
      | some (a, rest) => (takeAttributes? rest).map fun (as, rest) => (a :: as, rest)
    else none
termination_by s.length
decreasing_by
  have := length_lt_of_takeAttribute? _h
  have := length_skipSpace_le s
  omega

/-- The names that no processing instruction may have: `xml` in any case. -/
def isReservedTarget (name : String) : Bool :=
  name.toList.map Char.toLower = ['x', 'm', 'l']

/-- Reads a comment after `<!--`. Two hyphens must end it. -/
def takeComment? (s : List Char) : Option (Token × List Char) := do
  let (content, s) ← takeThrough? ['-', '-'] s
  let s ← takeChar? '>' s
  return (.comment (String.ofList content), s)

/-- Reads a literal section after `<![CDATA[`. -/
def takeLiteral? (s : List Char) : Option (Token × List Char) := do
  let (content, s) ← takeThrough? [']', ']', '>'] s
  return (.text content, s)

/-- Reads a processing instruction after `<?`. -/
def takeInstruction? (s : List Char) : Option (Token × List Char) := do
  let (target, s) ← takeName? s
  guard (!isReservedTarget target && target.utf8ByteSize ≤ maxNameSize)
  let (data, rest) ← takeThrough? ['?', '>'] s
  guard (data = [] || data.head?.any isSpace)
  return (.instruction target (String.ofList (skipSpace data)), rest)

/-- Reads an end tag after `</`. -/
def takeEndTag? (s : List Char) : Option (Token × List Char) := do
  let (name, s) ← takeName? s
  let s ← takeChar? '>' (skipSpace s)
  return (.endTag name, s)

/-- Reads the tag of an element after `<`. -/
def takeTag? (s : List Char) : Option (Token × List Char) := do
  let (name, s) ← takeName? s
  let (attributes, s) ← takeAttributes? s
  match s with
  | '>' :: s => return (.startTag name attributes, s)
  | '/' :: '>' :: s => return (.emptyTag name attributes, s)
  | _ => none

/-- Reads the markup after a `<`. -/
def takeMarkup? : List Char → Option (Token × List Char)
  | '!' :: '-' :: '-' :: s => takeComment? s
  | '!' :: '[' :: 'C' :: 'D' :: 'A' :: 'T' :: 'A' :: '[' :: s => takeLiteral? s
  | '?' :: s => takeInstruction? s
  | '/' :: s => takeEndTag? s
  | s => takeTag? s

/-- Reads one token. In plain text, `]]>` is not allowed. -/
def next? : List Char → Option (Token × List Char)
  | [] => none
  | '<' :: s => takeMarkup? s
  | '&' :: s => (takeReference? s).map fun (c, rest) => (.text [c], rest)
  | c :: s => if [']', ']', '>'].isPrefixOf (c :: s) then none else some (.text [c], s)

theorem length_le_of_takeAttributes? {s rest : List Char} {as : List (String × String)}
    (h : takeAttributes? s = some (as, rest)) : rest.length ≤ s.length := by
  fun_induction takeAttributes? s generalizing as with
  | case1 s tail hs =>
    obtain ⟨_, rfl⟩ := Prod.mk.inj (Option.some.inj h)
    exact hs ▸ length_skipSpace_le s
  | case2 s tail hs =>
    obtain ⟨_, rfl⟩ := Prod.mk.inj (Option.some.inj h)
    exact hs ▸ length_skipSpace_le s
  | case3 => simp at h
  | case4 s _ a tail ha _ _ ih =>
    obtain ⟨⟨as', rest'⟩, h', heq⟩ := Option.map_eq_some_iff.mp h
    obtain ⟨_, rfl⟩ := Prod.mk.inj heq
    have := ih h'
    have := length_lt_of_takeAttribute? ha
    have := length_skipSpace_le s
    omega
  | case5 => simp at h

theorem length_lt_of_takeTag? {s rest : List Char} {t : Token}
    (h : takeTag? s = some (t, rest)) : rest.length < s.length := by
  simp only [takeTag?, Option.bind_eq_bind, Option.bind_eq_some_iff, Option.pure_def] at h
  obtain ⟨⟨name, s₁⟩, h₁, ⟨as, s₂⟩, h₂, h⟩ := h
  have := length_lt_of_takeName? h₁
  have := length_le_of_takeAttributes? h₂
  simp only at *
  split at h <;> simp only [Option.some.injEq, Prod.mk.injEq, reduceCtorEq] at h
  all_goals
    obtain ⟨_, rfl⟩ := h
    simp only [List.length_cons] at *
    omega

theorem length_lt_of_takeInstruction? {s rest : List Char} {t : Token}
    (h : takeInstruction? s = some (t, rest)) : rest.length < s.length := by
  unfold takeInstruction? at h
  obtain ⟨⟨target, s₁⟩, h₁, h⟩ := Option.bind_eq_some_iff.1 h
  obtain ⟨_, _, h⟩ := Option.bind_eq_some_iff.1 h
  obtain ⟨⟨data, s₂⟩, h₂, h⟩ := Option.bind_eq_some_iff.1 h
  obtain ⟨_, _, h⟩ := Option.bind_eq_some_iff.1 h
  obtain ⟨-, rfl⟩ := Prod.mk.inj (Option.some.inj h)
  exact Nat.lt_trans (length_lt_of_takeThrough? (by simp) h₂) (length_lt_of_takeName? h₁)

theorem length_lt_of_takeMarkup? {s rest : List Char} {t : Token}
    (h : takeMarkup? s = some (t, rest)) : rest.length < s.length := by
  unfold takeMarkup? at h
  split at h
  · simp only [takeComment?, Option.bind_eq_bind, Option.bind_eq_some_iff, Option.pure_def,
      Option.some.injEq, Prod.mk.injEq] at h
    obtain ⟨⟨_, s₁⟩, h₁, s₂, h₂, _, rfl⟩ := h
    have := length_lt_of_takeThrough? (by simp) h₁
    have := length_lt_of_takeChar? h₂
    simp only [List.length_cons] at *
    omega
  · simp only [takeLiteral?, Option.bind_eq_bind, Option.bind_eq_some_iff, Option.pure_def,
      Option.some.injEq, Prod.mk.injEq] at h
    obtain ⟨⟨_, s₁⟩, h₁, _, rfl⟩ := h
    have := length_lt_of_takeThrough? (by simp) h₁
    simp only [List.length_cons] at *
    omega
  · have := length_lt_of_takeInstruction? h
    simp only [List.length_cons]
    omega
  · simp only [takeEndTag?, Option.bind_eq_bind, Option.bind_eq_some_iff, Option.pure_def,
      Option.some.injEq, Prod.mk.injEq] at h
    obtain ⟨⟨_, s₁⟩, h₁, s₂, h₂, _, rfl⟩ := h
    have := length_lt_of_takeName? h₁
    have := length_lt_of_takeChar? h₂
    have := length_skipSpace_le s₁
    simp only [List.length_cons] at *
    omega
  · exact length_lt_of_takeTag? h

theorem length_lt_of_next? {s rest : List Char} {t : Token}
    (h : next? s = some (t, rest)) : rest.length < s.length := by
  unfold next? at h
  split at h
  · simp at h
  · exact Nat.lt_succ_of_lt (length_lt_of_takeMarkup? h)
  · obtain ⟨⟨c, rest'⟩, h', heq⟩ := Option.map_eq_some_iff.mp h
    obtain ⟨_, rfl⟩ := Prod.mk.inj heq
    exact Nat.lt_succ_of_lt (length_lt_of_takeReference? h')
  · split at h
    · simp at h
    · obtain ⟨_, rfl⟩ := Prod.mk.inj (Option.some.inj h)
      simp

/-- The tokens of markup, or nothing where some token is not well formed. -/
def tokens? (s : List Char) : Option (List Token) :=
  if s = [] then some []
  else
    match _h : next? s with
    | none => none
    | some (t, rest) => (tokens? rest).map (t :: ·)
termination_by s.length
decreasing_by exact length_lt_of_next? _h

/-! ### Texts of full length -/

/-- Puts characters in front of tokens, into the text that they start with if there is one. -/
def consText (content : List Char) : List Token → List Token
  | .text more :: rest => .text (content ++ more) :: rest
  | rest => if content = [] then rest else .text content :: rest

/-- Joins texts that stand beside each other and drops empty ones. -/
def joinText : List Token → List Token
  | [] => []
  | .text content :: rest => consText content (joinText rest)
  | t :: rest => t :: joinText rest

end DocComment.Xml
