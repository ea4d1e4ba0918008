import DocComment.Text.Quoted

/-!
# Reading quoted texts

A quoted text reads back (`unquoted?_quoted`), so no two texts are quoted alike. The quote that a
text is put in stands first, and is in use for all of it. Inside, a backslash starts every character
that is not written as it is, and says how many characters belong to it.
-/

namespace DocComment.Text

/-- The character whose code point is written in `width` digits, and what stands behind them. -/
def takeCodePoint? (width : Nat) (s : List Char) : Option (Char × List Char) :=
  ((number? 16 (s.take width)).bind charOf?).map fun c => (c, s.drop width)

/-- The character that is written behind a backslash, and what stands behind it. -/
def takeEscape? : List Char → Option (Char × List Char)
  | [] => none
  | 'n' :: rest => some ('\n', rest)
  | 'r' :: rest => some ('\r', rest)
  | 't' :: rest => some ('\t', rest)
  | 'x' :: rest => takeCodePoint? 2 rest
  | 'u' :: rest => takeCodePoint? 4 rest
  | 'U' :: rest => takeCodePoint? 8 rest
  | c :: rest => some (c, rest)

variable {c quote : Char} {width : Nat} {s rest : List Char}

theorem length_le_of_takeCodePoint? (h : takeCodePoint? width s = some (c, rest)) :
    rest.length ≤ s.length := by
  obtain ⟨d, -, hd⟩ := Option.map_eq_some_iff.1 h
  obtain ⟨-, rfl⟩ := Prod.mk.inj hd
  exact (List.drop_sublist width s).length_le

theorem length_lt_of_takeEscape? (h : takeEscape? s = some (c, rest)) :
    rest.length < s.length := by
  unfold takeEscape? at h
  split at h
  case h_1 => cases h
  case h_5 | h_6 | h_7 => exact Nat.lt_succ_of_le (length_le_of_takeCodePoint? h)
  all_goals
    cases h
    exact Nat.lt_succ_self _

/-- The text that is written up to the quote at the end. -/
def readUntil? (quote : Char) (s : List Char) : Option (List Char) :=
  match s with
  | [] => none
  | c :: rest =>
    if c = quote then if rest = [] then some [] else none
    else if c = '\\' then
      match _h : takeEscape? rest with
      | none => none
      | some (d, behind) => (readUntil? quote behind).map (d :: ·)
    else (readUntil? quote rest).map (c :: ·)
termination_by s.length
decreasing_by
  · exact Nat.lt_succ_of_lt (length_lt_of_takeEscape? _h)
  · exact Nat.lt_succ_self _

/-- The text that is shown in quotes. -/
def unquoted? : List Char → Option (List Char)
  | [] => none
  | quote :: rest => readUntil? quote rest

/-! ### One character -/

theorem readUntil?_plain (hquote : c ≠ quote) (hc : c ≠ '\\') (rest : List Char) :
    readUntil? quote (c :: rest) = (readUntil? quote rest).map (c :: ·) := by
  rw [readUntil?, if_neg hquote, if_neg hc]

theorem readUntil?_escape (hquote : quote ≠ '\\') (h : takeEscape? s = some (c, rest)) :
    readUntil? quote ('\\' :: s) = (readUntil? quote rest).map (c :: ·) := by
  rw [readUntil?, if_neg hquote.symm, if_pos rfl]
  split
  · next hnone => cases hnone.symm.trans h
  · next hsome =>
    obtain ⟨rfl, rfl⟩ := Prod.mk.inj (Option.some.inj (hsome.symm.trans h))
    rfl

theorem charOf?_toNat (c : Char) : charOf? c.toNat = some c := by
  have hvalid : c.toNat.isValidChar := c.valid
  rw [charOf?, dif_pos hvalid]
  rfl

theorem toNat_lt (c : Char) : c.toNat < 0x110000 := by
  have hvalid : c.toNat < 0xD800 ∨ (0xDFFF < c.toNat ∧ c.toNat < 0x110000) := c.valid
  omega

theorem takeCodePoint?_hexDigits (hwidth : 0 < width) (hc : c.toNat < Nat.pow 16 width)
    (rest : List Char) :
    takeCodePoint? width (hexDigits width c.toNat ++ rest) = some (c, rest) := by
  have hlength := length_hexDigits width c.toNat
  rw [takeCodePoint?, List.take_left' hlength, List.drop_left' hlength, number?_hexDigits hwidth hc,
    Option.bind_some, charOf?_toNat]
  rfl

theorem takeEscape?_quote (hc : c = '\'' ∨ c = '"' ∨ c = '\\') (rest : List Char) :
    takeEscape? (c :: rest) = some (c, rest) := by
  rcases hc with rfl | rfl | rfl <;> rfl

theorem readUntil?_escaped (hquote : quote = '\'' ∨ quote = '"') (c : Char) (rest : List Char) :
    readUntil? quote (escaped quote c ++ rest) = (readUntil? quote rest).map (c :: ·) := by
  have hslash : quote ≠ '\\' := by rcases hquote with rfl | rfl <;> decide
  -- one case for each way to write a character; what follows the backslash tells them apart
  unfold escaped
  split
  · next hc =>
    have hmark : c = '\'' ∨ c = '"' ∨ c = '\\' := by
      rcases hc with rfl | rfl
      · exact hquote.imp_right .inl
      · exact .inr (.inr rfl)
    exact readUntil?_escape hslash (takeEscape?_quote hmark rest)
  next hc =>
  split
  · next hc => exact hc ▸ readUntil?_escape hslash rfl
  split
  · next hc => exact hc ▸ readUntil?_escape hslash rfl
  split
  · next hc => exact hc ▸ readUntil?_escape hslash rfl
  split
  · exact readUntil?_plain (fun heq => hc (.inl heq)) (fun heq => hc (.inr heq)) rest
  split
  · next hlow =>
    exact readUntil?_escape hslash (takeCodePoint?_hexDigits (by decide) hlow rest)
  split
  · next hlow =>
    exact readUntil?_escape hslash (takeCodePoint?_hexDigits (by decide) hlow rest)
  · have hlow : c.toNat < Nat.pow 16 8 := Nat.lt_trans (toNat_lt c) (by decide)
    exact readUntil?_escape hslash (takeCodePoint?_hexDigits (by decide) hlow rest)

/-! ### Whole texts -/

theorem quoteFor_eq (s : List Char) : quoteFor s = '\'' ∨ quoteFor s = '"' := by
  unfold quoteFor
  split
  · exact .inr rfl
  · exact .inl rfl

theorem readUntil?_flatMap (hquote : quote = '\'' ∨ quote = '"') (s : List Char) :
    readUntil? quote (s.flatMap (escaped quote) ++ [quote]) = some s := by
  induction s with
  | nil => rw [List.flatMap_nil, List.nil_append, readUntil?, if_pos rfl, if_pos rfl]
  | cons c s ih =>
    rw [List.flatMap_cons, List.append_assoc, readUntil?_escaped hquote, ih]
    rfl

theorem unquoted?_quoted (s : List Char) : unquoted? (quoted s) = some s :=
  readUntil?_flatMap (quoteFor_eq s) s

end DocComment.Text
