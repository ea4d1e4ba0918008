/-!
# Texts cut at a separator

`separated sep s` cuts a text at every `sep`. It undoes joining: `separated_intercalate`. Joining
undoes it: `intercalate_separated`.
-/

namespace DocComment.Text

/-- The parts of a text between the characters `sep`; there is always one more than separators. -/
def separated (sep : Char) : List Char → List (List Char)
  | [] => [[]]
  | c :: rest =>
    match separated sep rest with
    | [] => [[c]]
    | part :: parts => if c = sep then [] :: part :: parts else (c :: part) :: parts

@[simp] theorem separated_ne_nil (sep : Char) (s : List Char) : separated sep s ≠ [] := by
  cases s with
  | nil => simp [separated]
  | cons c rest => rw [separated]; split <;> (try split) <;> simp

theorem separated_cons_sep (sep : Char) (s : List Char) :
    separated sep (sep :: s) = [] :: separated sep s := by
  rw [separated]
  split
  · next h => exact absurd h (separated_ne_nil sep s)
  · next h => rw [h]; simp

theorem separated_append_sep {sep : Char} {part : List Char} (h : sep ∉ part) (rest : List Char) :
    separated sep (part ++ sep :: rest) = part :: separated sep rest := by
  induction part with
  | nil => exact separated_cons_sep sep rest
  | cons c part ih =>
    simp only [List.mem_cons, not_or] at h
    rw [List.cons_append, separated, ih h.2]
    simp [Ne.symm h.1]

theorem separated_of_not_mem {sep : Char} {part : List Char} (h : sep ∉ part) :
    separated sep part = [part] := by
  induction part with
  | nil => rfl
  | cons c part ih =>
    simp only [List.mem_cons, not_or] at h
    rw [separated, ih h.2]
    simp [Ne.symm h.1]

theorem separated_intercalate {sep : Char} {parts : List (List Char)} (hne : parts ≠ [])
    (h : ∀ part ∈ parts, sep ∉ part) : separated sep ([sep].intercalate parts) = parts := by
  induction parts with
  | nil => exact absurd rfl hne
  | cons part parts ih =>
    cases parts with
    | nil => simpa [List.intercalate] using separated_of_not_mem (h part (by simp))
    | cons next parts =>
      have step : [sep].intercalate (part :: next :: parts)
          = part ++ sep :: [sep].intercalate (next :: parts) := by
        simp [List.intercalate]
      rw [step, separated_append_sep (h part (by simp)),
        ih (by simp) fun p hp => h p (List.mem_cons_of_mem _ hp)]

theorem intercalate_separated (sep : Char) (s : List Char) :
    [sep].intercalate (separated sep s) = s := by
  induction s with
  | nil => rfl
  | cons c s ih =>
    rw [separated]
    split
    · next h => exact absurd h (separated_ne_nil sep s)
    · next part parts h =>
      rw [h] at ih
      split
      · next hc =>
        rw [List.intercalate_cons_cons, ih, hc]
        rfl
      · cases parts with
        | nil => simpa using ih
        | cons next parts => simpa using ih

theorem not_mem_of_mem_separated {sep : Char} {s part : List Char} (h : part ∈ separated sep s) :
    sep ∉ part := by
  induction s generalizing part with
  | nil =>
    obtain rfl : part = [] := by simpa [separated] using h
    exact List.not_mem_nil
  | cons c s ih =>
    rw [separated] at h
    split at h
    · next hnil => exact absurd hnil (separated_ne_nil sep s)
    · next first parts hs =>
      rw [hs] at ih
      split at h
      · rcases List.mem_cons.1 h with rfl | h
        · exact List.not_mem_nil
        · exact ih h
      · next hc =>
        rcases List.mem_cons.1 h with rfl | h
        · exact List.not_mem_cons_of_ne_of_not_mem (Ne.symm hc) (ih (List.mem_cons_self ..))
        · exact ih (List.mem_cons_of_mem _ h)

/-! ### Characters of joined texts -/

theorem mem_intercalate_of_mem {sep c : Char} {parts : List (List Char)} {part : List Char}
    (hpart : part ∈ parts) (hc : c ∈ part) : c ∈ [sep].intercalate parts := by
  induction parts with
  | nil => cases hpart
  | cons first rest ih =>
    cases rest with
    | nil =>
      obtain rfl := List.mem_singleton.1 hpart
      simpa using hc
    | cons next rest =>
      rw [List.intercalate_cons_cons]
      rcases List.mem_cons.1 hpart with rfl | hpart
      · simp [hc]
      · simp [ih hpart]

theorem eq_or_mem_of_mem_intercalate {sep c : Char} {parts : List (List Char)}
    (h : c ∈ [sep].intercalate parts) : c = sep ∨ ∃ part ∈ parts, c ∈ part := by
  induction parts with
  | nil => cases h
  | cons first rest ih =>
    cases rest with
    | nil => exact .inr ⟨first, List.mem_singleton_self first, by simpa using h⟩
    | cons next rest =>
      rw [List.intercalate_cons_cons, List.append_assoc, List.mem_append, List.mem_append,
        List.mem_singleton] at h
      rcases h with h | h | h
      · exact .inr ⟨first, List.mem_cons_self .., h⟩
      · exact .inl h
      · rcases ih h with h | ⟨part, hpart, h⟩
        · exact .inl h
        · exact .inr ⟨part, List.mem_cons_of_mem _ hpart, h⟩

end DocComment.Text
