import DocComment.Text.Blank

/-!
# Collapsing blanks

`collapse_append`: the collapsed form of two texts put together is that of the first, that of the
second, and a space between them where blanks at the seam keep two words apart.
-/

namespace DocComment.Text

/-- Whether the text starts with a blank. -/
def startsBlank (s : List Char) : Bool :=
  s.head?.any isBlank

/-- Whether the text ends with a blank. -/
def endsBlank (s : List Char) : Bool :=
  s.getLast?.any isBlank

/-- Whether the text has a character that is no blank. -/
def hasWord (s : List Char) : Bool :=
  s.any (!isBlank ·)

/-- The space that stands between two texts once they are collapsed. `gap` says whether blanks keep
them apart. -/
def seam (gap : Bool) (s t : List Char) : List Char :=
  if gap && hasWord s && hasWord t then [' '] else []

variable {c : Char} {s t : List Char}

theorem hasWord_eq_false_iff : hasWord s = false ↔ ∀ c ∈ s, isBlank c = true := by
  simp [hasWord]

@[simp] theorem hasWord_nil : hasWord [] = false := rfl

@[simp] theorem hasWord_cons : hasWord (c :: s) = (!isBlank c || hasWord s) := rfl

@[simp] theorem hasWord_append : hasWord (s ++ t) = (hasWord s || hasWord t) := by
  simp [hasWord]

@[simp] theorem startsBlank_nil : startsBlank [] = false := rfl

@[simp] theorem startsBlank_cons : startsBlank (c :: s) = isBlank c := by
  simp [startsBlank]

@[simp] theorem endsBlank_nil : endsBlank [] = false := rfl

theorem endsBlank_cons : endsBlank (c :: s) = if s = [] then isBlank c else endsBlank s := by
  cases s with
  | nil => simp [endsBlank]
  | cons d s => simp [endsBlank]

theorem endsBlank_append : endsBlank (s ++ t) = if t = [] then endsBlank s else endsBlank t := by
  cases t with
  | nil => simp
  | cons d t =>
    rw [endsBlank, List.getLast?_append, List.getLast?_cons]
    simp [endsBlank, List.getLast?_cons]

theorem startsBlank_append : startsBlank (s ++ t) = if s = [] then startsBlank t else startsBlank s := by
  cases s with
  | nil => simp
  | cons c s => simp

/-- A text without words starts with a blank and ends with one, unless it is empty. -/
theorem startsBlank_of_hasWord_eq_false (h : hasWord s = false) : startsBlank s = !s.isEmpty := by
  cases s with
  | nil => rfl
  | cons c s => simpa using hasWord_eq_false_iff.1 h c (by simp)

theorem endsBlank_of_hasWord_eq_false (h : hasWord s = false) : endsBlank s = !s.isEmpty := by
  rcases List.eq_nil_or_concat s with rfl | ⟨s, c, rfl⟩
  · rfl
  · have := hasWord_eq_false_iff.1 h c (by simp)
    simp [endsBlank, this]

theorem words_cons_of_isBlank (h : isBlank c = true) : words (c :: s) = words s := by
  cases s with
  | nil => simp [words, h]
  | cons d s => simp [words, h]

theorem words_ne_nil_iff : words s ≠ [] ↔ hasWord s = true := by
  rw [Ne, words_eq_nil_iff, ← hasWord_eq_false_iff, Bool.not_eq_false]

/-- The words of a text are what stands between its blanks, without what is empty. -/
theorem words_eq_filter_splitOnP (s : List Char) :
    words s = (s.splitOnP isBlank).filter (· ≠ []) := by
  fun_induction words s with
  | case1 => rfl
  | case2 c hc => simp [List.splitOnP_cons_eq_if_modifyHead, hc]
  | case3 c hc => simp [List.splitOnP_cons_eq_if_modifyHead, hc]
  | case4 c d rest hc ih =>
    rw [List.splitOnP_cons_eq_if_modifyHead, if_pos hc, ih]
    rfl
  | case5 c d rest hc hd ih =>
    rw [List.splitOnP_cons_eq_if_modifyHead, if_neg hc, ih, List.splitOnP_cons_eq_if_modifyHead,
      if_pos hd]
    rfl
  | case6 c d rest hc hd ih =>
    -- both characters stand in front of the same piece
    obtain ⟨piece, pieces, hsplit⟩ := List.exists_cons_of_ne_nil (List.splitOnP_ne_nil isBlank rest)
    rw [List.splitOnP_cons_eq_if_modifyHead, if_neg hc, ih, List.splitOnP_cons_eq_if_modifyHead,
      if_neg hd, hsplit]
    rfl

theorem collapse_of_hasWord_eq_false (h : hasWord s = false) : collapse s = [] := by
  rw [collapse, (words_eq_nil_iff s).2 (hasWord_eq_false_iff.1 h)]
  rfl

@[simp] theorem collapse_nil : collapse [] = [] := rfl

theorem collapse_cons_of_isBlank (h : isBlank c = true) : collapse (c :: s) = collapse s := by
  rw [collapse, words_cons_of_isBlank h, collapse]

theorem intercalate_consToFirst {ws : List (List Char)} :
    [' '].intercalate (consToFirst c ws) = c :: [' '].intercalate ws := by
  match ws with
  | [] => simp [consToFirst, List.intercalate]
  | [w] => simp [consToFirst, List.intercalate]
  | w :: v :: ws => simp [consToFirst, List.intercalate]

/-- A first character that is no blank stays, with a space behind it if its word ends there. -/
theorem collapse_cons (h : isBlank c = false) :
    collapse (c :: s) = c :: (seam (startsBlank s) [c] s ++ collapse s) := by
  match s with
  | [] => simp [collapse, words, h, seam, List.intercalate]
  | d :: s =>
    cases hd : isBlank d with
    | false =>
      have hw : words (c :: d :: s) = consToFirst c (words (d :: s)) := by simp [words, h, hd]
      rw [collapse, hw, intercalate_consToFirst]
      simp [seam, hd, collapse]
    | true =>
      have hw : words (c :: d :: s) = [c] :: words (d :: s) := by simp [words, h, hd]
      rw [collapse, hw]
      cases ht : hasWord (d :: s) with
      | false =>
        rw [(words_eq_nil_iff _).2 (hasWord_eq_false_iff.1 ht), collapse_of_hasWord_eq_false ht]
        simp [seam, ht, List.intercalate]
      | true =>
        rw [List.intercalate_cons_of_ne_nil (words_ne_nil_iff.2 ht)]
        simp [seam, ht, hd, h, collapse]

theorem collapse_append :
    collapse (s ++ t) = collapse s ++ seam (endsBlank s || startsBlank t) s t ++ collapse t := by
  induction s with
  | nil => simp [seam]
  | cons c s ih =>
    cases hc : isBlank c with
    | true =>
      rw [List.cons_append, collapse_cons_of_isBlank hc, collapse_cons_of_isBlank hc, ih]
      cases s with
      | nil => simp [seam, hc]
      | cons d s => simp [seam, hc, endsBlank_cons]
    | false =>
      rw [List.cons_append, collapse_cons hc, collapse_cons hc, ih]
      cases s with
      | nil => simp [seam, hc, endsBlank_cons]
      | cons d s =>
        -- Where the rest of the first text is blank, its blanks are those at the seam.
        cases hs : hasWord (d :: s) with
        | false =>
          have hd : isBlank d = true := hasWord_eq_false_iff.1 hs d (by simp)
          have he : endsBlank (c :: d :: s) = true := by
            simpa [endsBlank_cons] using endsBlank_of_hasWord_eq_false hs
          have hh : hasWord (d :: s ++ t) = hasWord t := by rw [hasWord_append, hs, Bool.false_or]
          rw [collapse_of_hasWord_eq_false hs, seam, seam, seam, seam, hh, hs, he]
          simp [hc, hd]
        | true =>
          have he : endsBlank (c :: d :: s) = endsBlank (d :: s) := by simp [endsBlank_cons]
          have hh : hasWord (d :: s ++ t) = true := by rw [hasWord_append, hs, Bool.true_or]
          rw [he, seam, seam, seam, seam, hh, hs]
          simp [hc]

end DocComment.Text
