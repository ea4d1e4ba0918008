import Mathlib.Data.List.Forall2
import DocComment.Proofs.ParameterList

/-!
# The commas at depth zero

`IsCutFrom` says where a text is cut: at the commas in front of which as many braces and brackets
are closed as opened, and at no others. There is one way to do so, and `cutFrom` finds it
(`isCutFrom_iff`), whether or not the braces and brackets of the text match. Closed texts are found
again in the text that lists them, whatever blanks stand around them (`split_topLevel`).
-/

namespace DocComment.Parameters
open Text

/-- The pieces of a text that starts at depth `d`, when it is cut at the commas at depth zero. -/
structure IsCutFrom (d : Int) (s : List Char) (pieces : List (List Char)) : Prop where
  ne_nil : pieces ≠ []
  joined : [','].intercalate pieces = s
  /-- The commas between the pieces are at depth zero. -/
  between : ∀ front back, pieces = front ++ back → front ≠ [] → back ≠ [] →
    d + depth ([','].intercalate front) = 0
  /-- The commas inside the pieces are not. -/
  inside : ∀ front before after back, pieces = front ++ (before ++ ',' :: after) :: back →
    d + depth ([','].intercalate (front ++ [before])) ≠ 0

/-- A text with blanks around it. -/
def IsPadded (part written : List Char) : Prop :=
  ∃ before after, (∀ c ∈ before ++ after, isBlank c = true) ∧ written = before ++ part ++ after

variable {c : Char} {d : Int} {s part first written : List Char} {parts pieces : List (List Char)}

/-! ### One character more -/

theorem intercalate_cons_char : [','].intercalate ((c :: first) :: pieces) =
    c :: [','].intercalate (first :: pieces) := by
  cases pieces <;> simp

theorem intercalate_nil_cons (hne : pieces ≠ []) :
    [','].intercalate ([] :: pieces) = ',' :: [','].intercalate pieces := by
  rw [List.intercalate_cons_of_ne_nil hne]
  rfl

theorem isCutFrom_nil : IsCutFrom d [] pieces ↔ pieces = [[]] := by
  constructor
  · intro h
    obtain ⟨first, rest, rfl⟩ := List.exists_cons_of_ne_nil h.ne_nil
    cases rest with
    | nil => simpa using h.joined
    | cons next rest => simpa using h.joined
  · rintro rfl
    refine ⟨by simp, rfl, fun front back h hfront hback => ?_, fun front before after back h => ?_⟩
    · have hlength := congrArg List.length h
      have := List.length_pos_iff.2 hfront
      have := List.length_pos_iff.2 hback
      simp at hlength
      omega
    · cases front with
      | nil => simp at h
      | cons f front => simp at h

theorem depth_intercalate_nil (hne : pieces ≠ []) :
    depth ([','].intercalate ([] :: pieces)) = depth ([','].intercalate pieces) := by
  rw [intercalate_nil_cons hne, depth_cons]
  exact Int.zero_add _

theorem depth_intercalate_char : d + depth ([','].intercalate ((c :: first) :: pieces)) =
    d + step c + depth ([','].intercalate (first :: pieces)) := by
  rw [intercalate_cons_char, depth_cons, Int.add_assoc]

namespace IsCutFrom

/-- A comma at depth zero ends a piece. -/
theorem comma (h : IsCutFrom 0 s pieces) : IsCutFrom 0 (',' :: s) ([] :: pieces) where
  ne_nil := List.cons_ne_nil _ _
  joined := by rw [intercalate_nil_cons h.ne_nil, h.joined]
  between front back hcut hfront hback := by
    obtain ⟨f, front, rfl⟩ := List.exists_cons_of_ne_nil hfront
    obtain ⟨rfl, htail⟩ := List.cons.inj hcut
    by_cases hnil : front = []
    · rw [hnil]
      rfl
    · rw [depth_intercalate_nil hnil]
      exact h.between front back htail hnil hback
  inside front before after back hcut := by
    cases front with
    | nil => simp at hcut
    | cons f front =>
      obtain ⟨rfl, htail⟩ := List.cons.inj hcut
      rw [List.cons_append, depth_intercalate_nil (by simp)]
      exact h.inside front before after back htail

theorem of_comma (h : IsCutFrom 0 (',' :: s) ([] :: pieces)) (hne : pieces ≠ []) :
    IsCutFrom 0 s pieces where
  ne_nil := hne
  joined := by
    have hjoined := h.joined
    rw [intercalate_nil_cons hne] at hjoined
    exact (List.cons.inj hjoined).2
  between front back hcut hfront hback := by
    rw [← depth_intercalate_nil hfront]
    exact h.between ([] :: front) back (by rw [hcut]; rfl) (List.cons_ne_nil _ _) hback
  inside front before after back hcut := by
    rw [← depth_intercalate_nil (by simp)]
    exact h.inside ([] :: front) before after back (by rw [hcut]; rfl)

/-- Every other character stands in a piece. -/
theorem char (h : IsCutFrom (d + step c) s (first :: pieces)) (hc : ¬(c = ',' ∧ d = 0)) :
    IsCutFrom d (c :: s) ((c :: first) :: pieces) where
  ne_nil := List.cons_ne_nil _ _
  joined := by rw [intercalate_cons_char, h.joined]
  between front back hcut hfront hback := by
    obtain ⟨f, front, rfl⟩ := List.exists_cons_of_ne_nil hfront
    obtain ⟨rfl, htail⟩ := List.cons.inj hcut
    rw [depth_intercalate_char]
    exact h.between (first :: front) back (by rw [htail]; rfl) (List.cons_ne_nil _ _) hback
  inside front before after back hcut := by
    cases front with
    | nil =>
      obtain ⟨hfirst, rfl⟩ := List.cons.inj hcut
      cases before with
      | nil =>
        obtain ⟨rfl, -⟩ := List.cons.inj hfirst
        simpa using hc
      | cons b before =>
        obtain ⟨rfl, rfl⟩ := List.cons.inj hfirst
        rw [List.nil_append, depth_intercalate_char]
        exact h.inside [] before after pieces rfl
    | cons f front =>
      obtain ⟨rfl, htail⟩ := List.cons.inj hcut
      rw [List.cons_append, depth_intercalate_char]
      exact h.inside (first :: front) before after back (by rw [htail]; rfl)

theorem of_char (h : IsCutFrom d (c :: s) ((c :: first) :: pieces)) :
    IsCutFrom (d + step c) s (first :: pieces) where
  ne_nil := List.cons_ne_nil _ _
  joined := by
    have hjoined := h.joined
    rw [intercalate_cons_char] at hjoined
    exact (List.cons.inj hjoined).2
  between front back hcut hfront hback := by
    obtain ⟨f, front, rfl⟩ := List.exists_cons_of_ne_nil hfront
    obtain ⟨rfl, htail⟩ := List.cons.inj hcut
    rw [← depth_intercalate_char]
    exact h.between ((c :: first) :: front) back (by rw [htail]; rfl) (List.cons_ne_nil _ _) hback
  inside front before after back hcut := by
    cases front with
    | nil =>
      obtain ⟨rfl, rfl⟩ := List.cons.inj hcut
      rw [List.nil_append, ← depth_intercalate_char]
      exact h.inside [] (c :: before) after pieces rfl
    | cons f front =>
      obtain ⟨rfl, htail⟩ := List.cons.inj hcut
      rw [List.cons_append, ← depth_intercalate_char]
      exact h.inside ((c :: first) :: front) before after back (by rw [htail]; rfl)

/-- The first character is a comma at depth zero and stands in front of the second piece, or it is
the first character of the first piece. -/
theorem exists_cons (h : IsCutFrom d (c :: s) pieces) :
    (c = ',' ∧ d = 0 ∧ ∃ rest, rest ≠ [] ∧ pieces = [] :: rest) ∨
      (¬(c = ',' ∧ d = 0) ∧ ∃ first rest, pieces = (c :: first) :: rest) := by
  obtain ⟨piece, rest, rfl⟩ := List.exists_cons_of_ne_nil h.ne_nil
  have hjoined := h.joined
  cases piece with
  | nil =>
    have hrest : rest ≠ [] := by
      rintro rfl
      simp at hjoined
    rw [intercalate_nil_cons hrest] at hjoined
    obtain ⟨rfl, -⟩ := List.cons.inj hjoined
    have hzero := h.between [[]] rest rfl (List.cons_ne_nil _ _) hrest
    exact .inl ⟨rfl, by simpa using hzero, rest, hrest, rfl⟩
  | cons b piece =>
    rw [intercalate_cons_char] at hjoined
    obtain ⟨rfl, -⟩ := List.cons.inj hjoined
    refine .inr ⟨?_, piece, rest, rfl⟩
    rintro ⟨rfl, rfl⟩
    exact h.inside [] [] piece rest rfl rfl

end IsCutFrom

/-! ### The cut -/

theorem cutFrom_ne_nil (d : Int) (s : List Char) : cutFrom d s ≠ [] := by
  cases s with
  | nil => exact List.cons_ne_nil _ _
  | cons c s =>
    rw [cutFrom]
    split
    · exact List.cons_ne_nil _ _
    · exact consToFirst_ne_nil _ _

/-- There is one way to cut a text, and that is how it is read. -/
theorem isCutFrom_iff : IsCutFrom d s pieces ↔ pieces = cutFrom d s := by
  induction s generalizing d pieces with
  | nil => exact isCutFrom_nil
  | cons c s ih =>
    by_cases hc : c = ',' ∧ d = 0
    · obtain ⟨rfl, rfl⟩ := hc
      rw [cutFrom, if_pos ⟨rfl, rfl⟩]
      constructor
      · intro h
        rcases h.exists_cons with ⟨-, -, rest, hrest, rfl⟩ | ⟨hno, -⟩
        · rw [ih.1 (h.of_comma hrest)]
        · exact absurd ⟨rfl, rfl⟩ hno
      · rintro rfl
        exact IsCutFrom.comma (ih.2 rfl)
    · rw [cutFrom, if_neg hc]
      constructor
      · intro h
        rcases h.exists_cons with ⟨rfl, rfl, -⟩ | ⟨-, first, rest, rfl⟩
        · exact absurd ⟨rfl, rfl⟩ hc
        · rw [← ih.1 h.of_char]
          rfl
      · rintro rfl
        obtain ⟨first, rest, hcut⟩ := List.exists_cons_of_ne_nil (cutFrom_ne_nil (d + step c) s)
        rw [hcut]
        exact (ih.2 hcut.symm).char hc

/-! ### Blanks around the pieces -/

theorem step_of_isBlank (h : isBlank c = true) : step c = 0 ∧ c ≠ ',' := by
  have hmarks : ∀ mark ∈ [',', '\x7b', '[', '\x7d', ']'], isBlank mark = false := by decide
  have hne : ∀ mark ∈ [',', '\x7b', '[', '\x7d', ']'], c ≠ mark := by
    intro mark hmark heq
    rw [heq, hmarks mark hmark] at h
    exact Bool.false_ne_true h
  simp only [List.mem_cons, List.not_mem_nil, or_false, forall_eq_or_imp, forall_eq] at hne
  simp [step, hne]

theorem closedFrom_plain_behind (h : ∀ c ∈ written, step c = 0 ∧ c ≠ ',') (d : Int)
    (s : List Char) : closedFrom d (s ++ written) = closedFrom d s := by
  induction s generalizing d with
  | nil =>
    have hplain := closedFrom_append_plain h d []
    rwa [List.append_nil] at hplain
  | cons c s ih => rw [List.cons_append, closedFrom, closedFrom, ih]

theorem Closed.padded (h : Closed part) (hpad : IsPadded part written) : Closed written := by
  obtain ⟨before, after, hblank, rfl⟩ := hpad
  have hplain : ∀ c ∈ before ++ after, step c = 0 ∧ c ≠ ',' := fun c hc =>
    step_of_isBlank (hblank c hc)
  obtain ⟨hbefore, hafter⟩ := List.forall_mem_append.1 hplain
  rw [closed_iff] at h ⊢
  rw [closedFrom_plain_behind hafter, closedFrom_append_plain hbefore, h]

theorem IsPadded.trim_eq (h : IsPadded part written) (htrim : trim part = part) :
    trim written = part := by
  obtain ⟨before, after, hblank, rfl⟩ := h
  obtain ⟨hbefore, hafter⟩ := List.forall_mem_append.1 hblank
  exact trim_append_append hbefore hafter htrim

theorem map_trim_of_padded {written : List (List Char)} (h : List.Forall₂ IsPadded parts written)
    (htrim : ∀ part ∈ parts, trim part = part) : written.map trim = parts := by
  induction h with
  | nil => rfl
  | cons hpad _ ih =>
    rw [List.map_cons, hpad.trim_eq (htrim _ (List.mem_cons_self ..)),
      ih fun part hpart => htrim part (List.mem_cons_of_mem _ hpart)]

theorem closed_of_padded {written : List (List Char)} (h : List.Forall₂ IsPadded parts written)
    (hclosed : ∀ part ∈ parts, Closed part) : ∀ text ∈ written, Closed text := by
  induction h with
  | nil => exact List.forall_mem_nil _
  | cons hpad _ ih =>
    obtain ⟨hpart, hparts⟩ := List.forall_mem_cons.1 hclosed
    exact List.forall_mem_cons.2 ⟨hpart.padded hpad, ih hparts⟩

/-- A list of parameters is cut at the commas at depth zero and at no others, and the blanks around
the pieces are taken off; only the empty text has no piece. So closed texts are found again in the
text that lists them, and blanks around the commas change nothing. -/
theorem split_topLevel :
    (∀ s, ∃ pieces, IsCutFrom 0 s pieces ∧ (∀ others, IsCutFrom 0 s others → others = pieces) ∧
      split s = if s = [] then [] else pieces.map trim) ∧
    ∀ parts, parts ≠ [[]] → (∀ part ∈ parts, Closed part ∧ trim part = part) →
      split ([','].intercalate parts) = parts ∧
      ∀ written, List.Forall₂ IsPadded parts written →
        split ([','].intercalate written) = parts := by
  constructor
  · intro s
    exact ⟨cutFrom 0 s, isCutFrom_iff.2 rfl, fun others h => isCutFrom_iff.1 h, rfl⟩
  · intro parts hne hparts
    have hclosed : ∀ part ∈ parts, Closed part := fun part hpart => (hparts part hpart).1
    have htrim : ∀ part ∈ parts, trim part = part := fun part hpart => (hparts part hpart).2
    refine ⟨split_intercalate hne hclosed htrim, fun written hpad => ?_⟩
    have hwritten := map_trim_of_padded hpad htrim
    have hne' : written ≠ [[]] := by
      rintro rfl
      exact hne hwritten.symm
    rw [split_intercalate_closed hne' (closed_of_padded hpad hclosed), hwritten]

theorem split_topLevel_padded :
    let parts := ["A\x7bB,C[,]\x7d".toList, [], "\x7d,\x7b".toList]
    let written := [" A\x7bB,C[,]\x7d\t".toList, " ".toList, "\u3000\x7d,\x7b".toList]
    parts ≠ [[]] ∧ (∀ part ∈ parts, Closed part ∧ trim part = part) ∧
      List.Forall₂ IsPadded parts written ∧ split ([','].intercalate written) = parts := by
  intro parts written
  have hne : parts ≠ [[]] := by decide
  have hparts : ∀ part ∈ parts, Closed part ∧ trim part = part := by decide
  have hpad : List.Forall₂ IsPadded parts written :=
    .cons ⟨[' '], ['\t'], by decide, rfl⟩
      (.cons ⟨[' '], [], by decide, rfl⟩ (.cons ⟨['\u3000'], [], by decide, rfl⟩ .nil))
  exact ⟨hne, hparts, hpad, (split_topLevel.2 parts hne hparts).2 written hpad⟩

/-- Braces that do not match count as well. -/
example : split "A\x7d,B,\x7b,C".toList = ["A\x7d,B,\x7b".toList, "C".toList] := by decide

end DocComment.Parameters
