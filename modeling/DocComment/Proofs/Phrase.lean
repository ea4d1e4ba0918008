import DocComment.Proofs.Collapse

/-!
# Phrases

A phrase is one word or more, with single spaces between them and no blanks around them. Collapsing
makes phrases of all texts with words (`isPhrase_collapse`) and keeps phrases. Two phrases put
together, with a space between them or without, are a phrase again.
-/

namespace DocComment.Text

variable {c : Char} {s t : List Char}

theorem collapse_eq_nil_iff : collapse s = [] ↔ hasWord s = false := by
  constructor
  · intro h
    induction s with
    | nil => rfl
    | cons c s ih =>
      cases hc : isBlank c with
      | true =>
        rw [collapse_cons_of_isBlank hc] at h
        rw [hasWord_cons, hc, ih h]
        rfl
      | false =>
        rw [collapse_cons hc] at h
        cases h
  · exact collapse_of_hasWord_eq_false

theorem startsBlank_collapse (s : List Char) : startsBlank (collapse s) = false := by
  induction s with
  | nil => rfl
  | cons c s ih =>
    cases hc : isBlank c with
    | true => rwa [collapse_cons_of_isBlank hc]
    | false => rwa [collapse_cons hc, startsBlank_cons]

theorem endsBlank_collapse (s : List Char) : endsBlank (collapse s) = false := by
  induction s with
  | nil => rfl
  | cons c s ih =>
    cases hc : isBlank c with
    | true => rwa [collapse_cons_of_isBlank hc]
    | false =>
      rw [collapse_cons hc, endsBlank_cons]
      cases hs : hasWord s with
      | true =>
        have hne : collapse s ≠ [] := by
          intro h
          rw [collapse_eq_nil_iff.1 h] at hs
          cases hs
        rw [if_neg (by simp [hne]), endsBlank_append, if_neg hne, ih]
      | false => simpa [seam, hs, collapse_eq_nil_iff.2 hs] using hc

theorem hasWord_collapse (s : List Char) : hasWord (collapse s) = hasWord s := by
  induction s with
  | nil => rfl
  | cons c s ih =>
    cases hc : isBlank c with
    | true => rw [collapse_cons_of_isBlank hc, ih, hasWord_cons, hc, Bool.not_true, Bool.false_or]
    | false => rw [collapse_cons hc, hasWord_cons, hasWord_cons, hc, Bool.not_false, Bool.true_or,
        Bool.true_or]

theorem collapse_collapse (s : List Char) : collapse (collapse s) = collapse s := by
  induction s with
  | nil => rfl
  | cons c s ih =>
    cases hc : isBlank c with
    | true => rwa [collapse_cons_of_isBlank hc]
    | false =>
      rw [collapse_cons hc]
      unfold seam
      split
      · next hsep =>
        simp only [Bool.and_eq_true] at hsep
        -- the space is a blank in front of the rest, which has a word
        have hspace : isBlank ' ' = true := by decide
        rw [List.singleton_append, collapse_cons hc, collapse_cons_of_isBlank hspace, ih]
        simp [seam, hspace, hc, hasWord_collapse, hsep.2]
      · rw [List.nil_append, collapse_cons hc, ih]
        simp [seam, startsBlank_collapse]

/-- No blank but spaces is left, and all else was there. -/
theorem mem_collapse (h : c ∈ collapse s) : c = ' ' ∨ (c ∈ s ∧ isBlank c = false) := by
  induction s with
  | nil => cases h
  | cons d s ih =>
    have hrest (h : c ∈ collapse s) : c = ' ' ∨ (c ∈ d :: s ∧ isBlank c = false) :=
      (ih h).imp_right fun ⟨hmem, hc⟩ => ⟨List.mem_cons_of_mem _ hmem, hc⟩
    cases hd : isBlank d with
    | true => exact hrest (collapse_cons_of_isBlank hd ▸ h)
    | false =>
      rw [collapse_cons hd, List.mem_cons, List.mem_append] at h
      rcases h with rfl | h | h
      · exact .inr ⟨List.mem_cons_self .., hd⟩
      · unfold seam at h
        split at h
        · exact .inl (List.mem_singleton.1 h)
        · cases h
      · exact hrest h

/-- Words with single spaces between them, one word or more, and no blanks around them. -/
structure IsPhrase (s : List Char) : Prop where
  collapse_eq : collapse s = s
  hasWord : hasWord s = true

namespace IsPhrase

theorem startsBlank (h : IsPhrase s) : startsBlank s = false :=
  h.collapse_eq ▸ startsBlank_collapse s

theorem endsBlank (h : IsPhrase s) : endsBlank s = false :=
  h.collapse_eq ▸ endsBlank_collapse s

theorem append (h : IsPhrase s) (h' : IsPhrase t) : IsPhrase (s ++ t) := by
  refine ⟨?_, by rw [hasWord_append, h.hasWord, Bool.true_or]⟩
  rw [collapse_append, h.collapse_eq, h'.collapse_eq, h.endsBlank, h'.startsBlank]
  simp [seam]

theorem append_space (h : IsPhrase s) (h' : IsPhrase t) : IsPhrase (s ++ ' ' :: t) := by
  have hspace : isBlank ' ' = true := by decide
  refine ⟨?_, by rw [hasWord_append, h.hasWord, Bool.true_or]⟩
  rw [collapse_append, collapse_cons_of_isBlank hspace, h.collapse_eq, h'.collapse_eq]
  simp [seam, hspace, h.hasWord, h'.hasWord]

end IsPhrase

end DocComment.Text
