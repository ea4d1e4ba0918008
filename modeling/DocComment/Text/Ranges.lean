/-!
# Sets of characters given by ranges of code points

A set of characters is written as a list of inclusive ranges of code points in increasing order.
`inRanges_iff` says that looking a code point up in such a list, which stops early, is the same as
asking whether some range holds it.
-/

namespace DocComment.Text

/-- Whether one of the inclusive ranges, which stand in increasing order, holds `n`. -/
def inRanges (n : Nat) : List (Nat × Nat) → Bool
  | [] => false
  | (low, high) :: rest => decide (low ≤ n) && (decide (n ≤ high) || inRanges n rest)

theorem inRanges_iff {ranges : List (Nat × Nat)} (sorted : ranges.Pairwise (·.1 ≤ ·.1)) (n : Nat) :
    inRanges n ranges = true ↔ ∃ r ∈ ranges, r.1 ≤ n ∧ n ≤ r.2 := by
  induction ranges with
  | nil => simp [inRanges]
  | cons r rest ih =>
    obtain ⟨low, high⟩ := r
    rw [List.pairwise_cons] at sorted
    simp only [inRanges, Bool.and_eq_true, Bool.or_eq_true, decide_eq_true_eq, ih sorted.2,
      List.mem_cons, exists_eq_or_imp]
    constructor
    · rintro ⟨hl, hh | h⟩
      · exact Or.inl ⟨hl, hh⟩
      · exact Or.inr h
    · rintro (⟨hl, hh⟩ | ⟨r, hr, hl, hh⟩)
      · exact ⟨hl, Or.inl hh⟩
      · exact ⟨Nat.le_trans (sorted.1 r hr) hl, Or.inr ⟨r, hr, hl, hh⟩⟩

/-- Only the characters of a text are looked at to decide what holds of all of them, and not every
character that there is. -/
instance decidableForallMem {p : Char → Prop} [DecidablePred p] (s : List Char) :
    Decidable (∀ c ∈ s, p c) :=
  List.decidableBAll p s

end DocComment.Text
