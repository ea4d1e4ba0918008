import Mathlib.Data.List.Chain
import DocComment.Text.Blank
import DocComment.Text.Digit
import DocComment.Text.Word

/-!
# Digits, words and blanks

Digits belong to words (`isWord_of_isDigit`), and blanks do not (`isBlank_of_isWord`). Both are read
off the tables of ranges.
-/

namespace DocComment.Text

variable {c : Char} {n : Nat} {a b : List (Nat × Nat)}

/-- Each range of `a` is inside of one of `b`. -/
def covers (a b : List (Nat × Nat)) : Bool :=
  a.all fun r => b.any fun q => Nat.ble q.1 r.1 && Nat.ble r.2 q.2

/-- No range of `a` meets one of `b`. -/
def apart (a b : List (Nat × Nat)) : Bool :=
  a.all fun r => b.all fun q => Nat.blt r.2 q.1 || Nat.blt q.2 r.1

theorem pairwise_of_isChain (h : a.IsChain (·.1 ≤ ·.1)) : a.Pairwise (·.1 ≤ ·.1) := by
  let below (r q : Nat × Nat) : Prop := r.1 ≤ q.1
  have : Trans below below below := ⟨Nat.le_trans⟩
  exact List.isChain_iff_pairwise (R := below).1 h

theorem inRanges_of_covers (ha : a.Pairwise (·.1 ≤ ·.1)) (hb : b.Pairwise (·.1 ≤ ·.1))
    (h : covers a b = true) (hn : inRanges n a = true) : inRanges n b = true := by
  obtain ⟨r, hr, hlow, hhigh⟩ := (inRanges_iff ha n).1 hn
  obtain ⟨q, hq, hinside⟩ := List.any_eq_true.1 (List.all_eq_true.1 h r hr)
  simp only [Bool.and_eq_true, Nat.ble_eq] at hinside
  exact (inRanges_iff hb n).2 ⟨q, hq, Nat.le_trans hinside.1 hlow, Nat.le_trans hhigh hinside.2⟩

theorem inRanges_of_apart (ha : a.Pairwise (·.1 ≤ ·.1)) (hb : b.Pairwise (·.1 ≤ ·.1))
    (h : apart a b = true) (hn : inRanges n a = true) : inRanges n b = false := by
  obtain ⟨r, hr, hlow, hhigh⟩ := (inRanges_iff ha n).1 hn
  rw [Bool.eq_false_iff]
  intro hnb
  obtain ⟨q, hq, hlow', hhigh'⟩ := (inRanges_iff hb n).1 hnb
  have hne := List.all_eq_true.1 (List.all_eq_true.1 h r hr) q hq
  simp only [Bool.or_eq_true, Nat.blt_eq] at hne
  omega

theorem pairwise_blankRanges : blankRanges.Pairwise (·.1 ≤ ·.1) :=
  pairwise_of_isChain (by decide +kernel)

theorem pairwise_digitRanges : digitRanges.Pairwise (·.1 ≤ ·.1) :=
  pairwise_of_isChain (by decide +kernel)

theorem pairwise_wordRanges : wordRanges.Pairwise (·.1 ≤ ·.1) :=
  pairwise_of_isChain (by decide +kernel)

theorem isWord_of_isDigit (h : isDigit c = true) : isWord c = true :=
  inRanges_of_covers pairwise_digitRanges pairwise_wordRanges (by decide +kernel) h

theorem isBlank_of_isWord (h : isWord c = true) : isBlank c = false := by
  rw [Bool.eq_false_iff]
  intro hblank
  have hword : isWord c = false :=
    inRanges_of_apart pairwise_blankRanges pairwise_wordRanges (by decide +kernel) hblank
  exact Bool.false_ne_true (hword.symm.trans h)

theorem isBlank_of_isDigit (h : isDigit c = true) : isBlank c = false :=
  isBlank_of_isWord (isWord_of_isDigit h)

end DocComment.Text
