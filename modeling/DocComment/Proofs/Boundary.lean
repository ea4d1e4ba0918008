import DocComment.Proofs.TextNode

/-!
# Boundaries of paragraphs

The flags of an accumulator fit its runs (`Consistent`): once there are runs, either there has been
content since the last boundary or a break waits, and never both. So a paragraph that adds no run
leaves the flags as they were when it was opened (`endParagraph_of_runs_eq`), and after any other
paragraph a break waits (`endParagraph_of_length_ne`).
-/

namespace DocComment.Accumulator
open Text

variable {a b : Accumulator}

/-- The flags fit the runs. -/
structure Consistent (a : Accumulator) : Prop where
  of_nil : a.runs = [] → a.hasContent = false ∧ a.pendingBreak = false
  of_ne_nil : a.runs ≠ [] → a.hasContent = !a.pendingBreak

theorem markBoundary_fst (a : Accumulator) :
    a.markBoundary.1 =
      { a with pendingBreak := a.pendingBreak || a.hasContent, hasContent := false } := by
  obtain ⟨br, runs, content, brk, sp⟩ := a
  cases content <;> simp [markBoundary]

theorem beginParagraph_fst (a : Accumulator) :
    a.beginParagraph.1 =
      { a with pendingBreak := a.pendingBreak || a.hasContent, hasContent := false } :=
  markBoundary_fst a

theorem beginParagraph_snd (a : Accumulator) :
    a.beginParagraph.2 = if a.hasContent then some a.runs.length else none := by
  obtain ⟨br, runs, content, brk, sp⟩ := a
  cases content <;> simp [beginParagraph, markBoundary]

@[simp] theorem runs_beginParagraph (a : Accumulator) : a.beginParagraph.1.runs = a.runs := by
  rw [beginParagraph_fst]

theorem endParagraph_of_length_eq {token : Option Nat} (h : token = some a.runs.length) :
    a.endParagraph token = { a with pendingBreak := false, hasContent := true } :=
  if_pos h

theorem endParagraph_of_ne {token : Option Nat} (h : token ≠ some a.runs.length) :
    a.endParagraph token =
      { a with pendingBreak := a.pendingBreak || a.hasContent, hasContent := false } := by
  rw [endParagraph, if_neg h, markBoundary_fst]

@[simp] theorem runs_endParagraph (a : Accumulator) (token : Option Nat) :
    (a.endParagraph token).runs = a.runs := by
  by_cases h : token = some a.runs.length
  · rw [endParagraph_of_length_eq h]
  · rw [endParagraph_of_ne h]

@[simp] theorem lineBreak_endParagraph (a : Accumulator) (token : Option Nat) :
    (a.endParagraph token).lineBreak = a.lineBreak := by
  by_cases h : token = some a.runs.length
  · rw [endParagraph_of_length_eq h]
  · rw [endParagraph_of_ne h]

namespace Consistent

theorem fresh (lineBreak : String) : Consistent { lineBreak } :=
  ⟨fun _ => ⟨rfl, rfl⟩, fun h => absurd rfl h⟩

theorem runs_ne_nil_of_hasContent (h : a.Consistent) (hc : a.hasContent = true) : a.runs ≠ [] := by
  intro hr
  rw [(h.of_nil hr).1] at hc
  exact Bool.false_ne_true hc

theorem runs_ne_nil_of_pendingBreak (h : a.Consistent) (hb : a.pendingBreak = true) :
    a.runs ≠ [] := by
  intro hr
  rw [(h.of_nil hr).2] at hb
  exact Bool.false_ne_true hb

/-- Once there are runs, a boundary leaves a break waiting, whether it asks for it or not. -/
theorem pendingBreak_or_hasContent (h : a.Consistent) (hr : a.runs ≠ []) :
    (a.pendingBreak || a.hasContent) = true := by
  rw [h.of_ne_nil hr, Bool.or_not_self]

theorem spacedIf (h : a.Consistent) (spaced : Bool) : (a.spacedIf spaced).Consistent := by
  constructor
  · simpa using h.of_nil
  · simpa using h.of_ne_nil

theorem appendRuns {content : List Run} (hc : content ≠ []) : (a.appendRuns content).Consistent :=
  ⟨fun h => absurd h (by simp [Accumulator.appendRuns, hc]), fun _ => rfl⟩

theorem appendTextNode (h : a.Consistent) (raw : String) : (a.appendTextNode raw).Consistent := by
  rw [appendTextNode_eq]
  dsimp only
  split
  · exact (appendRuns (List.cons_ne_nil _ _)).spacedIf _
  · exact h.spacedIf _

theorem markBoundary (h : a.Consistent) : a.markBoundary.1.Consistent := by
  rw [markBoundary_fst]
  refine ⟨fun hr => ?_, fun hr => ?_⟩
  · obtain ⟨hc, hb⟩ := h.of_nil hr
    simp [hc, hb]
  · simp [h.pendingBreak_or_hasContent hr]

theorem endParagraph (h : a.Consistent) {token : Option Nat}
    (ht : ∀ k, token = some k → 0 < k) : (a.endParagraph token).Consistent := by
  by_cases hk : token = some a.runs.length
  · have hr : a.runs ≠ [] := List.ne_nil_of_length_pos (ht _ hk)
    rw [endParagraph_of_length_eq hk]
    exact ⟨fun h => absurd h hr, fun _ => rfl⟩
  · rw [Accumulator.endParagraph, if_neg hk]
    exact h.markBoundary

theorem pos_of_beginParagraph (h : a.Consistent) {k : Nat} (hk : a.beginParagraph.2 = some k) :
    0 < k := by
  rw [beginParagraph_snd] at hk
  split at hk
  · next hc =>
    rw [← Option.some.inj hk]
    exact List.length_pos_iff.2 (h.runs_ne_nil_of_hasContent hc)
  · cases hk

end Consistent

/-- A paragraph that adds no run: the flags are again what they were in front of it. `b` is the
accumulator at its end, which has the flags that the opening left. -/
theorem endParagraph_of_runs_eq (ha : a.Consistent) (hr : b.runs = a.runs)
    (hc : b.hasContent = false) (hb : b.pendingBreak = (a.pendingBreak || a.hasContent)) :
    b.endParagraph a.beginParagraph.2 =
      { b with hasContent := a.hasContent, pendingBreak := a.pendingBreak } := by
  rw [beginParagraph_snd]
  cases h : a.hasContent with
  | true =>
    have hp : a.pendingBreak = false := by
      have := ha.of_ne_nil (ha.runs_ne_nil_of_hasContent h)
      simpa [h] using this
    rw [endParagraph_of_length_eq (by simp [hr]), hp]
  | false =>
    rw [endParagraph_of_ne (by simp), hc, hb, h]
    simp

/-- A paragraph that adds runs: a break waits behind it. -/
theorem endParagraph_of_length_ne (hb : b.Consistent) (hr : b.runs ≠ [])
    (hl : b.runs.length ≠ a.runs.length) :
    b.endParagraph a.beginParagraph.2 = { b with hasContent := false, pendingBreak := true } := by
  have ht : a.beginParagraph.2 ≠ some b.runs.length := by
    rw [beginParagraph_snd]
    split
    · simpa using hl.symm
    · simp
  rw [endParagraph_of_ne ht, hb.pendingBreak_or_hasContent hr]

end DocComment.Accumulator
