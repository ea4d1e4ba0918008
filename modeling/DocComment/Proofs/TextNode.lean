import DocComment.Accumulator.TextNode
import DocComment.Proofs.Collapse

/-!
# What a text node does

`appendTextNode_eq`: a text node marks a space for the blanks at its start, unless nothing has come
out yet; if it has words it adds them collapsed, and marks a space for the blanks at its end.
`appendTextNode_outcome` says what that makes of the accumulator, whatever waits in it.
-/

namespace DocComment.Accumulator
open Text

/-- Marks a space if `spaced` holds. -/
def spacedIf (a : Accumulator) (spaced : Bool) : Accumulator :=
  if spaced then a.appendSpace else a

variable {a : Accumulator} {spaced gap : Bool} {written rest : List Char}

@[simp] theorem spacedIf_false : a.spacedIf false = a := rfl

@[simp] theorem spacedIf_true : a.spacedIf true = a.appendSpace := rfl

@[simp] theorem lineBreak_spacedIf : (a.spacedIf spaced).lineBreak = a.lineBreak := by
  cases spaced <;> rfl

@[simp] theorem runs_spacedIf : (a.spacedIf spaced).runs = a.runs := by
  cases spaced <;> rfl

@[simp] theorem hasContent_spacedIf : (a.spacedIf spaced).hasContent = a.hasContent := by
  cases spaced <;> rfl

@[simp] theorem pendingBreak_spacedIf : (a.spacedIf spaced).pendingBreak = a.pendingBreak := by
  cases spaced <;> rfl

@[simp] theorem pendingSpace_spacedIf :
    (a.spacedIf spaced).pendingSpace = (a.pendingSpace || spaced) := by
  cases spaced <;> simp [appendSpace]

theorem spacedIf_eq (a : Accumulator) (spaced : Bool) :
    a.spacedIf spaced = { a with pendingSpace := a.pendingSpace || spaced } := by
  cases spaced with
  | false => rw [Bool.or_false]; rfl
  | true => rw [Bool.or_true]; rfl

theorem separator_spacedIf (a : Accumulator) (spaced : Bool) :
    (a.spacedIf spaced).separator =
      if a.pendingBreak then [a.breakRun, a.breakRun]
      else if a.pendingSpace || spaced then [Run.space]
      else [] := by
  rw [spacedIf_eq]
  rfl

/-- The rest of a text node some of whose characters have come out. -/
theorem scanText_of_written (h : written ≠ []) :
    a.scanText written gap rest =
      (a.appendText (String.ofList (written.reverse ++
        (if (gap || startsBlank rest) && hasWord rest then [' '] else []) ++ collapse rest))).spacedIf
        (if rest = [] then gap else endsBlank rest) := by
  induction rest generalizing written gap with
  | nil => simp [scanText, h, spacedIf]
  | cons c rest ih =>
    cases hc : isBlank c with
    | true =>
      have hgap : (gap || !a.atBeginning || decide (written ≠ [])) = true := by simp [h]
      rw [scanText, if_pos hc, hgap, ih h, collapse_cons_of_isBlank hc]
      simp [hc, endsBlank_cons]
    | false =>
      rw [scanText, hc, if_neg Bool.false_ne_true, collapse_cons hc, endsBlank_cons]
      cases gap with
      | true =>
        rw [if_pos rfl, if_neg h, ih (List.cons_ne_nil _ _)]
        simp [seam, hc]
      | false =>
        rw [if_neg Bool.false_ne_true, ih (List.cons_ne_nil _ _)]
        simp [seam, hc]

/-- A text node from which nothing has come out yet. -/
theorem scanText_nil :
    a.scanText [] gap rest =
      let b := a.spacedIf (gap || (startsBlank rest && !a.atBeginning))
      if hasWord rest then (b.appendText (String.ofList (collapse rest))).spacedIf (endsBlank rest)
      else b := by
  induction rest generalizing gap with
  | nil => simp [scanText, spacedIf]
  | cons c rest ih =>
    cases hc : isBlank c with
    | true =>
      have hspaced : (gap || !a.atBeginning || decide (([] : List Char) ≠ []) ||
          (startsBlank rest && !a.atBeginning)) = (gap || !a.atBeginning) := by
        cases gap <;> cases a.atBeginning <;> simp
      rw [scanText, if_pos hc, ih]
      dsimp only
      rw [hspaced, collapse_cons_of_isBlank hc]
      cases rest with
      | nil => simp [hc]
      | cons d rest => simp [hc, endsBlank_cons]
    | false =>
      rw [scanText, hc, if_neg Bool.false_ne_true, collapse_cons hc, endsBlank_cons]
      cases gap with
      | true =>
        rw [if_pos rfl, if_pos rfl, scanText_of_written (List.cons_ne_nil _ _)]
        simp [seam, hc]
      | false =>
        rw [if_neg Bool.false_ne_true, scanText_of_written (List.cons_ne_nil _ _)]
        simp [seam, hc]

theorem appendTextNode_eq (a : Accumulator) (raw : String) :
    a.appendTextNode raw =
      let b := a.spacedIf (startsBlank raw.toList && !a.atBeginning)
      if hasWord raw.toList then
        (b.appendText (String.ofList (collapse raw.toList))).spacedIf (endsBlank raw.toList)
      else b := by
  rw [appendTextNode, scanText_nil, Bool.false_or]

theorem appendTextNode_of_hasWord_eq_false {raw : String} (h : hasWord raw.toList = false) :
    a.appendTextNode raw = a.spacedIf (startsBlank raw.toList && !a.atBeginning) := by
  rw [appendTextNode_eq, h]
  rfl

@[simp] theorem lineBreak_appendTextNode (a : Accumulator) (raw : String) :
    (a.appendTextNode raw).lineBreak = a.lineBreak := by
  rw [appendTextNode_eq]
  dsimp only
  split
  · rw [lineBreak_spacedIf, appendText, appendRuns, lineBreak_spacedIf]
  · exact lineBreak_spacedIf

theorem runs_appendTextNode (a : Accumulator) (raw : String) :
    (a.appendTextNode raw).runs =
      if hasWord raw.toList then
        a.runs ++ (a.spacedIf (startsBlank raw.toList && !a.atBeginning)).separator ++
          [Run.plain (String.ofList (collapse raw.toList))]
      else a.runs := by
  rw [appendTextNode_eq]
  dsimp only
  split
  · rw [runs_spacedIf, appendText, appendRuns, runs_spacedIf]
  · exact runs_spacedIf

theorem prefix_appendRuns (a : Accumulator) (runs : List Run) :
    a.runs <+: (a.appendRuns runs).runs := by
  rw [appendRuns, List.append_assoc]
  exact List.prefix_append _ _

theorem prefix_appendTextNode (a : Accumulator) (raw : String) :
    a.runs <+: (a.appendTextNode raw).runs := by
  rw [runs_appendTextNode]
  split
  · rw [List.append_assoc]
    exact List.prefix_append _ _
  · exact List.prefix_rfl

/-- A text node without words adds nothing, but asks for a space unless it is empty or nothing has
come out yet. All others add their words as one run, behind a break that waits, or else behind a
space if one waits or if blanks keep the first word apart from what has come out. -/
theorem appendTextNode_outcome (a : Accumulator) (raw : String) :
    a.appendTextNode raw =
      if ∀ c ∈ raw.toList, isBlank c = true then
        { a with pendingSpace := a.pendingSpace || decide (raw ≠ "" ∧ a.runs ≠ []) }
      else
        { a with
          runs := a.runs ++
            (if a.pendingBreak then [⟨.lineBreak, a.lineBreak⟩, ⟨.lineBreak, a.lineBreak⟩]
              else if a.pendingSpace ∨ (a.runs ≠ [] ∧ startsBlank raw.toList) then [⟨.space, " "⟩]
              else []) ++
            [⟨.text, String.ofList
              ([' '].intercalate ((raw.toList.splitOnP isBlank).filter (· ≠ [])))⟩]
          hasContent := true
          pendingBreak := false
          pendingSpace := endsBlank raw.toList } := by
  have hstarted : (!a.atBeginning) = decide (a.runs ≠ []) := by
    cases hruns : a.runs <;> simp [atBeginning, hruns]
  rw [appendTextNode_eq, hstarted]
  by_cases hblank : ∀ c ∈ raw.toList, isBlank c = true
  · have hword : hasWord raw.toList = false := hasWord_eq_false_iff.2 hblank
    have hstarts : startsBlank raw.toList = decide (raw ≠ "") := by
      rw [startsBlank_of_hasWord_eq_false hword, decide_not]
      exact congrArg (!·) (Bool.eq_iff_iff.2 (by simp))
    rw [if_pos hblank, hword, hstarts, Bool.decide_and, ← spacedIf_eq]
    rfl
  · have hword : hasWord raw.toList = true := by
      rw [← Bool.not_eq_false, hasWord_eq_false_iff]
      exact hblank
    rw [if_neg hblank, hword, ← words_eq_filter_splitOnP]
    dsimp only
    rw [if_pos rfl, spacedIf_eq, appendText, appendRuns, separator_spacedIf, runs_spacedIf,
      lineBreak_spacedIf, Bool.false_or]
    simp only [Bool.or_eq_true, Bool.and_eq_true, decide_eq_true_eq, and_comm]
    rfl

end DocComment.Accumulator
