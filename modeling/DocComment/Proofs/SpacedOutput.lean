import DocComment.Proofs.ReadAlike
import DocComment.Proofs.Spaced
import DocComment.Proofs.TextAndRuns

/-!
# White space of the output

The text of a comment has no white space but single spaces and paragraph breaks, and none at its ends
(`formatToString_spaced`). That is so because each item is spaced and not empty, and what comes
between two items is one gap or nothing. A reference that is only a marker comes out as an empty
item, with white space on both sides of it (`formatToString_of_bare_marker`).
-/

namespace DocComment
open Xml Text

/-- The white space in the text of a comment: a space, and a paragraph break. -/
def gapsOf (lineBreak : String) : List (List Char) :=
  [[' '], (lineBreak ++ lineBreak).toList]

variable {gaps : List (List Char)} {lineBreak : String}

/-- Runs whose text is spaced and not empty. -/
structure IsSpacedItem (gaps : List (List Char)) (runs : List Run) : Prop where
  spaced : Spaced gaps (Run.textOf runs).toList
  ne_nil : (Run.textOf runs).toList ≠ []

namespace Seen

variable {seen : Seen} {here : Finset Place} {marks : List Mark}

theorem separator_mem_gapsOf (seen : Seen) (here : Finset Place) :
    (Run.textOf (seen.separator lineBreak here)).toList ≠ [] →
      (Run.textOf (seen.separator lineBreak here)).toList ∈ gapsOf lineBreak := by
  have hbreak : Run.textOf [⟨.lineBreak, lineBreak⟩, ⟨.lineBreak, lineBreak⟩] =
      lineBreak ++ lineBreak := by
    rw [Run.textOf_cons, Run.textOf_singleton]
  unfold separator
  split
  · exact fun h => absurd rfl h
  · split
    · rw [hbreak]
      exact fun _ => List.mem_cons_of_mem _ (List.mem_singleton_self _)
    · split
      · exact fun _ => List.mem_cons_self ..
      · exact fun h => absurd rfl h

theorem isBlank_of_mem_gapsOf (hbreak : ∀ c ∈ lineBreak.toList, isBlank c = true) {g : List Char}
    (hg : g ∈ gapsOf lineBreak) : ∀ c ∈ g, isBlank c = true := by
  rcases List.mem_cons.1 hg with rfl | hg
  · decide
  · rw [List.mem_singleton.1 hg, String.toList_append]
    exact List.forall_mem_append.2 ⟨hbreak, hbreak⟩

/-- Behind a spaced text, the layout of spaced items gives a spaced text. -/
theorem spaced_layout (hbreak : ∀ c ∈ lineBreak.toList, isBlank c = true) {out : List Char}
    (hout : Spaced (gapsOf lineBreak) out) (hnil : out = [] ↔ seen.last = none)
    (hmarks : ∀ q runs, Mark.item q runs ∈ marks → IsSpacedItem (gapsOf lineBreak) runs) :
    Spaced (gapsOf lineBreak) (out ++ (Run.textOf (seen.layout lineBreak marks)).toList) := by
  induction marks generalizing out seen with
  | nil => simpa [layout] using hout
  | cons m marks ih =>
    have hmarks' q runs (hmem : Mark.item q runs ∈ marks) :=
      hmarks q runs (List.mem_cons_of_mem _ hmem)
    cases m with
    | blank => exact ih hout hnil hmarks'
    | item q runs =>
      have hitem := hmarks q runs (List.mem_cons_self ..)
      have hgap : (Run.textOf (seen.separator lineBreak q)).toList ≠ [] →
          (Run.textOf (seen.separator lineBreak q)).toList ∈ gapsOf lineBreak :=
        seen.separator_mem_gapsOf q
      have hblank : ∀ c ∈ (Run.textOf (seen.separator lineBreak q)).toList, isBlank c = true := by
        by_cases hne : (Run.textOf (seen.separator lineBreak q)).toList = []
        · rw [hne]
          exact fun _ h => absurd h List.not_mem_nil
        · exact isBlank_of_mem_gapsOf hbreak (hgap hne)
      have hnext : Spaced (gapsOf lineBreak) (out ++
          ((Run.textOf (seen.separator lineBreak q)).toList ++ (Run.textOf runs).toList)) := by
        by_cases hempty : out = []
        · have hsep : seen.separator lineBreak q = [] := by
            rw [separator, hnil.1 hempty]
          rw [hempty, hsep]
          exact hitem.spaced
        · exact hout.join hitem.spaced hempty hitem.ne_nil hblank hgap
      have hsome : out ++ ((Run.textOf (seen.separator lineBreak q)).toList ++
          (Run.textOf runs).toList) = [] ↔ (seen.after (.item q runs)).last = none := by
        have hne := List.append_ne_nil_of_right_ne_nil out
          (List.append_ne_nil_of_right_ne_nil (Run.textOf (seen.separator lineBreak q)).toList
            hitem.ne_nil)
        exact ⟨fun h => absurd h hne, fun h => by cases h⟩
      rw [layout, Run.textOf_append, Run.textOf_append, String.toList_append, String.toList_append,
        ← List.append_assoc]
      exact ih hnext hsome hmarks'

end Seen

/-! ### Items of a comment without a table -/

theorem Reference.mem_of_mem_withoutMarker {identifier : String} {c : Char}
    (h : c ∈ (withoutMarker identifier).toList) : c ∈ identifier.toList := by
  unfold withoutMarker at h
  split at h
  · next d rest heq =>
    split at h
    · exact h
    · rw [String.toList_ofList] at h
      rw [heq]
      exact List.mem_cons_of_mem _ (List.mem_cons_of_mem _ h)
  · exact h

theorem IsSpacedItem.of_hasItem {v : View} (hv : v.table = none) {e : Event String}
    {runs : List Run} (h : e.HasItem v.shown runs)
    (hreference : ∀ identifier, e = .reference identifier →
      (∀ c ∈ identifier.toList, isBlank c = false) ∧ Reference.withoutMarker identifier ≠ "") :
    IsSpacedItem (gapsOf lineBreak) runs := by
  cases h with
  | @text content hword =>
    have htext : (Run.textOf [Run.plain (String.ofList (collapse content.toList))]).toList =
        collapse content.toList := by
      rw [Run.textOf_singleton]
      exact String.toList_ofList
    refine ⟨?_, ?_⟩
    · rw [htext]
      exact (spaced_collapse _).mono (List.cons_subset_cons _ (List.nil_subset _))
    · rw [htext]
      exact fun hnil => by simp [collapse_eq_nil_iff.1 hnil] at hword
  | reference identifier =>
    obtain ⟨hblank, hne⟩ := hreference identifier rfl
    have htext : Run.textOf (v.shown identifier) = Reference.withoutMarker identifier :=
      View.textOf_shown_of_table_eq_none hv
    refine ⟨?_, ?_⟩
    · rw [htext]
      exact .of_noBlank fun c hc => hblank c (Reference.mem_of_mem_withoutMarker hc)
    · rw [htext]
      exact fun hnil => hne (String.toList_eq_nil_iff.1 hnil)

namespace Formatter

variable {f : Formatter} {raw : String} {root : Node Name}

/-- Without a table, and with an identifier that is more than a marker and has no blanks in each
reference, the white space of a comment is single spaces and paragraph breaks, inside of its text. -/
theorem formatToString_spaced (hbreak : f.lineBreak = "\r\n")
    (hroot : Fragment.parse? raw = some root) (hnames : ∀ name ∈ root.metNames, name.isResolved)
    (hreferences : ∀ identifier ∈ root.references,
      (∀ c ∈ identifier.toList, isBlank c = false) ∧ Reference.withoutMarker identifier ≠ "") :
    ∃ text, f.formatToString raw none = .ok text ∧
      Spaced [[' '], ['\r', '\n', '\r', '\n']] text.toList := by
  have hview : (f.view none).OfIds := View.ofIds_of_table_eq_none rfl
  have hruns := viewedRuns_eq_ok_iff.2
    ⟨root, hroot, hnames, hview.nodeRuns_eq_layout f.lineBreak hnames⟩
  refine ⟨_, by rw [formatToString, hruns]; rfl, ?_⟩
  rw [hbreak]
  have hblank : ∀ c ∈ "\r\n".toList, isBlank c = true := by decide
  have hnil : Spaced (gapsOf "\r\n") [] := .nil
  refine Seen.spaced_layout hblank hnil ⟨fun _ => rfl, fun _ => rfl⟩ fun q runs hitem => ?_
  obtain ⟨e, he, hitem⟩ := Node.exists_event_of_mem_marks root hitem
  exact .of_hasItem rfl hitem fun identifier heq =>
    hreferences identifier (Node.mem_references_iff.2 (heq ▸ he))

theorem formatToString_spaced_mixture :
    let f : Formatter := {}
    let raw := " a\t<see cref=\"T:N.C\"/>,<!-- x --> <para> b <paramref name=\"p\"/> </para>\n<para/>c "
    ∃ root, Fragment.parse? raw = some root ∧ root.references = ["T:N.C", "p"] ∧
      f.formatToString raw none = .ok "a N.C,\r\n\r\nb p\r\n\r\nc" ∧
      Spaced [[' '], ['\r', '\n', '\r', '\n']] "a N.C,\r\n\r\nb p\r\n\r\nc".toList := by
  intro f raw
  have hread : (Fragment.parse? raw).map (fun root =>
      (root.metNames.all (·.isResolved), root.references,
        (f.formatToString raw none).toOption)) =
      some (true, ["T:N.C", "p"], some "a N.C,\r\n\r\nb p\r\n\r\nc") := by
    decide +kernel
  obtain ⟨root, hroot, hread⟩ := Option.map_eq_some_iff.1 hread
  obtain ⟨hnames, hreferences, htext⟩ : root.metNames.all (·.isResolved) = true ∧
      root.references = ["T:N.C", "p"] ∧
      (f.formatToString raw none).toOption = some "a N.C,\r\n\r\nb p\r\n\r\nc" := by
    simpa only [Prod.mk.injEq] using hread
  have hids : ∀ identifier ∈ root.references,
      (∀ c ∈ identifier.toList, isBlank c = false) ∧ Reference.withoutMarker identifier ≠ "" := by
    rw [hreferences]
    decide
  obtain ⟨text, hok, hspaced⟩ :=
    formatToString_spaced (f := f) rfl hroot (List.all_eq_true.1 hnames) hids
  rw [hok] at htext
  obtain rfl := Option.some.inj htext
  exact ⟨root, hroot, hreferences, hok, hspaced⟩

/-- A marker with nothing behind it leaves the spaces on both of its sides. -/
theorem formatToString_of_bare_marker :
    let f : Formatter := {}
    let raw := "a <see cref=\"T:\"/> b"
    ∃ root, Fragment.parse? raw = some root ∧ (∀ name ∈ root.metNames, name.isResolved) ∧
      (∀ identifier ∈ root.references, ∀ c ∈ identifier.toList, isBlank c = false) ∧
      f.formatToString raw none = .ok "a  b" ∧
      ¬ Spaced [[' '], ['\r', '\n', '\r', '\n']] "a  b".toList := by
  intro f raw
  have hread : (Fragment.parse? raw).map (fun root =>
      (root.metNames.all (·.isResolved), root.references,
        (f.formatToString raw none).toOption)) = some (true, ["T:"], some "a  b") := by
    decide +kernel
  obtain ⟨root, hroot, hread⟩ := Option.map_eq_some_iff.1 hread
  obtain ⟨hnames, hreferences, htext⟩ : root.metNames.all (·.isResolved) = true ∧
      root.references = ["T:"] ∧ (f.formatToString raw none).toOption = some "a  b" := by
    simpa only [Prod.mk.injEq] using hread
  refine ⟨root, hroot, List.all_eq_true.1 hnames, ?_, ?_, fun hspaced => ?_⟩
  · rw [hreferences]
    decide
  · exact eq_ok_of_toOption htext
  · have hgap : [' ', ' '] ∈ [[' '], ['\r', '\n', '\r', '\n']] :=
      hspaced.gap (show "a  b".toList = ['a'] ++ [' ', ' '] ++ ['b'] by decide) (by decide)
        (by decide) (by decide) (by decide)
    revert hgap
    decide

end Formatter

end DocComment
