import Mathlib.Data.Finset.Insert
import DocComment.Proofs.Walk

/-!
# The layout of a tree

A tree is read as marks in document order: its items, which are the texts with words and the
references, each with the paragraphs around it, and the blanks between them. `layout` says what
comes out: nothing in front of the first item, and between two items a paragraph break if they are
not in the same paragraphs, or else a space if there are blanks between them. `nodeRuns_layout`:
these are the runs of the tree, unless an element without a local name ends the walk.
-/

namespace DocComment

/-- Where a node stands: its position among its siblings, then that of its parent, and so on. -/
abbrev Place := List Nat

/-- What counts in a tree: blanks in its texts, and items, with the paragraphs around them and the
runs that show them. -/
inductive Mark where
  | blank
  | item (paragraphs : Finset Place) (runs : List Run)

namespace Mark

/-- The marks of a text: blanks at its start, its words as one item, and blanks at its end. -/
def ofText (paragraphs : Finset Place) (content : String) : List Mark :=
  (if Text.startsBlank content.toList then [blank] else []) ++
    if Text.hasWord content.toList then
      item paragraphs [Run.plain (String.ofList (Text.collapse content.toList))] ::
        if Text.endsBlank content.toList then [blank] else []
    else []

/-- The one item of a text is its words. -/
theorem eq_of_mem_ofText {here q : Finset Place} {content : String} {runs : List Run}
    (h : item q runs ∈ ofText here content) :
    q = here ∧ Text.hasWord content.toList = true ∧
      runs = [Run.plain (String.ofList (Text.collapse content.toList))] := by
  rw [ofText] at h
  rcases List.mem_append.1 h with h | h
  · split at h <;> simp at h
  · split at h
    · next hword =>
      rcases List.mem_cons.1 h with h | h
      · obtain ⟨rfl, rfl⟩ := Mark.item.inj h
        exact ⟨rfl, hword, rfl⟩
      · split at h <;> simp at h
    · cases h

end Mark

section
variable (shown : String → List Run)

mutual

/-- The marks of a node that stands at `place` inside of `paragraphs`. -/
def Xml.Node.marks (place : Place) (paragraphs : Finset Place) : Xml.Node Xml.Name → List Mark
  | .text content => Mark.ofText paragraphs content
  | .comment _ => []
  | .instruction _ _ => []
  | .element name attributes content =>
    match ReferenceTag.ofName? name.localName with
    | some tag =>
      match tag.identifier? attributes with
      | none => []
      | some identifier => [.item paragraphs (shown identifier)]
    | none =>
      if name.localName = paragraphName then
        Xml.Node.marksOfContent place (insert place paragraphs) 0 content
      else Xml.Node.marksOfContent place paragraphs 0 content

/-- The marks of nodes that follow each other in the node at `place`, the first of them at position
`k`. -/
def Xml.Node.marksOfContent (place : Place) (paragraphs : Finset Place) (k : Nat) :
    List (Xml.Node Xml.Name) → List Mark
  | [] => []
  | n :: ns => n.marks (k :: place) paragraphs ++ Xml.Node.marksOfContent place paragraphs (k + 1) ns

end

end

/-- What has come before a mark: the paragraphs around the last item, and whether there have been
blanks since then. -/
structure Seen where
  last : Option (Finset Place) := none
  blank : Bool := false

namespace Seen

/-- What has come before the next mark. -/
def after (seen : Seen) : Mark → Seen
  | .blank => { seen with blank := true }
  | .item paragraphs _ => { last := some paragraphs }

def afterAll (seen : Seen) (marks : List Mark) : Seen :=
  marks.foldl after seen

/-- What keeps an item apart from the item before it. -/
def separator (lineBreak : String) (seen : Seen) (paragraphs : Finset Place) : List Run :=
  match seen.last with
  | none => []
  | some last =>
    if last ≠ paragraphs then [⟨.lineBreak, lineBreak⟩, ⟨.lineBreak, lineBreak⟩]
    else if seen.blank then [Run.space]
    else []

/-- The runs of marks behind what has come before. -/
def layout (lineBreak : String) (seen : Seen) : List Mark → List Run
  | [] => []
  | .blank :: rest => layout lineBreak (seen.after .blank) rest
  | .item paragraphs runs :: rest =>
    seen.separator lineBreak paragraphs ++ runs ++
      layout lineBreak (seen.after (.item paragraphs runs)) rest

variable {lineBreak : String} {seen : Seen} {here : Finset Place} {marks : List Mark}

theorem afterAll_append (ms ns : List Mark) :
    seen.afterAll (ms ++ ns) = (seen.afterAll ms).afterAll ns :=
  List.foldl_append

theorem layout_append (ms ns : List Mark) :
    seen.layout lineBreak (ms ++ ns) =
      seen.layout lineBreak ms ++ (seen.afterAll ms).layout lineBreak ns := by
  induction ms generalizing seen with
  | nil => rfl
  | cons m ms ih =>
    cases m with
    | blank => exact ih
    | item paragraphs runs => simp [layout, ih, afterAll]

/-- The last item is one of the marks, or else there is none among them and nothing comes out. -/
theorem last_afterAll (lineBreak : String) (seen : Seen) (marks : List Mark) :
    ((seen.afterAll marks).last = seen.last ∧ seen.layout lineBreak marks = []) ∨
      ∃ paragraphs runs, Mark.item paragraphs runs ∈ marks ∧
        (seen.afterAll marks).last = some paragraphs := by
  induction marks generalizing seen with
  | nil => exact .inl ⟨rfl, rfl⟩
  | cons m marks ih =>
    rcases ih (seen.after m) with ⟨hlast, hnil⟩ | ⟨q, runs, hq, hlast⟩
    · cases m with
      | blank => exact .inl ⟨hlast, hnil⟩
      | item q runs => exact .inr ⟨q, runs, List.mem_cons_self .., hlast⟩
    · exact .inr ⟨q, runs, List.mem_cons_of_mem _ hq, hlast⟩

theorem layout_ne_nil (lineBreak : String) (seen : Seen) {paragraphs : Finset Place}
    {runs : List Run} (h : Mark.item paragraphs runs ∈ marks) (hne : runs ≠ []) :
    seen.layout lineBreak marks ≠ [] := by
  obtain ⟨ms, ns, rfl⟩ := List.append_of_mem h
  simp [layout_append, layout, hne]

end Seen

/-! ### Accumulators that keep track -/

/-- The flags of the accumulator tell, inside of the paragraphs `here`, what has come before: a break
waits iff the last item is not in the same paragraphs. -/
structure Accumulator.Tracks (lineBreak : String) (a : Accumulator) (here : Finset Place)
    (seen : Seen) : Prop where
  lineBreak : a.lineBreak = lineBreak
  consistent : a.Consistent
  isEmpty_runs : a.runs.isEmpty = seen.last.isNone
  pendingBreak : a.pendingBreak = seen.last.any (· ≠ here)
  pendingSpace : a.pendingSpace = (seen.last.isSome && seen.blank)

namespace Accumulator.Tracks
open Text

variable {lineBreak : String} {a b : Accumulator} {here : Finset Place} {seen : Seen}

theorem fresh (lineBreak : String) : Tracks lineBreak { lineBreak } here {} :=
  ⟨rfl, .fresh lineBreak, rfl, rfl, rfl⟩

theorem runs_ne_nil (h : a.Tracks lineBreak here seen) (hs : seen.last ≠ none) : a.runs ≠ [] := by
  intro hr
  have := h.isEmpty_runs
  rw [hr] at this
  exact hs (Option.isNone_iff_eq_none.1 this.symm)

theorem separator_eq (h : a.Tracks lineBreak here seen) :
    a.separator = seen.separator lineBreak here := by
  rw [separator, Seen.separator, breakRun, h.lineBreak, h.pendingBreak, h.pendingSpace]
  cases seen.last with
  | none => rfl
  | some last => simp

theorem spacedIf (h : a.Tracks lineBreak here seen) (spaced : Bool) :
    (a.spacedIf (spaced && !a.atBeginning)).Tracks lineBreak here
      (seen.afterAll (if spaced then [.blank] else [])) := by
  cases spaced with
  | false => exact h
  | true =>
    refine ⟨?_, h.consistent.spacedIf _, ?_, ?_, ?_⟩
    · rw [lineBreak_spacedIf, h.lineBreak]
    · rw [runs_spacedIf]
      exact h.isEmpty_runs
    · rw [pendingBreak_spacedIf]
      exact h.pendingBreak
    · rw [pendingSpace_spacedIf, h.pendingSpace, atBeginning, h.isEmpty_runs]
      show _ = (seen.last.isSome && true)
      cases seen.last <;> simp

theorem spacedIf_behind (h : a.Tracks lineBreak here seen) (ha : a.atBeginning = false)
    (spaced : Bool) :
    (a.spacedIf spaced).Tracks lineBreak here
      (seen.afterAll (if spaced then [.blank] else [])) := by
  simpa [ha] using h.spacedIf spaced

theorem appendRuns (h : a.Tracks lineBreak here seen) {runs : List Run} (hne : runs ≠ []) :
    (a.appendRuns runs).Tracks lineBreak here (seen.after (.item here runs)) := by
  refine ⟨h.lineBreak, .appendRuns hne, ?_, ?_, rfl⟩
  · simp [Accumulator.appendRuns, Seen.after, hne]
  · simp [Accumulator.appendRuns, Seen.after]

theorem runs_appendRuns (h : a.Tracks lineBreak here seen) (runs : List Run) :
    (a.appendRuns runs).runs = a.runs ++ (seen.separator lineBreak here ++ runs) := by
  rw [Accumulator.appendRuns, h.separator_eq, List.append_assoc]

theorem appendTextNode (h : a.Tracks lineBreak here seen) (raw : String) :
    (a.appendTextNode raw).Tracks lineBreak here (seen.afterAll (Mark.ofText here raw)) ∧
      (a.appendTextNode raw).runs = a.runs ++ seen.layout lineBreak (Mark.ofText here raw) := by
  have layout_blank (s : Seen) (p : Bool) : s.layout lineBreak (if p then [.blank] else []) = [] := by
    cases p <;> rfl
  have h₁ := h.spacedIf (startsBlank raw.toList)
  rw [appendTextNode_eq, Mark.ofText, Seen.afterAll_append, Seen.layout_append, layout_blank]
  dsimp only
  cases hasWord raw.toList with
  | false => exact ⟨h₁, by simp [Seen.layout]⟩
  | true =>
    simp only [↓reduceIte]
    have hne : [Run.plain (String.ofList (collapse raw.toList))] ≠ [] := List.cons_ne_nil _ _
    have h₂ := h₁.appendRuns hne
    refine ⟨h₂.spacedIf_behind h₂.isEmpty_runs (endsBlank raw.toList), ?_⟩
    rw [runs_spacedIf, appendText, h₁.runs_appendRuns, runs_spacedIf]
    simp [Seen.layout, layout_blank]

theorem hasContent (h : a.Tracks lineBreak here seen) :
    a.hasContent = seen.last.any (· = here) := by
  cases hs : seen.last with
  | none => exact (h.consistent.of_nil (by simpa [hs] using h.isEmpty_runs)).1
  | some last =>
    rw [h.consistent.of_ne_nil (h.runs_ne_nil (by simp [hs])), h.pendingBreak, hs]
    simp

/-- Inside of a paragraph that the last item is not in, a break waits for more content. -/
theorem beginParagraph (h : a.Tracks lineBreak here seen) {place : Place}
    (hplace : ∀ last, seen.last = some last → place ∉ last) :
    a.beginParagraph.1.Tracks lineBreak (insert place here) seen := by
  have hor : (a.pendingBreak || a.hasContent) = seen.last.isSome := by
    rw [h.pendingBreak, h.hasContent]
    cases seen.last <;> simp
  have hempty := h.isEmpty_runs
  rw [beginParagraph_fst, hor]
  refine ⟨h.lineBreak, ⟨fun hr => ⟨rfl, ?_⟩, fun hr => ?_⟩, hempty, ?_, h.pendingSpace⟩
  · rw [show a.runs = [] from hr] at hempty
    simpa using hempty.symm
  · rw [List.isEmpty_eq_false_iff.2 hr] at hempty
    simpa using hempty.symm
  · cases hs : seen.last with
    | none => rfl
    | some last =>
      have hne : last ≠ insert place here :=
        fun heq => hplace last hs (heq ▸ Finset.mem_insert_self place here)
      simp [hne]

theorem endParagraph_of_last_eq {place : Place} {seen' : Seen} (ha : a.Tracks lineBreak here seen)
    (hplace : ∀ last, seen.last = some last → place ∉ last)
    (hb : b.Tracks lineBreak (insert place here) seen') (hr : b.runs = a.runs)
    (hlast : seen'.last = seen.last) :
    (b.endParagraph a.beginParagraph.2).Tracks lineBreak here seen' := by
  have hopen := ha.beginParagraph hplace
  have hb₁ := hopen.pendingBreak
  have hc₁ := hopen.hasContent
  rw [beginParagraph_fst, ← hlast] at hb₁ hc₁
  rw [endParagraph_of_runs_eq ha.consistent hr (hb.hasContent.trans hc₁.symm)
    (hb.pendingBreak.trans hb₁.symm)]
  refine ⟨hb.lineBreak, ⟨?_, ?_⟩, hb.isEmpty_runs, ?_, hb.pendingSpace⟩
  · exact fun h => ha.consistent.of_nil (hr ▸ h)
  · exact fun h => ha.consistent.of_ne_nil (hr ▸ h)
  · rw [hlast]
    exact ha.pendingBreak

theorem endParagraph_of_mem_last {place : Place} (hb : b.Tracks lineBreak (insert place here) seen)
    (hr : b.runs.length ≠ a.runs.length) {last : Finset Place} (hlast : seen.last = some last)
    (hmem : place ∈ last) (hplace : place ∉ here) :
    (b.endParagraph a.beginParagraph.2).Tracks lineBreak here seen := by
  have hne : b.runs ≠ [] := hb.runs_ne_nil (by simp [hlast])
  rw [endParagraph_of_length_ne hb.consistent hne hr]
  refine ⟨hb.lineBreak, ⟨fun h => absurd h hne, fun _ => rfl⟩, hb.isEmpty_runs, ?_, hb.pendingSpace⟩
  have : last ≠ here := fun heq => hplace (heq ▸ hmem)
  simp [hlast, this]

end Accumulator.Tracks

/-! ### Places -/

/-- None of the places is `place` or below it. -/
def Place.Clear (place : Place) (s : Finset Place) : Prop :=
  ∀ q ∈ s, ¬ place <:+ q

namespace Place.Clear

variable {place : Place} {s : Finset Place}

theorem not_mem (h : place.Clear s) : place ∉ s :=
  fun hmem => h place hmem List.suffix_rfl

theorem child (h : place.Clear s) (k : Nat) : Clear (k :: place) s :=
  fun q hq hs => h q hq ((List.suffix_cons k place).trans hs)

theorem child_insert (h : place.Clear s) (k : Nat) : Clear (k :: place) (insert place s) := by
  intro q hq hs
  rcases Finset.mem_insert.1 hq with rfl | hq
  · exact absurd hs.length_le (by simp)
  · exact h.child k q hq hs

end Place.Clear

theorem Place.eq_of_suffix_of_suffix {place q : Place} {j k : Nat} (hj : (j :: place) <:+ q)
    (hk : (k :: place) <:+ q) : j = k := by
  have := (List.suffix_of_suffix_length_le hj hk (by simp)).eq_of_length (by simp)
  exact (List.cons.inj this).1

/-- What is below one sibling is not below a later one. -/
theorem Place.Clear.of_mem_or_suffix {place : Place} {s t : Finset Place} {j k : Nat} (hjk : k < j)
    (hs : Clear (j :: place) s) (h : ∀ r ∈ t, r ∈ s ∨ (k :: place) <:+ r) : Clear (j :: place) t := by
  intro r hr hj
  rcases h r hr with hr | hk
  · exact hs r hr hj
  · exact absurd (Place.eq_of_suffix_of_suffix hj hk) (by omega)

namespace Xml.Node

variable {shown : String → List Run}

mutual

/-- The items of a node are in the paragraphs around it and, else, in paragraphs at or below it. -/
theorem of_mem_marks (hshown : ∀ identifier, shown identifier ≠ []) {place : Place}
    {here q : Finset Place} {runs : List Run} : (n : Node Name) →
    Mark.item q runs ∈ n.marks shown place here →
      runs ≠ [] ∧ here ⊆ q ∧ ∀ r ∈ q, r ∈ here ∨ place <:+ r
  | .text content, h => by
    rw [marks] at h
    obtain ⟨rfl, -, rfl⟩ := Mark.eq_of_mem_ofText h
    exact ⟨List.cons_ne_nil _ _, Finset.Subset.refl _, fun r hr => .inl hr⟩
  | .comment _, h => by simp [marks] at h
  | .instruction _ _, h => by simp [marks] at h
  | .element name attributes content, h => by
    rw [marks] at h
    split at h
    · split at h
      · cases h
      · obtain ⟨rfl, rfl⟩ : q = here ∧ runs = shown _ := by simpa using h
        exact ⟨hshown _, Finset.Subset.refl _, fun r hr => .inl hr⟩
    · split at h
      · obtain ⟨hne, hsub, hq⟩ := of_mem_marksOfContent hshown content h
        refine ⟨hne, (Finset.subset_insert place here).trans hsub, fun r hr => ?_⟩
        rcases hq r hr with hr | ⟨j, -, hj⟩
        · rcases Finset.mem_insert.1 hr with rfl | hr
          · exact .inr List.suffix_rfl
          · exact .inl hr
        · exact .inr ((List.suffix_cons j place).trans hj)
      · obtain ⟨hne, hsub, hq⟩ := of_mem_marksOfContent hshown content h
        refine ⟨hne, hsub, fun r hr => (hq r hr).imp_right ?_⟩
        exact fun ⟨j, _, hj⟩ => (List.suffix_cons j place).trans hj

theorem of_mem_marksOfContent (hshown : ∀ identifier, shown identifier ≠ []) {place : Place}
    {here q : Finset Place} {runs : List Run} {k : Nat} : (ns : List (Node Name)) →
    Mark.item q runs ∈ marksOfContent shown place here k ns →
      runs ≠ [] ∧ here ⊆ q ∧ ∀ r ∈ q, r ∈ here ∨ ∃ j, k ≤ j ∧ (j :: place) <:+ r
  | [], h => by simp [marksOfContent] at h
  | n :: ns, h => by
    rw [marksOfContent] at h
    rcases List.mem_append.1 h with h | h
    · obtain ⟨hne, hsub, hq⟩ := of_mem_marks hshown n h
      exact ⟨hne, hsub, fun r hr => (hq r hr).imp_right fun hk => ⟨k, Nat.le_refl k, hk⟩⟩
    · obtain ⟨hne, hsub, hq⟩ := of_mem_marksOfContent hshown ns h
      refine ⟨hne, hsub, fun r hr => (hq r hr).imp_right ?_⟩
      exact fun ⟨j, hk, hj⟩ => ⟨j, Nat.le_of_succ_le hk, hj⟩

end

end Xml.Node

/-! ### Items and events -/

/-- What the event comes out as, if it is a text with words or a reference. -/
inductive Event.HasItem (shown : String → List Run) : Event String → List Run → Prop where
  | text {content : String} (h : Text.hasWord content.toList = true) :
      HasItem shown (.text content) [Run.plain (String.ofList (Text.collapse content.toList))]
  | reference (identifier : String) : HasItem shown (.reference identifier) (shown identifier)

namespace Xml.Node

variable {shown : String → List Run} {q : Finset Place} {runs : List Run}

mutual

/-- The items of a node are what its events come out as. -/
theorem exists_event_of_mem_marks {place : Place} {here : Finset Place} : (n : Node Name) →
    Mark.item q runs ∈ n.marks shown place here → ∃ e ∈ n.events, e.HasItem shown runs
  | .text content, h => by
    rw [marks] at h
    rw [events]
    obtain ⟨-, hword, rfl⟩ := Mark.eq_of_mem_ofText h
    exact ⟨_, List.mem_singleton_self _, .text hword⟩
  | .comment _, h => by simp [marks] at h
  | .instruction _ _, h => by simp [marks] at h
  | .element name attributes content, h => by
    rw [marks] at h
    rw [events]
    cases htag : ReferenceTag.ofName? name.localName with
    | some tag =>
      rw [htag] at h
      dsimp only at h ⊢
      rw [ReferenceTag.events]
      cases hid : tag.identifier? attributes with
      | none =>
        rw [hid] at h
        cases h
      | some identifier =>
        rw [hid] at h
        obtain ⟨-, rfl⟩ := Mark.item.inj (List.mem_singleton.1 h)
        exact ⟨_, List.mem_singleton_self _, .reference identifier⟩
    | none =>
      rw [htag] at h
      dsimp only at h ⊢
      split at h
      · next hpara =>
        obtain ⟨e, he, hitem⟩ := exists_event_of_mem_marksOfContent content h
        rw [if_pos hpara]
        exact ⟨e, List.mem_append_left _ (List.mem_cons_of_mem _ he), hitem⟩
      · next hpara =>
        rw [if_neg hpara]
        exact exists_event_of_mem_marksOfContent content h

theorem exists_event_of_mem_marksOfContent {place : Place} {here : Finset Place} {k : Nat} :
    (ns : List (Node Name)) → Mark.item q runs ∈ marksOfContent shown place here k ns →
      ∃ e ∈ eventsOfContent ns, e.HasItem shown runs
  | [], h => by simp [marksOfContent] at h
  | n :: ns, h => by
    rw [marksOfContent] at h
    rw [eventsOfContent]
    rcases List.mem_append.1 h with h | h
    · obtain ⟨e, he, hitem⟩ := exists_event_of_mem_marks n h
      exact ⟨e, List.mem_append_left _ he, hitem⟩
    · obtain ⟨e, he, hitem⟩ := exists_event_of_mem_marksOfContent ns h
      exact ⟨e, List.mem_append_right _ he, hitem⟩

end

end Xml.Node

/-! ### Walking by the marks -/

namespace Accumulator
open Xml Xml.Node

/-- From `a` to `b`, inside of the paragraphs `here`, what comes out is the layout of `marks`. -/
structure LaysOut (lineBreak : String) (a : Accumulator) (here : Finset Place) (seen : Seen)
    (marks : List Mark) (b : Accumulator) : Prop where
  tracks : b.Tracks lineBreak here (seen.afterAll marks)
  runs : b.runs = a.runs ++ seen.layout lineBreak marks

namespace LaysOut

variable {lineBreak : String} {a b c : Accumulator} {here : Finset Place} {seen : Seen}
  {ms ns : List Mark}

theorem nil (h : a.Tracks lineBreak here seen) : a.LaysOut lineBreak here seen [] a :=
  ⟨h, by simp [Seen.layout]⟩

theorem append (h : a.LaysOut lineBreak here seen ms b)
    (h' : b.LaysOut lineBreak here (seen.afterAll ms) ns c) :
    a.LaysOut lineBreak here seen (ms ++ ns) c := by
  constructor
  · rw [Seen.afterAll_append]
    exact h'.tracks
  · rw [Seen.layout_append, h'.runs, h.runs, List.append_assoc]

theorem paragraph {place : Place} (h : a.Tracks lineBreak here seen) (hhere : place ∉ here)
    (hlast : ∀ last, seen.last = some last → place ∉ last)
    (hin : a.beginParagraph.1.LaysOut lineBreak (insert place here) seen ms b)
    (hms : ∀ q runs, Mark.item q runs ∈ ms → runs ≠ [] ∧ place ∈ q) :
    a.LaysOut lineBreak here seen ms (b.endParagraph a.beginParagraph.2) := by
  have hruns : b.runs = a.runs ++ seen.layout lineBreak ms := by
    rw [hin.runs, beginParagraph_fst]
  refine ⟨?_, by rw [runs_endParagraph, hruns]⟩
  rcases Seen.last_afterAll lineBreak seen ms with ⟨hl, hnil⟩ | ⟨q, runs, hq, hl⟩
  · exact h.endParagraph_of_last_eq hlast hin.tracks (by rw [hruns, hnil, List.append_nil]) hl
  · obtain ⟨hne, hmem⟩ := hms q runs hq
    refine hin.tracks.endParagraph_of_mem_last ?_ hl hmem hhere
    have := List.length_pos_iff.2 (Seen.layout_ne_nil lineBreak seen hq hne)
    rw [hruns, List.length_append]
    omega

end LaysOut

variable {shown : String → List Run} {lineBreak : String}

mutual

theorem laysOut_addNode (hshown : ∀ identifier, shown identifier ≠ []) {place : Place}
    {here : Finset Place} {seen : Seen} {a : Accumulator} (ha : a.Tracks lineBreak here seen)
    (hhere : place.Clear here) (hlast : ∀ last, seen.last = some last → place.Clear last) :
    (n : Node Name) → a.LaysOut lineBreak here seen (n.marks shown place here) (a.addNode shown n)
  | .text content => by
    rw [marks, addNode]
    exact ⟨(ha.appendTextNode content).1, (ha.appendTextNode content).2⟩
  | .comment _ => by
    rw [marks, addNode]
    exact .nil ha
  | .instruction _ _ => by
    rw [marks, addNode]
    exact .nil ha
  | .element name attributes content => by
    rw [marks, addNode]
    cases ReferenceTag.ofName? name.localName with
    | some tag =>
      dsimp only
      cases tag.identifier? attributes with
      | none => exact .nil ha
      | some identifier =>
        refine ⟨ha.appendRuns (hshown identifier), ?_⟩
        rw [Seen.layout, Seen.layout, List.append_nil]
        exact ha.runs_appendRuns _
    | none =>
      dsimp only
      split
      · have hnot last (hl : seen.last = some last) : place ∉ last := (hlast last hl).not_mem
        have hin := laysOut_addContent hshown (k := 0) (ha.beginParagraph hnot)
          (fun j _ => hhere.child_insert j) (fun last hl j _ => (hlast last hl).child j) content
        refine .paragraph ha hhere.not_mem hnot hin fun q runs hq => ?_
        obtain ⟨hne, hsub, -⟩ := of_mem_marksOfContent hshown content hq
        exact ⟨hne, hsub (Finset.mem_insert_self place here)⟩
      · exact laysOut_addContent hshown ha (fun j _ => hhere.child j)
          (fun last hl j _ => (hlast last hl).child j) content

theorem laysOut_addContent (hshown : ∀ identifier, shown identifier ≠ []) {place : Place}
    {here : Finset Place} {seen : Seen} {k : Nat} {a : Accumulator}
    (ha : a.Tracks lineBreak here seen) (hhere : ∀ j, k ≤ j → Place.Clear (j :: place) here)
    (hlast : ∀ last, seen.last = some last → ∀ j, k ≤ j → Place.Clear (j :: place) last) :
    (ns : List (Node Name)) →
    a.LaysOut lineBreak here seen (marksOfContent shown place here k ns) (a.addContent shown ns)
  | [] => by
    rw [marksOfContent, addContent]
    exact .nil ha
  | n :: ns => by
    rw [marksOfContent, addContent]
    have hn := laysOut_addNode hshown ha (hhere k (Nat.le_refl k))
      (fun last hl => hlast last hl k (Nat.le_refl k)) n
    refine hn.append (laysOut_addContent hshown hn.tracks
      (fun j hj => hhere j (Nat.le_of_succ_le hj)) (fun last hl j hj => ?_) ns)
    -- The last item is in `n` now, or it is what it was in front of `n`.
    rcases Seen.last_afterAll lineBreak seen (n.marks shown (k :: place) here) with
      ⟨hl', -⟩ | ⟨q, runs, hq, hl'⟩
    · exact hlast last (hl' ▸ hl) j (Nat.le_of_succ_le hj)
    · obtain rfl : q = last := Option.some.inj (hl'.symm.trans hl)
      obtain ⟨-, -, hbelow⟩ := of_mem_marks hshown n hq
      exact (hhere j (Nat.le_of_succ_le hj)).of_mem_or_suffix hj hbelow

end

theorem runs_addNode_eq_layout {shown : String → List Run}
    (hshown : ∀ identifier, shown identifier ≠ []) (lineBreak : String) (n : Node Name) :
    (addNode shown { lineBreak } n).runs = Seen.layout lineBreak {} (n.marks shown [] ∅) := by
  have hclear : Place.Clear [] ∅ := fun q hq => absurd hq (Finset.notMem_empty q)
  have h := laysOut_addNode hshown (.fresh lineBreak) hclear (fun _ hl => by cases hl) n
  rw [h.runs]
  rfl

end Accumulator

end DocComment
