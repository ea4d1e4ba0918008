import DocComment.Event
import DocComment.Proofs.Boundary

/-!
# Calls on an accumulator

The laws that an accumulator keeps whatever is called on it, in whatever order: the flags fit the
runs, runs are only added, and what stands in front of new content is nothing, a space or a
paragraph break. A paragraph that adds no run leaves no trace, and any other leaves a break waiting
(`laws_of_calls`).
-/

namespace DocComment

/-- A call on an accumulator. A paragraph that is closed is always the one opened last. -/
inductive Call where
  | text (s : String)
  | runs (content : List Run) (ne_nil : content ≠ [])
  | space
  | textNode (raw : String)
  | boundary
  | beginParagraph
  | endParagraph

namespace Call

/-- What a call puts out, apart from the white space in front of it. -/
def content : Call → List Run
  | .text s => [Run.plain s]
  | .runs content _ => content
  | .textNode raw =>
    if Text.hasWord raw.toList then [Run.plain (String.ofList (Text.collapse raw.toList))] else []
  | .space | .boundary | .beginParagraph | .endParagraph => []

/-- Calls that close every paragraph they open, and no other. -/
inductive Balanced : List Call → Prop where
  | nil : Balanced []
  | single {c : Call} {cs : List Call} (hb : c ≠ .beginParagraph) (he : c ≠ .endParagraph)
      (rest : Balanced cs) : Balanced (c :: cs)
  | paragraph {cs ds : List Call} (inner : Balanced cs) (rest : Balanced ds) :
      Balanced (.beginParagraph :: (cs ++ .endParagraph :: ds))

end Call

namespace Progress

/-- What a call does. The token of a paragraph is kept until it is closed. -/
def perform (p : Progress) : Call → Progress
  | .text s => { p with accumulator := p.accumulator.appendText s }
  | .runs content _ => { p with accumulator := p.accumulator.appendRuns content }
  | .space => { p with accumulator := p.accumulator.appendSpace }
  | .textNode raw => { p with accumulator := p.accumulator.appendTextNode raw }
  | .boundary => { p with accumulator := p.accumulator.markBoundary.1 }
  | .beginParagraph => p.step .beginParagraph
  | .endParagraph => p.step .endParagraph

def performAll (p : Progress) (calls : List Call) : Progress :=
  calls.foldl perform p

def fresh (lineBreak : String) : Progress :=
  { accumulator := { lineBreak } }

variable {p : Progress}

@[simp] theorem performAll_nil : p.performAll [] = p := rfl

@[simp] theorem performAll_cons (c : Call) (cs : List Call) :
    p.performAll (c :: cs) = (p.perform c).performAll cs := rfl

theorem performAll_append (cs ds : List Call) :
    p.performAll (cs ++ ds) = (p.performAll cs).performAll ds :=
  List.foldl_append

/-! ### Invariants -/

/-- The flags of the accumulator fit its runs, and no paragraph that asked for a break was opened in
front of all runs. -/
structure Consistent (p : Progress) : Prop where
  accumulator : p.accumulator.Consistent
  opened : ∀ k, some k ∈ p.opened → 0 < k

theorem Consistent.fresh (lineBreak : String) : (fresh lineBreak).Consistent :=
  ⟨.fresh lineBreak, fun _ h => absurd h List.not_mem_nil⟩

theorem Consistent.perform (h : p.Consistent) (c : Call) : (p.perform c).Consistent := by
  cases c with
  | text s => exact ⟨.appendRuns (List.cons_ne_nil _ _), h.opened⟩
  | runs content hne => exact ⟨.appendRuns hne, h.opened⟩
  | space => exact ⟨h.accumulator.spacedIf true, h.opened⟩
  | textNode raw => exact ⟨h.accumulator.appendTextNode raw, h.opened⟩
  | boundary => exact ⟨h.accumulator.markBoundary, h.opened⟩
  | beginParagraph =>
    refine ⟨h.accumulator.markBoundary, fun k hk => ?_⟩
    rcases List.mem_cons.1 hk with hk | hk
    · exact h.accumulator.pos_of_beginParagraph hk.symm
    · exact h.opened k hk
  | endParagraph =>
    refine ⟨h.accumulator.endParagraph fun k hk => ?_, fun k hk => h.opened k (List.mem_of_mem_tail hk)⟩
    cases hp : p.opened with
    | nil => rw [hp] at hk; cases hk
    | cons t ts => rw [hp] at hk; exact h.opened k (by rw [hp, ← hk]; exact List.mem_cons_self ..)

theorem Consistent.performAll (h : p.Consistent) (cs : List Call) : (p.performAll cs).Consistent := by
  induction cs generalizing p with
  | nil => exact h
  | cons c cs ih => exact ih (h.perform c)

@[simp] theorem lineBreak_perform (c : Call) :
    (p.perform c).accumulator.lineBreak = p.accumulator.lineBreak := by
  cases c with
  | textNode raw => exact p.accumulator.lineBreak_appendTextNode raw
  | boundary => rw [perform, Accumulator.markBoundary_fst]
  | beginParagraph => rw [perform, step, Accumulator.beginParagraph_fst]
  | endParagraph => simp [perform, step]
  | _ => rfl

theorem lineBreak_performAll (cs : List Call) :
    (p.performAll cs).accumulator.lineBreak = p.accumulator.lineBreak := by
  induction cs generalizing p with
  | nil => rfl
  | cons c cs ih => rw [performAll_cons, ih, lineBreak_perform]

/-! ### What a call adds -/

/-- A call without content adds nothing, and another adds its content behind the separator. A text
node may ask for a space itself. -/
theorem runs_perform (c : Call) :
    (c.content = [] ∧ (p.perform c).accumulator.runs = p.accumulator.runs) ∨
      c.content ≠ [] ∧ ∃ spaced, (p.perform c).accumulator.runs =
        p.accumulator.runs ++ (p.accumulator.spacedIf spaced).separator ++ c.content := by
  cases c with
  | text s => exact .inr ⟨List.cons_ne_nil _ _, false, rfl⟩
  | runs content hne => exact .inr ⟨hne, false, rfl⟩
  | space => exact .inl ⟨rfl, rfl⟩
  | textNode raw =>
    rw [perform, Call.content, Accumulator.runs_appendTextNode]
    split
    · exact .inr ⟨List.cons_ne_nil _ _, _, rfl⟩
    · exact .inl ⟨rfl, rfl⟩
  | boundary => exact .inl ⟨rfl, by rw [perform, Accumulator.markBoundary_fst]⟩
  | beginParagraph => exact .inl ⟨rfl, by rw [perform, step, Accumulator.beginParagraph_fst]⟩
  | endParagraph => exact .inl ⟨rfl, Accumulator.runs_endParagraph _ _⟩

theorem prefix_perform (c : Call) : p.accumulator.runs <+: (p.perform c).accumulator.runs := by
  rcases runs_perform (p := p) c with ⟨-, h⟩ | ⟨-, spaced, h⟩
  · exact h ▸ List.prefix_rfl
  · rw [h, List.append_assoc]
    exact List.prefix_append _ _

theorem prefix_performAll (cs : List Call) :
    p.accumulator.runs <+: (p.performAll cs).accumulator.runs := by
  induction cs generalizing p with
  | nil => exact List.prefix_rfl
  | cons c cs ih => exact (prefix_perform c).trans ih

/-- As runs are only added, a progress between two with the same runs has them too. -/
theorem runs_eq_of_prefix {q r : Progress} (hpq : p.accumulator.runs <+: q.accumulator.runs)
    (hqr : q.accumulator.runs <+: r.accumulator.runs) (h : r.accumulator.runs = p.accumulator.runs) :
    q.accumulator.runs = p.accumulator.runs :=
  (hpq.eq_of_length_le (h ▸ hqr.length_le)).symm

/-! ### Paragraphs -/

/-- Where no content has been added since the last boundary, a call that is no edge of a paragraph
leaves the flags alone, unless it adds runs. -/
theorem flags_perform_of_runs_eq {c : Call} (hb : c ≠ .beginParagraph) (he : c ≠ .endParagraph)
    (hc : p.accumulator.hasContent = false)
    (hr : (p.perform c).accumulator.runs = p.accumulator.runs) :
    (p.perform c).accumulator.hasContent = false ∧
      (p.perform c).accumulator.pendingBreak = p.accumulator.pendingBreak := by
  have hcontent : c.content = [] := by
    rcases runs_perform (p := p) c with ⟨h, -⟩ | ⟨-, spaced, h⟩
    · exact h
    · rw [h, List.append_assoc, List.append_right_eq_self] at hr
      exact (List.append_eq_nil_iff.1 hr).2
  cases c with
  | text s => exact absurd hcontent (List.cons_ne_nil _ _)
  | runs content hne => exact absurd hcontent hne
  | space => exact ⟨hc, rfl⟩
  | textNode raw =>
    cases hw : Text.hasWord raw.toList with
    | false =>
      rw [perform, Accumulator.appendTextNode_of_hasWord_eq_false hw]
      simp [hc]
    | true => simp [Call.content, hw] at hcontent
  | boundary => simp [perform, Accumulator.markBoundary_fst, hc]
  | beginParagraph => exact absurd rfl hb
  | endParagraph => exact absurd rfl he

theorem accumulator_beginParagraph :
    (p.perform .beginParagraph).accumulator =
      { p.accumulator with
        pendingBreak := p.accumulator.pendingBreak || p.accumulator.hasContent
        hasContent := false } :=
  Accumulator.beginParagraph_fst _

end Progress

namespace Call.Balanced
open Progress

variable {p : Progress} {cs : List Call}

theorem opened_performAll (h : Balanced cs) : (p.performAll cs).opened = p.opened := by
  induction h generalizing p with
  | nil => rfl
  | @single c cs hb he _ ih =>
    rw [performAll_cons, ih]
    cases c with
    | beginParagraph => exact absurd rfl hb
    | endParagraph => exact absurd rfl he
    | _ => rfl
  | @paragraph cs ds _ _ ih ih' =>
    rw [performAll_cons, performAll_append, performAll_cons, ih']
    show (performAll _ cs).opened.tail = _
    rw [ih]
    rfl

/-- A paragraph is closed with the token of its own opening. -/
theorem perform_endParagraph (h : Balanced cs) :
    ((p.perform .beginParagraph).performAll cs).perform .endParagraph =
      { accumulator := ((p.perform .beginParagraph).performAll cs).accumulator.endParagraph
          p.accumulator.beginParagraph.2
        opened := p.opened } := by
  have ho : ((p.perform .beginParagraph).performAll cs).opened =
      p.accumulator.beginParagraph.2 :: p.opened := h.opened_performAll
  show Progress.mk (Accumulator.endParagraph _ _) _ = _
  rw [ho, List.headD_cons, List.tail_cons]

/-- A paragraph that adds no run leaves the flags as they were, if its calls leave them as its
opening does. -/
theorem flags_paragraph (h : Balanced cs) (hp : p.Consistent)
    (hr : ((p.perform .beginParagraph).performAll cs).accumulator.runs = p.accumulator.runs)
    (hc : ((p.perform .beginParagraph).performAll cs).accumulator.hasContent = false)
    (hb : ((p.perform .beginParagraph).performAll cs).accumulator.pendingBreak =
      (p.accumulator.pendingBreak || p.accumulator.hasContent)) :
    (((p.perform .beginParagraph).performAll cs).perform .endParagraph).accumulator =
      { ((p.perform .beginParagraph).performAll cs).accumulator with
        hasContent := p.accumulator.hasContent
        pendingBreak := p.accumulator.pendingBreak } := by
  rw [h.perform_endParagraph]
  exact Accumulator.endParagraph_of_runs_eq hp.accumulator hr hc hb

/-- Where no content has been added since the last boundary, balanced calls that add no run leave
the flags alone. -/
theorem flags_of_runs_eq (h : Balanced cs) (hp : p.Consistent)
    (hc : p.accumulator.hasContent = false)
    (hr : (p.performAll cs).accumulator.runs = p.accumulator.runs) :
    (p.performAll cs).accumulator.hasContent = false ∧
      (p.performAll cs).accumulator.pendingBreak = p.accumulator.pendingBreak := by
  induction h generalizing p with
  | nil => exact ⟨hc, rfl⟩
  | @single c cs hb he _ ih =>
    rw [performAll_cons] at hr ⊢
    have hr₁ := runs_eq_of_prefix (prefix_perform c) (prefix_performAll cs) hr
    obtain ⟨hc₁, hb₁⟩ := flags_perform_of_runs_eq hb he hc hr₁
    rw [← hb₁]
    exact ih (hp.perform c) hc₁ (hr.trans hr₁.symm)
  | @paragraph cs ds inner rest ih ih' =>
    rw [performAll_cons, performAll_append, performAll_cons] at hr ⊢
    have hp₁ := hp.perform .beginParagraph
    have hp₃ := (hp₁.performAll cs).perform .endParagraph
    have hr₁ : (p.perform .beginParagraph).accumulator.runs = p.accumulator.runs := by
      rw [accumulator_beginParagraph]
    have hr₃ : (((p.perform .beginParagraph).performAll cs).perform .endParagraph).accumulator.runs =
        ((p.perform .beginParagraph).performAll cs).accumulator.runs :=
      Accumulator.runs_endParagraph _ _
    -- Runs are never taken back, so if there are no new ones in the end there were none inside.
    have hr₂ := runs_eq_of_prefix (hr₁ ▸ prefix_performAll cs) (hr₃ ▸ prefix_performAll ds) hr
    obtain ⟨hc₂, hb₂⟩ := ih hp₁ (by rw [accumulator_beginParagraph]) (hr₂.trans hr₁.symm)
    rw [accumulator_beginParagraph] at hb₂
    have hq := inner.flags_paragraph hp hr₂ hc₂ hb₂
    obtain ⟨hc₄, hb₄⟩ := ih' hp₃ (by rw [hq, hc]) (hr.trans (hr₃.trans hr₂).symm)
    exact ⟨hc₄, hb₄.trans (by rw [hq])⟩

theorem flags_of_runs_ne (h : Balanced cs) (hp : p.Consistent)
    (hr : ((p.perform .beginParagraph).performAll cs).accumulator.runs ≠ p.accumulator.runs) :
    (((p.perform .beginParagraph).performAll cs).perform .endParagraph).accumulator =
      { ((p.perform .beginParagraph).performAll cs).accumulator with
        hasContent := false
        pendingBreak := true } := by
  have hpre : p.accumulator.runs <+: ((p.perform .beginParagraph).performAll cs).accumulator.runs := by
    have := prefix_performAll (p := p.perform .beginParagraph) cs
    rwa [accumulator_beginParagraph] at this
  rw [h.perform_endParagraph]
  refine Accumulator.endParagraph_of_length_ne ((hp.perform _).performAll cs).accumulator ?_ ?_
  · intro hnil
    rw [hnil, List.prefix_nil] at hpre
    exact hr (hnil.trans hpre.symm)
  · exact fun hl => hr (hpre.eq_of_length hl.symm).symm

end Call.Balanced

namespace Progress

/-- What stands in front of new content: nothing, a space, or behind other runs a break. -/
theorem Consistent.separator_cases {p : Progress} (hp : p.Consistent) (spaced : Bool) :
    (p.accumulator.spacedIf spaced).separator = [] ∨
      (p.accumulator.spacedIf spaced).separator = [Run.space] ∨
      p.accumulator.runs ≠ [] ∧ (p.accumulator.spacedIf spaced).separator =
        [⟨.lineBreak, p.accumulator.lineBreak⟩, ⟨.lineBreak, p.accumulator.lineBreak⟩] := by
  simp only [Accumulator.separator, Accumulator.breakRun, Accumulator.pendingBreak_spacedIf,
    Accumulator.lineBreak_spacedIf]
  split
  · next h => exact .inr (.inr ⟨hp.accumulator.runs_ne_nil_of_pendingBreak h, rfl⟩)
  · split
    · exact .inr (.inl rfl)
    · exact .inl rfl

/-- The laws of an accumulator after any `calls`, for the next call and for a paragraph with any
balanced `inner` calls: a break does not wait while there is content, and neither is so in front of
all runs; content is added at the end, behind nothing, a space or (not at the beginning) a break; a
paragraph without runs leaves the flags as they were, and behind one with runs a break waits. -/
theorem laws_of_calls (lineBreak : String) (calls : List Call) (call : Call) {inner : List Call}
    (h : Call.Balanced inner) :
    let p := (fresh lineBreak).performAll calls
    let a := p.accumulator
    let next := (p.perform call).accumulator
    let closed := (p.performAll (.beginParagraph :: (inner ++ [.endParagraph]))).accumulator
    (¬(a.pendingBreak = true ∧ a.hasContent = true) ∧
      (a.pendingBreak = true ∨ a.hasContent = true → a.runs ≠ [])) ∧
    ((call.content = [] → next.runs = a.runs) ∧
      (call.content ≠ [] → ∃ front, next.runs = a.runs ++ front ++ call.content ∧
        (front = [] ∨ front = [Run.space] ∨
          a.runs ≠ [] ∧ front = [⟨.lineBreak, lineBreak⟩, ⟨.lineBreak, lineBreak⟩]))) ∧
    (closed.runs = a.runs →
      closed.pendingBreak = a.pendingBreak ∧ closed.hasContent = a.hasContent) ∧
    (closed.runs ≠ a.runs →
      a.runs <+: closed.runs ∧ closed.pendingBreak = true ∧ closed.hasContent = false) := by
  intro p a next closed
  have hp : p.Consistent := (Consistent.fresh lineBreak).performAll calls
  have hbr : a.lineBreak = lineBreak := lineBreak_performAll calls
  have hclosed : closed = (((p.perform .beginParagraph).performAll inner).perform
      .endParagraph).accumulator := by
    show (p.performAll _).accumulator = _
    rw [performAll_cons, performAll_append, performAll_cons, performAll_nil]
  have hruns : closed.runs = ((p.perform .beginParagraph).performAll inner).accumulator.runs := by
    rw [hclosed]
    exact Accumulator.runs_endParagraph _ _
  refine ⟨⟨fun ⟨hb, hc⟩ => ?_, fun hor => ?_⟩, ⟨fun hc => ?_, fun hc => ?_⟩, fun hr => ?_, fun hr => ?_⟩
  · have := hp.accumulator.of_ne_nil (hp.accumulator.runs_ne_nil_of_hasContent hc)
    rw [hb, hc] at this
    exact Bool.false_ne_true this.symm
  · rcases hor with hb | hc
    · exact hp.accumulator.runs_ne_nil_of_pendingBreak hb
    · exact hp.accumulator.runs_ne_nil_of_hasContent hc
  · rcases runs_perform (p := p) call with ⟨-, hr⟩ | ⟨hne, -⟩
    · exact hr
    · exact absurd hc hne
  · rcases runs_perform (p := p) call with ⟨hnil, -⟩ | ⟨-, spaced, hr⟩
    · exact absurd hnil hc
    · exact ⟨_, hr, hbr ▸ hp.separator_cases spaced⟩
  · rw [hruns] at hr
    have hopen : (p.perform .beginParagraph).accumulator.runs = a.runs := by
      rw [accumulator_beginParagraph]
    obtain ⟨hc, hb⟩ := h.flags_of_runs_eq (hp.perform .beginParagraph)
      (by rw [accumulator_beginParagraph]) (hr.trans hopen.symm)
    rw [accumulator_beginParagraph] at hb
    rw [hclosed, h.flags_paragraph hp hr hc hb]
    exact ⟨rfl, rfl⟩
  · rw [hruns] at hr
    refine ⟨prefix_performAll _, ?_⟩
    rw [hclosed, h.flags_of_runs_ne hp hr]
    exact ⟨rfl, rfl⟩

theorem laws_of_empty_paragraph :
    let calls := [Call.text "A", .beginParagraph, .textNode " B ", .endParagraph]
    let inner := [Call.space, .beginParagraph, .boundary, .endParagraph]
    let p := (fresh "\n").performAll calls
    let closed := (p.performAll (.beginParagraph :: (inner ++ [.endParagraph]))).accumulator
    Call.Balanced inner ∧
      p.accumulator.runs = [.plain "A", ⟨.lineBreak, "\n"⟩, ⟨.lineBreak, "\n"⟩, .plain "B"] ∧
      closed.runs = p.accumulator.runs ∧ closed.pendingBreak = true ∧ closed.hasContent = false ∧
      (p.perform (.text "C")).accumulator.runs =
        p.accumulator.runs ++ [⟨.lineBreak, "\n"⟩, ⟨.lineBreak, "\n"⟩] ++ [.plain "C"] := by
  intro calls inner p closed
  have hinner : Call.Balanced inner :=
    .single (by simp) (by simp) (.paragraph (.single (by simp) (by simp) .nil) .nil)
  obtain ⟨-, -, hclosed, -⟩ := laws_of_calls "\n" calls (.text "C") hinner
  obtain ⟨hb, hc⟩ := hclosed rfl
  exact ⟨hinner, rfl, rfl, hb, hc, rfl⟩

end Progress

end DocComment
