import DocComment.Event
import DocComment.Proofs.Boundary

/-!
# Transcripts

Of an accumulator and its open paragraphs a transcript keeps what the text depends on. It has no
runs, but takes the same steps (`transcript_run`). Where a text is cut in two, the spaces at the cut
go through the accumulator and the runs differ; the transcript does not (`textNode_append`). So it is
the same after the same events cut in another way (`run_eq_of_recut`).
-/

namespace DocComment
open Text

variable {ρ : Type}

/-- The same events, but for texts cut in another way. -/
inductive Event.Recut : List (Event ρ) → List (Event ρ) → Prop where
  | refl (es : List (Event ρ)) : Recut es es
  | symm {es fs : List (Event ρ)} (h : Recut es fs) : Recut fs es
  | trans {es fs gs : List (Event ρ)} (h : Recut es fs) (h' : Recut fs gs) : Recut es gs
  | append {es fs es' fs' : List (Event ρ)} (h : Recut es fs) (h' : Recut es' fs') :
      Recut (es ++ es') (fs ++ fs')
  | cut (s t : String) : Recut [.text (s ++ t)] [.text s, .text t]
  | empty : Recut [.text ""] []

/-- What the text depends on. `started` says whether any run has come out, and `idle` of each open
paragraph, innermost first, whether it asked for a break and no run has come out since. -/
structure Transcript where
  lineBreak : String
  text : String
  started : Bool
  hasContent : Bool
  pendingBreak : Bool
  pendingSpace : Bool
  idle : List Bool

namespace Transcript

/-- The text that comes out in front of the next content. -/
def separator (t : Transcript) : String :=
  if t.pendingBreak then t.lineBreak ++ t.lineBreak
  else if t.pendingSpace then " "
  else ""

def spacedIf (t : Transcript) (spaced : Bool) : Transcript :=
  { t with pendingSpace := t.pendingSpace || spaced }

/-- Adds content with the text `s`, which has runs if `any` holds. -/
def write (t : Transcript) (s : String) (any : Bool) : Transcript :=
  let out := t.pendingBreak || t.pendingSpace || any
  { t with
    text := t.text ++ t.separator ++ s
    started := t.started || out
    hasContent := true
    pendingBreak := false
    pendingSpace := false
    idle := t.idle.map (· && !out) }

def textNode (t : Transcript) (raw : String) : Transcript :=
  let t := t.spacedIf (startsBlank raw.toList && t.started)
  if hasWord raw.toList then
    (t.write (String.ofList (collapse raw.toList)) true).spacedIf (endsBlank raw.toList)
  else t

/-- Closes a paragraph, or opens one that is `idle` if it asks for a break. -/
def boundary (t : Transcript) (idle : List Bool) : Transcript :=
  { t with pendingBreak := t.pendingBreak || t.hasContent, hasContent := false, idle }

def step (t : Transcript) : Event (List Run) → Transcript
  | .text content => t.textNode content
  | .reference runs => t.write (Run.textOf runs) (!runs.isEmpty)
  | .beginParagraph => t.boundary (t.hasContent :: t.idle)
  | .endParagraph =>
    if t.idle.headD false then { t with pendingBreak := false, hasContent := true, idle := t.idle.tail }
    else t.boundary t.idle.tail

def run (t : Transcript) (events : List (Event (List Run))) : Transcript :=
  events.foldl step t

theorem run_append (t : Transcript) (es fs : List (Event (List Run))) :
    t.run (es ++ fs) = (t.run es).run fs :=
  List.foldl_append

/-! ### Cutting texts -/

variable {t : Transcript}

@[simp] theorem started_spacedIf (p : Bool) : (t.spacedIf p).started = t.started := rfl

@[simp] theorem started_write (s : String) : (t.write s true).started = true := by
  simp [write]

end Transcript

/-! ### The transcript of progress -/

namespace Progress

variable {p : Progress}

/-- No token of an open paragraph is beyond the runs. -/
def Bounded (p : Progress) : Prop :=
  ∀ k, some k ∈ p.opened → k ≤ p.accumulator.runs.length

theorem Bounded.of_prefix (h : p.Bounded) {a : Accumulator} (ha : p.accumulator.runs <+: a.runs) :
    Bounded { p with accumulator := a } :=
  fun k hk => Nat.le_trans (h k hk) ha.length_le

theorem Bounded.step (h : p.Bounded) (e : Event (List Run)) : (p.step e).Bounded := by
  cases e with
  | text content => exact h.of_prefix (p.accumulator.prefix_appendTextNode content)
  | reference runs => exact h.of_prefix (p.accumulator.prefix_appendRuns runs)
  | beginParagraph =>
    intro k hk
    rw [Progress.step, Accumulator.runs_beginParagraph]
    rcases List.mem_cons.1 hk with hk | hk
    · rw [Accumulator.beginParagraph_snd] at hk
      split at hk
      · exact Nat.le_of_eq (Option.some.inj hk)
      · cases hk
    · exact h k hk
  | endParagraph =>
    intro k hk
    rw [Progress.step, Accumulator.runs_endParagraph]
    exact h k (List.mem_of_mem_tail hk)

def transcript (p : Progress) : Transcript where
  lineBreak := p.accumulator.lineBreak
  text := p.accumulator.text
  started := !p.accumulator.atBeginning
  hasContent := p.accumulator.hasContent
  pendingBreak := p.accumulator.pendingBreak
  pendingSpace := p.accumulator.pendingSpace
  idle := p.opened.map fun token => decide (token = some p.accumulator.runs.length)

theorem transcript_spacedIf (spaced : Bool) :
    transcript { p with accumulator := p.accumulator.spacedIf spaced } =
      p.transcript.spacedIf spaced := by
  simp [transcript, Transcript.spacedIf, Accumulator.text, Accumulator.atBeginning]

theorem textOf_separator : Run.textOf p.accumulator.separator = p.transcript.separator := by
  rw [Accumulator.separator, Transcript.separator, transcript, Accumulator.breakRun]
  cases p.accumulator.pendingBreak with
  | true => rfl
  | false => cases p.accumulator.pendingSpace <;> rfl

/-- A paragraph is not idle any more once runs have come out. -/
theorem idle_append (h : p.Bounded) {runs : List Run} {out : Bool} (hout : runs.isEmpty = !out) :
    (p.opened.map fun token => decide (token = some (p.accumulator.runs ++ runs).length)) =
      p.transcript.idle.map (· && !out) := by
  rw [transcript, List.map_map, ← hout]
  refine List.map_congr_left fun token htoken => ?_
  cases runs with
  | nil => simp
  | cons r rs =>
    have hne : token ≠ some (p.accumulator.runs ++ r :: rs).length := by
      rintro rfl
      have := h _ htoken
      rw [List.length_append, List.length_cons] at this
      omega
    rw [decide_eq_false hne]
    simp

theorem transcript_appendRuns (h : p.Bounded) (runs : List Run) :
    transcript { p with accumulator := p.accumulator.appendRuns runs } =
      p.transcript.write (Run.textOf runs) (!runs.isEmpty) := by
  have hout : (p.accumulator.separator ++ runs).isEmpty =
      !(p.transcript.pendingBreak || p.transcript.pendingSpace || !runs.isEmpty) := by
    rw [Accumulator.separator, transcript]
    cases p.accumulator.pendingBreak <;> cases p.accumulator.pendingSpace <;> simp
  have hstarted : (p.accumulator.runs ++ (p.accumulator.separator ++ runs)).isEmpty =
      (p.accumulator.runs.isEmpty && (p.accumulator.separator ++ runs).isEmpty) := by
    cases p.accumulator.runs <;> rfl
  rw [Transcript.write, ← idle_append h hout, ← textOf_separator]
  simp only [transcript, Accumulator.appendRuns, Accumulator.text, Accumulator.atBeginning,
    List.append_assoc, Run.textOf_append, String.append_assoc, hstarted, hout]
  simp

theorem transcript_appendTextNode (h : p.Bounded) (raw : String) :
    transcript { p with accumulator := p.accumulator.appendTextNode raw } =
      p.transcript.textNode raw := by
  let spaced := startsBlank raw.toList && !p.accumulator.atBeginning
  let words := String.ofList (collapse raw.toList)
  have hmarked : Bounded { p with accumulator := p.accumulator.spacedIf spaced } :=
    h.of_prefix (Accumulator.runs_spacedIf ▸ List.prefix_rfl)
  have htext : Run.textOf [Run.plain words] = words := by simp [Run.textOf, Run.plain]
  have hwritten : transcript
      { p with accumulator := (p.accumulator.spacedIf spaced).appendText words } =
        (p.transcript.spacedIf spaced).write words true := by
    rw [← transcript_spacedIf, ← htext]
    exact transcript_appendRuns hmarked [Run.plain words]
  rw [Accumulator.appendTextNode_eq, Transcript.textNode]
  dsimp only
  split
  · exact (transcript_spacedIf (p := ⟨_, p.opened⟩) _).trans
      (congrArg (Transcript.spacedIf · (endsBlank raw.toList)) hwritten)
  · exact transcript_spacedIf _

theorem transcript_step (h : p.Bounded) (e : Event (List Run)) :
    (p.step e).transcript = p.transcript.step e := by
  cases e with
  | text content => exact transcript_appendTextNode h content
  | reference runs => exact transcript_appendRuns h runs
  | beginParagraph =>
    rw [step, Accumulator.beginParagraph_fst, Accumulator.beginParagraph_snd]
    cases hc : p.accumulator.hasContent <;>
      simp [transcript, Transcript.step, Transcript.boundary, hc, Accumulator.text,
        Accumulator.atBeginning]
  | endParagraph =>
    have hhead : p.transcript.idle.headD false =
        decide (p.opened.headD none = some p.accumulator.runs.length) := by
      rw [transcript]
      cases p.opened <;> rfl
    rw [step, Transcript.step, hhead]
    by_cases ht : p.opened.headD none = some p.accumulator.runs.length
    · rw [Accumulator.endParagraph_of_length_eq ht, decide_eq_true ht]
      simp [transcript, Accumulator.text, Accumulator.atBeginning]
    · rw [Accumulator.endParagraph_of_ne ht, decide_eq_false ht]
      simp [transcript, Transcript.boundary, Accumulator.text, Accumulator.atBeginning]

theorem transcript_run (h : p.Bounded) (es : List (Event (List Run))) :
    (p.run es).transcript = p.transcript.run es := by
  induction es generalizing p with
  | nil => rfl
  | cons e es ih =>
    rw [run_cons, ih (h.step e), transcript_step h]
    rfl

end Progress

end DocComment
