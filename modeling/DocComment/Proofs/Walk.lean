import DocComment.Formatter
import DocComment.Proofs.Boundary
import DocComment.Proofs.DeclaredSymbol

/-!
# What a walk adds and where it ends

A walk ends at the first element whose name has no local name, or whose reference cannot be shown.
The elements that are met (`met`) decide that by themselves, whatever the accumulator. If none of
them ends the walk, it adds the nodes as a recursion does that cannot fail (`addNode`):
`appendNode_eq_map`. Where all references can be shown, only names end it: `appendNode_eq`.
-/

namespace DocComment

variable {ρ σ ε : Type}

/-- The event with another reference. -/
def Event.map (f : ρ → σ) : Event ρ → Event σ
  | .text content => .text content
  | .reference target => .reference (f target)
  | .beginParagraph => .beginParagraph
  | .endParagraph => .endParagraph

theorem Event.rendered_eq {render : ρ → Except ε σ} {f : ρ → σ} (h : ∀ r, render r = .ok (f r))
    (e : Event ρ) : e.rendered render = .ok (e.map f) := by
  cases e with
  | reference target => rw [rendered, h]; rfl
  | _ => rfl

/-- A walk ends at one of the names, which has no local name. -/
def EndsAtName {α : Type} (names : List Xml.Name) (x : Except (WalkError ε) α) : Prop :=
  ∃ name ∈ names, name.isResolved = false ∧ x = .error (.unresolvedName name.tagPart)

namespace EndsAtName

variable {α : Type} {names : List Xml.Name} {x : Except (WalkError ε) α}

theorem cons (h : EndsAtName names x) (name : Xml.Name) : EndsAtName (name :: names) x := by
  obtain ⟨name', hmem, h⟩ := h
  exact ⟨name', List.mem_cons_of_mem name hmem, h⟩

theorem map {β : Type} (h : EndsAtName names x) (f : α → β) : EndsAtName names (x.map f) := by
  obtain ⟨name, hmem, hname, rfl⟩ := h
  exact ⟨name, hmem, hname, rfl⟩

theorem not_of_resolved (h : ∀ name ∈ names, name.isResolved) : ¬ EndsAtName names x := by
  rintro ⟨name, hmem, hname, -⟩
  rw [h name hmem] at hname
  cases hname

/-- What holds unless one of two walks ends at a name holds where all names are local names. -/
theorem resolve {p : Prop} {names' : List Xml.Name} {y : Except (WalkError ε) α}
    (h : p ∨ EndsAtName names x ∨ EndsAtName names' y)
    (hnames : ∀ name ∈ names ++ names', name.isResolved) : p := by
  obtain ⟨hx, hy⟩ := List.forall_mem_append.1 hnames
  exact h.resolve_right (not_or.2 ⟨not_of_resolved hx, not_of_resolved hy⟩)

end EndsAtName

/-! ### The elements that are met -/

namespace Xml.Node

mutual

/-- The elements that are met in a node, in document order: the name of each and, in a reference, the
identifier. The content of a reference is hidden. -/
def met : Node Name → List (Name × Option String)
  | .text _ => []
  | .comment _ => []
  | .instruction _ _ => []
  | .element name attributes content =>
    match ReferenceTag.ofName? name.localName with
    | some tag => [(name, tag.identifier? attributes)]
    | none => (name, none) :: metInContent content

def metInContent : List (Node Name) → List (Name × Option String)
  | [] => []
  | n :: ns => n.met ++ metInContent ns

end

theorem metInContent_singleton (n : Node Name) : metInContent [n] = n.met := by
  rw [metInContent, metInContent, List.append_nil]

/-- The names of the elements that are met. -/
def metNames (n : Node Name) : List Name :=
  n.met.map Prod.fst

/-- The first name that is met and has no local name. -/
def unresolved? (n : Node Name) : Option Name :=
  n.metNames.find? (!·.isResolved)

def unresolvedInContent? (ns : List (Node Name)) : Option Name :=
  ((metInContent ns).map Prod.fst).find? (!·.isResolved)

theorem unresolved?_eq_none_iff {n : Node Name} :
    n.unresolved? = none ↔ ∀ name ∈ n.metNames, name.isResolved := by
  simp [unresolved?]

theorem unresolvedInContent?_cons (n : Node Name) (ns : List (Node Name)) :
    unresolvedInContent? (n :: ns) = n.unresolved?.or (unresolvedInContent? ns) := by
  rw [unresolvedInContent?, metInContent, List.map_append, List.find?_append]
  rfl

theorem unresolved?_element {name : Name} (h : ReferenceTag.ofName? name.localName = none)
    (hname : name.isResolved) (attributes : List (Name × String)) (content : List (Node Name)) :
    (element name attributes content).unresolved? = unresolvedInContent? content := by
  rw [unresolved?, metNames, met, h]
  exact List.find?_cons_of_neg (by simpa using hname)

end Xml.Node

open Xml

namespace Accumulator

section
variable (shown : String → List Run)

mutual

/-- The accumulator after a node whose references are shown by `shown`. -/
def addNode (a : Accumulator) : Node Name → Accumulator
  | .text content => a.appendTextNode content
  | .comment _ => a
  | .instruction _ _ => a
  | .element name attributes content =>
    match ReferenceTag.ofName? name.localName with
    | some tag =>
      match tag.identifier? attributes with
      | none => a
      | some identifier => a.appendRuns (shown identifier)
    | none =>
      if name.localName = paragraphName then
        (addContent a.beginParagraph.1 content).endParagraph a.beginParagraph.2
      else addContent a content

/-- The accumulator after nodes that follow each other. -/
def addContent (a : Accumulator) : List (Node Name) → Accumulator
  | [] => a
  | n :: ns => addContent (addNode a n) ns

end

end

variable {shown : String → List Run} {a : Accumulator}

mutual

theorem run_events (n : Node Name) (p : Progress) :
    p.run (n.events.map (Event.map shown)) =
      { p with accumulator := p.accumulator.addNode shown n } := by
  cases n with
  | text content => rw [Node.events, addNode]; rfl
  | comment content => rw [Node.events, addNode]; rfl
  | instruction target data => rw [Node.events, addNode]; rfl
  | element name attributes content =>
    rw [Node.events, addNode]
    cases ReferenceTag.ofName? name.localName with
    | some tag =>
      dsimp only
      rw [ReferenceTag.events]
      cases tag.identifier? attributes <;> rfl
    | none =>
      dsimp only
      split
      · rw [List.cons_append, List.map_cons, List.map_append, Progress.run_cons, Progress.run_append,
          run_eventsOfContent]
        rfl
      · exact run_eventsOfContent content p

theorem run_eventsOfContent (ns : List (Node Name)) (p : Progress) :
    p.run ((Node.eventsOfContent ns).map (Event.map shown)) =
      { p with accumulator := p.accumulator.addContent shown ns } := by
  cases ns with
  | nil => rw [Node.eventsOfContent, addContent]; rfl
  | cons n ns =>
    rw [Node.eventsOfContent, addContent, List.map_append, Progress.run_append, run_events,
      run_eventsOfContent]

end

mutual

theorem prefix_addNode (a : Accumulator) : (n : Node Name) → a.runs <+: (a.addNode shown n).runs
  | .text content => by
    rw [addNode]
    exact a.prefix_appendTextNode content
  | .comment _ => List.prefix_rfl
  | .instruction _ _ => List.prefix_rfl
  | .element name attributes content => by
    rw [addNode]
    cases ReferenceTag.ofName? name.localName with
    | some tag =>
      dsimp only
      cases tag.identifier? attributes with
      | none => exact List.prefix_rfl
      | some identifier => exact prefix_appendRuns a _
    | none =>
      dsimp only
      split
      · rw [runs_endParagraph]
        exact runs_beginParagraph a ▸ prefix_addContent a.beginParagraph.1 content
      · exact prefix_addContent a content

theorem prefix_addContent (a : Accumulator) :
    (ns : List (Node Name)) → a.runs <+: (a.addContent shown ns).runs
  | [] => List.prefix_rfl
  | n :: ns => by
    rw [addContent]
    exact (prefix_addNode a n).trans (prefix_addContent _ ns)

end

/-! ### Two walks of one tree -/

section
variable {R : Accumulator → Accumulator → Prop}

/-- What holds of two accumulators holds of them after a node too, if text nodes and references keep
it, and so do the two edges of a paragraph. -/
structure Kept (shown : String → List Run) (R : Accumulator → Accumulator → Prop) : Prop where
  textNode : ∀ {a b}, R a b → ∀ raw, R (a.appendTextNode raw) (b.appendTextNode raw)
  reference : ∀ {a b}, R a b → ∀ identifier,
    R (a.appendRuns (shown identifier)) (b.appendRuns (shown identifier))
  beginParagraph : ∀ {a b}, R a b → R a.beginParagraph.1 b.beginParagraph.1
  endParagraph : ∀ {a b c d}, R a b → R c d → a.runs <+: c.runs →
    R (c.endParagraph a.beginParagraph.2) (d.endParagraph b.beginParagraph.2)

mutual

theorem Kept.addNode (hk : Kept shown R) {a b : Accumulator} (h : R a b) :
    (n : Node Name) → R (a.addNode shown n) (b.addNode shown n)
  | .text content => by
    rw [Accumulator.addNode, Accumulator.addNode]
    exact hk.textNode h content
  | .comment _ => by
    rw [Accumulator.addNode, Accumulator.addNode]
    exact h
  | .instruction _ _ => by
    rw [Accumulator.addNode, Accumulator.addNode]
    exact h
  | .element name attributes content => by
    rw [Accumulator.addNode, Accumulator.addNode]
    cases ReferenceTag.ofName? name.localName with
    | some tag =>
      dsimp only
      cases tag.identifier? attributes with
      | none => exact h
      | some identifier => exact hk.reference h identifier
    | none =>
      dsimp only
      split
      · have hpre : a.runs <+: (a.beginParagraph.1.addContent shown content).runs :=
          runs_beginParagraph a ▸ prefix_addContent a.beginParagraph.1 content
        exact hk.endParagraph h (Kept.addContent hk (hk.beginParagraph h) content) hpre
      · exact Kept.addContent hk h content

theorem Kept.addContent (hk : Kept shown R) {a b : Accumulator} (h : R a b) :
    (ns : List (Node Name)) → R (a.addContent shown ns) (b.addContent shown ns)
  | [] => by
    rw [Accumulator.addContent, Accumulator.addContent]
    exact h
  | n :: ns => by
    rw [Accumulator.addContent, Accumulator.addContent]
    exact Kept.addContent hk (Kept.addNode hk h n) ns

end

end

theorem kept_consistent (hshown : ∀ identifier, shown identifier ≠ []) :
    Kept shown fun a _ => a.Consistent where
  textNode h raw := h.appendTextNode raw
  reference _ identifier := .appendRuns (hshown identifier)
  beginParagraph h := h.markBoundary
  endParagraph h h' _ := h'.endParagraph fun _ hk => h.pos_of_beginParagraph hk

/-! ### Where a walk ends -/

section
variable (render : String → Except ε (List Run))

/-- The runs that are made of an identifier, or none where it cannot be shown. -/
def shownBy (identifier : String) : List Run :=
  (render identifier).toOption.getD []

/-- Whether an identifier can be shown. -/
def tryReference (identifier : String) : Except (WalkError ε) Unit :=
  ((render identifier).mapError .reference).map fun _ => ()

/-- Whether a walk goes on at an element that is met. -/
def tryMet : Name × Option String → Except (WalkError ε) Unit
  | (name, identifier) =>
    if name.isResolved then identifier.elim (.ok ()) (tryReference render)
    else .error (.unresolvedName name.tagPart)

theorem tryMet_of_resolved {name : Name} (h : name.isResolved) (identifier : Option String) :
    tryMet render (name, identifier) = identifier.elim (.ok ()) (tryReference render) :=
  if_pos h

theorem tryMet_of_unresolved {name : Name} (h : ¬ name.isResolved) (identifier : Option String) :
    tryMet render (name, identifier) = .error (.unresolvedName name.tagPart) :=
  if_neg h

theorem appendReference_eq_map (a : Accumulator) (tag : ReferenceTag)
    (attributes : List (Name × String)) :
    a.appendReference render tag attributes =
      ((tag.identifier? attributes).elim (.ok ()) (tryReference render)).map fun _ =>
        match tag.identifier? attributes with
        | none => a
        | some identifier => a.appendRuns (shownBy render identifier) := by
  rw [appendReference]
  cases tag.identifier? attributes with
  | none => rfl
  | some identifier =>
    dsimp only [Option.elim_some]
    rw [tryReference, shownBy]
    cases render identifier <;> rfl

mutual

/-- The elements that are met decide whether a walk ends early, and what it adds if not is as if it
never did. -/
theorem appendNode_eq_map (a : Accumulator) : (n : Node Name) →
    a.appendNode render n =
      (forM n.met (tryMet render)).map fun _ => a.addNode (shownBy render) n
  | .text _ => by rw [appendNode, addNode]; rfl
  | .comment _ => by rw [appendNode, addNode]; rfl
  | .instruction _ _ => by rw [appendNode, addNode]; rfl
  | .element name attributes content => by
    rw [appendNode, addNode, Node.met]
    by_cases hname : name.isResolved
    · rw [if_pos hname]
      cases ReferenceTag.ofName? name.localName with
      | some tag =>
        dsimp only
        rw [appendReference_eq_map, List.forM_cons, tryMet_of_resolved render hname]
        cases (tag.identifier? attributes).elim (.ok ()) (tryReference render) <;> rfl
      | none =>
        dsimp only
        rw [List.forM_cons, tryMet_of_resolved render hname, appendContent_eq_map,
          appendContent_eq_map]
        show _ = (forM (Node.metInContent content) (tryMet render)).map _
        cases forM (Node.metInContent content) (tryMet render) <;> split <;> rfl
    · rw [if_neg hname]
      cases ReferenceTag.ofName? name.localName <;>
        · dsimp only
          rw [List.forM_cons, tryMet_of_unresolved render hname]
          rfl

theorem appendContent_eq_map (a : Accumulator) : (ns : List (Node Name)) →
    a.appendContent render ns =
      (forM (Node.metInContent ns) (tryMet render)).map fun _ => a.addContent (shownBy render) ns
  | [] => by rw [appendContent, addContent]; rfl
  | n :: ns => by
    rw [appendContent, addContent, Node.metInContent, List.forM_append, appendNode_eq_map]
    cases forM n.met (tryMet render) with
    | error e => rfl
    | ok u => exact appendContent_eq_map _ ns

end

variable {render}

/-- Where all references can be shown, the first name that has no local name ends the walk. -/
theorem forM_tryMet_of_shows (h : ∀ identifier, render identifier = .ok (shown identifier))
    (es : List (Name × Option String)) :
    forM es (tryMet render) =
      match (es.map Prod.fst).find? (!·.isResolved) with
      | some name => .error (.unresolvedName name.tagPart)
      | none => .ok () := by
  induction es with
  | nil => rfl
  | cons e es ih =>
    obtain ⟨name, identifier⟩ := e
    rw [List.forM_cons, List.map_cons]
    by_cases hname : name.isResolved
    · have hmet : identifier.elim (.ok ()) (tryReference render) = .ok () := by
        cases identifier with
        | none => rfl
        | some identifier => rw [Option.elim_some, tryReference, h]; rfl
      rw [tryMet_of_resolved render hname, hmet, List.find?_cons_of_neg (by simpa using hname)]
      exact ih
    · rw [tryMet_of_unresolved render hname, List.find?_cons_of_pos (by simpa using hname)]
      rfl

/-- A walk that does not end early meets no name without a local name. -/
theorem isResolved_of_forM_tryMet {es : List (Name × Option String)}
    (h : forM es (tryMet render) = .ok ()) : ∀ name ∈ es.map Prod.fst, name.isResolved := by
  induction es with
  | nil => exact fun _ hmem => absurd hmem List.not_mem_nil
  | cons e es ih =>
    obtain ⟨name, identifier⟩ := e
    rw [List.forM_cons] at h
    by_cases hname : name.isResolved
    · cases hhere : tryMet render (name, identifier) with
      | error e => rw [hhere] at h; cases h
      | ok u =>
        rw [hhere] at h
        exact List.forall_mem_cons.2 ⟨hname, ih h⟩
    · rw [tryMet_of_unresolved render hname] at h
      cases h

/-! ### The outcome of a walk -/

/-- The first name without a local name ends a walk where all references can be shown. -/
theorem appendNode_eq (h : ∀ identifier, render identifier = .ok (shown identifier))
    (a : Accumulator) (n : Node Name) :
    a.appendNode render n =
      match n.unresolved? with
      | some name => .error (.unresolvedName name.tagPart)
      | none => .ok (a.addNode shown n) := by
  have hshown : shownBy render = shown := funext fun identifier => by rw [shownBy, h]; rfl
  rw [appendNode_eq_map, forM_tryMet_of_shows h, hshown]
  show Except.map _ (match n.unresolved? with
    | some name => _
    | none => _) = _
  cases n.unresolved? <;> rfl

theorem isResolved_of_appendNode {a b : Accumulator} {n : Node Name}
    (h : a.appendNode render n = .ok b) : ∀ name ∈ n.metNames, name.isResolved := by
  rw [appendNode_eq_map] at h
  obtain ⟨_, hmet, -⟩ := map_eq_ok_iff.1 h
  exact isResolved_of_forM_tryMet hmet

end

end Accumulator

namespace View.OfIds

variable {v : View}

/-- The runs of a tree, unless there is a name without a local name to end the walk. -/
theorem nodeRuns_eq (h : v.OfIds) (lineBreak : String) (n : Node Name) :
    Formatter.nodeRuns lineBreak v n =
      match n.unresolved? with
      | some name => .error (.unresolvedName name.tagPart)
      | none => .ok (Accumulator.addNode v.shown { lineBreak } n).runs := by
  rw [Formatter.nodeRuns, Accumulator.appendNode_eq h.referenceRuns_eq]
  cases n.unresolved? <;> rfl

end View.OfIds

theorem Formatter.isResolved_of_nodeRuns {lineBreak : String} {v : View} {n : Node Name}
    {rs : List Run} (h : nodeRuns lineBreak v n = .ok rs) :
    ∀ name ∈ n.metNames, name.isResolved := by
  obtain ⟨a, ha, -⟩ := map_eq_ok_iff.1 h
  exact Accumulator.isResolved_of_appendNode ha

end DocComment
