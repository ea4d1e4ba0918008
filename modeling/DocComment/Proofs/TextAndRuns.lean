import DocComment.Proofs.Layout
import DocComment.Proofs.ShortenedName

/-!
# The text and the runs of a comment

The text of a comment, and its runs at a position in the source, come from two views of the same
references. Both fail alike (`viewedRuns_eq_error_iff`). Otherwise the two lists of runs have the
same texts and separators, and they differ in the references that are shortened in one of them
(`formatToRuns_shortens`).
-/

namespace DocComment
open Xml

/-! ### Same content -/

/-- Whether a run can stand between references: it is text, or it keeps other runs apart. -/
def RunKind.isPlain (k : RunKind) : Bool :=
  k = .text || k.isWhitespace

/-- Two lists of runs that have the same references, which are given in order, each shown by `long`
in the first list and by `short` in the second, and the same runs between them. -/
inductive SameContent (long short : String → List Run) : List String → List Run → List Run → Prop where
  | nil : SameContent long short [] [] []
  | plain {r : Run} {ids : List String} {rs rs' : List Run} (h : r.kind.isPlain) :
      SameContent long short ids rs rs' → SameContent long short ids (r :: rs) (r :: rs')
  | reference (id : String) {ids : List String} {rs rs' : List Run} :
      SameContent long short ids rs rs' →
        SameContent long short (id :: ids) (long id ++ rs) (short id ++ rs')

namespace SameContent

variable {long short : String → List Run} {ids ids' : List String} {a a' b b' rs : List Run}

theorem append (h : SameContent long short ids a a') (h' : SameContent long short ids' b b') :
    SameContent long short (ids ++ ids') (a ++ b) (a' ++ b') := by
  induction h with
  | nil => exact h'
  | plain hr _ ih => exact .plain hr ih
  | reference id _ ih =>
    rw [List.cons_append, List.append_assoc, List.append_assoc]
    exact .reference id ih

theorem of_isPlain (h : ∀ r ∈ rs, r.kind.isPlain) : SameContent long short [] rs rs := by
  induction rs with
  | nil => exact .nil
  | cons r rs ih =>
    exact .plain (h r (List.mem_cons_self ..)) (ih fun r hr => h r (List.mem_cons_of_mem _ hr))

theorem eq_of_forall_eq (h : SameContent long short ids a a') (heq : ∀ id ∈ ids, long id = short id) :
    a = a' := by
  induction h with
  | nil => rfl
  | plain _ _ ih => rw [ih heq]
  | reference id _ ih =>
    rw [heq id (List.mem_cons_self ..), ih fun id hid => heq id (List.mem_cons_of_mem _ hid)]

end SameContent

/-! ### References of a tree -/

/-- What the event refers to, if it is a reference. -/
def Event.reference? {ρ : Type} : Event ρ → Option ρ
  | .reference target => some target
  | _ => none

/-- The identifiers of the references in a node, in document order. -/
def Xml.Node.references (n : Node Name) : List String :=
  n.events.filterMap Event.reference?

/-- The identifiers of the references in nodes that follow each other. -/
def Xml.Node.referencesOfContent (ns : List (Node Name)) : List String :=
  (eventsOfContent ns).filterMap Event.reference?

namespace Xml.Node

theorem mem_references_iff {n : Node Name} {identifier : String} :
    identifier ∈ n.references ↔ .reference identifier ∈ n.events := by
  rw [references, List.mem_filterMap]
  constructor
  · rintro ⟨e, he, hid⟩
    cases e with
    | reference target => exact Option.some.inj hid ▸ he
    | _ => cases hid
  · exact fun h => ⟨_, h, rfl⟩

theorem references_reference {name : Name} {tag : ReferenceTag} (attributes : List (Name × String))
    (content : List (Node Name)) (h : ReferenceTag.ofName? name.localName = some tag) :
    (element name attributes content).references = (tag.identifier? attributes).toList := by
  rw [references, events, h]
  dsimp only
  rw [ReferenceTag.events]
  cases tag.identifier? attributes <;> rfl

theorem references_element {name : Name} (attributes : List (Name × String))
    (content : List (Node Name)) (h : ReferenceTag.ofName? name.localName = none) :
    (element name attributes content).references = referencesOfContent content := by
  rw [references, events, h, referencesOfContent]
  dsimp only
  split
  · rw [List.cons_append, List.filterMap_cons, List.filterMap_append]
    exact List.append_nil _
  · rfl

theorem referencesOfContent_cons (n : Node Name) (ns : List (Node Name)) :
    referencesOfContent (n :: ns) = n.references ++ referencesOfContent ns := by
  rw [referencesOfContent, eventsOfContent, List.filterMap_append]
  rfl

end Xml.Node

/-! ### Layouts with the same content -/

namespace Seen

variable {lineBreak : String} {seen : Seen} {here : Finset Place} {marks : List Mark}

theorem isPlain_separator {r : Run} (h : r ∈ seen.separator lineBreak here) : r.kind.isPlain := by
  unfold separator at h
  split at h
  · cases h
  · split at h
    · simp only [List.mem_cons, List.not_mem_nil, or_false, or_self] at h
      rw [h]
      rfl
    · split at h
      · rw [List.mem_singleton.1 h]
        rfl
      · cases h

theorem isPlain_layout
    (h : ∀ q runs, Mark.item q runs ∈ marks → ∀ r ∈ runs, r.kind.isPlain) {r : Run}
    (hr : r ∈ seen.layout lineBreak marks) : r.kind.isPlain := by
  induction marks generalizing seen with
  | nil => cases hr
  | cons m marks ih =>
    have hmarks q runs (hmem : Mark.item q runs ∈ marks) : ∀ r ∈ runs, r.kind.isPlain :=
      h q runs (List.mem_cons_of_mem _ hmem)
    cases m with
    | blank => exact ih hmarks hr
    | item q runs =>
      rw [layout] at hr
      rcases List.mem_append.1 hr with hr | hr
      · rcases List.mem_append.1 hr with hr | hr
        · exact isPlain_separator hr
        · exact h q runs (List.mem_cons_self ..) r hr
      · exact ih hmarks hr

end Seen

theorem Mark.isPlain_of_mem_ofText {here q : Finset Place} {content : String} {runs : List Run}
    (h : item q runs ∈ ofText here content) {r : Run} (hr : r ∈ runs) : r.kind.isPlain := by
  obtain ⟨-, -, rfl⟩ := eq_of_mem_ofText h
  rw [List.mem_singleton.1 hr]
  rfl

/-- Two lists of marks that lay out the same content behind whatever has come before, and leave the
same behind. -/
structure SameMarks (lineBreak : String) (long short : String → List Run) (ids : List String)
    (ms ms' : List Mark) : Prop where
  layout (seen : Seen) :
    SameContent long short ids (seen.layout lineBreak ms) (seen.layout lineBreak ms')
  afterAll (seen : Seen) : seen.afterAll ms = seen.afterAll ms'

namespace SameMarks

variable {lineBreak : String} {long short : String → List Run} {ids ids' : List String}
  {ms ms' ns ns' : List Mark}

theorem of_isPlain (h : ∀ q runs, Mark.item q runs ∈ ms → ∀ r ∈ runs, r.kind.isPlain) :
    SameMarks lineBreak long short [] ms ms :=
  ⟨fun _ => .of_isPlain fun _ hr => Seen.isPlain_layout h hr, fun _ => rfl⟩

theorem nil : SameMarks lineBreak long short [] [] [] :=
  of_isPlain fun _ _ h => absurd h List.not_mem_nil

theorem reference (here : Finset Place) (id : String) :
    SameMarks lineBreak long short [id] [.item here (long id)] [.item here (short id)] := by
  refine ⟨fun seen => ?_, fun _ => rfl⟩
  have hseparator : SameContent long short [] (seen.separator lineBreak here)
      (seen.separator lineBreak here) := .of_isPlain fun _ hr => Seen.isPlain_separator hr
  simpa [Seen.layout] using hseparator.append (.reference id .nil)

theorem append (h : SameMarks lineBreak long short ids ms ms')
    (h' : SameMarks lineBreak long short ids' ns ns') :
    SameMarks lineBreak long short (ids ++ ids') (ms ++ ns) (ms' ++ ns') := by
  constructor
  · intro seen
    rw [Seen.layout_append, Seen.layout_append, ← h.afterAll]
    exact (h.layout seen).append (h'.layout _)
  · intro seen
    rw [Seen.afterAll_append, Seen.afterAll_append, h.afterAll, h'.afterAll]

end SameMarks

namespace Xml.Node

variable (lineBreak : String) (long short : String → List Run)

mutual

/-- However its references are shown, a node has the same content. -/
theorem sameMarks_marks (place : Place) (here : Finset Place) : (n : Node Name) →
    SameMarks lineBreak long short n.references (n.marks long place here) (n.marks short place here)
  | .text content => by
    rw [marks, marks]
    exact .of_isPlain fun _ _ h _ hr => Mark.isPlain_of_mem_ofText h hr
  | .comment _ => by
    rw [marks, marks]
    exact .nil
  | .instruction _ _ => by
    rw [marks, marks]
    exact .nil
  | .element name attributes content => by
    rw [marks, marks]
    cases htag : ReferenceTag.ofName? name.localName with
    | some tag =>
      rw [references_reference attributes content htag]
      dsimp only
      cases tag.identifier? attributes with
      | none => exact .nil
      | some identifier => exact .reference here identifier
    | none =>
      rw [references_element attributes content htag]
      dsimp only
      split
      · exact sameMarks_marksOfContent place (insert place here) 0 content
      · exact sameMarks_marksOfContent place here 0 content

theorem sameMarks_marksOfContent (place : Place) (here : Finset Place) (k : Nat) :
    (ns : List (Node Name)) →
    SameMarks lineBreak long short (referencesOfContent ns) (marksOfContent long place here k ns)
      (marksOfContent short place here k ns)
  | [] => by
    rw [marksOfContent, marksOfContent]
    exact .nil
  | n :: ns => by
    rw [marksOfContent, marksOfContent, referencesOfContent_cons]
    exact .append (sameMarks_marks (k :: place) here n) (sameMarks_marksOfContent place here (k + 1) ns)

end

end Xml.Node

/-! ### Formatters -/

theorem View.OfIds.nodeRuns_eq_layout {v : View} (hv : v.OfIds) (lineBreak : String) {n : Node Name}
    (hnames : ∀ name ∈ n.metNames, name.isResolved) :
    Formatter.nodeRuns lineBreak v n = .ok (Seen.layout lineBreak {} (n.marks v.shown [] ∅)) := by
  rw [hv.nodeRuns_eq, Node.unresolved?_eq_none_iff.2 hnames,
    Accumulator.runs_addNode_eq_layout hv.shown_ne_nil]

theorem View.OfIds.sameContent {v w : View} (hv : v.OfIds) (hw : w.OfIds) (lineBreak : String)
    {n : Node Name} (hnames : ∀ name ∈ n.metNames, name.isResolved) :
    ∃ long short, Formatter.nodeRuns lineBreak v n = .ok long ∧
      Formatter.nodeRuns lineBreak w n = .ok short ∧
      SameContent v.shown w.shown n.references long short :=
  ⟨_, _, hv.nodeRuns_eq_layout lineBreak hnames, hw.nodeRuns_eq_layout lineBreak hnames,
    (Node.sameMarks_marks lineBreak v.shown w.shown [] ∅ n).layout {}⟩

namespace Formatter

variable {f : Formatter} {v w : View} {raw : String} {e : FormatError}

theorem viewedRuns_eq_ok_iff {rs : List Run} :
    f.viewedRuns v raw = .ok rs ↔
      ∃ root, Fragment.parse? raw = some root ∧ (∀ name ∈ root.metNames, name.isResolved) ∧
        nodeRuns f.lineBreak v root = .ok rs := by
  rw [viewedRuns]
  cases Fragment.parse? raw with
  | none => simp
  | some root =>
    have hruns : (nodeRuns f.lineBreak v root).mapError FormatError.ofWalk = .ok rs ↔
        nodeRuns f.lineBreak v root = .ok rs := by
      cases nodeRuns f.lineBreak v root <;> simp [Except.mapError]
    rw [hruns]
    constructor
    · exact fun hrs => ⟨root, rfl, isResolved_of_nodeRuns hrs, hrs⟩
    · rintro ⟨root', hroot', -, hrs⟩
      obtain rfl := Option.some.inj hroot'
      exact hrs

/-- Where every reference can be shown, a comment fails only if it is malformed or if an element in
it has no local name. -/
theorem viewedRuns_eq_error_iff (hv : v.OfIds) :
    f.viewedRuns v raw = .error e ↔
      Fragment.parse? raw = none ∧ e = .malformed ∨
        ∃ root name, Fragment.parse? raw = some root ∧
          root.unresolved? = some name ∧ e = .unresolvedName name.tagPart := by
  rw [viewedRuns]
  cases Fragment.parse? raw with
  | none => simp [eq_comm]
  | some root =>
    dsimp only
    rw [hv.nodeRuns_eq]
    cases hname : root.unresolved? with
    | some name => simp [hname, Except.mapError, FormatError.ofWalk, eq_comm]
    | none => simp [hname, Except.mapError]

theorem viewedRuns_ne_error (hv : v.OfIds) {root : Node Name} (hroot : Fragment.parse? raw = some root)
    (hnames : ∀ name ∈ root.metNames, name.isResolved) : f.viewedRuns v raw ≠ .error e := by
  intro he
  have hok := viewedRuns_eq_ok_iff.2
    ⟨root, hroot, hnames, hv.nodeRuns_eq_layout f.lineBreak hnames⟩
  cases hok.symm.trans he

theorem exists_sameContent (hv : v.OfIds) (hw : w.OfIds) {long : List Run}
    (hlong : f.viewedRuns v raw = .ok long) :
    ∃ root short, Fragment.parse? raw = some root ∧ f.viewedRuns w raw = .ok short ∧
      SameContent v.shown w.shown root.references long short := by
  obtain ⟨root, hroot, hnames, hrs⟩ := viewedRuns_eq_ok_iff.1 hlong
  obtain ⟨long', short, hlong', hshort, hsame⟩ := hv.sameContent hw f.lineBreak hnames
  obtain rfl := Except.ok.inj (hrs.symm.trans hlong')
  exact ⟨root, short, hroot, viewedRuns_eq_ok_iff.2 ⟨root, hroot, hnames, hshort⟩, hsame⟩

theorem formatToString_eq_error_iff {table : Option SymbolTable} :
    f.formatToString raw table = .error e ↔ f.viewedRuns (f.view table) raw = .error e := by
  rw [formatToString]
  cases f.viewedRuns (f.view table) raw <;> simp [Except.map]

/-- Runs at a position differ from those that the text is made of in the namespaces of references,
which are left out of full names where they are imported. If there are none to leave out, the text
of these runs is the text. -/
theorem formatToRuns_shortens (f : Formatter) (raw : String) {ids : List String}
    {table : SymbolTable} (h : SymbolTable.ofIds ids = .ok table) (scopes : List ImportScope)
    (position : Option Int) :
    let model := SemanticModel.ofScopes table scopes
    let imported := model.importsAt position
    let text := f.formatToString raw (some table)
    let runs := f.formatToRuns raw (some model) position none
    let v := f.view (some table)
    let w : View := { v with imported }
    (∀ e, text = .error e ↔ runs = .error e) ∧
      (∀ root, Fragment.parse? raw = some root → (∀ name ∈ root.metNames, name.isResolved) →
        ∀ e, text ≠ .error e) ∧
      ((∃ e, text = .error e) ∨ ∃ root long short, Fragment.parse? raw = some root ∧
        f.viewedRuns v raw = .ok long ∧ text = .ok (Run.textOf long) ∧ runs = .ok short ∧
        SameContent v.shown w.shown root.references long short) ∧
      (∀ identifier, v.shown identifier = w.shown identifier ∨
        ∃ s, v.lookup identifier = some s ∧
          Shortened f.format imported s.nameSpace (v.shown identifier) (w.shown identifier)) ∧
      ((f.format.qualification ≠ .full ∨ ∀ root, Fragment.parse? raw = some root →
        ∀ identifier ∈ root.references, ∀ s, v.lookup identifier = some s →
          dotted s.nameSpace ∉ imported) → runs.map Run.textOf = text) := by
  intro model imported text runs v w
  have hv : v.OfIds := fun t ht => ⟨ids, Option.some.inj ht ▸ h⟩
  -- the views differ in what is imported, and both fail where the comment does
  have hw : w.OfIds := hv
  have hruns : runs = f.viewedRuns w raw := rfl
  have htext : text = (f.viewedRuns v raw).map Run.textOf := rfl
  have herror (e : FormatError) : text = .error e ↔ runs = .error e := by
    rw [hruns, viewedRuns_eq_error_iff hw, ← viewedRuns_eq_error_iff hv]
    exact formatToString_eq_error_iff
  have hshown := View.shown_imported hv rfl imported
  have hresult : (∃ e, text = .error e) ∨ ∃ root long short, Fragment.parse? raw = some root ∧
      f.viewedRuns v raw = .ok long ∧ text = .ok (Run.textOf long) ∧ runs = .ok short ∧
      SameContent v.shown w.shown root.references long short := by
    cases hlong : f.viewedRuns v raw with
    | error e => exact .inl ⟨e, formatToString_eq_error_iff.2 hlong⟩
    | ok long =>
      obtain ⟨root, short, hroot, hshort, hsame⟩ := exists_sameContent hv hw hlong
      exact .inr ⟨root, long, short, hroot, rfl, by rw [htext, hlong]; rfl, hshort, hsame⟩
  refine ⟨herror, fun root hroot hnames e he => ?_, hresult, hshown, fun hkept => ?_⟩
  · exact viewedRuns_ne_error hv hroot hnames (formatToString_eq_error_iff.1 he)
  · rcases hresult with ⟨e, he⟩ | ⟨root, long, short, hroot, -, hlong, hshort, hsame⟩
    · rw [he, (herror e).1 he]
      rfl
    · have heq : long = short := by
        refine hsame.eq_of_forall_eq fun identifier hmem => ?_
        rcases hshown identifier with heq | ⟨s, hlookup, hshortened⟩
        · exact heq
        · exact hshortened.eq_of_not_mem
            (hkept.imp_right fun hnot _ => hnot root hroot identifier hmem s hlookup)
      rw [hlong, hshort, heq]
      rfl

theorem formatToRuns_shortens_builder :
    let ids := ["T:System.Text.Builder"]
    let f : Formatter := { format := { qualification := .full } }
    let raw := "Uses <see cref=\"T:System.Text.Builder\"/>,<para><see cref=\"T:Gone.A\"/></para>"
    let scopes := [ImportScope.mk 3 ["System.Text"]]
    ∃ table short, SymbolTable.ofIds ids = .ok table ∧
      f.formatToString raw (some table) = .ok "Uses System.Text.Builder,\r\n\r\nGone.A" ∧
      f.formatToRuns raw (some (.ofScopes table scopes)) (some 5) none = .ok short ∧
      Run.textOf short = "Uses Builder,\r\n\r\nGone.A" ∧
      (f.formatToRuns raw (some (.ofScopes table scopes)) (some 2) none).map Run.textOf =
        .ok "Uses System.Text.Builder,\r\n\r\nGone.A" := by
  intro ids f raw scopes
  obtain ⟨table, h⟩ : ∃ table, SymbolTable.ofIds ids = .ok table := ⟨_, rfl⟩
  have hread : (SymbolTable.ofIds ids).toOption.map (fun t =>
      ((f.formatToString raw (some t)).toOption,
        (f.formatToRuns raw (some (.ofScopes t scopes)) (some 5) none).toOption.map Run.textOf)) =
      some (some "Uses System.Text.Builder,\r\n\r\nGone.A", some "Uses Builder,\r\n\r\nGone.A") := by
    decide +kernel
  rw [h] at hread
  obtain ⟨htext, hshort⟩ := Prod.mk.inj (Option.some.inj hread)
  have ok_of_toOption {α : Type} {x : Except FormatError α} {a : α} (hx : x.toOption = some a) :
      x = .ok a := by
    cases x with
    | error e => cases hx
    | ok b => exact congrArg Except.ok (Option.some.inj hx)
  obtain ⟨short, hruns, htextOf⟩ := Option.map_eq_some_iff.1 hshort
  obtain ⟨-, -, -, -, hsame⟩ := formatToRuns_shortens f raw h scopes (some 2)
  have hnone : (SemanticModel.ofScopes table scopes).importsAt (some 2) = [] := by
    simp [SemanticModel.ofScopes, SemanticModel.importsAt, scopes]
  refine ⟨table, short, h, ok_of_toOption htext, ok_of_toOption hruns, htextOf, ?_⟩
  rw [hsame (.inr fun _ _ _ _ _ _ => hnone ▸ List.not_mem_nil)]
  exact ok_of_toOption htext

end Formatter

end DocComment
