import DocComment.Proofs.DeclaredSymbol
import DocComment.Proofs.Qualification

/-!
# References to constructors

While a comment is read, its references are shown one after the other in one view. A constructor is
always shown as a call, whatever the view says of members, and the view stays what it is: other
references are shown as the view says, also behind a constructor (`appendSymbol_constructor`).
-/

namespace DocComment

/-! ### Constructors -/

theorem typeRuns_congr {format format' : DisplayFormat}
    (h : format.qualification = format'.qualification) : typeRuns format = typeRuns format' := by
  unfold typeRuns
  rw [h]

namespace Symbol

variable {s : Symbol}

/-- A constructor has a list of parameters, also if there are no parentheses in its ID. -/
theorem exists_parameters_of_ofId {id : String} {typeNames : List String}
    (h : ofId id typeNames = .ok s) (hs : s.kind = .ctor) : ∃ types, s.parameters = some types := by
  unfold ofId at h
  split at h
  · cases h
  · next written hwritten =>
    dsimp only at h
    split at h
    · cases h
      cases hs
    · split at h
      · split at h
        · cases h
        · cases h
          exact ⟨_, rfl⟩
      · cases h
        exact absurd hs (WrittenId.kind_ne_ctor hwritten)

theorem parameterRuns_eq (types : List String) :
    parameterRuns types =
      [Run.punctuation ",", Run.space].intercalate (types.map TypeName.runs) := by
  match types with
  | [] => rfl
  | [type] => exact (List.intercalate_singleton ..).symm
  | type :: next :: rest =>
    have ih := parameterRuns_eq (next :: rest)
    simp only [List.map_cons] at ih ⊢
    rw [List.intercalate_cons_cons, ← ih, List.append_assoc]
    rfl

theorem runs_constructor (hs : s.kind = .ctor) {parameters : List String}
    (hparameters : s.parameters = some parameters) {format : DisplayFormat}
    {imported : List String} {types : List Run}
    (htypes : typeRuns format imported s.nameSpace s.containingTypes = .ok types) :
    s.runs (format.withMembers MemberOptions.ofConstructor) imported =
      .ok (types ++ (Run.punctuation "(" :: parameterRuns parameters ++ [Run.punctuation ")"])) := by
  have hlist : s.parameterListRuns =
      Run.punctuation "(" :: parameterRuns parameters ++ [Run.punctuation ")"] := by
    rw [parameterListRuns, hparameters, hs]
    rfl
  rw [runs, hs]
  dsimp only
  rw [typeRuns_congr (format.qualification_withMembers _), htypes, hlist]
  rfl

end Symbol

/-! ### Comments under way -/

theorem View.symbolRuns_of_runs {v : View} (hrenders : v.renders = true) {s : Symbol}
    {rs : List Run} (h : s.runs (v.formatFor s) v.imported = .ok rs) :
    v.symbolRuns (some s) = .ok (some rs) := by
  show (if v.renders = true then _ else _) = _
  rw [if_pos hrenders, h]
  rfl

/-- A comment under way: what has come out of it, and the view that its references are shown in. -/
structure Session extends Progress where
  view : View

namespace Session

/-- Adds runs, after the white space that waits for content. -/
def append (s : Session) (rs : List Run) : Session :=
  { s with accumulator := s.accumulator.appendRuns rs }

/-- Adds the runs that show a symbol, and says whether there was a symbol to show. -/
def appendSymbol (s : Session) (symbol : Option Symbol) : Except DisplayError (Session × Bool) :=
  (s.view.symbolRuns symbol).map fun
    | none => (s, false)
    | some rs => (s.append rs, true)

/-- Meets an event of the comment, whose reference is shown in the view. -/
def meet (s : Session) (e : Event String) : Except DisplayError Session :=
  (s.view.showEvent e).map fun e => { s with toProgress := s.toProgress.step e }

def run (s : Session) (events : List (Event String)) : Except DisplayError Session :=
  events.foldlM meet s

/-- To show the references when they are met is to show them all at first: what is met on the way
does not change the view. -/
theorem run_eq (s : Session) (events : List (Event String)) :
    s.run events =
      (events.mapM s.view.showEvent).map fun es => { s with toProgress := s.toProgress.run es } := by
  induction events generalizing s with
  | nil => rfl
  | cons e events ih =>
    rw [run, List.foldlM_cons, List.mapM_cons, meet]
    cases he : s.view.showEvent e with
    | error error => rfl
    | ok e' =>
      show Session.run _ events = _
      rw [ih]
      cases events.mapM s.view.showEvent <;> rfl

/-- What the events of a tree add is what the walk over the tree adds, if no name ends it. -/
theorem run_events {s : Session} (h : s.view.OfIds) (node : Xml.Node Xml.Name) :
    s.run node.events =
      .ok { s with accumulator := s.accumulator.addNode s.view.shown node } := by
  have hevents : node.events.mapM s.view.showEvent =
      .ok (node.events.map (Event.map s.view.shown)) :=
    mapM_eq_ok_map (Event.rendered_eq h.referenceRuns_eq) _
  rw [run_eq, hevents]
  exact congrArg (fun p : Progress => Except.ok { s with toProgress := p })
    (Accumulator.run_events node s.toProgress)

variable {s : Session} {symbol : Symbol} {rs : List Run}

theorem appendSymbol_of_runs (hrenders : s.view.renders = true)
    (h : symbol.runs (s.view.formatFor symbol) s.view.imported = .ok rs) :
    s.appendSymbol (some symbol) = .ok (s.append rs, true) := by
  rw [appendSymbol, View.symbolRuns_of_runs hrenders h]
  rfl

theorem meet_reference (hrenders : s.view.renders = true) {identifier : String}
    (hlookup : s.view.lookup identifier = some symbol)
    (h : symbol.runs (s.view.formatFor symbol) s.view.imported = .ok rs) :
    s.meet (.reference identifier) = .ok (s.append rs) := by
  rw [meet, View.showEvent, Event.rendered, View.referenceRuns, hlookup,
    View.symbolRuns_of_runs hrenders h]
  rfl

end Session

/-- The view of a table with a format, at a position that a semantic model describes. -/
def SymbolTable.viewAt (table : SymbolTable) (format : DisplayFormat) (model : Option SemanticModel)
    (position : Option Int) : View where
  table
  format
  imported := importedAt model position

/-- A constructor is shown as a call under all formats with one qualification: its type, and the
types of its parameters in parentheses. The view that shows it is not changed, so behind it and
whatever else is met, any symbol that is no constructor is shown with the options for members that
the format has. -/
theorem appendSymbol_constructor {ids : List String} {table : SymbolTable}
    (h : SymbolTable.ofIds ids = .ok table) {c : Symbol} (hc : c ∈ table.symbols)
    (hctor : c.isConstructor = true) {format format' : DisplayFormat}
    (hq : format.qualification = format'.qualification) (model : Option SemanticModel)
    (position : Option Int) (p : Progress) :
    let imported := importedAt model position
    let s : Session := { p with view := table.viewAt format model position }
    let s' : Session := { p with view := table.viewAt format' model position }
    ∃ types parameters rs, typeRuns format imported c.nameSpace c.containingTypes = .ok types ∧
      c.parameters = some parameters ∧
      rs = types ++ (Run.punctuation "(" ::
        [Run.punctuation ",", Run.space].intercalate (parameters.map TypeName.runs) ++
        [Run.punctuation ")"]) ∧
      s.appendSymbol (some c) = .ok (s.append rs, true) ∧
      s'.appendSymbol (some c) = .ok (s'.append rs, true) ∧
      ∀ node : Xml.Node Xml.Name, ∃ t, (s.append rs).run node.events = .ok t ∧ t.view = s.view ∧
        (s.append rs).accumulator.appendNode s.view.referenceRuns node =
          (match node.unresolved? with
            | some name => .error (.unresolvedName name.tagPart)
            | none => .ok t.accumulator) ∧
        ∀ identifier d, Reference.lookup table identifier = some d → d.isConstructor = false →
          ∃ rs', d.runs format imported = .ok rs' ∧
            t.meet (.reference identifier) = .ok (t.append rs') := by
  intro imported s s'
  obtain ⟨id, typeNames, hid⟩ := SymbolTable.exists_ofId_of_mem h hc
  have hkind : c.kind = .ctor := of_decide_eq_true hctor
  obtain ⟨parameters, hparameters⟩ := Symbol.exists_parameters_of_ofId hid hkind
  obtain ⟨types, htypes, -⟩ := exists_typeRuns format imported c.nameSpace
    (Symbol.containingTypes_ne_nil_of_ofId hid hkind)
  have htypes' : typeRuns format' imported c.nameSpace c.containingTypes = .ok types := by
    rw [← typeRuns_congr hq, htypes]
  have hformat (v : View) : v.formatFor c = v.format.withMembers MemberOptions.ofConstructor :=
    if_pos hctor
  refine ⟨types, parameters, _, htypes, hparameters, by rw [← Symbol.parameterRuns_eq],
    Session.appendSymbol_of_runs rfl ?_, Session.appendSymbol_of_runs rfl ?_, fun node => ?_⟩
  · rw [hformat]
    exact Symbol.runs_constructor hkind hparameters htypes
  · rw [hformat]
    exact Symbol.runs_constructor hkind hparameters htypes'
  · have hview : s.view.OfIds := by
      rintro table' ⟨⟩
      exact ⟨ids, h⟩
    refine ⟨_, Session.run_events (s := s.append _) hview node, rfl,
      Accumulator.appendNode_eq hview.referenceRuns_eq _ node, fun identifier d hlookup hd => ?_⟩
    obtain ⟨id', typeNames', hid'⟩ := hview.exists_ofId hlookup
    obtain ⟨rs', hrs', -⟩ := Symbol.exists_runs format imported
      (Symbol.containingTypes_ne_nil_of_ofId hid')
    refine ⟨rs', hrs', Session.meet_reference rfl hlookup ?_⟩
    have hformat' : s.view.formatFor d = format := if_neg (by simp [hd])
    show d.runs (s.view.formatFor d) imported = .ok rs'
    rw [hformat', hrs']

theorem appendSymbol_constructor_generic :
    let ids := ["T:A.C\x601", "M:A.C\x601.#ctor(System.Int32,\x600@)", "M:A.C\x601.m(System.Int32)"]
    let format : DisplayFormat := {}
    let format' : DisplayFormat := { members := ⟨true, true, true⟩ }
    let p : Progress := { accumulator := { runs := [.plain "see"], pendingSpace := true } }
    ∃ table c rs rs' t, SymbolTable.ofIds ids = .ok table ∧ c ∈ table.symbols ∧
      c.isConstructor = true ∧ format.qualification = format'.qualification ∧
      Run.textOf rs = "C(int, ref T0)" ∧
      let s : Session := { p with view := table.viewAt format none none }
      let s' : Session := { p with view := table.viewAt format' none none }
      s.appendSymbol (some c) = .ok (s.append rs, true) ∧
      s'.appendSymbol (some c) = .ok (s'.append rs, true) ∧
      (s.append rs).run [.text " or "] = .ok t ∧
      t.meet (.reference "M:A.C\x601.m(System.Int32)") = .ok (t.append rs') ∧
      Run.textOf rs' = "C.m" := by
  intro ids format format' p
  have hread : (SymbolTable.ofIds ids).toOption.map (fun table =>
      ((table.symbols[1]?).map fun c => (c.isConstructor,
          (c.runs (format.withMembers .ofConstructor) []).toOption.map Run.textOf),
        (Reference.lookup table "M:A.C\x601.m(System.Int32)").map fun d => (d.isConstructor,
          (d.runs format []).toOption.map Run.textOf))) =
      some (some (true, some "C(int, ref T0)"), some (false, some "C.m")) := by
    decide +kernel
  obtain ⟨table, htable, hread⟩ := Option.map_eq_some_iff.1 hread
  obtain ⟨hc, hd⟩ := Prod.mk.inj hread
  obtain ⟨c, hc, hshown⟩ := Option.map_eq_some_iff.1 hc
  obtain ⟨d, hd, hfollowing⟩ := Option.map_eq_some_iff.1 hd
  obtain ⟨hctor, hshown⟩ := Prod.mk.inj hshown
  obtain ⟨hplain, hfollowing⟩ := Prod.mk.inj hfollowing
  have htable := eq_ok_of_toOption htable
  obtain ⟨types, parameters, rs, htypes, hparameters, hrs, happend, happend', hnode⟩ :=
    appendSymbol_constructor htable (List.mem_of_getElem? hc) hctor
      (show format.qualification = format'.qualification from rfl) none none p
  obtain ⟨t, hrun, -, -, hmeet⟩ := hnode (.text " or ")
  obtain ⟨rs', hrs', hmeet⟩ := hmeet _ d hd hplain
  have hruns := Symbol.runs_constructor (of_decide_eq_true hctor) hparameters htypes
  rw [Symbol.parameterRuns_eq, ← hrs] at hruns
  have htext : Run.textOf rs = "C(int, ref T0)" := by
    rw [show c.runs (format.withMembers .ofConstructor) [] = .ok rs from hruns] at hshown
    exact Option.some.inj hshown
  have htext' : Run.textOf rs' = "C.m" := by
    rw [show d.runs format [] = .ok rs' from hrs'] at hfollowing
    exact Option.some.inj hfollowing
  exact ⟨table, c, rs, rs', t, htable, List.mem_of_getElem? hc, hctor, rfl, htext, happend, happend',
    hrun, hmeet, htext'⟩

end DocComment
