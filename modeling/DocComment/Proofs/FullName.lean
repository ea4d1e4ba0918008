import DocComment.Proofs.Edited
import DocComment.Proofs.IdGrammar
import DocComment.Proofs.Trimmed
import DocComment.Proofs.Walk
import DocComment.Proofs.WrittenArity

/-!
# Full names

A symbol that is shown by its full name is shown as what its ID says behind the colon, wherever the
known types cut its container (`exists_runs_of_ofId`).
-/

namespace DocComment

/-- The ID of a symbol that is nothing but a name: without parameters, arities or interfaces. -/
structure IsBareId (id : String) : Prop where
  valid : ∃ s, Symbol.ofId id [] = .ok s
  bare : ∀ c ∈ id.toList, c ≠ '#' ∧ c ≠ Arity.mark ∧ c ≠ '(' ∧ c ≠ '~'

/-- The format that shows full names, and members with the type that they are in. -/
def DisplayFormat.fullName : DisplayFormat where
  qualification := .full

/-! ### Runs of dotted names -/

theorem dotted_singleton (name : String) : dotted [name] = name :=
  String.intercalate_singleton

theorem dotted_cons (name : String) {names : List String} (h : names ≠ []) :
    dotted (name :: names) = name ++ "." ++ dotted names :=
  String.intercalate_cons_of_ne_nil h

theorem dotted_append {a b : List String} (ha : a ≠ []) (hb : b ≠ []) :
    dotted (a ++ b) = dotted a ++ "." ++ dotted b := by
  induction a with
  | nil => exact absurd rfl ha
  | cons name names ih =>
    cases names with
    | nil => rw [List.singleton_append, dotted_cons name hb, dotted_singleton]
    | cons next names =>
      have hne : next :: names ++ b ≠ [] := by simp
      rw [List.cons_append, dotted_cons name hne, ih (List.cons_ne_nil _ _),
        dotted_cons name (List.cons_ne_nil _ _)]
      simp only [String.append_assoc]

theorem textOf_dottedRuns (kind : RunKind) (names : List String) :
    Run.textOf (dottedRuns kind names) = dotted names := by
  match names with
  | [] => rfl
  | [name] => rw [dottedRuns, Run.textOf_singleton, dotted_singleton]
  | name :: next :: rest =>
    have ih := textOf_dottedRuns kind (next :: rest)
    rw [dotted_cons name (List.cons_ne_nil _ _), ← ih, String.append_assoc, dottedRuns, Run.textOf_cons,
      Run.textOf_cons]
    · rfl
    · exact List.cons_ne_nil _ _

/-- A type is shown by the segments of its full name where nothing is imported. -/
theorem exists_typeRuns_full (nameSpace : List String) {types : List String} (h : types ≠ []) :
    ∃ rs, typeRuns .fullName [] nameSpace types = .ok rs ∧
      Run.textOf rs = dotted (nameSpace ++ types) := by
  unfold typeRuns DisplayFormat.fullName
  dsimp only
  split
  · next hnil =>
    have hnil : nameSpace = [] := by simpa using hnil
    refine ⟨_, rfl, ?_⟩
    rw [textOf_dottedRuns, hnil, List.nil_append]
  · next hnamespace =>
    have hne : nameSpace ≠ [] := fun hnil => hnamespace (.inl hnil)
    refine ⟨_, rfl, ?_⟩
    rw [Run.textOf_append, Run.textOf_cons, textOf_dottedRuns, textOf_dottedRuns, dotted_append hne h,
      String.append_assoc]
    rfl

namespace Symbol

/-- The segments of the full name of a symbol. -/
def fullName (s : Symbol) : List String :=
  s.nameSpace ++ s.containingTypes ++ [s.name]

theorem exists_memberRuns_full {s : Symbol} (h : s.containingTypes = [] → s.nameSpace = []) :
    ∃ rs, s.memberRuns .fullName [] = .ok rs ∧ Run.textOf rs = dotted s.fullName := by
  have hname : Run.textOf [⟨.memberName, s.name⟩] = dotted [s.name] :=
    textOf_dottedRuns .memberName [s.name]
  unfold memberRuns fullName
  by_cases htypes : s.containingTypes = []
  · rw [if_neg fun hc => hc.2 htypes, htypes, h htypes]
    exact ⟨_, rfl, hname⟩
  · obtain ⟨rs, hrs, htext⟩ := exists_typeRuns_full s.nameSpace htypes
    have hne : s.nameSpace ++ s.containingTypes ≠ [] := by simp [htypes]
    rw [if_pos ⟨rfl, htypes⟩, hrs]
    refine ⟨rs ++ [Run.dot] ++ [] ++ [⟨.memberName, s.name⟩], rfl, ?_⟩
    rw [List.append_nil, Run.textOf_append, Run.textOf_append, htext, hname,
      dotted_append hne (List.cons_ne_nil _ _)]
    rfl

/-- A symbol is shown by the segments of its full name, unless it is a constructor. -/
theorem exists_runs_full {s : Symbol} (hctor : s.kind ≠ .ctor)
    (hnamespace : s.kind = .nameSpace → s.containingTypes = [])
    (hmember : s.kind ≠ .nameSpace → s.kind ≠ .type → s.containingTypes = [] → s.nameSpace = []) :
    ∃ rs, s.runs .fullName [] = .ok rs ∧ Run.textOf rs = dotted s.fullName := by
  have hother (hns : s.kind ≠ .nameSpace) (htype : s.kind ≠ .type) :
      ∃ rs, (s.memberRuns .fullName []).map (· ++ []) = .ok rs ∧
        Run.textOf rs = dotted s.fullName := by
    obtain ⟨rs, hrs, htext⟩ := exists_memberRuns_full (hmember hns htype)
    exact ⟨rs, by rw [hrs]; exact congrArg Except.ok (List.append_nil rs), htext⟩
  cases hkind : s.kind with
  | nameSpace =>
    refine ⟨dottedRuns .namespaceName (s.nameSpace ++ [s.name]), by rw [runs, hkind]; rfl, ?_⟩
    rw [textOf_dottedRuns, fullName, hnamespace hkind, List.append_nil]
  | type =>
    have hne : s.containingTypes ++ [s.name] ≠ [] := by simp
    obtain ⟨rs, hrs, htext⟩ := exists_typeRuns_full s.nameSpace hne
    refine ⟨rs, by rw [runs, hkind]; exact hrs, ?_⟩
    rw [htext, fullName, List.append_assoc]
  | ctor => exact absurd hkind hctor
  | method | property | field | event =>
    rw [hkind] at hother
    rw [runs, hkind]
    exact hother (by decide) (by decide)

end Symbol

/-! ### Symbols of bare IDs -/

namespace WrittenId

variable {id : String} {w : WrittenId}

theorem withoutMarker_of_bare (hbare : ∀ c ∈ id.toList, c ≠ '(' ∧ c ≠ '~')
    (h : ofText? id.toList = some w) :
    Reference.withoutMarker id = dotted (w.container ++ [w.name]) := by
  obtain ⟨tail, ⟨⟨letter, hletter, heq⟩, -, -, htail⟩, -⟩ := hasForm_of_ofText? h
  have hmem : ∀ c ∈ tail, c ∈ id.toList := by
    intro c hc
    rw [heq]
    simp [hc]
  have hnil : tail = [] := by
    rcases htail with ⟨_ | _⟩ | _
    · rfl
    · exact absurd rfl (hbare '~' (hmem '~' (List.mem_cons_self ..))).2
    · exact absurd rfl (hbare '(' (hmem '(' (List.mem_cons_self ..))).1
  have hletters : ∀ l ∈ letters, l.1 ≠ '\n' := by decide
  have hline : letter ≠ '\n' := hletters _ hletter
  rw [Reference.withoutMarker_of_toList heq, if_neg hline, hnil, List.append_nil,
    String.ofList_toList]

theorem mem_of_mem_segments (h : ofText? id.toList = some w) {g : String}
    (hg : g ∈ w.container ++ [w.name]) {c : Char} (hc : c ∈ g.toList) : c ∈ id.toList := by
  obtain ⟨tail, ⟨⟨letter, -, heq⟩, -⟩, -⟩ := hasForm_of_ofText? h
  have hdotted : c ∈ (dotted (w.container ++ [w.name])).toList := by
    rw [toList_dotted]
    exact Text.mem_intercalate_of_mem (List.mem_map_of_mem hg) hc
  rw [heq]
  simp only [List.mem_cons, List.mem_append]
  exact .inr (.inr (.inl hdotted))

end WrittenId

namespace Symbol
open WrittenId

variable {id : String} {typeNames : List String} {s : Symbol}

/-- The full name of a symbol is its dotted name, wherever the container is cut. -/
theorem fullName_of_ofId (hbare : ∀ c ∈ id.toList, c ≠ '#' ∧ c ≠ Arity.mark ∧ c ≠ '(' ∧ c ≠ '~')
    (htrim : Text.trim id.toList = id.toList) (h : ofId id typeNames = .ok s) :
    s.kind ≠ .ctor ∧ (s.kind = .nameSpace → s.containingTypes = []) ∧
      (s.kind ≠ .nameSpace → s.kind ≠ .type → s.containingTypes = [] → s.nameSpace = []) ∧
      dotted s.fullName = Reference.withoutMarker id := by
  cases hw : ofText? (Text.trim id.toList) with
  | none => cases h.symm.trans (ofId_of_ofText?_eq_none hw)
  | some w =>
    have hw' : ofText? id.toList = some w := by rw [← htrim, hw]
    have hmarker := withoutMarker_of_bare (fun c hc => (hbare c hc).2.2) hw'
    have hstripped : ∀ g ∈ w.container ++ [w.name], Arity.stripped g = g := fun g hg =>
      Arity.stripped_eq_self fun hmark => (hbare _ (mem_of_mem_segments hw' hg hmark)).2.1 rfl
    by_cases hkind : w.kind = .nameSpace
    · obtain rfl := Except.ok.inj (h.symm.trans (ofId_nameSpace hw hkind))
      refine ⟨SymbolKind.noConfusion, fun _ => rfl, fun hne => absurd rfl hne, ?_⟩
      rw [hmarker, fullName, List.append_nil]
    · have hsharp : '#' ∉ w.name.toList := fun hmem =>
        (hbare '#' (mem_of_mem_segments hw' (by simp) hmem)).1 rfl
      obtain rfl := Except.ok.inj (h.symm.trans (ofId_plain hw hkind hsharp))
      have hcut := append_cutContainer typeNames w.kind w.container
      have htypes : (cutContainer typeNames w.kind w.container).2.map Arity.stripped =
          (cutContainer typeNames w.kind w.container).2 := by
        refine (List.map_congr_left fun g hg => ?_).trans (List.map_id _)
        refine hstripped g (List.mem_append_left _ ?_)
        rw [← hcut]
        exact List.mem_append_right _ hg
      refine ⟨kind_ne_ctor hw, fun hns => absurd hns hkind, fun _ htype hnil => ?_, ?_⟩
      · -- a member without a type has no container at all
        have hcontainer : w.container = [] := by
          refine Decidable.byContradiction fun hne => ?_
          exact types_cutContainer_ne_nil typeNames htype hne (List.map_eq_nil_iff.1 hnil)
        dsimp only
        rw [hcontainer] at hcut ⊢
        exact (List.append_eq_nil_iff.1 hcut).1
      · rw [hmarker, fullName]
        dsimp only
        rw [htypes, hcut, hstripped w.name (by simp)]

/-- A symbol is shown as what its ID says behind the colon. -/
theorem exists_runs_of_ofId
    (hbare : ∀ c ∈ id.toList, c ≠ '#' ∧ c ≠ Arity.mark ∧ c ≠ '(' ∧ c ≠ '~')
    (htrim : Text.trim id.toList = id.toList) (h : ofId id typeNames = .ok s) :
    s.isConstructor = false ∧ s.documentationId = id ∧
      ∃ rs, s.runs .fullName [] = .ok rs ∧ Run.textOf rs = Reference.withoutMarker id := by
  obtain ⟨hctor, hnamespace, hmember, htext⟩ := fullName_of_ofId hbare htrim h
  obtain ⟨rs, hrs, hruns⟩ := exists_runs_full hctor hnamespace hmember
  exact ⟨decide_eq_false hctor, documentationId_of_ofId h, rs, hrs, hruns.trans htext⟩

end Symbol

end DocComment
