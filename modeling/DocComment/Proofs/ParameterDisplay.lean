import DocComment.Proofs.Declaration
import DocComment.Proofs.TypeExpression

/-!
# Members shown with their parameters

A method or an indexed property is written as an ID that lists the types of its parameters.
`exists_runs_listed`: the symbol of the ID is shown as before, and behind it, where the format wants
the parameters, every type as it is meant to be shown.
-/

namespace DocComment

structure Parameter where
  type : TypeExpr
  byReference : Bool := false

namespace Parameter

def written (p : Parameter) : String :=
  String.ofList (p.type.written ++ if p.byReference then ['@'] else [])

def shown (p : Parameter) : String :=
  (if p.byReference then "ref " else "") ++ p.type.shown

end Parameter

/-- A method or an indexed property. -/
structure ListedMember where
  kind : SymbolKind
  container : List String
  name : String
  parameters : List Parameter
  kind_eq : kind = .method ∨ kind = .property := by decide
  container_ne_nil : container ≠ [] := by decide
  isSegment : ∀ g ∈ container ++ [name], WrittenId.IsSegment g
  plain : ∀ g ∈ container ++ [name], ∀ c ∈ g.toList, c ≠ '#' ∧ Text.isBlank c = false
  parameters_ne_nil : parameters ≠ []

namespace ListedMember

/-- The ID of a member. -/
def written (m : ListedMember) : String :=
  m.kind.code ++ ":" ++ dotted (m.container ++ [m.name]) ++
    ("(" ++ ",".intercalate (m.parameters.map Parameter.written) ++ ")")

/-- The list of parameters as it is meant to be shown. -/
def shownParameters (m : ListedMember) : String :=
  (if m.kind = .property then "[" else "(") ++
    ", ".intercalate (m.parameters.map Parameter.shown) ++
    (if m.kind = .property then "]" else ")")

end ListedMember

/-! ### One parameter -/

namespace Parameter

variable (p : Parameter)

theorem toList_written :
    p.written.toList = p.type.written ++ if p.byReference then ['@'] else [] := by
  rw [written, String.toList_ofList]

theorem plain_of_mem_type {c : Char} (hc : c ∈ p.type.written) :
    Text.isBlank c = false ∧ c ≠ '(' ∧ c ≠ ')' ∧ c ≠ '~' ∧ c ≠ '@' := by
  rcases p.type.mem_written hc with hinert | hbracket
  · obtain ⟨hblank, hmem⟩ := isInert_iff.1 hinert
    simp only [List.mem_cons, List.not_mem_nil, or_false, not_or] at hmem
    obtain ⟨-, -, -, -, -, hopen, hclose, hreturn, href⟩ := hmem
    exact ⟨hblank, hopen, hclose, hreturn, href⟩
  · have hplain : ∀ c ∈ [',', '[', ']', '\x7b', '\x7d'],
        Text.isBlank c = false ∧ c ≠ '(' ∧ c ≠ ')' ∧ c ≠ '~' ∧ c ≠ '@' := by decide
    exact hplain c hbracket

theorem plain_of_mem_written {c : Char} (hc : c ∈ p.written.toList) :
    Text.isBlank c = false ∧ c ≠ '(' ∧ c ≠ ')' ∧ c ≠ '~' := by
  rw [toList_written, List.mem_append] at hc
  rcases hc with hc | hc
  · obtain ⟨hblank, hopen, hclose, hreturn, -⟩ := p.plain_of_mem_type hc
    exact ⟨hblank, hopen, hclose, hreturn⟩
  · split at hc
    · obtain rfl := List.mem_singleton.1 hc
      decide
    · cases hc

theorem closed_written : Parameters.Closed p.written.toList := by
  have h := p.type.closedFrom_written (Int.le_refl 0) (if p.byReference then ['@'] else [])
  rw [toList_written, Parameters.closed_iff, h]
  cases p.byReference <;> rfl

def toParameterType : ParameterType where
  text := p.written
  plain := fun _ hc => p.plain_of_mem_written hc
  closed := p.closed_written

theorem written_ne_empty : p.written ≠ "" := by
  intro h
  have hnil : p.written.toList = [] := by rw [h]; rfl
  rw [toList_written] at hnil
  exact p.type.written_ne_nil (List.append_eq_nil_iff.1 hnil).1

theorem textOf_runs_written : Run.textOf (TypeName.runs p.written) = p.shown := by
  have htype : TypeName.shownText p.type.written = p.type.shown := by
    have h := p.type.shownText_written TypeName.nameEnds_nil
    rwa [List.append_nil, TypeName.shownText_nil, String.append_empty] at h
  rw [TypeName.runs, toList_written, shown, ← htype]
  cases p.byReference with
  | true =>
    rw [if_pos rfl, List.getLast?_concat, if_pos rfl, List.dropLast_concat, if_pos rfl]
    exact Run.textOf_append [⟨.keyword, "ref"⟩, Run.space] _
  | false =>
    have hlast : p.type.written.getLast? ≠ some '@' := fun h =>
      (p.plain_of_mem_type (List.mem_of_getLast? h)).2.2.2.2 rfl
    rw [if_neg Bool.false_ne_true, List.append_nil, if_neg hlast, if_neg Bool.false_ne_true,
      String.empty_append]
    rfl

end Parameter

/-! ### Lists of parameters -/

namespace Symbol

theorem textOf_parameterRuns (types : List String) :
    Run.textOf (parameterRuns types) =
      ", ".intercalate (types.map fun type => Run.textOf (TypeName.runs type)) := by
  match types with
  | [] => rfl
  | [type] => rw [parameterRuns, List.map_singleton, String.intercalate_singleton]
  | type :: next :: types =>
    have ih := textOf_parameterRuns (next :: types)
    rw [List.map_cons] at ih
    rw [List.map_cons, List.map_cons, String.intercalate_cons_cons, ← ih, parameterRuns,
      Run.textOf_append, String.append_assoc]
    · exact congrArg (_ ++ ·) (Run.textOf_append [Run.punctuation ",", Run.space] _)
    · exact List.cons_ne_nil _ _

theorem textOf_enclosed (left right : String) (rs : List Run) :
    Run.textOf (Run.punctuation left :: rs ++ [Run.punctuation right]) =
      left ++ Run.textOf rs ++ right := by
  apply String.toList_inj.1
  simp [Run.punctuation]

theorem textOf_parameterListRuns {s : Symbol} {types : List String}
    (h : s.parameters = some types) :
    Run.textOf s.parameterListRuns =
      (if s.kind = .property then "[" else "(") ++
        ", ".intercalate (types.map fun type => Run.textOf (TypeName.runs type)) ++
        (if s.kind = .property then "]" else ")") := by
  rw [parameterListRuns, h]
  dsimp only
  rw [← textOf_parameterRuns]
  split
  · exact textOf_enclosed "[" "]" _
  · exact textOf_enclosed "(" ")" _

/-- The parameters of a member stand behind all that is shown without them. -/
theorem exists_runs_append {s : Symbol} (hkind : s.kind = .method ∨ s.kind = .property)
    (format : DisplayFormat) (hformat : format.members.parameters = true) (imported : List String) :
    ∃ front, s.runs (format.withMembers { format.members with parameters := false }) imported =
        .ok front ∧
      s.runs format imported = .ok (front ++ s.parameterListRuns) := by
  obtain ⟨front, hfront, -⟩ := s.exists_memberRuns format imported
  have hwithout : s.memberRuns (format.withMembers { format.members with parameters := false })
      imported = .ok front := hfront
  refine ⟨front, ?_, ?_⟩ <;> rcases hkind with hkind | hkind <;>
    simp [runs, hkind, hfront, hwithout, hformat, Except.map]

end Symbol

/-! ### Members -/

namespace ListedMember
open WrittenId

variable (m : ListedMember)

def types : List ParameterType :=
  m.parameters.map Parameter.toParameterType

def listed : List Char :=
  [','].intercalate (m.types.map (·.text.toList))

theorem toList_tail :
    ("(" ++ ",".intercalate (m.parameters.map Parameter.written) ++ ")").toList =
      '(' :: (m.listed ++ [')']) := by
  simp [listed, types, String.toList_intercalate, Function.comp_def, Parameter.toParameterType]

theorem parameters?_tail :
    parameters? ("(" ++ ",".intercalate (m.parameters.map Parameter.written) ++ ")").toList =
      some (some m.listed) := by
  rw [toList_tail]
  exact ParameterType.parameters?_intercalate m.types .none

theorem hasForm_written :
    HasForm m.written.toList m.kind (m.container ++ [m.name])
      ("(" ++ ",".intercalate (m.parameters.map Parameter.written) ++ ")").toList := by
  have hkind : m.kind ≠ .ctor := by
    rcases m.kind_eq with h | h <;> rw [h] <;> decide
  exact hasForm_code hkind (by simp) m.isSegment (exists_parameters?_iff.1 ⟨_, m.parameters?_tail⟩)

theorem isBlank_of_mem_written {c : Char} (hc : c ∈ m.written.toList) : Text.isBlank c = false := by
  obtain ⟨⟨letter, hletter, heq⟩, -, -, -⟩ := m.hasForm_written
  rw [heq, toList_tail] at hc
  simp only [List.mem_cons, List.mem_append, List.not_mem_nil, or_false] at hc
  rcases hc with rfl | rfl | hc | rfl | hc | rfl
  · exact isBlank_of_mem_letters hletter
  · decide
  · exact isBlank_of_mem_dotted (fun g hg c hc => (m.plain g hg c hc).2) hc
  · decide
  · exact (ParameterType.plain_of_mem_intercalate hc).1
  · decide

theorem ofText?_written : ofText? (Text.trim m.written.toList) =
    some ⟨m.kind, m.container, m.name, some m.listed⟩ := by
  rw [Text.trim_eq_self_of_isBlank_eq_false fun c hc => m.isBlank_of_mem_written hc,
    ofText?_of_hasForm m.hasForm_written m.parameters?_tail]
  simp

theorem split_listed : (Parameters.split m.listed).map String.ofList =
    m.parameters.map Parameter.written := by
  have hne : m.types.map (·.text) ≠ [""] := by
    obtain ⟨p, ps, hp⟩ := List.exists_cons_of_ne_nil m.parameters_ne_nil
    intro h
    rw [types, hp, List.map_cons, List.map_cons] at h
    exact p.written_ne_empty (List.cons.inj h).1
  have hsplit := ParameterType.split_intercalate hne
  rw [types, List.map_map, List.map_map] at hsplit
  rw [listed, types, List.map_map]
  exact hsplit

theorem exists_ofId_written (typeNames : List String) :
    ∃ s, Symbol.ofId m.written typeNames = .ok s ∧ s.kind = m.kind ∧
      s.parameters = some (m.parameters.map Parameter.written) := by
  have hkind : m.kind ≠ .nameSpace := by
    rcases m.kind_eq with h | h <;> rw [h] <;> decide
  have hname : '#' ∉ m.name.toList := fun hmem => (m.plain m.name (by simp) '#' hmem).1 rfl
  refine ⟨_, Symbol.ofId_plain m.ofText?_written hkind hname, rfl, ?_⟩
  dsimp only
  rw [Option.map_some, m.split_listed]
  exact ite_self _

end ListedMember

/-- What is shown of a member that is written with parameters ends in their types, each as it is
meant to be shown. -/
theorem exists_runs_listed (m : ListedMember) (typeNames : List String) (format : DisplayFormat)
    (hformat : format.members.parameters = true) (imported : List String) :
    ∃ symbol front listed, Symbol.ofId m.written typeNames = .ok symbol ∧
      symbol.runs (format.withMembers { format.members with parameters := false }) imported =
        .ok front ∧
      symbol.runs format imported = .ok (front ++ listed) ∧
      Run.textOf listed = m.shownParameters := by
  obtain ⟨s, hs, hkind, hparameters⟩ := m.exists_ofId_written typeNames
  obtain ⟨front, hfront, hruns⟩ := s.exists_runs_append (hkind ▸ m.kind_eq) format hformat imported
  refine ⟨s, front, s.parameterListRuns, hs, hfront, hruns, ?_⟩
  rw [Symbol.textOf_parameterListRuns hparameters, hkind, List.map_map]
  have hshown :
      m.parameters.map ((fun type => Run.textOf (TypeName.runs type)) ∘ Parameter.written) =
        m.parameters.map Parameter.shown :=
    List.map_congr_left fun p _ => p.textOf_runs_written
  rw [hshown, ListedMember.shownParameters]

theorem exists_runs_nested_types :
    let format : DisplayFormat := { members := { parameters := true } }
    format.members.parameters = true ∧
      ∃ symbol front listed,
        Symbol.ofId "M:My.C\x601.m(Gen.Map\x602\x7bSystem.Int32,a_1\x7b\x600\x7d[0:,0:5]\x7d@,\x60\x601*)"
          ["My.C\x601"] = .ok symbol ∧
        symbol.runs (format.withMembers { format.members with parameters := false }) ["Gen"] =
          .ok front ∧
        symbol.runs format ["Gen"] = .ok (front ++ listed) ∧
        Run.textOf listed = "(ref Map<int, a_1<T0>[,]>, TM1*)" := by
  intro format
  let int : QualifiedName := {
    outer := [{ first := 'S', rest := "ystem".toList }]
    last := { first := 'I', rest := "nt32".toList } }
  let map : QualifiedName := {
    outer := [{ first := 'G', rest := "en".toList }]
    last := { first := 'M', rest := "ap".toList, arity := some { digits := ['2'] } } }
  let inner : TypeExpr := .constructed { last := { first := 'a', rest := "_1".toList } }
    [.parameter { digits := ['0'] }]
  let first : Parameter := {
    type := .constructed map
      [.name int, .array inner [{ text := "0:".toList }, { text := "0:5".toList }]]
    byReference := true }
  let second : Parameter := { type := .pointer (.parameter { double := true, digits := ['1'] }) }
  let m : ListedMember := {
    kind := .method, container := ["My", "C\x601"], name := "m", parameters := [first, second]
    isSegment := by unfold WrittenId.IsSegment; decide
    plain := by decide
    parameters_ne_nil := List.cons_ne_nil _ _ }
  have hwritten : m.written =
      "M:My.C\x601.m(Gen.Map\x602\x7bSystem.Int32,a_1\x7b\x600\x7d[0:,0:5]\x7d@,\x60\x601*)" := by
    decide +kernel
  have hshown : m.shownParameters = "(ref Map<int, a_1<T0>[,]>, TM1*)" := by decide +kernel
  have h := exists_runs_listed m ["My.C\x601"] format rfl ["Gen"]
  rw [hwritten, hshown] at h
  exact ⟨rfl, h⟩

end DocComment
