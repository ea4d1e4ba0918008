import DocComment.Proofs.FullName
import DocComment.Proofs.ShortenedName
import DocComment.Symbol.Imports

/-!
# Levels of qualification

A symbol is shown by its name alone, with the types around it, or by its full name. Each level ends
in what the level below shows, and only the full name depends on what is imported: it puts the
namespace in front, segment by segment, unless that namespace is imported (`runs_qualified`).
Namespaces themselves are shown in full whatever is imported.
-/

namespace DocComment

/-- The namespaces that are in scope at a position in the source that a semantic model describes. -/
def importedAt (model : Option SemanticModel) (position : Option Int) : List String :=
  (model.map (·.importsAt position)).getD []

/-- A namespace in front of something: each of its segments with a dot behind it. -/
def leadingRuns (nameSpace : List String) : List Run :=
  nameSpace.flatMap fun segment => [⟨.namespaceName, segment⟩, Run.dot]

theorem dottedRuns_cons (kind : RunKind) (name : String) {names : List String} (h : names ≠ []) :
    dottedRuns kind (name :: names) = ⟨kind, name⟩ :: Run.dot :: dottedRuns kind names := by
  cases names with
  | nil => exact absurd rfl h
  | cons next names => rfl

theorem leadingRuns_eq {nameSpace : List String} (h : nameSpace ≠ []) :
    leadingRuns nameSpace = dottedRuns .namespaceName nameSpace ++ [Run.dot] := by
  induction nameSpace with
  | nil => exact absurd rfl h
  | cons segment nameSpace ih =>
    by_cases hnil : nameSpace = []
    · rw [hnil]
      rfl
    · rw [dottedRuns_cons _ _ hnil, List.cons_append, List.cons_append, ← ih hnil]
      rfl

theorem dottedRuns_concat (nameSpace : List String) (name : String) :
    dottedRuns .namespaceName (nameSpace ++ [name]) =
      leadingRuns nameSpace ++ [⟨.namespaceName, name⟩] := by
  induction nameSpace with
  | nil => rfl
  | cons segment nameSpace ih =>
    rw [List.cons_append, dottedRuns_cons _ _ (by simp), ih]
    rfl

theorem getLast_suffix_dottedRuns (kind : RunKind) {names : List String} {name : String}
    (h : names.getLast? = some name) : [⟨kind, name⟩] <:+ dottedRuns kind names := by
  induction names with
  | nil => cases h
  | cons first names ih =>
    cases names with
    | nil =>
      obtain rfl := Option.some.inj h
      exact List.suffix_refl _
    | cons next names =>
      rw [List.getLast?_cons_cons] at h
      exact (ih h).trans ((List.suffix_cons _ _).trans (List.suffix_cons _ _))

/-! ### Levels -/

/-- Three ways to show a thing: by its `name`, by `enclosed`, which ends in the name, and in full,
with something in `front` of `enclosed`. Only what is in front depends on the namespaces in
scope. -/
structure Levels (shown : Qualification → List String → Except DisplayError (List Run))
    (front : List String → List Run) (name enclosed : List Run) : Prop where
  nameOnly : ∀ imported, shown .nameOnly imported = .ok name
  containingTypes : ∀ imported, shown .containingTypes imported = .ok enclosed
  full : ∀ imported, shown .full imported = .ok (front imported ++ enclosed)
  suffix : name <:+ enclosed

namespace Levels

variable {shown : Qualification → List String → Except DisplayError (List Run)}
  {front : List String → List Run} {name enclosed : List Run}

/-- What does not depend on the level may follow. -/
theorem map_append (h : Levels shown front name enclosed) (tail : List Run) :
    Levels (fun q imported => (shown q imported).map (· ++ tail)) front (name ++ tail)
      (enclosed ++ tail) where
  nameOnly imported := by rw [h.nameOnly]; rfl
  containingTypes imported := by rw [h.containingTypes]; rfl
  full imported := by rw [h.full, ← List.append_assoc]; rfl
  suffix := by
    obtain ⟨before, rfl⟩ := h.suffix
    exact ⟨before, (List.append_assoc ..).symm⟩

/-- What is shown alike at all levels, with nothing in front. -/
theorem const (rs : List Run) : Levels (fun _ _ => .ok rs) (fun _ => []) rs rs where
  nameOnly _ := rfl
  containingTypes _ := rfl
  full _ := rfl
  suffix := List.suffix_refl rs

end Levels

/-- The namespace in front of types that are shown by their full name. -/
def namespaceFront (nameSpace imported : List String) : List Run :=
  if dotted nameSpace ∈ imported then [] else leadingRuns nameSpace

variable (members : MemberOptions)

theorem exists_levels_typeRuns (nameSpace : List String) {types : List String} (h : types ≠ []) :
    ∃ name, Levels (fun q imported => typeRuns ⟨q, members⟩ imported nameSpace types)
      (namespaceFront nameSpace) [name] (dottedRuns .typeName types) := by
  have hlast := List.getLast?_eq_some_getLast h
  refine ⟨⟨.typeName, types.getLast h⟩, fun imported => ?_, fun imported => rfl, fun imported => ?_,
    getLast_suffix_dottedRuns .typeName hlast⟩
  · simp only [typeRuns, hlast]
  · unfold typeRuns namespaceFront
    dsimp only
    by_cases hmem : dotted nameSpace ∈ imported
    · rw [if_pos (.inr hmem), if_pos hmem]
      rfl
    · rw [if_neg hmem]
      by_cases hnil : nameSpace = []
      · rw [if_pos (.inl hnil), hnil]
        rfl
      · rw [if_neg (not_or.2 ⟨hnil, hmem⟩), leadingRuns_eq hnil, List.append_assoc]
        rfl

namespace Symbol

/-- Whether a symbol that is no namespace is shown with types, apart from those of its
parameters. -/
def ShowsTypes (s : Symbol) (members : MemberOptions) : Prop :=
  s.kind = .type ∨ s.kind = .ctor ∨ members.containingType = true ∧ s.containingTypes ≠ []

instance (s : Symbol) (members : MemberOptions) : Decidable (s.ShowsTypes members) :=
  inferInstanceAs (Decidable (_ ∨ _))

/-- What the full name of a symbol has in front where the namespaces `imported` are in scope. -/
def front (s : Symbol) (members : MemberOptions) (imported : List String) : List Run :=
  if s.kind = .nameSpace then leadingRuns s.nameSpace
  else if s.ShowsTypes members then namespaceFront s.nameSpace imported
  else []

/-- What is shown of a member between the types that it is in and its parameters. -/
def shownName (s : Symbol) (members : MemberOptions) : List Run :=
  (if members.explicitInterface then s.interfaceRuns else []) ++ [⟨.memberName, s.name⟩]

def shownParameters (s : Symbol) (members : MemberOptions) : List Run :=
  if members.parameters then s.parameterListRuns else []

theorem exists_levels_memberRuns {s : Symbol} (hnamespace : s.kind ≠ .nameSpace)
    (htype : s.kind ≠ .type) (hctor : s.kind ≠ .ctor) :
    ∃ name enclosed, Levels (fun q imported => s.memberRuns ⟨q, members⟩ imported)
      (s.front members) name enclosed := by
  have hshows : s.ShowsTypes members ↔
      members.containingType = true ∧ s.containingTypes ≠ [] := by
    simp [ShowsTypes, htype, hctor]
  have hfront : s.front members = fun imported =>
      if members.containingType = true ∧ s.containingTypes ≠ []
        then namespaceFront s.nameSpace imported else [] := by
    funext imported
    simp only [front, if_neg hnamespace, hshows]
  simp only [memberRuns_eq, hfront]
  by_cases h : members.containingType = true ∧ s.containingTypes ≠ []
  · obtain ⟨name, hlevels⟩ := exists_levels_typeRuns members s.nameSpace h.2
    simp only [if_pos h]
    exact ⟨_, _, (hlevels.map_append [Run.dot]).map_append (s.shownName members)⟩
  · simp only [if_neg h]
    exact ⟨_, _, (Levels.const []).map_append (s.shownName members)⟩

/-- A symbol is shown at all levels if it is no constructor without a type. -/
theorem exists_levels {s : Symbol} (h : s.kind = .ctor → s.containingTypes ≠ []) :
    ∃ name enclosed, Levels (fun q imported => s.runs ⟨q, members⟩ imported) (s.front members) name
      enclosed := by
  cases hkind : s.kind with
  | nameSpace =>
    have hfront : s.front members = fun _ => leadingRuns s.nameSpace := by
      funext imported
      rw [front, if_pos hkind]
    refine ⟨[⟨.namespaceName, s.name⟩], [⟨.namespaceName, s.name⟩], ?_⟩
    rw [hfront]
    refine ⟨fun _ => ?_, fun _ => ?_, fun _ => ?_, List.suffix_refl _⟩ <;> rw [runs, hkind]
    · rfl
    · rfl
    · exact congrArg Except.ok (dottedRuns_concat s.nameSpace s.name)
  | type =>
    have hfront : s.front members = namespaceFront s.nameSpace := by
      funext imported
      simp [front, hkind, ShowsTypes]
    obtain ⟨name, hlevels⟩ := exists_levels_typeRuns members s.nameSpace
      (List.append_ne_nil_of_right_ne_nil s.containingTypes (List.cons_ne_nil s.name []))
    simp only [runs, hkind, hfront]
    exact ⟨_, _, hlevels⟩
  | ctor =>
    have hfront : s.front members = namespaceFront s.nameSpace := by
      funext imported
      simp [front, hkind, ShowsTypes]
    obtain ⟨name, hlevels⟩ := exists_levels_typeRuns members s.nameSpace (h hkind)
    simp only [runs, hkind, hfront]
    exact ⟨_, _, hlevels.map_append (s.shownParameters members)⟩
  | method | property | field | event =>
    obtain ⟨name, enclosed, hlevels⟩ := exists_levels_memberRuns (s := s) members
      (by simp [hkind]) (by simp [hkind]) (by simp [hkind])
    simp only [runs, hkind]
    exact ⟨_, _, hlevels.map_append (s.shownParameters members)⟩

/-- Each level of qualification shows what the one below it shows, behind more of what is around a
symbol. Names and types are shown alike whatever is imported. A full name has the namespace in front
of the types, unless it is imported or no types are shown; that of a namespace is never
shortened. -/
theorem runs_qualified {id : String} {typeNames : List String} {s : Symbol}
    (h : ofId id typeNames = .ok s) (members : MemberOptions) (model : Option SemanticModel)
    (position : Option Int) :
    let imported := importedAt model position
    ∃ name enclosed full,
      (∀ inScope, s.runs ⟨.nameOnly, members⟩ inScope = .ok name) ∧
      (∀ inScope, s.runs ⟨.containingTypes, members⟩ inScope = .ok enclosed) ∧
      s.runs ⟨.full, members⟩ imported = .ok full ∧
      name <:+ enclosed ∧ enclosed <:+ full ∧
      (s.kind ≠ .nameSpace →
        (dotted s.nameSpace ∈ imported → full = enclosed) ∧
        (dotted s.nameSpace ∉ imported → s.ShowsTypes members →
          full = leadingRuns s.nameSpace ++ enclosed) ∧
        (¬ s.ShowsTypes members → full = enclosed)) ∧
      (s.kind = .nameSpace →
        full = dottedRuns .namespaceName (s.nameSpace ++ [s.name]) ∧
          Run.textOf full = dotted (s.nameSpace ++ [s.name])) := by
  intro imported
  obtain ⟨name, enclosed, hlevels⟩ := exists_levels members (containingTypes_ne_nil_of_ofId h)
  refine ⟨name, enclosed, s.front members imported ++ enclosed, hlevels.nameOnly,
    hlevels.containingTypes, hlevels.full imported, hlevels.suffix, List.suffix_append _ _,
    fun hkind => ⟨fun hmem => ?_, fun hmem hshows => ?_, fun hshows => ?_⟩, fun hkind => ?_⟩
  · rw [front, if_neg hkind, namespaceFront, if_pos hmem, ite_self, List.nil_append]
  · rw [front, if_neg hkind, if_pos hshows, namespaceFront, if_neg hmem]
  · rw [front, if_neg hkind, if_neg hshows, List.nil_append]
  · have hruns := hlevels.full imported
    simp only [runs, hkind, if_pos] at hruns
    rw [← Except.ok.inj hruns]
    exact ⟨rfl, textOf_dottedRuns _ _⟩

theorem runs_qualified_inner_type :
    let id := "M:A.B.Outer\x601.Inner.I#m(System.Int32)"
    let members : MemberOptions := ⟨true, true, true⟩
    let model := some (SemanticModel.ofScopes .empty [⟨5, ["A.B"]⟩])
    ∃ s name enclosed full, ofId id ["A.B.Outer\x601"] = .ok s ∧ s.nameSpace = ["A", "B"] ∧
      (∀ inScope, s.runs ⟨.nameOnly, members⟩ inScope = .ok name) ∧
      Run.textOf name = "Inner.I.m(int)" ∧
      Run.textOf enclosed = "Outer.Inner.I.m(int)" ∧ name <:+ enclosed ∧
      s.runs ⟨.full, members⟩ (importedAt model (some 7)) = .ok enclosed ∧
      s.runs ⟨.full, members⟩ (importedAt model (some 4)) = .ok full ∧
      full = leadingRuns ["A", "B"] ++ enclosed := by
  intro id members model
  have hread : (ofId id ["A.B.Outer\x601"]).toOption.map (fun s =>
      (s.kind, s.nameSpace, s.containingTypes,
        (s.runs ⟨.nameOnly, members⟩ []).toOption.map Run.textOf,
        (s.runs ⟨.containingTypes, members⟩ []).toOption.map Run.textOf)) =
      some (.method, ["A", "B"], ["Outer", "Inner"], some "Inner.I.m(int)",
        some "Outer.Inner.I.m(int)") := by
    decide +kernel
  obtain ⟨s, hs, hread⟩ := Option.map_eq_some_iff.1 hread
  simp only [Prod.mk.injEq] at hread
  obtain ⟨hkind, hnamespace, htypes, hname, henclosed⟩ := hread
  have hnot : s.kind ≠ .nameSpace := by simp [hkind]
  have hshows : s.ShowsTypes members := .inr (.inr ⟨rfl, by simp [htypes]⟩)
  have hearly : importedAt model (some 4) = [] := by
    simp [importedAt, model, SemanticModel.ofScopes, SemanticModel.importsAt]
  have hlate : importedAt model (some 7) = ["A.B"] := by
    simp [importedAt, model, SemanticModel.ofScopes, SemanticModel.importsAt, List.eraseDups_cons]
  have hs := eq_ok_of_toOption hs
  obtain ⟨name, enclosed, full, hn, he, hf, hsuffix, -, hlevels, -⟩ :=
    runs_qualified hs members model (some 4)
  obtain ⟨-, enclosed', full', -, he', hf', -, -, hlevels', -⟩ :=
    runs_qualified hs members model (some 7)
  obtain rfl := Except.ok.inj ((he []).symm.trans (he' []))
  rw [hnamespace] at hlevels hlevels'
  refine ⟨s, name, enclosed, full, hs, hnamespace, hn, ?_, ?_, hsuffix, ?_, hf, ?_⟩
  · rw [hn []] at hname
    exact Option.some.inj hname
  · rw [he []] at henclosed
    exact Option.some.inj henclosed
  · rw [hf', (hlevels' hnot).1 (by rw [hlate]; decide)]
  · exact (hlevels hnot).2.1 (by rw [hearly]; decide) hshows

end Symbol

end DocComment
