import DocComment.Proofs.Qualification
import Mathlib.Data.List.Chain

/-!
# Runs that show symbols

Every symbol of an ID can be shown in every format, by at least one run. There is no white space at
the ends, and inside there are only single spaces, each behind a comma or the word for a parameter
by reference, whatever the types of the parameters look like (`exists_runs_displayed`).
-/

namespace DocComment

/-- Whether runs of this kind show a part of a symbol: a name, a word or a sign. -/
def RunKind.isPart : RunKind → Bool
  | .text | .space | .lineBreak => false
  | _ => true

/-- Whether a space may follow: behind a comma, and behind the word for a parameter by reference. -/
def Run.LeadsSpace (r : Run) : Prop :=
  r = Run.punctuation "," ∨ r = ⟨.keyword, "ref"⟩

/-- Runs that show parts of a symbol with single spaces between them, and no space in front. -/
structure IsDisplay (rs : List Run) : Prop where
  kinds : ∀ r ∈ rs, r.kind.isPart = true ∨ r = Run.space
  start : ∀ r ∈ rs.head?, r.kind.isPart = true
  spaces : rs.IsChain fun lead r => r.kind = .space → lead.LeadsSpace

/-- Such runs without a space at the end. -/
structure IsWholeDisplay (rs : List Run) : Prop extends IsDisplay rs where
  stop : ∀ r ∈ rs.getLast?, r.kind.isPart = true

theorem Run.LeadsSpace.isPart {r : Run} (h : r.LeadsSpace) : r.kind.isPart = true := by
  rcases h with rfl | rfl <;> rfl

variable {rs rs' : List Run}

namespace IsDisplay

theorem nil : IsDisplay [] where
  kinds _ h := absurd h List.not_mem_nil
  start _ h := by cases h
  spaces := .nil

/-- Runs that come second start with no space, so it does not matter what is in front of them. -/
theorem append (h : IsDisplay rs) (h' : IsDisplay rs') : IsDisplay (rs ++ rs') where
  kinds := List.forall_mem_append.2 ⟨h.kinds, h'.kinds⟩
  start r hr := by
    rw [List.head?_append] at hr
    rcases Option.or_eq_some_iff.1 hr with hr | ⟨-, hr⟩
    · exact h.start r hr
    · exact h'.start r hr
  spaces := by
    refine h.spaces.append h'.spaces fun _ _ r hr hkind => ?_
    have hpart := h'.start r hr
    rw [hkind] at hpart
    cases hpart

theorem flatMap {α : Type} {f : α → List Run} {as : List α} (h : ∀ a ∈ as, IsDisplay (f a)) :
    IsDisplay (as.flatMap f) := by
  induction as with
  | nil => exact nil
  | cons a as ih =>
    rw [List.flatMap_cons]
    exact (h a (List.mem_cons_self ..)).append (ih fun a ha => h a (List.mem_cons_of_mem _ ha))

theorem lead_space {r : Run} (h : r.LeadsSpace) : IsDisplay [r, Run.space] where
  kinds := List.forall_mem_cons.2 ⟨.inl h.isPart, List.forall_mem_singleton.2 (.inr rfl)⟩
  start r' hr' := by
    obtain rfl := Option.some.inj hr'
    exact h.isPart
  spaces := List.isChain_pair.2 fun _ => h

end IsDisplay

namespace IsWholeDisplay

theorem nil : IsWholeDisplay [] where
  toIsDisplay := .nil
  stop _ h := by cases h

theorem singleton {r : Run} (h : r.kind.isPart = true) : IsWholeDisplay [r] where
  kinds := List.forall_mem_singleton.2 (.inl h)
  start r' hr' := by
    obtain rfl := Option.some.inj hr'
    exact h
  spaces := .singleton r
  stop r' hr' := by
    obtain rfl := Option.some.inj hr'
    exact h

theorem append (h : IsWholeDisplay rs) (h' : IsWholeDisplay rs') : IsWholeDisplay (rs ++ rs') where
  toIsDisplay := h.toIsDisplay.append h'.toIsDisplay
  stop r hr := by
    rw [List.getLast?_append] at hr
    rcases Option.or_eq_some_iff.1 hr with hr | ⟨-, hr⟩
    · exact h'.stop r hr
    · exact h.stop r hr

end IsWholeDisplay

/-- A part of a symbol behind the rest ends a display. -/
theorem IsDisplay.concat (h : IsDisplay rs) {r : Run} (hr : r.kind.isPart = true) :
    IsWholeDisplay (rs ++ [r]) where
  toIsDisplay := h.append (IsWholeDisplay.singleton hr).toIsDisplay
  stop r' hr' := by
    rw [List.getLast?_concat] at hr'
    obtain rfl := Option.some.inj hr'
    exact hr

/-- The run in front of a space leads it. -/
theorem IsDisplay.exists_lead (h : IsDisplay rs) {before after : List Run} {r : Run}
    (heq : rs = before ++ r :: after) (hr : r.kind = .space) :
    ∃ front lead, before = front ++ [lead] ∧ lead.LeadsSpace := by
  rcases List.eq_nil_or_concat before with rfl | ⟨front, lead, rfl⟩
  · have hpart := h.start r (by rw [heq]; rfl)
    rw [hr] at hpart
    cases hpart
  · rw [List.concat_eq_append] at heq
    refine ⟨front, lead, List.concat_eq_append, ?_⟩
    have hchain := h.spaces
    rw [heq, List.append_assoc] at hchain
    exact (List.isChain_append_cons_cons.1 hchain).2.1 hr

/-! ### Types of parameters -/

theorem TypeName.Token.isDisplay_runs (t : Token) : IsDisplay t.runs := by
  have single {r : Run} (h : r.kind.isPart = true) : IsDisplay [r] :=
    (IsWholeDisplay.singleton h).toIsDisplay
  cases t with
  | bounds content => exact single rfl
  | methodParameter position => exact single rfl
  | typeParameter position => exact single rfl
  | name content =>
    rw [runs]
    split <;> exact single rfl
  | other c =>
    rw [runs]
    split
    · exact .lead_space (.inl rfl)
    · split_ifs <;> exact single rfl

theorem TypeName.isDisplay_runs (type : String) : IsDisplay (runs type) := by
  have htokens (s : List Char) : IsDisplay ((tokens s).flatMap Token.runs) :=
    .flatMap fun t _ => t.isDisplay_runs
  rw [runs]
  split
  · exact (IsDisplay.lead_space (.inr rfl)).append (htokens _)
  · exact htokens _

namespace Symbol

theorem isDisplay_parameterRuns (types : List String) : IsDisplay (parameterRuns types) := by
  match types with
  | [] => exact .nil
  | [type] => exact TypeName.isDisplay_runs type
  | type :: next :: rest =>
    have ih := isDisplay_parameterRuns (next :: rest)
    exact (TypeName.isDisplay_runs type).append ((IsDisplay.lead_space (.inl rfl)).append ih)

theorem isWholeDisplay_parameterListRuns (s : Symbol) : IsWholeDisplay s.parameterListRuns := by
  rw [parameterListRuns]
  split
  · exact .nil
  · next types _ =>
    have henclosed (left right : String) : IsWholeDisplay
        (Run.punctuation left :: parameterRuns types ++ [Run.punctuation right]) :=
      ((IsWholeDisplay.singleton rfl).toIsDisplay.append (isDisplay_parameterRuns types)).concat rfl
    dsimp only
    split
    · exact henclosed "[" "]"
    · exact henclosed "(" ")"

theorem isWholeDisplay_shownParameters (s : Symbol) (members : MemberOptions) :
    IsWholeDisplay (s.shownParameters members) := by
  rw [shownParameters]
  split
  · exact s.isWholeDisplay_parameterListRuns
  · exact .nil

end Symbol

/-! ### Names -/

theorem isWholeDisplay_dottedRuns {kind : RunKind} (h : kind.isPart = true) (names : List String) :
    IsWholeDisplay (dottedRuns kind names) := by
  match names with
  | [] => exact .nil
  | [name] => exact .singleton h
  | name :: next :: rest =>
    have ih := isWholeDisplay_dottedRuns h (next :: rest)
    exact (IsWholeDisplay.singleton h).append ((IsWholeDisplay.singleton rfl).append ih)

theorem isWholeDisplay_of_typeRuns {format : DisplayFormat} {imported nameSpace types : List String}
    (h : typeRuns format imported nameSpace types = .ok rs) : IsWholeDisplay rs := by
  have htypes : IsWholeDisplay (dottedRuns .typeName types) := isWholeDisplay_dottedRuns rfl types
  unfold typeRuns at h
  split at h
  · split at h
    · cases h
    · obtain rfl := Except.ok.inj h
      exact .singleton rfl
  · obtain rfl := Except.ok.inj h
    exact htypes
  · split at h
    · obtain rfl := Except.ok.inj h
      exact htypes
    · obtain rfl := Except.ok.inj h
      exact (isWholeDisplay_dottedRuns rfl nameSpace).append
        ((IsWholeDisplay.singleton rfl).append htypes)

namespace Symbol

variable {s : Symbol} {format : DisplayFormat} {imported : List String}

theorem isWholeDisplay_shownName (s : Symbol) (members : MemberOptions) :
    IsWholeDisplay (s.shownName members) := by
  have hinterface : IsWholeDisplay s.interfaceRuns := by
    rw [interfaceRuns]
    split
    · exact .nil
    · split
      · exact .nil
      · exact (IsWholeDisplay.singleton rfl).append (.singleton rfl)
  rw [shownName]
  split
  · exact hinterface.append (.singleton rfl)
  · exact .singleton rfl

theorem isWholeDisplay_of_memberRuns (h : s.memberRuns format imported = .ok rs) :
    IsWholeDisplay rs := by
  rw [memberRuns_eq] at h
  obtain ⟨container, hcontainer, rfl⟩ := map_eq_ok_iff.1 h
  have hname := s.isWholeDisplay_shownName format.members
  split at hcontainer
  · obtain ⟨types, htypes, rfl⟩ := map_eq_ok_iff.1 hcontainer
    exact ((isWholeDisplay_of_typeRuns htypes).append (.singleton rfl)).append hname
  · obtain rfl := Except.ok.inj hcontainer
    exact hname

/-- However a symbol is shown, there is no white space at the ends, and none out of place. -/
theorem isWholeDisplay_of_runs (h : s.runs format imported = .ok rs) : IsWholeDisplay rs := by
  have hparameters := s.isWholeDisplay_shownParameters format.members
  cases hkind : s.kind with
  | nameSpace =>
    simp only [runs, hkind] at h
    split at h
    · obtain rfl := Except.ok.inj h
      exact isWholeDisplay_dottedRuns rfl _
    · obtain rfl := Except.ok.inj h
      exact .singleton rfl
  | type =>
    simp only [runs, hkind] at h
    exact isWholeDisplay_of_typeRuns h
  | ctor =>
    simp only [runs, hkind] at h
    obtain ⟨types, htypes, rfl⟩ := map_eq_ok_iff.1 h
    exact (isWholeDisplay_of_typeRuns htypes).append hparameters
  | method | property | field | event =>
    simp only [runs, hkind] at h
    obtain ⟨member, hmember, rfl⟩ := map_eq_ok_iff.1 h
    exact (isWholeDisplay_of_memberRuns hmember).append hparameters

/-- The symbol of an ID is shown in every format and at every place, by at least one run. The first
and the last run are no white space, no run is plain text or a line break, and a space comes only
behind a comma or the word `ref`. -/
theorem exists_runs_displayed {id : String} {typeNames : List String} (h : ofId id typeNames = .ok s)
    (format : DisplayFormat) (model : Option SemanticModel) (position : Option Int) :
    ∃ rs, s.runs format (importedAt model position) = .ok rs ∧ rs ≠ [] ∧
      (∀ r ∈ rs.head?, r.kind.isWhitespace = false) ∧
      (∀ r ∈ rs.getLast?, r.kind.isWhitespace = false) ∧
      (∀ r ∈ rs, r.kind ≠ .lineBreak ∧ r.kind ≠ .text) ∧
      ∀ before r after, rs = before ++ r :: after → r.kind = .space →
        ∃ front lead, before = front ++ [lead] ∧
          (lead = ⟨.punctuation, ","⟩ ∨ lead = ⟨.keyword, "ref"⟩) := by
  obtain ⟨rs, hrs, hne⟩ := exists_runs format (importedAt model position)
    (containingTypes_ne_nil_of_ofId h)
  have hwhole := isWholeDisplay_of_runs hrs
  have hpart : ∀ kind : RunKind, kind.isPart = true → kind.isWhitespace = false := by
    intro kind hpart
    cases kind <;> first | rfl | cases hpart
  refine ⟨rs, hrs, hne, fun r hr => hpart _ (hwhole.start r hr),
    fun r hr => hpart _ (hwhole.stop r hr), fun r hr => ?_,
    fun before r after heq hkind => hwhole.exists_lead heq hkind⟩
  rcases hwhole.kinds r hr with hpart | rfl
  · constructor <;> intro hkind <;> rw [hkind] at hpart <;> cases hpart
  · decide

/-- Types of parameters may be missing, cut short or nothing but the mark of a reference. -/
theorem exists_runs_displayed_odd_types :
    let format : DisplayFormat := ⟨.nameOnly, { parameters := true }⟩
    ∃ s rs, ofId "M:A.C.#ctor(@,,Gen\x7ba, b@\x7d,[)" [] = .ok s ∧ s.runs format [] = .ok rs ∧
      Run.textOf rs = "C(ref , , Gen<a, b@>, [])" ∧
      (∀ r ∈ rs.head?, r.kind.isWhitespace = false) ∧
      (∀ r ∈ rs.getLast?, r.kind.isWhitespace = false) ∧
      (∀ r ∈ rs, r.kind ≠ .lineBreak ∧ r.kind ≠ .text) ∧
      ∀ before r after, rs = before ++ r :: after → r.kind = .space →
        ∃ front lead, before = front ++ [lead] ∧
          (lead = ⟨.punctuation, ","⟩ ∨ lead = ⟨.keyword, "ref"⟩) := by
  intro format
  have hread : (ofId "M:A.C.#ctor(@,,Gen\x7ba, b@\x7d,[)" []).toOption.map (fun s =>
      (s.runs format []).toOption.map Run.textOf) = some (some "C(ref , , Gen<a, b@>, [])") := by
    decide +kernel
  obtain ⟨s, hs, htext⟩ := Option.map_eq_some_iff.1 hread
  have hs := eq_ok_of_toOption hs
  obtain ⟨rs, hrs, -, hlaws⟩ := exists_runs_displayed hs format none none
  have hrs : s.runs format [] = .ok rs := hrs
  rw [hrs] at htext
  exact ⟨s, rs, hs, hrs, Option.some.inj htext, hlaws⟩

end Symbol

end DocComment
