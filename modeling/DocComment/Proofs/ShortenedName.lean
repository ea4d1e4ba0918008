import DocComment.Proofs.DeclaredSymbol

/-!
# Names that are shortened

Where namespaces are imported, a symbol is shown as where none are, or else without the namespace in
front of it: that happens only to full names, and only if this namespace is imported
(`Symbol.shortened_runs`).
-/

namespace DocComment

/-- Two ways to show a symbol of a namespace: alike, or the second without the namespace and its dot
in front, which are left out of full names where the namespace is imported. -/
inductive Shortened (format : DisplayFormat) (imported nameSpace : List String) :
    List Run → List Run → Prop where
  | same (rs : List Run) : Shortened format imported nameSpace rs rs
  | omitted (rs : List Run) (full : format.qualification = .full) (ne_nil : nameSpace ≠ [])
      (mem : dotted nameSpace ∈ imported) :
      Shortened format imported nameSpace
        (dottedRuns .namespaceName nameSpace ++ Run.dot :: rs) rs

variable {format format' : DisplayFormat} {imported nameSpace types : List String}
  {long short : List Run}

namespace Shortened

theorem append_right (h : Shortened format imported nameSpace long short) (tail : List Run) :
    Shortened format imported nameSpace (long ++ tail) (short ++ tail) := by
  cases h with
  | same => exact .same _
  | omitted _ full ne_nil mem =>
    rw [List.append_assoc, List.cons_append]
    exact .omitted _ full ne_nil mem

/-- Options for members do not matter. -/
theorem of_format (h : Shortened format imported nameSpace long short)
    (hq : format.qualification = format'.qualification) :
    Shortened format' imported nameSpace long short := by
  cases h with
  | same => exact .same _
  | omitted _ full ne_nil mem => exact .omitted _ (hq ▸ full) ne_nil mem

theorem eq_of_not_mem (h : Shortened format imported nameSpace long short)
    (hkept : format.qualification ≠ .full ∨ (nameSpace ≠ [] → dotted nameSpace ∉ imported)) :
    long = short := by
  cases h with
  | same => rfl
  | omitted _ full ne_nil mem =>
    rcases hkept with hq | hmem
    · exact absurd full hq
    · exact absurd mem (hmem ne_nil)

end Shortened

theorem shortened_typeRuns (h : typeRuns format [] nameSpace types = .ok long)
    (h' : typeRuns format imported nameSpace types = .ok short) :
    Shortened format imported nameSpace long short := by
  have same_of_eq (heq : typeRuns format [] nameSpace types = typeRuns format imported nameSpace types) :
      Shortened format imported nameSpace long short := by
    obtain rfl := Except.ok.inj (h.symm.trans (heq.trans h'))
    exact .same _
  unfold typeRuns at h h' same_of_eq
  cases hq : format.qualification with
  | nameOnly =>
    rw [hq] at same_of_eq
    exact same_of_eq rfl
  | containingTypes =>
    rw [hq] at same_of_eq
    exact same_of_eq rfl
  | full =>
    rw [hq] at h h'
    dsimp only at h h'
    by_cases hnil : nameSpace = []
    · rw [if_pos (.inl hnil)] at h h'
      obtain rfl := Except.ok.inj (h.symm.trans h')
      exact .same _
    · rw [if_neg (by simp [hnil])] at h
      obtain rfl := Except.ok.inj h
      by_cases hmem : dotted nameSpace ∈ imported
      · rw [if_pos (.inr hmem)] at h'
        obtain rfl := Except.ok.inj h'
        exact .omitted _ hq hnil hmem
      · rw [if_neg (by simp [hnil, hmem])] at h'
        obtain rfl := Except.ok.inj h'
        exact .same _

theorem shortened_of_map {x y : Except DisplayError (List Run)} {tail : List Run}
    (hxy : ∀ long short, x = .ok long → y = .ok short →
      Shortened format imported nameSpace long short)
    (hx : x.map (· ++ tail) = .ok long) (hy : y.map (· ++ tail) = .ok short) :
    Shortened format imported nameSpace long short := by
  obtain ⟨a, ha, rfl⟩ := map_eq_ok_iff.1 hx
  obtain ⟨b, hb, rfl⟩ := map_eq_ok_iff.1 hy
  exact (hxy a b ha hb).append_right tail

namespace Symbol

variable {s : Symbol}

theorem memberRuns_eq (s : Symbol) (format : DisplayFormat) (imported : List String) :
    s.memberRuns format imported =
      (if format.members.containingType ∧ s.containingTypes ≠ [] then
        (typeRuns format imported s.nameSpace s.containingTypes).map (· ++ [Run.dot])
      else .ok []).map
        (· ++ ((if format.members.explicitInterface then s.interfaceRuns else []) ++
          [⟨.memberName, s.name⟩])) := by
  unfold memberRuns
  by_cases h : format.members.containingType ∧ s.containingTypes ≠ []
  · rw [if_pos h, if_pos h]
    cases typeRuns format imported s.nameSpace s.containingTypes with
    | error e => rfl
    | ok rs => exact congrArg Except.ok (List.append_assoc ..)
  · rw [if_neg h, if_neg h]
    exact congrArg Except.ok (List.append_assoc ..)

theorem shortened_memberRuns (h : s.memberRuns format [] = .ok long)
    (h' : s.memberRuns format imported = .ok short) :
    Shortened format imported s.nameSpace long short := by
  rw [memberRuns_eq] at h h'
  refine shortened_of_map (fun long short h h' => ?_) h h'
  by_cases htypes : format.members.containingType ∧ s.containingTypes ≠ []
  · rw [if_pos htypes] at h h'
    exact shortened_of_map (fun _ _ => shortened_typeRuns) h h'
  · rw [if_neg htypes] at h h'
    obtain rfl := Except.ok.inj (h.symm.trans h')
    exact .same _

/-- Imported namespaces do nothing but shorten full names. -/
theorem shortened_runs (h : s.runs format [] = .ok long) (h' : s.runs format imported = .ok short) :
    Shortened format imported s.nameSpace long short := by
  cases hkind : s.kind with
  | nameSpace =>
    simp only [runs, hkind] at h h'
    obtain rfl := Except.ok.inj (h.symm.trans h')
    exact .same _
  | type =>
    simp only [runs, hkind] at h h'
    exact shortened_typeRuns h h'
  | ctor =>
    simp only [runs, hkind] at h h'
    exact shortened_of_map (fun _ _ => shortened_typeRuns) h h'
  | method | property | field | event =>
    simp only [runs, hkind] at h h'
    exact shortened_of_map (fun _ _ => shortened_memberRuns) h h'

end Symbol

namespace View

variable {v : View} {identifier : String}

/-- Wherever namespaces are imported, references are shown alike but for the namespaces of the
symbols that they are resolved to. -/
theorem shown_imported (h : v.OfIds) (hnone : v.imported = []) (imported : List String)
    (identifier : String) :
    v.shown identifier = View.shown { v with imported } identifier ∨
      ∃ s, v.lookup identifier = some s ∧
        Shortened v.format imported s.nameSpace (v.shown identifier)
          (View.shown { v with imported } identifier) := by
  have h' : View.OfIds { v with imported } := h
  have hlong := h.shows_shown identifier
  have hshort := h'.shows_shown identifier
  generalize v.shown identifier = long at hlong ⊢
  generalize View.shown { v with imported } identifier = short at hshort ⊢
  cases hlong with
  | symbol hrenders hlookup hlong =>
    right
    refine ⟨_, hlookup, ?_⟩
    cases hshort with
    | symbol _ hlookup' hshort =>
      obtain rfl := Option.some.inj (hlookup.symm.trans hlookup')
      rw [hnone] at hlong
      exact (Symbol.shortened_runs hlong hshort).of_format (by unfold formatFor; split <;> rfl)
    | literal hnot =>
      rcases hnot with hnot | hnot
      · exact absurd (hrenders.symm.trans hnot) (by decide)
      · exact absurd (hlookup.symm.trans hnot) (by simp)
  | literal hnot =>
    left
    cases hshort with
    | symbol hrenders hlookup _ =>
      rcases hnot with hnot | hnot
      · exact absurd (hrenders.symm.trans hnot) (by decide)
      · exact absurd (hlookup.symm.trans hnot) (by simp)
    | literal _ => rfl

end View

end DocComment
