import DocComment.Proofs.DeclaredIds

/-!
# Members and their enclosing type

The containers of a declared type and of what is in it are cut at the same place: in front of the
first segment that completes the name of a known type, and else in front of the type itself
(`cutContainer_append`). So a member is in the namespace of its type, and in the types around it
(`resolve_enclosed`).
-/

namespace DocComment

namespace WrittenId

variable {typeNames before outer : List String} {type : String}

theorem cutAtType?_append_of_some {nameSpace types : List String} (segments : List String)
    (h : cutAtType? typeNames before outer = some (nameSpace, types)) :
    cutAtType? typeNames before (outer ++ segments) = some (nameSpace, types ++ segments) := by
  induction outer generalizing before with
  | nil => cases h
  | cons segment outer ih =>
    rw [List.cons_append, cutAtType?]
    rw [cutAtType?] at h
    split at h
    · next hknown =>
      cases h
      rw [if_pos hknown, List.cons_append]
    · next hknown => rw [if_neg hknown, ih h]

theorem cutAtType?_append_of_none (segments : List String)
    (h : cutAtType? typeNames before outer = none) :
    cutAtType? typeNames before (outer ++ segments) =
      cutAtType? typeNames (before ++ outer) segments := by
  induction outer generalizing before with
  | nil => rw [List.nil_append, List.append_nil]
  | cons segment outer ih =>
    rw [cutAtType?] at h
    split at h
    · cases h
    · next hknown => rw [List.cons_append, cutAtType?, if_neg hknown, ih h, List.append_assoc]; rfl

/-- What is in a known type has its namespace, and the types around it are those around the type,
the type itself, and all that follows. -/
theorem cutContainer_append (kind : SymbolKind) (rest : List String)
    (h : dotted (outer ++ [type]) ∈ typeNames) :
    cutContainer typeNames kind (outer ++ type :: rest) =
      ((cutContainer typeNames .type outer).1,
        (cutContainer typeNames .type outer).2 ++ type :: rest) := by
  cases houter : cutAtType? typeNames [] outer with
  | some cut =>
    have hcut := cutAtType?_append_of_some (type :: rest) houter
    rw [cutContainer, cutContainer, houter, hcut]
  | none =>
    have hcut : cutAtType? typeNames [] (outer ++ type :: rest) = some (outer, type :: rest) := by
      rw [cutAtType?_append_of_none _ houter, List.nil_append, cutAtType?, if_pos h]
    rw [cutContainer, cutContainer, houter, hcut]
    rfl

end WrittenId

open WrittenId

/-- Where a symbol is does not depend on its name, nor on its parameters. -/
theorem Symbol.containers_of_ofId {id : String} {typeNames : List String} {w : WrittenId} {s : Symbol}
    (h : ofText? (Text.trim id.toList) = some w) (hkind : w.kind ≠ .nameSpace)
    (hs : ofId id typeNames = .ok s) :
    s.nameSpace = (cutContainer typeNames w.kind w.container).1 ∧
      s.containingTypes = (cutContainer typeNames w.kind w.container).2.map Arity.stripped := by
  by_cases hname : w.kind = .method ∧ w.name ∈ constructorNames
  · cases htype : (cutContainer typeNames .method w.container).2.getLast? with
    | none =>
      have hcontainer : w.container = [] := by
        refine Decidable.byContradiction fun hne => ?_
        exact types_cutContainer_ne_nil typeNames (by decide) hne (List.getLast?_eq_none_iff.1 htype)
      cases hs.symm.trans (ofId_constructorWithoutType h hcontainer hname.1 hname.2)
    | some type =>
      obtain rfl := Except.ok.inj (hs.symm.trans (ofId_constructor h hname.1 hname.2 htype))
      rw [hname.1]
      exact ⟨rfl, rfl⟩
  · obtain rfl := Except.ok.inj (hs.symm.trans (ofId_other h hkind hname))
    exact ⟨rfl, rfl⟩

namespace SymbolTable

variable {ids : List String} {t : SymbolTable} {outer rest : List String} {type member : String}
  {kind : SymbolKind} {tail : List Char}

theorem exists_parts_of_concat {s : List Char} {segments : List String} {name : String}
    (h : HasForm s kind (segments ++ [name]) tail) :
    ∃ w, ofText? s = some w ∧ w.kind = kind ∧ w.container = segments ∧ w.name = name := by
  obtain ⟨w, hw, hkind, hsegments, -⟩ := h.exists_parts
  obtain ⟨hcontainer, hname⟩ := List.append_inj' hsegments rfl
  exact ⟨w, hw, hkind, hcontainer, List.singleton_inj.1 hname⟩

/-- A type is known by what its ID says behind the colon. -/
theorem mem_typeNames_of_hasForm {typeId : String} {segments : List String} (hmem : typeId ∈ ids)
    (h : HasForm (Text.trim typeId.toList) .type segments []) :
    dotted segments ∈ typeNames (ids.map trimmed) := by
  obtain ⟨⟨letter, hletter, heq⟩, -⟩ := h
  have hT : letter = 'T' := by
    simpa [letters] using hletter
  have htrim : trimmed typeId = "T:" ++ dotted segments := by
    apply String.toList_inj.1
    rw [trimmed, String.toList_ofList, toList_typeId, heq, hT, List.append_nil]
  rw [mem_typeNames_iff, ← htrim]
  exact List.mem_map_of_mem hmem

/-- Members and nested types are in the namespace of a declared type that they are in, and the types
around them are those around the type, the type itself, and what their IDs say between it and them.
Which other types are declared does not matter. -/
theorem resolve_enclosed (h : ofIds ids = .ok t) {typeId memberId : String}
    (htype : typeId ∈ ids) (hform : HasForm (Text.trim typeId.toList) .type (outer ++ [type]) [])
    (hsharp : '#' ∉ type.toList) (hmember : memberId ∈ ids)
    (hform' : HasForm (Text.trim memberId.toList) kind (outer ++ type :: rest ++ [member]) tail)
    (hkind : kind ≠ .nameSpace) :
    ∃ enclosing s, t.resolve typeId = some enclosing ∧ t.resolve memberId = some s ∧
      s.nameSpace = enclosing.nameSpace ∧
      s.containingTypes =
        enclosing.containingTypes ++ enclosing.name :: rest.map Arity.stripped := by
  have hknown := mem_typeNames_of_hasForm htype hform
  obtain ⟨enclosing, henclosing⟩ := exists_resolve_ofIds h (List.mem_map_of_mem htype)
  obtain ⟨s, hs⟩ := exists_resolve_ofIds h (List.mem_map_of_mem hmember)
  obtain ⟨-, hofId⟩ := (resolve_ofIds_eq_some_iff h).1 henclosing
  obtain ⟨-, hofId'⟩ := (resolve_ofIds_eq_some_iff h).1 hs
  rw [← Text.trim_toList_trimmed] at hform hform'
  obtain ⟨w, hw, hwkind, rfl, rfl⟩ := exists_parts_of_concat hform
  obtain ⟨w', hw', rfl, hcontainer, -⟩ := exists_parts_of_concat hform'
  have hne : w.kind ≠ .nameSpace := by
    rw [hwkind]
    decide
  obtain rfl := Except.ok.inj (hofId.symm.trans (Symbol.ofId_plain hw hne hsharp))
  obtain ⟨hnamespace, htypes⟩ := Symbol.containers_of_ofId hw' hkind hofId'
  rw [hcontainer, cutContainer_append _ _ hknown] at hnamespace htypes
  refine ⟨_, s, henclosing, hs, ?_, ?_⟩
  · rw [hnamespace, hwkind]
  · rw [htypes, hwkind, List.map_append, List.map_cons]

theorem resolve_enclosed_generic :
    HasForm (Text.trim " T:N.Outer`1.Inner".toList) .type (["N", "Outer`1"] ++ ["Inner"]) [] ∧
      HasForm (Text.trim "M:N.Outer`1.Inner.Deep`2.#ctor(p)".toList) .method
        (["N", "Outer`1"] ++ "Inner" :: ["Deep`2"] ++ ["#ctor"]) "(p)".toList ∧
      ∃ t s, ofIds ["M:N.Outer`1.Inner.Deep`2.#ctor(p)", "T:N.Outer`1", " T:N.Outer`1.Inner"] = .ok t ∧
        t.resolve "M:N.Outer`1.Inner.Deep`2.#ctor(p)" = some s ∧ s.nameSpace = ["N"] ∧
        s.containingTypes = ["Outer", "Inner", "Deep"] := by
  have hsegment : ∀ g ∈ ["N", "Outer`1", "Inner"] ++ ["Deep`2", "#ctor"], IsSegment g := by
    unfold IsSegment
    decide
  have hform : HasForm (Text.trim " T:N.Outer`1.Inner".toList) .type
      (["N", "Outer`1"] ++ ["Inner"]) [] :=
    ⟨⟨'T', by decide, by decide⟩, List.cons_ne_nil _ _,
      fun g hg => hsegment g (List.mem_append_left _ hg), .bare .none⟩
  have hform' : HasForm (Text.trim "M:N.Outer`1.Inner.Deep`2.#ctor(p)".toList) .method
      (["N", "Outer`1"] ++ "Inner" :: ["Deep`2"] ++ ["#ctor"]) "(p)".toList :=
    ⟨⟨'M', by decide, by decide⟩, List.cons_ne_nil _ _, hsegment,
      .parameters (p := "p".toList) (by decide) .none⟩
  generalize hids : ["M:N.Outer`1.Inner.Deep`2.#ctor(p)", "T:N.Outer`1", " T:N.Outer`1.Inner"] = ids
  obtain ⟨t, h⟩ : ∃ t, ofIds ids = .ok t := hids ▸ ⟨_, rfl⟩
  have htype : " T:N.Outer`1.Inner" ∈ ids := by simp [← hids]
  have hmember : "M:N.Outer`1.Inner.Deep`2.#ctor(p)" ∈ ids := by simp [← hids]
  obtain ⟨enclosing, s, henclosing, hs, hnamespace, htypes⟩ :=
    resolve_enclosed h htype hform (by decide) hmember hform' (by decide)
  obtain ⟨-, hofId⟩ := (resolve_ofIds_eq_some_iff h).1 henclosing
  have hread : (Symbol.ofId (trimmed " T:N.Outer`1.Inner") (typeNames (ids.map trimmed))).toOption.map
      (fun s => (s.nameSpace, s.containingTypes, s.name)) = some (["N"], ["Outer"], "Inner") := by
    rw [← hids]
    decide +kernel
  rw [hofId] at hread
  have hfields : (enclosing.nameSpace, enclosing.containingTypes, enclosing.name) =
      (["N"], ["Outer"], "Inner") := Option.some.inj hread
  obtain ⟨hnamespace', htypes', hname'⟩ : enclosing.nameSpace = ["N"] ∧
      enclosing.containingTypes = ["Outer"] ∧ enclosing.name = "Inner" := by
    simpa only [Prod.mk.injEq] using hfields
  refine ⟨hform, hform', t, s, h, hs, hnamespace.trans hnamespace', ?_⟩
  rw [htypes, htypes', hname']
  decide

end SymbolTable

end DocComment
