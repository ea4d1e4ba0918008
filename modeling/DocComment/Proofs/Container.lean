import DocComment.Symbol.DocumentationId

/-!
# Where containers are cut

The container of a symbol is cut into a namespace and types, and nothing of it is lost
(`append_cutContainer`). The container of a member has a type wherever there is a container
(`types_cutContainer_ne_nil`). The cut is in front of the first segment that completes the name of a
known type (`cutContainer_of_known`), so it does not matter which types are known further in.
-/

namespace DocComment.WrittenId

variable {typeNames before segments nameSpace types container : List String} {kind : SymbolKind}

theorem append_of_cutAtType?_eq_some
    (h : cutAtType? typeNames before segments = some (nameSpace, types)) :
    nameSpace ++ types = before ++ segments ∧ types ≠ [] := by
  induction segments generalizing before with
  | nil => cases h
  | cons segment rest ih =>
    rw [cutAtType?] at h
    split at h
    · cases h
      exact ⟨rfl, List.cons_ne_nil _ _⟩
    · simpa using ih h

/-- No part of the container is lost. -/
theorem append_cutContainer (typeNames : List String) (kind : SymbolKind) (container : List String) :
    (cutContainer typeNames kind container).1 ++ (cutContainer typeNames kind container).2 =
      container := by
  unfold cutContainer
  split
  · next hcut => exact (append_of_cutAtType?_eq_some hcut).1
  · split
    · exact List.append_nil container
    · rcases List.eq_nil_or_concat container with rfl | ⟨rest, last, rfl⟩
      · rfl
      · simp

theorem types_cutContainer_ne_nil (typeNames : List String) (hkind : kind ≠ .type)
    (h : container ≠ []) : (cutContainer typeNames kind container).2 ≠ [] := by
  unfold cutContainer
  split
  · next hcut => exact (append_of_cutAtType?_eq_some hcut).2
  · obtain ⟨last, hlast⟩ := Option.ne_none_iff_exists'.1 (mt List.getLast?_eq_none_iff.1 h)
    rw [if_neg hkind, hlast]
    exact List.cons_ne_nil _ _

theorem cutAtType?_append {passed : List String}
    (h : ∀ p, p ≠ [] → p <+: passed → dotted (before ++ p) ∉ typeNames) (segments : List String) :
    cutAtType? typeNames before (passed ++ segments) =
      cutAtType? typeNames (before ++ passed) segments := by
  induction passed generalizing before with
  | nil => rw [List.nil_append, List.append_nil]
  | cons segment passed ih =>
    have hsegment : dotted (before ++ [segment]) ∉ typeNames :=
      h [segment] (List.cons_ne_nil _ _) (List.prefix_append [segment] passed)
    have hrest (p : List String) (hne : p ≠ []) (hp : p <+: passed) :
        dotted (before ++ [segment] ++ p) ∉ typeNames := by
      rw [List.append_assoc]
      exact h (segment :: p) (List.cons_ne_nil _ _) ((List.prefix_cons_inj segment).2 hp)
    rw [List.cons_append, cutAtType?, if_neg hsegment, ih hrest, List.append_assoc,
      List.singleton_append]

/-- Where no type is known in the namespace and the type that follows it is known, the cut is
between them. -/
theorem cutContainer_of_known {type : String} (kind : SymbolKind) (types : List String)
    (hnamespace : ∀ p, p ≠ [] → p <+: nameSpace → dotted p ∉ typeNames)
    (htype : dotted (nameSpace ++ [type]) ∈ typeNames) :
    cutContainer typeNames kind (nameSpace ++ type :: types) = (nameSpace, type :: types) := by
  rw [cutContainer, cutAtType?_append hnamespace, List.nil_append, cutAtType?, if_pos htype]

theorem cutContainer_of_unknown
    (h : ∀ p, p ≠ [] → p <+: nameSpace → dotted p ∉ typeNames) :
    cutContainer typeNames .type nameSpace = (nameSpace, []) := by
  have hcut : cutAtType? typeNames [] (nameSpace ++ []) = none := cutAtType?_append h []
  rw [List.append_nil] at hcut
  rw [cutContainer, hcut]
  exact if_pos rfl

end DocComment.WrittenId
