import DocComment.Formatter
import DocComment.Proofs.DeclaredSymbol

/-!
# Unresolved references

A lookup takes the first two characters of an identifier for a marker if the second is a colon. A
reference to no symbol is shown by its identifier without the marker, whatever the first character
is, except where it is a line feed: there the marker is shown as well
(`withoutMarker_eq_behindMarker_iff`).
-/

namespace DocComment.Reference

/-- The identifier without its first two characters, if the second is a colon. -/
def behindMarker (identifier : String) : String :=
  if identifier.toList[1]? = some ':' then String.ofList (identifier.toList.drop 2) else identifier

variable {identifier : String} {c : Char} {rest : List Char}

theorem exists_cons_of_colon {s : List Char} (h : s[1]? = some ':') :
    ∃ c rest, s = c :: ':' :: rest := by
  match s with
  | [] => cases h
  | [_] => cases h
  | c :: d :: rest => exact ⟨c, rest, by rw [Option.some.inj h]⟩

theorem hasMarker_iff : hasMarker identifier = true ↔ identifier.toList[1]? = some ':' := by
  constructor
  · intro h
    unfold hasMarker at h
    split at h
    · next heq => rw [heq]; rfl
    · cases h
  · intro h
    obtain ⟨c, rest, heq⟩ := exists_cons_of_colon h
    rw [hasMarker, heq]
    rfl

theorem lookup_eq (table : SymbolTable) (identifier : String) :
    lookup table identifier =
      if identifier.toList[1]? = some ':' then table.resolve identifier else none := by
  simp only [lookup, hasMarker_iff]

/-! ### The two ways to take a marker off -/

theorem behindMarker_of_toList (h : identifier.toList = c :: ':' :: rest) :
    behindMarker identifier = String.ofList rest := by
  rw [behindMarker, h]
  rfl

theorem withoutMarker_of_ne (h : identifier.toList[1]? ≠ some ':') :
    withoutMarker identifier = identifier := by
  unfold withoutMarker
  split
  · next heq => exact absurd (by rw [heq]; rfl) h
  · rfl

theorem prefix_iff_eq_lineFeed (h : identifier.toList = c :: ':' :: rest) :
    ['\n', ':'] <+: identifier.toList ↔ c = '\n' := by
  rw [h]
  simp [eq_comm]

theorem not_prefix_of_ne (h : identifier.toList[1]? ≠ some ':') :
    ¬ ['\n', ':'] <+: identifier.toList := by
  rintro ⟨rest, heq⟩
  exact h (by rw [← heq]; rfl)

/-- A marker is taken off an identifier unless its character is a line feed. -/
theorem withoutMarker_eq (identifier : String) :
    withoutMarker identifier =
      if ['\n', ':'] <+: identifier.toList then identifier else behindMarker identifier := by
  by_cases h : identifier.toList[1]? = some ':'
  · obtain ⟨c, rest, heq⟩ := exists_cons_of_colon h
    rw [withoutMarker_of_toList heq, behindMarker_of_toList heq]
    simp only [prefix_iff_eq_lineFeed heq]
  · rw [withoutMarker_of_ne h, if_neg (not_prefix_of_ne h), behindMarker, if_neg h]

theorem behindMarker_ne (h : ['\n', ':'] <+: identifier.toList) :
    behindMarker identifier ≠ identifier := by
  obtain ⟨rest, heq⟩ := h
  rw [behindMarker_of_toList heq.symm]
  intro hrest
  have hlength := congrArg List.length heq
  rw [← hrest, String.toList_ofList] at hlength
  simp only [List.append_eq, List.length_append, List.length_cons] at hlength
  omega

/-- A lookup sees a marker where the second character is a colon. Just these two characters are
taken off the identifier, unless the first is a line feed, and then none. A reference to no symbol
is shown by what is left. -/
theorem withoutMarker_eq_behindMarker_iff (identifier : String) :
    (∀ table, lookup table identifier =
      if identifier.toList[1]? = some ':' then table.resolve identifier else none) ∧
    withoutMarker identifier =
      (if ['\n', ':'] <+: identifier.toList then identifier else behindMarker identifier) ∧
    (withoutMarker identifier = behindMarker identifier ↔ ¬ ['\n', ':'] <+: identifier.toList) ∧
    ∀ v : View, v.renders = false ∨ v.lookup identifier = none →
      v.referenceRuns identifier = .ok [Run.plain (withoutMarker identifier)] := by
  refine ⟨fun table => lookup_eq table identifier, withoutMarker_eq identifier, ?_, fun v =>
    View.referenceRuns_of_literal⟩
  rw [withoutMarker_eq]
  split
  · next h => exact iff_of_false (behindMarker_ne h).symm (not_not_intro h)
  · next h => exact iff_of_true rfl h

theorem withoutMarker_eq_behindMarker_accented :
    let v : View := { table := (SymbolTable.ofIds ["T:A"]).toOption }
    v.lookup "é:A" = none ∧ v.referenceRuns "é:A" = .ok [Run.plain "A"] := by
  intro v
  obtain ⟨-, hliteral, -, hshown⟩ := withoutMarker_eq_behindMarker_iff "é:A"
  have hlookup : v.lookup "é:A" = none := by decide +kernel
  refine ⟨hlookup, ?_⟩
  rw [hshown v (.inr hlookup), hliteral]
  rfl

/-- A line feed in a marker is looked up like any other character, but the marker is shown. -/
theorem withoutMarker_of_line_feed :
    let f : Formatter := {}
    hasMarker "\n:A" = true ∧ behindMarker "\n:A" = "A" ∧ withoutMarker "\n:A" = "\n:A" ∧
      ∃ table, SymbolTable.ofIds ["T:A"] = .ok table ∧
        f.formatToString "<see cref=\"&#10;:A\"/>" (some table) = .ok "\n:A" := by
  intro f
  refine ⟨by decide, by decide, by decide, _, rfl, ?_⟩
  exact eq_ok_of_toOption (by decide +kernel)

end DocComment.Reference
