import DocComment.Proofs.DeclaredIds
import DocComment.Reference

/-!
# Marked identifiers

An identifier without a marker is not looked up. All IDs have a marker, so a table of IDs finds
nothing under such an identifier either, unless there are blanks at its start: the table takes them
off and may find the ID behind them, where a lookup sees no marker (`lookup_ofIds`).
-/

namespace DocComment.Reference
open WrittenId

/-- A text that starts with the letter of a kind and a colon. -/
def IsMarked (s : List Char) : Prop :=
  ∃ letter kind rest, (letter, kind) ∈ letters ∧ s = letter :: ':' :: rest

section
variable {s : List Char} {x : String}

theorem hasMarker_of_isMarked (h : IsMarked x.toList) : hasMarker x = true := by
  obtain ⟨letter, kind, rest, -, heq⟩ := h
  rw [hasMarker, heq]
  rfl

theorem isMarked_of_isPrefix {t : List Char} (h : IsMarked s) (hs : s <+: t) : IsMarked t := by
  obtain ⟨letter, kind, rest, hletter, rfl⟩ := h
  obtain ⟨back, rfl⟩ := hs
  exact ⟨letter, kind, rest ++ back, hletter, rfl⟩

/-- Where there are no blanks to take off the start, the marker is at the start. -/
theorem isMarked_of_trim (h : IsMarked (Text.trim s)) (hs : Text.startsBlank s = false) :
    IsMarked s := by
  rw [Text.trim, Text.trimStart_eq_self hs] at h
  exact isMarked_of_isPrefix h (Text.trimEnd_isPrefix s)

/-- A blank is no letter, and the colon behind it is none either. -/
theorem not_isMarked_trim (hs : Text.startsBlank x.toList = true) (h : hasMarker x = true) :
    ¬ IsMarked (Text.trim x.toList) := by
  intro hmarked
  unfold hasMarker at h
  split at h
  · next blank rest heq =>
    rw [heq, Text.startsBlank_cons] at hs
    have htrim : Text.trimStart (blank :: ':' :: rest) = ':' :: rest := by
      rw [Text.trimStart, List.dropWhile_cons_of_pos hs, List.dropWhile_cons_of_neg (by decide)]
    rw [heq, Text.trim, htrim] at hmarked
    obtain ⟨letter, kind, back, hletter, hcolon⟩ :=
      isMarked_of_isPrefix hmarked (Text.trimEnd_isPrefix _)
    obtain rfl := (List.cons.inj hcolon).1
    revert hletter
    cases kind <;> decide
  · cases h

end

/-! ### Tables of IDs -/

variable {ids : List String} {t : SymbolTable} {x : String} {s : Symbol}

theorem isMarked_key_of_ofId {id : String} {typeNames : List String}
    (h : Symbol.ofId id typeNames = .ok s) : IsMarked s.key.toList := by
  obtain ⟨kind, segments, tail, ⟨⟨letter, hletter, heq⟩, -, -, -⟩, -⟩ :=
    (Symbol.exists_ofId_iff typeNames).1 ⟨s, h⟩
  rw [Symbol.key, Symbol.documentationId_of_ofId h, trimmed, String.toList_ofList, heq]
  exact ⟨letter, kind, _, hletter, rfl⟩

theorem isMarked_key (h : SymbolTable.ofIds ids = .ok t) (hs : s ∈ t.symbols) :
    IsMarked s.key.toList := by
  obtain ⟨id, -, hofId⟩ := SymbolTable.exists_mem_of_mem_ofIds h hs
  exact isMarked_key_of_ofId hofId

theorem isMarked_of_resolve (h : SymbolTable.ofIds ids = .ok t) (hs : t.resolve x = some s) :
    IsMarked (Text.trim x.toList) := by
  obtain ⟨hmem, hkey⟩ := SymbolTable.mem_of_resolve hs
  have hmarked := isMarked_key h hmem
  rwa [hkey, trimmed, String.toList_ofList] at hmarked

theorem lookup_eq_resolve (h : SymbolTable.ofIds ids = .ok t)
    (hx : Text.startsBlank x.toList = false) : lookup t x = t.resolve x := by
  rw [lookup]
  split
  · rfl
  · next hmarker =>
    cases hs : t.resolve x with
    | none => rfl
    | some s =>
      exact absurd (hasMarker_of_isMarked (isMarked_of_trim (isMarked_of_resolve h hs) hx)) hmarker

theorem lookup_eq_none (h : SymbolTable.ofIds ids = .ok t)
    (hx : Text.startsBlank x.toList = true) : lookup t x = none := by
  rw [lookup]
  split
  · next hmarker =>
    cases hs : t.resolve x with
    | none => rfl
    | some s => exact absurd (isMarked_of_resolve h hs) (not_isMarked_trim hx hmarker)
  · rfl

/-- All keys of a table of IDs are marked, so a lookup finds what the table finds, except that it
finds nothing under an identifier with blanks at its start. Blanks at the end are no matter. -/
theorem lookup_ofIds (h : SymbolTable.ofIds ids = .ok t) :
    (∀ s ∈ t.symbols, IsMarked s.key.toList) ∧
    ∀ x, lookup t x = (if Text.startsBlank x.toList then none else t.resolve x) ∧
      (lookup t x = t.resolve x ↔ Text.startsBlank x.toList = false ∨ t.resolve x = none) := by
  refine ⟨fun s hs => isMarked_key h hs, fun x => ?_⟩
  cases hx : Text.startsBlank x.toList with
  | false => exact ⟨lookup_eq_resolve h hx, iff_of_true (lookup_eq_resolve h hx) (.inl rfl)⟩
  | true =>
    refine ⟨lookup_eq_none h hx, ?_⟩
    rw [lookup_eq_none h hx]
    simp [eq_comm]

theorem lookup_ofIds_blank_behind :
    ∃ t s, SymbolTable.ofIds ["\nT:A.B", "M:A.B.m "] = .ok t ∧ lookup t "M:A.B.m\t" = some s ∧
      s.containingTypes = ["B"] := by
  obtain ⟨t, h⟩ : ∃ t, SymbolTable.ofIds ["\nT:A.B", "M:A.B.m "] = .ok t := ⟨_, rfl⟩
  have hlookup := ((lookup_ofIds h).2 "M:A.B.m\t").1
  have hdeclared : trimmed "M:A.B.m\t" ∈ ["\nT:A.B", "M:A.B.m "].map trimmed := by decide +kernel
  obtain ⟨s, hs⟩ := SymbolTable.exists_resolve_ofIds h hdeclared
  obtain ⟨-, hofId⟩ := (SymbolTable.resolve_ofIds_eq_some_iff h).1 hs
  have htypes : some ["B"] = some s.containingTypes :=
    congrArg (fun r => r.toOption.map Symbol.containingTypes) hofId
  rw [if_neg (by decide), hs] at hlookup
  exact ⟨t, s, h, hlookup, (Option.some.inj htypes).symm⟩

/-- A blank hides a type that the table finds. -/
theorem lookup_of_blank_in_front :
    ∃ t, SymbolTable.ofIds ["T:A"] = .ok t ∧ lookup t " T:A" = none ∧
      t.resolve " T:A" = some { documentationId := "T:A", kind := .type, name := "A" } :=
  ⟨_, rfl, by decide +kernel, by decide +kernel⟩

end DocComment.Reference
