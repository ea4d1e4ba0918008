import Mathlib.Data.List.Sort
import Mathlib.Data.String.Basic
import DocComment.Symbol.Imports

/-!
# Imported namespaces

The scopes of a model are sorted by position, so those up to a position stand in front of all
others. The namespaces in scope there are those of all listed scopes at or before the position, in
whatever order the scopes are listed (`mem_importsAt_ofScopes`). They are listed in their own order
and each once, so they depend on nothing else (`importsAt_congr`): not on how the namespaces at one
position are divided into scopes (`Regrouped`).
-/

namespace DocComment

/-- The elements in front of the first one that fails are all that hold, where none holds behind one
that fails. -/
theorem takeWhile_eq_filter {α : Type} {p : α → Bool} {as : List α}
    (h : as.Pairwise fun a b => p b = true → p a = true) : as.takeWhile p = as.filter p := by
  induction as with
  | nil => rfl
  | cons a as ih =>
    obtain ⟨ha, has⟩ := List.pairwise_cons.1 h
    by_cases hp : p a = true
    · rw [List.takeWhile_cons_of_pos hp, List.filter_cons_of_pos hp, ih has]
    · have hnone : as.filter p = [] :=
        List.filter_eq_nil_iff.2 fun b hb hpb => hp (ha b hb hpb)
      rw [List.takeWhile_cons_of_neg hp, List.filter_cons_of_neg hp, hnone]

theorem nodup_eraseDups : (names : List String) → names.eraseDups.Nodup
  | [] => List.nodup_nil
  | name :: names => by
    rw [List.eraseDups_cons, List.nodup_cons]
    refine ⟨fun hmem => ?_, nodup_eraseDups _⟩
    have hne := (List.mem_filter.1 (List.mem_eraseDups.1 hmem)).2
    rw [beq_self_eq_true] at hne
    exact Bool.false_ne_true hne
termination_by names => names.length
decreasing_by exact Nat.lt_succ_of_le (List.length_filter_le ..)

namespace ImportScope

/-- Whether a scope at or before the position imports the namespace. -/
def IsImported (scopes : List ImportScope) (position : Int) (name : String) : Prop :=
  ∃ scope ∈ scopes, scope.position ≤ position ∧ name ∈ scope.namespaces

/-- The two lists differ in the order of the scopes and in how the namespaces at one position are
divided into scopes. -/
inductive Regrouped : List ImportScope → List ImportScope → Prop where
  | perm {scopes others : List ImportScope} (h : scopes.Perm others) : Regrouped scopes others
  | merge {position : Int} {first second both : List String} {scopes : List ImportScope}
      (h : ∀ name, name ∈ both ↔ name ∈ first ∨ name ∈ second) :
      Regrouped (⟨position, first⟩ :: ⟨position, second⟩ :: scopes) (⟨position, both⟩ :: scopes)
  | symm {scopes others : List ImportScope} (h : Regrouped scopes others) : Regrouped others scopes
  | trans {first second third : List ImportScope} (h : Regrouped first second)
      (h' : Regrouped second third) : Regrouped first third

variable {scopes others : List ImportScope} {position : Int} {name : String}

theorem isImported_cons {scope : ImportScope} : IsImported (scope :: scopes) position name ↔
    (scope.position ≤ position ∧ name ∈ scope.namespaces) ∨ IsImported scopes position name := by
  simp only [IsImported, List.mem_cons, exists_eq_or_imp]

theorem IsImported.mono {position' : Int} (h : IsImported scopes position name)
    (hle : position ≤ position') : IsImported scopes position' name := by
  obtain ⟨scope, hscope, hposition, hname⟩ := h
  exact ⟨scope, hscope, Int.le_trans hposition hle, hname⟩

theorem Regrouped.isImported_iff (h : Regrouped scopes others) :
    IsImported scopes position name ↔ IsImported others position name := by
  induction h with
  | perm h =>
    unfold IsImported
    simp only [h.mem_iff]
  | merge h =>
    rw [isImported_cons, isImported_cons, isImported_cons, ← or_assoc, ← and_or_left, h]
  | symm _ ih => exact ih.symm
  | trans _ _ ih ih' => exact ih.trans ih'

end ImportScope

namespace SemanticModel
open ImportScope

theorem pairwise_scopes (table : SymbolTable) (scopes : List ImportScope) :
    (ofScopes table scopes).scopes.Pairwise fun a b => a.position ≤ b.position :=
  List.pairwise_mergeSort' (Order.Preimage ImportScope.position (· ≤ ·)) scopes

theorem takeWhile_scopes (table : SymbolTable) (scopes : List ImportScope) (position : Int) :
    (ofScopes table scopes).scopes.takeWhile (fun scope => scope.position ≤ position) =
      (ofScopes table scopes).scopes.filter fun scope => scope.position ≤ position := by
  refine takeWhile_eq_filter ((pairwise_scopes table scopes).imp fun hle hposition => ?_)
  exact decide_eq_true (Int.le_trans hle (of_decide_eq_true hposition))

theorem mem_importsAt_ofScopes {table : SymbolTable} {scopes : List ImportScope} {position : Int}
    {name : String} :
    name ∈ (ofScopes table scopes).importsAt (some position) ↔
      ∃ scope ∈ scopes, scope.position ≤ position ∧ name ∈ scope.namespaces := by
  unfold importsAt
  dsimp only
  rw [takeWhile_scopes, List.mem_mergeSort, List.mem_eraseDups, List.mem_flatMap]
  simp only [ofScopes, List.mem_filter, List.mem_mergeSort, decide_eq_true_eq, and_assoc]

theorem nodup_importsAt (m : SemanticModel) (position : Int) :
    (m.importsAt (some position)).Nodup :=
  (List.mergeSort_perm _ _).nodup_iff.2 (nodup_eraseDups _)

theorem pairwise_importsAt (m : SemanticModel) (position : Int) :
    (m.importsAt (some position)).Pairwise (· ≤ ·) :=
  List.pairwise_mergeSort' (· ≤ ·) _

/-- Two models with the same namespaces up to each position import the same. -/
theorem importsAt_congr {table : SymbolTable} {scopes others : List ImportScope}
    (h : ∀ position name, IsImported scopes position name ↔ IsImported others position name)
    (position : Option Int) :
    (ofScopes table scopes).importsAt position = (ofScopes table others).importsAt position := by
  cases position with
  | none => rfl
  | some position =>
    refine List.Perm.eq_of_pairwise' (pairwise_importsAt _ _) (pairwise_importsAt _ _) ?_
    rw [List.perm_ext_iff_of_nodup (nodup_importsAt _ _) (nodup_importsAt _ _)]
    intro name
    rw [mem_importsAt_ofScopes, mem_importsAt_ofScopes]
    exact h position name

/-- At a position there are the namespaces of all scopes at or before it, each once, and none at no
position. The order of the scopes does not matter, nor how the namespaces at one position are
divided into scopes, and what is imported at a position is imported at all behind it. -/
theorem importsAt_ofScopes (table : SymbolTable) (scopes : List ImportScope) :
    (∀ position : Int, ((ofScopes table scopes).importsAt (some position)).Nodup ∧
      ∀ name, name ∈ (ofScopes table scopes).importsAt (some position) ↔
        ∃ scope ∈ scopes, scope.position ≤ position ∧ name ∈ scope.namespaces) ∧
    (∀ others, Regrouped scopes others → ∀ position : Option Int,
      (ofScopes table scopes).importsAt position = (ofScopes table others).importsAt position) ∧
    (∀ before position : Int, before ≤ position →
      (ofScopes table scopes).importsAt (some before) ⊆
        (ofScopes table scopes).importsAt (some position)) ∧
    (ofScopes table scopes).importsAt none = [] := by
  refine ⟨fun position => ⟨nodup_importsAt _ _, fun name => mem_importsAt_ofScopes⟩,
    fun others h => importsAt_congr fun _ _ => h.isImported_iff, ?_, rfl⟩
  intro before position hle name hname
  have himported : IsImported scopes before name := mem_importsAt_ofScopes.1 hname
  exact mem_importsAt_ofScopes.2 (himported.mono hle)

theorem importsAt_ofScopes_divided :
    let far : ImportScope := ⟨-100000000000000000000, ["C"]⟩
    let scopes : List ImportScope := [⟨5, ["B", "A"]⟩, far, ⟨5, ["A", "D"]⟩]
    let others : List ImportScope := [far, ⟨5, ["D", "B", "A"]⟩]
    let before := (ofScopes .empty scopes).importsAt (some (-7))
    let position := (ofScopes .empty scopes).importsAt (some 5)
    Regrouped scopes others ∧ position = (ofScopes .empty others).importsAt (some 5) ∧
      (-7 : Int) ≤ 5 ∧ before ⊆ position ∧ "C" ∈ before ∧ "D" ∉ before ∧ "D" ∈ position := by
  intro far scopes others before position
  have hsort : scopes.Perm [⟨5, ["B", "A"]⟩, ⟨5, ["A", "D"]⟩, far] := (List.Perm.swap ..).cons _
  have hmerge : Regrouped [⟨5, ["B", "A"]⟩, ⟨5, ["A", "D"]⟩, far] [⟨5, ["D", "B", "A"]⟩, far] :=
    .merge fun name => by grind
  have hregrouped : Regrouped scopes others :=
    .trans (.perm hsort) (.trans hmerge (.perm (.swap ..)))
  obtain ⟨himports, hsame, hmono, -⟩ := importsAt_ofScopes .empty scopes
  refine ⟨hregrouped, hsame others hregrouped _, by decide, hmono _ _ (by decide), ?_, ?_, ?_⟩
  · exact ((himports _).2 "C").2 ⟨far, by decide⟩
  · rw [(himports _).2 "D"]
    decide
  · exact ((himports _).2 "D").2 ⟨⟨5, ["A", "D"]⟩, by decide⟩

end SemanticModel

end DocComment
