import DocComment.Proofs.DeclaredIds
import Mathlib.Data.List.Induction

/-!
# First declarations

A table in which symbols are declared one after the other knows under each ID the symbol that was
the first to be declared with it (`records_ofSymbols`). Blanks around an ID make no difference. The
IDs stand in the order in which they first came up, and a later declaration only ever adds a symbol
behind all others: what is found stays found.
-/

namespace DocComment

theorem eraseDups_concat (ids : List String) (id : String) :
    (ids ++ [id]).eraseDups = if id ∈ ids then ids.eraseDups else ids.eraseDups ++ [id] := by
  rw [List.eraseDups_append, List.removeAll]
  split
  · next h => simp [h]
  · next h => simp [h, List.eraseDups_cons]

namespace SymbolTable

/-- The symbol is declared with the ID, and none is before it. -/
def IsFirst (history : List Symbol) (id : String) (s : Symbol) : Prop :=
  ∃ before after, history = before ++ s :: after ∧ trimmed s.documentationId = id ∧
    ∀ r ∈ before, trimmed r.documentationId ≠ id

/-- The table holds what a history of declarations leaves. -/
structure Records (t : SymbolTable) (history : List Symbol) : Prop where
  /-- Under an identifier there is the first symbol with its ID. -/
  resolve_eq_some_iff : ∀ x s, t.resolve x = some s ↔ IsFirst history (trimmed x) s
  /-- There is none where no symbol was declared with the ID. -/
  resolve_eq_none_iff : ∀ x, t.resolve x = none ↔
    ∀ s ∈ history, trimmed s.documentationId ≠ trimmed x
  /-- There are as many symbols as different IDs. -/
  size_eq : t.size = (history.map fun s => trimmed s.documentationId).dedup.length
  /-- The IDs are in the order of their first declarations. -/
  ids_eq : t.symbols.map (fun s => trimmed s.documentationId) =
    (history.map fun s => trimmed s.documentationId).eraseDups

variable {t : SymbolTable} {history later : List Symbol} {x id : String} {s : Symbol}

/-! ### One declaration after another -/

theorem prefix_symbols_add (t : SymbolTable) (s : Symbol) : t.symbols <+: (t.add s).symbols := by
  rw [symbols_add]
  split
  · exact List.prefix_rfl
  · exact List.prefix_append _ _

theorem prefix_symbols_foldl_add (t : SymbolTable) (later : List Symbol) :
    t.symbols <+: (later.foldl add t).symbols := by
  induction later generalizing t with
  | nil => exact List.prefix_rfl
  | cons s later ih => exact (prefix_symbols_add t s).trans (ih (t.add s))

theorem resolve_foldl_add_of_some (h : t.resolve x = some s) :
    (later.foldl add t).resolve x = some s := by
  rw [resolve_foldl_add, h, Option.some_or]

/-! ### The whole history -/

theorem find?_eq_some_iff_isFirst :
    (history.find? fun s => s.key = id) = some s ↔ IsFirst history id s := by
  rw [List.find?_eq_some_iff_append]
  simp only [decide_eq_true_eq, Bool.not_eq_true', decide_eq_false_iff_not]
  constructor
  · rintro ⟨hs, before, after, heq, hbefore⟩
    exact ⟨before, after, heq, hs, hbefore⟩
  · rintro ⟨before, after, heq, hs, hbefore⟩
    exact ⟨hs, before, after, heq, hbefore⟩

theorem ofSymbols_concat (history : List Symbol) (s : Symbol) :
    ofSymbols (history ++ [s]) = (ofSymbols history).add s :=
  List.foldl_concat ..

/-- The keys of a table are those of its history, each where it first came up. -/
theorem keys_ofSymbols (history : List Symbol) :
    (ofSymbols history).symbols.map Symbol.key = (history.map Symbol.key).eraseDups := by
  induction history using List.reverseRecOn with
  | nil => rfl
  | append_singleton history s ih =>
    rw [ofSymbols_concat, symbols_add, List.map_append, List.map_singleton, eraseDups_concat, ← ih]
    -- the key of `s` is taken in the table exactly if it came up in the history
    simp only [mem_keys_ofSymbols]
    split
    · rfl
    · rw [List.map_append, List.map_singleton]

/-- Whatever symbols are declared, a table finds under each identifier the first that had its ID. It
has one symbol for each ID, in the order of their first declarations. More declarations change
neither what is found nor the order. -/
theorem records_ofSymbols (history : List Symbol) :
    (ofSymbols history).Records history ∧ ∀ later : List Symbol,
      (∀ x s, (ofSymbols history).resolve x = some s →
        (later.foldl add (ofSymbols history)).resolve x = some s) ∧
      (ofSymbols history).symbols <+: (later.foldl add (ofSymbols history)).symbols := by
  refine ⟨⟨fun x s => ?_, fun x => ?_, ?_, keys_ofSymbols history⟩, fun later =>
    ⟨fun x s => resolve_foldl_add_of_some, prefix_symbols_foldl_add _ later⟩⟩
  · rw [resolve_ofSymbols, find?_eq_some_iff_isFirst]
  · rw [resolve_ofSymbols, List.find?_eq_none]
    simp only [decide_eq_true_eq]
    rfl
  · exact size_eq_length_dedup fun _ => mem_keys_ofSymbols

theorem records_ofSymbols_respelled :
    let first : Symbol := { documentationId := "T:A\n", kind := .type, name := "A" }
    let respelled : Symbol := { documentationId := " T:A", kind := .field, name := "f" }
    let other : Symbol := { documentationId := "M:A.m", kind := .method, name := "m" }
    let t := ofSymbols [other, first, respelled]
    let t' := [{ respelled with documentationId := "F:A.f" }, respelled].foldl add t
    t.resolve "T:A " = some first ∧ t.resolve "F:A.f" = none ∧ t.size = 2 ∧
      t.symbols.map Symbol.key = ["M:A.m", "T:A"] ∧
      t'.resolve "T:A " = some first ∧ t.symbols <+: t'.symbols := by
  intro first respelled other t t'
  obtain ⟨hrecords, hlater⟩ := records_ofSymbols [other, first, respelled]
  obtain ⟨hkept, hprefix⟩ := hlater [{ respelled with documentationId := "F:A.f" }, respelled]
  have hfirst : t.resolve "T:A " = some first :=
    (hrecords.resolve_eq_some_iff _ _).2 ⟨[other], [respelled], rfl, by decide, by decide⟩
  refine ⟨hfirst, (hrecords.resolve_eq_none_iff _).2 (by decide), ?_, ?_, hkept _ _ hfirst, hprefix⟩
  · rw [hrecords.size_eq]
    decide
  · exact hrecords.ids_eq.trans (by decide)

end SymbolTable

end DocComment
