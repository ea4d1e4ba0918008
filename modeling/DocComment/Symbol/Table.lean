import DocComment.Symbol.DocumentationId

/-!
# Symbol tables

A table holds symbols under their IDs, without the blanks around them. The first symbol that is
declared with an ID keeps it.
-/

namespace DocComment

/-- The key under which tables know a symbol. -/
def Symbol.key (s : Symbol) : String :=
  trimmed s.documentationId

/-- Declared symbols, in the order of declaration. No two have the same key. -/
structure SymbolTable where
  symbols : List Symbol := []
  nodup_keys : (symbols.map Symbol.key).Nodup := by decide
  deriving Repr

namespace SymbolTable

def empty : SymbolTable := {}

def size (t : SymbolTable) : Nat :=
  t.symbols.length

/-- Declares a symbol, unless its key is taken. -/
def add (t : SymbolTable) (s : Symbol) : SymbolTable :=
  if h : s.key ∈ t.symbols.map Symbol.key then t
  else
    { symbols := t.symbols ++ [s]
      nodup_keys := by
        rw [List.map_append, List.nodup_append]
        refine ⟨t.nodup_keys, by simp, ?_⟩
        intro a ha b hb heq
        simp only [List.map_cons, List.map_nil, List.mem_singleton] at hb
        exact h (hb ▸ heq ▸ ha) }

theorem symbols_add (t : SymbolTable) (s : Symbol) :
    (t.add s).symbols =
      if s.key ∈ t.symbols.map Symbol.key then t.symbols else t.symbols ++ [s] := by
  unfold add
  split <;> rfl

/-- The table that declares symbols one after the other. -/
def ofSymbols (symbols : List Symbol) : SymbolTable :=
  symbols.foldl add empty

/-- The symbol that is declared with an ID, whatever blanks are around it. -/
def resolve (t : SymbolTable) (identifier : String) : Option Symbol :=
  t.symbols.find? fun s => s.key = trimmed identifier

/-- The full names of the types among IDs without blanks around them. -/
def typeNames (ids : List String) : List String :=
  ids.filterMap fun id =>
    match id.toList with
    | 'T' :: ':' :: name => some (String.ofList name)
    | _ => none

/-- The table of the symbols with the given IDs. The types among them tell where the namespaces of
the others end. -/
def ofIds (ids : List String) : Except IdError SymbolTable :=
  let ids := ids.map trimmed
  (ids.mapM fun id => Symbol.ofId id (typeNames ids)).map ofSymbols

end SymbolTable

end DocComment
