import DocComment.Symbol.Table

/-!
# Imported namespaces

An import scope brings namespaces into scope from a position in the source onward. A semantic model
is a symbol table with import scopes.
-/

namespace DocComment

/-- Namespaces that are in scope from a position onward. -/
structure ImportScope where
  position : Int
  namespaces : List String
  deriving DecidableEq, Repr, Inhabited

/-- A symbol table, and what is imported where. -/
structure SemanticModel where
  table : SymbolTable
  scopes : List ImportScope
  deriving Repr

namespace SemanticModel

/-- The model with import scopes in any order. Scopes at one position keep their order. -/
def ofScopes (table : SymbolTable) (scopes : List ImportScope) : SemanticModel where
  table
  scopes := scopes.mergeSort fun a b => a.position ≤ b.position

/-- The namespaces in scope at a position, each once and in alphabetical order. -/
def importsAt (m : SemanticModel) : Option Int → List String
  | none => []
  | some position =>
    let scopes := m.scopes.takeWhile fun scope => scope.position ≤ position
    (scopes.flatMap ImportScope.namespaces).eraseDups.mergeSort (· ≤ ·)

end SemanticModel

end DocComment
