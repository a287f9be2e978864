import DefensiveCopy.Operation.Tree
import DefensiveCopy.SymbolTable.Basic

/-! # The semantic model

A symbol table together with the operations of one document: everything that the analysis asks. -/

namespace DefensiveCopy

/-- The symbols and the operations of a document. -/
structure Model where
  symbols : SymbolTable
  tree : Tree

namespace Model

/-- The operation with the given number. -/
def get? (m : Model) (id : OpId) : Option Operation := m.tree.get? id

/-- The shape of an operation. -/
def shape? (m : Model) (id : OpId) : Option Shape := (m.get? id).map (·.shape)

/-- The static type of an operation. -/
def typeOf? (m : Model) (id : OpId) : Option Token := (m.get? id).bind (·.type)

/-- The innermost member whose declaration covers the start of an operation. -/
def enclosingSymbol? (m : Model) (id : OpId) : Option Token :=
  (m.get? id).bind fun operation => m.tree.enclosingAt? operation.span.start

end Model

end DefensiveCopy
