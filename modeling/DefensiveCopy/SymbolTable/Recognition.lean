import DefensiveCopy.Symbol.WellKnown
import DefensiveCopy.SymbolTable.Ancestry

/-! # Recognising library types and attributes

A library type is recognised by the full name of its definition, provided that it is neither nested
nor a type parameter.  A symbol carries an attribute when one of its attribute classes is recognised
as that attribute. -/

namespace DefensiveCopy.SymbolTable

/-- The well-known type that a type is or is constructed from. -/
def wellKnown? (t : SymbolTable) (type : Token) : Option WellKnownType :=
  (t.type? (t.definitionOf type)).bind fun symbol =>
    if symbol.kind == .typeParameter || symbol.containingType.isSome then none
    else WellKnownType.ofFullName? symbol.fullName

/-- The type is the nullable wrapper or is constructed from it. -/
def isNullable (t : SymbolTable) (type : Token) : Bool :=
  t.wellKnown? type == some .nullable

/-- The symbol carries the attribute. -/
def hasAttribute (t : SymbolTable) (token : Token) (marker : WellKnownType) : Bool :=
  (t.attributesOf token).any fun attributeClass => t.wellKnown? attributeClass == some marker

end DefensiveCopy.SymbolTable
