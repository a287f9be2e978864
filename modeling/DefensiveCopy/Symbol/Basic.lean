import DefensiveCopy.Symbol.Vocabulary
import DefensiveCopy.Token

/-! # Symbol records

One record for each kind of symbol.  Symbols refer to each other by token only, so a record is plain
data: it may name symbols that do not exist, and it is for the symbol table to say which tokens
resolve.

Three lists are filled in by registration and start out empty: the members of a type, the
parameters of a method, and the property or event that a method is an accessor of. -/

namespace DefensiveCopy

/-- Modifiers of a type. -/
structure TypeModifiers where
  isReadOnly : Bool := false
  isRefLike : Bool := false
  isStatic : Bool := false
  deriving DecidableEq, Inhabited

/-- Modifiers of a method. -/
structure MethodModifiers where
  isStatic : Bool := false
  isReadOnly : Bool := false
  isInitOnly : Bool := false
  isExtension : Bool := false
  isVirtual : Bool := false
  isAbstract : Bool := false
  deriving DecidableEq, Inhabited

/-- Modifiers of a field. -/
structure FieldModifiers where
  isStatic : Bool := false
  isReadOnly : Bool := false
  isConst : Bool := false
  deriving DecidableEq, Inhabited

/-- What is known about a generic type parameter: its position, its owner and its constraints. -/
structure TypeParameterInfo where
  ordinal : Nat := 0
  owner : Option Token := none
  hasReferenceConstraint : Bool := false
  hasValueTypeConstraint : Bool := false
  hasUnmanagedConstraint : Bool := false
  allowsRefLike : Bool := false
  constraintTypes : List Token := []
  deriving DecidableEq, Inhabited

/-- A type: declared, constructed from a generic definition, a type parameter or a pointer. -/
structure TypeSymbol where
  name : String
  namespaceName : String := ""
  kind : TypeKind
  special : SpecialType := .ordinary
  modifiers : TypeModifiers := {}
  base : Option Token := none
  containingType : Option Token := none
  module : Option Token := none
  interfaces : List Token := []
  members : List Token := []
  typeArguments : List Token := []
  definition : Option Token := none
  parameterInfo : Option TypeParameterInfo := none
  pointee : Option Token := none
  attributes : List Token := []
  deriving DecidableEq, Inhabited

namespace TypeSymbol

/-- The metadata name, with the namespace in front if there is one. -/
def fullName (type : TypeSymbol) : String :=
  if type.namespaceName.isEmpty then type.name else type.namespaceName ++ "." ++ type.name

/-- The generic type parameter with the given name. -/
def typeParameter (name : String) (info : TypeParameterInfo) : TypeSymbol :=
  { name, kind := .typeParameter, parameterInfo := some info }

/-- The unmanaged pointer to a type. -/
def pointerTo (pointee : Token) : TypeSymbol :=
  { name := "*", kind := .pointer, pointee := some pointee }

end TypeSymbol

/-- A method, accessor, operator, lambda or local function. -/
structure MethodSymbol where
  name : String
  kind : MethodKind := .ordinary
  modifiers : MethodModifiers := {}
  refKind : RefKind := .byValue
  returnType : Option Token := none
  parameters : List Token := []
  containingType : Option Token := none
  containingMethod : Option Token := none
  associated : Option Token := none
  overridden : Option Token := none
  implements : List Token := []
  definition : Option Token := none
  accessibility : Accessibility := .publicAccess
  attributes : List Token := []
  deriving DecidableEq, Inhabited

namespace MethodSymbol

def isStatic (method : MethodSymbol) : Bool := method.modifiers.isStatic

def isExtension (method : MethodSymbol) : Bool := method.modifiers.isExtension

def isInitOnly (method : MethodSymbol) : Bool := method.modifiers.isInitOnly

/-- The method hands back a reference that must not be written through. -/
def returnsByRefReadOnly (method : MethodSymbol) : Bool := method.refKind == .byRefReadOnly

end MethodSymbol

/-- A method parameter.  A primary parameter belongs to the primary constructor of its type and is
    kept as storage of that type. -/
structure ParameterSymbol where
  name : String
  ordinal : Nat := 0
  refKind : RefKind := .byValue
  type : Option Token := none
  containingMethod : Option Token := none
  isPrimary : Bool := false
  attributes : List Token := []
  deriving DecidableEq, Inhabited

/-- A field.  A backing field is associated with the property or event that it stores. -/
structure FieldSymbol where
  name : String
  modifiers : FieldModifiers := {}
  refKind : RefKind := .byValue
  type : Option Token := none
  containingType : Option Token := none
  associated : Option Token := none
  accessibility : Accessibility := .publicAccess
  attributes : List Token := []
  deriving DecidableEq, Inhabited

namespace FieldSymbol

def isStatic (field : FieldSymbol) : Bool := field.modifiers.isStatic

def isReadOnly (field : FieldSymbol) : Bool := field.modifiers.isReadOnly

end FieldSymbol

/-- A property or an indexer. -/
structure PropertySymbol where
  name : String
  isIndexer : Bool := false
  refKind : RefKind := .byValue
  type : Option Token := none
  getter : Option Token := none
  setter : Option Token := none
  containingType : Option Token := none
  attributes : List Token := []
  deriving DecidableEq, Inhabited

namespace PropertySymbol

/-- The property hands back a reference that must not be written through. -/
def returnsByRefReadOnly (property : PropertySymbol) : Bool := property.refKind == .byRefReadOnly

end PropertySymbol

/-- An event with its two accessors. -/
structure EventSymbol where
  name : String
  type : Option Token := none
  adder : Option Token := none
  remover : Option Token := none
  containingType : Option Token := none
  attributes : List Token := []
  deriving DecidableEq, Inhabited

/-- A local variable. -/
structure SlotSymbol where
  name : String
  refKind : RefKind := .byValue
  type : Option Token := none
  deriving DecidableEq, Inhabited

/-- A module of an assembly. -/
structure ModuleSymbol where
  name : String
  assembly : Option Token := none
  attributes : List Token := []
  deriving DecidableEq, Inhabited

/-- An assembly. -/
structure AssemblySymbol where
  name : String
  attributes : List Token := []
  deriving DecidableEq, Inhabited

/-- The record type of each kind of symbol. -/
abbrev Symbol : SymbolKind → Type
  | .module => ModuleSymbol
  | .type => TypeSymbol
  | .field => FieldSymbol
  | .method => MethodSymbol
  | .parameter => ParameterSymbol
  | .slot => SlotSymbol
  | .event => EventSymbol
  | .property => PropertySymbol
  | .assembly => AssemblySymbol

namespace Symbol

/-- The name of a symbol of any kind. -/
def name : {kind : SymbolKind} → Symbol kind → String
  | .module, symbol => ModuleSymbol.name symbol
  | .type, symbol => TypeSymbol.name symbol
  | .field, symbol => FieldSymbol.name symbol
  | .method, symbol => MethodSymbol.name symbol
  | .parameter, symbol => ParameterSymbol.name symbol
  | .slot, symbol => SlotSymbol.name symbol
  | .event, symbol => EventSymbol.name symbol
  | .property, symbol => PropertySymbol.name symbol
  | .assembly, symbol => AssemblySymbol.name symbol

/-- The attribute classes applied to a symbol of any kind; a local variable has none. -/
def attributes : {kind : SymbolKind} → Symbol kind → List Token
  | .module, symbol => ModuleSymbol.attributes symbol
  | .type, symbol => TypeSymbol.attributes symbol
  | .field, symbol => FieldSymbol.attributes symbol
  | .method, symbol => MethodSymbol.attributes symbol
  | .parameter, symbol => ParameterSymbol.attributes symbol
  | .slot, _ => []
  | .event, symbol => EventSymbol.attributes symbol
  | .property, symbol => PropertySymbol.attributes symbol
  | .assembly, symbol => AssemblySymbol.attributes symbol

end Symbol

end DefensiveCopy
