import DefensiveCopy.SymbolTable.Basic

/-! # Registering symbols

Registration adds one symbol to the table and hands out its token: the kind of the symbol and the
next free row.  It also completes the links in the other direction.  A method, field, property or
event becomes the last member of its containing type, a parameter the last one of its method, and
the accessors of a property or event learn what they belong to.

Symbols that the new one names are looked up first, in a fixed order, and the first one that does
not resolve is the error.  A failed registration leaves a table behind as well: a step of
`Registration` returns the table it ends with whether it succeeds or fails.

A property or event links its accessors before its containing type is looked up. -/

namespace DefensiveCopy

/-- A change of the symbol table that may fail; the table it ends with is kept either way. -/
abbrev Registration := EStateM SymbolError SymbolTable

namespace SymbolTable

/-! ## Steps -/

/-- Fails unless the token resolves to a symbol of the given kind. -/
def require (kind : SymbolKind) (token : Token) : Registration Unit := fun t =>
  if t.resolves kind token then .ok () t else .error (.unresolved token) t

/-- Fails at the first token of the list that does not resolve to a symbol of the given kind. -/
def requireAll (kind : SymbolKind) (tokens : List Token) : Registration Unit :=
  tokens.forM (require kind)

/-- The token of the next symbol of a kind. -/
def nextToken (kind : SymbolKind) : Registration Token := fun t =>
  match tokenAfter? kind (t.count kind) with
  | some token => .ok token t
  | none => .error (.tableFull kind) t

/-- How many ordinals there are for the parameters of a method. -/
def ordinalLimit : Nat := 0x100000000

/-- Fails unless a parameter of the method can have the ordinal. -/
def requireOrdinal (method : Token) (ordinal : Nat) : Registration Unit := fun t =>
  if ordinal < ordinalLimit then .ok () t else .error (.tooManyParameters method) t

/-- Edits the symbol of the given kind that a token addresses. -/
def edit (kind : SymbolKind) (token : Token) (f : Symbol kind → Symbol kind) :
    Registration Unit := do
  require kind token
  modifyGet fun t => ((), t.modify kind token f)

/-- Appends a symbol to the arena of its kind. -/
def store (kind : SymbolKind) (symbol : Symbol kind) : Registration Unit :=
  modifyGet fun t => ((), t.push kind symbol)

/-- Appends a member to its containing type, if it has one. -/
def joinType (containingType : Option Token) (member : Token) : Registration Unit :=
  match containingType with
  | some type => edit .type type fun symbol => { symbol with members := symbol.members ++ [member] }
  | none => pure ()

/-- Tells the accessors of a property or event what they belong to. -/
def linkAccessors (accessors : List Token) (owner : Token) : Registration Unit :=
  accessors.forM fun accessor =>
    edit .method accessor fun symbol => { symbol with associated := some owner }

/-! ## Registration of each kind -/

def addAssembly (assembly : AssemblySymbol) : Registration Token := do
  let token ← nextToken .assembly
  store .assembly assembly
  return token

def addModule (module : ModuleSymbol) : Registration Token := do
  requireAll .assembly module.assembly.toList
  let token ← nextToken .module
  store .module module
  return token

/-- Registers a type.  A nested type names its containing type but is not one of its members. -/
def addType (type : TypeSymbol) : Registration Token := do
  requireAll .type
    (type.base.toList ++ type.containingType.toList ++ type.definition.toList)
  requireAll .module type.module.toList
  let token ← nextToken .type
  store .type type
  return token

/-- The type that a generic definition becomes with the given type arguments.  Its members stay
    with the definition. -/
def constructed (definition : Token) (symbol : TypeSymbol) (typeArguments : List Token) :
    TypeSymbol where
  name := symbol.name
  namespaceName := symbol.namespaceName
  kind := symbol.kind
  special := symbol.special
  modifiers := symbol.modifiers
  base := symbol.base
  containingType := symbol.containingType
  module := symbol.module
  interfaces := symbol.interfaces
  attributes := symbol.attributes
  -- Members and type parameter information stay with the definition.
  typeArguments := typeArguments
  definition := some definition

/-- Registers the type that a generic definition becomes with the given type arguments. -/
def construct (definition : Token) (typeArguments : List Token) : Registration Token := do
  requireAll .type typeArguments
  match (← get).type? definition with
  | some symbol => addType (constructed definition symbol typeArguments)
  | none => throw (.unresolved definition)

def addMethod (method : MethodSymbol) : Registration Token := do
  requireAll .type method.returnType.toList
  requireAll .method
    (method.containingMethod.toList ++ method.overridden.toList ++ method.definition.toList)
  requireAll .method method.implements
  let token ← nextToken .method
  joinType method.containingType token
  store .method method
  return token

/-- Registers a parameter of a method.  Its ordinal and its method are set by its position. -/
def addParameter (method : Token) (parameter : ParameterSymbol) : Registration Token := do
  requireAll .type parameter.type.toList
  let token ← nextToken .parameter
  match (← get).method? method with
  | some owner =>
    requireOrdinal method owner.parameters.length
    edit .method method fun symbol => { symbol with parameters := symbol.parameters ++ [token] }
    store .parameter
      { parameter with ordinal := owner.parameters.length, containingMethod := some method }
    return token
  | none => throw (.unresolved method)

/-- Fails unless the token resolves to a property or an event. -/
def requireAssociated (token : Token) : Registration Unit :=
  match token.kind? with
  | some .property => require .property token
  | some .event => require .event token
  | _ => throw (.unresolved token)

def addField (field : FieldSymbol) : Registration Token := do
  requireAll .type field.type.toList
  field.associated.toList.forM requireAssociated
  let token ← nextToken .field
  joinType field.containingType token
  store .field field
  return token

/-- Registers a property.  Its accessors are linked to it before its containing type is looked
    up. -/
def addProperty (property : PropertySymbol) : Registration Token := do
  requireAll .type property.type.toList
  let token ← nextToken .property
  let accessors := property.getter.toList ++ property.setter.toList
  requireAll .method accessors
  linkAccessors accessors token
  joinType property.containingType token
  store .property property
  return token

/-- Registers an event.  Its accessors are linked to it before its containing type is looked up. -/
def addEvent (event : EventSymbol) : Registration Token := do
  requireAll .type event.type.toList
  let token ← nextToken .event
  let accessors := event.adder.toList ++ event.remover.toList
  requireAll .method accessors
  linkAccessors accessors token
  joinType event.containingType token
  store .event event
  return token

def addSlot (slot : SlotSymbol) : Registration Token := do
  requireAll .type slot.type.toList
  let token ← nextToken .slot
  store .slot slot
  return token

end SymbolTable

end DefensiveCopy
