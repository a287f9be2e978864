import DefensiveCopy.Chain
import DefensiveCopy.SymbolTable.Basic

/-! # Members, base types and overrides

The members of a type, the types it derives from, and the method that runs in place of a virtual
one.  All queries are total: a token that resolves to nothing has no members and no base types. -/

namespace DefensiveCopy.SymbolTable

/-! ## Members -/

/-- The generic definition of a constructed type; every other token is its own definition. -/
def definitionOf (t : SymbolTable) (type : Token) : Token :=
  ((t.type? type).bind (·.definition)).getD type

/-- The members of a type.  A constructed type without members of its own has those of its
    definition. -/
def members (t : SymbolTable) (type : Token) : List Token :=
  match t.type? type with
  | none => []
  | some symbol =>
    match symbol.definition with
    | some definition =>
      if symbol.members.isEmpty then ((t.type? definition).map (·.members)).getD []
      else symbol.members
    | none => symbol.members

/-- A token with the method that it addresses. -/
def methodWithToken? (t : SymbolTable) (token : Token) : Option (Token × MethodSymbol) :=
  (t.method? token).map (token, ·)

/-- The methods among the members of a type. -/
def memberMethods (t : SymbolTable) (type : Token) : List (Token × MethodSymbol) :=
  (t.members type).filterMap t.methodWithToken?

/-- The methods with the given name among the members of a type. -/
def methodsNamed (t : SymbolTable) (type : Token) (name : String) : List (Token × MethodSymbol) :=
  (t.memberMethods type).filter (·.2.name == name)

/-! ## Base types -/

/-- The base type of a type, if it resolves. -/
def base? (t : SymbolTable) (type : Token) : Option Token :=
  ((t.type? type).bind (·.base)).filter (t.resolves .type)

/-- A type followed by its base types, most derived first. -/
def typeAndBases (t : SymbolTable) (type : Token) : List Token :=
  if t.resolves .type type then chain t.base? type else []

/-- The methods of a type and its base types, most derived type first. -/
def inheritedMethods (t : SymbolTable) (type : Token) : List (Token × MethodSymbol) :=
  (t.typeAndBases type).flatMap t.memberMethods

/-! ## Overrides -/

/-- The method that a method overrides. -/
def overridden? (t : SymbolTable) (method : Token) : Option Token :=
  (t.method? method).bind (·.overridden)

/-- `target` is `start` or is reached from it by fewer than `fuel` links to an overridden
    method. -/
def overridesWithin (t : SymbolTable) (target : Token) : Nat → Option Token → Bool
  | 0, _ => false
  | _ + 1, none => false
  | fuel + 1, some start =>
    start == target || t.overridesWithin target fuel (t.overridden? start)

/-- The first method of a type or its base types that overrides `method`, directly or through other
    overrides. -/
def overrideFor? (t : SymbolTable) (type method : Token) : Option Token :=
  ((t.inheritedMethods type).find? fun candidate =>
    t.overridesWithin method Chain.limit candidate.2.overridden).map (·.1)

end DefensiveCopy.SymbolTable
