import DefensiveCopy.Chain
import DefensiveCopy.SymbolTable.Recognition

/-! # Containers and generated code

Every symbol has at most one container: a method its containing method or else its containing type,
a field, property or event its containing type, a type its containing type or else its module, a
module its assembly.  Code is generated when its symbol or one of the containers around it carries
the marker attribute, or when the property or event of a method or field on the way does.

Containers are followed without a limit.  Only resolved symbols have a container, so a walk that
has not come to its end after as many steps as there are symbols goes round in a circle; such a walk
never ends, and `generatedFrom` answers `none` for it. -/

namespace DefensiveCopy.SymbolTable

/-! ## Containers -/

/-- The symbol that a symbol is declared in. -/
def container? (t : SymbolTable) (token : Token) : Option Token :=
  match token.kind? with
  | some .method =>
    (t.method? token).bind fun method => method.containingMethod.or method.containingType
  | some .field => (t.field? token).bind (·.containingType)
  | some .property => (t.property? token).bind (·.containingType)
  | some .event => (t.event? token).bind (·.containingType)
  | some .type => (t.type? token).bind fun type => type.containingType.or type.module
  | some .module => (t.module? token).bind (·.assembly)
  | _ => none

/-- The property or event that a method or field belongs to. -/
def associated? (t : SymbolTable) (token : Token) : Option Token :=
  match token.kind? with
  | some .method => (t.method? token).bind (·.associated)
  | some .field => (t.field? token).bind (·.associated)
  | _ => none

/-! ## Generated code -/

/-- The symbol, or the property or event that it belongs to, is marked as generated. -/
def isMarkedGenerated (t : SymbolTable) (token : Token) : Bool :=
  t.hasAttribute token .compilerGenerated ||
    (t.associated? token).any (t.hasAttribute · .compilerGenerated)

/-- Whether one of the first `fuel` symbols of the walk from `token` through its containers is
    marked as generated; `none` if neither a mark nor the end of the walk is among them. -/
def generatedFrom (t : SymbolTable) : Nat → Token → Option Bool
  | 0, _ => none
  | fuel + 1, token =>
    if t.isMarkedGenerated token then some true
    else
      match t.container? token with
      | some container => t.generatedFrom fuel container
      | none => some false

/-- Whether a symbol is generated code; `none` if its containers run in a circle without a mark. -/
def isGenerated? (t : SymbolTable) (token : Token) : Option Bool :=
  t.generatedFrom (t.size + 1) token

/-! ## The declaring type of code -/

/-- The type around a symbol, found within `fuel` methods. -/
def declaringTypeWithin (t : SymbolTable) : Nat → Token → Option Token
  | 0, _ => none
  | fuel + 1, token =>
    match token.kind? with
    | some .method =>
      (t.method? token).bind fun method =>
        match method.containingType with
        | some type => some type
        -- A local function belongs to the type of the method around it.
        | none => method.containingMethod.bind (t.declaringTypeWithin fuel)
    | some .field => (t.field? token).bind (·.containingType)
    | some .property => (t.property? token).bind (·.containingType)
    | some .event => (t.event? token).bind (·.containingType)
    | some .type => (t.type? token).bind (·.containingType)
    | _ => none

/-- The type around a symbol, looking through lambdas and local functions to their methods. -/
def declaringType? (t : SymbolTable) (token : Token) : Option Token :=
  t.declaringTypeWithin Chain.limit token

end DefensiveCopy.SymbolTable
