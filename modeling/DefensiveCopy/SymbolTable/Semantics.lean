import DefensiveCopy.SymbolTable.Interfaces

/-! # Value and reference semantics, read-only annotations

Whether values of a type are copied or shared, and whether a member promises to leave its receiver
alone.  A type parameter takes its semantics from its constraints, which may be type parameters
themselves; constraint links are followed `Chain.limit` times at most. -/

namespace DefensiveCopy.SymbolTable

/-! ## Values and references -/

/-- The constraint types of a type parameter. -/
def constraintTypes (t : SymbolTable) (type : Token) : List Token :=
  (((t.type? type).bind (·.parameterInfo)).map (·.constraintTypes)).getD []

/-- The values of a type have value semantics, as far as `fuel` steps through constraints tell: it
    is a struct, an enumeration, or a type parameter that is constrained to be a value type or has
    such a type as a constraint. -/
def isValueTypeWithin (t : SymbolTable) : Nat → Token → Bool
  | fuel, type =>
    match t.type? type with
    | none => false
    | some symbol =>
      match symbol.kind with
      | .structType | .enumType => true
      | .typeParameter =>
        match fuel with
        -- Constraints may run in a circle, which ends here.
        | 0 => false
        | fuel + 1 =>
          symbol.parameterInfo.any fun info =>
            info.hasValueTypeConstraint ||
              info.constraintTypes.any fun constraint => t.isValueTypeWithin fuel constraint
      | _ => false

/-- The values of a type have value semantics. -/
def isValueType (t : SymbolTable) (type : Token) : Bool :=
  t.isValueTypeWithin Chain.limit type

/-- A type parameter is constrained to be a reference type, as far as `fuel` steps through
    constraints tell: by the `class` constraint, by a class, delegate or array that is not a
    universal base, or by such a type parameter. -/
def isReferenceParameterWithin (t : SymbolTable) : Nat → Token → Bool
  | 0, _ => false
  | fuel + 1, type =>
    ((t.type? type).bind (·.parameterInfo)).any fun info =>
      info.hasReferenceConstraint ||
        info.constraintTypes.any fun constraint =>
          (t.type? constraint).any fun symbol =>
            match symbol.kind with
            | .classType | .delegateType | .array => !symbol.special.isUniversalBase
            | .typeParameter => t.isReferenceParameterWithin fuel constraint
            | _ => false

/-- The values of a type have reference semantics. -/
def isReferenceType (t : SymbolTable) (type : Token) : Bool :=
  (t.type? type).any fun symbol =>
    match symbol.kind with
    | .classType | .interfaceType | .delegateType | .array | .dynamic => true
    | .typeParameter => t.isReferenceParameterWithin Chain.limit type
    | _ => false

/-- The token resolves to an enumeration. -/
def isEnum (t : SymbolTable) (type : Token) : Bool :=
  (t.type? type).any (·.kind == .enumType)

/-- The type parameter is constrained to be an enumeration. -/
def hasEnumConstraint (t : SymbolTable) (type : Token) : Bool :=
  (t.constraintTypes type).any fun constraint => (t.type? constraint).any (·.special == .enum)

/-! ## Read-only annotations -/

/-- The type is declared read-only. -/
def isTypeReadOnly (t : SymbolTable) (type : Token) : Bool :=
  (t.type? type).any (·.modifiers.isReadOnly)

/-- The containing type of the method is declared read-only. -/
def isContainingTypeReadOnly (t : SymbolTable) (method : MethodSymbol) : Bool :=
  method.containingType.any t.isTypeReadOnly

/-- The method never changes its receiver: it is declared read-only, or it is an instance member of
    a read-only type. -/
def isMethodReadOnly (t : SymbolTable) (method : MethodSymbol) : Bool :=
  method.modifiers.isReadOnly || (!method.isStatic && t.isContainingTypeReadOnly method)

/-- The method is declared on one of the universal base types. -/
def isOnUniversalBase (t : SymbolTable) (method : MethodSymbol) : Bool :=
  (method.containingType.bind t.type?).any (·.special.isUniversalBase)

/-- The method is declared on an interface. -/
def isOnInterface (t : SymbolTable) (method : MethodSymbol) : Bool :=
  (method.containingType.bind t.type?).any (·.kind == .interfaceType)

end DefensiveCopy.SymbolTable
