import DefensiveCopy.Finding.Class
import DefensiveCopy.SymbolTable.Recognition
import DefensiveCopy.SymbolTable.Semantics

/-! # Which copies are necessary

A copy is unnecessary when the member that runs on it provably leaves its receiver alone: it says
so, its receiver type says so, it is a universal member that the type does not replace by a writing
one, or it belongs to a library type whose members are known to write nothing.  All other copies are
necessary. -/

namespace DefensiveCopy.SymbolTable

/-- A universal member leaves values of the type alone: the type does not override it, or overrides
    it by a member of another universal base or by a read-only member. -/
def hasPureUniversal (t : SymbolTable) (type target : Token) : Bool :=
  match (t.overrideFor? type target).bind t.method? with
  | none => true
  | some found => t.isOnUniversalBase found || t.isMethodReadOnly found

/-- The parameter is passed by value and has the first type parameter of a type as its type. -/
def takesFirstTypeParameter (t : SymbolTable) (parameter : Token) : Bool :=
  (t.parameter? parameter).any fun symbol =>
    symbol.refKind == .byValue &&
      ((symbol.type.bind t.type?).bind (·.parameterInfo)).any fun info =>
        info.ordinal == 0 && info.owner.any (·.is .type)

/-- The method is one of the members of the nullable wrapper that only read it. -/
def isPureNullableMember (t : SymbolTable) (method : MethodSymbol) : Bool :=
  let readsWrapper := ["get_HasValue", "get_Value", "GetValueOrDefault"].contains method.name
  if readsWrapper && method.parameters.isEmpty then true
  else if method.name == "GetValueOrDefault" then
    match ((method.definition.bind t.method?).getD method).parameters with
    | [parameter] => t.takesFirstTypeParameter parameter
    | _ => false
  else false

/-- The member that implements an interface method for the type is read-only. -/
def hasReadOnlyImplementation (t : SymbolTable) (type target : Token) : Bool :=
  ((t.findImplementation? type target).bind t.method?).any t.isMethodReadOnly

/-- The method leaves receivers of the type alone, for one of the reasons above. -/
def leavesReceiverAlone (t : SymbolTable) (type : Token) (symbol : TypeSymbol) (target : Token)
    (method : MethodSymbol) : Bool :=
  t.isMethodReadOnly method || symbol.modifiers.isReadOnly ||
  (t.isValueType type && symbol.kind != .typeParameter && t.isOnUniversalBase method &&
    t.hasPureUniversal type target) ||
  symbol.special.isImmutablePrimitive || t.isEnum type ||
  (t.isNullable type && t.isPureNullableMember method) ||
  t.hasEnumConstraint type ||
  (t.isOnInterface method && t.hasReadOnlyImplementation type target)

/-- A call of `target` on a receiver of the given type needs no copy.  Nothing is known about a
    method that does not resolve, and of a receiver type that does not resolve only what the method
    says itself. -/
def isUnnecessary (t : SymbolTable) (type target : Token) : Bool :=
  match t.method? target with
  | none => false
  | some method =>
    match t.type? type with
    | none => t.isMethodReadOnly method
    | some symbol => t.leavesReceiverAlone type symbol target method

/-- The class of the copy that is made to call `target` on a receiver of the given type. -/
def classify (t : SymbolTable) (type target : Token) : FindingClass :=
  if t.isUnnecessary type target then .unnecessary else .necessary

end DefensiveCopy.SymbolTable
