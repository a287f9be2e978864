import DefensiveCopy.SymbolTable.Semantics

/-! # The context of code

What the member around a piece of code allows it to do with `this` and with read-only fields. -/

namespace DefensiveCopy

/-- What code may do where it stands. -/
structure MemberContext where
  /-- `this` may only be read: the member is read-only or belongs to a read-only type. -/
  isReadOnlyMember : Bool := false
  /-- Read-only fields of `this` may still be written: the code belongs to a constructor or to an
      `init` accessor. -/
  allowsMutatingThis : Bool := false
  /-- The type whose static fields are being initialized. -/
  staticInitializerType : Option Token := none
  deriving DecidableEq, Inhabited

namespace MemberContext

/-- The method receives `this` by read-only reference. -/
def receivesReadOnlyThis (t : SymbolTable) (method : MethodSymbol) : Bool :=
  !method.isExtension && t.isMethodReadOnly method

/-- The context of the body of a method. -/
def ofMethod (t : SymbolTable) (method : MethodSymbol) : MemberContext where
  isReadOnlyMember := receivesReadOnlyThis t method
  allowsMutatingThis :=
    !method.isExtension && !method.isStatic &&
      (method.isInitOnly || method.kind == .instanceConstructor)
  staticInitializerType :=
    if method.kind = .staticConstructor then method.containingType else none

/-- The context of code inside a member: a method, the initializer of a field, or a property, which
    counts as its getter. -/
def of (t : SymbolTable) (enclosing : Option Token) : MemberContext :=
  match enclosing with
  | none => {}
  | some symbol =>
    match symbol.kind? with
    | some .field =>
      { staticInitializerType :=
          ((t.field? symbol).filter (·.isStatic)).bind (·.containingType) }
    | some .method => ((t.method? symbol).map (ofMethod t)).getD {}
    | some .property =>
      { isReadOnlyMember :=
          (((t.property? symbol).bind (·.getter)).bind t.method?).any (receivesReadOnlyThis t) }
    | _ => {}

end MemberContext

end DefensiveCopy
