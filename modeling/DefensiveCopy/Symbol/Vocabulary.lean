/-! # The vocabulary of symbols

The closed sets of words that symbols are described with: what kind of type or method a symbol is,
which role it plays in the core library, how a value is passed, and who may use a member.  Each set
lists its words (`all`) and spells them (`name`). -/

namespace DefensiveCopy

/-- What a type symbol is. -/
inductive TypeKind where
  | classType
  | structType
  | interfaceType
  | enumType
  | delegateType
  | typeParameter
  | pointer
  | array
  | dynamic
  | error
  deriving DecidableEq, Inhabited

namespace TypeKind

def all : List TypeKind :=
  [.classType, .structType, .interfaceType, .enumType, .delegateType, .typeParameter, .pointer,
   .array, .dynamic, .error]

def name : TypeKind → String
  | .classType => "Class"
  | .structType => "Struct"
  | .interfaceType => "Interface"
  | .enumType => "Enum"
  | .delegateType => "Delegate"
  | .typeParameter => "TypeParameter"
  | .pointer => "Pointer"
  | .array => "Array"
  | .dynamic => "Dynamic"
  | .error => "Error"

end TypeKind

/-- The fixed role of a type in the core library; most types are `ordinary`. -/
inductive SpecialType where
  | ordinary
  | object
  | valueType
  | enum
  | void
  | string
  | boolean
  | char
  | sbyte
  | byte
  | int16
  | uint16
  | int32
  | uint32
  | int64
  | uint64
  | single
  | double
  | intPtr
  | uintPtr
  | decimal
  | dateTime
  deriving DecidableEq, Inhabited

namespace SpecialType

def all : List SpecialType :=
  [.ordinary, .object, .valueType, .enum, .void, .string, .boolean, .char, .sbyte, .byte, .int16,
   .uint16, .int32, .uint32, .int64, .uint64, .single, .double, .intPtr, .uintPtr, .decimal,
   .dateTime]

def name : SpecialType → String
  | .ordinary => "None"
  | .object => "Object"
  | .valueType => "ValueType"
  | .enum => "Enum"
  | .void => "Void"
  | .string => "String"
  | .boolean => "Boolean"
  | .char => "Char"
  | .sbyte => "SByte"
  | .byte => "Byte"
  | .int16 => "Int16"
  | .uint16 => "UInt16"
  | .int32 => "Int32"
  | .uint32 => "UInt32"
  | .int64 => "Int64"
  | .uint64 => "UInt64"
  | .single => "Single"
  | .double => "Double"
  | .intPtr => "IntPtr"
  | .uintPtr => "UIntPtr"
  | .decimal => "Decimal"
  | .dateTime => "DateTime"

/-- The three types at the root of all others, which declare the members that every value has:
    `ToString`, `Equals` and `GetHashCode`. -/
def isUniversalBase : SpecialType → Bool
  | .object | .valueType | .enum => true
  | _ => false

/-- The primitive value types.  None of their members changes its receiver, whether the core
    library says so or not. -/
def isImmutablePrimitive : SpecialType → Bool
  | .ordinary | .object | .valueType | .enum | .void | .string => false
  | _ => true

/-- The primitive value types in the order in which the core library declares them. -/
def primitives : List SpecialType := all.filter isImmutablePrimitive

end SpecialType

/-- How a value is passed, returned or stored. -/
inductive RefKind where
  | byValue
  | byRef
  | byIn
  | byRefReadOnly
  | byOut
  | byRefReadOnlyParameter
  deriving DecidableEq, Inhabited

namespace RefKind

def all : List RefKind :=
  [.byValue, .byRef, .byIn, .byRefReadOnly, .byOut, .byRefReadOnlyParameter]

def name : RefKind → String
  | .byValue => "None"
  | .byRef => "Ref"
  | .byIn => "In"
  | .byRefReadOnly => "RefReadOnly"
  | .byOut => "Out"
  | .byRefReadOnlyParameter => "RefReadOnlyParameter"

end RefKind

/-- Who may use a member. -/
inductive Accessibility where
  | publicAccess
  | internalAccess
  | protectedInternal
  | protectedAccess
  | privateProtected
  | privateAccess
  deriving DecidableEq, Inhabited

namespace Accessibility

def all : List Accessibility :=
  [.publicAccess, .internalAccess, .protectedInternal, .protectedAccess, .privateProtected,
   .privateAccess]

def name : Accessibility → String
  | .publicAccess => "Public"
  | .internalAccess => "Internal"
  | .protectedInternal => "ProtectedInternal"
  | .protectedAccess => "Protected"
  | .privateProtected => "PrivateProtected"
  | .privateAccess => "Private"

end Accessibility

/-- What a method symbol is. -/
inductive MethodKind where
  | ordinary
  | instanceConstructor
  | staticConstructor
  | propertyGet
  | propertySet
  | eventAdd
  | eventRemove
  | conversion
  | userOperator
  | lambda
  | localFunction
  | finalizer
  deriving DecidableEq, Inhabited

namespace MethodKind

def all : List MethodKind :=
  [.ordinary, .instanceConstructor, .staticConstructor, .propertyGet, .propertySet, .eventAdd,
   .eventRemove, .conversion, .userOperator, .lambda, .localFunction, .finalizer]

def name : MethodKind → String
  | .ordinary => "Ordinary"
  | .instanceConstructor => "Constructor"
  | .staticConstructor => "StaticConstructor"
  | .propertyGet => "PropertyGet"
  | .propertySet => "PropertySet"
  | .eventAdd => "EventAdd"
  | .eventRemove => "EventRemove"
  | .conversion => "Conversion"
  | .userOperator => "UserDefinedOperator"
  | .lambda => "Lambda"
  | .localFunction => "LocalFunction"
  | .finalizer => "Destructor"

end MethodKind

end DefensiveCopy
