import DefensiveCopy.Platform
import DefensiveCopy.SymbolTable.Registration

/-! # The core library

The analysis leans on a handful of library types: the three universal base types with their
members, the primitive value types, the nullable wrapper, the index and range types and two marker
attributes.  `CoreLibrary.install` registers them in a symbol table the way the chosen platform
declares them and returns their tokens. -/

namespace DefensiveCopy

/-- The three members that every value has, as one type declares them. -/
structure UniversalMembers where
  toText : Token
  equals : Token
  hashCode : Token
  deriving DecidableEq, Inhabited

/-- A primitive type and its universal members. -/
structure PrimitiveType where
  special : SpecialType
  type : Token
  members : UniversalMembers
  deriving DecidableEq, Inhabited

/-- The tokens of an installed core library. -/
structure CoreLibrary where
  platform : Platform
  assembly : Token
  module : Token
  object : Token
  valueType : Token
  enumType : Token
  string : Token
  void : Token
  objectMembers : UniversalMembers
  valueTypeMembers : UniversalMembers
  enumMembers : UniversalMembers
  enumHasFlag : Token
  nullable : Token
  nullableParameter : Token
  nullableHasValue : Token
  nullableValue : Token
  nullableGetValueOrDefault : Token
  nullableGetValueOrDefaultWith : Token
  nullableMembers : UniversalMembers
  index : Token
  indexOfInt : Token
  range : Token
  compilerGenerated : Token
  inlineArray : Token
  primitives : List PrimitiveType
  deriving DecidableEq, Inhabited

namespace CoreLibrary

open SymbolTable

/-! ## Declaring library symbols -/

/-- A type of the `System` namespace. -/
def systemType (module : Token) (name : String) (kind : TypeKind) (base : Option Token) :
    TypeSymbol :=
  { name, kind, base, namespaceName := "System", module := some module }

/-- The return types of the universal members. -/
structure UniversalReturns where
  string : Token
  boolean : Token
  int32 : Token

/-- Declares one universal member on `owner`. -/
def declareUniversal (owner : Token) (modifiers : MethodModifiers) (name : String)
    (returnType : Token) (overridden : Option Token) : Registration Token :=
  addMethod
    { name, modifiers, overridden, containingType := some owner, returnType := some returnType }

/-- Declares the universal members on `owner`.  Given the members they override, they compare with
    the first object type of the table; without, `owner` is the object type itself. -/
def declareUniversals (owner : Token) (overrides : Option UniversalMembers)
    (modifiers : MethodModifiers) (returns : UniversalReturns) :
    Registration UniversalMembers := do
  let toText ← declareUniversal owner modifiers "ToString" returns.string
    (overrides.map (·.toText))
  let equals ← declareUniversal owner modifiers "Equals" returns.boolean
    (overrides.map (·.equals))
  let t ← get
  -- An override compares with the first object type of the table, which need not be this library's.
  let object := match overrides with
    | some _ => (t.findType? "System" "Object").getD owner
    | none => owner
  let _ ← addParameter equals { name := "obj", type := some object }
  let hashCode ← declareUniversal owner modifiers "GetHashCode" returns.int32
    (overrides.map (·.hashCode))
  return { toText, equals, hashCode }

/-! ## The parts of the library -/

/-- The types that all others are declared with. -/
structure Roots where
  assembly : Token
  module : Token
  object : Token
  string : Token
  boolean : Token
  int32 : Token
  objectMembers : UniversalMembers
  valueType : Token
  valueTypeMembers : UniversalMembers

namespace Roots

/-- The return types of the universal members. -/
def returns (roots : Roots) : UniversalReturns :=
  { string := roots.string, boolean := roots.boolean, int32 := roots.int32 }

/-- A value type of the `System` namespace. -/
def struct (roots : Roots) (name : String) : TypeSymbol :=
  systemType roots.module name .structType (some roots.valueType)

/-- Declares the universal members of a value type, which override those of the value type base. -/
def overrideUniversals (roots : Roots) (owner : Token) : Registration UniversalMembers :=
  declareUniversals owner (some roots.valueTypeMembers) {} roots.returns

end Roots

/-- Registers the roots.  The universal members of the object type return truth values and
    integers, so these two types come before the base type that they get later. -/
def installRoots (platform : Platform) : Registration Roots := do
  let assemblyName := match platform with
    | .netFramework => "mscorlib"
    | .net8 | .net9 | .net10 => "System.Private.CoreLib"
  let assembly ← addAssembly { name := assemblyName }
  let module ← addModule { name := assemblyName ++ ".dll", assembly := some assembly }
  let object ← addType { systemType module "Object" .classType none with special := .object }
  let string ← addType
    { systemType module "String" .classType (some object) with special := .string }
  let boolean ← addType { systemType module "Boolean" .structType none with special := .boolean }
  let int32 ← addType { systemType module "Int32" .structType none with special := .int32 }
  let returns : UniversalReturns := { string, boolean, int32 }
  let objectMembers ← declareUniversals object none { isVirtual := true } returns
  let valueType ← addType
    { systemType module "ValueType" .classType (some object) with special := .valueType }
  let valueTypeMembers ← declareUniversals valueType (some objectMembers) {} returns
  return { assembly, module, object, string, boolean, int32, objectMembers, valueType,
           valueTypeMembers }

/-- The base type of enumerations. -/
structure Enumerations where
  type : Token
  members : UniversalMembers
  hasFlag : Token

def installEnumerations (roots : Roots) : Registration Enumerations := do
  let type ← addType
    { systemType roots.module "Enum" .classType (some roots.valueType) with special := .enum }
  let members ← roots.overrideUniversals type
  let hasFlag ← addMethod
    { name := "HasFlag", containingType := some type, returnType := some roots.boolean }
  let _ ← addParameter hasFlag { name := "flag", type := some type }
  return { type, members, hasFlag }

/-- Registers a primitive type, or takes the one that the roots hold already. -/
def registerPrimitive (roots : Roots) (special : SpecialType) : Registration Token :=
  match special with
  | .boolean => pure roots.boolean
  | .int32 => pure roots.int32
  | _ => addType { systemType roots.module special.name .structType none with special }

/-- Registers a primitive type and completes it: its base, its annotation and its members. -/
def installPrimitive (roots : Roots) (isReadOnly : Bool) (special : SpecialType) :
    Registration PrimitiveType := do
  let type ← registerPrimitive roots special
  edit .type type fun (symbol : TypeSymbol) =>
    { symbol with
      base := some roots.valueType
      modifiers.isReadOnly := symbol.modifiers.isReadOnly || isReadOnly }
  let members ← roots.overrideUniversals type
  return { special, type, members }

/-- The generic wrapper of values that may be absent. -/
structure Nullables where
  type : Token
  parameter : Token
  hasValue : Token
  value : Token
  getValueOrDefault : Token
  getValueOrDefaultWith : Token
  members : UniversalMembers

/-- Declares a method of the nullable wrapper. -/
def declareNullable (nullable : Token) (isReadOnly : Bool) (name : String) (kind : MethodKind)
    (returnType : Token) : Registration Token :=
  addMethod
    { name, kind, modifiers.isReadOnly := isReadOnly, containingType := some nullable,
      returnType := some returnType }

def installNullables (roots : Roots) (isReadOnly : Bool) : Registration Nullables := do
  let type ← addType (roots.struct "Nullable`1")
  let parameter ← addType
    (.typeParameter "T" { owner := some type, hasValueTypeConstraint := true })
  -- The parameter names the type as its owner, so the type can list it only afterwards.
  edit .type type fun (symbol : TypeSymbol) =>
    { symbol with typeArguments := symbol.typeArguments ++ [parameter] }
  let getHasValue ← declareNullable type isReadOnly "get_HasValue" .propertyGet roots.boolean
  let hasValue ← addProperty
    { name := "HasValue", type := some roots.boolean, getter := some getHasValue,
      containingType := some type }
  let getValue ← declareNullable type isReadOnly "get_Value" .propertyGet parameter
  let value ← addProperty
    { name := "Value", type := some parameter, getter := some getValue,
      containingType := some type }
  let getValueOrDefault ← declareNullable type isReadOnly "GetValueOrDefault" .ordinary parameter
  -- The overload with a default has the same name and one parameter.
  let getValueOrDefaultWith ←
    declareNullable type isReadOnly "GetValueOrDefault" .ordinary parameter
  let _ ← addParameter getValueOrDefaultWith { name := "defaultValue", type := some parameter }
  let members ← roots.overrideUniversals type
  return { type, parameter, hasValue, value, getValueOrDefault, getValueOrDefaultWith, members }

/-- The types of index and range expressions. -/
structure Indexing where
  index : Token
  indexOfInt : Token
  range : Token

def installIndexing (roots : Roots) (isReadOnly : Bool) : Registration Indexing := do
  let index ← addType { roots.struct "Index" with modifiers.isReadOnly := isReadOnly }
  let indexOfInt ← addMethod
    { name := "op_Implicit", kind := .conversion, modifiers.isStatic := true,
      containingType := some index, returnType := some index }
  let _ ← addParameter indexOfInt { name := "value", type := some roots.int32 }
  let range ← addType { roots.struct "Range" with modifiers.isReadOnly := isReadOnly }
  return { index, indexOfInt, range }

/-- Registers a marker attribute of the compiler services. -/
def installMarker (roots : Roots) (name : String) : Registration Token :=
  addType
    { systemType roots.module name .classType (some roots.object) with
      namespaceName := "System.Runtime.CompilerServices" }

/-! ## The whole library -/

/-- Registers the core library of a platform. -/
def install (platform : Platform) : Registration CoreLibrary := do
  let roots ← installRoots platform
  let enumerations ← installEnumerations roots
  let void ← addType { roots.struct "Void" with special := .void }
  let primitives ←
    SpecialType.primitives.mapM (installPrimitive roots platform.hasReadOnlyPrimitives)
  let nullables ← installNullables roots platform.hasReadOnlyNullableAccessors
  let indexing ← installIndexing roots platform.hasReadOnlyPrimitives
  let compilerGenerated ← installMarker roots "CompilerGeneratedAttribute"
  let inlineArray ← installMarker roots "InlineArrayAttribute"
  return {
    platform, void, primitives, compilerGenerated, inlineArray
    assembly := roots.assembly
    module := roots.module
    object := roots.object
    valueType := roots.valueType
    enumType := enumerations.type
    string := roots.string
    objectMembers := roots.objectMembers
    valueTypeMembers := roots.valueTypeMembers
    enumMembers := enumerations.members
    enumHasFlag := enumerations.hasFlag
    nullable := nullables.type
    nullableParameter := nullables.parameter
    nullableHasValue := nullables.hasValue
    nullableValue := nullables.value
    nullableGetValueOrDefault := nullables.getValueOrDefault
    nullableGetValueOrDefaultWith := nullables.getValueOrDefaultWith
    nullableMembers := nullables.members
    index := indexing.index
    indexOfInt := indexing.indexOfInt
    range := indexing.range }

/-- The primitive type with the given role. -/
def primitive? (core : CoreLibrary) (special : SpecialType) : Option PrimitiveType :=
  core.primitives.find? (·.special == special)

/-- The 32-bit integer type. -/
def int32 (core : CoreLibrary) : Token :=
  ((core.primitive? .int32).map (·.type)).getD core.object

/-- The truth value type. -/
def boolean (core : CoreLibrary) : Token :=
  ((core.primitive? .boolean).map (·.type)).getD core.object

/-- Registers the nullable wrapper of a value type. -/
def nullableOf (core : CoreLibrary) (underlying : Token) : Registration Token :=
  construct core.nullable [underlying]

end CoreLibrary

end DefensiveCopy
