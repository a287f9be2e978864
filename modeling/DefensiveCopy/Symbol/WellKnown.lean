/-! # Library types known by name

A few library types matter to the analysis for what they mean to the compiler.  They are known by
their full metadata name, and the comparison of names is exact. -/

namespace DefensiveCopy

/-- The library types that the analysis knows by their full metadata name. -/
inductive WellKnownType where
  | index
  | range
  | nullable
  | compilerGenerated
  | inlineArray
  deriving DecidableEq, Inhabited

/-- A word that is not one of a closed set of names. -/
structure UnknownName where
  text : String
  deriving DecidableEq

namespace UnknownName

/-- What is said about a word that names nothing. -/
def message (_ : UnknownName) : String := "Matching variant not found"

end UnknownName

namespace WellKnownType

def all : List WellKnownType := [.index, .range, .nullable, .compilerGenerated, .inlineArray]

/-- The short name. -/
def name : WellKnownType → String
  | .index => "Index"
  | .range => "Range"
  | .nullable => "Nullable"
  | .compilerGenerated => "CompilerGeneratedAttribute"
  | .inlineArray => "InlineArrayAttribute"

/-- The full metadata name: namespace, name and, for a generic type, its arity. -/
def fullName : WellKnownType → String
  | .index => "System.Index"
  | .range => "System.Range"
  | .nullable => "System.Nullable`1"
  | .compilerGenerated => "System.Runtime.CompilerServices.CompilerGeneratedAttribute"
  | .inlineArray => "System.Runtime.CompilerServices.InlineArrayAttribute"

/-- The well-known type with the given full metadata name. -/
def ofFullName? (fullName : String) : Option WellKnownType :=
  all.find? fun wellKnown => wellKnown.fullName == fullName

/-- The well-known type with the given full metadata name, or the name that is none. -/
def parse (fullName : String) : Except UnknownName WellKnownType :=
  match ofFullName? fullName with
  | some wellKnown => .ok wellKnown
  | none => .error ⟨fullName⟩

/-- Each well-known type is found by its full name. -/
theorem ofFullName?_fullName (wellKnown : WellKnownType) :
    ofFullName? wellKnown.fullName = some wellKnown := by
  cases wellKnown <;> decide +kernel

end WellKnownType

end DefensiveCopy
