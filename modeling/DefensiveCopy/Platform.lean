import DefensiveCopy.Symbol.WellKnown

/-! # Target platforms

The platform that the analysed code is compiled against decides how its core library is annotated
and which access patterns are known to make no copy. -/

namespace DefensiveCopy

/-- The platforms whose core library is known. -/
inductive Platform where
  | netFramework
  | net8
  | net9
  | net10
  deriving DecidableEq, Inhabited

namespace Platform

/-- All platforms, oldest first. -/
def all : List Platform := [.netFramework, .net8, .net9, .net10]

/-- The platform assumed when none is named. -/
def latest : Platform := .net10

def name : Platform → String
  | .netFramework => "net48"
  | .net8 => "net8.0"
  | .net9 => "net9.0"
  | .net10 => "net10.0"

/-- The words, in lower case, that name a platform. -/
def spellings : Platform → List String
  | .netFramework => ["netframework", "net48"]
  | .net8 => ["net8", "net8.0"]
  | .net9 => ["net9", "net9.0"]
  | .net10 => ["net10", "net10.0"]

/-- The platform that a word names; the case of the letters A to Z does not matter. -/
def ofName? (text : String) : Option Platform :=
  all.find? fun platform => platform.spellings.contains text.toLower

/-- The platform that a word names, or the word that names none. -/
def parse (text : String) : Except UnknownName Platform :=
  match ofName? text with
  | some platform => .ok platform
  | none => .error ⟨text⟩

/-- The core library declares the primitive types read-only. -/
def hasReadOnlyPrimitives (platform : Platform) : Bool := platform != .netFramework

/-- The core library declares the reading members of the nullable wrapper read-only. -/
def hasReadOnlyNullableAccessors (platform : Platform) : Bool := platform != .netFramework

/-- The platform knows inline arrays. -/
def supportsInlineArrays (platform : Platform) : Bool := platform != .netFramework

end Platform

/-- Access patterns that are known to make no copy. -/
structure CopyPolicy where
  /-- An index or range access to an inline array never copies the array. -/
  indexerIsCopyFree : Bool := true
  /-- A slice of an inline array refers to the array itself, so it is never read-only. -/
  rangeIsCopyFree : Bool := true
  deriving DecidableEq, Inhabited

namespace CopyPolicy

/-- The policy of a platform.  All known platforms agree that both patterns make no copy. -/
def ofPlatform : Platform → CopyPolicy
  | .netFramework | .net8 | .net9 | .net10 => {}

end CopyPolicy

end DefensiveCopy
