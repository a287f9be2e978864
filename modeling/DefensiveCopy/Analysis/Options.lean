import DefensiveCopy.CoreLibrary
import DefensiveCopy.Finding.Class
import DefensiveCopy.Platform
import DefensiveCopy.Text.Blank

/-! # Options

Which classes of findings are reported, and which platform the analysed code is compiled against.

The classes are given as an include-list: identifiers with commas or semicolons between them.  Blank
characters around an entry do not count, and blank entries are dropped.  An entry is compared
exactly and may be one that names no class; an empty list includes every class. -/

namespace DefensiveCopy

/-- What is reported and under which assumptions. -/
structure AnalysisOptions where
  /-- The entries of the include-list. -/
  includeList : List String := []
  platform : Platform := .latest
  policy : CopyPolicy := .ofPlatform .latest
  deriving DecidableEq, Inhabited

/-- Why options are refused. -/
inductive OptionError where
  /-- No platform has this name. -/
  | unknownPlatform (text : String)
  deriving DecidableEq

namespace OptionError

def message : OptionError → String
  | .unknownPlatform text =>
    "Invalid configuration - unknown target runtime '" ++ text ++ "', expected one of: " ++
      ", ".intercalate (Platform.all.map Platform.name)

end OptionError

namespace IncludeList

/-- Entries are divided by commas and semicolons. -/
def isSeparator (c : Char) : Bool := c == ',' || c == ';'

/-- The entries of an include-list: what stands between separators, trimmed, and not empty. -/
def parse (text : String) : List String :=
  (((text.toList.splitOnP isSeparator).map Text.trimChars).filter fun entry => !entry.isEmpty).map
    String.ofList

end IncludeList

namespace AnalysisOptions

/-- The options with the given include-list and all else by default. -/
def ofIncludeList (text : String) : AnalysisOptions := { includeList := IncludeList.parse text }

/-- The options for a platform, with its policy. -/
def withPlatform (options : AnalysisOptions) (platform : Platform) : AnalysisOptions :=
  { options with platform, policy := .ofPlatform platform }

/-- The options with another policy than that of the platform. -/
def withPolicy (options : AnalysisOptions) (policy : CopyPolicy) : AnalysisOptions :=
  { options with policy }

/-- The options for the platform of an installed core library. -/
def withCoreLibrary (options : AnalysisOptions) (core : CoreLibrary) : AnalysisOptions :=
  options.withPlatform core.platform

/-- The options that an include-list and the name of a platform stand for; both may be left out. -/
def ofTexts (includeList platform : Option String) : Except OptionError AnalysisOptions :=
  let options := (includeList.map ofIncludeList).getD {}
  match platform with
  | none => .ok options
  | some text =>
    match Platform.ofName? (Text.trim text) with
    | some platform => .ok (options.withPlatform platform)
    | none => .error (.unknownPlatform text)

/-- Findings of the class are reported. -/
def reports (options : AnalysisOptions) (findingClass : FindingClass) : Bool :=
  options.includeList.isEmpty || options.includeList.any findingClass.isNamed

/-- Findings of some class are reported. -/
def reportsAnything (options : AnalysisOptions) : Bool := FindingClass.all.any options.reports

end AnalysisOptions

end DefensiveCopy
