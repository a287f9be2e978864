import DefensiveCopy.Text.Template

/-! # Classes of findings

A copy is necessary when the member may change its receiver, so that the copy protects the storage
behind it.  It is unnecessary when the member never does and only the annotation that says so is
missing. -/

namespace DefensiveCopy

/-- The classes of findings. -/
inductive FindingClass where
  | necessary
  | unnecessary
  deriving DecidableEq, Inhabited

/-- How urgent a finding is. -/
inductive Severity where
  | info
  | warning
  deriving DecidableEq, Inhabited

namespace Severity

def name : Severity → String
  | .info => "INFO"
  | .warning => "WARN"

end Severity

/-- What a finding is about. -/
inductive Category where
  | correctness
  | performance
  deriving DecidableEq, Inhabited

namespace Category

def name : Category → String
  | .correctness => "Correctness"
  | .performance => "Performance"

end Category

/-- What is said about every finding of a class. -/
structure ClassDescriptor where
  /-- The descriptive identifier. -/
  id : String
  /-- The short identifier. -/
  diagnosticId : String
  title : String
  /-- The message, with slot 0 for the member and slot 1 for the receiver. -/
  messageTemplate : String
  category : Category
  severity : Severity

namespace ClassDescriptor

/-- The message about a member and a receiver.  Slot 0 is filled first, then slot 1 of the
    result. -/
def format (descriptor : ClassDescriptor) (member receiver : String) : String :=
  Text.fillSlot (Text.fillSlot descriptor.messageTemplate '0' member) '1' receiver

end ClassDescriptor

namespace FindingClass

def all : List FindingClass := [.necessary, .unnecessary]

def name : FindingClass → String
  | .necessary => "Necessary"
  | .unnecessary => "Unnecessary"

def descriptor : FindingClass → ClassDescriptor
  | .necessary =>
    { id := "Necessary-Copy"
      diagnosticId := "HAM0001"
      title := "Operation causes the compiler to create a defensive copy"
      messageTemplate :=
        "Call to member '\x7b0\x7d' will execute on a defensive copy of '\x7b1\x7d'"
      category := .correctness
      severity := .warning }
  | .unnecessary =>
    { id := "Unnecessary-Copy"
      diagnosticId := "HAM0003"
      title := "Operation on readonly member causes the compiler to unnecessarily create a " ++
        "defensive copy"
      messageTemplate :=
        "Call to readonly member '\x7b0\x7d' will execute on an unnecessary defensive copy of " ++
          "'\x7b1\x7d'"
      category := .performance
      severity := .info }

/-- The descriptive identifier. -/
def id (findingClass : FindingClass) : String := findingClass.descriptor.id

/-- The short identifier. -/
def diagnosticId (findingClass : FindingClass) : String := findingClass.descriptor.diagnosticId

/-- The text is one of the two identifiers of the class. -/
def isNamed (findingClass : FindingClass) (text : String) : Bool :=
  text == findingClass.id || text == findingClass.diagnosticId

/-- The class with the given identifier, descriptive or short. -/
def ofId? (text : String) : Option FindingClass := all.find? (·.isNamed text)

/-- The place of a class in the order of findings. -/
def rank : FindingClass → Nat
  | .necessary => 0
  | .unnecessary => 1

end FindingClass

end DefensiveCopy
