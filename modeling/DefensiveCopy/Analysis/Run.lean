import DefensiveCopy.Analysis.Necessity
import DefensiveCopy.Analysis.Options
import DefensiveCopy.Analysis.Signal
import DefensiveCopy.Finding.Report

/-! # The analysis

Every member access of every operation is checked.  A copy is made when the member may write, the
receiver is a value, and the receiver stands for storage that the code may only read.  Copies in
generated code are left out, and so are those whose class is not reported.

Operations do not depend on each other.  A run over a tree reports their findings one operation
after the other and stops at the first failure; what was reported before stays reported. -/

namespace DefensiveCopy

namespace Model

/-- The member may write to its receiver, for all that its annotations say. -/
def mayWrite (m : Model) (access : MemberAccess) (target : MethodSymbol) : Bool :=
  (access.isForced || !m.symbols.isMethodReadOnly target) && !target.isStatic

/-- A receiver of the given type is a value that the member may write to. -/
def isWritableValue (m : Model) (access : MemberAccess) (target : MethodSymbol) (type : Token) :
    Bool :=
  (m.symbols.isValueType type || m.symbols.isTypeParameter type) &&
    !m.symbols.isReferenceType type &&
      (access.isForced || !m.symbols.isTypeReadOnly type || m.symbols.isOnUniversalBase target)

/-- The type of the receiver, if the access is one that may write to a value. -/
def writtenType? (m : Model) (access : MemberAccess) : Option Token := do
  let target ← m.symbols.method? access.target
  let type ← m.typeOf? access.receiver
  if m.mayWrite access target && m.isWritableValue access target type then some type else none

/-- The class of the copy that an access makes; `none` if it makes none or is generated code. -/
def copyClass (m : Model) (signal : Signal) (policy : CopyPolicy) (access : MemberAccess) :
    Except AnalysisError (Option FindingClass) :=
  match m.writtenType? access with
  | none => .ok none
  | some type => do
    let enclosing := m.enclosingSymbol? access.receiver
    let context := MemberContext.of m.symbols enclosing
    if ← m.readOnlyReference signal context policy access.receiver then
      let isGenerated ← m.symbols.generated signal enclosing
      return if isGenerated then none else some (m.symbols.classify type access.target)
    else return none

/-- How the member of an access is called in a finding. -/
def memberName (m : Model) (access : MemberAccess) : String :=
  access.displayName.getD (((m.symbols.method? access.target).map (·.name)).getD "")

/-- The finding of the given class about an access. -/
def finding (m : Model) (access : MemberAccess) (findingClass : FindingClass) :
    Except AnalysisError Finding :=
  match m.get? access.location with
  | none => .error (.unknownLocation access.location)
  | some operation =>
    .ok
      { location := { document := m.tree.document, span := operation.span }
        findingClass
        member := m.memberName access
        receiver := m.receiverName access.receiver }

end Model

/-! ## Accesses and operations -/

/-- The finding about an access, if it makes a copy of a class that is reported. -/
def analyzeAccess (options : AnalysisOptions) (m : Model) (signal : Signal)
    (access : MemberAccess) : Except AnalysisError (Option Finding) := do
  signal.poll
  match ← m.copyClass signal options.policy access with
  | none => return none
  | some findingClass =>
    if options.reports findingClass then return some (← m.finding access findingClass)
    else return none

/-- The findings about the accesses of an operation, each one once, in the order of the accesses. -/
def analyzeOperation (options : AnalysisOptions) (m : Model) (signal : Signal) (id : OpId) :
    Except AnalysisError (List Finding) := do
  let accesses ← m.accesses signal options.policy id
  let found ← accesses.mapM (analyzeAccess options m signal)
  return (found.filterMap fun finding => finding).foldl
    (fun findings finding => if finding ∈ findings then findings else findings ++ [finding]) []

/-! ## Trees -/

/-- A run that reports findings and may fail; the report is kept either way. -/
abbrev Reporting := EStateM AnalysisError Report

/-- A run over a list does the first item, and if that does not fail the others on its report. -/
theorem Reporting.forM_cons {α : Type} (step : α → Reporting Unit) (item : α) (rest : List α)
    (report : Report) :
    (item :: rest).forM step report =
      EStateM.bind (step item) (fun _ => rest.forM step) report := rfl

/-- Reports the findings about one operation. -/
def reportOperation (options : AnalysisOptions) (m : Model) (signal : Signal) (id : OpId) :
    Reporting Unit := fun report =>
  match analyzeOperation options m signal id with
  | .ok findings => .ok () (findings.foldl Report.add report)
  | .error error => .error error report

/-- Reports the findings about all operations of a tree, unless no class is reported at all. -/
def analyzeTree (options : AnalysisOptions) (symbols : SymbolTable) (signal : Signal)
    (tree : Tree) : Reporting Unit :=
  if options.reportsAnything then
    tree.ids.forM (reportOperation options { symbols, tree } signal)
  else pure ()

/-- Reports the findings about all operations of several trees. -/
def analyzeTrees (options : AnalysisOptions) (symbols : SymbolTable) (signal : Signal)
    (trees : List Tree) : Reporting Unit :=
  trees.forM (analyzeTree options symbols signal)

/-- The report of a run from an empty one, if the run does not fail. -/
def Reporting.collect (run : Reporting Unit) : Except AnalysisError Report :=
  match run {} with
  | .ok () report => .ok report
  | .error error _ => .error error

end DefensiveCopy
