import DefensiveCopy.MemberAccess.Extraction

/-! # Cancellation

An analysis may be called off.  It asks the signal at every step of a search: at each container of a
symbol, at each constraint of a type parameter, at each declarator of a `fixed` statement and at
each operation on the way to the storage of a receiver.  It gives up as soon as the signal says so;
where there is nothing to search, it does not ask.  A signal stays as it is while an analysis
runs. -/

namespace DefensiveCopy

/-- Whether an analysis may go on. -/
inductive Signal where
  | live
  | cancelled
  deriving DecidableEq, Inhabited

/-- Why an analysis gives no answer. -/
inductive AnalysisError where
  /-- It was called off. -/
  | cancelled
  /-- The location to report does not exist. -/
  | unknownLocation (id : OpId)
  /-- The containers of the symbol run in a circle, so that following them never ends. -/
  | endlessContainment (symbol : Token)
  deriving DecidableEq

namespace AnalysisError

def message : AnalysisError → String
  | .cancelled => "Analysis was cancelled"
  | .unknownLocation id => "Invalid operation - " ++ id.render
  | .endlessContainment symbol => "Endless containment - " ++ symbol.render

end AnalysisError

namespace Signal

/-- Gives up if the analysis is called off. -/
def poll : Signal → Except AnalysisError Unit
  | .live => .ok ()
  | .cancelled => .error .cancelled

end Signal

/-! ## Symbols -/

namespace SymbolTable

/-- Whether one of the first `fuel` symbols of the walk from `token` through its containers is
    marked as generated.  A walk from `start` that is still not at its end never ends. -/
def generatedAlong (t : SymbolTable) (signal : Signal) (start : Token) :
    Nat → Token → Except AnalysisError Bool
  | 0, _ => .error (.endlessContainment start)
  | fuel + 1, token => do
    signal.poll
    if t.isMarkedGenerated token then return true
    else
      match t.container? token with
      | some container => t.generatedAlong signal start fuel container
      | none => return false

/-- Whether a symbol is generated code; without a symbol there is nothing to search. -/
def generated (t : SymbolTable) (signal : Signal) : Option Token → Except AnalysisError Bool
  | none => .ok false
  | some symbol => t.generatedAlong signal symbol (t.size + 1) symbol

/-- The method that the constraints lead to, when the ones before them led to `found`. -/
def pinnableAmong (t : SymbolTable) (signal : Signal) (within : Token) (found : Option Token) :
    List Token → Except AnalysisError (Option Token)
  | [] => .ok found
  | constraint :: rest => do
    signal.poll
    match t.pinnableThrough? within constraint with
    | none => t.pinnableAmong signal within found rest
    | some method =>
      -- A second method makes the search ambiguous, and the constraints after it are not looked at.
      if found.isSome then return none
      else t.pinnableAmong signal within (some method) rest

/-- The method that a value is pinned through; the constraints of a type parameter are searched. -/
def pinningMethod (t : SymbolTable) (signal : Signal) (type within : Token) :
    Except AnalysisError (Option Token) :=
  match t.pinnableOn? within type with
  | some method => .ok (some method)
  | none =>
    if t.isTypeParameter type then t.pinnableAmong signal within none (t.constraintTypes type)
    else .ok none

end SymbolTable

/-! ## Operations -/

namespace Model

/-- Whether an operation stands for storage that may only be read. -/
def readOnlyReference (m : Model) (signal : Signal) (context : MemberContext)
    (policy : CopyPolicy) (id : OpId) : Except AnalysisError Bool := do
  signal.poll
  match _hget : m.tree.get? id with
  | none => return false
  | some operation =>
    match _horigin : m.origin context policy id operation.shape with
    | .storage isReadOnly => return isReadOnly
    | .through operands =>
      -- The operands are looked at in order, up to the first that may only be read.
      operands.attach.anyM fun operand => m.readOnlyReference signal context policy operand.1
termination_by id.index
decreasing_by
  exact Tree.index_lt_of_mem_children _hget (mem_children_of_origin _horigin _ operand.2)

/-- The method that a `fixed` statement inside `within` pins a value through, for a pointer to
    `pointee`. -/
def pinnedThrough (m : Model) (signal : Signal) (within pointee : Token) (value : OpId) :
    Except AnalysisError (Option Token) :=
  match m.typeOf? value with
  | none => .ok none
  | some type =>
    if m.isAddressOf value || m.symbols.isReferenceType type then .ok none
    else do
      let method ← m.symbols.pinningMethod signal type within
      return method.filter fun method =>
        (m.symbols.method? method).any (·.returnType == some pointee) ||
          (m.symbols.type? pointee).any (·.special == .void)

/-- The access that a declarator of a `fixed` statement performs. -/
def pinningAccess (m : Model) (signal : Signal) (within : Token) (declarator : OpId) :
    Except AnalysisError (Option MemberAccess) := do
  signal.poll
  match m.shape? declarator with
  | some (.variableDeclarator slot (some initializer)) =>
    match m.symbols.pointeeOf? slot, m.shape? initializer with
    | some pointee, some (.variableInitializer value) =>
      let method ← m.pinnedThrough signal within pointee value
      return method.map fun method =>
        { receiver := value, target := method, location := value,
          displayName := some pinningMethodName }
    | _, _ => return none
  | _ => return none

/-- The member accesses of an operation; the methods that a `fixed` statement pins through are
    searched. -/
def accesses (m : Model) (signal : Signal) (policy : CopyPolicy) (id : OpId) :
    Except AnalysisError (List MemberAccess) :=
  match m.shape? id with
  | some (.fixedStatement declarators _) =>
    match m.enclosingType? id with
    | some within => do
      let found ← declarators.mapM (m.pinningAccess signal within)
      return found.filterMap fun access => access
    | none => .ok []
  | _ => .ok (m.memberAccesses policy id)

end Model

end DefensiveCopy
