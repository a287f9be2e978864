import DefensiveCopy.Operation.Builder

/-! # Scripts of construction

A script lists what is built, in order: operations and members, and members hold scripts of their
own.  An item that is required makes the member around it fail when it fails itself: the rest of
that member is not built and its region is not recorded, while what was built so far stays.  An
item that is not required may fail without harm. -/

namespace DefensiveCopy

/-- One item of a script. -/
inductive ScriptItem where
  | add (isRequired : Bool) (draft : Draft)
  | member (isRequired : Bool) (symbol : Token) (body : List ScriptItem)

/-- What became of an item: the number of the new operation, or what became of the items of a member
    and the failure that ended it. -/
inductive ScriptAnswer where
  | added (result : Except OperationError OpId)
  | member (body : List ScriptAnswer) (failure : Option OperationError)

namespace ScriptAnswer

/-- The error that an item ended with. -/
def failure? : ScriptAnswer → Option OperationError
  | .added (.ok _) => none
  | .added (.error error) => some error
  | .member _ failure => failure

end ScriptAnswer

namespace ScriptItem

/-- The failure of the item makes the member around it fail. -/
def isRequired : ScriptItem → Bool
  | .add isRequired _ => isRequired
  | .member isRequired _ _ => isRequired

mutual

/-- Builds one item. -/
def run : ScriptItem → Builder → ScriptAnswer × Builder
  | .add _ draft, b =>
    match Builder.add draft b with
    | .ok id b => (.added (.ok id), b)
    | .error error b => (.added (.error error), b)
  | .member _ symbol body, b =>
    match runAll body b with
    | (answers, none, built) => (.member answers none, built.completeMember symbol b.position)
    | (answers, some error, built) => (.member answers (some error), built)

/-- Builds items one after the other, up to the first required one that fails, and returns the
    failure that ended the run. -/
def runAll : List ScriptItem → Builder → List ScriptAnswer × Option OperationError × Builder
  | [], b => ([], none, b)
  | item :: rest, b =>
    match item.run b with
    | (answer, built) =>
      match answer.failure?, item.isRequired with
      | some error, true => ([answer], some error, built)
      | _, _ =>
        match runAll rest built with
        | (answers, failure, built) => (answer :: answers, failure, built)

end

end ScriptItem

/-- The tree that a script builds, with what became of its items. -/
def Tree.ofScript (symbols : SymbolTable) (document : String) (script : List ScriptItem) :
    List ScriptAnswer × Tree :=
  match ScriptItem.runAll script (Builder.new symbols document) with
  | (answers, _, b) => (answers, b.toTree)

end DefensiveCopy
