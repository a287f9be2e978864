import DefensiveCopy.MemberAccess.Basic
import DefensiveCopy.Operation.Usage
import DefensiveCopy.Platform
import DefensiveCopy.Receiver.Name
import DefensiveCopy.Receiver.ReadOnly

/-! # Implicit indexers

An access by index or range to a collection that knows neither is served by two members: an indexer
or a slice method, and a length.  The length runs when the position is counted from the end.  If the
indexer makes no copy and the length may, the length is the member to report. -/

namespace DefensiveCopy

namespace SymbolTable

/-- A call of the method never copies its receiver. -/
def isCopyFreeMethod (t : SymbolTable) (method : MethodSymbol) : Bool :=
  method.isExtension || t.isMethodReadOnly method || t.isContainingTypeReadOnly method

/-- The method that computes a length: the method itself, or the getter of a property. -/
def lengthMethod? (t : SymbolTable) (length : Token) : Option Token :=
  match length.kind? with
  | some .method => some length
  | some .property => (t.property? length).bind (·.getter)
  | _ => none

/-- The method that computes a length, if it may copy its receiver. -/
def copyingLength? (t : SymbolTable) (length : Token) : Option Token :=
  (t.lengthMethod? length).filter fun token =>
    (t.method? token).any fun method => !t.isCopyFreeMethod method

/-- The method is the conversion of a 32-bit integer to an index. -/
def isIndexConversion (t : SymbolTable) (method : MethodSymbol) : Bool :=
  let isIndex := fun (type : Option Token) =>
    type.any fun token => t.wellKnown? token == some .index
  let takesInt := match method.parameters with
    | [parameter] =>
      (((t.parameter? parameter).bind (·.type)).bind t.type?).any (·.special == .int32)
    | _ => false
  method.kind == .conversion && method.name == "op_Implicit" && isIndex method.containingType &&
    isIndex method.returnType && takesInt

end SymbolTable

namespace Model

/-- The operand of a conversion of a 32-bit integer to an index; every other operation is itself. -/
def withoutIndexConversion (m : Model) (id : OpId) : OpId :=
  match m.shape? id with
  | some (.conversion operand _ (some method)) =>
    if (m.symbols.method? method).any m.symbols.isIndexConversion then operand else id
  | _ => id

/-- The operation is an index that is not converted from an integer. -/
def isProperIndex (m : Model) (id : OpId) : Bool :=
  m.hasWellKnownType (m.withoutIndexConversion id) .index

/-- The position is counted from the end of the collection: it is a range value that is not written
    out, or an index, or a written-out range with an index as one of its bounds. -/
def countsFromEnd (m : Model) (position : OpId) : Bool :=
  match m.shape? position with
  | some (.range left right) => left.any m.isProperIndex || right.any m.isProperIndex
  | _ => m.hasWellKnownType position .range || m.isProperIndex position

/-- The receiver is an inline array. -/
def isInlineArray (m : Model) (receiver : OpId) : Bool :=
  (m.typeOf? receiver).any (m.symbols.hasAttribute · .inlineArray)

/-- The methods that serve the position: the indexer method, or the accessors of the indexer that
    the use of the access runs. -/
def indexerTargets (m : Model) (id : OpId) (indexer : Token) : List Token :=
  match indexer.kind? with
  | some .method => [indexer]
  | some .property =>
    ((m.symbols.property? indexer).map (·.accessorsUsed (m.valueUsage id))).getD []
  | _ => []

/-- The access by one of the methods that serve the position. -/
def indexerAccess? (m : Model) (id receiver position : OpId) (length target : Token) :
    Option MemberAccess :=
  (m.symbols.method? target).map fun method =>
    let indexed : MemberAccess :=
      { receiver, target, location := id, displayName := some indexerName, isForced := true }
    if m.symbols.isCopyFreeMethod method && m.countsFromEnd position then
      match m.symbols.copyingLength? length with
      | some lengthMethod =>
        { indexed with target := lengthMethod, displayName := m.symbols.nameOf? length }
      | none => indexed
    else indexed

/-- The accesses of an implicit indexer. -/
def indexerAccesses (m : Model) (policy : CopyPolicy) (id receiver position : OpId)
    (indexer length : Token) : List MemberAccess :=
  if m.isInlineArray receiver && policy.indexerIsCopyFree then []
  else (m.indexerTargets id indexer).filterMap (m.indexerAccess? id receiver position length)

end Model

end DefensiveCopy
