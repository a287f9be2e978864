import DefensiveCopy.Model

/-! # Names of receivers

How an expression is called in a finding. -/

namespace DefensiveCopy

/-- The name of every indexer. -/
def indexerName : String := "this[]"

namespace Model

/-- The name of a symbol; its token if it has none. -/
def symbolName (m : Model) (token : Token) : String :=
  (m.symbols.nameOf? token).getD token.render

/-- The name under which an operation of the given shape is reported. -/
def shapeName (m : Model) : Shape → String
  | .invocation method _ _ => m.symbolName method
  | .propertyReference property _ _ =>
    if (m.symbols.property? property).any (·.isIndexer) then indexerName
    else m.symbolName property
  | .slotReference slot => m.symbolName slot
  | .parameterReference parameter => m.symbolName parameter
  | .fieldReference field _ => m.symbolName field
  | .simpleAssignment _ _ true => "assignment"
  | .conditional _ _ _ _ => "conditional"
  | .instanceReference _ => "this"
  | .inlineArrayAccess _ _ | .implicitIndexer _ _ _ _ => indexerName
  | shape => shape.name

/-- The name under which an operation is reported; empty if there is no such operation. -/
def receiverName (m : Model) (id : OpId) : String :=
  ((m.shape? id).map m.shapeName).getD ""

end Model

end DefensiveCopy
