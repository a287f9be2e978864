/-! # Message templates

A template is a text with numbered slots: an opening brace, one digit and a closing brace.
`fillSlot` puts a value into every slot of one number, reading from the left and never looking
inside the value that it has just put in. -/

namespace DefensiveCopy.Text

/-- Every slot with the digit `slot` replaced by `value`; all other characters stay. -/
def fillSlotChars (slot : Char) (value : List Char) : List Char → List Char
  | '\x7b' :: digit :: '\x7d' :: rest =>
    if digit = slot then value ++ fillSlotChars slot value rest
    else '\x7b' :: fillSlotChars slot value (digit :: '\x7d' :: rest)
  | c :: rest => c :: fillSlotChars slot value rest
  | [] => []

/-- Every slot with the digit `slot` of a template replaced by `value`. -/
def fillSlot (template : String) (slot : Char) (value : String) : String :=
  String.ofList (fillSlotChars slot value.toList template.toList)

end DefensiveCopy.Text
