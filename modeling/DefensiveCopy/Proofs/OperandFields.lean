import DefensiveCopy.Operation.Basic

/-!
# The operand fields of a shape

`Shape.children` lists the operands of a shape.  Here the operands are described once more, field by
field: `Shape.Stores` has one rule for each field of each shape that holds the number of an
operation.  A field that may be absent stores what it holds when it is present, a list field stores
its items place by place.

## Key results

- `Shape.mem_children_iff`: the list of operands forgets no field and invents none
- `Shape.Stores.field_unique`: if the list has no duplicates, no two fields store the same operation
-/

namespace DefensiveCopy

/-- The fields that hold operands; the items of a list field are told apart by their place. -/
inductive OperandField where
  | receiver
  | arguments (place : Nat)
  | reference
  | handler
  | target
  | value
  | left
  | right
  | condition
  | whenTrue
  | whenFalse
  | operand
  | named
  | collection
  | body
  | index
  | initializer
  | declarators (place : Nat)
  | elements (place : Nat)
  | operations (place : Nat)
  | operands (place : Nat)
  deriving DecidableEq

namespace Shape

/-- The field of the shape holds the number of the operation. -/
inductive Stores : Shape → OperandField → OpId → Prop where
  | invocationReceiver {method id arguments} :
    Stores (.invocation method (some id) arguments) .receiver id
  | invocationArguments {method receiver arguments place id} (h : arguments[place]? = some id) :
    Stores (.invocation method receiver arguments) (.arguments place) id
  | propertyReceiver {property id arguments} :
    Stores (.propertyReference property (some id) arguments) .receiver id
  | propertyArguments {property receiver arguments place id} (h : arguments[place]? = some id) :
    Stores (.propertyReference property receiver arguments) (.arguments place) id
  | eventReceiver {event id} : Stores (.eventReference event (some id)) .receiver id
  | eventAssignmentReference {id handler adds} :
    Stores (.eventAssignment id handler adds) .reference id
  | eventAssignmentHandler {reference id adds} :
    Stores (.eventAssignment reference id adds) .handler id
  | fieldReceiver {field id} : Stores (.fieldReference field (some id)) .receiver id
  | simpleAssignmentTarget {id value isRef} : Stores (.simpleAssignment id value isRef) .target id
  | simpleAssignmentValue {target id isRef} : Stores (.simpleAssignment target id isRef) .value id
  | compoundAssignmentTarget {operator id value} :
    Stores (.compoundAssignment operator id value) .target id
  | compoundAssignmentValue {operator target id} :
    Stores (.compoundAssignment operator target id) .value id
  | coalesceAssignmentTarget {id value} : Stores (.coalesceAssignment id value) .target id
  | coalesceAssignmentValue {target id} : Stores (.coalesceAssignment target id) .value id
  | incrementTarget {id isDecrement} : Stores (.increment id isDecrement) .target id
  | binaryLeft {operator id right} : Stores (.binary operator id right) .left id
  | binaryRight {operator left id} : Stores (.binary operator left id) .right id
  | conditionalCondition {id whenTrue whenFalse isRef} :
    Stores (.conditional id whenTrue whenFalse isRef) .condition id
  | conditionalWhenTrue {condition id whenFalse isRef} :
    Stores (.conditional condition id whenFalse isRef) .whenTrue id
  | conditionalWhenFalse {condition whenTrue id isRef} :
    Stores (.conditional condition whenTrue (some id) isRef) .whenFalse id
  | conversionOperand {id isUserDefined method} :
    Stores (.conversion id isUserDefined method) .operand id
  | argumentValue {parameter id} : Stores (.argument parameter id) .value id
  | returnValue {id} : Stores (.returnStatement (some id)) .value id
  | nameOfNamed {id} : Stores (.nameOf id) .named id
  | loopCollection {id getEnumerator body} :
    Stores (.forEachLoop id getEnumerator body) .collection id
  | loopBody {collection getEnumerator id} :
    Stores (.forEachLoop collection getEnumerator (some id)) .body id
  | awaitOperand {id getAwaiter isDynamic} : Stores (.await id getAwaiter isDynamic) .operand id
  | indexerReceiver {id index indexer length} :
    Stores (.implicitIndexer id index indexer length) .receiver id
  | indexerIndex {receiver id indexer length} :
    Stores (.implicitIndexer receiver id indexer length) .index id
  | inlineArrayReceiver {id index} : Stores (.inlineArrayAccess id index) .receiver id
  | inlineArrayIndex {receiver id} : Stores (.inlineArrayAccess receiver id) .index id
  | rangeLeft {id right} : Stores (.range (some id) right) .left id
  | rangeRight {left id} : Stores (.range left (some id)) .right id
  | declaratorInitializer {slot id} :
    Stores (.variableDeclarator slot (some id)) .initializer id
  | initializerValue {id} : Stores (.variableInitializer id) .value id
  | fixedDeclarators {declarators body place id} (h : declarators[place]? = some id) :
    Stores (.fixedStatement declarators body) (.declarators place) id
  | fixedBody {declarators id} : Stores (.fixedStatement declarators (some id)) .body id
  | addressOfReference {id} : Stores (.addressOf id) .reference id
  | deconstructionTarget {id value} : Stores (.deconstruction id value) .target id
  | deconstructionValue {target id} : Stores (.deconstruction target id) .value id
  | tupleElements {elements place id} (h : elements[place]? = some id) :
    Stores (.tuple elements) (.elements place) id
  | blockOperations {operations place id} (h : operations[place]? = some id) :
    Stores (.block operations) (.operations place) id
  | otherOperands {operands place id} (h : operands[place]? = some id) :
    Stores (.other operands) (.operands place) id

/-- Every stored operation is listed as an operand. -/
theorem Stores.mem_children {shape : Shape} {field : OperandField} {id : OpId}
    (h : shape.Stores field id) : id ∈ shape.children := by
  cases h
  case invocationArguments h | propertyArguments h | fixedDeclarators h | tupleElements h |
      blockOperations h | otherOperands h =>
    simp [children, List.mem_of_getElem? h]
  all_goals simp [children]

/-- Every listed operand is stored in some field. -/
private theorem exists_stores_of_mem_children {shape : Shape} {id : OpId}
    (h : id ∈ shape.children) :
    ∃ field, shape.Stores field id := by
  -- One case for each way in which a shape holds its operands.
  cases shape
  case parameterReference | slotReference | instanceReference | typeOf | sizeOf | literal =>
    exact nomatch h
  -- One operand.
  case increment | conversion | argument | nameOf | await | variableInitializer | addressOf =>
    obtain rfl := List.mem_singleton.1 h
    exact ⟨_, by constructor⟩
  -- One operand that may be missing.
  case eventReference | fieldReference | returnStatement | variableDeclarator =>
    obtain rfl := Option.mem_toList.1 h
    exact ⟨_, by constructor⟩
  -- Two operands.
  case eventAssignment | simpleAssignment | compoundAssignment | coalesceAssignment | binary |
      implicitIndexer | inlineArrayAccess | deconstruction =>
    obtain rfl | rfl : id = _ ∨ id = _ := by simpa [children] using h
    · exact ⟨_, by constructor⟩
    · exact ⟨_, by constructor⟩
  -- A list of operands.
  case tuple | block | other =>
    obtain ⟨place, hplace⟩ := List.getElem?_of_mem h
    exact ⟨_, by constructor; exact hplace⟩
  -- A receiver that may be missing, and a list of arguments.
  case invocation | propertyReference =>
    obtain h | h := List.mem_append.1 h
    · obtain rfl := Option.mem_toList.1 h
      exact ⟨.receiver, by constructor⟩
    · obtain ⟨place, hplace⟩ := List.getElem?_of_mem h
      exact ⟨.arguments place, by constructor; exact hplace⟩
  case conditional =>
    obtain rfl | rfl | h := by simpa [children] using h
    · exact ⟨_, .conditionalCondition⟩
    · exact ⟨_, .conditionalWhenTrue⟩
    · subst h
      exact ⟨_, .conditionalWhenFalse⟩
  case forEachLoop =>
    obtain rfl | h := List.mem_cons.1 h
    · exact ⟨_, .loopCollection⟩
    · obtain rfl := Option.mem_toList.1 h
      exact ⟨_, .loopBody⟩
  case range =>
    obtain h | h := List.mem_append.1 h
    · obtain rfl := Option.mem_toList.1 h
      exact ⟨_, .rangeLeft⟩
    · obtain rfl := Option.mem_toList.1 h
      exact ⟨_, .rangeRight⟩
  case fixedStatement =>
    obtain h | h := List.mem_append.1 h
    · obtain ⟨place, hplace⟩ := List.getElem?_of_mem h
      exact ⟨_, .fixedDeclarators hplace⟩
    · obtain rfl := Option.mem_toList.1 h
      exact ⟨_, .fixedBody⟩

/-- The list of operands forgets no field of any shape and holds nothing else. -/
theorem mem_children_iff {shape : Shape} {id : OpId} :
    id ∈ shape.children ↔ ∃ field, shape.Stores field id :=
  ⟨exists_stores_of_mem_children, fun ⟨_, h⟩ => h.mem_children⟩

/-- A list without duplicates holds an operation at one place only. -/
private theorem place_unique {ids : List OpId} {i j : Nat} {id : OpId} (hnodup : ids.Nodup)
    (hi : ids[i]? = some id) (hj : ids[j]? = some id) : i = j :=
  (List.getElem?_inj (List.getElem?_eq_some_iff.1 hi).1 hnodup).1 (hi.trans hj.symm)

/-- No two fields store the same operation when the list of operands has no duplicates. -/
theorem Stores.field_unique {shape : Shape} {field other : OperandField} {id : OpId}
    (hnodup : shape.children.Nodup) (hfield : shape.Stores field id)
    (hother : shape.Stores other id) : field = other := by
  cases hfield <;> cases hother
  -- Two places of a list field are one.
  case invocationArguments.invocationArguments hi _ hj |
      propertyArguments.propertyArguments hi _ hj =>
    rw [place_unique (List.nodup_append.1 hnodup).2.1 hi hj]
  case fixedDeclarators.fixedDeclarators hi _ hj =>
    rw [place_unique (List.nodup_append.1 hnodup).1 hi hj]
  case tupleElements.tupleElements hi _ hj | blockOperations.blockOperations hi _ hj |
      otherOperands.otherOperands hi _ hj =>
    rw [place_unique hnodup hi hj]
  -- A list field and another one would put the operation into the list of operands twice.
  case invocationReceiver.invocationArguments hi | invocationArguments.invocationReceiver hi |
      propertyReceiver.propertyArguments hi | propertyArguments.propertyReceiver hi =>
    exact absurd (List.mem_of_getElem? hi) (List.nodup_cons.1 hnodup).1
  case fixedDeclarators.fixedBody hi | fixedBody.fixedDeclarators hi =>
    exact absurd rfl ((List.nodup_append.1 hnodup).2.2 id (List.mem_of_getElem? hi) id
      List.mem_cons_self)
  -- So would two single fields.
  all_goals first | rfl | simp [children] at hnodup

end Shape

end DefensiveCopy
