import DefensiveCopy.Model

/-! # How a value is used

The operation around an expression decides whether its value is read, written, taken a reference to,
or only named.  The branches of a conditional are used as the conditional is, so the use is decided
at the outermost conditional of which the expression is a branch (`usageSite`).

For a property the use decides which accessors run. -/

namespace DefensiveCopy

/-- The ways in which a value is used. -/
structure ValueUsage where
  reads : Bool := false
  writes : Bool := false
  takesReference : Bool := false
  names : Bool := false
  deriving DecidableEq, Inhabited

namespace ValueUsage

def read : ValueUsage := { reads := true }

def write : ValueUsage := { writes := true }

def readWrite : ValueUsage := { reads := true, writes := true }

def named : ValueUsage := { names := true }

/-- A reference that is only read through. -/
def readReference : ValueUsage := { reads := true, takesReference := true }

/-- A reference that is only written through. -/
def writeReference : ValueUsage := { writes := true, takesReference := true }

/-- A reference that is read and written through. -/
def readWriteReference : ValueUsage := { reads := true, writes := true, takesReference := true }

/-- The use of an argument, by how its parameter is passed. -/
def ofArgument : Option RefKind → ValueUsage
  | some .byIn | some .byRefReadOnly | some .byRefReadOnlyParameter => readReference
  | some .byOut => writeReference
  | some .byRef => readWriteReference
  | some .byValue | none => read

/-- The use of a returned value, and of the initial value of a local variable, by how it is handed
    on. -/
def ofBinding : Option RefKind → ValueUsage
  | some .byRefReadOnly => readReference
  | some .byRef => readWriteReference
  | _ => read

end ValueUsage

namespace Model

/-- The outermost conditional that an operation is a branch of, directly or through other
    conditionals; the operation itself if it is no branch. -/
def usageSite (m : Model) (id : OpId) : OpId :=
  match _h : m.tree.parent? id with
  | none => id
  | some parent =>
    match m.shape? parent with
    | some (.conditional _ whenTrue whenFalse _) =>
      if whenTrue = id ∨ whenFalse = some id then m.usageSite parent else id
    | _ => id
termination_by m.tree.size - id.index
decreasing_by exact Tree.size_sub_lt_of_parent? (by assumption)

/-- An operation without a parent is its own site of use. -/
theorem usageSite_of_root (m : Model) {id : OpId} (h : m.tree.parent? id = none) :
    m.usageSite id = id := by
  rw [usageSite]
  split
  · rfl
  · next hparent => cases h.symm.trans hparent

/-- One step of the walk to the site of use, without the termination argument. -/
theorem usageSite_of_parent (m : Model) {id parent : OpId}
    (h : m.tree.parent? id = some parent) :
    m.usageSite id =
      match m.shape? parent with
      | some (.conditional _ whenTrue whenFalse _) =>
        if whenTrue = id ∨ whenFalse = some id then m.usageSite parent else id
      | _ => id := by
  rw [usageSite]
  split
  · next hroot => cases h.symm.trans hroot
  · next found hfound =>
    cases h.symm.trans hfound
    rfl

/-- The operation stands on the left of a deconstruction, directly or inside tuples and
    conversions. -/
def isDeconstructed (m : Model) (id : OpId) : Bool :=
  match _h : m.tree.parent? id with
  | none => false
  | some parent =>
    match m.shape? parent with
    | some (.deconstruction target _) => target == id
    | some (.tuple _) | some (.conversion _ _ _) => m.isDeconstructed parent
    | _ => false
termination_by m.tree.size - id.index
decreasing_by exact Tree.size_sub_lt_of_parent? (by assumption)

/-- An operation without a parent is not deconstructed into. -/
theorem isDeconstructed_of_root (m : Model) {id : OpId} (h : m.tree.parent? id = none) :
    m.isDeconstructed id = false := by
  rw [isDeconstructed]
  split
  · rfl
  · next hparent => cases h.symm.trans hparent

/-- One step of the walk to a deconstruction, without the termination argument. -/
theorem isDeconstructed_of_parent (m : Model) {id parent : OpId}
    (h : m.tree.parent? id = some parent) :
    m.isDeconstructed id =
      match m.shape? parent with
      | some (.deconstruction target _) => target == id
      | some (.tuple _) | some (.conversion _ _ _) => m.isDeconstructed parent
      | _ => false := by
  rw [isDeconstructed]
  split
  · next hroot => cases h.symm.trans hroot
  · next found hfound =>
    cases h.symm.trans hfound
    rfl

/-- How the local variable is stored that an initializer belongs to. -/
def initializedRefKind? (m : Model) (initializer : OpId) : Option RefKind :=
  match (m.tree.parent? initializer).bind m.shape? with
  | some (.variableDeclarator slot _) => (m.symbols.slot? slot).map (·.refKind)
  | _ => none

/-- The use of an operation by its parent, which has the given shape. -/
def usageBy (m : Model) (id parent : OpId) (shape : Shape) : ValueUsage :=
  match shape with
  | .simpleAssignment target value isRef =>
    if target = id then .write else if isRef ∧ value = id then .readWriteReference else .read
  | .compoundAssignment _ target _ | .coalesceAssignment target _ =>
    if target = id then .readWrite else .read
  | .increment _ _ => .readWrite
  | .nameOf _ => .named
  | .argument parameter _ =>
    .ofArgument ((parameter.bind m.symbols.parameter?).map (·.refKind))
  -- The member around the statement decides, not the one around the value.
  | .returnStatement _ =>
    .ofBinding (((m.enclosingSymbol? parent).bind m.symbols.method?).map (·.refKind))
  -- Branches are looked past before, so this is the condition.
  | .conditional _ _ _ _ => .read
  | .variableInitializer _ => .ofBinding (m.initializedRefKind? parent)
  -- Tuples and conversions may stand between a target and its deconstruction.
  | _ => if m.isDeconstructed id then .write else .read

/-- The use of an operation by its parent; without a parent it is read. -/
def directUsage (m : Model) (id : OpId) : ValueUsage :=
  match m.tree.parent? id with
  | none => .read
  | some parent =>
    match m.shape? parent with
    | none => .read
    | some shape => m.usageBy id parent shape

/-- How the value of an operation is used. -/
def valueUsage (m : Model) (id : OpId) : ValueUsage :=
  m.directUsage (m.usageSite id)

end Model

/-- Which accessors of a property run. -/
structure AccessorUse where
  runsGetter : Bool
  runsSetter : Bool
  deriving DecidableEq, Inhabited

namespace PropertySymbol

/-- The accessors that a use of the property runs.  A property that hands back a reference only ever
    runs its getter. -/
def accessorUse (property : PropertySymbol) (usage : ValueUsage) : AccessorUse :=
  if property.refKind = .byValue then { runsGetter := usage.reads, runsSetter := usage.writes }
  else { runsGetter := usage.takesReference || usage.reads || usage.writes, runsSetter := false }

/-- The accessors that a use of the property runs, getter first. -/
def accessorsUsed (property : PropertySymbol) (usage : ValueUsage) : List Token :=
  let use := property.accessorUse usage
  (if use.runsGetter then property.getter.toList else []) ++
    (if use.runsSetter then property.setter.toList else [])

end PropertySymbol

end DefensiveCopy
