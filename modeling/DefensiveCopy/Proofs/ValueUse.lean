import DefensiveCopy.Operation.Usage
import DefensiveCopy.Proofs.Forest
import Mathlib.Logic.Relation

/-!
# What a value is used for

In a built tree the use of a value is found by going up from the value to the outermost conditional
that it is a branch of, and looking at what stands around it there.  Four groups of rules say what
the use is, and the first that applies decides: the operation around the value may decide alone
(`Model.ParentUse`), the value may stand on the left of a deconstruction at any depth
(`Model.IsDeconstructionTarget`), it may be what a local reference starts with (`Model.BindingUse`),
and in all other places it is read.

The rules are stated by what the operations store and never by parent links, which are what the
search follows; in a built tree the two agree (`Model.IsBuilt`).

## Key results

- `Model.IsBuilt.usageSite_eq_iff`: the search goes to the outermost conditional
- `Model.IsBuilt.isDeconstructed_iff`: it finds deconstructions at any depth
- `Model.IsBuilt.directUsage_eq_iff`: the first rule that applies decides
- `Builder.valueUsage_eq_iff`: the use of a value in a built tree
-/

namespace DefensiveCopy

namespace Model

variable {m : Model} {id : OpId} {usage : ValueUsage}

/-! ## The rules -/

/-- The operation is a branch of the conditional. -/
def IsBranchOf (m : Model) (id conditional : OpId) : Prop :=
  ∃ condition whenTrue whenFalse isRef,
    m.shape? conditional = some (.conditional condition whenTrue whenFalse isRef) ∧
      (whenTrue = id ∨ whenFalse = some id)

/-- The site is the outermost conditional that the operation is a branch of, directly or through
    other conditionals, or the operation itself if it is no branch. -/
def IsSiteOf (m : Model) (site id : OpId) : Prop :=
  Relation.ReflTransGen m.IsBranchOf id site ∧ ∀ conditional, ¬m.IsBranchOf site conditional

/-- The uses that the operation around a value decides alone. -/
inductive ParentUse (m : Model) (id : OpId) : ValueUsage → Prop where
  | alone (hroot : m.tree.parent? id = none) : ParentUse m id .read
  | assigned {parent value : OpId} {isRef : Bool}
    (hparent : m.shape? parent = some (.simpleAssignment id value isRef)) : ParentUse m id .write
  /-- What a reference is redirected to. -/
  | referenced {parent target : OpId}
    (hparent : m.shape? parent = some (.simpleAssignment target id true)) :
    ParentUse m id .readWriteReference
  | compoundAssigned {parent value : OpId} {operator : BinaryOperator}
    (hparent : m.shape? parent = some (.compoundAssignment operator id value)) :
    ParentUse m id .readWrite
  | coalesceAssigned {parent value : OpId}
    (hparent : m.shape? parent = some (.coalesceAssignment id value)) : ParentUse m id .readWrite
  | incremented {parent : OpId} {isDecrement : Bool}
    (hparent : m.shape? parent = some (.increment id isDecrement)) : ParentUse m id .readWrite
  | named {parent : OpId} (hparent : m.shape? parent = some (.nameOf id)) : ParentUse m id .named
  /-- An argument for an `in`, `ref readonly` or read-only reference parameter. -/
  | passedToRead {parent : OpId} {parameter : Token} {symbol : ParameterSymbol}
    (hparent : m.shape? parent = some (.argument (some parameter) id))
    (hparameter : m.symbols.parameter? parameter = some symbol)
    (hkind : symbol.refKind = .byIn ∨ symbol.refKind = .byRefReadOnly ∨
      symbol.refKind = .byRefReadOnlyParameter) : ParentUse m id .readReference
  /-- An argument for an `out` parameter. -/
  | passedToWrite {parent : OpId} {parameter : Token} {symbol : ParameterSymbol}
    (hparent : m.shape? parent = some (.argument (some parameter) id))
    (hparameter : m.symbols.parameter? parameter = some symbol)
    (hkind : symbol.refKind = .byOut) : ParentUse m id .writeReference
  /-- An argument for a `ref` parameter. -/
  | passedToReadWrite {parent : OpId} {parameter : Token} {symbol : ParameterSymbol}
    (hparent : m.shape? parent = some (.argument (some parameter) id))
    (hparameter : m.symbols.parameter? parameter = some symbol)
    (hkind : symbol.refKind = .byRef) : ParentUse m id .readWriteReference
  /-- An argument for a value parameter, or for no known parameter. -/
  | passedByValue {parent : OpId} {parameter : Option Token}
    (hparent : m.shape? parent = some (.argument parameter id))
    (hvalue : ∀ token ∈ parameter, ∀ symbol, m.symbols.parameter? token = some symbol →
      symbol.refKind = .byValue) : ParentUse m id .read
  | returnedToRead {parent : OpId} {member : Token} {method : MethodSymbol}
    (hparent : m.shape? parent = some (.returnStatement (some id)))
    (hmember : m.enclosingSymbol? parent = some member)
    (hmethod : m.symbols.method? member = some method)
    (hkind : method.refKind = .byRefReadOnly) : ParentUse m id .readReference
  | returnedToReadWrite {parent : OpId} {member : Token} {method : MethodSymbol}
    (hparent : m.shape? parent = some (.returnStatement (some id)))
    (hmember : m.enclosingSymbol? parent = some member)
    (hmethod : m.symbols.method? member = some method)
    (hkind : method.refKind = .byRef) : ParentUse m id .readWriteReference
  | returnedByValue {parent : OpId}
    (hparent : m.shape? parent = some (.returnStatement (some id)))
    (hvalue : ∀ member ∈ m.enclosingSymbol? parent, ∀ method,
      m.symbols.method? member = some method →
        method.refKind ≠ .byRefReadOnly ∧ method.refKind ≠ .byRef) : ParentUse m id .read
  /-- The condition of a conditional. -/
  | tested {parent whenTrue : OpId} {whenFalse : Option OpId} {isRef : Bool}
    (hparent : m.shape? parent = some (.conditional id whenTrue whenFalse isRef)) :
    ParentUse m id .read

/-- The operation is the target of a deconstruction, or stands inside of tuples and conversions
    that are. -/
inductive IsDeconstructionTarget (m : Model) : OpId → Prop where
  | target {id parent value : OpId} (hparent : m.shape? parent = some (.deconstruction id value)) :
    IsDeconstructionTarget m id
  | element {id parent : OpId} {elements : List OpId}
    (hparent : m.shape? parent = some (.tuple elements)) (hmem : id ∈ elements)
    (htarget : IsDeconstructionTarget m parent) : IsDeconstructionTarget m id
  | converted {id parent : OpId} {isUserDefined : Bool} {method : Option Token}
    (hparent : m.shape? parent = some (.conversion id isUserDefined method))
    (htarget : IsDeconstructionTarget m parent) : IsDeconstructionTarget m id

/-- The uses of what a local reference starts with. -/
inductive BindingUse (m : Model) (id : OpId) : ValueUsage → Prop where
  | toRead {initializer declarator : OpId} {slot : Token} {symbol : SlotSymbol}
    (hinitializer : m.shape? initializer = some (.variableInitializer id))
    (hdeclarator : m.shape? declarator = some (.variableDeclarator slot (some initializer)))
    (hslot : m.symbols.slot? slot = some symbol) (hkind : symbol.refKind = .byRefReadOnly) :
    BindingUse m id .readReference
  | toReadWrite {initializer declarator : OpId} {slot : Token} {symbol : SlotSymbol}
    (hinitializer : m.shape? initializer = some (.variableInitializer id))
    (hdeclarator : m.shape? declarator = some (.variableDeclarator slot (some initializer)))
    (hslot : m.symbols.slot? slot = some symbol) (hkind : symbol.refKind = .byRef) :
    BindingUse m id .readWriteReference

/-- The use of a value by what stands around it: the first rule that applies decides. -/
inductive HasUse (m : Model) (id : OpId) : ValueUsage → Prop where
  | parent {usage : ValueUsage} (huse : m.ParentUse id usage) : HasUse m id usage
  | deconstructed (hparent : ∀ usage, ¬m.ParentUse id usage)
    (htarget : m.IsDeconstructionTarget id) : HasUse m id .write
  | bound {usage : ValueUsage} (hparent : ∀ usage, ¬m.ParentUse id usage)
    (htarget : ¬m.IsDeconstructionTarget id) (huse : m.BindingUse id usage) : HasUse m id usage
  | other (hparent : ∀ usage, ¬m.ParentUse id usage) (htarget : ¬m.IsDeconstructionTarget id)
    (hbound : ∀ usage, ¬m.BindingUse id usage) : HasUse m id .read

/-- Some rule applies. -/
private theorem exists_hasUse (m : Model) (id : OpId) : ∃ usage, m.HasUse id usage := by
  by_cases hparent : ∃ usage, m.ParentUse id usage
  · obtain ⟨usage, huse⟩ := hparent
    exact ⟨usage, .parent huse⟩
  have hnone : ∀ usage, ¬m.ParentUse id usage := not_exists.1 hparent
  by_cases htarget : m.IsDeconstructionTarget id
  · exact ⟨.write, .deconstructed hnone htarget⟩
  by_cases hbound : ∃ usage, m.BindingUse id usage
  · obtain ⟨usage, huse⟩ := hbound
    exact ⟨usage, .bound hnone htarget huse⟩
  · exact ⟨.read, .other hnone htarget (not_exists.1 hbound)⟩

/-- An argument is always used as its parameter says. -/
private theorem exists_parentUse_of_argument {parent : OpId} {parameter : Option Token}
    (hparent : m.shape? parent = some (.argument parameter id)) :
    ∃ usage, m.ParentUse id usage := by
  cases hfound : parameter.bind m.symbols.parameter? with
  | none =>
    refine ⟨_, .passedByValue hparent fun token htoken symbol hsymbol => ?_⟩
    cases hfound.symm.trans (Option.bind_eq_some_iff.2 ⟨token, htoken, hsymbol⟩)
  | some symbol =>
    obtain ⟨token, rfl, hsymbol⟩ := Option.bind_eq_some_iff.1 hfound
    -- Every kind of parameter has its rule.
    cases hkind : symbol.refKind with
    | byIn => exact ⟨_, .passedToRead hparent hsymbol (.inl hkind)⟩
    | byRefReadOnly => exact ⟨_, .passedToRead hparent hsymbol (.inr (.inl hkind))⟩
    | byRefReadOnlyParameter => exact ⟨_, .passedToRead hparent hsymbol (.inr (.inr hkind))⟩
    | byOut => exact ⟨_, .passedToWrite hparent hsymbol hkind⟩
    | byRef => exact ⟨_, .passedToReadWrite hparent hsymbol hkind⟩
    | byValue =>
      refine ⟨_, .passedByValue hparent fun other hother found hfound => ?_⟩
      obtain rfl := Option.mem_some_iff.1 hother
      cases hsymbol.symm.trans hfound
      exact hkind

/-- A returned value is always used as the method around it says. -/
private theorem exists_parentUse_of_return {parent : OpId}
    (hparent : m.shape? parent = some (.returnStatement (some id))) :
    ∃ usage, m.ParentUse id usage := by
  by_cases hreference : ∃ member ∈ m.enclosingSymbol? parent, ∃ method,
      m.symbols.method? member = some method ∧
        (method.refKind = .byRefReadOnly ∨ method.refKind = .byRef)
  · obtain ⟨member, hmember, method, hmethod, hkind | hkind⟩ := hreference
    · exact ⟨_, .returnedToRead hparent hmember hmethod hkind⟩
    · exact ⟨_, .returnedToReadWrite hparent hmember hmethod hkind⟩
  · refine ⟨_, .returnedByValue hparent fun member hmember method hmethod => ?_⟩
    rw [← not_or]
    exact fun hkind => hreference ⟨member, hmember, method, hmethod, hkind⟩

/-- An operation that is no branch is its own site. -/
private theorem usageSite_of_not_isBranchOf (h : ∀ conditional, ¬m.IsBranchOf id conditional) :
    m.usageSite id = id := by
  cases hparent : m.tree.parent? id with
  | none => exact m.usageSite_of_root hparent
  | some parent =>
    rw [m.usageSite_of_parent hparent]
    split
    · next condition whenTrue whenFalse isRef hshape =>
      exact if_neg fun hbranch => h parent ⟨condition, whenTrue, whenFalse, isRef, hshape, hbranch⟩
    · rfl

/-! ## Built trees -/

namespace IsBuilt

variable (hm : m.IsBuilt)

include hm

/-- An operand is used as its parent says. -/
private theorem directUsage_of_mem {parent : OpId} {shape : Shape}
    (hshape : m.shape? parent = some shape)
    (hmem : id ∈ shape.children) : m.directUsage id = m.usageBy id parent shape := by
  simp only [directUsage, hm.parent_of_mem hshape hmem, hshape]

/-! ## The outermost conditional -/

/-- The conditional of a branch is its parent. -/
private theorem parent_of_isBranchOf {conditional : OpId} (h : m.IsBranchOf id conditional) :
    m.tree.parent? id = some conditional := by
  obtain ⟨condition, whenTrue, whenFalse, isRef, hshape, rfl | rfl⟩ := h
  · exact hm.parent_of_mem hshape (by simp [Shape.children])
  · exact hm.parent_of_mem hshape (by simp [Shape.children])

/-- A branch has the site of its conditional. -/
private theorem usageSite_of_isBranchOf {conditional : OpId} (h : m.IsBranchOf id conditional) :
    m.usageSite id = m.usageSite conditional := by
  rw [m.usageSite_of_parent (hm.parent_of_isBranchOf h)]
  obtain ⟨condition, whenTrue, whenFalse, isRef, hshape, hbranch⟩ := h
  simp only [hshape, if_pos hbranch]

/-- The search ends at a site. -/
private theorem isSiteOf_usageSite (id : OpId) : m.IsSiteOf (m.usageSite id) id := by
  -- The search goes up the parents, as the list of the ancestors does.
  fun_induction Tree.ancestors m.tree id with
  | case1 id hroot =>
    rw [m.usageSite_of_root hroot]
    refine ⟨.refl, fun conditional hbranch => ?_⟩
    cases hroot.symm.trans (hm.parent_of_isBranchOf hbranch)
  | case2 id parent hparent ih =>
    by_cases hbranch : m.IsBranchOf id parent
    · rw [hm.usageSite_of_isBranchOf hbranch]
      exact ⟨.head hbranch ih.1, ih.2⟩
    · have hnone : ∀ conditional, ¬m.IsBranchOf id conditional := by
        intro conditional hconditional
        cases hparent.symm.trans (hm.parent_of_isBranchOf hconditional)
        exact hbranch hconditional
      rw [usageSite_of_not_isBranchOf hnone]
      exact ⟨.refl, hnone⟩

/-- The search goes to the only site. -/
theorem usageSite_eq_iff {site : OpId} : m.usageSite id = site ↔ m.IsSiteOf site id := by
  constructor
  · rintro rfl
    exact hm.isSiteOf_usageSite id
  · rintro ⟨hway, hend⟩
    -- The way is taken from its inner end, where the search starts.
    induction hway using Relation.ReflTransGen.head_induction_on with
    | refl => exact usageSite_of_not_isBranchOf hend
    | head hbranch _ ih => exact (hm.usageSite_of_isBranchOf hbranch).trans ih

/-! ## Deconstructions -/

/-- The search finds deconstructions at any depth. -/
theorem isDeconstructed_iff : m.isDeconstructed id ↔ m.IsDeconstructionTarget id := by
  constructor
  · intro h
    fun_induction Tree.ancestors m.tree id with
    | case1 id hroot =>
      rw [m.isDeconstructed_of_root hroot] at h
      cases h
    | case2 id parent hparent ih =>
      -- The parent stores the operation, and its shape says which rule applies.
      obtain ⟨shape, hshape, hmem⟩ := hm.parent_iff.1 hparent
      rw [m.isDeconstructed_of_parent hparent, hshape] at h
      split at h
      · next heq =>
        cases heq
        obtain rfl := beq_iff_eq.1 h
        exact .target hshape
      · next heq =>
        cases heq
        -- Inside a tuple, the tuple has to be a target.
        exact .element hshape hmem (ih h)
      · next heq =>
        cases heq
        obtain rfl := List.mem_singleton.1 hmem
        exact .converted hshape (ih h)
      · cases h
  · intro h
    induction h with
    | @target id parent _ hparent =>
      have hlink : m.tree.parent? id = some parent :=
        hm.parent_of_mem hparent (by simp [Shape.children])
      simp [m.isDeconstructed_of_parent hlink, hparent]
    | @element id parent _ hparent hmem _ ih =>
      have hlink : m.tree.parent? id = some parent := hm.parent_of_mem hparent hmem
      simp [m.isDeconstructed_of_parent hlink, hparent, ih]
    | @converted id parent _ _ hparent _ ih =>
      have hlink : m.tree.parent? id = some parent :=
        hm.parent_of_mem hparent (by simp [Shape.children])
      simp [m.isDeconstructed_of_parent hlink, hparent, ih]

/-! ## The rules decide -/

/-- What the operation around a value decides alone is the use of the value. -/
private theorem directUsage_of_parentUse (h : m.ParentUse id usage) : m.directUsage id = usage := by
  cases h with
  | alone hroot => simp [directUsage, hroot]
  | assigned hparent =>
    rw [hm.directUsage_of_mem hparent (by simp [Shape.children])]
    exact if_pos rfl
  | @referenced _ target hparent =>
    rw [hm.directUsage_of_mem hparent (by simp [Shape.children])]
    -- Target and value are two operands, so the value is not taken for the target.
    have hne : target ≠ id := by simpa [Shape.children] using hm.nodup hparent
    simp [usageBy, hne]
  | compoundAssigned hparent | coalesceAssigned hparent =>
    rw [hm.directUsage_of_mem hparent (by simp [Shape.children])]
    exact if_pos rfl
  | incremented hparent | named hparent | tested hparent =>
    rw [hm.directUsage_of_mem hparent (by simp [Shape.children])]
    rfl
  | passedToRead hparent hparameter hkind =>
    rw [hm.directUsage_of_mem hparent (by simp [Shape.children])]
    -- The three kinds of read-only references are passed alike.
    rcases hkind with hkind | hkind | hkind <;>
      simp [usageBy, hparameter, hkind, ValueUsage.ofArgument]
  | passedToWrite hparent hparameter hkind | passedToReadWrite hparent hparameter hkind =>
    rw [hm.directUsage_of_mem hparent (by simp [Shape.children])]
    simp [usageBy, hparameter, hkind, ValueUsage.ofArgument]
  | @passedByValue _ parameter hparent hvalue =>
    rw [hm.directUsage_of_mem hparent (by simp [Shape.children])]
    cases hfound : parameter.bind m.symbols.parameter? with
    | none => simp [usageBy, hfound, ValueUsage.ofArgument]
    | some symbol =>
      obtain ⟨token, htoken, hsymbol⟩ := Option.bind_eq_some_iff.1 hfound
      simp [usageBy, hfound, hvalue token htoken symbol hsymbol, ValueUsage.ofArgument]
  | returnedToRead hparent hmember hmethod hkind
  | returnedToReadWrite hparent hmember hmethod hkind =>
    rw [hm.directUsage_of_mem hparent (by simp [Shape.children])]
    simp [usageBy, hmember, hmethod, hkind, ValueUsage.ofBinding]
  | @returnedByValue parent hparent hvalue =>
    rw [hm.directUsage_of_mem hparent (by simp [Shape.children])]
    cases hfound : (m.enclosingSymbol? parent).bind m.symbols.method? with
    | none => simp [usageBy, hfound, ValueUsage.ofBinding]
    | some method =>
      obtain ⟨member, hmember, hmethod⟩ := Option.bind_eq_some_iff.1 hfound
      -- The method returns neither kind of reference, so the value is read.
      obtain ⟨hreadOnly, href⟩ := hvalue member hmember method hmethod
      rw [usageBy, hfound, Option.map_some]
      cases hkind : method.refKind <;> simp_all [ValueUsage.ofBinding]

/-- The target of a deconstruction is written. -/
private theorem directUsage_of_isDeconstructionTarget (h : m.IsDeconstructionTarget id) :
    m.directUsage id = .write := by
  have hfound := hm.isDeconstructed_iff.2 h
  -- Only operations that decide nothing alone hold targets of deconstructions.
  cases h with
  | target hparent | converted hparent _ =>
    rw [hm.directUsage_of_mem hparent (by simp [Shape.children])]
    exact if_pos hfound
  | element hparent hmem _ =>
    rw [hm.directUsage_of_mem hparent hmem]
    exact if_pos hfound

/-- The reference kind of the local variable is found from its initializer. -/
private theorem initializedRefKind?_of_declarator {initializer declarator : OpId} {slot : Token}
    (hdeclarator : m.shape? declarator = some (.variableDeclarator slot (some initializer))) :
    m.initializedRefKind? initializer = (m.symbols.slot? slot).map (·.refKind) := by
  have hlink : m.tree.parent? initializer = some declarator :=
    hm.parent_of_mem hdeclarator (by simp [Shape.children])
  simp [initializedRefKind?, hlink, hdeclarator]

/-- What a local reference starts with is used as the reference is. -/
private theorem directUsage_of_bindingUse (h : m.BindingUse id usage) :
    m.directUsage id = usage := by
  cases h with
  | toRead hinitializer hdeclarator hslot hkind
  | toReadWrite hinitializer hdeclarator hslot hkind =>
    rw [hm.directUsage_of_mem hinitializer (by simp [Shape.children])]
    simp [usageBy, hm.initializedRefKind?_of_declarator hdeclarator, hslot, hkind,
      ValueUsage.ofBinding]

/-- What an initializer starts a local variable with is read, unless the variable is a reference. -/
private theorem ofBinding_eq_read {initializer : OpId}
    (hinitializer : m.shape? initializer = some (.variableInitializer id))
    (hbound : ∀ usage, ¬m.BindingUse id usage) :
    ValueUsage.ofBinding (m.initializedRefKind? initializer) = .read := by
  cases hfound : m.initializedRefKind? initializer with
  | none => rfl
  | some kind =>
    unfold initializedRefKind? at hfound
    split at hfound
    · next slot declared hdeclarator =>
      obtain ⟨declarator, hlink, hdeclarator⟩ := Option.bind_eq_some_iff.1 hdeclarator
      obtain ⟨symbol, hslot, hkind⟩ := Option.map_eq_some_iff.1 hfound
      -- The declarator is the parent, so what it declares starts with this initializer.
      obtain ⟨shape, hshape, hmem⟩ := hm.parent_iff.1 hlink
      cases hdeclarator.symm.trans hshape
      obtain rfl : declared = some initializer := by simpa [Shape.children] using hmem
      cases kind with
      | byRefReadOnly => exact absurd (.toRead hinitializer hdeclarator hslot hkind) (hbound _)
      | byRef => exact absurd (.toReadWrite hinitializer hdeclarator hslot hkind) (hbound _)
      | byValue | byIn | byOut | byRefReadOnlyParameter => rfl
    · cases hfound

/-- Where no other rule applies, a value is read. -/
private theorem directUsage_of_other (hparent : ∀ usage, ¬m.ParentUse id usage)
    (htarget : ¬m.IsDeconstructionTarget id) (hbound : ∀ usage, ¬m.BindingUse id usage) :
    m.directUsage id = .read := by
  cases hlink : m.tree.parent? id with
  | none => exact absurd (.alone hlink) (hparent _)
  | some parent =>
    obtain ⟨shape, hshape, hmem⟩ := hm.parent_iff.1 hlink
    rw [hm.directUsage_of_mem hshape hmem]
    unfold usageBy
    split
    · -- assignment
      next target value isRef =>
      have htarget : target ≠ id := by
        rintro rfl
        exact hparent _ (.assigned hshape)
      have hvalue : ¬(isRef ∧ value = id) := by
        rintro ⟨rfl, rfl⟩
        exact hparent _ (.referenced hshape)
      rw [if_neg htarget, if_neg hvalue]
    · -- compound assignment
      refine if_neg ?_
      rintro rfl
      exact hparent _ (.compoundAssigned hshape)
    · -- assignment of what is missing
      refine if_neg ?_
      rintro rfl
      exact hparent _ (.coalesceAssigned hshape)
    · -- increment
      obtain rfl := List.mem_singleton.1 hmem
      exact absurd (.incremented hshape) (hparent _)
    · -- `nameof`
      obtain rfl := List.mem_singleton.1 hmem
      exact absurd (.named hshape) (hparent _)
    · -- argument
      obtain rfl := List.mem_singleton.1 hmem
      obtain ⟨usage, huse⟩ := exists_parentUse_of_argument hshape
      exact absurd huse (hparent usage)
    · -- `return`
      obtain rfl := Option.mem_toList.1 hmem
      obtain ⟨usage, huse⟩ := exists_parentUse_of_return hshape
      exact absurd huse (hparent usage)
    · rfl
    · -- initializer
      obtain rfl := List.mem_singleton.1 hmem
      exact hm.ofBinding_eq_read hshape hbound
    · -- all other operations
      exact if_neg fun hfound => htarget (hm.isDeconstructed_iff.1 hfound)

/-- The first rule that applies decides. -/
theorem directUsage_eq_iff : m.directUsage id = usage ↔ m.HasUse id usage := by
  have hdecides : ∀ {usage}, m.HasUse id usage → m.directUsage id = usage := by
    intro usage h
    cases h with
    | parent huse => exact hm.directUsage_of_parentUse huse
    | deconstructed _ htarget => exact hm.directUsage_of_isDeconstructionTarget htarget
    | bound _ _ huse => exact hm.directUsage_of_bindingUse huse
    | other hparent htarget hbound => exact hm.directUsage_of_other hparent htarget hbound
  refine ⟨?_, hdecides⟩
  rintro rfl
  obtain ⟨usage, huse⟩ := m.exists_hasUse id
  rw [hdecides huse]
  exact huse

end IsBuilt

end Model

namespace Builder

/-- In a built tree, a value is used for what the first rule says that applies at the outermost
    conditional of which it is a branch, directly or through other conditionals. -/
theorem valueUsage_eq_iff {typing : SymbolTable} {document : String} {b : Builder}
    (hrun : Run (new typing document) b) (symbols : SymbolTable) (id : OpId) (usage : ValueUsage) :
    Model.valueUsage { symbols, tree := b.toTree } id = usage ↔
      ∃ site, Model.IsSiteOf { symbols, tree := b.toTree } site id ∧
        Model.HasUse { symbols, tree := b.toTree } site usage := by
  have hm := Model.isBuilt_of_wellBuilt (wellBuilt_of_run hrun) symbols
  constructor
  · intro h
    exact ⟨_, hm.isSiteOf_usageSite id, hm.directUsage_eq_iff.1 h⟩
  · rintro ⟨site, hsite, huse⟩
    rw [Model.valueUsage, hm.usageSite_eq_iff.2 hsite]
    exact hm.directUsage_eq_iff.2 huse

/-- A choice between three values on the left of a deconstruction, inside of a tuple and a
    conversion. -/
def choiceScript : List ScriptItem :=
  [.add true (.literal none), .add true (.literal none), .add true (.literal none),
   .add true (.refConditional ⟨0⟩ ⟨1⟩ ⟨2⟩),
   .add true (.literal none), .add true (.literal none),
   .add true (.refConditional ⟨4⟩ ⟨5⟩ ⟨3⟩),
   .add true (.operation (.tuple [⟨6⟩]) none false),
   .add true (.operation (.conversion ⟨7⟩ false none) none false),
   .add true (.literal none),
   .add true (.operation (.deconstruction ⟨8⟩ ⟨9⟩) none false)]

/-- The builder that the script ends with. -/
def choiceBuilder : Builder := (ScriptItem.runAll choiceScript (new {} "Choice")).2.2

/-- The innermost value is written to, and the conditions and the right side are read. -/
theorem valueUsage_choiceBuilder :
    Run (new {} "Choice") choiceBuilder ∧
    (∃ site, Model.IsSiteOf { symbols := {}, tree := choiceBuilder.toTree } site ⟨2⟩ ∧
      Model.HasUse { symbols := {}, tree := choiceBuilder.toTree } site .write) ∧
    Model.valueUsage { symbols := {}, tree := choiceBuilder.toTree } ⟨0⟩ = .read ∧
    Model.valueUsage { symbols := {}, tree := choiceBuilder.toTree } ⟨9⟩ = .read := by
  have hrun : Run (new {} "Choice") choiceBuilder := run_of_items choiceScript _
  have hwritten :
      Model.valueUsage { symbols := {}, tree := choiceBuilder.toTree } ⟨2⟩ = .write := by
    decide +kernel
  exact ⟨hrun, (valueUsage_eq_iff hrun {} ⟨2⟩ .write).1 hwritten, by decide +kernel,
    by decide +kernel⟩

end Builder

end DefensiveCopy
