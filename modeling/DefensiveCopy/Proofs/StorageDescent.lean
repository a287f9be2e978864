import DefensiveCopy.Proofs.Polling
import DefensiveCopy.Proofs.ReceiverSites
import DefensiveCopy.Proofs.Registration
import Mathlib.Logic.Relation

/-!
# Where the storage of a receiver is found

An expression stands for storage that may only be read exactly if it leads, in finitely many steps,
to an operation that is such storage by itself.  `Model.Descends` lists the steps: to the target of
an assignment of references, to the value that a field is part of, to a branch of a conditional of
references, to the inline array of an element.  `Model.IsReadOnlyRoot` lists the operations that are
read-only storage by themselves.  Both speak of operations and symbols only, and not of the search
that follows the steps.

## Key results

- `Model.descends_iff`: the search goes on with the operands that a step leads to
- `Model.isReadOnlyRoot_iff`: the search ends where the storage is read-only by itself
- `Model.isReadOnlyReference_iff`: the search finds a read-only root if there is one
- `Model.readOnlyReference_eq_ok_true_iff`: what a search that is not called off answers
-/

namespace DefensiveCopy.Model

variable {m : Model} {context : MemberContext} {policy : CopyPolicy} {id next : OpId}
  {shape : Shape}

/-! ## Steps and roots -/

/-- An expression stands for storage that one of its operands stands for. -/
inductive Descends (m : Model) (policy : CopyPolicy) : OpId → OpId → Prop where
  /-- An assignment of a reference stands for its target. -/
  | assignment {id target value : OpId}
    (hshape : m.shape? id = some (.simpleAssignment target value true)) :
    Descends m policy id target
  /-- A field that may be written and is no reference is part of the value that has it. -/
  | field {id receiver : OpId} {field : Token} {symbol : FieldSymbol}
    (hshape : m.shape? id = some (.fieldReference field (some receiver)))
    (hfield : m.symbols.field? field = some symbol) (hwritable : symbol.isReadOnly = false)
    (href : symbol.refKind ≠ .byRef) (hrefReadOnly : symbol.refKind ≠ .byRefReadOnly)
    (hvalue : ∀ type, m.typeOf? receiver = some type → m.symbols.isReferenceType type = false) :
    Descends m policy id receiver
  /-- A conditional of references stands for its first branch. -/
  | whenTrue {id condition whenTrue : OpId} {whenFalse : Option OpId}
    (hshape : m.shape? id = some (.conditional condition whenTrue whenFalse true)) :
    Descends m policy id whenTrue
  /-- A conditional of references stands for its second branch. -/
  | whenFalse {id condition whenTrue whenFalse : OpId}
    (hshape : m.shape? id = some (.conditional condition whenTrue (some whenFalse) true)) :
    Descends m policy id whenFalse
  /-- An element is part of its inline array; a slice is not, if slices are free of copies. -/
  | element {id receiver index : OpId}
    (hshape : m.shape? id = some (.inlineArrayAccess receiver index))
    (hslice : ¬(policy.rangeIsCopyFree = true ∧
      ∃ type, m.typeOf? index = some type ∧ m.symbols.wellKnown? type = some .range)) :
    Descends m policy id receiver

/-- An operation is by itself storage that the code may only read. -/
inductive IsReadOnlyRoot (m : Model) (context : MemberContext) : OpId → Prop where
  | invocation {id : OpId} {method : Token} {receiver : Option OpId} {arguments : List OpId}
    {symbol : MethodSymbol} (hshape : m.shape? id = some (.invocation method receiver arguments))
    (hmethod : m.symbols.method? method = some symbol)
    (hrefReadOnly : symbol.refKind = .byRefReadOnly) : IsReadOnlyRoot m context id
  | property {id : OpId} {property : Token} {receiver : Option OpId} {arguments : List OpId}
    {symbol : PropertySymbol}
    (hshape : m.shape? id = some (.propertyReference property receiver arguments))
    (hproperty : m.symbols.property? property = some symbol)
    (hrefReadOnly : symbol.refKind = .byRefReadOnly) : IsReadOnlyRoot m context id
  /-- An implicit indexer that is a method. -/
  | indexerMethod {id receiver index : OpId} {indexer length : Token} {symbol : MethodSymbol}
    (hshape : m.shape? id = some (.implicitIndexer receiver index indexer length))
    (hmethod : m.symbols.method? indexer = some symbol)
    (hrefReadOnly : symbol.refKind = .byRefReadOnly) : IsReadOnlyRoot m context id
  /-- An implicit indexer that is a property. -/
  | indexerProperty {id receiver index : OpId} {indexer length : Token} {symbol : PropertySymbol}
    (hshape : m.shape? id = some (.implicitIndexer receiver index indexer length))
    (hproperty : m.symbols.property? indexer = some symbol)
    (hrefReadOnly : symbol.refKind = .byRefReadOnly) : IsReadOnlyRoot m context id
  | slot {id : OpId} {slot : Token} {symbol : SlotSymbol}
    (hshape : m.shape? id = some (.slotReference slot))
    (hslot : m.symbols.slot? slot = some symbol)
    (hrefReadOnly : symbol.refKind = .byRefReadOnly) : IsReadOnlyRoot m context id
  /-- A parameter that is passed by read-only reference. -/
  | parameter {id : OpId} {parameter : Token} {symbol : ParameterSymbol}
    (hshape : m.shape? id = some (.parameterReference parameter))
    (hparameter : m.symbols.parameter? parameter = some symbol)
    (hkind : symbol.refKind = .byIn ∨ symbol.refKind = .byRefReadOnlyParameter) :
    IsReadOnlyRoot m context id
  /-- A parameter that is no reference and that the primary constructor of a struct keeps, inside a
      read-only member that is no constructor, and not in an initializer. -/
  | captured {id : OpId} {parameter method declaring : Token} {symbol : ParameterSymbol}
    {owner : MethodSymbol} {type : TypeSymbol}
    (hshape : m.shape? id = some (.parameterReference parameter))
    (hparameter : m.symbols.parameter? parameter = some symbol)
    (href : symbol.refKind ≠ .byRef) (hprimary : symbol.isPrimary = true)
    (hmethod : symbol.containingMethod = some method)
    (howner : m.symbols.method? method = some owner)
    (hdeclaring : owner.containingType = some declaring)
    (htype : m.symbols.type? declaring = some type) (hstruct : type.kind = .structType)
    (hmember : context.isReadOnlyMember = true) (hthis : context.allowsMutatingThis = false)
    (hinitializer : ∀ member, m.enclosingSymbol? id = some member →
      member.is .field = false ∧ member.is .property = false) : IsReadOnlyRoot m context id
  /-- A field that is a read-only reference. -/
  | refField {id : OpId} {field : Token} {receiver : Option OpId} {symbol : FieldSymbol}
    (hshape : m.shape? id = some (.fieldReference field receiver))
    (hfield : m.symbols.field? field = some symbol)
    (hrefReadOnly : symbol.refKind = .byRefReadOnly) : IsReadOnlyRoot m context id
  /-- A static read-only field, unless its own type is being initialized. -/
  | staticField {id : OpId} {field : Token} {receiver : Option OpId} {symbol : FieldSymbol}
    (hshape : m.shape? id = some (.fieldReference field receiver))
    (hfield : m.symbols.field? field = some symbol) (href : symbol.refKind ≠ .byRef)
    (hreadOnly : symbol.isReadOnly = true) (hstatic : symbol.isStatic = true)
    (hinitializer : context.staticInitializerType = none ∨
      symbol.containingType ≠ context.staticInitializerType) : IsReadOnlyRoot m context id
  /-- A read-only field of an instance, unless it is the instance that is being initialized. -/
  | instanceField {id : OpId} {field : Token} {receiver : Option OpId} {symbol : FieldSymbol}
    (hshape : m.shape? id = some (.fieldReference field receiver))
    (hfield : m.symbols.field? field = some symbol) (href : symbol.refKind ≠ .byRef)
    (hreadOnly : symbol.isReadOnly = true) (hinstance : symbol.isStatic = false)
    (hinitializer : context.allowsMutatingThis = false ∨ ∃ other, receiver = some other ∧
      m.shape? other ≠ some (.instanceReference .containingType)) : IsReadOnlyRoot m context id
  /-- The instance itself, inside a read-only member. -/
  | this {id : OpId} (hshape : m.shape? id = some (.instanceReference .containingType))
    (hmember : context.isReadOnlyMember = true) : IsReadOnlyRoot m context id

/-- Finitely many steps lead from the operation to a read-only root. -/
def LeadsToReadOnlyRoot (m : Model) (context : MemberContext) (policy : CopyPolicy) (id : OpId) :
    Prop :=
  ∃ root, Relation.ReflTransGen (m.Descends policy) id root ∧ m.IsReadOnlyRoot context root

/-! ## The parts of the search -/

/-- An operation has a well-known type if the type that it has is that one. -/
theorem hasWellKnownType_iff {wellKnown : WellKnownType} :
    m.hasWellKnownType id wellKnown = true ↔
      ∃ type, m.typeOf? id = some type ∧ m.symbols.wellKnown? type = some wellKnown := by
  simp [hasWellKnownType, Option.any_eq_true]

/-- Only the reference to the containing instance is `this`. -/
private theorem isThis_iff :
    m.isThis id = true ↔ m.shape? id = some (.instanceReference .containingType) := by
  unfold isThis
  split
  · next hshape => simp [hshape]
  · next hnot => simpa using fun hshape => hnot hshape

/-- A static field is fixed unless its own type is being initialized. -/
private theorem isFixedStorage_static_iff {receiver : Option OpId} {declaringType : Option Token} :
    m.isFixedStorage context true receiver declaringType = true ↔
      context.staticInitializerType = none ∨
        declaringType ≠ context.staticInitializerType := by
  simp [isFixedStorage]

/-- A field of an instance is fixed unless fields of `this` may be written and it is one of them. -/
private theorem isFixedStorage_instance_iff {receiver : Option OpId}
    {declaringType : Option Token} :
    m.isFixedStorage context false receiver declaringType = true ↔
      context.allowsMutatingThis = false ∨ ∃ other, receiver = some other ∧
        m.shape? other ≠ some (.instanceReference .containingType) := by
  simp [isFixedStorage, Option.any_eq_true, ← isThis_iff]

/-- A parameter is captured by a struct if it belongs to the primary constructor of one. -/
private theorem isCapturedByStruct_iff {parameter : ParameterSymbol} :
    m.isCapturedByStruct parameter = true ↔
      parameter.isPrimary = true ∧ ∃ method owner declaring type,
        parameter.containingMethod = some method ∧ m.symbols.method? method = some owner ∧
          owner.containingType = some declaring ∧ m.symbols.type? declaring = some type ∧
            type.kind = .structType := by
  simp only [isCapturedByStruct, Bool.and_eq_true, Option.any_eq_true, Option.bind_eq_some_iff,
    beq_iff_eq]
  constructor
  · rintro ⟨hprimary, type, ⟨declaring, ⟨owner, ⟨method, hmethod, howner⟩, hdeclaring⟩, htype⟩,
      hstruct⟩
    exact ⟨hprimary, method, owner, declaring, type, hmethod, howner, hdeclaring, htype, hstruct⟩
  · rintro ⟨hprimary, method, owner, declaring, type, hmethod, howner, hdeclaring, htype, hstruct⟩
    exact ⟨hprimary, type, ⟨declaring, ⟨owner, ⟨method, hmethod, howner⟩, hdeclaring⟩, htype⟩,
      hstruct⟩

/-- An operation is in no initializer if the member around it is neither a field nor a property. -/
private theorem isInInitializer_eq_false_iff :
    m.isInInitializer id = false ↔ ∀ member, m.enclosingSymbol? id = some member →
      member.is .field = false ∧ member.is .property = false := by
  unfold isInInitializer
  cases m.enclosingSymbol? id <;> simp

/-- A reference to a parameter is read-only storage in two ways. -/
private theorem isReadOnlyParameter_iff {parameter : Token} :
    m.isReadOnlyParameter context id parameter = true ↔
      ∃ symbol, m.symbols.parameter? parameter = some symbol ∧
        ((symbol.refKind = .byIn ∨ symbol.refKind = .byRefReadOnlyParameter) ∨
          symbol.refKind ≠ .byRef ∧ m.isCapturedByStruct symbol = true ∧
            context.isReadOnlyMember = true ∧ m.isInInitializer id = false ∧
              context.allowsMutatingThis = false) := by
  rw [isReadOnlyParameter, Option.any_eq_true]
  refine exists_congr fun symbol => and_congr_right fun _ => ?_
  -- A parameter by reference decides alone; all others may be captured.
  cases hkind : symbol.refKind <;> simp [isFixedStorage, and_assoc]

/-- An implicit indexer is read-only storage if the method or property that it stands for is. -/
private theorem isReadOnlyIndexer_iff {indexer : Token} :
    m.isReadOnlyIndexer indexer = true ↔
      (∃ symbol, m.symbols.method? indexer = some symbol ∧ symbol.refKind = .byRefReadOnly) ∨
        ∃ symbol, m.symbols.property? indexer = some symbol ∧
          symbol.refKind = .byRefReadOnly := by
  unfold isReadOnlyIndexer
  constructor
  · intro h
    split at h
    · obtain ⟨symbol, hmethod, href⟩ := (Option.any_eq_true _ _).1 h
      exact .inl ⟨symbol, hmethod, beq_iff_eq.1 href⟩
    · obtain ⟨symbol, hproperty, href⟩ := (Option.any_eq_true _ _).1 h
      exact .inr ⟨symbol, hproperty, beq_iff_eq.1 href⟩
    · cases h
  · -- A token that resolves has the kind of what it resolves to.
    rintro (⟨symbol, hmethod, href⟩ | ⟨symbol, hproperty, href⟩)
    · have hkind := SymbolTable.kind?_of_resolves (SymbolTable.resolves_of_get? hmethod)
      simp [hkind, hmethod, MethodSymbol.returnsByRefReadOnly, href]
    · have hkind := SymbolTable.kind?_of_resolves (SymbolTable.resolves_of_get? hproperty)
      simp [hkind, hproperty, PropertySymbol.returnsByRefReadOnly, href]

/-- A field that may be written and is no reference leads to the value that has it. -/
private theorem fieldOrigin_eq_through_iff {field : Token} {receiver : Option OpId}
    {operands : List OpId} :
    m.fieldOrigin context field receiver = .through operands ↔
      ∃ symbol, m.symbols.field? field = some symbol ∧ symbol.isReadOnly = false ∧
        symbol.refKind ≠ .byRef ∧ symbol.refKind ≠ .byRefReadOnly ∧
          (receiver.toList.filter fun id =>
            !(m.typeOf? id).any m.symbols.isReferenceType) = operands := by
  unfold fieldOrigin
  cases m.symbols.field? field with
  | none => simp
  | some symbol =>
    cases hkind : symbol.refKind <;> cases hreadOnly : symbol.isReadOnly <;>
      simp [hkind, hreadOnly]

/-- A field is read-only storage if it is a read-only reference, or if it is declared read-only and
    is not being initialized. -/
private theorem fieldOrigin_eq_storage_true_iff {field : Token} {receiver : Option OpId} :
    m.fieldOrigin context field receiver = .storage true ↔
      ∃ symbol, m.symbols.field? field = some symbol ∧
        (symbol.refKind = .byRefReadOnly ∨
          symbol.refKind ≠ .byRef ∧ symbol.isReadOnly = true ∧
            m.isFixedStorage context symbol.isStatic receiver symbol.containingType = true) := by
  unfold fieldOrigin
  cases m.symbols.field? field with
  | none => simp
  | some symbol =>
    cases hkind : symbol.refKind <;> cases hreadOnly : symbol.isReadOnly <;>
      simp [hkind, hreadOnly]

/-! ## Following the steps -/

/-- The search goes on with exactly the operands that a step leads to. -/
theorem descends_iff (context : MemberContext) (hshape : m.shape? id = some shape) :
    m.Descends policy id next ↔
      ∃ operands, m.origin context policy id shape = .through operands ∧ next ∈ operands := by
  constructor
  · -- Each step names the shape that it starts from, and there the search goes on with its operand.
    intro h
    cases h with
    | assignment hstep =>
      cases hshape.symm.trans hstep
      exact ⟨_, rfl, List.mem_singleton_self _⟩
    | field hstep hfield hwritable href hrefReadOnly hvalue =>
      cases hshape.symm.trans hstep
      refine ⟨_, fieldOrigin_eq_through_iff.2
        ⟨_, hfield, hwritable, href, hrefReadOnly, rfl⟩, List.mem_filter.2 ⟨by simp, ?_⟩⟩
      cases htype : m.typeOf? next with
      | none => rfl
      | some type => simp [hvalue type htype]
    | whenTrue hstep =>
      cases hshape.symm.trans hstep
      exact ⟨_, rfl, List.mem_cons_self⟩
    | whenFalse hstep =>
      cases hshape.symm.trans hstep
      exact ⟨_, rfl, List.mem_cons_of_mem _ List.mem_cons_self⟩
    | element hstep hslice =>
      cases hshape.symm.trans hstep
      -- The element is gone on with because it is no slice that is free of copies.
      refine ⟨_, if_neg ?_, List.mem_singleton_self _⟩
      rwa [Bool.and_eq_true, hasWellKnownType_iff]
  · rintro ⟨operands, horigin, hmem⟩
    cases shape with
    | simpleAssignment target value isRef =>
      cases isRef with
      | false => cases horigin
      | true =>
        cases horigin
        cases List.mem_singleton.1 hmem
        exact .assignment hshape
    | fieldReference field receiver =>
      obtain ⟨symbol, hfield, hwritable, href, hrefReadOnly, rfl⟩ :=
        fieldOrigin_eq_through_iff.1 horigin
      -- The receiver is gone on with only if its type is not known to be a reference type.
      obtain ⟨hreceiver, hvalue⟩ := List.mem_filter.1 hmem
      obtain rfl : receiver = some next := Option.mem_toList.1 hreceiver
      refine .field hshape hfield hwritable href hrefReadOnly fun type htype => ?_
      simpa [htype] using hvalue
    | conditional condition whenTrue whenFalse isRef =>
      cases isRef with
      | false => cases horigin
      | true =>
        cases horigin
        rcases List.mem_cons.1 hmem with rfl | hsecond
        · exact .whenTrue hshape
        · obtain rfl : whenFalse = some next := Option.mem_toList.1 hsecond
          exact .whenFalse hshape
    | instanceReference kind => cases kind <;> cases horigin
    | inlineArrayAccess receiver index =>
      rw [origin] at horigin
      split at horigin
      · cases horigin
      · next hslice =>
        cases horigin
        cases List.mem_singleton.1 hmem
        refine .element hshape ?_
        rwa [Bool.and_eq_true, hasWellKnownType_iff] at hslice
    | _ => cases horigin

/-- The search ends with a positive answer exactly at the read-only roots. -/
theorem isReadOnlyRoot_iff (policy : CopyPolicy) (hshape : m.shape? id = some shape) :
    m.IsReadOnlyRoot context id ↔ m.origin context policy id shape = .storage true := by
  constructor
  · intro h
    cases h with
    | invocation hroot hmethod hrefReadOnly =>
      cases hshape.symm.trans hroot
      simp [origin, hmethod, MethodSymbol.returnsByRefReadOnly, hrefReadOnly]
    | property hroot hproperty hrefReadOnly =>
      cases hshape.symm.trans hroot
      simp [origin, hproperty, PropertySymbol.returnsByRefReadOnly, hrefReadOnly]
    | indexerMethod hroot hmethod hrefReadOnly =>
      cases hshape.symm.trans hroot
      exact congrArg Origin.storage (isReadOnlyIndexer_iff.2 (.inl ⟨_, hmethod, hrefReadOnly⟩))
    | indexerProperty hroot hproperty hrefReadOnly =>
      cases hshape.symm.trans hroot
      exact congrArg Origin.storage (isReadOnlyIndexer_iff.2 (.inr ⟨_, hproperty, hrefReadOnly⟩))
    | slot hroot hslot hrefReadOnly =>
      cases hshape.symm.trans hroot
      simp [origin, hslot, hrefReadOnly]
    | parameter hroot hparameter hkind =>
      cases hshape.symm.trans hroot
      exact congrArg Origin.storage (isReadOnlyParameter_iff.2 ⟨_, hparameter, .inl hkind⟩)
    | captured hroot hparameter href hprimary hmethod howner hdeclaring htype hstruct hmember hthis
        hinitializer =>
      cases hshape.symm.trans hroot
      -- The primary constructor of a struct keeps the parameter as a field of its own.
      have hcaptured := isCapturedByStruct_iff.2
        ⟨hprimary, _, _, _, _, hmethod, howner, hdeclaring, htype, hstruct⟩
      exact congrArg Origin.storage (isReadOnlyParameter_iff.2 ⟨_, hparameter,
        .inr ⟨href, hcaptured, hmember, isInInitializer_eq_false_iff.2 hinitializer, hthis⟩⟩)
    | refField hroot hfield hrefReadOnly =>
      cases hshape.symm.trans hroot
      exact fieldOrigin_eq_storage_true_iff.2 ⟨_, hfield, .inl hrefReadOnly⟩
    | staticField hroot hfield href hreadOnly hstatic hinitializer =>
      cases hshape.symm.trans hroot
      refine fieldOrigin_eq_storage_true_iff.2 ⟨_, hfield, .inr ⟨href, hreadOnly, ?_⟩⟩
      rw [hstatic]
      exact isFixedStorage_static_iff.2 hinitializer
    | instanceField hroot hfield href hreadOnly hinstance hinitializer =>
      cases hshape.symm.trans hroot
      refine fieldOrigin_eq_storage_true_iff.2 ⟨_, hfield, .inr ⟨href, hreadOnly, ?_⟩⟩
      rw [hinstance]
      exact isFixedStorage_instance_iff.2 hinitializer
    | this hroot hmember =>
      cases hshape.symm.trans hroot
      exact congrArg Origin.storage hmember
  · intro horigin
    -- The shapes that are roots under conditions come first, then those that never are.
    cases shape with
    | invocation method receiver arguments =>
      obtain ⟨symbol, hmethod, href⟩ := (Option.any_eq_true _ _).1 (Origin.storage.inj horigin)
      exact .invocation hshape hmethod (beq_iff_eq.1 href)
    | propertyReference property receiver arguments =>
      obtain ⟨symbol, hproperty, href⟩ := (Option.any_eq_true _ _).1 (Origin.storage.inj horigin)
      exact .property hshape hproperty (beq_iff_eq.1 href)
    | slotReference slot =>
      obtain ⟨symbol, hslot, href⟩ := (Option.any_eq_true _ _).1 (Origin.storage.inj horigin)
      exact .slot hshape hslot (beq_iff_eq.1 href)
    | parameterReference parameter =>
      obtain ⟨symbol, hparameter, hkind | ⟨href, hcaptured, hmember, hinitializer, hthis⟩⟩ :=
        isReadOnlyParameter_iff.1 (Origin.storage.inj horigin)
      · exact .parameter hshape hparameter hkind
      · obtain ⟨hprimary, method, owner, declaring, type, hmethod, howner, hdeclaring, htype,
          hstruct⟩ := isCapturedByStruct_iff.1 hcaptured
        exact .captured hshape hparameter href hprimary hmethod howner hdeclaring htype hstruct
          hmember hthis (isInInitializer_eq_false_iff.1 hinitializer)
    | implicitIndexer receiver index indexer length =>
      obtain ⟨symbol, hmethod, href⟩ | ⟨symbol, hproperty, href⟩ :=
        isReadOnlyIndexer_iff.1 (Origin.storage.inj horigin)
      · exact .indexerMethod hshape hmethod href
      · exact .indexerProperty hshape hproperty href
    | fieldReference field receiver =>
      obtain ⟨symbol, hfield, href | ⟨href, hreadOnly, hfixed⟩⟩ :=
        fieldOrigin_eq_storage_true_iff.1 horigin
      · exact .refField hshape hfield href
      · -- A read-only field is fixed in one of two ways, as it is static or not.
        cases hstatic : symbol.isStatic with
        | true =>
          rw [hstatic] at hfixed
          exact .staticField hshape hfield href hreadOnly hstatic
            (isFixedStorage_static_iff.1 hfixed)
        | false =>
          rw [hstatic] at hfixed
          exact .instanceField hshape hfield href hreadOnly hstatic
            (isFixedStorage_instance_iff.1 hfixed)
    | instanceReference kind =>
      cases kind with
      | containingType => exact .this hshape (Origin.storage.inj horigin)
      | implicitReceiver | patternInput => cases horigin
    | simpleAssignment target value isRef => cases isRef <;> cases horigin
    | conditional condition whenTrue whenFalse isRef => cases isRef <;> cases horigin
    | inlineArrayAccess receiver index =>
      rw [origin] at horigin
      split at horigin <;> cases horigin
    | _ => cases horigin

/-- A way to a read-only root has no step, or a first step and a way on. -/
private theorem leadsToReadOnlyRoot_iff :
    m.LeadsToReadOnlyRoot context policy id ↔
      m.IsReadOnlyRoot context id ∨
        ∃ next, m.Descends policy id next ∧ m.LeadsToReadOnlyRoot context policy next := by
  constructor
  · rintro ⟨root, hpath, hroot⟩
    rcases hpath.cases_head with rfl | ⟨next, hstep, hpath⟩
    · exact .inl hroot
    · exact .inr ⟨next, hstep, root, hpath, hroot⟩
  · rintro (hroot | ⟨next, hstep, root, hpath, hroot⟩)
    · exact ⟨id, .refl, hroot⟩
    · exact ⟨root, .head hstep hpath, hroot⟩

/-- A read-only root is an operation of the tree. -/
private theorem shape?_of_isReadOnlyRoot (h : m.IsReadOnlyRoot context id) :
    (m.shape? id).isSome := by
  cases h <;> simp_all

/-- Steps start at operations of the tree. -/
private theorem shape?_of_descends (h : m.Descends policy id next) : (m.shape? id).isSome := by
  cases h <;> simp_all

/-- The search finds a read-only root exactly if a way leads to one. -/
theorem isReadOnlyReference_iff (m : Model) (context : MemberContext) (policy : CopyPolicy)
    (id : OpId) :
    m.isReadOnlyReference context policy id = true ↔
      m.LeadsToReadOnlyRoot context policy id := by
  -- The induction follows the search: each operand that it goes on with comes earlier in the tree.
  fun_induction isReadOnlyReference m context policy id with
  | case1 id hget =>
    -- An operation that is not there is no root, and no step starts at it.
    have hnone : m.shape? id = none := by rw [shape?, get?, hget, Option.map_none]
    refine iff_of_false Bool.false_ne_true fun h => ?_
    rcases leadsToReadOnlyRoot_iff.1 h with hroot | ⟨next, hstep, -⟩
    · simpa [hnone] using shape?_of_isReadOnlyRoot hroot
    · simpa [hnone] using shape?_of_descends hstep
  | case2 id operation hget isReadOnly horigin =>
    have hshape := shape?_of_get? hget
    constructor
    · intro h
      rw [h] at horigin
      exact leadsToReadOnlyRoot_iff.2 (.inl ((isReadOnlyRoot_iff policy hshape).2 horigin))
    · intro h
      rcases leadsToReadOnlyRoot_iff.1 h with hroot | ⟨next, hstep, -⟩
      · exact Origin.storage.inj (horigin.symm.trans ((isReadOnlyRoot_iff policy hshape).1 hroot))
      · -- Storage of its own is not found through an operand.
        obtain ⟨operands, hthrough, -⟩ := (descends_iff context hshape).1 hstep
        cases horigin.symm.trans hthrough
  | case3 id operation hget operands horigin ih =>
    have hshape := shape?_of_get? hget
    rw [List.any_eq_true]
    constructor
    · rintro ⟨⟨operand, hmem⟩, -, hoperand⟩
      -- An operand with a way to a root is a first step.
      have hstep := (descends_iff context hshape).2 ⟨operands, horigin, hmem⟩
      exact leadsToReadOnlyRoot_iff.2 (.inr ⟨operand, hstep, (ih ⟨operand, hmem⟩).1 hoperand⟩)
    · intro h
      rcases leadsToReadOnlyRoot_iff.1 h with hroot | ⟨next, hstep, hway⟩
      · cases horigin.symm.trans ((isReadOnlyRoot_iff policy hshape).1 hroot)
      · obtain ⟨others, hthrough, hmem⟩ := (descends_iff context hshape).1 hstep
        cases horigin.symm.trans hthrough
        exact ⟨⟨next, hmem⟩, List.mem_attach _ _, (ih ⟨next, hmem⟩).2 hway⟩

/-- A search that is not called off answers, and its answer is positive exactly if finitely many
    steps lead from the receiver to an operation that is read-only storage by itself. -/
theorem readOnlyReference_eq_ok_true_iff (m : Model) (context : MemberContext)
    (policy : CopyPolicy) (receiver : OpId) :
    (m.readOnlyReference .live context policy receiver = .ok true ↔
      ∃ root, Relation.ReflTransGen (m.Descends policy) receiver root ∧
        m.IsReadOnlyRoot context root) ∧
    ∃ answer, m.readOnlyReference .live context policy receiver = .ok answer := by
  have hanswer := m.readOnlyReference_live context policy receiver
  refine ⟨?_, _, hanswer⟩
  rw [hanswer, Except.ok.injEq]
  exact m.isReadOnlyReference_iff context policy receiver

end DefensiveCopy.Model
