import DefensiveCopy.Proofs.StorageDescent
import Mathlib.Data.List.Forall2

/-!
# Which members an implicit indexer runs

An implicit indexer runs the methods that serve its position, and it runs the method that computes
the length if the position is counted from the end.  It is reported with one access for each method
that serves the position (`Model.ServedBy`).  When that method never copies the receiver and the
method of the length may, the access points at the latter, so an access points at a method that
never copies only if no other one could be reported (`Model.IsIndexerAccess`).

Whether the position is counted from the end is read off its type, and for a range that is written
out off the types of its bounds (`Model.CountsFromEnd`).  An integer that the compiler has converted
to an index is counted from the start.

## Key results

- `SymbolTable.copyingLength?_eq_some_iff`: the method of the length, if it may copy
- `Model.countsFromEnd_iff`: which positions are counted from the end
- `Model.isIndexerAccess_of_indexerAccess?`: the access by one method
- `Model.accesses_implicitIndexer`: all accesses of an implicit indexer
-/

namespace DefensiveCopy

namespace SymbolTable

variable {t : SymbolTable} {token length : Token}

/-! ## Methods that copy and methods that do not -/

/-- The token resolves to a method that never copies its receiver: an extension, a read-only method
    or one that a read-only type declares. -/
def IsCopyFree (t : SymbolTable) (token : Token) : Prop :=
  ∃ method, t.method? token = some method ∧
    (method.isExtension = true ∨ method.modifiers.isReadOnly = true ∨
      ∃ declaring type, method.containingType = some declaring ∧
        t.type? declaring = some type ∧ type.modifiers.isReadOnly = true)

/-- The method computes the length: the length resolves to it, or to a property that has it as its
    getter. -/
inductive IsLengthMethod (t : SymbolTable) (length : Token) : Token → Prop where
  | own {method : MethodSymbol} (hmethod : t.method? length = some method) :
    IsLengthMethod t length length
  | getter {property : PropertySymbol} {getter : Token} {method : MethodSymbol}
    (hproperty : t.property? length = some property) (hgetter : property.getter = some getter)
    (hmethod : t.method? getter = some method) : IsLengthMethod t length getter

/-- The test for methods that never copy. -/
private theorem isCopyFreeMethod_iff {method : MethodSymbol}
    (hmethod : t.method? token = some method) :
    t.isCopyFreeMethod method ↔ t.IsCopyFree token := by
  have hdeclaring : t.isContainingTypeReadOnly method ↔
      ∃ declaring type, method.containingType = some declaring ∧
        t.type? declaring = some type ∧ type.modifiers.isReadOnly = true := by
    simp only [isContainingTypeReadOnly, isTypeReadOnly, Option.any_eq_true, exists_and_left]
  rw [isCopyFreeMethod, isMethodReadOnly, IsCopyFree, hmethod]
  simp only [Bool.or_eq_true, Bool.and_eq_true, hdeclaring, Option.some.injEq, exists_eq_left',
    or_assoc]
  -- An instance method of a read-only type is counted twice.
  rw [or_iff_right_of_imp And.right]

/-- The search for the method that computes a length, once that is known to resolve. -/
private theorem lengthMethod?_eq_some_iff {method : MethodSymbol}
    (hmethod : t.method? token = some method) :
    t.lengthMethod? length = some token ↔ t.IsLengthMethod length token := by
  constructor
  · intro h
    unfold lengthMethod? at h
    split at h
    · cases h
      exact .own hmethod
    · obtain ⟨property, hproperty, hgetter⟩ := Option.bind_eq_some_iff.1 h
      exact .getter hproperty hgetter hmethod
    · cases h
  · -- A token that resolves has the kind of what it resolves to.
    intro h
    cases h with
    | own hlength =>
      have hkind := kind?_of_resolves (resolves_of_get? hlength)
      simp [lengthMethod?, hkind]
    | getter hproperty hgetter _ =>
      have hkind := kind?_of_resolves (resolves_of_get? hproperty)
      simp [lengthMethod?, hkind, hproperty, hgetter]

/-- The method that replaces an indexer is the one that computes the length, if it may copy. -/
theorem copyingLength?_eq_some_iff :
    t.copyingLength? length = some token ↔
      t.IsLengthMethod length token ∧ ¬t.IsCopyFree token := by
  rw [copyingLength?, Option.filter_eq_some_iff]
  cases hmethod : t.method? token with
  | none =>
    refine iff_of_false (by simp) ?_
    rintro ⟨hlength, -⟩
    cases hlength <;> simp_all
  | some method =>
    rw [lengthMethod?_eq_some_iff hmethod, Option.any_some, Bool.not_eq_true',
      ← Bool.not_eq_true, isCopyFreeMethod_iff hmethod]

/-- A length that is computed by a method has a name. -/
private theorem exists_nameOf?_of_isLengthMethod (h : t.IsLengthMethod length token) :
    ∃ name, t.nameOf? length = some name := by
  have hresolved : ∀ {kind : SymbolKind} {symbol : Symbol kind},
      t.get? kind length = some symbol → ∃ name, t.nameOf? length = some name := by
    intro kind symbol hget
    refine ⟨symbol.name, ?_⟩
    rw [nameOf?, kind?_of_resolves (resolves_of_get? hget), Option.bind_some, hget,
      Option.map_some]
  cases h with
  | own hmethod => exact hresolved hmethod
  | getter hproperty _ _ => exact hresolved hproperty

/-! ## Integers as indices -/

/-- The method takes a single parameter, a 32-bit integer. -/
def TakesInt (t : SymbolTable) (method : MethodSymbol) : Prop :=
  ∃ token parameter argument type, method.parameters = [token] ∧
    t.parameter? token = some parameter ∧ parameter.type = some argument ∧
      t.type? argument = some type ∧ type.special = .int32

/-- The token resolves to the implicit conversion of 32-bit integers to indices, an operator that
    the index type declares. -/
def IsIntToIndex (t : SymbolTable) (token : Token) : Prop :=
  ∃ method, t.method? token = some method ∧ method.kind = .conversion ∧
    method.name = "op_Implicit" ∧
    (∃ declaring, method.containingType = some declaring ∧
      t.wellKnown? declaring = some .index) ∧
    (∃ result, method.returnType = some result ∧ t.wellKnown? result = some .index) ∧
    t.TakesInt method

/-- The test for the single parameter of the conversion. -/
private theorem takesInt_iff {method : MethodSymbol} (h : method.parameters = [token]) :
    t.TakesInt method ↔
      (((t.parameter? token).bind (·.type)).bind t.type?).any (·.special == .int32) := by
  simp only [TakesInt, h, List.cons.injEq, and_true, Option.any_eq_true, Option.bind_eq_some_iff,
    beq_iff_eq]
  constructor
  · rintro ⟨_, parameter, argument, type, rfl, hparameter, hargument, htype, hspecial⟩
    exact ⟨type, ⟨argument, ⟨parameter, hparameter, hargument⟩, htype⟩, hspecial⟩
  · rintro ⟨type, ⟨argument, ⟨parameter, hparameter, hargument⟩, htype⟩, hspecial⟩
    exact ⟨token, parameter, argument, type, rfl, hparameter, hargument, htype, hspecial⟩

/-- The test for the conversion of integers to indices. -/
private theorem isIndexConversion_iff {method : MethodSymbol} :
    t.isIndexConversion method ↔ method.kind = .conversion ∧ method.name = "op_Implicit" ∧
      (∃ declaring, method.containingType = some declaring ∧
        t.wellKnown? declaring = some .index) ∧
      (∃ result, method.returnType = some result ∧ t.wellKnown? result = some .index) ∧
      t.TakesInt method := by
  unfold isIndexConversion
  dsimp only
  split
  · next parameter hparameters =>
    simp only [Bool.and_eq_true, beq_iff_eq, Option.any_eq_true, ← takesInt_iff hparameters,
      and_assoc]
  · next hnot =>
    -- With no parameter or several, there is nothing that takes an integer.
    refine iff_of_false (by simp) ?_
    rintro ⟨-, -, -, -, token, -, -, -, hparameters, -⟩
    exact hnot token hparameters

/-- The test for a token that resolves to the conversion. -/
private theorem any_isIndexConversion_iff :
    (t.method? token).any t.isIndexConversion ↔ t.IsIntToIndex token := by
  simp only [Option.any_eq_true, isIndexConversion_iff, IsIntToIndex]

end SymbolTable

namespace Model

variable {m : Model} {id value position receiver : OpId} {length target indexer : Token}

/-! ## Positions that are counted from the end -/

/-- The value that an operation has before it is converted from an integer to an index, if it is;
    one conversion is undone. -/
inductive Unconverted (m : Model) (id : OpId) : OpId → Prop where
  | converted {operand : OpId} {isUserDefined : Bool} {method : Token}
    (hshape : m.shape? id = some (.conversion operand isUserDefined (some method)))
    (hmethod : m.symbols.IsIntToIndex method) : Unconverted m id operand
  | other (hother : ∀ operand isUserDefined method,
      m.shape? id = some (.conversion operand isUserDefined (some method)) →
        ¬m.symbols.IsIntToIndex method) : Unconverted m id id

/-- The bound of a position is an index and not an integer that was converted to one. -/
def IsIndexBound (m : Model) (bound : OpId) : Prop :=
  ∃ value type, m.Unconverted bound value ∧ m.typeOf? value = some type ∧
    m.symbols.wellKnown? type = some .index

/-- The position is resolved against the length of the collection. -/
inductive CountsFromEnd (m : Model) (position : OpId) : Prop where
  /-- A range that is not written out. -/
  | range {type : Token}
    (hshape : ∀ left right, m.shape? position ≠ some (.range left right))
    (htype : m.typeOf? position = some type) (hrange : m.symbols.wellKnown? type = some .range)
  /-- An index. -/
  | index (hshape : ∀ left right, m.shape? position ≠ some (.range left right))
    (hindex : m.IsIndexBound position)
  /-- A range that is written out, with an index as one of its bounds. -/
  | bound {left right : Option OpId} {bound : OpId}
    (hshape : m.shape? position = some (.range left right))
    (hbound : left = some bound ∨ right = some bound) (hindex : m.IsIndexBound bound)

/-- Undoing the conversion, as a function. -/
private theorem unconverted_iff : m.Unconverted id value ↔ m.withoutIndexConversion id = value := by
  unfold withoutIndexConversion
  constructor
  · intro h
    cases h with
    | converted hshape hmethod =>
      rw [hshape]
      exact if_pos (SymbolTable.any_isIndexConversion_iff.2 hmethod)
    | other hother =>
      split
      · next operand isUserDefined method hshape =>
        refine if_neg fun hconverts => ?_
        exact hother operand isUserDefined method hshape
          (SymbolTable.any_isIndexConversion_iff.1 hconverts)
      · rfl
  · rintro rfl
    split
    · next operand isUserDefined method hshape =>
      split
      · next hconverts =>
        exact .converted hshape (SymbolTable.any_isIndexConversion_iff.1 hconverts)
      · next hconverts =>
        refine .other fun other isUserDefined' method' hshape' hmethod => ?_
        -- There is one shape, so the conversion that is ruled out is this one.
        cases hshape.symm.trans hshape'
        exact hconverts (SymbolTable.any_isIndexConversion_iff.2 hmethod)
    · next hnot =>
      exact .other fun operand isUserDefined method hshape => absurd hshape (hnot _ _ _)

/-- The test for a bound that is an index. -/
private theorem isProperIndex_iff : m.isProperIndex id ↔ m.IsIndexBound id := by
  simp only [isProperIndex, hasWellKnownType_iff, IsIndexBound, unconverted_iff]
  constructor
  · rintro ⟨type, htype, hindex⟩
    exact ⟨_, type, rfl, htype, hindex⟩
  · rintro ⟨_, type, rfl, htype, hindex⟩
    exact ⟨type, htype, hindex⟩

/-- The test for positions that are counted from the end. -/
theorem countsFromEnd_iff : m.countsFromEnd position ↔ m.CountsFromEnd position := by
  unfold countsFromEnd
  split
  · next left right hshape =>
    -- A range that is written out is decided by its bounds.
    rw [Bool.or_eq_true, Option.any_eq_true, Option.any_eq_true]
    simp only [isProperIndex_iff]
    constructor
    · rintro (⟨bound, hbound, hindex⟩ | ⟨bound, hbound, hindex⟩)
      · exact .bound hshape (.inl hbound) hindex
      · exact .bound hshape (.inr hbound) hindex
    · intro h
      cases h with
      | range hnot | index hnot => exact absurd hshape (hnot left right)
      | bound hrange hbound hindex =>
        cases hshape.symm.trans hrange
        exact hbound.imp (⟨_, ·, hindex⟩) (⟨_, ·, hindex⟩)
  · next hnot =>
    -- Any other position is decided by its type.
    rw [Bool.or_eq_true, hasWellKnownType_iff, isProperIndex_iff]
    constructor
    · rintro (⟨type, htype, hrange⟩ | hindex)
      · exact .range hnot htype hrange
      · exact .index hnot hindex
    · intro h
      cases h with
      | range _ htype hrange => exact .inl ⟨_, htype, hrange⟩
      | index _ hindex => exact .inr hindex
      | bound hrange => exact absurd hrange (hnot _ _)

/-! ## The accesses -/

/-- The indexer is served by the methods, in this order: by itself if it is a method, and by the
    accessors that the use of the access runs if it is a property. -/
inductive ServedBy (m : Model) (id : OpId) (indexer : Token) : List Token → Prop where
  | method (hkind : indexer.kind? = some .method) : ServedBy m id indexer [indexer]
  | property {symbol : PropertySymbol} {use : AccessorUse}
    (hproperty : m.symbols.property? indexer = some symbol)
    (huse : symbol.accessorUse (m.valueUsage id) = use) :
    ServedBy m id indexer ((if use.runsGetter then symbol.getter.toList else []) ++
      (if use.runsSetter then symbol.setter.toList else []))
  | nothing (hmethod : indexer.kind? ≠ some .method)
    (hproperty : m.symbols.property? indexer = none) : ServedBy m id indexer []

/-- The access by a method that serves the position. -/
inductive IsIndexerAccess (m : Model) (id receiver position : OpId) (length target : Token) :
    MemberAccess → Prop where
  /-- The method itself is reported, as an indexer. -/
  | indexer (hkept : m.symbols.IsCopyFree target → m.CountsFromEnd position →
      ∀ method, m.symbols.IsLengthMethod length method → m.symbols.IsCopyFree method) :
    IsIndexerAccess m id receiver position length target
      { receiver, target, location := id, displayName := some "this[]", isForced := true }
  /-- The method that computes the length is reported in its place, by the name of the length. -/
  | length {method : Token} {name : String} (hfree : m.symbols.IsCopyFree target)
    (hposition : m.CountsFromEnd position) (hlength : m.symbols.IsLengthMethod length method)
    (hcopies : ¬m.symbols.IsCopyFree method) (hname : m.symbols.nameOf? length = some name) :
    IsIndexerAccess m id receiver position length target
      { receiver, target := method, location := id, displayName := some name, isForced := true }

/-- The methods that are looked at are those that serve the position. -/
private theorem servedBy_indexerTargets (m : Model) (id : OpId) (indexer : Token) :
    m.ServedBy id indexer (m.indexerTargets id indexer) := by
  unfold indexerTargets
  split
  · next hkind => exact .method hkind
  · next hkind =>
    cases hproperty : m.symbols.property? indexer with
    | none => exact .nothing (by simp [hkind]) hproperty
    | some symbol => exact .property hproperty rfl
  · next hmethod hproperty =>
    -- A token of another kind is no property either.
    refine .nothing hmethod (Option.eq_none_iff_forall_ne_some.2 fun symbol hsymbol => ?_)
    exact hproperty (SymbolTable.kind?_of_resolves (SymbolTable.resolves_of_get? hsymbol))

/-- There is an access by every method that resolves. -/
private theorem isSome_indexerAccess? :
    (m.indexerAccess? id receiver position length target).isSome =
      m.symbols.resolves .method target := by
  rw [indexerAccess?, Option.isSome_map]
  rfl

/-- The access that is made for a method is the indexer or the length, as the position says. -/
theorem isIndexerAccess_of_indexerAccess? {access : MemberAccess}
    (h : m.indexerAccess? id receiver position length target = some access) :
    m.IsIndexerAccess id receiver position length target access := by
  obtain ⟨method, hmethod, rfl⟩ := Option.map_eq_some_iff.1 h
  have hfree := SymbolTable.isCopyFreeMethod_iff hmethod
  -- The length takes the place of the indexer only if the indexer itself says nothing.
  by_cases hreplaceable : m.symbols.isCopyFreeMethod method && m.countsFromEnd position
  · rw [if_pos hreplaceable]
    rw [Bool.and_eq_true, hfree, countsFromEnd_iff] at hreplaceable
    cases hcopying : m.symbols.copyingLength? length with
    | some lengthMethod =>
      obtain ⟨hlength, hcopies⟩ := SymbolTable.copyingLength?_eq_some_iff.1 hcopying
      obtain ⟨name, hname⟩ := SymbolTable.exists_nameOf?_of_isLengthMethod hlength
      rw [hname]
      exact .length hreplaceable.1 hreplaceable.2 hlength hcopies hname
    | none =>
      refine .indexer fun _ _ lengthMethod hlength => ?_
      by_contra hcopies
      cases hcopying.symm.trans
        (SymbolTable.copyingLength?_eq_some_iff.2 ⟨hlength, hcopies⟩)
  · rw [if_neg hreplaceable]
    rw [Bool.and_eq_true, hfree, countsFromEnd_iff] at hreplaceable
    exact .indexer fun htarget hposition => absurd ⟨htarget, hposition⟩ hreplaceable

/-- An access that is reported with a method that never copies could not be reported with another
    one. -/
private theorem IsIndexerAccess.of_isCopyFree {access : MemberAccess}
    (h : m.IsIndexerAccess id receiver position length target access)
    (hfree : m.symbols.IsCopyFree access.target) :
    ¬m.CountsFromEnd position ∨
      ∀ method, m.symbols.IsLengthMethod length method → m.symbols.IsCopyFree method := by
  cases h with
  | indexer hkept =>
    by_cases hposition : m.CountsFromEnd position
    · exact .inr (hkept hfree hposition)
    · exact .inl hposition
  | length _ _ _ hcopies _ => exact absurd hfree hcopies

end Model

/-- What a function gives for the items of a list corresponds, one by one and in order, to the items
    for which it gives something. -/
private theorem forall₂_filterMap {α β : Type} {R : α → β → Prop} {f : α → Option β} {p : α → Bool}
    (hp : ∀ item, (f item).isSome = p item)
    (hf : ∀ item result, f item = some result → R item result)
    (items : List α) : List.Forall₂ R (items.filter p) (items.filterMap f) := by
  induction items with
  | nil => exact .nil
  | cons item rest ih =>
    cases hitem : f item with
    | none =>
      -- Items without a result are skipped on both sides.
      have hskipped : p item = false := by rw [← hp, hitem, Option.isSome_none]
      rwa [List.filterMap_cons_none hitem, List.filter_cons_of_neg (by simp [hskipped])]
    | some result =>
      have hkept : p item = true := by rw [← hp, hitem, Option.isSome_some]
      rw [List.filterMap_cons_some hitem, List.filter_cons_of_pos hkept]
      exact .cons (hf item result hitem) ih

namespace Model

/-- An implicit indexer that is not exempt as an access to an inline array has its accesses whether
    the analysis is called off or not.  They correspond, one by one and in order, to the methods
    that resolve among those that serve the position.  Each is to be looked at in any case, has the
    indexed expression as its receiver and is reported at the indexer.  It is reported with a method
    that never copies only if the position is not counted from the end, or if the length is computed
    by no method or by one that never copies either. -/
theorem accesses_implicitIndexer (m : Model) (signal : Signal) (policy : CopyPolicy)
    {id receiver position : OpId} {indexer length : Token}
    (hshape : m.shape? id = some (.implicitIndexer receiver position indexer length))
    (hexempt : ¬(m.isInlineArray receiver = true ∧ policy.indexerIsCopyFree = true)) :
    ∃ accesses targets, m.accesses signal policy id = .ok accesses ∧
      m.ServedBy id indexer targets ∧
      List.Forall₂ (m.IsIndexerAccess id receiver position length)
        (targets.filter (m.symbols.resolves .method)) accesses ∧
      ∀ access ∈ accesses,
        access.isForced = true ∧ access.receiver = receiver ∧ access.location = id ∧
          (m.symbols.IsCopyFree access.target → ¬m.CountsFromEnd position ∨
            ∀ method, m.symbols.IsLengthMethod length method → m.symbols.IsCopyFree method) := by
  -- An implicit indexer asks the signal nothing, so its accesses are those of the plain search.
  have haccesses : m.accesses signal policy id = .ok
      ((m.indexerTargets id indexer).filterMap (m.indexerAccess? id receiver position length)) := by
    rw [accesses, hshape]
    dsimp only
    rw [memberAccesses, hshape, Option.map_some, Option.getD_some, shapeAccesses, indexerAccesses,
      if_neg (by rwa [Bool.and_eq_true])]
  refine ⟨_, _, haccesses, m.servedBy_indexerTargets id indexer,
    forall₂_filterMap (fun _ => isSome_indexerAccess?)
      (fun _ _ => isIndexerAccess_of_indexerAccess?) _, ?_⟩
  intro access haccess
  obtain ⟨target, -, htarget⟩ := List.mem_filterMap.1 haccess
  have hindexer := isIndexerAccess_of_indexerAccess? htarget
  refine ⟨?_, ?_, ?_, hindexer.of_isCopyFree⟩ <;> cases hindexer <;> rfl

end Model

/-- A buffer with a read-only indexer and a length that may be changed by reading it, and the
    library types of integers and indices. -/
def bufferTable : SymbolTable where
  types := #[{ name := "Buffer", kind := .structType },
    { name := "Int32", namespaceName := "System", kind := .structType, special := .int32 },
    { name := "Index", namespaceName := "System", kind := .structType }]
  methods := #[
    { name := "get_Item", kind := .propertyGet, modifiers := { isReadOnly := true },
      containingType := some (.ofParts .type 1) },
    { name := "get_Length", kind := .propertyGet, containingType := some (.ofParts .type 1) },
    { name := "op_Implicit", kind := .conversion, modifiers := { isStatic := true },
      containingType := some (.ofParts .type 3), returnType := some (.ofParts .type 3),
      parameters := [.ofParts .parameter 1] }]
  parameters := #[{ name := "value", type := some (.ofParts .type 2),
                    containingMethod := some (.ofParts .method 3) }]
  properties := #[
    { name := "Item", isIndexer := true, getter := some (.ofParts .method 1),
      containingType := some (.ofParts .type 1) },
    { name := "Length", getter := some (.ofParts .method 2),
      containingType := some (.ofParts .type 1) }]

/-- The buffer at an index, and at an integer that is converted to one. -/
def bufferScript : List ScriptItem :=
  [.add true (.literal (some (.ofParts .type 1))),
   .add true (.literal (some (.ofParts .type 3))),
   .add true (.operation
     (.implicitIndexer ⟨0⟩ ⟨1⟩ (.ofParts .property 1) (.ofParts .property 2)) none false),
   .add true (.literal (some (.ofParts .type 1))),
   .add true (.literal (some (.ofParts .type 2))),
   .add true (.operation (.conversion ⟨4⟩ true (some (.ofParts .method 3)))
     (some (.ofParts .type 3)) true),
   .add true (.operation
     (.implicitIndexer ⟨3⟩ ⟨5⟩ (.ofParts .property 1) (.ofParts .property 2)) none false)]

/-- The symbols and operations of the example. -/
def bufferModel : Model where
  symbols := bufferTable
  tree := (Tree.ofScript bufferTable "Buffer" bufferScript).2

/-- At the index, the length is reported in place of the indexer, and at the integer the indexer
    itself. -/
theorem accesses_bufferModel :
    bufferModel.shape? ⟨2⟩ =
      some (.implicitIndexer ⟨0⟩ ⟨1⟩ (.ofParts .property 1) (.ofParts .property 2)) ∧
    bufferModel.isInlineArray ⟨0⟩ = false ∧
    bufferModel.accesses .live {} ⟨2⟩ = .ok
      [{ receiver := ⟨0⟩, target := .ofParts .method 2, location := ⟨2⟩,
         displayName := some "Length", isForced := true }] ∧
    bufferModel.accesses .live {} ⟨6⟩ = .ok
      [{ receiver := ⟨3⟩, target := .ofParts .method 1, location := ⟨6⟩,
         displayName := some "this[]", isForced := true }] ∧
    ∃ accesses targets, bufferModel.accesses .live {} ⟨2⟩ = .ok accesses ∧
      bufferModel.ServedBy ⟨2⟩ (.ofParts .property 1) targets ∧
      List.Forall₂ (bufferModel.IsIndexerAccess ⟨2⟩ ⟨0⟩ ⟨1⟩ (.ofParts .property 2))
        (targets.filter (bufferModel.symbols.resolves .method)) accesses := by
  have hshape : bufferModel.shape? ⟨2⟩ =
      some (.implicitIndexer ⟨0⟩ ⟨1⟩ (.ofParts .property 1) (.ofParts .property 2)) := rfl
  have hinline : bufferModel.isInlineArray ⟨0⟩ = false := by decide +kernel
  refine ⟨hshape, hinline, ?_, ?_, ?_⟩
  · rw [Model.accesses_live]
    exact congrArg Except.ok (by decide +kernel)
  · rw [Model.accesses_live]
    exact congrArg Except.ok (by decide +kernel)
  · obtain ⟨accesses, targets, hok, hserved, haccesses, -⟩ :=
      bufferModel.accesses_implicitIndexer .live {} hshape (by simp [hinline])
    exact ⟨accesses, targets, hok, hserved, haccesses⟩

end DefensiveCopy
