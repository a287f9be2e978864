import DefensiveCopy.Proofs.LinkPaths
import DefensiveCopy.SymbolTable.Semantics

/-!
# The semantics of type parameters

Whether the values of a type parameter are copied or shared is read off its constraints, which may
be type parameters themselves.  The search through the constraints is bounded because they may run
in a circle.  It is compared with the paths of type parameters, each constrained to the next one
(`SymbolTable.ConstrainedTo`):

- values are copied if a path leads to a struct, to an enumeration or to a type parameter with the
  value type constraint;
- values are shared if a path leads to a type parameter with the reference constraint, or with a
  constraint that makes values shared (`SymbolTable.HasReferenceConstraint`).

The bound shows in the length of the paths only.  A struct is found at the end of `Chain.limit`
links, and what is read off a type parameter itself at the end of one link less.  A path that passes
no type parameter twice is as good as any other, so a table with no more than `Chain.limit` type
parameters has no path that the search misses.

## Key results

- `SymbolTable.isValueTypeWithin_iff`, `SymbolTable.isReferenceParameterWithin_iff`: the two
  searches by the length of the paths
- `SymbolTable.semantics_iff_path`: values and references, with and without the bound
-/

namespace DefensiveCopy.SymbolTable

variable {t : SymbolTable} {type : Token} {fuel : Nat}

/-! ## Constraints -/

/-- The token resolves to a type parameter with the given description. -/
def IsParameter (t : SymbolTable) (type : Token) (info : TypeParameterInfo) : Prop :=
  ∃ symbol, t.type? type = some symbol ∧ symbol.kind = .typeParameter ∧
    symbol.parameterInfo = some info

/-- The type parameter has the type among its constraints. -/
def ConstrainedTo (t : SymbolTable) (type constraint : Token) : Prop :=
  ∃ info, t.IsParameter type info ∧ constraint ∈ info.constraintTypes

/-- The token resolves to a struct or an enumeration. -/
def IsValueKind (t : SymbolTable) (type : Token) : Prop :=
  ∃ symbol, t.type? type = some symbol ∧ (symbol.kind = .structType ∨ symbol.kind = .enumType)

/-- The type parameter has the value type constraint. -/
def HasValueConstraint (t : SymbolTable) (type : Token) : Prop :=
  ∃ info, t.IsParameter type info ∧ info.hasValueTypeConstraint

/-- The token resolves to a class, interface, delegate, array or the dynamic type. -/
def IsReferenceKind (t : SymbolTable) (type : Token) : Prop :=
  ∃ symbol, t.type? type = some symbol ∧
    (symbol.kind = .classType ∨ symbol.kind = .interfaceType ∨ symbol.kind = .delegateType ∨
      symbol.kind = .array ∨ symbol.kind = .dynamic)

/-- The token resolves to a class, delegate or array that only references derive from, which leaves
    out the base types of structs and enumerations. -/
def IsReferenceBound (t : SymbolTable) (type : Token) : Prop :=
  ∃ symbol, t.type? type = some symbol ∧
    (symbol.kind = .classType ∨ symbol.kind = .delegateType ∨ symbol.kind = .array) ∧
      symbol.special ≠ .object ∧ symbol.special ≠ .valueType ∧ symbol.special ≠ .enum

/-- The type parameter has the reference constraint, or a constraint that only references meet. -/
def HasReferenceConstraint (t : SymbolTable) (type : Token) : Prop :=
  ∃ info, t.IsParameter type info ∧
    (info.hasReferenceConstraint ∨
      ∃ constraint ∈ info.constraintTypes, t.IsReferenceBound constraint)

/-! ## One step of the searches -/

/-- Without a link to follow, only structs and enumerations are found. -/
private theorem isValueTypeWithin_zero : t.isValueTypeWithin 0 type ↔ t.IsValueKind type := by
  rw [isValueTypeWithin, IsValueKind]
  cases t.type? type with
  | none => simp
  | some symbol => cases hkind : symbol.kind <;> simp [hkind]

/-- One step of the search for a value type: the type itself, its own constraint, or one link. -/
private theorem isValueTypeWithin_succ :
    t.isValueTypeWithin (fuel + 1) type ↔
      t.IsValueKind type ∨ t.HasValueConstraint type ∨
        ∃ constraint, t.ConstrainedTo type constraint ∧ t.isValueTypeWithin fuel constraint := by
  rw [isValueTypeWithin]
  unfold IsValueKind HasValueConstraint ConstrainedTo IsParameter
  cases htype : t.type? type with
  | none => simp
  | some symbol =>
    cases hkind : symbol.kind <;> cases hinfo : symbol.parameterInfo <;> simp [hkind, hinfo]

/-- The universal bases are the object type and the base types of structs and enumerations. -/
private theorem isUniversalBase_eq_false_iff {special : SpecialType} :
    special.isUniversalBase = false ↔
      special ≠ .object ∧ special ≠ .valueType ∧ special ≠ .enum := by
  cases special <;> simp [SpecialType.isUniversalBase]

/-- A type parameter with a description is a type parameter. -/
private theorem isTypeParameter_of_isParameter {info : TypeParameterInfo}
    (h : t.IsParameter type info) :
    t.isTypeParameter type := by
  obtain ⟨symbol, hsymbol, hkind, -⟩ := h
  simp [isTypeParameter, hsymbol, hkind]

/-- A constraint counts as a reference by itself, or by its own constraints if it is a type
    parameter. -/
private theorem isReferenceParameterWithin_of_isParameter {info : TypeParameterInfo}
    (h : t.IsParameter type info) :
    t.isReferenceParameterWithin (fuel + 1) type ↔
      info.hasReferenceConstraint ∨ ∃ constraint ∈ info.constraintTypes,
        t.IsReferenceBound constraint ∨
          t.isTypeParameter constraint ∧ t.isReferenceParameterWithin fuel constraint := by
  obtain ⟨symbol, hsymbol, -, hinfo⟩ := h
  rw [isReferenceParameterWithin, hsymbol, Option.bind_some, hinfo, Option.any_some,
    Bool.or_eq_true, List.any_eq_true]
  refine or_congr_right (exists_congr fun constraint => and_congr_right fun _ => ?_)
  -- A constraint is a bound of its own or a type parameter to go on with, as its kind says.
  unfold IsReferenceBound isTypeParameter
  cases t.type? constraint with
  | none => simp
  | some bound => cases hkind : bound.kind <;> simp [hkind, ← isUniversalBase_eq_false_iff]

/-- One step of the search for a reference: the type parameter itself, or one link to another. -/
private theorem isReferenceParameterWithin_succ :
    (t.isTypeParameter type ∧ t.isReferenceParameterWithin (fuel + 1) type) ↔
      t.HasReferenceConstraint type ∨ ∃ constraint, t.ConstrainedTo type constraint ∧
        t.isTypeParameter constraint ∧ t.isReferenceParameterWithin fuel constraint := by
  constructor
  · rintro ⟨hparameter, hwithin⟩
    -- A type parameter about which nothing is known does not pass the test.
    obtain ⟨info, hparameter⟩ : ∃ info, t.IsParameter type info := by
      obtain ⟨symbol, hsymbol, hkind⟩ := (Option.any_eq_true _ _).1 hparameter
      rw [isReferenceParameterWithin, hsymbol, Option.bind_some] at hwithin
      obtain ⟨info, hinfo, -⟩ := (Option.any_eq_true _ _).1 hwithin
      exact ⟨info, symbol, hsymbol, beq_iff_eq.1 hkind, hinfo⟩
    -- Its own constraint and a bound that only references meet end the search here.
    rcases (isReferenceParameterWithin_of_isParameter hparameter).1 hwithin with
      hreference | ⟨constraint, hmem, hbound | hfound⟩
    · exact .inl ⟨info, hparameter, .inl hreference⟩
    · exact .inl ⟨info, hparameter, .inr ⟨constraint, hmem, hbound⟩⟩
    · exact .inr ⟨constraint, ⟨info, hparameter, hmem⟩, hfound⟩
  · rintro (⟨info, hparameter, hbound⟩ | ⟨constraint, ⟨info, hparameter, hmem⟩, hfound⟩)
    · refine ⟨isTypeParameter_of_isParameter hparameter,
        (isReferenceParameterWithin_of_isParameter hparameter).2 (hbound.imp_right ?_)⟩
      rintro ⟨constraint, hmem, hbound⟩
      exact ⟨constraint, hmem, .inl hbound⟩
    · exact ⟨isTypeParameter_of_isParameter hparameter,
        (isReferenceParameterWithin_of_isParameter hparameter).2
          (.inr ⟨constraint, hmem, .inr hfound⟩)⟩

/-! ## The searches by the length of paths -/

/-- A struct or enumeration is found at the end of `fuel` links, and the value type constraint of a
    type parameter at the end of one link less. -/
theorem isValueTypeWithin_iff :
    t.isValueTypeWithin fuel type ↔
      ∃ path last, IsPath t.ConstrainedTo path type last ∧
        (t.IsValueKind last ∧ path.length ≤ fuel ∨
          t.HasValueConstraint last ∧ path.length < fuel) := by
  induction fuel generalizing type with
  | zero =>
    rw [isValueTypeWithin_zero, IsPath.exists_iff]
    simp
  -- The first link of a path is the step of the search, and the rest of it is one link shorter.
  | succ fuel ih =>
    rw [isValueTypeWithin_succ, IsPath.exists_iff]
    simp only [ih, List.length_nil, List.length_cons, Nat.add_le_add_iff_right,
      Nat.add_lt_add_iff_right, Nat.zero_le, Nat.zero_lt_succ, and_true, or_assoc]

/-- The reference constraint of a type parameter is found at the end of less than `fuel` links. -/
theorem isReferenceParameterWithin_iff :
    (t.isTypeParameter type ∧ t.isReferenceParameterWithin fuel type) ↔
      ∃ path last, IsPath t.ConstrainedTo path type last ∧
        (t.HasReferenceConstraint last ∧ path.length < fuel) := by
  induction fuel generalizing type with
  | zero => simp [isReferenceParameterWithin]
  | succ fuel ih =>
    rw [isReferenceParameterWithin_succ, IsPath.exists_iff]
    simp only [ih, List.length_nil, List.length_cons, Nat.add_lt_add_iff_right, Nat.zero_lt_succ,
      and_true]

/-- A type is a reference by its kind, or by the constraints of a type parameter. -/
private theorem isReferenceType_iff_within :
    t.isReferenceType type ↔ t.IsReferenceKind type ∨
      t.isTypeParameter type ∧ t.isReferenceParameterWithin Chain.limit type := by
  unfold isReferenceType IsReferenceKind isTypeParameter
  cases t.type? type with
  | none => simp
  | some symbol => cases hkind : symbol.kind <;> simp [hkind]

/-- The bound of the searches, as a number. -/
private theorem lt_limit_iff {length : Nat} : length < Chain.limit ↔ length ≤ 255 := by
  unfold Chain.limit
  omega

/-- The values of a type are copied exactly if a path of bounded length says so. -/
theorem isValueType_iff :
    t.isValueType type ↔
      ∃ path last, IsPath t.ConstrainedTo path type last ∧
        (t.IsValueKind last ∧ path.length ≤ 256 ∨
          t.HasValueConstraint last ∧ path.length ≤ 255) := by
  simp only [← lt_limit_iff]
  exact isValueTypeWithin_iff

/-- The values of a type are shared exactly if its kind or a path of bounded length says so. -/
theorem isReferenceType_iff :
    t.isReferenceType type ↔
      t.IsReferenceKind type ∨ ∃ path last, IsPath t.ConstrainedTo path type last ∧
        t.HasReferenceConstraint last ∧ path.length ≤ 255 := by
  simp only [← lt_limit_iff]
  rw [isReferenceType_iff_within, isReferenceParameterWithin_iff]

/-! ## Without a bound -/

/-- In a table with no more type parameters than links that are followed, whatever constraints lead
    to is found at the end of as many links, and a type parameter at the end of one less. -/
private theorem exists_isPath_of_countP_le {last : Token} {count : Nat}
    (hcount : t.types.countP (·.kind == .typeParameter) ≤ count)
    (h : Relation.ReflTransGen t.ConstrainedTo type last) :
    ∃ path, IsPath t.ConstrainedTo path type last ∧ path.length ≤ count ∧
      (t.isTypeParameter last → path.length < count) := by
  obtain ⟨path, hpath, hnodup, hlast⟩ := IsPath.exists_nodup h
  have hparameter : ∀ token ∈ path, t.isTypeParameter token := by
    intro token htoken
    obtain ⟨_, info, hinfo, -⟩ := hpath.exists_step htoken
    exact isTypeParameter_of_isParameter hinfo
  -- Distinct type parameters are counted once each.
  have hlength : ∀ {tokens : List Token}, tokens.Nodup →
      (∀ token ∈ tokens, t.isTypeParameter token) → tokens.length ≤ count := by
    intro tokens hnodup hparameter
    refine Nat.le_trans (length_le_countP .type hnodup fun token htoken => ?_) hcount
    exact (Option.any_eq_true _ _).1 (hparameter token htoken)
  refine ⟨path, hpath, hlength hnodup hparameter, fun hend => ?_⟩
  -- An end that is a type parameter itself is one more of them, and not on the path.
  have hall := hlength (List.nodup_cons.2 ⟨hlast, hnodup⟩)
    (List.forall_mem_cons.2 ⟨hend, hparameter⟩)
  rwa [List.length_cons] at hall

/-- With few type parameters, values are copied exactly if some path says so. -/
theorem isValueType_iff_of_countP_le (hcount : t.types.countP (·.kind == .typeParameter) ≤ 256) :
    t.isValueType type ↔
      ∃ last, Relation.ReflTransGen t.ConstrainedTo type last ∧
        (t.IsValueKind last ∨ t.HasValueConstraint last) := by
  rw [isValueType_iff]
  constructor
  · rintro ⟨path, last, hpath, hend⟩
    exact ⟨last, hpath.reflTransGen, hend.imp And.left And.left⟩
  · rintro ⟨last, hreaches, hend⟩
    -- A shortest path passes each type parameter at most once.
    obtain ⟨path, hpath, hle, hlt⟩ := exists_isPath_of_countP_le hcount hreaches
    refine ⟨path, last, hpath, ?_⟩
    rcases hend with hkind | ⟨info, hparameter, hconstraint⟩
    · exact .inl ⟨hkind, hle⟩
    · have hshort := hlt (isTypeParameter_of_isParameter hparameter)
      exact .inr ⟨⟨info, hparameter, hconstraint⟩, by omega⟩

/-- With few type parameters, values are shared exactly if the kind or some path says so. -/
theorem isReferenceType_iff_of_countP_le
    (hcount : t.types.countP (·.kind == .typeParameter) ≤ 256) :
    t.isReferenceType type ↔
      t.IsReferenceKind type ∨ ∃ last, Relation.ReflTransGen t.ConstrainedTo type last ∧
        t.HasReferenceConstraint last := by
  rw [isReferenceType_iff]
  refine or_congr_right ⟨?_, ?_⟩
  · rintro ⟨path, last, hpath, hend, -⟩
    exact ⟨last, hpath.reflTransGen, hend⟩
  · rintro ⟨last, hreaches, info, hparameter, hconstraint⟩
    obtain ⟨path, hpath, -, hlt⟩ := exists_isPath_of_countP_le hcount hreaches
    have hshort := hlt (isTypeParameter_of_isParameter hparameter)
    exact ⟨path, last, hpath, ⟨info, hparameter, hconstraint⟩, by omega⟩

/-- The values of a type are copied exactly if a path of type parameters, each constrained to the
    next item, leads to a struct or enumeration by at most 256 links, or to a type parameter with
    the value type constraint by at most 255.  They are shared exactly if the type itself is of a
    reference kind, or if such a path leads by at most 255 links to a type parameter with the
    reference constraint or with a constraint that only references meet.  In a table with at most
    256 type parameters the number of links makes no difference. -/
theorem semantics_iff_path (t : SymbolTable) (type : Token) :
    (t.isValueType type ↔
      ∃ path last, IsPath t.ConstrainedTo path type last ∧
        (t.IsValueKind last ∧ path.length ≤ 256 ∨
          t.HasValueConstraint last ∧ path.length ≤ 255)) ∧
    (t.isReferenceType type ↔
      t.IsReferenceKind type ∨ ∃ path last, IsPath t.ConstrainedTo path type last ∧
        t.HasReferenceConstraint last ∧ path.length ≤ 255) ∧
    (t.types.countP (·.kind == .typeParameter) ≤ 256 →
      (t.isValueType type ↔
        ∃ last, Relation.ReflTransGen t.ConstrainedTo type last ∧
          (t.IsValueKind last ∨ t.HasValueConstraint last)) ∧
      (t.isReferenceType type ↔
        t.IsReferenceKind type ∨ ∃ last, Relation.ReflTransGen t.ConstrainedTo type last ∧
          t.HasReferenceConstraint last)) := by
  refine ⟨isValueType_iff, isReferenceType_iff, fun hcount => ?_⟩
  exact ⟨isValueType_iff_of_countP_le hcount, isReferenceType_iff_of_countP_le hcount⟩

/-- Two type parameters that are constrained to each other, the second one also to a struct. -/
def circularTable : SymbolTable where
  types := #[.typeParameter "T" { constraintTypes := [.ofParts .type 2] },
             .typeParameter "U" { constraintTypes := [.ofParts .type 1, .ofParts .type 3] },
             { name := "Point", kind := .structType }]

/-- The values of both are copied, in spite of the circle, and not shared. -/
theorem semantics_circularTable :
    circularTable.types.countP (·.kind == .typeParameter) ≤ 256 ∧
    circularTable.isValueType (.ofParts .type 1) ∧
    ¬circularTable.isReferenceType (.ofParts .type 1) := by
  have hcount : circularTable.types.countP (·.kind == .typeParameter) ≤ 256 := by decide
  have hfirst : circularTable.ConstrainedTo (.ofParts .type 1) (.ofParts .type 2) :=
    ⟨_, ⟨_, rfl, rfl, rfl⟩, by decide⟩
  have hsecond : circularTable.ConstrainedTo (.ofParts .type 2) (.ofParts .type 3) :=
    ⟨_, ⟨_, rfl, rfl, rfl⟩, by decide⟩
  have hstruct : circularTable.IsValueKind (.ofParts .type 3) := ⟨_, rfl, .inl rfl⟩
  obtain ⟨hvalue, -⟩ := (semantics_iff_path circularTable (.ofParts .type 1)).2.2 hcount
  refine ⟨hcount, hvalue.2 ⟨_, .head hfirst (.single hsecond), .inl hstruct⟩, ?_⟩
  decide +kernel

end DefensiveCopy.SymbolTable
