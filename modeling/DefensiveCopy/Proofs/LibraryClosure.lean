import DefensiveCopy.Proofs.LibraryGrowth

/-!
# What an installed core library refers to

The parts of the core library are declared with each other: their types derive from the object type
and the value type base of the installation, their methods return its types, override its methods
and belong to its types.  All this is told the registering calls by token.  Only one thing is looked
up by name: universal members that override others compare with the first object type of the table.
In a table that has an object type already, this is not the one of the installation.

So an installation leaves everything alone that it finds in the table, and it refers to nothing else
than its own symbols, but for the first object type, as the type that comparisons take.

## Key results

- `CoreLibrary.grown_declareUniversals`: the universal members of a type
- `CoreLibrary.isInstalled_install`: what an installation leaves
- `CoreLibrary.install_selfContained_iff`: when an installation is self-contained
-/

namespace DefensiveCopy

/-! ## The parts of the library -/

namespace CoreLibrary

open SymbolTable

variable {start : SymbolTable} {object : Token} {known : List Declared}

/-- A method of the library names its type, its return type and what it overrides. -/
private theorem refers_method {name : String} {kind : MethodKind} {modifiers : MethodModifiers}
    {owner returnType : Token} {overridden : Option Token} (howner : Has known .type owner)
    (hreturn : Has known .type returnType)
    (hoverridden : ∀ method ∈ overridden, Has known .method method) :
    Refers known .method
      { name, kind, modifiers, overridden, containingType := some owner,
        returnType := some returnType } := by
  constructor
  · simpa [Symbol.links, howner, hreturn] using hoverridden
  · simpa [Symbol.stored, howner.mentions, hreturn.mentions] using
      fun method hmem => (hoverridden method hmem).mentions

/-- A type of the library names its module and its base type. -/
private theorem refers_type {name namespaceName : String} {kind : TypeKind} {special : SpecialType}
    {modifiers : TypeModifiers} {base : Option Token} {module : Token}
    (hmodule : Has known .module module) (hbase : ∀ type ∈ base, Has known .type type) :
    Refers known .type
      { name, namespaceName, kind, special, modifiers, base, module := some module } := by
  constructor
  · simp only [Symbol.links, List.forall_mem_append, List.forall_mem_map]
    exact ⟨⟨⟨by simpa using hbase, by simp⟩, by simp⟩, by simpa using hmodule⟩
  · have hmentions : ∀ type ∈ base, Mentions known type := fun type hmem =>
      (hbase type hmem).mentions
    simpa [Symbol.stored, or_imp, forall_and, hmodule.mentions] using hmentions

/-- Declaring a method of the library, other than a comparison. -/
private theorem grown_declareMethod {first : Option Token} {name : String} {kind : MethodKind}
    {modifiers : MethodModifiers} {owner returnType : Token} {overridden : Option Token}
    (hname : name ≠ "Equals") (howner : Has known .type owner)
    (hreturn : Has known .type returnType)
    (hoverridden : ∀ method ∈ overridden, Has known .method method) :
    Follows (Halted start) (Grown start object first known none)
      (addMethod
        { name, kind, modifiers, overridden, containingType := some owner,
          returnType := some returnType }) fun token =>
        Grown start object first (⟨.method, token, name, some owner⟩ :: known) none :=
  grown_addMethod (refers_method howner hreturn hoverridden) ⟨rfl, rfl⟩ hname

/-- Declaring a type of the library, with one of the roots as its base type. -/
private theorem grown_declareType {found : Token} {name namespaceName : String} {kind : TypeKind}
    {special : SpecialType} {modifiers : TypeModifiers} {base : Option Token} {module : Token}
    (hmodule : Has known .module module) (hbase : ∀ type ∈ base, HasRoot known type) :
    Follows (Halted start) (Grown start object (some found) known none)
      (addType { name, namespaceName, kind, special, modifiers, base, module := some module })
      fun token => Grown start object (some found) (⟨.type, token, name, none⟩ :: known) none :=
  grown_addType (refers_type hmodule fun type hmem => (hbase type hmem).has) rfl hbase

/-- A property of the library names its type, the type that declares it and the last declared
    method, which is its getter. -/
private theorem grown_declareProperty {first : Option Token} {name getterName : String}
    {owner type getter : Token} {home : Option Token} (howner : Has known .type owner)
    (htype : Has known .type type) :
    Follows (Halted start)
      (Grown start object first (⟨.method, getter, getterName, home⟩ :: known) none)
      (addProperty
        { name, type := some type, getter := some getter, containingType := some owner }) fun _ =>
        Grown start object first known none := by
  have hgetter : Has (⟨.method, getter, getterName, home⟩ :: known) .method getter :=
    has_head
  refine (grown_addProperty ⟨?_, ?_⟩).weaken fun _ _ ht => ht.tail
  · simp [Symbol.links, howner.cons, htype.cons, hgetter]
  · simp [Symbol.stored, howner.cons.mentions, htype.cons.mentions, hgetter.mentions]

/-- A type parameter names its owner, although registration does not look the owner up. -/
private theorem grown_declareTypeParameter {found owner : Token} {name : String}
    {hasValueTypeConstraint : Bool} (howner : Has known .type owner) :
    Follows (Halted start) (Grown start object (some found) known none)
      (addType (.typeParameter name { owner := some owner, hasValueTypeConstraint })) fun token =>
        Grown start object (some found) (⟨.type, token, name, none⟩ :: known) none := by
  refine grown_addType ⟨nofun, ?_⟩ rfl nofun
  simpa [Symbol.stored, TypeSymbol.typeParameter] using howner.mentions

/-- What is known about universal members once they are declared. -/
def declaredUniversals (owner : Token) (members : UniversalMembers) : List Declared :=
  [⟨.method, members.hashCode, "GetHashCode", some owner⟩,
    ⟨.method, members.equals, "Equals", some owner⟩,
    ⟨.method, members.toText, "ToString", some owner⟩]

/-- Declaring a comparison, which is then waiting for its comparand. -/
private theorem grown_declareEquals {first : Option Token} {owner returnType : Token}
    {modifiers : MethodModifiers} {overridden : Option Token} (howner : Has known .type owner)
    (hreturn : Has known .type returnType)
    (hoverridden : ∀ method ∈ overridden, Has known .method method) :
    Follows (Halted start) (Grown start object first known none)
      (addMethod
        { name := "Equals", modifiers, overridden, containingType := some owner,
          returnType := some returnType }) fun token =>
        Grown start object first (⟨.method, token, "Equals", some owner⟩ :: known) (some token) :=
  grown_addComparison (refers_method howner hreturn hoverridden) ⟨rfl, rfl⟩

/-- The return types of the universal members are known. -/
structure UniversalReturns.Known (returns : UniversalReturns) (known : List Declared) : Prop where
  string : Has known .type returns.string
  boolean : Has known .type returns.boolean
  int32 : Has known .type returns.int32

/-- The universal members of a type: of the object type itself if they override nothing, of another
    type otherwise. -/
theorem grown_declareUniversals {owner : Token} (name : String)
    {overrides : Option UniversalMembers} {modifiers : MethodModifiers} {returns : UniversalReturns}
    (hobject : ⟨.type, object, "Object", none⟩ ∈ known)
    (howner : ⟨.type, owner, name, none⟩ ∈ known) (hreturns : returns.Known known)
    (hroot : overrides = none → owner = object)
    (hother : ∀ members ∈ overrides, name ≠ "Object" ∧
      ∃ base, declaredUniversals base members ⊆ known) :
    Follows (Halted start) (Grown start object (some (firstObject start object)) known none)
      (declareUniversals owner overrides modifiers returns) fun members =>
        Grown start object (some (firstObject start object))
          (declaredUniversals owner members ++ known) none := by
  have hhas := has_of_mem howner
  have hoverridden : ∀ members ∈ overrides, Has known .method members.toText ∧
      Has known .method members.equals ∧ Has known .method members.hashCode := by
    intro members hmembers
    obtain ⟨-, base, hsubset⟩ := hother members hmembers
    simp only [declaredUniversals, List.cons_subset] at hsubset
    exact ⟨has_of_mem hsubset.2.2.1, has_of_mem hsubset.2.1, has_of_mem hsubset.1⟩
  unfold declareUniversals declareUniversal
  refine Follows.bind (grown_declareMethod (by decide) hhas hreturns.string ?_) fun toText => ?_
  · simpa using fun members hmembers => (hoverridden members hmembers).1
  refine Follows.bind (grown_declareEquals hhas.cons hreturns.boolean.cons ?_) fun equals => ?_
  · simpa using fun members hmembers => (hoverridden members hmembers).2.1.cons
  -- The comparison takes what the lookup by name finds now, and so that is what it is known to
  -- take.
  refine Follows.get_bind fun t ht => ?_
  refine Follows.bind (grown_addComparand List.mem_cons_self (has_of_mem hobject).cons.cons ?_)
    fun _ => ?_
  · unfold comparand
    cases overrides with
    -- The object type itself compares with itself.
    | none => rw [hroot rfl, if_pos rfl]
    | some members =>
      have hne : owner ≠ object := ht.tail.tail.ne_of_name howner hobject (hother members rfl).1
      rw [if_neg fun heq => hne (Option.some.inj heq), ht.lookup, Option.getD_some]
  refine Follows.bind (grown_declareMethod (by decide) hhas.cons.cons hreturns.int32.cons.cons ?_)
    fun hashCode => ?_
  · simpa using fun members hmembers => (hoverridden members hmembers).2.2.cons.cons
  exact .pure fun t ht => ht

/-- The symbols that the parts of the library are declared with are known. -/
structure Roots.Known (roots : Roots) (known : List Declared) : Prop where
  module : Has known .module roots.module
  object : ⟨.type, roots.object, "Object", none⟩ ∈ known
  string : Has known .type roots.string
  boolean : ⟨.type, roots.boolean, "Boolean", none⟩ ∈ known
  int32 : ⟨.type, roots.int32, "Int32", none⟩ ∈ known
  valueType : ⟨.type, roots.valueType, "ValueType", none⟩ ∈ known
  members : declaredUniversals roots.valueType roots.valueTypeMembers ⊆ known

/-- What is known stays known. -/
theorem Roots.Known.mono {roots : Roots} {more : List Declared} (h : roots.Known known)
    (hsubset : known ⊆ more) : roots.Known more where
  module := h.module.mono hsubset
  object := hsubset h.object
  string := h.string.mono hsubset
  boolean := hsubset h.boolean
  int32 := hsubset h.int32
  valueType := hsubset h.valueType
  members := List.Subset.trans h.members hsubset

/-- What is known while the parts of the library are declared. -/
abbrev Growing (start : SymbolTable) (object : Token) (known : List Declared) (t : SymbolTable) :
    Prop :=
  Grown start object (some (firstObject start object)) known none t

/-- Overriding the universal members for a type that is not the object type. -/
private theorem grown_overrideUniversals {roots : Roots} (h : roots.Known known) {owner : Token}
    {name : String} (howner : ⟨.type, owner, name, none⟩ ∈ known) (hname : name ≠ "Object") :
    Follows (Halted start) (Growing start roots.object known) (roots.overrideUniversals owner)
      fun _ => Growing start roots.object known := by
  have hreturns : roots.returns.Known known :=
    ⟨h.string, has_of_mem h.boolean, has_of_mem h.int32⟩
  refine (grown_declareUniversals name h.object howner hreturns (by simp) ?_).weaken
    fun members t ht => ht.forget (List.subset_append_right _ _)
  rintro members hmembers
  obtain rfl := Option.mem_some_iff.1 hmembers
  exact ⟨hname, roots.valueType, h.members⟩

/-- The start has grown by nothing. -/
private theorem grown_start :
    Grown start object (start.findType? "System" "Object") [] none start where
  toExtends := extends_refl
  steps := .refl
  derives _ _ hfound hnew := absurd (resolves_of_get? hfound) hnew
  declared := nofun
  compares _ _ hfound hnew := absurd (resolves_of_get? hfound) hnew
  lookup := rfl

/-- The assembly is declared before the object type is known. -/
private theorem grown_installAssembly {first : Option Token} {name : String} :
    Follows (Halted start) (fun t => ∀ object, Grown start object first [] none t)
      (addAssembly { name }) fun assembly t =>
        ∀ object, Grown start object first [⟨.assembly, assembly, name, none⟩] none t :=
  .all fun _ => grown_run_settled (.addAssembly { name }) trivial (fun _ => rfl) rfl
    ⟨nofun, nofun⟩ nofun nofun nofun (.inr rfl)

/-- The module is declared before the object type is known, and the assembly is not needed after it.
    -/
private theorem grown_installModule {first : Option Token} {name assemblyName : String}
    {assembly : Token} :
    Follows (Halted start)
      (fun t => ∀ object,
        Grown start object first [⟨.assembly, assembly, assemblyName, none⟩] none t)
      (addModule { name, assembly := some assembly }) fun module t =>
        ∀ object, Grown start object first [⟨.module, module, name, none⟩] none t := by
  refine .all fun object => (grown_run_settled (.addModule { name, assembly := some assembly })
    trivial (fun _ => rfl) rfl ⟨?_, ?_⟩ nofun nofun nofun (.inr rfl)).weaken fun module t ht => ?_
  · simpa [Symbol.links] using has_head
  · simpa [Symbol.stored] using has_head.mentions
  · exact ht.forget (List.cons_subset_cons _ (List.nil_subset _))

/-- The object type of the library is the first one if there is no other. -/
private theorem grown_installObject {module : Token} (hmodule : Has known .module module) :
    Follows (Halted start)
      (fun t => ∀ object, Grown start object (start.findType? "System" "Object") known none t)
      (addType { systemType module "Object" .classType none with special := .object })
      fun object => Growing start object (⟨.type, object, "Object", none⟩ :: known) := by
  refine (Follows.all fun object => grown_run
    (.addType { systemType module "Object" .classType none with special := .object }) rfl
    (fun _ => rfl) rfl (refers_type hmodule (by simp [systemType])) nofun nofun nofun).weaken
    fun object t ht => ?_
  -- If the start had an object type, that one is found first from now on as well.
  have hlookup : (start.findType? "System" "Object").or (some object) =
      some (firstObject start object) := by
    unfold firstObject
    cases start.findType? "System" "Object" <;> rfl
  unfold Growing
  rw [← hlookup]
  exact ht object

/-- Declaring the symbols that everything else of the library is declared with. -/
private theorem grown_installRoots (platform : Platform) :
    Follows (Halted start) (· = start) (installRoots platform) fun roots t =>
      ∃ known, Growing start roots.object known t ∧ roots.Known known := by
  suffices hroots : Follows (Halted start)
      (fun t => ∀ object, Grown start object (start.findType? "System" "Object") [] none t)
      (installRoots platform) fun roots t =>
        ∃ known, Growing start roots.object known t ∧ roots.Known known by
    intro t ht
    rw [ht]
    exact hroots start fun _ => grown_start
  -- Up to the object type nothing depends on it, so it is left open until then.
  unfold installRoots
  refine Follows.bind grown_installAssembly fun assembly => ?_
  refine Follows.bind grown_installModule fun module => ?_
  refine Follows.bind (grown_installObject has_head) fun object => ?_
  refine Follows.bind (grown_declareType has_head.cons ?_) fun string => ?_
  · simpa [systemType] using hasRoot_object List.mem_cons_self
  refine Follows.bind (grown_declareType has_head.cons.cons (by simp [systemType]))
    fun boolean => ?_
  refine Follows.bind (grown_declareType has_head.cons.cons.cons (by simp [systemType]))
    fun int32 => ?_
  -- The members of the object type override nothing, so its own comparison takes the type itself.
  refine Follows.bind (grown_declareUniversals "Object" (by simp) (by simp)
    ⟨has_head.cons.cons, has_head.cons, has_head⟩ (fun _ => rfl) nofun) fun objectMembers => ?_
  refine Follows.bind (grown_declareType ?_ ?_) fun valueType => ?_
  · -- The module has been pushed back by what was declared since.
    exact has_head.cons.cons.cons.cons.mono (List.subset_append_right _ _)
  · intro base hbase
    obtain rfl : object = base := Option.some.inj hbase
    exact hasRoot_object (by simp)
  refine Follows.bind (grown_declareUniversals "ValueType" (by simp) List.mem_cons_self
    ⟨?_, ?_, ?_⟩ (by simp) ?_) fun valueTypeMembers => ?_
  · exact (has_head.cons.cons.mono (List.subset_append_right _ _)).cons
  · exact (has_head.cons.mono (List.subset_append_right _ _)).cons
  · exact (has_head.mono (List.subset_append_right _ _)).cons
  · intro members hmembers
    obtain rfl := Option.mem_some_iff.1 hmembers
    exact ⟨by decide, object, List.subset_cons_of_subset _ (List.subset_append_left _ _)⟩
  refine .pure fun t ht => ⟨_, ht, ?_⟩
  constructor <;> simp [declaredUniversals, Has, systemType]

/-- Declaring the base type of enumerations. -/
private theorem grown_installEnumerations {roots : Roots} (h : roots.Known known) :
    Follows (Halted start) (Growing start roots.object known) (installEnumerations roots)
      fun _ => Growing start roots.object known := by
  unfold installEnumerations
  refine Follows.bind (grown_declareType h.module ?_) fun type => ?_
  · simpa [systemType] using hasRoot_valueType h.valueType
  have htype : Has (⟨.type, type, "Enum", none⟩ :: known) .type type := has_head
  have hknown := h.mono (List.subset_cons_self ⟨.type, type, "Enum", none⟩ known)
  refine Follows.bind (grown_overrideUniversals hknown List.mem_cons_self (by decide))
    fun members => ?_
  refine Follows.bind (grown_declareMethod (by decide) htype (has_of_mem hknown.boolean) (by simp))
    fun hasFlag => ?_
  refine Follows.bind (grown_addParameter (by decide) ?_ rfl) fun _ => ?_
  · simpa using htype
  -- Nothing that is installed later names this type, so it need not be remembered.
  exact .pure fun t ht => ht.tail

/-- The primitive types are declared, two of them with the roots already. -/
private theorem grown_registerPrimitive {roots : Roots} (h : roots.Known known)
    (special : SpecialType) :
    Follows (Halted start) (Growing start roots.object known) (registerPrimitive roots special)
      fun type => Growing start roots.object (⟨.type, type, special.name, none⟩ :: known) := by
  unfold registerPrimitive
  split
  · exact .pure fun t ht => ht.forget (List.cons_subset.2 ⟨h.boolean, List.Subset.refl _⟩)
  · exact .pure fun t ht => ht.forget (List.cons_subset.2 ⟨h.int32, List.Subset.refl _⟩)
  · exact grown_declareType h.module (by simp [systemType])

/-- A primitive type is declared, completed, and gets its universal members. -/
private theorem grown_installPrimitive {roots : Roots} (h : roots.Known known) {isReadOnly : Bool}
    {special : SpecialType} (hname : ¬IsRootName special.name) :
    Follows (Halted start) (Growing start roots.object known)
      (installPrimitive roots isReadOnly special) fun _ => Growing start roots.object known := by
  unfold installPrimitive
  refine Follows.bind (grown_registerPrimitive h special) fun type => ?_
  have hknown := h.mono (List.subset_cons_self ⟨.type, type, special.name, none⟩ known)
  refine Follows.bind (grown_edit List.mem_cons_self hname (fun symbol => ⟨_, _, _, rfl⟩) ?_ ?_)
    fun _ => ?_
  · intro symbol base hbase
    obtain rfl : roots.valueType = base := Option.some.inj hbase
    exact .inr (hasRoot_valueType hknown.valueType)
  · -- The only token that the edit brings in is the new base type.
    intro symbol stored hstored
    simp only [Symbol.stored, Option.toList_some, List.mem_append, List.mem_singleton] at hstored ⊢
    have hbase := (has_of_mem hknown.valueType).mentions
    grind
  refine Follows.bind (grown_overrideUniversals hknown List.mem_cons_self
    fun heq => hname (.inl heq)) fun members => ?_
  exact .pure fun t ht => ht.tail

/-- Declaring the nullable wrapper with its type parameter and its members. -/
private theorem grown_installNullables {roots : Roots} (h : roots.Known known) (isReadOnly : Bool) :
    Follows (Halted start) (Growing start roots.object known) (installNullables roots isReadOnly)
      fun _ => Growing start roots.object known := by
  unfold installNullables declareNullable
  refine Follows.bind (grown_declareType h.module ?_) fun type => ?_
  · simpa [Roots.struct, systemType] using hasRoot_valueType h.valueType
  have htype : Has (⟨.type, type, "Nullable`1", none⟩ :: known) .type type := has_head
  refine Follows.bind (grown_declareTypeParameter htype) fun parameter => ?_
  have hsubset := List.subset_cons_of_subset ⟨.type, parameter, "T", none⟩
    (List.subset_cons_self ⟨.type, type, "Nullable`1", none⟩ known)
  have hparameter :
      Has (⟨.type, parameter, "T", none⟩ :: ⟨.type, type, "Nullable`1", none⟩ :: known)
        .type parameter := has_head
  have hboolean := has_of_mem (hsubset h.boolean)
  refine Follows.bind (grown_edit (List.mem_cons_of_mem _ List.mem_cons_self) (by decide)
    (fun symbol => ⟨_, _, _, rfl⟩) (fun symbol base hbase => .inl hbase) ?_) fun _ => ?_
  · -- The only token that the edit brings in is the type parameter.
    intro symbol stored hstored
    simp only [Symbol.stored, List.mem_append, List.mem_singleton] at hstored ⊢
    have hargument := hparameter.mentions
    grind
  -- The accessors of a property are declared before it and not named later.
  refine Follows.bind (grown_declareMethod (by decide) htype.cons hboolean (by simp))
    fun getHasValue => ?_
  refine Follows.bind (grown_declareProperty htype.cons hboolean) fun hasValue => ?_
  refine Follows.bind (grown_declareMethod (by decide) htype.cons hparameter (by simp))
    fun getValue => ?_
  refine Follows.bind (grown_declareProperty htype.cons hparameter) fun value => ?_
  refine Follows.bind (grown_declareMethod (by decide) htype.cons hparameter (by simp))
    fun getValueOrDefault => ?_
  refine Follows.bind (grown_declareMethod (by decide) htype.cons.cons hparameter.cons (by simp))
    fun getValueOrDefaultWith => ?_
  refine Follows.bind (grown_addParameter (by decide) ?_ rfl) fun _ => ?_
  · simpa using hparameter.cons
  refine Follows.bind (grown_overrideUniversals (h.mono (List.subset_cons_of_subset _ hsubset))
    (List.mem_cons_of_mem _ (List.mem_cons_of_mem _ List.mem_cons_self)) (by decide))
    fun members => ?_
  -- Nothing outside names the type, its parameter or the overload.
  exact .pure fun t ht => ht.tail.tail.tail

/-- Declaring the types of indices and ranges. -/
private theorem grown_installIndexing {roots : Roots} (h : roots.Known known) (isReadOnly : Bool) :
    Follows (Halted start) (Growing start roots.object known) (installIndexing roots isReadOnly)
      fun _ => Growing start roots.object known := by
  unfold installIndexing
  refine Follows.bind (grown_declareType h.module ?_) fun index => ?_
  · simpa [Roots.struct, systemType] using hasRoot_valueType h.valueType
  have hindex : Has (⟨.type, index, "Index", none⟩ :: known) .type index := has_head
  refine Follows.bind (grown_declareMethod (by decide) hindex hindex (by simp)) fun indexOfInt => ?_
  refine Follows.bind (grown_addParameter (by decide) ?_ rfl) fun _ => ?_
  · simpa using (has_of_mem h.int32).cons
  -- The two types do not name each other.
  refine Follows.bind (grown_declareType h.module.cons ?_) fun range => ?_
  · simpa [Roots.struct, systemType] using
      (hasRoot_valueType h.valueType).mono (List.subset_cons_of_subset _ (List.Subset.refl _))
  exact .pure fun t ht => ht.tail.tail

/-- Declaring a marker attribute. -/
private theorem grown_installMarker {roots : Roots} (h : roots.Known known) (name : String) :
    Follows (Halted start) (Growing start roots.object known) (installMarker roots name)
      fun _ => Growing start roots.object known := by
  unfold installMarker
  refine (grown_declareType h.module ?_).weaken fun _ t ht => ht.tail
  simpa [systemType] using hasRoot_object h.object

/-! ## The whole library -/

/-- The table is the start with a library installed: the start is extended, the object type is new,
    and all comparisons that were added take their comparands, that of the value type base among
    them. -/
structure IsInstalled (core : CoreLibrary) (start after : SymbolTable) : Prop
    extends Extends start after where
  object_new : Declared.Holds start after ⟨.type, core.object, "Object", none⟩
  equals_new : Declared.Holds start after
    ⟨.method, core.valueTypeMembers.equals, "Equals", some core.valueType⟩
  valueType_ne_object : core.valueType ≠ core.object
  compares : ∀ (method : Token) (found : MethodSymbol), after.method? method = some found →
    ¬start.resolves .method method → found.name = "Equals" →
      after.Takes found (comparand start core.object found.containingType)

/-- Installing a library leads by steps to a table with the library installed, unless a table is
    full. -/
theorem isInstalled_install (platform : Platform) :
    Follows (Halted start) (· = start) (install platform) fun core after =>
      core.IsInstalled start after ∧ Steps start after := by
  unfold install
  refine Follows.bind (grown_installRoots platform) fun roots => ?_
  -- From here on the roots are known, and each part adds to the table and needs no other part.
  refine Follows.of_exists fun known => Follows.of_fact fun h => ?_
  refine Follows.bind (grown_installEnumerations h) fun enumerations => ?_
  refine Follows.bind ((grown_declareType h.module ?_).weaken fun _ _ ht => ht.tail) fun void => ?_
  · simpa [Roots.struct, systemType] using hasRoot_valueType h.valueType
  refine Follows.bind (.mapM fun special hspecial => grown_installPrimitive h ?_)
    fun primitives => ?_
  · -- No type derives from a primitive type.
    revert special
    decide
  refine Follows.bind (grown_installNullables h _) fun nullables => ?_
  refine Follows.bind (grown_installIndexing h _) fun indexing => ?_
  refine Follows.bind (grown_installMarker h _) fun compilerGenerated => ?_
  refine Follows.bind (grown_installMarker h _) fun inlineArray => ?_
  refine .pure fun t ht => ⟨?_, ht.steps⟩
  exact
    { toExtends := ht.toExtends
      object_new := ht.declared _ h.object
      equals_new := ht.declared _ (h.members (by simp [declaredUniversals]))
      valueType_ne_object := ht.ne_of_name h.valueType h.object (by decide)
      compares := fun method found hfound hnew hname => by
        simpa using ht.compares method found hfound hnew hname }

/-- The installation touches no symbol of the start, stores tokens of its own only, and declares
    comparisons with its own object type only. -/
structure IsSelfContained (core : CoreLibrary) (start after : SymbolTable) : Prop where
  unchanged : ∀ (kind : SymbolKind) (token : Token) (symbol : Symbol kind),
    start.get? kind token = some symbol → after.get? kind token = some symbol
  closed : ∀ (kind : SymbolKind) (token : Token) (symbol : Symbol kind),
    after.get? kind token = some symbol → ¬start.resolves kind token →
      ∀ stored ∈ symbol.stored kind, Added start after stored
  compares : ∀ (method : Token) (found : MethodSymbol), after.method? method = some found →
    ¬start.resolves .method method → found.name = "Equals" → after.Takes found core.object

/-- A method takes one type only. -/
private theorem takes_unique {t : SymbolTable} {method : MethodSymbol} {left right : Token}
    (hleft : t.Takes method left) (hright : t.Takes method right) : left = right := by
  obtain ⟨token, parameter, hparameters, hparameter, htype⟩ := hleft
  obtain ⟨other, found, hothers, hfound, hother⟩ := hright
  obtain rfl : token = other := List.head_eq_of_cons_eq (hparameters.symm.trans hothers)
  obtain rfl : parameter = found := Option.some.inj (hparameter.symm.trans hfound)
  exact Option.some.inj (htype.symm.trans hother)

/-- A library is self-contained exactly if the table that it was installed in had no object type. -/
theorem IsInstalled.isSelfContained_iff {core : CoreLibrary} {after : SymbolTable}
    (h : core.IsInstalled start after) :
    core.IsSelfContained start after ↔ start.findType? "System" "Object" = none := by
  constructor
  · intro hself
    cases hfirst : start.findType? "System" "Object" with
    | none => rfl
    | some first =>
      -- The value type base compares with the first object type, which is not the new one.
      obtain ⟨hnew, found, hfound, hname, hhome⟩ := h.equals_new
      have hother : comparand start core.object found.containingType = first := by
        rw [show found.containingType = some core.valueType from hhome, comparand,
          if_neg fun heq => h.valueType_ne_object (Option.some.inj heq), firstObject, hfirst,
          Option.getD_some]
      -- A comparison has one parameter, so it takes one type.
      have hsame : first = core.object := by
        rw [← hother]
        exact takes_unique (h.compares _ found hfound hnew hname)
          (hself.compares _ found hfound hnew hname)
      exact absurd (hsame ▸ resolves_of_findType? hfirst) h.object_new.1
  · intro hnone
    refine ⟨fun _ _ _ hget => h.unchanged hget, fun kind token symbol hget hnew stored hmem => ?_,
      fun method found hfound hnew hname => ?_⟩
    · -- Without an object type at the start there is nothing to borrow.
      rcases h.closed hget hnew stored hmem with hadded | ⟨hfirst, -⟩
      · exact hadded
      · cases hnone.symm.trans hfirst
    · rcases comparand_cases start core.object found.containingType with heq | hfirst
      · exact heq ▸ h.compares method found hfound hnew hname
      · cases hnone.symm.trans hfirst

/-- Whatever the table and the platform, an installation fails only if a table is full, and all that
    it adds to the table, whether it fails or not, extends the start.  The one symbol of the start
    that it may refer to is the first object type there: comparisons that are not declared by the
    object type of the library take it.  So the installation is self-contained exactly if the table
    had no object type. -/
theorem install_selfContained_iff (platform : Platform) (start : SymbolTable) :
    (∀ error after, install platform start = .error error after → Spared start error after) ∧
      ∀ core after, install platform start = .ok core after →
        core.IsInstalled start after ∧
          (core.IsSelfContained start after ↔ start.findType? "System" "Object" = none) := by
  obtain ⟨hok, herror⟩ := isInstalled_install platform start rfl
  refine ⟨fun error after hrun => (herror error after hrun).1, fun core after hrun => ?_⟩
  obtain ⟨hinstalled, -⟩ := hok core after hrun
  exact ⟨hinstalled, hinstalled.isSelfContained_iff⟩

/-- Two libraries, the second one installed after the first, each with the table it leaves. -/
def twoLibraries? : Option (CoreLibrary × SymbolTable × CoreLibrary × SymbolTable) :=
  match install .net8 {} with
  | .error _ _ => none
  | .ok first between =>
    match install .net8 between with
    | .error _ _ => none
    | .ok second after => some (first, between, second, after)

/-- The second library is not self-contained: its value type base compares with the object type of
    the first one. -/
theorem second_library_borrows_object :
    ∃ first between second after, install .net8 {} = .ok first between ∧ between.Reachable ∧
      install .net8 between = .ok second after ∧ ¬second.IsSelfContained between after ∧
        ¬between.resolves .parameter (.ofParts .parameter 25) ∧
        (after.parameter? (.ofParts .parameter 25)).bind (·.containingMethod) =
          some second.valueTypeMembers.equals ∧
        (after.parameter? (.ofParts .parameter 25)).bind (·.type) = some first.object ∧
        first.object ≠ second.object := by
  -- Both installations are evaluated once, with all that is to be seen of them.
  have hvalues : twoLibraries?.any (fun (first, between, second, after) => decide
      (between.findType? "System" "Object" = some first.object ∧
        ¬between.resolves .parameter (.ofParts .parameter 25) ∧
        (after.parameter? (.ofParts .parameter 25)).bind (·.containingMethod) =
          some second.valueTypeMembers.equals ∧
        (after.parameter? (.ofParts .parameter 25)).bind (·.type) = some first.object ∧
        first.object ≠ second.object)) := by
    decide +kernel
  unfold twoLibraries? at hvalues
  split at hvalues
  · cases hvalues
  · next first between hfirst =>
    split at hvalues
    · cases hvalues
    · next second after hsecond =>
      obtain ⟨hobject, hvalues⟩ := of_decide_eq_true hvalues
      refine ⟨first, between, second, after, hfirst, .installed .empty hfirst, hsecond, ?_, hvalues⟩
      obtain ⟨hinstalled, -⟩ := (isInstalled_install .net8 between rfl).1 second after hsecond
      rw [hinstalled.isSelfContained_iff, hobject]
      exact Option.some_ne_none _

end CoreLibrary

end DefensiveCopy
