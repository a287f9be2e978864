import DefensiveCopy.Proofs.MemberSearch
import DefensiveCopy.SymbolTable.Accessibility

/-!
# The order of the accessibility levels

A wider level of accessibility admits all code that a narrower one admits.  Most steps between the
levels only drop a condition.  The step from protected to protected internal trades one condition
for another: code that is nested inside the declaring type has to derive from it or to belong to its
assembly.  It derives from it if the type around it resolves.  If it does not, that type is the
outermost one, so the assembly of the code is unknown and counts as the same.

The levels that are listed as wider (`Accessibility.wider`) are the only ones with this property:
one table tells all other pairs apart.

## Key results

- `SymbolTable.isNestedWithin_cases`: nested code is derived or belongs to the assembly
- `SymbolTable.grantsAccess_of_mem_wider`: wider levels admit more
- `SymbolTable.mem_wider_iff_access`: which levels admit all that another one admits
-/

namespace DefensiveCopy

/-- The levels that are at least as wide as the given one: each of private, private protected,
    protected, protected internal and public is wider than the ones before, and internal is narrower
    than the last two. -/
def Accessibility.wider : Accessibility → List Accessibility
  | .privateAccess =>
    [.privateAccess, .privateProtected, .protectedAccess, .protectedInternal, .publicAccess]
  | .privateProtected => [.privateProtected, .protectedAccess, .protectedInternal, .publicAccess]
  | .protectedAccess => [.protectedAccess, .protectedInternal, .publicAccess]
  | .internalAccess => [.internalAccess, .protectedInternal, .publicAccess]
  | .protectedInternal => [.protectedInternal, .publicAccess]
  | .publicAccess => [.publicAccess]

/-- A chain ends at the item that has no link. -/
private theorem getLast?_chainAvoiding {α : Type} [DecidableEq α] {next : α → Option α} {fuel : Nat}
    {passed : List α} {start item : α} (hmem : item ∈ chainAvoiding next fuel passed start)
    (hnone : next item = none) : (chainAvoiding next fuel passed start).getLast? = some item := by
  induction fuel generalizing passed start with
  | zero => cases hmem
  | succ fuel ih =>
    rw [chainAvoiding] at hmem ⊢
    split at hmem
    · cases hmem
    · next hnew =>
      rw [if_neg hnew]
      -- The item is the start, which has no link and ends the chain, or is further down it.
      rcases List.mem_cons.1 hmem with rfl | hrest
      · simp [hnone]
      · cases hnext : next start with
        | none => simp [hnext] at hrest
        | some following =>
          rw [hnext] at hrest
          rw [List.getLast?_cons, ih hrest, Option.getD_some]

namespace SymbolTable

variable {t : SymbolTable} {owner within : Token}

/-! ## Nested code -/

/-- A type that resolves is the first of its own base chain. -/
private theorem mem_typeAndBases_self {type : Token} (h : t.resolves .type type) :
    type ∈ t.typeAndBases type := by
  have hchain := t.isBaseChain_typeAndBases type
  obtain ⟨first, rest, htypes⟩ := List.exists_cons_of_ne_nil (hchain.nonempty h)
  obtain rfl : first = type := hchain.starts first (by simp [htypes])
  simp [htypes]

/-- A type that does not resolve is the outermost one, and its assembly is unknown. -/
private theorem assemblyOf?_of_not_resolves {type : Token} (hmem : type ∈ t.enclosingTypes within)
    (h : ¬t.resolves .type type) : t.assemblyOf? within = none := by
  have hnone : t.type? type = none := by simpa [resolves, type?] using h
  have hlast : (t.enclosingTypes within).getLast? = some type :=
    getLast?_chainAvoiding hmem (by simp [hnone])
  simp [assemblyOf?, hlast, hnone]

/-- Code that is nested inside a type counts as part of its assembly, or is nested inside a type
    derived from it. -/
theorem isNestedWithin_cases (h : t.isNestedWithin owner within) :
    t.sameAssembly owner within ∨ t.isWithinDerived owner within := by
  obtain ⟨type, hmem, hsame⟩ := List.any_eq_true.1 h
  by_cases hresolves : t.resolves .type type
  · -- Code inside a type that resolves is inside a type that derives from it: itself.
    right
    refine List.any_eq_true.2 ⟨type, hmem, ?_⟩
    exact List.any_eq_true.2 ⟨type, mem_typeAndBases_self hresolves, hsame⟩
  · left
    rw [sameAssembly, assemblyOf?_of_not_resolves hmem hresolves]
    cases t.assemblyOf? owner <;> rfl

/-! ## The levels -/

/-- A public method may be used from anywhere, whether or not a type declares it. -/
private theorem isAccessibleWithin_publicAccess {method : MethodSymbol} :
    t.isAccessibleWithin { method with accessibility := .publicAccess } within := by
  unfold isAccessibleWithin
  split <;> rfl

/-- For a method that a type declares, the level decides together with that type. -/
private theorem isAccessibleWithin_of_declared {method : MethodSymbol} {level : Accessibility}
    (h : method.containingType = some owner) :
    t.isAccessibleWithin { method with accessibility := level } within =
      t.grantsAccess level owner within := by
  simp only [isAccessibleWithin, h]

/-- A wider level admits all code that a narrower one admits. -/
theorem grantsAccess_of_mem_wider {narrow wide : Accessibility} (hwider : wide ∈ narrow.wider)
    (h : t.grantsAccess narrow owner within) : t.grantsAccess wide owner within := by
  -- The levels combine three answers, and one of these gives one of the other two.
  have hnested : t.isNestedWithin owner within →
      t.sameAssembly owner within ∨ t.isWithinDerived owner within := isNestedWithin_cases
  unfold grantsAccess at h ⊢
  -- What is left is about three truth values, and all of them can be tried.
  generalize t.isNestedWithin owner within = nested, t.sameAssembly owner within = same,
    t.isWithinDerived owner within = derived at hnested h ⊢
  revert nested same derived
  cases narrow <;> cases wide <;> revert hwider <;> decide

/-- Six classes of two assemblies.  The second and the third derive from the first, the second in
    the same assembly; the fourth is only in the same assembly, the fifth is not, and the sixth is
    constructed from the first, but in the other assembly. -/
def neighbourTable : SymbolTable where
  assemblies := #[{ name := "App" }, { name := "Lib" }]
  modules := #[{ name := "App.dll", assembly := some (.ofParts .assembly 1) },
               { name := "Lib.dll", assembly := some (.ofParts .assembly 2) }]
  types := #[
    { name := "Owner", kind := .classType, module := some (.ofParts .module 1) },
    { name := "Near", kind := .classType, module := some (.ofParts .module 1),
      base := some (.ofParts .type 1) },
    { name := "Far", kind := .classType, module := some (.ofParts .module 2),
      base := some (.ofParts .type 1) },
    { name := "Neighbour", kind := .classType, module := some (.ofParts .module 1) },
    { name := "Stranger", kind := .classType, module := some (.ofParts .module 2) },
    { name := "Owner", kind := .classType, module := some (.ofParts .module 2),
      definition := some (.ofParts .type 1) }]

/-- What the classes of the example may use of the first one tells the levels apart. -/
private theorem mem_wider_of_neighbourTable {narrow wide : Accessibility}
    (h : ∀ row ∈ [2, 3, 4, 5, 6],
      neighbourTable.grantsAccess narrow (.ofParts .type 1) (.ofParts .type row) →
        neighbourTable.grantsAccess wide (.ofParts .type 1) (.ofParts .type row)) :
    wide ∈ narrow.wider := by
  revert h
  cases narrow <;> cases wide <;> decide +kernel

/-- A public method may be used by all code.  A level admits all code that another one admits,
    whatever the symbol table, the declaring type of the method and the place of the code, exactly
    if it is listed as wider: private protected admits what private admits, protected what private
    protected admits, protected internal what protected admits and what internal admits, and public
    what any of them admits. -/
theorem mem_wider_iff_access :
    (∀ (t : SymbolTable) (method : MethodSymbol) (within : Token),
      t.isAccessibleWithin { method with accessibility := .publicAccess } within) ∧
    ∀ narrow wide : Accessibility, wide ∈ narrow.wider ↔
      ∀ (t : SymbolTable) (method : MethodSymbol) (owner within : Token),
        method.containingType = some owner →
          t.isAccessibleWithin { method with accessibility := narrow } within →
            t.isAccessibleWithin { method with accessibility := wide } within := by
  refine ⟨fun t method within => isAccessibleWithin_publicAccess, fun narrow wide => ⟨?_, ?_⟩⟩
  · intro hwider t method owner within howner h
    rw [isAccessibleWithin_of_declared howner] at h ⊢
    exact grantsAccess_of_mem_wider hwider h
  · intro h
    -- Five places in one table are enough to see that a level is not listed.
    apply mem_wider_of_neighbourTable
    intro row _
    exact h neighbourTable { name := "Use", containingType := some (.ofParts .type 1) } _ _ rfl

/-- Code inside a type that does not resolve may use a protected member of that type, though no type
    derives from it, and so it may use a protected internal one. -/
theorem isAccessibleWithin_unresolved :
    ({} : SymbolTable).isWithinDerived (.ofParts .type 1) (.ofParts .type 1) = false ∧
    ({} : SymbolTable).isAccessibleWithin
      { name := "Use", containingType := some (.ofParts .type 1),
        accessibility := .protectedAccess } (.ofParts .type 1) ∧
    ({} : SymbolTable).isAccessibleWithin
      { name := "Use", containingType := some (.ofParts .type 1),
        accessibility := .protectedInternal } (.ofParts .type 1) := by
  have hprotected : ({} : SymbolTable).isAccessibleWithin
      { name := "Use", containingType := some (.ofParts .type 1),
        accessibility := .protectedAccess } (.ofParts .type 1) := by
    decide +kernel
  refine ⟨by decide +kernel, hprotected, ?_⟩
  -- Protected internal is the wider level, so it admits the code as well.
  exact (mem_wider_iff_access.2 .protectedAccess .protectedInternal).1 (by decide) _
    { name := "Use", containingType := some (.ofParts .type 1) } _ _ rfl hprotected

end SymbolTable

end DefensiveCopy
