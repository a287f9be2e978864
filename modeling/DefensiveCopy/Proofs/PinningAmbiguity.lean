import DefensiveCopy.Proofs.Polling
import DefensiveCopy.Proofs.RegistrationCall
import Mathlib.Data.List.Basic

/-!
# Ambiguous pinning

A value whose type is a type parameter is pinned through the method that the constraints of the
parameter lead to.  Each constraint leads to at most one method: its own first candidate, or the
first candidate of the interfaces that it has (`SymbolTable.LeadsTo`).  The search takes the method
only if a single constraint leads to one.  So it misses the only method there is when that method is
reached twice, through a constraint that is repeated or through two interfaces that inherit it
(`SymbolTable.pinningMethod_diamond`).

## Key results

- `SymbolTable.pinnableOn?_eq_some_iff`: the search on one type
- `SymbolTable.pinnableThrough?_eq_some_iff`: the search through one constraint
- `SymbolTable.pinningMethod_eq_some_iff`: the search through all constraints
-/

namespace DefensiveCopy

namespace SymbolTable

variable {t : SymbolTable} {within type constraint method : Token}

/-! ## Candidates -/

/-- The token names an accessible instance method `GetPinnableReference` without parameters that
    returns a reference. -/
def IsPinCandidate (t : SymbolTable) (within token : Token) : Prop :=
  ∃ method, t.method? token = some method ∧ method.name = "GetPinnableReference" ∧
    method.isStatic = false ∧ method.parameters = [] ∧ method.refKind ≠ .byValue ∧
      t.isAccessibleWithin method within

/-- The method is the first candidate among the members of the type. -/
def IsFirstCandidate (t : SymbolTable) (within type method : Token) : Prop :=
  ∃ before after, t.members type = before ++ method :: after ∧ t.IsPinCandidate within method ∧
    ∀ earlier ∈ before, ¬t.IsPinCandidate within earlier

/-- The constraint leads to the method. -/
inductive LeadsTo (t : SymbolTable) (within constraint : Token) : Token → Prop where
  | own {method : Token} (hfirst : t.IsFirstCandidate within constraint method) :
    LeadsTo t within constraint method
  /-- An interface without a candidate of its own leads to that of the first interface it has which
      does have one. -/
  | inherited {method interface : Token} {symbol : TypeSymbol} {before after : List Token}
    (hown : ∀ own, ¬t.IsFirstCandidate within constraint own)
    (hconstraint : t.type? constraint = some symbol) (hkind : symbol.kind = .interfaceType)
    (hinterfaces : t.allInterfaces constraint = before ++ interface :: after)
    (hbefore : ∀ earlier ∈ before, ∀ other, ¬t.IsFirstCandidate within earlier other)
    (hfirst : t.IsFirstCandidate within interface method) : LeadsTo t within constraint method

/-- The method is the only one that constraints of the type lead to. -/
def IsOnlyMethod (t : SymbolTable) (within type method : Token) : Prop :=
  (∃ constraint ∈ t.constraintTypes type, t.LeadsTo within constraint method) ∧
    ∀ constraint ∈ t.constraintTypes type, ∀ other, t.LeadsTo within constraint other →
      other = method

/-- Two constraints of the type, or one that is listed twice, lead to the method. -/
def LeadsTwice (t : SymbolTable) (within type method : Token) : Prop :=
  ∃ first second, [first, second].Sublist (t.constraintTypes type) ∧
    t.LeadsTo within first method ∧ t.LeadsTo within second method

/-! ## The search -/

/-- The search on one type goes through its members. -/
private theorem pinnableOn?_eq_find? :
    t.pinnableOn? within type = (t.members type).find? fun token =>
    (t.method? token).any fun method =>
      method.name == pinningMethodName && t.isPinnable within method := by
  unfold pinnableOn? methodsNamed memberMethods
  induction t.members type with
  | nil => rfl
  | cons token rest ih =>
    cases hget : t.method? token with
    | none =>
      have hentry : t.methodWithToken? token = none := by simp [methodWithToken?, hget]
      rw [List.filterMap_cons_none hentry, ih, List.find?_cons_of_neg (by simp [hget])]
    | some method =>
      have hentry : t.methodWithToken? token = some (token, method) := by
        simp [methodWithToken?, hget]
      rw [List.filterMap_cons_some hentry, List.find?_cons, ← ih]
      -- Both searches test the name and the signature, in one step or in two.
      cases hname : method.name == pinningMethodName <;>
        cases hpinnable : t.isPinnable within method <;>
          simp [hget, hname, hpinnable]

/-- The test of the search is that of a candidate. -/
private theorem any_method?_iff {token : Token} :
    ((t.method? token).any fun method =>
      method.name == pinningMethodName && t.isPinnable within method) ↔
        t.IsPinCandidate within token := by
  simp [IsPinCandidate, Option.any_eq_true, isPinnable, pinningMethodName, and_assoc]

/-- The search on one type finds its first candidate. -/
theorem pinnableOn?_eq_some_iff :
    t.pinnableOn? within type = some method ↔ t.IsFirstCandidate within type method := by
  rw [pinnableOn?_eq_find?, List.find?_eq_some_iff_append, any_method?_iff]
  simp only [Bool.not_eq_true', ← Bool.not_eq_true, any_method?_iff]
  constructor
  · rintro ⟨hcandidate, before, after, hmembers, hbefore⟩
    exact ⟨before, after, hmembers, hcandidate, hbefore⟩
  · rintro ⟨before, after, hmembers, hcandidate, hbefore⟩
    exact ⟨hcandidate, before, after, hmembers, hbefore⟩

/-- The search on one type fails exactly if it has no first candidate. -/
private theorem pinnableOn?_eq_none_iff :
    t.pinnableOn? within type = none ↔ ∀ method, ¬t.IsFirstCandidate within type method := by
  simp only [Option.eq_none_iff_forall_ne_some, ne_eq, pinnableOn?_eq_some_iff]

/-- The search through one constraint finds the method that it leads to. -/
theorem pinnableThrough?_eq_some_iff :
    t.pinnableThrough? within constraint = some method ↔ t.LeadsTo within constraint method := by
  rw [pinnableThrough?, Option.or_eq_some_iff]
  constructor
  · rintro (hown | ⟨hown, hinherited⟩)
    · exact .own (pinnableOn?_eq_some_iff.1 hown)
    · split at hinherited
      · next hinterface =>
        obtain ⟨symbol, hconstraint, hkind⟩ := (Option.any_eq_true _ _).1 hinterface
        -- The first interface with a candidate has only interfaces without one before it.
        obtain ⟨before, interface, after, hinterfaces, hfirst, hbefore⟩ :=
          List.findSome?_eq_some_iff.1 hinherited
        exact .inherited (pinnableOn?_eq_none_iff.1 hown) hconstraint (beq_iff_eq.1 hkind)
          hinterfaces (fun earlier hearlier => pinnableOn?_eq_none_iff.1 (hbefore earlier hearlier))
          (pinnableOn?_eq_some_iff.1 hfirst)
      · cases hinherited
  · intro h
    cases h with
    | own hfirst => exact .inl (pinnableOn?_eq_some_iff.2 hfirst)
    | @inherited interface _ before after hown hconstraint hkind hinterfaces hbefore hfirst =>
      refine .inr ⟨pinnableOn?_eq_none_iff.2 hown, ?_⟩
      rw [if_pos (by simp [hconstraint, hkind])]
      -- Interfaces before it have no first candidate, so the search passes them.
      have hnone : ∀ earlier ∈ before, t.pinnableOn? within earlier = none :=
        fun earlier hearlier => pinnableOn?_eq_none_iff.2 (hbefore earlier hearlier)
      exact List.findSome?_eq_some_iff.2
        ⟨before, interface, after, hinterfaces, pinnableOn?_eq_some_iff.2 hfirst, hnone⟩

/-- A list has a single item exactly if all its items are the same and there are not two. -/
private theorem sole?_eq_some_iff {α : Type} {items : List α} {item : α} :
    sole? items = some item ↔
      (item ∈ items ∧ ∀ other ∈ items, other = item) ∧ ¬[item, item].Sublist items := by
  constructor
  · intro h
    unfold sole? at h
    split at h
    · cases h
      exact ⟨by simp, fun htwo => absurd htwo.length_le (by simp)⟩
    · cases h
  · rintro ⟨⟨hmem, hsame⟩, honce⟩
    match items with
    | [] => cases hmem
    | [only] => rw [hsame only (by simp), sole?]
    | first :: second :: rest =>
      -- Two items that are the same are found twice.
      rw [hsame first (by simp), hsame second (by simp)] at honce
      exact absurd (by simp) honce

/-- A method is the only one exactly if nothing else is found. -/
private theorem isOnlyMethod_iff :
    t.IsOnlyMethod within type method ↔
      method ∈ (t.constraintTypes type).filterMap (t.pinnableThrough? within) ∧
        ∀ other ∈ (t.constraintTypes type).filterMap (t.pinnableThrough? within),
          other = method := by
  simp only [IsOnlyMethod, List.mem_filterMap, pinnableThrough?_eq_some_iff]
  refine and_congr_right fun _ => ⟨?_, ?_⟩
  · rintro hsame other ⟨constraint, hmem, hleads⟩
    exact hsame constraint hmem other hleads
  · intro hsame constraint hmem other hleads
    exact hsame other ⟨constraint, hmem, hleads⟩

/-- Constraints of the type lead twice to the method exactly if it is found twice. -/
private theorem leadsTwice_iff :
    t.LeadsTwice within type method ↔ [method, method].Sublist
      ((t.constraintTypes type).filterMap (t.pinnableThrough? within)) := by
  simp only [LeadsTwice, ← pinnableThrough?_eq_some_iff]
  constructor
  · rintro ⟨first, second, hlisted, hfirst, hsecond⟩
    simpa [hfirst, hsecond] using hlisted.filterMap (t.pinnableThrough? within)
  · intro h
    -- Two results come from two constraints, with others around them that lead nowhere.
    obtain ⟨listed, hlisted, heq⟩ := List.sublist_filterMap_iff.1 h
    obtain ⟨skipped, first, rest, rfl, -, hfirst, hrest⟩ := List.filterMap_eq_cons_iff.1 heq.symm
    obtain ⟨between, second, after, rfl, -, hsecond, -⟩ := List.filterMap_eq_cons_iff.1 hrest
    have htwo : [first, second].Sublist (skipped ++ first :: (between ++ second :: after)) := by
      have hafter : [second].Sublist (between ++ second :: after) := by simp
      exact (hafter.cons_cons first).trans (List.sublist_append_right _ _)
    exact ⟨first, second, htwo.trans hlisted, hfirst, hsecond⟩

/-- The search that is not called off always answers.  It finds the first candidate of the type
    itself; for a type parameter without one, it finds the only method that the constraints lead to,
    unless two of them lead to it. -/
theorem pinningMethod_eq_some_iff (t : SymbolTable) (type within : Token) :
    ∃ answer, t.pinningMethod .live type within = .ok answer ∧
      ∀ method, answer = some method ↔
        t.IsFirstCandidate within type method ∨
          (∀ own, ¬t.IsFirstCandidate within type own) ∧ t.isTypeParameter type ∧
            t.IsOnlyMethod within type method ∧ ¬t.LeadsTwice within type method := by
  refine ⟨_, pinningMethod_live t type within, fun method => ?_⟩
  rw [pinnable?, Option.or_eq_some_iff, pinnableOn?_eq_some_iff, pinnableOn?_eq_none_iff]
  refine or_congr_right (and_congr_right fun _ => ?_)
  by_cases hparameter : t.isTypeParameter type
  · rw [if_pos hparameter, sole?_eq_some_iff, ← isOnlyMethod_iff, ← leadsTwice_iff]
    simp [hparameter]
  · simp [hparameter]

/-- The calls that register an interface to pin values by, two interfaces that inherit it and a type
    parameter that is constrained to both. -/
def diamondCalls : List RegistrationCall :=
  [.addType { name := "Caller", namespaceName := "App", kind := .classType },
   .addType { name := "IPin", namespaceName := "App", kind := .interfaceType },
   .addMethod { name := "GetPinnableReference", refKind := .byRef,
                containingType := some (.ofParts .type 2) },
   .addType { name := "ILeft", namespaceName := "App", kind := .interfaceType,
              interfaces := [.ofParts .type 2] },
   .addType { name := "IRight", namespaceName := "App", kind := .interfaceType,
              interfaces := [.ofParts .type 2] },
   .addType (.typeParameter "T" { constraintTypes := [.ofParts .type 3, .ofParts .type 4] })]

/-- The symbols of the example. -/
def diamondTable : SymbolTable := RegistrationCall.runAll diamondCalls {}

/-- A type without base types that names one interface has that interface, and no other if the
    interface names none. -/
private theorem allInterfaces_of_single (interface : Token) (hbases : t.typeAndBases type = [type])
    (hnamed : t.interfacesOf type = [interface]) (hresolves : t.resolves .type interface)
    (hnone : t.interfacesOf interface = []) : t.allInterfaces type = [interface] := by
  simp [allInterfaces, hbases, hnamed, visitInterfaces, hresolves, hnone]

/-- There is only one method to pin values of the type parameter through, and the search does not
    find it because both constraints lead to it. -/
theorem pinningMethod_diamond :
    diamondTable.Reachable ∧
    diamondTable.isTypeParameter (.ofParts .type 5) ∧
    (∀ own, ¬diamondTable.IsFirstCandidate (.ofParts .type 1) (.ofParts .type 5) own) ∧
    diamondTable.IsOnlyMethod (.ofParts .type 1) (.ofParts .type 5) (.ofParts .method 1) ∧
    diamondTable.pinningMethod .live (.ofParts .type 5) (.ofParts .type 1) = .ok none := by
  have hfresh : ∀ call ∈ diamondCalls, call.IsFresh := by
    simp [diamondCalls, RegistrationCall.IsFresh, TypeSymbol.typeParameter]
  have hown : diamondTable.pinnableOn? (.ofParts .type 1) (.ofParts .type 5) = none := by decide
  have hleft : diamondTable.pinnableThrough? (.ofParts .type 1) (.ofParts .type 3) =
      some (.ofParts .method 1) := by
    rw [pinnableThrough?, allInterfaces_of_single (.ofParts .type 2) (by decide) (by decide)
      (by decide) (by decide)]
    decide
  have hright : diamondTable.pinnableThrough? (.ofParts .type 1) (.ofParts .type 4) =
      some (.ofParts .method 1) := by
    rw [pinnableThrough?, allInterfaces_of_single (.ofParts .type 2) (by decide) (by decide)
      (by decide) (by decide)]
    decide
  have hconstraints : diamondTable.constraintTypes (.ofParts .type 5) =
      [.ofParts .type 3, .ofParts .type 4] := by
    decide
  -- The method is found once for each of the two interfaces that inherit it.
  have hfound : (diamondTable.constraintTypes (.ofParts .type 5)).filterMap
      (diamondTable.pinnableThrough? (.ofParts .type 1)) =
        [.ofParts .method 1, .ofParts .method 1] := by
    simp [hconstraints, hleft, hright]
  refine ⟨Reachable.empty.runAll hfresh, by decide, pinnableOn?_eq_none_iff.1 hown, ?_, ?_⟩
  · rw [isOnlyMethod_iff, hfound]
    simp
  · rw [pinningMethod_live, pinnable?, hown, hfound]
    rfl

end SymbolTable

end DefensiveCopy
