import DefensiveCopy.Proofs.LibraryIntegrity
import DefensiveCopy.Proofs.LinkPaths
import DefensiveCopy.Proofs.MemberSearch

/-!
# Which method overrides another

The method that runs in place of a virtual one is the first member of the receiver's type or its
base types from which links to overridden methods lead to it.  The search follows `Chain.limit`
links from each member, so it is exact for chains of that length and misses longer ones, whether the
links run in circles or not.

Registration makes no circles.  In a table that it leads to, the search finds the first method that
overrides the given one at all, as long as no chain of overrides is too long; and no chain has more
links than there are methods (`SymbolTable.length_le_size_of_reachable`).

## Key results

- `SymbolTable.overridesWithin_iff`: the links that are followed from one method
- `SymbolTable.not_transGen_overrides`: registered overrides have no circle
- `SymbolTable.overrideFor?_exact`: what the search finds
-/

namespace DefensiveCopy.SymbolTable

variable {t : SymbolTable} {method target : Token} {path : List Token}

/-! ## Links to overridden methods -/

/-- The method names the other one as the method that it overrides. -/
def Overrides (t : SymbolTable) (method overridden : Token) : Prop :=
  ∃ symbol, t.method? method = some symbol ∧ symbol.overridden = some overridden

/-- The overridden method that is read is the one that the method names. -/
private theorem overridden?_eq_some_iff {overridden : Token} :
    t.overridden? method = some overridden ↔ t.Overrides method overridden := by
  simp only [overridden?, Overrides, Option.bind_eq_some_iff]

/-- The search from a method follows at least one link and at most `fuel` links. -/
theorem overridesWithin_iff {fuel : Nat} :
    t.overridesWithin target fuel (t.overridden? method) ↔
      ∃ path, IsPath t.Overrides path method target ∧ 1 ≤ path.length ∧ path.length ≤ fuel := by
  induction fuel generalizing method with
  | zero =>
    rw [overridesWithin]
    refine iff_of_false (by simp) ?_
    rintro ⟨path, -, hpos, hle⟩
    omega
  | succ fuel ih =>
    cases hnext : t.overridden? method with
    | none =>
      rw [overridesWithin]
      refine iff_of_false (by simp) ?_
      rintro ⟨path, hpath, hpos, -⟩
      cases hpath with
      | nil => simp at hpos
      | cons hstep _ =>
        rw [← overridden?_eq_some_iff, hnext] at hstep
        cases hstep
    | some following =>
      have hstep := overridden?_eq_some_iff.1 hnext
      -- The target is the next method, or the path goes on from there with less fuel.
      rw [overridesWithin, Bool.or_eq_true, beq_iff_eq, ih]
      constructor
      · rintro (rfl | ⟨path, hpath, hpos, hle⟩)
        · exact ⟨[method], .cons hstep (.nil following), by simp, by simp⟩
        · have hlength : (method :: path).length = path.length + 1 := rfl
          exact ⟨method :: path, .cons hstep hpath, by omega, by omega⟩
      · rintro ⟨path, hpath, hpos, hle⟩
        cases hpath with
        | nil => simp at hpos
        | @cons _ other _ rest hother hrest =>
          -- A method overrides one method, so the first link of the path is the one that was
          -- followed.
          rw [← overridden?_eq_some_iff, hnext, Option.some.injEq] at hother
          subst hother
          rw [List.length_cons] at hle
          -- The path is a single link, or there are more.
          cases hrest with
          | nil => exact .inl rfl
          | cons hsecond htail => exact .inr ⟨_, .cons hsecond htail, by simp, by omega⟩

/-! ## Registered overrides -/

/-- Overriding is the chain of registered links to overridden methods. -/
private theorem overrides_iff_view :
    t.Overrides method target ↔ t.view ChainLink.overridden.target method = some target := by
  have hview : t.view ChainLink.overridden.target method =
      (t.method? method).bind (·.overridden) :=
    view_of_kind (fun {other} _ hne => by cases other <;> first | rfl | exact absurd rfl hne) method
  rw [hview, ← overridden?_eq_some_iff, overridden?]

/-- In a table that registration leads to, no method overrides itself, not even through others. -/
theorem not_transGen_overrides (h : t.Reachable) (method : Token) :
    ¬Relation.TransGen t.Overrides method method := by
  have hwell := (intact_of_reachable h).chain_wellFounded .overridden
  have hsame : t.Overrides = fun source target =>
      t.view ChainLink.overridden.target source = some target := by
    funext source target
    exact propext overrides_iff_view
  rw [hsame]
  exact not_transGen_of_wellFounded hwell method

/-- In a table that registration leads to, chains of overrides have no more links than there are
    methods. -/
theorem length_le_size_of_reachable (h : t.Reachable)
    (hpath : IsPath t.Overrides path method target) : path.length ≤ t.methods.size := by
  have hnodup := hpath.nodup_of_acyclic (not_transGen_overrides h)
  -- The methods on the path are different and resolve.
  have hle := length_le_countP .method (p := fun _ => true) hnodup fun token htoken => by
    obtain ⟨_, symbol, hsymbol, -⟩ := hpath.exists_step htoken
    exact ⟨symbol, hsymbol, rfl⟩
  exact Nat.le_trans hle Array.countP_le_size

/-! ## The search -/

/-- A member is tested by the links that lead on from it, if it is a method. -/
private theorem any_overridesWithin {fuel : Nat} :
    ((t.method? method).any fun symbol => t.overridesWithin target fuel symbol.overridden) =
      t.overridesWithin target fuel (t.overridden? method) := by
  rw [overridden?]
  cases t.method? method with
  | none => cases fuel <;> rfl
  | some symbol => rfl

/-- The search finds the first listed member that is at most 256 links from the target. -/
private theorem overrideFor?_eq_iff {type : Token} {found : Option Token} :
    t.overrideFor? type target = found ↔
      t.IsFirstListed (fun method => ∃ path, IsPath t.Overrides path method target ∧
        1 ≤ path.length ∧ path.length ≤ 256) (t.typeAndBases type) found := by
  rw [overrideFor?, t.find?_inheritedMethods type fun symbol =>
    t.overridesWithin target Chain.limit symbol.overridden]
  apply find?_members_eq_iff
  intro method
  rw [any_overridesWithin, overridesWithin_iff, Chain.limit]

/-- The types that are searched for an override are the type itself and its base types, up to a
    repetition and up to 256 of them.  The search finds the first of their members from which at
    least one and at most 256 links to overridden methods lead to the target, and nothing if there
    is no such member.  In a table that registration leads to, no links run in a circle, and if no
    chain of more than 256 links leads to the target, the search finds the first member that
    overrides the target, directly or through other overrides. -/
theorem overrideFor?_exact (t : SymbolTable) (type target : Token) :
    t.IsBaseChain type (t.typeAndBases type) ∧
    (∀ found, t.overrideFor? type target = found ↔
      t.IsFirstListed (fun method => ∃ path, IsPath t.Overrides path method target ∧
        1 ≤ path.length ∧ path.length ≤ 256) (t.typeAndBases type) found) ∧
    (t.Reachable →
      (∀ method, ¬Relation.TransGen t.Overrides method method) ∧
      ((∀ path method, IsPath t.Overrides path method target → path.length ≤ 256) →
        ∀ found, t.overrideFor? type target = found ↔
          t.IsFirstListed (Relation.TransGen t.Overrides · target) (t.typeAndBases type)
            found)) := by
  refine ⟨t.isBaseChain_typeAndBases type, fun found => overrideFor?_eq_iff, fun hreachable =>
    ⟨not_transGen_overrides hreachable, fun hshort found => ?_⟩⟩
  -- No chain is cut short, so the chains that are followed are all there are.
  have hsame : (fun method => ∃ path, IsPath t.Overrides path method target ∧
      1 ≤ path.length ∧ path.length ≤ 256) = (Relation.TransGen t.Overrides · target) := by
    funext method
    apply propext
    constructor
    · rintro ⟨path, hpath, hpos, -⟩
      exact hpath.transGen (List.ne_nil_of_length_pos hpos)
    · intro htrans
      obtain ⟨path, hpath, hpos⟩ := IsPath.exists_of_transGen htrans
      exact ⟨path, hpath, hpos, hshort path method hpath⟩
  rw [overrideFor?_eq_iff, hsame]

/-- The calls that register four classes, each derived from the one before.  The first declares a
    virtual method, the next two override it, and the last one declares nothing. -/
def figureCalls : List RegistrationCall :=
  [.addType { name := "Shape", kind := .classType },
   .addMethod { name := "Draw", modifiers := { isVirtual := true },
                containingType := some (.ofParts .type 1) },
   .addType { name := "Circle", kind := .classType, base := some (.ofParts .type 1) },
   .addMethod { name := "Draw", overridden := some (.ofParts .method 1),
                containingType := some (.ofParts .type 2) },
   .addType { name := "Disc", kind := .classType, base := some (.ofParts .type 2) },
   .addMethod { name := "Draw", overridden := some (.ofParts .method 2),
                containingType := some (.ofParts .type 3) },
   .addType { name := "Coin", kind := .classType, base := some (.ofParts .type 3) }]

/-- The symbols of the example. -/
def figureTable : SymbolTable := RegistrationCall.runAll figureCalls {}

/-- On the last class, the override of the override is the first one. -/
theorem overrideFor?_figureTable :
    figureTable.Reachable ∧
    (∀ path method, IsPath figureTable.Overrides path method (.ofParts .method 1) →
      path.length ≤ 256) ∧
    figureTable.IsFirstListed (Relation.TransGen figureTable.Overrides · (.ofParts .method 1))
      (figureTable.typeAndBases (.ofParts .type 4)) (some (.ofParts .method 3)) := by
  have hfresh : ∀ call ∈ figureCalls, call.IsFresh := by
    simp [figureCalls, RegistrationCall.IsFresh]
  have hreachable : figureTable.Reachable := Reachable.empty.runAll hfresh
  have hshort : ∀ path method, IsPath figureTable.Overrides path method (.ofParts .method 1) →
      path.length ≤ 256 := by
    intro path method hpath
    have hle := length_le_size_of_reachable hreachable hpath
    -- A chain is no longer than there are methods, and there are three.
    have hsize : figureTable.methods.size ≤ 256 := by decide
    omega
  have hfound : figureTable.overrideFor? (.ofParts .type 4) (.ofParts .method 1) =
      some (.ofParts .method 3) := by
    decide
  obtain ⟨-, hfirst⟩ :=
    (overrideFor?_exact figureTable (.ofParts .type 4) (.ofParts .method 1)).2.2 hreachable
  exact ⟨hreachable, hshort, (hfirst hshort _).1 hfound⟩

end DefensiveCopy.SymbolTable
