import DefensiveCopy.Proofs.LibraryClosure

/-!
# Integrity of reachable tables

Every table that calls and installations lead to is reached from the empty one by the steps of
registration (`SymbolTable.steps_of_reachable`): a call is one step at most, and an installation is
followed step by step anyway.  So reachable tables have every property that registration keeps.
They are intact, which is spelled out for their records (`SymbolTable.Consistent`), and a method
never has so many parameters that another one is refused for that.

## Key results

- `SymbolTable.KeptByRegistration.of_reachable`: properties of reachable tables
- `SymbolTable.intact_of_reachable`: every reachable table is intact
- `SymbolTable.addParameter_ne_tooManyParameters`: there is an ordinal for every parameter
- `SymbolTable.consistent_of_reachable`: what integrity means for the records
-/

namespace DefensiveCopy.SymbolTable

variable {t : SymbolTable}

/-! ## Steps -/

/-- Every reachable table is reached by steps. -/
theorem steps_of_reachable (h : t.Reachable) : Steps {} t := by
  induction h with
  | empty => exact .refl
  | added _ hfresh hrun ih => exact ih.run_ok hfresh hrun
  | refused _ hrun ih => exact ih.run_error hrun
  -- An installation is made of steps, whether it comes to its end or is interrupted.
  | installed _ hrun ih => exact ih.trans ((CoreLibrary.isInstalled_install _ _ rfl).1 _ _ hrun).2
  | interrupted _ hrun ih => exact ih.trans ((CoreLibrary.isInstalled_install _ _ rfl).2 _ _ hrun).2

/-- What registration keeps holds of every reachable table, if it holds of the empty one. -/
theorem KeptByRegistration.of_reachable {P : SymbolTable → Prop} (h : KeptByRegistration P)
    (hempty : P {}) (hreachable : t.Reachable) : P t :=
  h.of_steps hempty (steps_of_reachable hreachable)

/-- Every reachable table is intact. -/
theorem intact_of_reachable (h : t.Reachable) : t.Intact :=
  intact_kept.of_reachable intact_empty h

/-- A parameter is refused for its ordinal if its method is there, a row is left for it, and the
    method has a parameter for every ordinal. -/
private theorem ordinalLimit_le_of_addParameter {method place : Token} {parameter : ParameterSymbol}
    {after : SymbolTable}
    (h : addParameter method parameter t = .error (.tooManyParameters place) after) :
    ∃ (owner : MethodSymbol) (token : Token), t.method? method = some owner ∧
      tokenAfter? .parameter (t.count .parameter) = some token ∧
        ordinalLimit ≤ owner.parameters.length := by
  unfold addParameter at h
  -- None of the checks before the ordinal fails with this error.
  rcases bind_eq_error.1 h with h | ⟨_, between, hstep, h⟩
  · obtain ⟨token, -, heq⟩ := requireAll_eq_error h
    cases heq
  obtain ⟨-, hsame⟩ := requireAll_eq_ok.1 hstep
  subst between
  rcases bind_eq_error.1 h with h | ⟨token, between, hstep, h⟩
  · unfold nextToken at h
    split at h <;> cases h
  obtain ⟨htoken, hsame⟩ := nextToken_eq_ok.1 hstep
  subst between
  rw [get_bind] at h
  cases howner : t.method? method with
  | none =>
    rw [howner] at h
    cases h
  | some owner =>
    refine ⟨owner, token, rfl, htoken, Nat.le_of_not_lt fun hlt => ?_⟩
    -- With an ordinal left, all that remains succeeds.
    have hmethod : t.resolves .method method := resolves_of_get? howner
    rw [howner] at h
    dsimp only at h
    rw [unit_bind_of_eq_ok (requireOrdinal_eq_ok.2 ⟨hlt, rfl⟩),
      unit_bind_of_eq_ok (edit_eq_ok.2 ⟨hmethod, rfl⟩)] at h
    exact total_store _ _ _ _ _ h

/-- In a reachable table no parameter is refused for its ordinal: rows run out first. -/
theorem addParameter_ne_tooManyParameters (h : t.Reachable) {method place : Token}
    {parameter : ParameterSymbol} {after : SymbolTable} :
    addParameter method parameter t ≠ .error (.tooManyParameters place) after := by
  intro hrun
  obtain ⟨owner, token, howner, htoken, hle⟩ := ordinalLimit_le_of_addParameter hrun
  have hnew : ¬({} : SymbolTable).resolves .method method := by
    simp [resolves, get?_empty]
  exact Nat.not_le_of_lt ((steps_of_reachable h).ordinal_lt howner hnew htoken) hle

/-! ## Records -/

/-- What integrity means for the records of a table. -/
structure Consistent (t : SymbolTable) : Prop where
  /-- Every link of a symbol resolves to a symbol of the kind it must have. -/
  links_resolve : ∀ (kind : SymbolKind) (token : Token) (symbol : Symbol kind),
    t.get? kind token = some symbol → ∀ link ∈ symbol.links kind, t.resolves link.1 link.2
  /-- The members of a type are exactly the methods, fields, properties and events that it
      contains. -/
  mem_members_iff : ∀ (type : Token) (symbol : TypeSymbol), t.type? type = some symbol →
    ∀ member, member ∈ symbol.members ↔ t.view Symbol.home member = some type
  /-- No member is listed twice. -/
  members_nodup : ∀ (type : Token) (symbol : TypeSymbol), t.type? type = some symbol →
    symbol.members.Nodup
  /-- The members of one kind have increasing rows. -/
  members_increasing : ∀ (type : Token) (symbol : TypeSymbol), t.type? type = some symbol →
    ∀ kind, ((symbol.members.filter (·.kind? = some kind)).map Token.row).Pairwise (· < ·)
  /-- The parameters of a method are exactly the ones that it contains. -/
  mem_parameters_iff : ∀ (method : Token) (symbol : MethodSymbol),
    t.method? method = some symbol → ∀ parameter, parameter ∈ symbol.parameters ↔
      (t.parameter? parameter).bind (·.containingMethod) = some method
  /-- The ordinal of a parameter is its position. -/
  ordinal_eq : ∀ (method : Token) (symbol : MethodSymbol), t.method? method = some symbol →
    ∀ i parameter, symbol.parameters[i]? = some parameter →
      (t.parameter? parameter).map (·.ordinal) = some i
  /-- No chain of base types, containing types, containing methods or overridden methods comes back
      to a symbol that it has left. -/
  chain_acyclic : ∀ (link : ChainLink) (token : Token), ¬Relation.TransGen
    (fun source target => t.view link.target source = some target) token token

/-- What only symbols of one kind have is read off the symbols of this kind. -/
theorem view_of_kind {β : Type} {read : (kind : SymbolKind) → Symbol kind → Option β}
    {kind : SymbolKind} (hread : ∀ {other} (symbol : Symbol other), other ≠ kind →
      read other symbol = none) (token : Token) :
    t.view read token = (t.get? kind token).bind (read kind) := by
  apply Option.ext
  intro value
  rw [view_eq_some_iff, Option.bind_eq_some_iff]
  constructor
  · rintro ⟨other, symbol, hget, hvalue⟩
    by_cases heq : other = kind
    · subst heq
      exact ⟨symbol, hget, hvalue⟩
    · -- A symbol of another kind has nothing to read.
      rw [hread symbol heq] at hvalue
      cases hvalue
  · rintro ⟨symbol, hget, hvalue⟩
    exact ⟨kind, symbol, hget, hvalue⟩

/-- The owner of a parameter is the method that contains it. -/
private theorem view_owner (parameter : Token) :
    t.view Symbol.owner parameter = (t.parameter? parameter).bind (·.containingMethod) :=
  view_of_kind (fun {other} _ hne => by cases other <;> first | rfl | exact absurd rfl hne)
    parameter

/-- Only parameters have an ordinal. -/
private theorem view_ordinal? (parameter : Token) :
    t.view Symbol.ordinal? parameter = (t.parameter? parameter).map (·.ordinal) := by
  rw [Option.map_eq_bind]
  exact view_of_kind
    (fun {other} _ hne => by cases other <;> first | rfl | exact absurd rfl hne) parameter

/-- A table that is reached by calls that register symbols and install the core library, successful
    or not, is consistent. -/
theorem consistent_of_reachable (h : t.Reachable) : t.Consistent := by
  have hintact := intact_of_reachable h
  have hmembers : ∀ {type : Token} {symbol : TypeSymbol}, t.type? type = some symbol →
      t.view Listing.members.entries? type = some symbol.members :=
    fun hget => view_of_get? hget
  have hparameters : ∀ {method : Token} {symbol : MethodSymbol}, t.method? method = some symbol →
      t.view Listing.parameters.entries? method = some symbol.parameters :=
    fun hget => view_of_get? hget
  constructor
  · exact fun kind token symbol hget => hintact.links_resolve hget
  · exact fun type symbol hget => hintact.mem_entries_iff .members (hmembers hget)
  · intro type symbol hget
    refine (hintact.entries_increasing .members (hmembers hget)).imp ?_
    -- A member that is listed twice would have a smaller row than itself.
    rintro earlier later hrow rfl
    exact Nat.lt_irrefl _ (hrow rfl)
  · intro type symbol hget kind
    have hincreasing := hintact.entries_increasing .members (hmembers hget)
    refine List.pairwise_map.2 ((hincreasing.filter _).imp_of_mem ?_)
    intro earlier later hearlier hlater hrow
    -- Members of one kind are compared by their rows.
    have hkind := of_decide_eq_true (List.mem_filter.1 hearlier).2
    exact hrow (hkind.trans (of_decide_eq_true (List.mem_filter.1 hlater).2).symm)
  · intro method symbol hget parameter
    rw [← view_owner]
    exact hintact.mem_entries_iff .parameters (hparameters hget) parameter
  · intro method symbol hget i parameter hparameter
    rw [← view_ordinal?]
    exact hintact.ordinal_eq (hparameters hget) i parameter hparameter
  · exact fun link => not_transGen_of_wellFounded (hintact.chain_wellFounded link)

/-- An indexer without its property: the type that is to declare the property is not there. -/
def pointCalls : List RegistrationCall :=
  [.addType { name := "Point", kind := .structType },
    .addMethod { name := "get_Item", containingType := some (.ofParts .type 1) },
    .addParameter (.ofParts .method 1) { name := "index" },
    .addProperty { name := "Item", getter := some (.ofParts .method 1),
                   containingType := some (.ofParts .type 2) }]

/-- What the calls lead to: all but the last one succeed, and that one has linked the getter. -/
def pointTable : SymbolTable where
  types := #[{ name := "Point", kind := .structType, members := [.ofParts .method 1] }]
  methods := #[{ name := "get_Item", containingType := some (.ofParts .type 1),
                 parameters := [.ofParts .parameter 1],
                 associated := some (.ofParts .property 1) }]
  parameters := #[{ name := "index", containingMethod := some (.ofParts .method 1) }]

/-- The table is consistent although its last call has failed. -/
theorem consistent_pointTable : pointTable.Reachable ∧ pointTable.Consistent := by
  have hcalls : RegistrationCall.runAll pointCalls {} = pointTable := rfl
  have hfresh : ∀ call ∈ pointCalls, call.IsFresh := by
    simp [pointCalls, RegistrationCall.IsFresh]
  have hreachable : pointTable.Reachable := hcalls ▸ Reachable.empty.runAll hfresh
  exact ⟨hreachable, consistent_of_reachable hreachable⟩

end DefensiveCopy.SymbolTable
