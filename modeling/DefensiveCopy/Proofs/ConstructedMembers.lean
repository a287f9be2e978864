import DefensiveCopy.Proofs.LibraryClosure
import DefensiveCopy.Proofs.LibraryIntegrity
import DefensiveCopy.Proofs.MemberSearch

/-!
# The members of constructed types

A type that is constructed from a generic definition takes over what the definition says about
itself, and leaves its members with the definition.  A lookup finds them there as long as no member
is registered on the constructed type.  From then on, the constructed type has its own members and
those of the definition are not found on it any more.  Nor does a lookup go on to what the
definition itself is constructed from (`SymbolTable.members_not_shared`).

Two tables of one run are compared by `SymbolTable.Later`.  All that happens to a type after it is
registered is that it gains members (`SymbolTable.Later.type?`).

## Key results

- `SymbolTable.type?_of_run_ok`, `SymbolTable.type?_of_run_error`: what a call does to a type
- `SymbolTable.Later.type?`: what a run does to a type
- `SymbolTable.members_constructed`: the members of a constructed type
-/

namespace DefensiveCopy

namespace RegistrationCall

variable {call : RegistrationCall} {t : SymbolTable}

/-- The type that the call registers a member on. -/
def home? : RegistrationCall → Option Token
  | .addMethod method => method.containingType
  | .addField field => field.containingType
  | .addProperty property => property.containingType
  | .addEvent event => event.containingType
  | .addAssembly _ | .addModule _ | .addType _ | .construct _ _ | .nullableOf _ _
  | .addParameter _ _ | .addSlot _ => none

/-- The symbol that a call registers names the home that the call names. -/
private theorem home_of_symbol? {kind : SymbolKind} {symbol : Symbol kind}
    (h : call.symbol? t = some ⟨kind, symbol⟩) : symbol.home kind = call.home? := by
  cases call with
  | construct _ _ | nullableOf _ _ | addParameter _ _ =>
    obtain ⟨_, -, heq⟩ := Option.map_eq_some_iff.1 h
    cases heq
    rfl
  | addAssembly _ | addModule _ | addType _ | addMethod _ | addField _ | addProperty _ | addEvent _
  | addSlot _ =>
    cases h
    rfl

end RegistrationCall

namespace SymbolTable

variable {admits : RegistrationCall → Prop} {start t after later : SymbolTable}
  {call : RegistrationCall} {place token : Token} {symbol : TypeSymbol}

/-! ## Types in the course of a run -/

/-- The tables that further calls and installations lead to, whether they succeed or fail.  The
    calls that succeed are admitted ones, and as in `Reachable` they register fresh symbols only
    (`RegistrationCall.IsFresh`). -/
inductive Later (admits : RegistrationCall → Prop) (start : SymbolTable) : SymbolTable → Prop where
  | refl : Later admits start start
  | added {t after : SymbolTable} {call : RegistrationCall} {token : Token}
    (h : Later admits start t) (hfresh : call.IsFresh) (hadmits : admits call)
    (hrun : call.run t = .ok token after) : Later admits start after
  | refused {t after : SymbolTable} {call : RegistrationCall} {error : SymbolError}
    (h : Later admits start t) (hrun : call.run t = .error error after) : Later admits start after
  | installed {t after : SymbolTable} {platform : Platform} {core : CoreLibrary}
    (h : Later admits start t) (hrun : CoreLibrary.install platform t = .ok core after) :
    Later admits start after
  | interrupted {t after : SymbolTable} {platform : Platform} {error : SymbolError}
    (h : Later admits start t) (hrun : CoreLibrary.install platform t = .error error after) :
    Later admits start after

/-- Further calls and installations lead from reachable tables to reachable ones. -/
theorem Later.reachable (hlater : Later admits start t) (h : start.Reachable) : t.Reachable := by
  induction hlater with
  | refl => exact h
  | added _ hfresh _ hrun ih => exact ih.added hfresh hrun
  | refused _ hrun ih => exact ih.refused hrun
  | installed _ hrun ih => exact ih.installed hrun
  | interrupted _ hrun ih => exact ih.interrupted hrun

/-- A list of admitted calls leads on, whichever of them fail. -/
theorem Later.runAll (h : Later admits start t) {calls : List RegistrationCall}
    (hcalls : ∀ call ∈ calls, call.IsFresh ∧ admits call) :
    Later admits start (RegistrationCall.runAll calls t) := by
  unfold RegistrationCall.runAll
  induction calls generalizing t with
  | nil => exact h
  | cons call rest ih =>
    obtain ⟨hfresh, hadmits⟩ := hcalls call List.mem_cons_self
    refine ih ?_ fun other hother => hcalls other (List.mem_cons_of_mem _ hother)
    dsimp only
    split
    · next hrun => exact h.added hfresh hadmits hrun
    · next hrun => exact h.refused hrun

/-- A call that succeeds changes nothing about a type, except that it appends the member that it
    registers on it. -/
theorem type?_of_run_ok (hrun : call.run t = .ok token after) (hget : t.type? place = some symbol) :
    after.type? place = some
      { symbol with
        members := if call.home? = some place then symbol.members ++ [token]
          else symbol.members } := by
  obtain ⟨kind, added, hadded, hregisters, rfl⟩ := RegistrationCall.registers_of_run hrun
  rw [← RegistrationCall.home_of_symbol? hadded]
  -- Of the links back, a type has only the list of its members.
  exact get?_registered_of_get? hregisters.token_eq hget

/-- A call that fails changes no type. -/
theorem type?_of_run_error {error : SymbolError} (hrun : call.run t = .error error after) :
    after.type? place = t.type? place := by
  obtain rfl | ⟨_, accessors, owner, -, -, rfl⟩ := RegistrationCall.eq_or_linked_of_error hrun
  · rfl
  · exact get?_linked_other (by decide)

/-- In the course of a run a type gains members, if calls are admitted that register members on it,
    and nothing else happens to it. -/
theorem Later.type? (hlater : Later admits start t) (hget : start.type? place = some symbol) :
    ∃ gained, t.type? place = some { symbol with members := symbol.members ++ gained } ∧
      ((∀ call, admits call → call.home? ≠ some place) → gained = []) := by
  -- By induction on the run: only calls that succeed add to the members, one at a time.
  induction hlater with
  | refl => exact ⟨[], by rwa [List.append_nil], fun _ => rfl⟩
  | @added _ _ call token _ _ hadmits hrun ih =>
    obtain ⟨gained, hold, hspared⟩ := ih
    rw [type?_of_run_ok hrun hold]
    by_cases hhome : call.home? = some place
    · refine ⟨gained ++ [token], by simp [hhome], fun hnone => ?_⟩
      exact absurd hhome (hnone call hadmits)
    · exact ⟨gained, by simp [hhome], hspared⟩
  | refused _ hrun ih => rwa [type?_of_run_error hrun]
  | installed _ hrun ih =>
    obtain ⟨gained, hold, hspared⟩ := ih
    obtain ⟨hinstalled, -⟩ := (CoreLibrary.isInstalled_install _ _ rfl).1 _ _ hrun
    exact ⟨gained, hinstalled.unchanged hold, hspared⟩
  | interrupted _ hrun ih =>
    obtain ⟨gained, hold, hspared⟩ := ih
    obtain ⟨⟨-, hextends⟩, -⟩ := (CoreLibrary.isInstalled_install _ _ rfl).2 _ _ hrun
    exact ⟨gained, hextends.unchanged hold, hspared⟩

/-! ## Constructed types -/

variable {definition type : Token} {typeArguments : List Token} {generic : TypeSymbol}

/-- Construction is one of the calls, so it leads to reachable tables. -/
theorem Reachable.construct (h : t.Reachable)
    (hrun : construct definition typeArguments t = .ok type after) : after.Reachable := by
  have hcall : (RegistrationCall.construct definition typeArguments).run t = .ok type after := hrun
  exact h.added (by trivial) hcall

/-- A type is constructed from a definition that resolves, and the definition stays as it is. -/
theorem type?_of_construct (hrun : construct definition typeArguments t = .ok type after) :
    ∃ generic, t.type? definition = some generic ∧ after.type? definition = some generic ∧
      after.type? type = some (constructed definition generic typeArguments) := by
  obtain ⟨generic, hgeneric, hadd⟩ := RegistrationCall.addType_of_construct hrun
  have hcall : (RegistrationCall.construct definition typeArguments).run t = .ok type after := hrun
  refine ⟨generic, hgeneric, (type?_of_run_ok hcall hgeneric).trans rfl, ?_⟩
  obtain ⟨hregisters, rfl⟩ := RegistrationCall.registers_of_addType hadd
  exact get?_registered_new hregisters.token_eq

/-- A constructed type is none of the types that were there before. -/
private theorem ne_of_construct (hrun : construct definition typeArguments t = .ok type after)
    (hresolves : t.resolves .type place) : place ≠ type := by
  rintro rfl
  obtain ⟨_, -, hadd⟩ := RegistrationCall.addType_of_construct hrun
  exact (RegistrationCall.registers_of_addType hadd).1.not_resolves .type hresolves

/-- The members that were registered on a type, in the order of their registration. -/
def registeredMembers (t : SymbolTable) (type : Token) : List Token :=
  ((t.type? type).map (·.members)).getD []

/-- What was registered on a type is in its own record. -/
private theorem registeredMembers_of_type? (hget : t.type? place = some symbol) :
    t.registeredMembers place = symbol.members := by
  rw [registeredMembers, hget, Option.map_some, Option.getD_some]

/-- The members that were registered on a type are the symbols that name it as their home. -/
theorem mem_registeredMembers_iff (h : t.Reachable) (member : Token) :
    member ∈ t.registeredMembers place ↔ t.view Symbol.home member = some place := by
  have hintact := intact_of_reachable h
  cases hget : t.type? place with
  | some symbol =>
    rw [registeredMembers_of_type? hget]
    exact hintact.mem_entries_iff .members (view_of_get? hget) member
  | none =>
    -- A home always resolves, so nothing has its home at a place that does not.
    rw [registeredMembers, hget]
    refine iff_of_false List.not_mem_nil fun hhome => ?_
    have hholder : t.view Listing.members.holder member = some place := hhome
    have hresolves : t.resolves .type place := hintact.resolves_holder hholder
    simp [resolves, show t.get? .type place = none from hget] at hresolves

/-- What is registered on two types at once is nothing. -/
private theorem eq_of_mem_registeredMembers (h : t.Reachable) {other member : Token}
    (hplace : member ∈ t.registeredMembers place)
    (hother : member ∈ t.registeredMembers other) : place = other := by
  rw [mem_registeredMembers_iff h] at hplace hother
  exact Option.some.inj (hplace.symm.trans hother)

/-- A type with members of its own has these and no others. -/
private theorem members_of_registeredMembers_ne_nil (h : t.registeredMembers place ≠ []) :
    t.members place = t.registeredMembers place := by
  cases hget : t.type? place with
  | none =>
    rw [registeredMembers, hget] at h
    exact absurd rfl h
  | some symbol =>
    rw [registeredMembers_of_type? hget] at h ⊢
    exact members_of_lists (.own hget (.inr h))

/-- The members of a type were registered on it or on its definition. -/
private theorem mem_members_cases (hget : t.type? place = some symbol) {member : Token}
    (hmember : member ∈ t.members place) :
    member ∈ t.registeredMembers place ∨
      ∃ definition ∈ symbol.definition, member ∈ t.registeredMembers definition := by
  have hlists := lists_of_members_ne_nil (List.ne_nil_of_mem hmember)
  -- The list of members is the type's own one, or the one of its definition.
  generalize t.members place = listed at hmember hlists
  cases hlists with
  | own hfound _ => exact .inl (by rwa [registeredMembers_of_type? hfound])
  | shared hfound hdefinition _ hgeneric =>
    obtain rfl := Option.some.inj (hget.symm.trans hfound)
    exact .inr ⟨_, hdefinition, by rwa [registeredMembers_of_type? hgeneric]⟩

/-- Whatever is registered after a type was constructed from another, it has the members that were
    registered on it, and if there are none, the members that were registered on its definition.  So
    it has all members of its definition only if the definition has none, or if no member was
    registered on the constructed type but some were on its definition, which may be a constructed
    type itself. -/
theorem members_constructed (hreachable : t.Reachable)
    (hrun : construct definition typeArguments t = .ok type after)
    (hlater : Later (fun _ => True) after later) :
    (∀ place member, member ∈ later.registeredMembers place ↔
      later.view Symbol.home member = some place) ∧
    later.members type = (if later.registeredMembers type = [] then
      later.registeredMembers definition else later.registeredMembers type) ∧
    ((∀ member ∈ later.members definition, member ∈ later.members type) ↔
      later.members definition = [] ∨
        later.registeredMembers type = [] ∧ later.registeredMembers definition ≠ []) := by
  have hfinal : later.Reachable := hlater.reachable (hreachable.construct hrun)
  obtain ⟨generic, hgeneric, hdefinition, htype⟩ := type?_of_construct hrun
  -- Both types stay as they are later on, except for members that are registered on them.
  obtain ⟨more, hdefinition, -⟩ := hlater.type? hdefinition
  obtain ⟨own, htype, -⟩ := hlater.type? htype
  have hmembers : later.members type = if later.registeredMembers type = [] then
      later.registeredMembers definition else later.registeredMembers type := by
    split
    · next hnone =>
      rw [registeredMembers_of_type? htype] at hnone
      rw [registeredMembers_of_type? hdefinition]
      exact members_of_lists (.shared htype rfl hnone hdefinition)
    · next hsome => exact members_of_registeredMembers_ne_nil hsome
  refine ⟨fun place member => mem_registeredMembers_iff hfinal member, hmembers, ?_⟩
  constructor
  · -- Take any member of the definition; it is a member of the constructed type.
    intro hshared
    refine or_iff_not_imp_left.2 fun hne => ?_
    obtain ⟨member, hmember⟩ := List.exists_mem_of_ne_nil _ hne
    have hfound := hshared member hmember
    rw [hmembers] at hfound
    split at hfound
    · next hnone => exact ⟨hnone, List.ne_nil_of_mem hfound⟩
    · -- A member of the definition was registered on an older type than the constructed one.
      exfalso
      rcases mem_members_cases hdefinition hmember with hown | ⟨origin, horigin, hown⟩
      · exact ne_of_construct hrun (resolves_of_get? hgeneric)
          (eq_of_mem_registeredMembers hfinal hown hfound)
      · have hresolves : t.resolves .type origin :=
          (intact_of_reachable hreachable).links_resolve hgeneric (.type, origin)
            (by simp [Symbol.links, show generic.definition = some origin from horigin])
        exact ne_of_construct hrun hresolves (eq_of_mem_registeredMembers hfinal hown hfound)
  · rintro (hnone | ⟨hnone, hsome⟩)
    · simp [hnone]
    · rw [hmembers, if_pos hnone, members_of_registeredMembers_ne_nil hsome]
      exact fun member hmember => hmember

/-- A generic list with a method. -/
def listTable : SymbolTable := RegistrationCall.runAll
  [.addType { name := "List`1", namespaceName := "App", kind := .classType },
   .addMethod { name := "Add", containingType := some (.ofParts .type 1) }] {}

/-- The table with a type that is constructed from the list. -/
def listsTable : SymbolTable :=
  RegistrationCall.runAll [.construct (.ofParts .type 1) []] listTable

/-- The table of the list is reachable. -/
private theorem listTable_reachable : listTable.Reachable :=
  Reachable.empty.runAll (by simp [RegistrationCall.IsFresh])

/-- Construction from the list succeeds. -/
private theorem construct_listTable :
    construct (.ofParts .type 1) [] listTable = .ok (.ofParts .type 2) listsTable := rfl

/-- The table after one more method is registered on one of the two types. -/
def sortedTable (type : Token) : SymbolTable := RegistrationCall.runAll
  [.addMethod { name := "Sort", containingType := some type }] listsTable

/-- The registration of one more method is a later call. -/
private theorem later_sortedTable (type : Token) :
    Later (fun _ => True) listsTable (sortedTable type) :=
  Later.refl.runAll (by simp [RegistrationCall.IsFresh])

/-- A method that is registered on the list later is a member of the constructed type as well. -/
theorem members_sortedTable :
    listTable.Reachable ∧
    construct (.ofParts .type 1) [] listTable = .ok (.ofParts .type 2) listsTable ∧
    Later (fun _ => True) listsTable (sortedTable (.ofParts .type 1)) ∧
    (sortedTable (.ofParts .type 1)).members (.ofParts .type 2) =
      [.ofParts .method 1, .ofParts .method 2] ∧
    ∀ member ∈ (sortedTable (.ofParts .type 1)).members (.ofParts .type 1),
      member ∈ (sortedTable (.ofParts .type 1)).members (.ofParts .type 2) := by
  have hlater := later_sortedTable (.ofParts .type 1)
  obtain ⟨-, hmembers, hshared⟩ :=
    members_constructed listTable_reachable construct_listTable hlater
  refine ⟨listTable_reachable, construct_listTable, hlater, hmembers.trans (by decide +kernel), ?_⟩
  exact hshared.2 (.inr ⟨by decide +kernel, by decide +kernel⟩)

/-- The table with a type that is constructed from the constructed type. -/
def nestedTable : SymbolTable :=
  RegistrationCall.runAll [.construct (.ofParts .type 2) []] listsTable

/-- The list's method is not a member of the constructed type any more once that has a method of its
    own, and it never is a member of a type that is constructed from the constructed one. -/
theorem members_not_shared :
    listTable.Reachable ∧
    construct (.ofParts .type 1) [] listTable = .ok (.ofParts .type 2) listsTable ∧
    .ofParts .method 1 ∈ listsTable.members (.ofParts .type 2) ∧
    Later (fun _ => True) listsTable (sortedTable (.ofParts .type 2)) ∧
    .ofParts .method 1 ∈ (sortedTable (.ofParts .type 2)).members (.ofParts .type 1) ∧
    .ofParts .method 1 ∉ (sortedTable (.ofParts .type 2)).members (.ofParts .type 2) ∧
    construct (.ofParts .type 2) [] listsTable = .ok (.ofParts .type 3) nestedTable ∧
    .ofParts .method 1 ∈ nestedTable.members (.ofParts .type 2) ∧
    .ofParts .method 1 ∉ nestedTable.members (.ofParts .type 3) :=
  ⟨listTable_reachable, construct_listTable, by decide +kernel, later_sortedTable _,
    by decide +kernel, by decide +kernel, rfl, by decide +kernel, by decide +kernel⟩

end SymbolTable

end DefensiveCopy
