import DefensiveCopy.Proofs.ContainmentWalk
import DefensiveCopy.Proofs.TableInvariant

/-!
# Which code counts as generated

Findings are kept back inside generated code.  In a table that registration leads to, the search for
the marker is exact: it ends, and it finds the marker exactly if a symbol on the way from container
to container carries it, or the property or event that a method or field on this way belongs to.

The way is described by `SymbolTable.DeclaredIn`, one rule for each link that it follows, and the
marker by its full name (`SymbolTable.IsGeneratedMarker`); neither mentions the search.  What a
method or field belongs to is a property or an event because registration links methods to nothing
else, not even when it fails (`SymbolTable.belongs_of_reachable`).

## Key results

- `SymbolTable.declaredIn_iff`: the search goes from a symbol to the one that it is declared in
- `SymbolTable.hasAttribute_iff`: a symbol carries the marker
- `SymbolTable.generatedFrom_eq_some_true_iff`: a walk that ends finds what there is on its way
- `SymbolTable.generated_iff_of_reachable`: the search is exact
-/

namespace DefensiveCopy

/-- A well-known type is recognised by its full name and by no other. -/
private theorem WellKnownType.ofFullName?_eq_some_iff {fullName : String}
    {wellKnown : WellKnownType} :
    ofFullName? fullName = some wellKnown ↔ fullName = wellKnown.fullName := by
  constructor
  · intro h
    exact (beq_iff_eq.1 (List.find?_some h :)).symm
  · rintro rfl
    exact ofFullName?_fullName wellKnown

namespace SymbolTable

variable {t : SymbolTable} {token container : Token}

/-! ## The way from container to container -/

/-- The symbol is declared in the container. -/
inductive DeclaredIn (t : SymbolTable) : Token → Token → Prop where
  /-- A lambda or local function is declared in a method. -/
  | methodInMethod {method container : Token} {symbol : MethodSymbol}
    (hget : t.method? method = some symbol)
    (hcontainer : symbol.containingMethod = some container) : DeclaredIn t method container
  | methodInType {method container : Token} {symbol : MethodSymbol}
    (hget : t.method? method = some symbol) (hno : symbol.containingMethod = none)
    (hcontainer : symbol.containingType = some container) : DeclaredIn t method container
  | field {field container : Token} {symbol : FieldSymbol} (hget : t.field? field = some symbol)
    (hcontainer : symbol.containingType = some container) : DeclaredIn t field container
  | property {property container : Token} {symbol : PropertySymbol}
    (hget : t.property? property = some symbol)
    (hcontainer : symbol.containingType = some container) : DeclaredIn t property container
  | event {event container : Token} {symbol : EventSymbol} (hget : t.event? event = some symbol)
    (hcontainer : symbol.containingType = some container) : DeclaredIn t event container
  /-- A nested type is declared in a type. -/
  | typeInType {type container : Token} {symbol : TypeSymbol} (hget : t.type? type = some symbol)
    (hcontainer : symbol.containingType = some container) : DeclaredIn t type container
  | typeInModule {type container : Token} {symbol : TypeSymbol} (hget : t.type? type = some symbol)
    (hno : symbol.containingType = none) (hcontainer : symbol.module = some container) :
    DeclaredIn t type container
  | module {module container : Token} {symbol : ModuleSymbol}
    (hget : t.module? module = some symbol) (hcontainer : symbol.assembly = some container) :
    DeclaredIn t module container

/-- The search goes from a symbol to the one that it is declared in. -/
theorem declaredIn_iff : t.DeclaredIn token container ↔ t.container? token = some container := by
  rw [container?_eq_view]
  constructor
  · intro h
    cases h with
    | methodInMethod hget hcontainer | typeInType hget hcontainer =>
      exact (view_of_get? hget).trans (Option.or_eq_some_iff.2 (.inl hcontainer))
    | methodInType hget hno hcontainer | typeInModule hget hno hcontainer =>
      exact (view_of_get? hget).trans (Option.or_eq_some_iff.2 (.inr ⟨hno, hcontainer⟩))
    | field hget hcontainer | property hget hcontainer | event hget hcontainer
    | module hget hcontainer => exact (view_of_get? hget).trans hcontainer
  · intro h
    -- Methods and types have two places to be declared in, and the inner one counts.
    obtain ⟨kind, symbol, hget, hcontainer⟩ := view_eq_some_iff.1 h
    cases kind with
    | method =>
      rcases Option.or_eq_some_iff.1 hcontainer with hmethod | ⟨hno, htype⟩
      · exact .methodInMethod hget hmethod
      · exact .methodInType hget hno htype
    | type =>
      rcases Option.or_eq_some_iff.1 hcontainer with htype | ⟨hno, hmodule⟩
      · exact .typeInType hget htype
      · exact .typeInModule hget hno hmodule
    | field => exact .field hget hcontainer
    | property => exact .property hget hcontainer
    | event => exact .event hget hcontainer
    | module => exact .module hget hcontainer
    | parameter | slot | assembly => cases hcontainer

/-! ## The marker -/

/-- The type is the marker of generated code, or is constructed from it. -/
def IsGeneratedMarker (t : SymbolTable) (type : Token) : Prop :=
  ∃ symbol, t.type? (t.definitionOf type) = some symbol ∧ symbol.kind ≠ .typeParameter ∧
    symbol.containingType = none ∧
      symbol.fullName = "System.Runtime.CompilerServices.CompilerGeneratedAttribute"

/-- The symbol carries the marker of generated code. -/
def CarriesMarker (t : SymbolTable) (token : Token) : Prop :=
  ∃ (kind : SymbolKind) (symbol : Symbol kind), t.get? kind token = some symbol ∧
    ∃ type ∈ symbol.attributes, t.IsGeneratedMarker type

/-- The symbol is marked as generated: it carries the marker, or the property or event that it
    belongs to does. -/
inductive IsMarked (t : SymbolTable) : Token → Prop where
  | itself {token : Token} (hmarker : t.CarriesMarker token) : IsMarked t token
  /-- An accessor, or another method that belongs to a property or event. -/
  | method {method owner : Token} {symbol : MethodSymbol} (hget : t.method? method = some symbol)
    (howner : symbol.associated = some owner)
    (hkind : t.resolves .property owner ∨ t.resolves .event owner)
    (hmarker : t.CarriesMarker owner) : IsMarked t method
  /-- A field that stores a property or event. -/
  | field {field owner : Token} {symbol : FieldSymbol} (hget : t.field? field = some symbol)
    (howner : symbol.associated = some owner)
    (hkind : t.resolves .property owner ∨ t.resolves .event owner)
    (hmarker : t.CarriesMarker owner) : IsMarked t field

/-- A type is well known by the full name of its definition, if that is neither nested nor a type
    parameter. -/
private theorem wellKnown?_eq_some_iff {type : Token} {wellKnown : WellKnownType} :
    t.wellKnown? type = some wellKnown ↔
      ∃ symbol, t.type? (t.definitionOf type) = some symbol ∧ symbol.kind ≠ .typeParameter ∧
        symbol.containingType = none ∧ symbol.fullName = wellKnown.fullName := by
  rw [wellKnown?, Option.bind_eq_some_iff]
  refine exists_congr fun symbol => and_congr_right fun _ => ?_
  by_cases hkind : symbol.kind = .typeParameter
  · simp [hkind]
  · cases hcontainer : symbol.containingType with
    | none => simp [hkind, WellKnownType.ofFullName?_eq_some_iff]
    | some container => simp

/-- The attributes of a token are those of the symbol that it resolves to. -/
private theorem mem_attributesOf_iff {type : Token} :
    type ∈ t.attributesOf token ↔
      ∃ (kind : SymbolKind) (symbol : Symbol kind), t.get? kind token = some symbol ∧
        type ∈ symbol.attributes := by
  constructor
  · intro h
    unfold attributesOf at h
    cases hfound : token.kind?.bind fun kind => (t.get? kind token).map Symbol.attributes with
    | none => simp [hfound] at h
    | some attributes =>
      rw [hfound, Option.getD_some] at h
      obtain ⟨kind, -, hattributes⟩ := Option.bind_eq_some_iff.1 hfound
      obtain ⟨symbol, hget, rfl⟩ := Option.map_eq_some_iff.1 hattributes
      exact ⟨kind, symbol, hget, h⟩
  · rintro ⟨kind, symbol, hget, hmem⟩
    -- The kind of the token says in which arena to look, and it is the one it resolves in.
    rw [attributesOf, kind?_of_resolves (resolves_of_get? hget), Option.bind_some, hget,
      Option.map_some, Option.getD_some]
    exact hmem

/-- The search recognises the marker on a symbol. -/
theorem hasAttribute_iff : t.hasAttribute token .compilerGenerated ↔ t.CarriesMarker token := by
  simp only [hasAttribute, List.any_eq_true, mem_attributesOf_iff, beq_iff_eq,
    wellKnown?_eq_some_iff]
  constructor
  · rintro ⟨type, ⟨kind, symbol, hget, hmem⟩, hmarker⟩
    exact ⟨kind, symbol, hget, type, hmem, hmarker⟩
  · rintro ⟨kind, symbol, hget, type, hmem, hmarker⟩
    exact ⟨type, ⟨kind, symbol, hget, hmem⟩, hmarker⟩

/-! ## What methods and fields belong to -/

/-- Methods belong to properties and events only. -/
def MethodsBelong (t : SymbolTable) : Prop :=
  ∀ (method owner : Token) (symbol : MethodSymbol), t.method? method = some symbol →
    symbol.associated = some owner → owner.kind? = some .property ∨ owner.kind? = some .event

/-- Only properties and events have accessors. -/
private theorem accessors_of_kind {kind : SymbolKind} {symbol : Symbol kind} {accessor : Token}
    (h : accessor ∈ symbol.accessors kind) : kind = .property ∨ kind = .event := by
  cases kind <;> simp [Symbol.accessors] at h ⊢

/-- Linking a method among others to a token leaves it with that token or with what it had. -/
private theorem MethodsBelong.of_linked (ht : t.MethodsBelong) {accessors : List Token}
    {method owner : Token} {old : MethodSymbol} (hold : t.method? method = some old)
    (hkind : method ∈ accessors → token.kind? = some .property ∨ token.kind? = some .event)
    (howner : (if method ∈ accessors then some token else old.associated) = some owner) :
    owner.kind? = some .property ∨ owner.kind? = some .event := by
  split at howner
  · next hmem =>
    cases howner
    exact hkind hmem
  · exact ht method owner old hold howner

/-- Registering a fresh symbol links its accessors to it, and these make it a property or an event.
    -/
private theorem MethodsBelong.registered {kind : SymbolKind} {symbol : Symbol kind}
    (ht : t.MethodsBelong)
    (hregisters : t.Registers kind symbol token) (hfresh : symbol.IsFresh kind) :
    (t.registered kind symbol token).MethodsBelong := by
  intro method owner found hfound howner
  rcases get?_registered_cases hregisters.token_eq hfound with
    ⟨-, heq, hsymbol⟩ | ⟨old, -, hold, heq⟩
  · -- A new method belongs to nothing yet.
    subst heq
    subst hsymbol
    cases hfresh.2.symm.trans howner
  · subst heq
    refine ht.of_linked hold (fun hmem => ?_) howner
    rw [hregisters.kind?_eq]
    exact (accessors_of_kind hmem).imp (congrArg some) (congrArg some)

/-- Accessors that are linked to a token that was never handed out are linked to one of these kinds
    too. -/
private theorem MethodsBelong.linked {kind : SymbolKind} {accessors : List Token}
    (ht : t.MethodsBelong)
    (hkind : kind = .property ∨ kind = .event)
    (htoken : tokenAfter? kind (t.count kind) = some token) :
    (t.linked accessors token).MethodsBelong := by
  intro method owner found hfound howner
  obtain ⟨old, hold, rfl⟩ := Option.map_eq_some_iff.1 (get?_linked_method.symm.trans hfound)
  refine ht.of_linked hold (fun _ => ?_) howner
  rw [kind?_of_tokenAfter? htoken]
  exact hkind.imp (congrArg some) (congrArg some)

/-- Registration links methods to properties and events only. -/
private theorem methodsBelong_kept : KeptByRegistration MethodsBelong where
  registered ht hregisters hfresh _ := ht.registered hregisters hfresh
  linked := MethodsBelong.linked
  modifyType {t type _ f} ht _ _ _ := by
    -- Completing a type touches no method.
    intro method owner found hfound howner
    have hsame : (t.modify .type type f).get? .method method = t.get? .method method :=
      get?_modify_other _ _ _ (by decide) _
    exact ht method owner found (hsame.symm.trans hfound) howner

/-- What a symbol belongs to is stored with the methods and the fields. -/
private theorem associated?_eq_some_iff {owner : Token} :
    t.associated? token = some owner ↔
      (∃ method, t.method? token = some method ∧ method.associated = some owner) ∨
        ∃ field, t.field? token = some field ∧ field.associated = some owner := by
  constructor
  · intro h
    unfold associated? at h
    split at h
    · exact .inl (Option.bind_eq_some_iff.1 h)
    · exact .inr (Option.bind_eq_some_iff.1 h)
    · cases h
  · rintro (⟨method, hget, howner⟩ | ⟨field, hget, howner⟩)
    · -- The token is of the kind that it resolves as.
      have hkind := kind?_of_resolves (resolves_of_get? hget)
      simp [associated?, hkind, hget, howner]
    · have hkind := kind?_of_resolves (resolves_of_get? hget)
      simp [associated?, hkind, hget, howner]

/-- In a table that registration leads to, what a method or field belongs to is a property or an
    event, if it is there. -/
theorem belongs_of_reachable (h : t.Reachable) {owner : Token}
    (howner : t.associated? token = some owner) (hmarker : t.CarriesMarker owner) :
    t.resolves .property owner ∨ t.resolves .event owner := by
  rcases associated?_eq_some_iff.1 howner with ⟨method, hmethod, howner⟩ | ⟨field, hfield, howner⟩
  · -- Methods belong to properties and events along every sequence of calls.
    have hempty : MethodsBelong {} := by
      intro method owner symbol hmethod
      cases (get?_empty .method method).symm.trans hmethod
    have hbelongs := methodsBelong_kept.of_reachable hempty h token owner method hmethod howner
    obtain ⟨kind, symbol, hget, -⟩ := hmarker
    have hresolves := resolves_of_get? hget
    rw [kind?_of_resolves hresolves, Option.some.injEq, Option.some.injEq] at hbelongs
    rcases hbelongs with rfl | rfl
    · exact .inl hresolves
    · exact .inr hresolves
  · -- The call that registers a field asks for what the field belongs to.
    have hlink := (intact_of_reachable h).links_resolve hfield (associatedKind owner, owner)
      (by simp [Symbol.links, howner])
    unfold associatedKind at hlink
    split at hlink
    · exact .inr hlink
    · exact .inl hlink

/-- The search stops at the symbols that are marked. -/
private theorem isMarkedGenerated_iff (h : t.Reachable) :
    t.isMarkedGenerated token ↔ t.IsMarked token := by
  rw [isMarkedGenerated, Bool.or_eq_true, Option.any_eq_true, hasAttribute_iff]
  simp only [hasAttribute_iff]
  constructor
  · rintro (hmarker | ⟨owner, howner, hmarker⟩)
    · exact .itself hmarker
    · -- Registration associates methods and fields with properties and events only.
      have hkind := belongs_of_reachable h howner hmarker
      rcases associated?_eq_some_iff.1 howner with
        ⟨method, hmethod, howner⟩ | ⟨field, hfield, howner⟩
      · exact .method hmethod howner hkind hmarker
      · exact .field hfield howner hkind hmarker
  · intro hmarked
    cases hmarked with
    | itself hmarker => exact .inl hmarker
    | method hget howner _ hmarker =>
      exact .inr ⟨_, associated?_eq_some_iff.2 (.inl ⟨_, hget, howner⟩), hmarker⟩
    | field hget howner _ hmarker =>
      exact .inr ⟨_, associated?_eq_some_iff.2 (.inr ⟨_, hget, howner⟩), hmarker⟩

/-! ## The walk -/

/-- A walk that ends finds a mark exactly if there is one on its way. -/
theorem generatedFrom_eq_some_true_iff {fuel : Nat} {answer : Bool}
    (h : t.generatedFrom fuel token = some answer) :
    answer = true ↔ ∃ symbol, Relation.ReflTransGen t.DeclaredIn token symbol ∧
      t.isMarkedGenerated symbol := by
  induction fuel generalizing token with
  | zero => cases h
  | succ fuel ih =>
    rw [generatedFrom] at h
    by_cases hmarked : t.isMarkedGenerated token
    · -- The walk stops here, and so does the empty way.
      rw [if_pos hmarked, Option.some.injEq] at h
      exact iff_of_true h.symm ⟨token, .refl, hmarked⟩
    · rw [if_neg hmarked] at h
      -- The mark is not here, so the way to it begins with the step to the container.
      have hsplit : (∃ symbol, Relation.ReflTransGen t.DeclaredIn token symbol ∧
            t.isMarkedGenerated symbol) ↔
          ∃ container, t.container? token = some container ∧
            ∃ symbol, Relation.ReflTransGen t.DeclaredIn container symbol ∧
              t.isMarkedGenerated symbol := by
        constructor
        · rintro ⟨symbol, hway, hsymbol⟩
          rcases hway.cases_head with rfl | ⟨container, hstep, hway⟩
          · exact absurd hsymbol hmarked
          · exact ⟨container, declaredIn_iff.1 hstep, symbol, hway, hsymbol⟩
        · rintro ⟨container, hcontainer, symbol, hway, hsymbol⟩
          exact ⟨symbol, .head (declaredIn_iff.2 hcontainer) hway, hsymbol⟩
      rw [hsplit]
      cases hcontainer : t.container? token with
      -- The walk ends without a mark, and there is no way on.
      | none =>
        rw [hcontainer, Option.some.injEq] at h
        simp [← h]
      | some container =>
        rw [hcontainer] at h
        simpa using ih h

/-- In a table that registration leads to, no way from container to container is endless, and the
    search for generated code that is not called off always answers.  Its answer is positive exactly
    if a symbol on the way from the start is marked: it carries the marker, or the property or event
    that it belongs to does.  Without a start there is no such symbol. -/
theorem generated_iff_of_reachable (h : t.Reachable) (start : Option Token) :
    (WellFounded fun container symbol => t.DeclaredIn symbol container) ∧
    ∃ answer, t.generated .live start = .ok answer ∧
      (answer = true ↔ ∃ token ∈ start, ∃ symbol,
        Relation.ReflTransGen t.DeclaredIn token symbol ∧ t.IsMarked symbol) := by
  have hintact := intact_of_reachable h
  constructor
  · simpa only [declaredIn_iff, container?_eq_view] using hintact.wellFounded_container
  · obtain ⟨answer, hanswer⟩ := hintact.exists_generated start
    refine ⟨answer, hanswer, ?_⟩
    cases start with
    | none =>
      obtain rfl : false = answer := Except.ok.inj hanswer
      simp
    | some token =>
      -- The walk that answered meets a marked symbol exactly if there is one on the way.
      have hwalk := generatedFrom_eq_some_true_iff (generated_some_eq_ok_iff.1 hanswer)
      simpa only [isMarkedGenerated_iff h, Option.mem_some_iff, exists_eq_left'] using hwalk

/-- The calls that register a nested type with a generated property, a local function of its getter
    and a method of its own. -/
def lensCalls : List RegistrationCall :=
  [.addAssembly { name := "Optics" },
   .addModule { name := "Optics.dll", assembly := some (.ofParts .assembly 1) },
   .addType { name := "CompilerGeneratedAttribute",
              namespaceName := "System.Runtime.CompilerServices", kind := .classType },
   .addType { name := "Camera", kind := .classType, module := some (.ofParts .module 1) },
   .addType { name := "Lens", kind := .structType, containingType := some (.ofParts .type 2) },
   .addMethod { name := "get_Aperture", kind := .propertyGet,
                containingType := some (.ofParts .type 3) },
   .addProperty { name := "Aperture", getter := some (.ofParts .method 1),
                  containingType := some (.ofParts .type 3),
                  attributes := [.ofParts .type 1] },
   .addMethod { name := "Compute", kind := .localFunction,
                containingMethod := some (.ofParts .method 1),
                containingType := some (.ofParts .type 3) },
   .addMethod { name := "Focus", containingType := some (.ofParts .type 3) }]

/-- The symbols of the example. -/
def lensTable : SymbolTable := RegistrationCall.runAll lensCalls {}

/-- The local function is generated because the property of the getter around it is, and the method
    beside the getter is not. -/
theorem generated_lensTable :
    lensTable.Reachable ∧ lensTable.generated .live (some (.ofParts .method 2)) = .ok true ∧
      lensTable.generated .live (some (.ofParts .method 3)) = .ok false := by
  have hfresh : ∀ call ∈ lensCalls, call.IsFresh := by simp [lensCalls, RegistrationCall.IsFresh]
  have hreachable : lensTable.Reachable := Reachable.empty.runAll hfresh
  obtain ⟨-, answer, hanswer, hiff⟩ :=
    generated_iff_of_reachable hreachable (some (.ofParts .method 2))
  -- The local function is declared in the accessor, whose property carries the marker.
  have hstep : lensTable.DeclaredIn (.ofParts .method 2) (.ofParts .method 1) :=
    .methodInMethod rfl rfl
  have hmarker : lensTable.CarriesMarker (.ofParts .property 1) :=
    ⟨.property, _, rfl, .ofParts .type 1, by decide, _, rfl, by decide, rfl, by decide⟩
  have hmarked : lensTable.IsMarked (.ofParts .method 1) := .method rfl rfl (.inl rfl) hmarker
  obtain rfl : answer = true := hiff.2 ⟨_, rfl, _, .single hstep, hmarked⟩
  exact ⟨hreachable, hanswer, by decide⟩

end SymbolTable

end DefensiveCopy
