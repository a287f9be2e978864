import DefensiveCopy.Proofs.RegistrationCall
import Mathlib.Tactic.ByContra
import Mathlib.Tactic.Push

/-!
# Failed registrations

Most calls look up everything they name before they change the table, or change it for the first
time in their last step that can fail.  When such a call fails, the table is as it was.

Registering a property or an event is different.  The accessors are linked to the new token before
the containing type is looked up.  When the containing type does not resolve, the call fails with
the accessors linked to a token that was never handed out, and that the next property or event will
get.

## Key results

- `RegistrationCall.registerAccessed_changes_iff`: when a property or event leaves a trace
- `RegistrationCall.failsClean_of_linksFirst`: all other calls fail without a trace
- `RegistrationCall.eq_or_linked_of_error`: all that a failed call can have done
- `RegistrationCall.fails_with_change_iff`: when a call fails and leaves the table changed
-/

namespace DefensiveCopy

namespace SymbolTable

variable {t : SymbolTable} {kind : SymbolKind}

/-! ## Edits that change nothing -/

/-- Putting an arena back in its place changes nothing. -/
private theorem setArena_arena (t : SymbolTable) (kind : SymbolKind) :
    t.setArena kind (t.arena kind) = t := by
  cases kind <;> rfl

/-- An edit that keeps the symbol it is about changes nothing. -/
theorem modify_eq_self {token : Token} {f : Symbol kind → Symbol kind}
    (h : ∀ symbol, t.get? kind token = some symbol → f symbol = symbol) :
    t.modify kind token f = t := by
  unfold modify
  split
  · next i hindex =>
    -- The edited record is the one that the token addresses, and that one stays.
    have hsame : (t.arena kind).modify i f = t.arena kind := by
      apply Array.ext_getElem?
      intro j
      rw [Array.getElem?_modify]
      split
      · next hij =>
        subst hij
        cases hget : (t.arena kind)[i]? with
        | none => rfl
        | some symbol => rw [Option.map_some, h symbol (by simp [get?, hindex, hget])]
      · rfl
    rw [hsame, setArena_arena]
  · rfl

/-- Linking accessors that are linked already changes nothing. -/
private theorem linked_eq_self {accessors : List Token} {owner : Token}
    (h : ∀ accessor ∈ accessors, ∀ method, t.method? accessor = some method →
      method.associated = some owner) : t.linked accessors owner = t := by
  unfold linked
  induction accessors with
  | nil => rfl
  | cons accessor rest ih =>
    -- The first link is there already, so the table is the same when the others are made.
    have hself : t.modify .method accessor
        (fun (symbol : MethodSymbol) => { symbol with associated := some owner }) = t := by
      apply modify_eq_self
      intro method hmethod
      rw [← h accessor List.mem_cons_self method hmethod]
    rw [List.foldl_cons, hself]
    exact ih fun token hmem => h token (List.mem_cons_of_mem _ hmem)

/-- Linking an accessor that is linked elsewhere, or not at all, changes the table. -/
private theorem linked_ne_self {accessors : List Token} {owner accessor : Token}
    {method : MethodSymbol}
    (hmem : accessor ∈ accessors) (hmethod : t.method? accessor = some method)
    (hne : method.associated ≠ some owner) : t.linked accessors owner ≠ t := by
  intro hself
  have hget : t.get? .method accessor = some method := hmethod
  have hlinked : (t.linked accessors owner).get? .method accessor = _ := get?_linked_method
  -- If nothing had changed, the accessor would belong to the owner already.
  rw [hself, hget, Option.map_some, if_pos hmem] at hlinked
  exact hne (congrArg MethodSymbol.associated (Option.some.inj hlinked))

/-- Registering a property or event with these parts gets as far as linking the accessors and fails
    then: everything it names resolves except its containing type.  The token it would have got is
    new to one of the accessors. -/
def LinksEarly (t : SymbolTable) (kind : SymbolKind) (type : Option Token)
    (accessors : List Token) (containingType : Option Token) : Prop :=
  (∀ token ∈ type, t.resolves .type token) ∧
    (∀ token ∈ accessors, t.resolves .method token) ∧
    (∃ token ∈ containingType, ¬t.resolves .type token) ∧
    ∃ fresh, tokenAfter? kind (t.count kind) = some fresh ∧
      ∃ token ∈ accessors, ∃ method, t.method? token = some method ∧
        method.associated ≠ some fresh

end SymbolTable

namespace RegistrationCall

open SymbolTable

/-! ## Properties and events -/

section

variable {t after : SymbolTable} {error : SymbolError} {type containingType : Option Token}
  {accessors : List Token}

/-- A property or event that fails leaves the table as it was, or fails at its containing type with
    its accessors linked. -/
private theorem registerAccessed_eq_error (kind : SymbolKind) (symbol : Symbol kind)
    (h : registerAccessed kind type accessors containingType symbol t = .error error after) :
    after = t ∨ ∃ fresh, tokenAfter? kind (t.count kind) = some fresh ∧
      (∀ token ∈ type, t.resolves .type token) ∧ (∀ token ∈ accessors, t.resolves .method token) ∧
        (∃ token ∈ containingType, ¬t.resolves .type token) ∧ after = t.linked accessors fresh := by
  unfold registerAccessed at h
  -- Up to the links, a failure is a failed lookup, and what succeeds leaves the table alone.
  rcases bind_eq_error.1 h with h | ⟨_, between, hstep, h⟩
  · exact .inl ((looksUp_requireAll _ _ t).2 error after h)
  obtain ⟨htype, hsame⟩ := requireAll_eq_ok.1 hstep
  subst between
  rcases bind_eq_error.1 h with h | ⟨fresh, between, hstep, h⟩
  · exact .inl ((looksUp_nextToken _ t).2 error after h)
  obtain ⟨hfresh, hsame⟩ := nextToken_eq_ok.1 hstep
  subst between
  rcases bind_eq_error.1 h with h | ⟨_, between, hstep, h⟩
  · exact .inl ((looksUp_requireAll _ _ t).2 error after h)
  obtain ⟨haccessors, hsame⟩ := requireAll_eq_ok.1 hstep
  subst between
  rcases bind_eq_error.1 h with h | ⟨u, between, hstep, h⟩
  · -- All accessors resolve, so linking them succeeds.
    have hlinked : linkAccessors accessors fresh t = .ok () (t.linked accessors fresh) :=
      linkAccessors_eq_ok.2 ⟨haccessors, rfl⟩
    rw [hlinked] at h
    cases h
  obtain ⟨-, hlinked⟩ := linkAccessors_eq_ok.1 hstep
  subst between
  rcases bind_eq_error.1 h with h | ⟨_, between, -, h⟩
  · refine .inr ⟨fresh, hfresh, by simpa using htype, haccessors, ?_,
      failsClean_joinType _ _ _ _ _ h⟩
    cases containingType with
    | none => cases h
    | some token =>
      -- If the containing type resolved, the step would have succeeded.
      refine ⟨token, rfl, fun htoken => ?_⟩
      have hjoin : joinType (some token) fresh (t.linked accessors fresh) =
          .ok () ((t.linked accessors fresh).joined (some token) fresh) :=
        joinType_eq_ok.2 ⟨by simpa [resolves_linked] using htoken, rfl⟩
      rw [hjoin] at h
      cases h
  · exact absurd h (total_store symbol fresh between error after)

/-- A property or event whose containing type alone does not resolve fails with its accessors
    linked. -/
private theorem registerAccessed_of_unresolved (kind : SymbolKind) (symbol : Symbol kind)
    {fresh token : Token} (htype : ∀ token ∈ type, t.resolves .type token)
    (hfresh : tokenAfter? kind (t.count kind) = some fresh)
    (haccessors : ∀ token ∈ accessors, t.resolves .method token)
    (htoken : ¬t.resolves .type token) :
    registerAccessed kind type accessors (some token) symbol t =
      .error (.unresolved token) (t.linked accessors fresh) := by
  have hrequire : require .type token (t.linked accessors fresh) =
      .error (.unresolved token) (t.linked accessors fresh) := by
    rw [require, resolves_linked, if_neg htoken]
  have hjoin : joinType (some token) fresh (t.linked accessors fresh) =
      .error (.unresolved token) (t.linked accessors fresh) :=
    bind_eq_error.2 (.inl hrequire)
  -- All steps but the last one succeed.
  refine bind_eq_error.2 (.inr ⟨(), t, requireAll_eq_ok.2 ⟨by simpa using htype, rfl⟩, ?_⟩)
  refine bind_eq_error.2 (.inr ⟨fresh, t, nextToken_eq_ok.2 ⟨hfresh, rfl⟩, ?_⟩)
  refine bind_eq_error.2 (.inr ⟨(), t, requireAll_eq_ok.2 ⟨haccessors, rfl⟩, ?_⟩)
  refine bind_eq_error.2 (.inr ⟨(), _, linkAccessors_eq_ok.2 ⟨haccessors, rfl⟩, ?_⟩)
  exact bind_eq_error.2 (.inl hjoin)

/-- Registering a property or event fails and leaves the table changed exactly when it links an
    accessor before it finds that its containing type does not resolve. -/
theorem registerAccessed_changes_iff (kind : SymbolKind) (symbol : Symbol kind) :
    (∃ error after, registerAccessed kind type accessors containingType symbol t =
      .error error after ∧ after ≠ t) ↔ t.LinksEarly kind type accessors containingType := by
  constructor
  · rintro ⟨error, after, h, hne⟩
    obtain rfl | ⟨fresh, hfresh, htype, haccessors, hcontaining, rfl⟩ :=
      registerAccessed_eq_error kind symbol h
    · exact absurd rfl hne
    · refine ⟨htype, haccessors, hcontaining, fresh, hfresh, ?_⟩
      -- If all accessors belonged to the fresh token already, linking them would change nothing.
      by_contra hlinked
      push Not at hlinked
      exact hne (linked_eq_self hlinked)
  · rintro ⟨htype, haccessors, ⟨token, hmem, htoken⟩, fresh, hfresh, accessor, haccessor, method,
      hmethod, hne⟩
    obtain rfl : containingType = some token := hmem
    exact ⟨.unresolved token, t.linked accessors fresh,
      registerAccessed_of_unresolved kind symbol htype hfresh haccessors htoken,
      linked_ne_self haccessor hmethod hne⟩

end

/-! ## The other calls -/

/-- A type is appended last, after all lookups. -/
private theorem failsClean_addType (type : TypeSymbol) : FailsClean (SymbolTable.addType type) :=
  (looksUp_requireAll _ _).bind fun _ => (looksUp_requireAll _ _).bind fun _ =>
    (looksUp_nextToken _).bind fun _ => (total_store _ _).failsClean

/-- A construction is a lookup of the definition, followed by a registration. -/
private theorem failsClean_construct (definition : Token) (typeArguments : List Token) :
    FailsClean (SymbolTable.construct definition typeArguments) := by
  refine (looksUp_requireAll _ _).bind fun _ => looksUp_get.bind fun t => ?_
  cases t.type? definition with
  | none => exact failsClean_throw _
  | some symbol => exact failsClean_addType _

/-- A method is appended last, and joining its type is the first change. -/
private theorem failsClean_addMethod (method : MethodSymbol) :
    FailsClean (SymbolTable.addMethod method) :=
  (looksUp_requireAll _ _).bind fun _ => (looksUp_requireAll _ _).bind fun _ =>
    (looksUp_requireAll _ _).bind fun _ => (looksUp_nextToken _).bind fun _ =>
      (failsClean_joinType _ _).bind fun _ => total_store _ _

/-- A parameter is appended last, and joining its method is the first change. -/
private theorem failsClean_addParameter (method : Token) (parameter : ParameterSymbol) :
    FailsClean (SymbolTable.addParameter method parameter) := by
  refine (looksUp_requireAll _ _).bind fun _ => (looksUp_nextToken _).bind fun _ =>
    looksUp_get.bind fun t => ?_
  cases t.method? method with
  | none => exact failsClean_throw _
  | some owner =>
    exact (looksUp_requireOrdinal _ _).bind fun _ => (failsClean_edit _ _ _).bind fun _ =>
      total_store _ _

/-- A field is appended last, and joining its type is the first change. -/
private theorem failsClean_addField (field : FieldSymbol) :
    FailsClean (SymbolTable.addField field) :=
  (looksUp_requireAll _ _).bind fun _ => (looksUp_forM looksUp_requireAssociated _).bind fun _ =>
    (looksUp_nextToken _).bind fun _ => (failsClean_joinType _ _).bind fun _ => total_store _ _

/-! ## All calls -/

/-- The call links accessors to its token before it has looked up everything. -/
def linksFirst : RegistrationCall → Bool
  | .addProperty _ | .addEvent _ => true
  | .addAssembly _ | .addModule _ | .addType _ | .construct _ _ | .nullableOf _ _ | .addMethod _
  | .addParameter _ _ | .addField _ | .addSlot _ => false

/-- A call that looks up everything first fails without a trace. -/
theorem failsClean_of_linksFirst {call : RegistrationCall} (h : call.linksFirst = false) :
    FailsClean call.run := by
  cases call with
  | addAssembly assembly => exact (looksUp_nextToken _).bind fun _ => (total_store _ _).failsClean
  | addModule module =>
    exact (looksUp_requireAll _ _).bind fun _ => (looksUp_nextToken _).bind fun _ =>
      (total_store _ _).failsClean
  | addType type => exact failsClean_addType type
  | construct definition typeArguments => exact failsClean_construct definition typeArguments
  | nullableOf core underlying => exact failsClean_construct core.nullable [underlying]
  | addMethod method => exact failsClean_addMethod method
  -- The ordinal is checked before the method learns of the parameter.
  | addParameter method parameter => exact failsClean_addParameter method parameter
  | addField field => exact failsClean_addField field
  | addSlot slot =>
    exact (looksUp_requireAll _ _).bind fun _ => (looksUp_nextToken _).bind fun _ =>
      (total_store _ _).failsClean
  -- Only properties and events link accessors before their last lookup.
  | addProperty property => cases h
  | addEvent event => cases h

/-- All that a failed call can have done to the table is to link accessors to the next property or
    event. -/
theorem eq_or_linked_of_error {call : RegistrationCall} {t after : SymbolTable}
    {error : SymbolError} (h : call.run t = .error error after) :
    after = t ∨ ∃ (kind : SymbolKind) (accessors : List Token) (owner : Token),
      (kind = .property ∨ kind = .event) ∧ tokenAfter? kind (t.count kind) = some owner ∧
        after = t.linked accessors owner := by
  cases hfirst : call.linksFirst with
  | false => exact .inl (failsClean_of_linksFirst hfirst t error after h)
  | true =>
    -- It fails before the accessors are linked, or at the containing type.
    cases call with
    | addProperty property =>
      obtain hsame | ⟨owner, howner, -, -, -, hlinked⟩ :=
        registerAccessed_eq_error .property property h
      · exact .inl hsame
      · exact .inr ⟨.property, _, owner, .inl rfl, howner, hlinked⟩
    | addEvent event =>
      obtain hsame | ⟨owner, howner, -, -, -, hlinked⟩ := registerAccessed_eq_error .event event h
      · exact .inl hsame
      · exact .inr ⟨.event, _, owner, .inr rfl, howner, hlinked⟩
    | _ => cases hfirst

/-- The call fails after it has linked an accessor to the token that it would have handed out. -/
def LeavesLink (t : SymbolTable) : RegistrationCall → Prop
  | .addProperty property =>
    t.LinksEarly .property property.type (property.getter.toList ++ property.setter.toList)
      property.containingType
  | .addEvent event =>
    t.LinksEarly .event event.type (event.adder.toList ++ event.remover.toList)
      event.containingType
  | .addAssembly _ | .addModule _ | .addType _ | .construct _ _ | .nullableOf _ _ | .addMethod _
  | .addParameter _ _ | .addField _ | .addSlot _ => False

/-- A call fails and leaves the table changed exactly when it registers a property or event for
    which everything but the containing type resolves, and one of the accessors does not belong to
    the next token of the kind yet.  All other failed calls leave the table as it was. -/
theorem fails_with_change_iff (call : RegistrationCall) (t : SymbolTable) :
    (∃ error after, call.run t = .error error after ∧ after ≠ t) ↔ call.LeavesLink t := by
  cases hfirst : call.linksFirst with
  | false =>
    have hclean := failsClean_of_linksFirst hfirst
    -- No other call links anything early, and none leaves a trace.
    have hnot : ¬call.LeavesLink t := by
      cases call <;> first | exact id | cases hfirst
    refine iff_of_false ?_ hnot
    rintro ⟨error, after, h, hne⟩
    exact hne (hclean t error after h)
  | true =>
    cases call with
    | addProperty property => exact registerAccessed_changes_iff .property property
    | addEvent event => exact registerAccessed_changes_iff .event event
    | _ => cases hfirst

/-- The first method of a table, a getter that waits for its property. -/
def lonelyGetter : MethodSymbol := { name := "get_P", kind := .propertyGet }

/-- The property of the getter, declared by a type that does not exist. -/
def homelessProperty : PropertySymbol :=
  { name := "P", getter := some (.ofParts .method 1), containingType := some (.ofParts .type 1) }

/-- With the getter as its only symbol, the table refuses the property, and yet it has changed: the
    getter belongs to a property that does not exist. -/
theorem getter_linked_to_refused_property :
    SymbolTable.Reachable { methods := #[lonelyGetter] } ∧
      (addProperty homelessProperty).IsFresh ∧
      (addProperty homelessProperty).run { methods := #[lonelyGetter] } =
        .error (.unresolved (.ofParts .type 1))
          { methods := #[{ lonelyGetter with associated := some (.ofParts .property 1) }] } ∧
      ({ methods := #[{ lonelyGetter with associated := some (.ofParts .property 1) }] } :
        SymbolTable) ≠ { methods := #[lonelyGetter] } := by
  have hfresh : (addMethod lonelyGetter).IsFresh := ⟨rfl, rfl⟩
  have hrun : (addMethod lonelyGetter).run {} =
      .ok (.ofParts .method 1) { methods := #[lonelyGetter] } := rfl
  exact ⟨.added .empty hfresh hrun, trivial, rfl, by decide⟩

end RegistrationCall

end DefensiveCopy
