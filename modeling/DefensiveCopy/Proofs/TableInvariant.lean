import DefensiveCopy.Proofs.FreshTokens
import DefensiveCopy.Proofs.Integrity

/-!
# Properties that registration keeps

Whatever is called, a symbol table changes in three ways: a fresh symbol is registered under the
next token, accessors are linked to the next token by a call that fails then, and a type that a
library is being built from gets its base type, its modifiers or its type arguments, without a
circle of base types.  Such changes, one after the other, are the steps that lead from one table to
another (`SymbolTable.Steps`).  A property of tables that none of them breaks
(`SymbolTable.KeptByRegistration`) is kept by all steps.

That a table is intact is such a property.  Another one is that no method has more parameters than
there are parameters, so that ordinals never run out (`SymbolTable.Steps.ordinal_lt`).

## Key results

- `SymbolTable.Steps.run_ok`, `SymbolTable.Steps.run_error`: calls
- `SymbolTable.KeptByRegistration.of_steps`: what is kept by each step is kept by all
- `SymbolTable.intact_kept`: steps keep a table intact
- `SymbolTable.Steps.ordinal_lt`: there is an ordinal for every parameter
-/

namespace DefensiveCopy

/-- The symbol has nothing in the places that registration fills in. -/
def Symbol.IsFresh : (kind : SymbolKind) → Symbol kind → Prop
  | .type, (symbol : TypeSymbol) => symbol.members = []
  | .method, (symbol : MethodSymbol) => symbol.parameters = [] ∧ symbol.associated = none
  | .module, _ | .field, _ | .parameter, _ | .slot, _ | .event, _ | .property, _ | .assembly, _ =>
    True

/-- A call that is handed a fresh symbol registers a fresh one. -/
theorem RegistrationCall.IsFresh.symbol {call : RegistrationCall} {t : SymbolTable}
    {kind : SymbolKind} {symbol : Symbol kind} (hfresh : call.IsFresh)
    (hsymbol : call.symbol? t = some ⟨kind, symbol⟩) : symbol.IsFresh kind := by
  cases call with
  | addType _ | addMethod _ =>
    cases hsymbol
    exact hfresh
  | construct _ _ | nullableOf _ _ =>
    -- The members stay with the definition.
    obtain ⟨_, -, heq⟩ := Option.map_eq_some_iff.1 hsymbol
    cases heq
    rfl
  | addParameter _ _ =>
    obtain ⟨_, -, heq⟩ := Option.map_eq_some_iff.1 hsymbol
    cases heq
    trivial
  | addAssembly _ | addModule _ | addField _ | addProperty _ | addEvent _ | addSlot _ =>
    cases hsymbol
    trivial

/-- The edit changes the base type, the modifiers and the type arguments of a type only. -/
def TypeSymbol.Completes (f : TypeSymbol → TypeSymbol) : Prop :=
  ∀ symbol, ∃ base modifiers typeArguments,
    f symbol = { symbol with base, modifiers, typeArguments }

/-- Completing a type keeps its name. -/
theorem TypeSymbol.Completes.name_eq {f : TypeSymbol → TypeSymbol} (h : Completes f)
    (symbol : TypeSymbol) : (f symbol).name = symbol.name := by
  obtain ⟨_, _, _, heq⟩ := h symbol
  rw [heq]

namespace SymbolTable

/-! ## Steps -/

/-- The changes of a table that registration consists of, one after the other. -/
inductive Steps (start : SymbolTable) : SymbolTable → Prop where
  | refl : Steps start start
  /-- A fresh symbol whose links resolve is registered under the next token. -/
  | registered {t : SymbolTable} {kind : SymbolKind} {symbol : Symbol kind} {token : Token}
    (h : Steps start t) (hregisters : t.Registers kind symbol token) (hfresh : symbol.IsFresh kind)
    (hadmissible : t.Admissible kind symbol) : Steps start (t.registered kind symbol token)
  /-- Accessors are linked to the next property or event. -/
  | linked {t : SymbolTable} {kind : SymbolKind} {accessors : List Token} {owner : Token}
    (h : Steps start t) (hkind : kind = .property ∨ kind = .event)
    (howner : tokenAfter? kind (t.count kind) = some owner) : Steps start (t.linked accessors owner)
  /-- A type is completed, and no circle is made. -/
  | completed {t : SymbolTable} {type : Token} {symbol : TypeSymbol} {f : TypeSymbol → TypeSymbol}
    (h : Steps start t) (hget : t.type? type = some symbol) (hf : TypeSymbol.Completes f)
    (hbase : ∀ base, (f symbol).base = some base → t.MayDerive type symbol base) :
    Steps start (t.modify .type type f)

namespace Steps

variable {start t after : SymbolTable} {call : RegistrationCall}

/-- Steps may be followed by steps. -/
theorem trans (h : Steps start t) (hafter : Steps t after) : Steps start after := by
  induction hafter with
  | refl => exact h
  | registered _ hregisters hfresh hadmissible ih =>
    exact ih.registered hregisters hfresh hadmissible
  | linked _ hkind howner ih => exact ih.linked hkind howner
  | completed _ hget hf hbase ih => exact ih.completed hget hf hbase

/-- The symbol of a call is registered in one step. -/
theorem registered_of_isFresh {kind : SymbolKind} {symbol : Symbol kind} {token : Token}
    (h : Steps start t) (hfresh : call.IsFresh) (hsymbol : call.symbol? t = some ⟨kind, symbol⟩)
    (hregisters : t.Registers kind symbol token) : Steps start (t.registered kind symbol token) :=
  h.registered hregisters (hfresh.symbol hsymbol) (admissible_of_isFresh hfresh hsymbol)

/-- A successful call is one step. -/
theorem run_ok {token : Token} (h : Steps start t) (hfresh : call.IsFresh)
    (hrun : call.run t = .ok token after) : Steps start after := by
  obtain ⟨kind, symbol, hsymbol, hregisters, rfl⟩ := RegistrationCall.registers_of_run hrun
  exact h.registered_of_isFresh hfresh hsymbol hregisters

/-- A failed call is no step, or it is the step that links accessors. -/
theorem run_error {error : SymbolError} (h : Steps start t)
    (hrun : call.run t = .error error after) : Steps start after := by
  obtain rfl | ⟨kind, accessors, owner, hkind, howner, rfl⟩ :=
    RegistrationCall.eq_or_linked_of_error hrun
  · exact h
  · exact h.linked hkind howner

end Steps

/-! ## Kept properties -/

/-- No step of registration breaks the property. -/
structure KeptByRegistration (P : SymbolTable → Prop) : Prop where
  /-- A fresh symbol whose links resolve is registered under the next token. -/
  registered : ∀ {t : SymbolTable} {kind : SymbolKind} {symbol : Symbol kind} {token : Token},
    P t → t.Registers kind symbol token → symbol.IsFresh kind → t.Admissible kind symbol →
      P (t.registered kind symbol token)
  /-- Accessors are linked to the next property or event. -/
  linked : ∀ {t : SymbolTable} {kind : SymbolKind} {accessors : List Token} {owner : Token},
    P t → kind = .property ∨ kind = .event → tokenAfter? kind (t.count kind) = some owner →
      P (t.linked accessors owner)
  /-- A type is completed, and no circle is made. -/
  modifyType : ∀ {t : SymbolTable} {type : Token} {symbol : TypeSymbol}
    {f : TypeSymbol → TypeSymbol}, P t → t.type? type = some symbol → TypeSymbol.Completes f →
      (∀ base, (f symbol).base = some base → t.MayDerive type symbol base) →
        P (t.modify .type type f)

/-- What no step breaks holds after all steps. -/
theorem KeptByRegistration.of_steps {P : SymbolTable → Prop} (h : KeptByRegistration P)
    {start t : SymbolTable} (hstart : P start) (hsteps : Steps start t) : P t := by
  induction hsteps with
  | refl => exact hstart
  | registered _ hregisters hfresh hadmissible ih =>
    exact h.registered ih hregisters hfresh hadmissible
  | linked _ hkind howner ih => exact h.linked ih hkind howner
  | completed _ hget hf hbase ih => exact h.modifyType ih hget hf hbase

/-- Steps keep a table intact. -/
theorem intact_kept : KeptByRegistration Intact where
  registered h hregisters _ hadmissible := h.registered hregisters hadmissible
  linked h _ _ := h.linked _ _
  modifyType {t type symbol f} h hget hf hbase := by
    obtain ⟨base, modifiers, typeArguments, heq⟩ := hf symbol
    exact h.modifyType hget (by rw [heq]) (by rw [heq]) (by rw [heq]) (by rw [heq]) hbase

/-! ## Ordinals -/

/-- A method that was not there at the start has no more parameters than there are. -/
def CountsParameters (start t : SymbolTable) : Prop :=
  ∀ (method : Token) (found : MethodSymbol), t.method? method = some found →
    ¬start.resolves .method method → found.parameters.length ≤ t.count .parameter

variable {start t : SymbolTable}

/-- A registration gives a method another parameter only if it makes another parameter. -/
theorem CountsParameters.registered {kind : SymbolKind} {symbol : Symbol kind} {token : Token}
    (h : CountsParameters start t) (hregisters : t.Registers kind symbol token)
    (hfresh : symbol.IsFresh kind) : CountsParameters start (t.registered kind symbol token) := by
  intro method found hfound hnew
  rw [hregisters.gains.count_eq .parameter]
  rcases get?_registered_cases hregisters.token_eq hfound with ⟨-, rfl, rfl⟩ | ⟨old, -, hold, rfl⟩
  · -- A new method is fresh, so it has no parameters yet.
    have hnone : MethodSymbol.parameters symbol = [] := hfresh.1
    simp [hnone]
  · have hle := h method old hold hnew
    dsimp only [linkedBack]
    split
    · next howner =>
      -- Only a parameter has an owner, and then there is one parameter more.
      obtain rfl : SymbolKind.parameter = kind := by cases kind <;> first | rfl | cases howner
      simpa using hle
    · exact Nat.le_add_right_of_le hle

/-- No step breaks the bound on parameters. -/
private theorem countsParameters_kept (start : SymbolTable) :
    KeptByRegistration (CountsParameters start) where
  registered h hregisters hfresh _ := h.registered hregisters hfresh
  linked {t _ accessors owner} h _ _ := by
    intro method found hfound hnew
    obtain ⟨old, hold, rfl⟩ := Option.map_eq_some_iff.1 (get?_linked_method.symm.trans hfound)
    rw [count_linked]
    exact h method old hold hnew
  modifyType {t type _ f} h _ _ _ := by
    intro method found hfound hnew
    rw [count_modify]
    exact h method found ((get?_modify_other _ _ _ (by decide) _).symm.trans hfound) hnew

/-- As long as there is a row for another parameter, a method that was not there at the start has an
    ordinal left for it. -/
theorem Steps.ordinal_lt (h : Steps start t) {method token : Token} {owner : MethodSymbol}
    (howner : t.method? method = some owner) (hnew : ¬start.resolves .method method)
    (htoken : tokenAfter? .parameter (t.count .parameter) = some token) :
    owner.parameters.length < ordinalLimit := by
  have hstart : CountsParameters start start := fun _ _ hfound hnot =>
    absurd (resolves_of_get? hfound) hnot
  have hle := (countsParameters_kept start).of_steps hstart h method owner howner hnew
  -- There are fewer rows than ordinals.
  obtain ⟨-, hrow, hlt⟩ := parts_of_tokenAfter? htoken
  simp only [Token.rowLimit, ordinalLimit] at hlt ⊢
  omega

end SymbolTable

end DefensiveCopy
