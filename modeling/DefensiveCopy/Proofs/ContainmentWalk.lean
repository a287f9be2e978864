import DefensiveCopy.Proofs.LibraryIntegrity
import DefensiveCopy.Proofs.Polling
import Mathlib.Combinatorics.Pigeonhole

/-!
# The walk through the containers

Whether code is generated is decided by a walk from container to container.  Nothing bounds the
walk: it stops at a symbol that is marked or has no container, and if there is no such symbol on its
way, it does not stop.  In a table that was edited by hand the containers may run in a circle, so
both cases occur.

`containerAfter?` follows the containers for a given number of steps.  All that a walk ever meets,
it meets within as many steps as the table has symbols, because every symbol that has a container
is in the table.  So the bound in `isGenerated?` cuts no walk short that would have ended.

Registration alone makes no circle.  A method leads to its method and then to a type, a type to its
type and then to a module, a module to an assembly, and none of these chains comes back.

## Key results

- `SymbolTable.exists_containerAfter?_le_size`: what a walk meets, it meets within the bound
- `SymbolTable.isSome_isGenerated?_iff`: the bounded walk answers if any walk does
- `SymbolTable.Intact.wellFounded_container`: the containers of an intact table have no circle
- `SymbolTable.generated_answers_iff`: when exactly the walk comes to an end
-/

namespace DefensiveCopy

/-- The container of a symbol of any kind. -/
def Symbol.container? : (kind : SymbolKind) → Symbol kind → Option Token
  | .method, (symbol : MethodSymbol) => symbol.containingMethod.or symbol.containingType
  | .type, (symbol : TypeSymbol) => symbol.containingType.or symbol.module
  | .field, symbol => FieldSymbol.containingType symbol
  | .property, symbol => PropertySymbol.containingType symbol
  | .event, symbol => EventSymbol.containingType symbol
  | .module, symbol => ModuleSymbol.assembly symbol
  | .parameter, _ | .slot, _ | .assembly, _ => none

namespace SymbolTable

variable {t : SymbolTable}

/-! ## Following containers -/

/-- The container of a token is read off its symbol. -/
theorem container?_eq_view (token : Token) :
    t.container? token = t.view Symbol.container? token := by
  unfold container? view
  cases token.kind? with
  | none => rfl
  | some kind =>
    cases kind with
    | parameter | slot | assembly => exact (Option.bind_eq_none_iff.2 fun _ _ => rfl).symm
    | _ => rfl

/-- The symbol that a number of steps from container to container leads to. -/
def containerAfter? (t : SymbolTable) : Nat → Token → Option Token
  | 0, token => some token
  | steps + 1, token => (t.container? token).bind (t.containerAfter? steps)

/-- A walk goes on from wherever its first steps lead to. -/
private theorem containerAfter?_add (first rest : Nat) (token : Token) :
    t.containerAfter? (first + rest) token =
      (t.containerAfter? first token).bind (t.containerAfter? rest) := by
  induction first generalizing token with
  | zero => simp [containerAfter?]
  | succ first ih =>
    have hsteps : first + 1 + rest = (first + rest) + 1 := by omega
    rw [hsteps, containerAfter?, containerAfter?, Option.bind_assoc]
    congr 1
    funext container
    exact ih container

/-- A walk that goes on for a number of steps has gone on for every smaller number. -/
private theorem isSome_containerAfter?_of_le {steps fewer : Nat} {token : Token}
    (hle : fewer ≤ steps)
    (h : (t.containerAfter? steps token).isSome) : (t.containerAfter? fewer token).isSome := by
  have hsteps : steps = fewer + (steps - fewer) := by omega
  rw [hsteps, containerAfter?_add] at h
  exact Option.isSome_of_isSome_bind h

/-- The walk stops at the symbol, because it is marked or has no container. -/
def stopsAt (t : SymbolTable) (token : Token) : Bool :=
  t.isMarkedGenerated token || (t.container? token).isNone

/-- A walk gives an answer if it comes to a symbol that it stops at. -/
theorem isSome_generatedFrom_iff {fuel : Nat} {token : Token} :
    (t.generatedFrom fuel token).isSome ↔
      ∃ steps < fuel, ∃ last, t.containerAfter? steps token = some last ∧ t.stopsAt last := by
  induction fuel generalizing token with
  | zero => simp [generatedFrom]
  | succ fuel ih =>
    -- The walk stops at once, or it is the walk from the container with one step less.
    have hsplit : (∃ steps < fuel + 1, ∃ last,
          t.containerAfter? steps token = some last ∧ t.stopsAt last) ↔
        t.stopsAt token ∨ ∃ container, t.container? token = some container ∧
          ∃ steps < fuel, ∃ last,
            t.containerAfter? steps container = some last ∧ t.stopsAt last := by
      constructor
      · rintro ⟨steps, hlt, last, hlast, hstops⟩
        cases steps with
        | zero =>
          cases hlast
          exact .inl hstops
        | succ steps =>
          obtain ⟨container, hcontainer, hlast⟩ := Option.bind_eq_some_iff.1 hlast
          exact .inr ⟨container, hcontainer, steps, by omega, last, hlast, hstops⟩
      · rintro (hstops | ⟨container, hcontainer, steps, hlt, last, hlast, hstops⟩)
        · exact ⟨0, by omega, token, rfl, hstops⟩
        · refine ⟨steps + 1, by omega, last, ?_, hstops⟩
          rw [containerAfter?, hcontainer, Option.bind_some, hlast]
    rw [hsplit, generatedFrom]
    -- The two ways to stop are a mark and a symbol without a container.
    by_cases hmarked : t.isMarkedGenerated token
    · simp [hmarked, stopsAt]
    · cases hcontainer : t.container? token with
      | none => simp [hmarked, hcontainer, stopsAt]
      | some container => simp [hmarked, hcontainer, stopsAt, ih]

/-- A walk that has given its answer gives the same one when it may go further. -/
private theorem generatedFrom_of_le {fuel more : Nat} {token : Token} {answer : Bool}
    (hle : fuel ≤ more)
    (h : t.generatedFrom fuel token = some answer) :
    t.generatedFrom more token = some answer := by
  induction fuel generalizing token more with
  | zero => cases h
  | succ fuel ih =>
    -- A walk that may take a step may take one with more steps allowed as well.
    obtain ⟨more, rfl⟩ : ∃ fewer, more = fewer + 1 := ⟨more - 1, by omega⟩
    rw [generatedFrom] at h ⊢
    by_cases hmarked : t.isMarkedGenerated token
    · rw [if_pos hmarked] at h ⊢
      exact h
    · rw [if_neg hmarked] at h ⊢
      cases hcontainer : t.container? token with
      | none =>
        rw [hcontainer] at h
        exact h
      | some container =>
        rw [hcontainer] at h
        exact ih (Nat.le_of_succ_le_succ hle) h

/-! ## The bound -/

/-- The tokens of all registered symbols. -/
def tokens (t : SymbolTable) : List Token :=
  SymbolKind.all.flatMap fun kind => (List.range (t.count kind)).map fun i => .ofParts kind (i + 1)

/-- Each registered symbol has one token in the list. -/
private theorem length_tokens : t.tokens.length = t.size := by
  simp [tokens, size, SymbolKind.all]
  omega

/-- A token that resolves is the token of a registered symbol. -/
private theorem mem_tokens_of_get? {kind : SymbolKind} {token : Token} {symbol : Symbol kind}
    (h : t.get? kind token = some symbol) : token ∈ t.tokens := by
  obtain ⟨i, hindex, hsymbol⟩ := Option.bind_eq_some_iff.1 h
  have hlt : i < t.count kind := (Array.getElem?_eq_some_iff.1 hsymbol).1
  have hkind : kind ∈ SymbolKind.all := by cases kind <;> decide
  refine List.mem_flatMap.2 ⟨kind, hkind, List.mem_map.2 ⟨i, List.mem_range.2 hlt, ?_⟩⟩
  exact (Token.eq_ofParts_of_index? hindex).symm

/-- Only registered symbols have a container. -/
private theorem mem_tokens_of_container? {token container : Token}
    (h : t.container? token = some container) : token ∈ t.tokens := by
  rw [container?_eq_view] at h
  obtain ⟨kind, symbol, hget, -⟩ := view_eq_some_iff.1 h
  exact mem_tokens_of_get? hget

/-- A walk that goes on for more steps than there are symbols is at some symbol twice. -/
private theorem exists_containerAfter?_eq {token : Token}
    (h : (t.containerAfter? (t.size + 1) token).isSome) :
    ∃ first second, first < second ∧ second ≤ t.size ∧
      t.containerAfter? first token = t.containerAfter? second token := by
  -- The symbols after up to `size` steps all have a container, so they are registered.
  have hmem : ∀ steps ∈ Finset.range (t.size + 1),
      t.containerAfter? steps token ∈ (t.tokens.map some).toFinset := by
    intro steps hsteps
    rw [Finset.mem_range] at hsteps
    have hnext := isSome_containerAfter?_of_le (show steps + 1 ≤ t.size + 1 by omega) h
    rw [containerAfter?_add] at hnext
    obtain ⟨here, hhere⟩ := Option.isSome_iff_exists.1 (Option.isSome_of_isSome_bind hnext)
    rw [hhere, Option.bind_some, containerAfter?] at hnext
    obtain ⟨container, hcontainer⟩ :=
      Option.isSome_iff_exists.1 (Option.isSome_of_isSome_bind hnext)
    rw [hhere, List.mem_toFinset]
    exact List.mem_map_of_mem (mem_tokens_of_container? hcontainer)
  -- There are fewer symbols than steps, so two steps share a symbol.
  have hcard : (t.tokens.map some).toFinset.card < (Finset.range (t.size + 1)).card := by
    have hle := (t.tokens.map some).toFinset_card_le
    rw [List.length_map, length_tokens] at hle
    rw [Finset.card_range]
    omega
  obtain ⟨i, hi, j, hj, hne, heq⟩ := Finset.exists_ne_map_eq_of_card_lt_of_maps_to hcard hmem
  rw [Finset.mem_range] at hi hj
  rcases Nat.lt_or_gt_of_ne hne with hlt | hlt
  · exact ⟨i, j, hlt, by omega, heq⟩
  · exact ⟨j, i, hlt, by omega, heq.symm⟩

/-- Whatever a walk meets, it meets within as many steps as there are symbols. -/
theorem exists_containerAfter?_le_size {steps : Nat} {token last : Token}
    (h : t.containerAfter? steps token = some last) :
    ∃ fewer ≤ t.size, t.containerAfter? fewer token = some last := by
  induction steps using Nat.strongRecOn with
  | _ steps ih =>
    by_cases hle : steps ≤ t.size
    · exact ⟨steps, hle, h⟩
    · -- Leave out the part of the walk between two visits of the same symbol.
      have hlong := isSome_containerAfter?_of_le (show t.size + 1 ≤ steps by omega)
        (Option.isSome_of_eq_some h)
      obtain ⟨first, second, hlt, hsecond, heq⟩ := exists_containerAfter?_eq hlong
      have hsteps : steps = second + (steps - second) := by omega
      rw [hsteps, containerAfter?_add, ← heq, ← containerAfter?_add] at h
      exact ih _ (by omega) h

/-- The bounded walk gives an answer if the walk stops anywhere. -/
theorem isSome_isGenerated?_iff {token : Token} :
    (t.isGenerated? token).isSome ↔
      ∃ steps last, t.containerAfter? steps token = some last ∧ t.stopsAt last := by
  rw [isGenerated?, isSome_generatedFrom_iff]
  constructor
  · rintro ⟨steps, -, last, hlast, hstops⟩
    exact ⟨steps, last, hlast, hstops⟩
  · rintro ⟨steps, last, hlast, hstops⟩
    obtain ⟨fewer, hle, hfewer⟩ := exists_containerAfter?_le_size hlast
    exact ⟨fewer, by omega, last, hfewer, hstops⟩

/-- The answer of a walk of any length is the answer of the bounded walk. -/
theorem exists_generatedFrom_iff {token : Token} {answer : Bool} :
    (∃ fuel, t.generatedFrom fuel token = some answer) ↔ t.isGenerated? token = some answer := by
  constructor
  · rintro ⟨fuel, h⟩
    obtain ⟨steps, -, last, hlast, hstops⟩ :=
      isSome_generatedFrom_iff.1 (Option.isSome_of_eq_some h)
    obtain ⟨bounded, hbounded⟩ :=
      Option.isSome_iff_exists.1 (isSome_isGenerated?_iff.2 ⟨steps, last, hlast, hstops⟩)
    -- Both answers are the answer of the longer of the two walks.
    have hleft := generatedFrom_of_le (Nat.le_max_left fuel (t.size + 1)) h
    have hright := generatedFrom_of_le (Nat.le_max_right fuel (t.size + 1)) hbounded
    rw [hbounded, ← hright, hleft]
  · exact fun h => ⟨t.size + 1, h⟩

/-! ## Circles -/

/-- The containers of the symbol lead to one that they lead back to. -/
def RunsInCircle (t : SymbolTable) (token : Token) : Prop :=
  ∃ lead round symbol, t.containerAfter? lead token = some symbol ∧
    t.containerAfter? (round + 1) symbol = some symbol

/-- A walk that comes to a circle never comes to an end. -/
theorem RunsInCircle.isSome {token : Token} (h : t.RunsInCircle token) (steps : Nat) :
    (t.containerAfter? steps token).isSome := by
  obtain ⟨lead, round, symbol, hlead, hround⟩ := h
  -- Any number of turns leads back to where they began.
  have hturns : ∀ turns, t.containerAfter? (turns * (round + 1)) symbol = some symbol := by
    intro turns
    induction turns with
    | zero => simp [containerAfter?]
    | succ turns ih =>
      rw [Nat.succ_mul, containerAfter?_add, ih, Option.bind_some, hround]
  have hlong : t.containerAfter? (lead + steps * (round + 1)) token = some symbol := by
    rw [containerAfter?_add, hlead, Option.bind_some, hturns]
  have hle : steps ≤ lead + steps * (round + 1) := by
    have hmul : steps ≤ steps * (round + 1) := Nat.le_mul_of_pos_right steps (Nat.succ_pos round)
    omega
  exact isSome_containerAfter?_of_le hle (Option.isSome_of_eq_some hlong)

/-- A walk that is at a symbol twice runs in a circle. -/
private theorem runsInCircle_of_eq {first second : Nat} {token : Token} (hlt : first < second)
    (hsome : (t.containerAfter? first token).isSome)
    (heq : t.containerAfter? first token = t.containerAfter? second token) :
    t.RunsInCircle token := by
  obtain ⟨symbol, hsymbol⟩ := Option.isSome_iff_exists.1 hsome
  refine ⟨first, second - first - 1, symbol, hsymbol, ?_⟩
  have hsecond : second = first + (second - first - 1 + 1) := by omega
  rw [hsymbol, hsecond, containerAfter?_add, hsymbol, Option.bind_some] at heq
  exact heq.symm

/-- A walk comes to an end if it meets a mark or does not run in a circle. -/
theorem isSome_isGenerated?_iff_circle {token : Token} :
    (t.isGenerated? token).isSome ↔
      (∃ steps symbol, t.containerAfter? steps token = some symbol ∧ t.isMarkedGenerated symbol) ∨
        ¬t.RunsInCircle token := by
  rw [isSome_isGenerated?_iff]
  constructor
  · rintro ⟨steps, last, hlast, hstops⟩
    rcases Bool.or_eq_true_iff.1 hstops with hmarked | hnone
    · exact .inl ⟨steps, last, hlast, hmarked⟩
    · -- There is no step beyond the last symbol, while a circle has a step beyond each.
      refine .inr fun hcircle => ?_
      have hnext := hcircle.isSome (steps + 1)
      rw [containerAfter?_add, hlast, Option.bind_some, containerAfter?,
        Option.isNone_iff_eq_none.1 hnone] at hnext
      cases hnext
  · rintro (⟨steps, symbol, hsymbol, hmarked⟩ | hcircle)
    · exact ⟨steps, symbol, hsymbol, by simp [stopsAt, hmarked]⟩
    · -- Without a stop the walk goes on for ever, and comes back to some symbol.
      by_contra hnever
      have hsome : ∀ steps, (t.containerAfter? steps token).isSome := by
        intro steps
        induction steps with
        | zero => rfl
        | succ steps ih =>
          obtain ⟨here, hhere⟩ := Option.isSome_iff_exists.1 ih
          have hcontainer : t.container? here ≠ none := by
            intro hnone
            exact hnever ⟨steps, here, hhere, by simp [stopsAt, hnone]⟩
          obtain ⟨container, hcontainer⟩ := Option.ne_none_iff_exists'.1 hcontainer
          rw [containerAfter?_add, hhere, Option.bind_some, containerAfter?, hcontainer]
          rfl
      obtain ⟨first, second, hlt, -, heq⟩ := exists_containerAfter?_eq (hsome (t.size + 1))
      exact hcircle (runsInCircle_of_eq hlt (hsome first) heq)

/-! ## Containers of registered symbols -/

namespace Intact

variable (h : t.Intact)

include h

/-- A module leads to an assembly, which leads nowhere. -/
private theorem acc_container_module {token : Token} {module : ModuleSymbol}
    (hget : t.get? .module token = some module) :
    Acc (fun target source => t.view Symbol.container? source = some target) token := by
  refine ⟨_, fun assembly hassembly => ⟨_, fun target htarget => ?_⟩⟩
  rw [view_of_get? hget] at hassembly
  have hlink : module.assembly = some assembly := hassembly
  have hresolves := h.links_resolve hget (.assembly, assembly) (by simp [Symbol.links, hlink])
  obtain ⟨found, hfound⟩ := Option.isSome_iff_exists.1 hresolves
  rw [view_of_get? hfound] at htarget
  cases htarget

/-- A type leads along the types around it to a module. -/
private theorem acc_container_type {token : Token} {type : TypeSymbol}
    (hget : t.get? .type token = some type) :
    Acc (fun target source => t.view Symbol.container? source = some target) token := by
  induction token using (h.chain_wellFounded .containingType).induction generalizing type with
  | _ token ih =>
    refine ⟨_, fun target htarget => ?_⟩
    rw [view_of_get? hget] at htarget
    -- Up one type the induction hypothesis applies; a module is the end of the types.
    rcases Option.or_eq_some_iff.1 htarget with htype | ⟨-, hmodule⟩
    · have hresolves := h.links_resolve hget (.type, target) (by simp [Symbol.links, htype])
      obtain ⟨found, hfound⟩ := Option.isSome_iff_exists.1 hresolves
      exact ih target ((view_of_get? hget).trans htype) hfound
    · have hresolves := h.links_resolve hget (.module, target) (by simp [Symbol.links, hmodule])
      obtain ⟨found, hfound⟩ := Option.isSome_iff_exists.1 hresolves
      exact h.acc_container_module hfound

/-- A method leads along the methods around it to a type. -/
private theorem acc_container_method {token : Token} {method : MethodSymbol}
    (hget : t.get? .method token = some method) :
    Acc (fun target source => t.view Symbol.container? source = some target) token := by
  induction token using (h.chain_wellFounded .containingMethod).induction generalizing method with
  | _ token ih =>
    refine ⟨_, fun target htarget => ?_⟩
    rw [view_of_get? hget] at htarget
    -- Up one method the induction hypothesis applies; a type is the end of the methods.
    rcases Option.or_eq_some_iff.1 htarget with hmethod | ⟨-, htype⟩
    · have hresolves := h.links_resolve hget (.method, target) (by simp [Symbol.links, hmethod])
      obtain ⟨found, hfound⟩ := Option.isSome_iff_exists.1 hresolves
      exact ih target ((view_of_get? hget).trans hmethod) hfound
    · have hresolves := h.links_resolve hget (.type, target) (by simp [Symbol.links, htype])
      obtain ⟨found, hfound⟩ := Option.isSome_iff_exists.1 hresolves
      exact h.acc_container_type hfound

/-- The containers of an intact table do not run in a circle. -/
theorem wellFounded_container :
    WellFounded fun target source => t.view Symbol.container? source = some target := by
  refine ⟨fun token => ⟨_, fun target htarget => ?_⟩⟩
  -- Whatever the kind, the first step leads to a symbol that has been dealt with above.
  have htoken := htarget
  obtain ⟨kind, symbol, hget, hlink⟩ := view_eq_some_iff.1 htarget
  cases kind with
  | method => exact (h.acc_container_method hget).inv htoken
  | type => exact (h.acc_container_type hget).inv htoken
  | module => exact (h.acc_container_module hget).inv htoken
  | field | property | event =>
    have hresolves := h.links_resolve hget (.type, target)
      (by simp_all [Symbol.links, Symbol.container?])
    obtain ⟨found, hfound⟩ := Option.isSome_iff_exists.1 hresolves
    exact h.acc_container_type hfound
  | parameter | slot | assembly => cases hlink

/-- In an intact table every walk comes to an end. -/
theorem isSome_isGenerated? (token : Token) : (t.isGenerated? token).isSome := by
  rw [isSome_isGenerated?_iff]
  induction token using h.wellFounded_container.induction with
  | _ token ih =>
    cases hcontainer : t.container? token with
    | none => exact ⟨0, token, rfl, by simp [stopsAt, hcontainer]⟩
    | some container =>
      have hview := (t.container?_eq_view token).symm.trans hcontainer
      obtain ⟨steps, last, hlast, hstops⟩ := ih container hview
      refine ⟨steps + 1, last, ?_, hstops⟩
      rw [containerAfter?, hcontainer, Option.bind_some, hlast]

end Intact

/-! ## When the search for generated code ends -/

/-- A search that is not called off gives the answer of the bounded walk. -/
theorem generated_some_eq_ok_iff {token : Token} {answer : Bool} :
    t.generated .live (some token) = .ok answer ↔ t.isGenerated? token = some answer := by
  rw [generated_some_live]
  cases t.isGenerated? token <;> simp

/-- In an intact table every search that is not called off gives an answer. -/
theorem Intact.exists_generated (h : t.Intact) (start : Option Token) :
    ∃ answer, t.generated .live start = .ok answer := by
  cases start with
  | none => exact ⟨false, rfl⟩
  | some token =>
    obtain ⟨answer, hanswer⟩ := Option.isSome_iff_exists.1 (h.isSome_isGenerated? token)
    exact ⟨answer, generated_some_eq_ok_iff.2 hanswer⟩

/-- The search for generated code gives an answer if its walk is of any finite length.  This is so
    exactly if the walk meets a mark or the containers do not run in a circle, and so it always is
    in a table that registration leads to. -/
theorem generated_answers_iff (t : SymbolTable) :
    (∀ token answer, t.generated .live (some token) = .ok answer ↔
      ∃ fuel, t.generatedFrom fuel token = some answer) ∧
    (∀ start, (∃ answer, t.generated .live start = .ok answer) ↔ ∀ token ∈ start,
      (∃ steps symbol, t.containerAfter? steps token = some symbol ∧
        t.isMarkedGenerated symbol) ∨ ¬t.RunsInCircle token) ∧
    (t.Reachable → ∀ start, ∃ answer, t.generated .live start = .ok answer) := by
  refine ⟨fun token answer => ?_, fun start => ?_, fun hreachable => ?_⟩
  · -- The fuel of the search is enough for every walk that ends.
    rw [generated_some_eq_ok_iff, exists_generatedFrom_iff]
  · cases start with
    | none => simp [generated]
    | some token =>
      simp only [generated_some_eq_ok_iff, ← Option.isSome_iff_exists,
        isSome_isGenerated?_iff_circle, Option.mem_some_iff, forall_eq']
  · exact (intact_of_reachable hreachable).exists_generated

/-- Registers a type and edits it so that it contains itself. -/
def addSelfContaining : Registration Token := do
  let token ← addType { name := "C", namespaceName := "App", kind := .classType }
  edit .type token fun type => { type with containingType := some token }
  return token

/-- The table with a type that contains itself. -/
def selfContaining : SymbolTable where
  types := #[{ name := "C", namespaceName := "App", kind := .classType,
               containingType := some (.ofParts .type 1) }]

/-- A call and an edit lead to a table in which the search gives no answer, however long its walk
    is. -/
theorem endless_selfContaining :
    addSelfContaining {} = .ok (.ofParts .type 1) selfContaining ∧
      (¬∃ answer, selfContaining.generated .live (some (.ofParts .type 1)) = .ok answer) ∧
        ∀ fuel, selfContaining.generatedFrom fuel (.ofParts .type 1) = none := by
  have hcontainer : selfContaining.container? (.ofParts .type 1) = some (.ofParts .type 1) := rfl
  have hmarked : selfContaining.isMarkedGenerated (.ofParts .type 1) = false := rfl
  -- The type is its own container, so every step starts the same walk with less fuel.
  have hnone : ∀ fuel, selfContaining.generatedFrom fuel (.ofParts .type 1) = none := by
    intro fuel
    induction fuel with
    | zero => rfl
    | succ fuel ih => simp [generatedFrom, hmarked, hcontainer, ih]
  refine ⟨rfl, ?_, hnone⟩
  rintro ⟨answer, hanswer⟩
  rw [generated_some_eq_ok_iff, isGenerated?, hnone] at hanswer
  cases hanswer

end SymbolTable

end DefensiveCopy
