import DefensiveCopy.SymbolTable.Registration

/-!
# Steps of a registration

A registration is a sequence of steps: lookups, then edits of the symbols that get a link back, then
storing the new symbol.  Here each step is described by what it needs and what it does to the table,
in the form in which it stands in a sequence: the sequence succeeds exactly when the step finds what
it names and the rest succeeds from the table that the step leaves.

Failure is described by how far it reaches: a step that only looks things up (`LooksUp`) leaves the
table as it was in any case, a step that `FailsClean` does so when it fails, and a step that is
`Total` never fails.

Longer sequences are followed with triples (`Follows`): what holds before a step, what holds after
it if it succeeds, and what holds after it if it fails.

## Key results

- `SymbolTable.bind_eq_ok`, `SymbolTable.bind_eq_error`: taking a sequence of steps apart
- `SymbolTable.linkAccessors_eq_ok`, `SymbolTable.joinType_eq_ok`: the links back
- `SymbolTable.LooksUp.bind`, `SymbolTable.FailsClean.bind`: failures of a sequence
- `SymbolTable.Follows.bind`, `SymbolTable.Follows.mapM`: triples of a sequence
-/

namespace DefensiveCopy.SymbolTable

variable {α β : Type} {t after : SymbolTable} {error : SymbolError} {kind : SymbolKind}

/-! ## Sequences of steps -/

/-- A sequence succeeds exactly if its first step does and the rest succeeds from there. -/
theorem bind_eq_ok {step : Registration α} {next : α → Registration β} {result : β} :
    (step >>= next) t = .ok result after ↔
      ∃ value between, step t = .ok value between ∧ next value between = .ok result after := by
  simp only [bind, EStateM.bind]
  cases step t <;> simp [and_assoc]

/-- A sequence fails at its first step, or the first step succeeds and the rest fails. -/
theorem bind_eq_error {step : Registration α} {next : α → Registration β} :
    (step >>= next) t = .error error after ↔
      step t = .error error after ∨
        ∃ value between, step t = .ok value between ∧ next value between = .error error after := by
  simp only [bind, EStateM.bind]
  cases step t <;> simp [and_assoc]

/-- Handing a value on changes nothing. -/
private theorem pure_eq_ok {value result : α} :
    (pure value : Registration α) t = .ok result after ↔ value = result ∧ t = after := by
  simp [pure, EStateM.pure]

/-- What fails does not succeed. -/
theorem throw_ne_ok {result : α} : (throw error : Registration α) t ≠ .ok result after := by
  intro h
  cases h

/-- A step that succeeds hands its value and its table to the steps that follow. -/
theorem bind_of_eq_ok {step : Registration α} {value : α} (h : step t = .ok value after)
    (next : α → Registration β) : (step >>= next) t = next value after := by
  simp only [bind, EStateM.bind, h]

/-- A step without a value hands its table to the steps that follow. -/
theorem unit_bind_of_eq_ok {step : Registration Unit} (h : step t = .ok () after)
    (next : Unit → Registration β) : (step >>= next) t = next () after :=
  bind_of_eq_ok h next

/-- Reading the table hands it to the steps that follow. -/
theorem get_bind (next : SymbolTable → Registration β) :
    ((get : Registration SymbolTable) >>= next) t = next t t := rfl

/-! ## Which tokens resolve -/

/-- A token that resolves to a symbol of a kind is of that kind. -/
theorem kind?_of_resolves {token : Token} (h : t.resolves kind token) :
    token.kind? = some kind := by
  obtain ⟨symbol, hget⟩ := Option.isSome_iff_exists.1 h
  obtain ⟨i, hindex, -⟩ := Option.bind_eq_some_iff.1 hget
  rw [Token.eq_ofParts_of_index? hindex, Token.kind?_ofParts]

/-- A token under which a symbol is found resolves. -/
theorem resolves_of_get? {token : Token} {symbol : Symbol kind}
    (h : t.get? kind token = some symbol) : t.resolves kind token :=
  Option.isSome_of_eq_some h

/-- An edit changes no token's resolving. -/
@[simp] theorem resolves_modify {other : SymbolKind} {edited token : Token}
    {f : Symbol kind → Symbol kind} :
    (t.modify kind edited f).resolves other token = t.resolves other token := by
  unfold resolves
  by_cases hne : kind = other
  · subst hne
    rw [get?_modify_same]
    split <;> simp
  · rw [get?_modify_other t edited f hne]

/-! ## Lookups in a sequence -/

/-- A lookup succeeds exactly if the token resolves, and changes nothing. -/
private theorem require_eq_ok {token : Token} {u : Unit} :
    require kind token t = .ok u after ↔ t.resolves kind token ∧ after = t := by
  unfold require
  split
  · next h => simp [h, eq_comm]
  · next h => simp [h]

/-- Looking up several tokens succeeds exactly if all of them resolve, and changes nothing. -/
theorem requireAll_eq_ok {tokens : List Token} {u : Unit} :
    requireAll kind tokens t = .ok u after ↔
      (∀ token ∈ tokens, t.resolves kind token) ∧ after = t := by
  unfold requireAll
  induction tokens generalizing t with
  | nil =>
    rw [List.forM, pure_eq_ok]
    exact ⟨fun ⟨_, h⟩ => ⟨nofun, h.symm⟩, fun ⟨_, h⟩ => ⟨rfl, h.symm⟩⟩
  | cons token rest ih =>
    -- A lookup leaves the table alone, so the rest is looked up in the same table.
    simp only [List.forM, bind_eq_ok, require_eq_ok, List.forall_mem_cons]
    constructor
    · rintro ⟨_, between, ⟨htoken, rfl⟩, hrest⟩
      obtain ⟨hall, rfl⟩ := ih.1 hrest
      exact ⟨⟨htoken, hall⟩, rfl⟩
    · rintro ⟨⟨htoken, hall⟩, rfl⟩
      exact ⟨(), _, ⟨htoken, rfl⟩, ih.2 ⟨hall, rfl⟩⟩

/-- What is looked up and not found is one of the tokens. -/
theorem requireAll_eq_error {tokens : List Token}
    (h : requireAll kind tokens t = .error error after) :
    ∃ token ∈ tokens, error = .unresolved token := by
  unfold requireAll at h
  induction tokens generalizing t with
  | nil => cases h
  | cons token rest ih =>
    rcases bind_eq_error.1 h with h | ⟨_, between, -, hrest⟩
    · -- The first token that fails is named in the error.
      unfold require at h
      split at h
      · cases h
      · cases h
        exact ⟨token, List.mem_cons_self, rfl⟩
    · obtain ⟨found, hmem, heq⟩ := ih hrest
      exact ⟨found, List.mem_cons_of_mem _ hmem, heq⟩

/-- A sequence that starts with lookups goes on in the same table if all tokens resolve. -/
theorem requireAll_bind_eq_ok {tokens : List Token} {next : Unit → Registration β} {result : β} :
    (requireAll kind tokens >>= next) t = .ok result after ↔
      (∀ token ∈ tokens, t.resolves kind token) ∧ next () t = .ok result after := by
  rw [bind_eq_ok]
  constructor
  · rintro ⟨_, _, hstep, hnext⟩
    obtain ⟨hall, rfl⟩ := requireAll_eq_ok.1 hstep
    exact ⟨hall, hnext⟩
  · rintro ⟨hall, hnext⟩
    exact ⟨(), t, requireAll_eq_ok.2 ⟨hall, rfl⟩, hnext⟩

/-- Taking the next token succeeds while rows last, and changes nothing. -/
theorem nextToken_eq_ok {token : Token} :
    nextToken kind t = .ok token after ↔
      tokenAfter? kind (t.count kind) = some token ∧ after = t := by
  unfold nextToken
  split
  · next h => simp [h, eq_comm]
  · next h => simp [h]

/-- A sequence that starts with the next token goes on in the same table. -/
theorem nextToken_bind_eq_ok {next : Token → Registration β} {result : β} :
    (nextToken kind >>= next) t = .ok result after ↔
      ∃ token, tokenAfter? kind (t.count kind) = some token ∧ next token t = .ok result after := by
  rw [bind_eq_ok]
  constructor
  · rintro ⟨token, _, hstep, hnext⟩
    obtain ⟨htoken, rfl⟩ := nextToken_eq_ok.1 hstep
    exact ⟨token, htoken, hnext⟩
  · rintro ⟨token, htoken, hnext⟩
    exact ⟨token, t, nextToken_eq_ok.2 ⟨htoken, rfl⟩, hnext⟩

/-- An ordinal is accepted below the limit, and nothing changes. -/
theorem requireOrdinal_eq_ok {method : Token} {ordinal : Nat} {result : Unit} :
    requireOrdinal method ordinal t = .ok result after ↔ ordinal < ordinalLimit ∧ after = t := by
  unfold requireOrdinal
  split
  · next h => simp [h, eq_comm]
  · next h => simp [h]

/-- A sequence that starts with the check of an ordinal goes on in the same table. -/
theorem requireOrdinal_bind_eq_ok {method : Token} {ordinal : Nat}
    {next : Unit → Registration β} {result : β} :
    (requireOrdinal method ordinal >>= next) t = .ok result after ↔
      ordinal < ordinalLimit ∧ next () t = .ok result after := by
  rw [bind_eq_ok]
  constructor
  · rintro ⟨_, _, hstep, hnext⟩
    obtain ⟨hordinal, rfl⟩ := requireOrdinal_eq_ok.1 hstep
    exact ⟨hordinal, hnext⟩
  · rintro ⟨hordinal, hnext⟩
    exact ⟨(), t, requireOrdinal_eq_ok.2 ⟨hordinal, rfl⟩, hnext⟩

/-- The kind that a token must have to name what a field is associated with: an event token names an
    event, and every other token has to name a property. -/
def associatedKind (token : Token) : SymbolKind :=
  if token.kind? = some .event then .event else .property

/-- What a field is associated with is found exactly if it resolves to a property or an event, as
    its token says. -/
theorem requireAssociated_eq_ok {token : Token} {u : Unit} :
    requireAssociated token t = .ok u after ↔
      t.resolves (associatedKind token) token ∧ after = t := by
  unfold associatedKind
  by_cases hevent : token.kind? = some .event
  · have hstep : requireAssociated token = require .event token := by
      simp [requireAssociated, hevent]
    rw [hstep, if_pos hevent]
    exact require_eq_ok
  · rw [if_neg hevent]
    by_cases hproperty : token.kind? = some .property
    · have hstep : requireAssociated token = require .property token := by
        simp [requireAssociated, hproperty]
      rw [hstep]
      exact require_eq_ok
    · -- A token of a third kind is refused, and it does not resolve to a property either.
      have hstep : requireAssociated token = throw (.unresolved token) := by
        unfold requireAssociated
        split <;> first | contradiction | rfl
      have hnot : ¬t.resolves .property token := fun h => hproperty (kind?_of_resolves h)
      rw [hstep]
      exact ⟨fun h => absurd h throw_ne_ok, fun h => absurd h.1 hnot⟩

/-- A sequence that starts with this lookup goes on in the same table. -/
theorem requireAssociated_bind_eq_ok {associated : Option Token} {next : Unit → Registration β}
    {result : β} :
    (associated.toList.forM requireAssociated >>= next) t = .ok result after ↔
      (∀ token ∈ associated, t.resolves (associatedKind token) token) ∧
        next () t = .ok result after := by
  rw [bind_eq_ok]
  cases associated with
  | none =>
    constructor
    · rintro ⟨_, _, hstep, hnext⟩
      obtain ⟨-, rfl⟩ := pure_eq_ok.1 hstep
      exact ⟨nofun, hnext⟩
    · rintro ⟨-, hnext⟩
      exact ⟨(), t, rfl, hnext⟩
  | some token =>
    -- With one token the loop is a single step.
    have hlist : (some token).toList.forM requireAssociated t =
        (requireAssociated token >>= fun _ => pure ()) t := rfl
    simp only [hlist, bind_eq_ok, requireAssociated_eq_ok, pure_eq_ok]
    constructor
    · rintro ⟨_, _, ⟨_, _, ⟨htoken, rfl⟩, -, rfl⟩, hnext⟩
      exact ⟨fun _ hmem => Option.mem_some_iff.1 hmem ▸ htoken, hnext⟩
    · rintro ⟨htoken, hnext⟩
      exact ⟨(), t, ⟨(), t, ⟨htoken token rfl, rfl⟩, trivial, rfl⟩, hnext⟩

/-! ## Edits in a sequence -/

/-- The table with the symbol at an optional place edited. -/
def modifyAt (t : SymbolTable) (kind : SymbolKind) (place : Option Token)
    (f : Symbol kind → Symbol kind) : SymbolTable :=
  match place with
  | some token => t.modify kind token f
  | none => t

/-- The table with a member appended to its containing type, if it has one. -/
def joined (t : SymbolTable) (type : Option Token) (member : Token) : SymbolTable :=
  t.modifyAt .type type fun symbol => { symbol with members := symbol.members ++ [member] }

/-- The table with accessors linked to the property or event that they belong to. -/
def linked (t : SymbolTable) (accessors : List Token) (owner : Token) : SymbolTable :=
  accessors.foldl (fun t accessor =>
    t.modify .method accessor fun symbol => { symbol with associated := some owner }) t

/-- Linking accessors changes no token's resolving. -/
theorem resolves_linked {accessors : List Token} {owner token : Token} :
    (t.linked accessors owner).resolves kind token = t.resolves kind token := by
  unfold linked
  induction accessors generalizing t with
  | nil => rfl
  | cons accessor rest ih => rw [List.foldl_cons, ih, resolves_modify]

/-- An edit succeeds exactly if the token resolves. -/
theorem edit_eq_ok {token : Token} {f : Symbol kind → Symbol kind} {u : Unit} :
    edit kind token f t = .ok u after ↔
      t.resolves kind token ∧ after = t.modify kind token f := by
  unfold edit
  simp only [bind_eq_ok, require_eq_ok]
  constructor
  · rintro ⟨_, _, ⟨htoken, rfl⟩, h⟩
    cases h
    exact ⟨htoken, rfl⟩
  · rintro ⟨htoken, rfl⟩
    exact ⟨(), t, ⟨htoken, rfl⟩, rfl⟩

/-- A sequence that starts with an edit goes on in the edited table. -/
theorem edit_bind_eq_ok {token : Token} {f : Symbol kind → Symbol kind}
    {next : Unit → Registration β} {result : β} :
    (edit kind token f >>= next) t = .ok result after ↔
      t.resolves kind token ∧ next () (t.modify kind token f) = .ok result after := by
  rw [bind_eq_ok]
  constructor
  · rintro ⟨_, _, hstep, hnext⟩
    obtain ⟨htoken, rfl⟩ := edit_eq_ok.1 hstep
    exact ⟨htoken, hnext⟩
  · rintro ⟨htoken, hnext⟩
    exact ⟨(), _, edit_eq_ok.2 ⟨htoken, rfl⟩, hnext⟩

/-- A member is listed exactly if its containing type resolves, or if it has none. -/
theorem joinType_eq_ok {type : Option Token} {member : Token} {u : Unit} :
    joinType type member t = .ok u after ↔
      (∀ token ∈ type, t.resolves .type token) ∧ after = t.joined type member := by
  cases type with
  | none => exact pure_eq_ok.trans ⟨fun h => ⟨nofun, h.2.symm⟩, fun h => ⟨rfl, h.2.symm⟩⟩
  | some token =>
    refine edit_eq_ok.trans (and_congr_left fun _ => ?_)
    simp

/-- A sequence that starts with listing a member goes on in the table with the member listed. -/
theorem joinType_bind_eq_ok {type : Option Token} {member : Token} {next : Unit → Registration β}
    {result : β} :
    (joinType type member >>= next) t = .ok result after ↔
      (∀ token ∈ type, t.resolves .type token) ∧
        next () (t.joined type member) = .ok result after := by
  rw [bind_eq_ok]
  constructor
  · rintro ⟨_, _, hstep, hnext⟩
    obtain ⟨htype, rfl⟩ := joinType_eq_ok.1 hstep
    exact ⟨htype, hnext⟩
  · rintro ⟨htype, hnext⟩
    exact ⟨(), _, joinType_eq_ok.2 ⟨htype, rfl⟩, hnext⟩

/-- Accessors are linked exactly if all of them resolve. -/
theorem linkAccessors_eq_ok {accessors : List Token} {owner : Token} {u : Unit} :
    linkAccessors accessors owner t = .ok u after ↔
      (∀ token ∈ accessors, t.resolves .method token) ∧ after = t.linked accessors owner := by
  unfold linkAccessors linked
  induction accessors generalizing t with
  | nil => exact pure_eq_ok.trans ⟨fun h => ⟨nofun, h.2.symm⟩, fun h => ⟨rfl, h.2.symm⟩⟩
  | cons accessor rest ih =>
    -- Linking the first accessor makes no difference to whether the others resolve.
    rw [List.forM, edit_bind_eq_ok, ih, List.forall_mem_cons, List.foldl_cons, and_assoc]
    simp only [resolves_modify]

/-- A sequence that ends with storing a symbol always succeeds. -/
theorem store_bind_eq_ok {symbol : Symbol kind} {token result : Token} :
    (store kind symbol >>= fun _ => pure token) t = .ok result after ↔
      token = result ∧ after = t.push kind symbol := by
  rw [bind_eq_ok]
  constructor
  · rintro ⟨_, _, hstep, hnext⟩
    cases hstep
    obtain ⟨rfl, rfl⟩ := pure_eq_ok.1 hnext
    exact ⟨rfl, rfl⟩
  · rintro ⟨rfl, rfl⟩
    exact ⟨(), _, rfl, rfl⟩

/-! ## Failures -/

/-- The step leaves the table as it was, whether it succeeds or fails. -/
def LooksUp (step : Registration α) : Prop :=
  ∀ t, (∀ value after, step t = .ok value after → after = t) ∧
    ∀ error after, step t = .error error after → after = t

/-- The step leaves the table as it was when it fails. -/
def FailsClean (step : Registration α) : Prop :=
  ∀ t error after, step t = .error error after → after = t

/-- The step never fails. -/
def Total (step : Registration α) : Prop :=
  ∀ t error after, step t ≠ .error error after

/-- After steps that only look things up, a sequence fails as cleanly as the rest of it. -/
theorem LooksUp.bind {step : Registration α} {next : α → Registration β} (hstep : LooksUp step)
    (hnext : ∀ value, FailsClean (next value)) : FailsClean (step >>= next) := by
  intro t error after h
  rcases bind_eq_error.1 h with h | ⟨value, between, hok, h⟩
  · exact (hstep t).2 error after h
  · -- The rest leaves the table as the lookup left it, which is as it was.
    rw [hnext value between error after h]
    exact (hstep t).1 value between hok

/-- A sequence fails cleanly if its first step does and nothing after it fails. -/
theorem FailsClean.bind {step : Registration α} {next : α → Registration β}
    (hstep : FailsClean step) (hnext : ∀ value, Total (next value)) :
    FailsClean (step >>= next) := by
  intro t error after h
  rcases bind_eq_error.1 h with h | ⟨value, between, -, h⟩
  · exact hstep t error after h
  · exact absurd h (hnext value between error after)

/-- What never fails fails cleanly. -/
theorem Total.failsClean {step : Registration α} (h : Total step) : FailsClean step :=
  fun t error after herror => absurd herror (h t error after)

/-- An error that is raised changes nothing. -/
theorem failsClean_throw (error : SymbolError) : FailsClean (throw error : Registration α) := by
  intro t error' after h
  cases h
  rfl

/-- Storing a symbol never fails. -/
theorem total_store (symbol : Symbol kind) (token : Token) :
    Total (store kind symbol >>= fun _ => pure token) := nofun

/-- Reading the table leaves it alone. -/
theorem looksUp_get : LooksUp (get : Registration SymbolTable) := by
  intro t
  constructor
  · intro value after h
    cases h
    rfl
  · exact nofun

/-- Resolving a token leaves the table alone. -/
private theorem looksUp_require (kind : SymbolKind) (token : Token) :
    LooksUp (require kind token) := by
  intro t
  refine ⟨fun value after h => (require_eq_ok.1 h).2, fun error after h => ?_⟩
  unfold require at h
  split at h <;> cases h
  rfl

/-- Taking the next token leaves the table alone, whether there is one or not. -/
theorem looksUp_nextToken (kind : SymbolKind) : LooksUp (nextToken kind) := by
  intro t
  unfold nextToken
  split
  · exact ⟨fun _ _ h => by cases h; rfl, nofun⟩
  · exact ⟨nofun, fun _ _ h => by cases h; rfl⟩

/-- Checking an ordinal leaves the table alone. -/
theorem looksUp_requireOrdinal (method : Token) (ordinal : Nat) :
    LooksUp (requireOrdinal method ordinal) := by
  intro t
  unfold requireOrdinal
  split
  · exact ⟨fun _ _ h => by cases h; rfl, nofun⟩
  · exact ⟨nofun, fun _ _ h => by cases h; rfl⟩

/-- Looking up one thing after the other is looking up. -/
theorem looksUp_forM {check : Token → Registration Unit} (hcheck : ∀ token, LooksUp (check token))
    (tokens : List Token) : LooksUp (tokens.forM check) := by
  induction tokens with
  | nil => exact fun t => ⟨fun _ _ h => by cases h; rfl, nofun⟩
  | cons token rest ih =>
    intro t
    constructor
    · intro value after h
      obtain ⟨_, between, htoken, hrest⟩ := bind_eq_ok.1 h
      rw [(ih between).1 value after hrest]
      exact (hcheck token t).1 _ between htoken
    · intro error after h
      -- A failure comes from this token, or from a later one with the table unchanged so far.
      rcases bind_eq_error.1 h with h | ⟨_, between, htoken, hrest⟩
      · exact (hcheck token t).2 error after h
      · rw [(ih between).2 error after hrest]
        exact (hcheck token t).1 _ between htoken

/-- Resolving several tokens leaves the table alone. -/
theorem looksUp_requireAll (kind : SymbolKind) (tokens : List Token) :
    LooksUp (requireAll kind tokens) :=
  looksUp_forM (looksUp_require kind) tokens

/-- Resolving what a field is associated with leaves the table alone, whatever kind it has. -/
theorem looksUp_requireAssociated (token : Token) : LooksUp (requireAssociated token) := by
  unfold requireAssociated
  split
  · exact looksUp_require _ token
  · exact looksUp_require _ token
  · exact fun t => ⟨fun _ _ h => absurd h throw_ne_ok, failsClean_throw _ t⟩

/-- An edit fails only at the lookup in front of it. -/
theorem failsClean_edit (kind : SymbolKind) (token : Token) (f : Symbol kind → Symbol kind) :
    FailsClean (edit kind token f) :=
  (looksUp_require kind token).bind fun _ => Total.failsClean nofun

/-- Listing a member fails only if the type is not there, and then changes nothing. -/
theorem failsClean_joinType (type : Option Token) (member : Token) :
    FailsClean (joinType type member) := by
  cases type with
  | none => exact Total.failsClean nofun
  | some token => exact failsClean_edit _ _ _

/-! ## Triples -/

section

variable {P : SymbolTable → Prop} {E : SymbolError → SymbolTable → Prop} {step : Registration α}
  {next : α → Registration β} {Q : β → SymbolTable → Prop}

/-- From a table with `P`, the step ends with a value and a table as `Q` says, or it fails with an
    error and a table as `E` says. -/
def Follows (E : SymbolError → SymbolTable → Prop) (P : SymbolTable → Prop)
    (step : Registration α) (Q : α → SymbolTable → Prop) : Prop :=
  ∀ t, P t → (∀ value after, step t = .ok value after → Q value after) ∧
    ∀ error after, step t = .error error after → E error after

/-- Triples of two steps compose if what holds after the first one is what the second one needs. -/
theorem Follows.bind {between : α → SymbolTable → Prop} (hstep : Follows E P step between)
    (hnext : ∀ value, Follows E (between value) (next value) Q) :
    Follows E P (step >>= next) Q := by
  intro t ht
  obtain ⟨hok, herror⟩ := hstep t ht
  constructor
  · intro result after h
    obtain ⟨value, middle, hvalue, hresult⟩ := bind_eq_ok.1 h
    exact (hnext value middle (hok value middle hvalue)).1 result after hresult
  · intro error after h
    rcases bind_eq_error.1 h with h | ⟨value, middle, hvalue, hresult⟩
    · exact herror error after h
    · exact (hnext value middle (hok value middle hvalue)).2 error after hresult

/-- Handing a value on keeps what holds. -/
theorem Follows.pure {value : β} (h : ∀ t, P t → Q value t) : Follows E P (pure value) Q := by
  intro t ht
  refine ⟨fun result after hrun => ?_, nofun⟩
  obtain ⟨rfl, rfl⟩ := pure_eq_ok.1 hrun
  exact h t ht

/-- A triple holds as well if less is asked for after the step. -/
theorem Follows.weaken {Q Q' : α → SymbolTable → Prop} (h : Follows E P step Q)
    (hweaker : ∀ value t, Q value t → Q' value t) : Follows E P step Q' :=
  fun t ht => ⟨fun value after hrun => hweaker value after ((h t ht).1 value after hrun),
    (h t ht).2⟩

/-- A step may be followed under a fact that its precondition has. -/
theorem Follows.of_fact {fact : Prop} {Q : α → SymbolTable → Prop}
    (h : fact → Follows E P step Q) : Follows E (fun t => P t ∧ fact) step Q :=
  fun t ht => h ht.2 t ht.1

/-- A step may be followed from each of several preconditions. -/
theorem Follows.of_exists {ι : Type} {P : ι → SymbolTable → Prop} {Q : α → SymbolTable → Prop}
    (h : ∀ i, Follows E (P i) step Q) : Follows E (fun t => ∃ i, P i t) step Q := by
  rintro t ⟨i, ht⟩
  exact h i t ht

/-- What a step does to each of several properties, it does to all of them. -/
theorem Follows.all {ι : Type} [Inhabited ι] {P : ι → SymbolTable → Prop}
    {Q : ι → α → SymbolTable → Prop} (h : ∀ i, Follows E (P i) step (Q i)) :
    Follows E (fun t => ∀ i, P i t) step fun value t => ∀ i, Q i value t := by
  intro t ht
  constructor
  · exact fun value after hrun i => (h i t (ht i)).1 value after hrun
  · exact (h default t (ht default)).2

/-- The steps after reading the table may be followed with what holds of the table that was read. -/
theorem Follows.get_bind {next : SymbolTable → Registration β}
    (h : ∀ t, P t → Follows E P (next t) Q) : Follows E P (get >>= next) Q :=
  fun t ht => h t ht t ht

/-- Doing the same for all items keeps what doing it for one item keeps. -/
theorem Follows.mapM {f : α → Registration β} {items : List α}
    (h : ∀ item ∈ items, Follows E P (f item) fun _ => P) :
    Follows E P (items.mapM f) fun _ => P := by
  induction items with
  | nil =>
    rw [List.mapM_nil]
    exact .pure fun _ ht => ht
  | cons item rest ih =>
    obtain ⟨hitem, hrest⟩ := List.forall_mem_cons.1 h
    rw [List.mapM_cons]
    exact hitem.bind fun _ => (ih hrest).bind fun _ => .pure fun _ ht => ht

end

end DefensiveCopy.SymbolTable
