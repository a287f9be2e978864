import DefensiveCopy.Proofs.Atomicity
import Mathlib.Logic.Relation
import Mathlib.Order.WellFounded

/-!
# Integrity of the symbol table

Symbols refer to each other by token, in both directions: a method names the type that declares it,
and the type lists the method among its members.  A table is intact (`SymbolTable.Intact`) if all
these references agree:

- every link of a symbol resolves,
- the members of a type and the parameters of a method are exactly the symbols that name it, in the
  order of their registration,
- a parameter has its position as its ordinal,
- no chain of base types, containing types, containing methods or overridden methods runs in a
  circle.

The two lists are treated as one (`Listing`), and so are the four chains (`ChainLink`).  Registering
a symbol keeps a table intact because the new token is named by nothing yet; editing a symbol keeps
it intact if the edit leaves the lists alone and redirects no chain into a circle.

## Key results

- `SymbolTable.wellFounded_redirect`: redirecting one link of a chain
- `SymbolTable.Intact.registered`: registering a symbol keeps a table intact
- `SymbolTable.Intact.modify`, `SymbolTable.Intact.modifyType`: editing a symbol, or a type, keeps a
  table intact if the edit is harmless
- `SymbolTable.admissible_of_isFresh`: what a call registers may be registered
-/

namespace DefensiveCopy

/-! ## Chains and listings -/

section

open SymbolTable

variable {kind : SymbolKind} {symbol : Symbol kind} {token place named : Token}

/-- The links that form chains. -/
inductive ChainLink where
  | base
  | containingType
  | containingMethod
  | overridden

namespace ChainLink

/-- The kind of the symbols that a chain leads to. -/
def targetKind : ChainLink → SymbolKind
  | .base | .containingType => .type
  | .containingMethod | .overridden => .method

/-- Where a chain leads from a symbol. -/
def target : ChainLink → (kind : SymbolKind) → Symbol kind → Option Token
  | .base, .type, symbol => TypeSymbol.base symbol
  | .containingType, .type, symbol => TypeSymbol.containingType symbol
  | .containingType, .method, symbol => MethodSymbol.containingType symbol
  | .containingType, .field, symbol => FieldSymbol.containingType symbol
  | .containingType, .property, symbol => PropertySymbol.containingType symbol
  | .containingType, .event, symbol => EventSymbol.containingType symbol
  | .containingMethod, .method, symbol => MethodSymbol.containingMethod symbol
  | .containingMethod, .parameter, symbol => ParameterSymbol.containingMethod symbol
  | .overridden, .method, symbol => MethodSymbol.overridden symbol
  | _, _, _ => none

/-- Where a chain leads is one of the links of the symbol. -/
private theorem mem_links {link : ChainLink} (h : link.target kind symbol = some named) :
    (link.targetKind, named) ∈ symbol.links kind := by
  cases link <;> cases kind <;> simp_all [ChainLink.target, targetKind, Symbol.links]

/-- Links back leave the chains alone. -/
private theorem target_linkedBack (link : ChainLink) {other : SymbolKind} (found : Symbol other) :
    link.target other (linkedBack kind symbol token place other found) =
      link.target other found := by
  cases link <;> cases other <;> rfl

end ChainLink

/-- Links back leave the links of a symbol alone. -/
private theorem SymbolTable.links_linkedBack {other : SymbolKind} (found : Symbol other) :
    (linkedBack kind symbol token place other found).links other = found.links other := by
  cases other <;> rfl

/-- The lists that registration fills in. -/
inductive Listing where
  | members
  | parameters

namespace Listing

/-- The kind of the symbols that have such a list. -/
def holderKind : Listing → SymbolKind
  | .members => .type
  | .parameters => .method

/-- The list of a symbol, if it has one. -/
def entries? : Listing → (kind : SymbolKind) → Symbol kind → Option (List Token)
  | .members, .type, symbol => some (TypeSymbol.members symbol)
  | .parameters, .method, symbol => some (MethodSymbol.parameters symbol)
  | _, _, _ => none

/-- The symbol in whose list a symbol stands. -/
def holder : Listing → (kind : SymbolKind) → Symbol kind → Option Token
  | .members => Symbol.home
  | .parameters => Symbol.owner

/-- The holder of a symbol is one of its links. -/
theorem mem_links {listing : Listing} (h : listing.holder kind symbol = some named) :
    (listing.holderKind, named) ∈ symbol.links kind := by
  cases listing <;> cases kind <;>
    simp_all [Listing.holder, holderKind, Symbol.home, Symbol.owner, Symbol.links]

/-- Links back leave it alone in whose list a symbol stands. -/
private theorem holder_linkedBack (listing : Listing) {other : SymbolKind} (found : Symbol other) :
    listing.holder other (linkedBack kind symbol token place other found) =
      listing.holder other found := by
  cases listing <;> cases other <;> rfl

/-- Links back append the new token to the list that it stands in. -/
private theorem entries?_linkedBack (listing : Listing) {other : SymbolKind}
    (found : Symbol other) :
    listing.entries? other (linkedBack kind symbol token place other found) =
      (listing.entries? other found).map fun entries =>
        if listing.holder kind symbol = some place then entries ++ [token] else entries := by
  cases listing <;> cases other <;> rfl

end Listing

/-- Links back leave ordinals alone. -/
private theorem Symbol.ordinal?_linkedBack {other : SymbolKind} (found : Symbol other) :
    (linkedBack kind symbol token place other found).ordinal? other = found.ordinal? other := by
  cases other <;> rfl

end

namespace SymbolTable

variable {t : SymbolTable} {kind : SymbolKind} {symbol : Symbol kind} {token place : Token}

/-! ## Reading symbols of all kinds -/

/-- What can be read off the symbol that a token addresses, whatever its kind. -/
def view {β : Type} (t : SymbolTable) (read : (kind : SymbolKind) → Symbol kind → Option β)
    (token : Token) : Option β :=
  token.kind?.bind fun kind => (t.get? kind token).bind (read kind)

section

variable {β : Type} {read : (kind : SymbolKind) → Symbol kind → Option β} {value : β}

/-- What is read off a token that resolves is read off its symbol. -/
theorem view_of_get? (h : t.get? kind token = some symbol) :
    t.view read token = read kind symbol := by
  rw [view, kind?_of_resolves (resolves_of_get? h), Option.bind_some, h, Option.bind_some]

/-- Something is read off a token exactly if it resolves to a symbol that it is read off. -/
theorem view_eq_some_iff :
    t.view read token = some value ↔
      ∃ kind symbol, t.get? kind token = some symbol ∧ read kind symbol = some value := by
  constructor
  · intro h
    obtain ⟨kind, -, h⟩ := Option.bind_eq_some_iff.1 h
    obtain ⟨symbol, hsymbol, hvalue⟩ := Option.bind_eq_some_iff.1 h
    exact ⟨kind, symbol, hsymbol, hvalue⟩
  · rintro ⟨kind, symbol, hsymbol, hvalue⟩
    rw [view_of_get? hsymbol, hvalue]

/-- Nothing is read off a token that does not resolve. -/
private theorem view_of_unresolved (h : ∀ kind, t.get? kind token = none) :
    t.view read token = none := by
  simp [view, h]

/-- Reading commutes with what is done to the value. -/
private theorem view_map {γ : Type} (f : β → γ) :
    t.view (fun kind symbol => (read kind symbol).map f) token = (t.view read token).map f := by
  simp only [view, Option.map_bind, Function.comp_def]

/-- After an edit, the edited symbol is read. -/
private theorem view_modify_same {f : Symbol kind → Symbol kind}
    (h : t.get? kind token = some symbol) :
    (t.modify kind token f).view read token = read kind (f symbol) := by
  apply view_of_get?
  rw [get?_modify_same, if_pos rfl, h, Option.map_some]

/-- After an edit, all other symbols are read as before. -/
private theorem view_modify_other {f : Symbol kind → Symbol kind} (hne : place ≠ token) :
    (t.modify kind token f).view read place = t.view read place := by
  have hget : ∀ other, (t.modify kind token f).get? other place = t.get? other place := by
    intro other
    by_cases heq : kind = other
    · subst heq
      rw [get?_modify_same, if_neg hne]
    · exact get?_modify_other t token f heq place
  simp only [view, hget]

/-- An edit that leaves alone what is read makes no difference. -/
private theorem view_modify_eq {f : Symbol kind → Symbol kind} (h : t.get? kind token = some symbol)
    (hread : read kind (f symbol) = read kind symbol) :
    (t.modify kind token f).view read place = t.view read place := by
  by_cases heq : place = token
  · rw [heq, view_modify_same h, hread, view_of_get? h]
  · exact view_modify_other heq

end

/-! ## Redirecting chains -/

/-- A chain without circles does not come back to an item that it has left. -/
theorem not_transGen_of_wellFounded {α : Type} {next : α → Option α}
    (h : WellFounded fun target source => next source = some target) (item : α) :
    ¬Relation.TransGen (fun source target => next source = some target) item item := by
  intro hcircle
  exact h.transGen.irrefl.irrefl item (Relation.transGen_swap.1 hcircle)

/-- A chain that has no circles keeps none if one item is redirected, to an item from which the
    chain does not come back to it. -/
theorem wellFounded_redirect {α : Type} {next next' : α → Option α} {item : α}
    (h : WellFounded fun target source => next source = some target)
    (hsame : ∀ source, source ≠ item → next' source = next source)
    (hback : ∀ target, next' item = some target →
      ¬Relation.ReflTransGen (fun source target => next source = some target) target item) :
    WellFounded fun target source => next' source = some target := by
  -- Items that do not lead to the redirected one keep their chain.
  have haway : ∀ source,
      ¬Relation.ReflTransGen (fun source target => next source = some target) source item →
        Acc (fun target source => next' source = some target) source := by
    intro source
    induction source using h.induction with
    | _ source ih =>
      intro hsource
      have hne : source ≠ item := fun heq => hsource (heq ▸ .refl)
      refine ⟨_, fun target htarget => ?_⟩
      rw [hsame source hne] at htarget
      exact ih target htarget fun hreaches => hsource (.head htarget hreaches)
  have hitem : Acc (fun target source => next' source = some target) item :=
    ⟨_, fun target htarget => haway target (hback target htarget)⟩
  -- All others keep their chain as far as the redirected item.
  refine ⟨fun source => ?_⟩
  induction source using h.induction with
  | _ source ih =>
    by_cases heq : source = item
    · exact heq ▸ hitem
    · refine ⟨_, fun target htarget => ih target ?_⟩
      rwa [hsame source heq] at htarget

/-! ## Intact tables -/

/-- All references between the symbols of a table agree. -/
structure Intact (t : SymbolTable) : Prop where
  /-- Every link of a symbol resolves. -/
  links_resolve : ∀ {kind : SymbolKind} {token : Token} {symbol : Symbol kind},
    t.get? kind token = some symbol → ∀ link ∈ symbol.links kind, t.resolves link.1 link.2
  /-- A list has exactly the symbols that name its holder. -/
  mem_entries_iff : ∀ (listing : Listing) {place : Token} {entries : List Token},
    t.view listing.entries? place = some entries →
      ∀ entry, entry ∈ entries ↔ t.view listing.holder entry = some place
  /-- Within one kind, the entries of a list have increasing rows. -/
  entries_increasing : ∀ (listing : Listing) {place : Token} {entries : List Token},
    t.view listing.entries? place = some entries →
      entries.Pairwise fun earlier later => earlier.kind? = later.kind? → earlier.row < later.row
  /-- The ordinal of a parameter is its position. -/
  ordinal_eq : ∀ {place : Token} {entries : List Token},
    t.view Listing.parameters.entries? place = some entries →
      ∀ i entry, entries[i]? = some entry → t.view Symbol.ordinal? entry = some i
  /-- No chain runs in a circle. -/
  chain_wellFounded : ∀ link : ChainLink,
    WellFounded fun target source => t.view link.target source = some target

/-- A symbol that may be registered has nothing in its lists, and if it is a parameter, it has the
    position that it will get. -/
structure Admissible (t : SymbolTable) (kind : SymbolKind) (symbol : Symbol kind) : Prop where
  entries_eq : ∀ {listing : Listing} {entries : List Token},
    listing.entries? kind symbol = some entries → entries = []
  ordinal_eq : ∀ {method : Token} {entries : List Token},
    symbol.owner kind = some method → t.view Listing.parameters.entries? method = some entries →
      symbol.ordinal? kind = some entries.length

/-- With this base type, a type makes no circle: it is the one that the type has, or it is there and
    does not derive from the type. -/
def MayDerive (t : SymbolTable) (type : Token) (symbol : TypeSymbol) (base : Token) : Prop :=
  symbol.base = some base ∨ t.resolves .type base ∧ ¬Relation.ReflTransGen
    (fun source target => t.view ChainLink.base.target source = some target) base type

/-- Nothing resolves in the empty table. -/
theorem get?_empty (kind : SymbolKind) (token : Token) :
    ({} : SymbolTable).get? kind token = none := by
  have harena : ({} : SymbolTable).arena kind = #[] := by cases kind <;> rfl
  simp [get?, harena]

/-- The empty table is intact. -/
theorem intact_empty : Intact {} := by
  -- Nothing resolves, so no field of a symbol can be read.
  have hview : ∀ {β : Type} (read : (kind : SymbolKind) → Symbol kind → Option β) (token : Token),
      ({} : SymbolTable).view read token = none :=
    fun read token => view_of_unresolved fun kind => get?_empty kind token
  constructor
  · intro kind token symbol h
    simp [get?_empty] at h
  · intro listing place entries h
    simp [hview] at h
  · intro listing place entries h
    simp [hview] at h
  · intro place entries h
    simp [hview] at h
  · exact fun link => ⟨fun _ => ⟨_, fun _ h => by simp [hview] at h⟩⟩

namespace Registers

variable (h : t.Registers kind symbol token)

include h

/-- The token of a new symbol is of its kind. -/
theorem kind?_eq : token.kind? = some kind := kind?_of_tokenAfter? h.token_eq

/-- The token of a new symbol did not resolve. -/
theorem not_resolves (other : SymbolKind) : ¬t.resolves other token := by
  simp [resolves, get?_of_tokenAfter? h.token_eq]

/-- Every symbol of the kind has a smaller row than the new one. -/
theorem row_lt {entry : Token} {found : Symbol kind} (hget : t.get? kind entry = some found) :
    entry.row < token.row := by
  have hlast := index?_of_tokenAfter? h.token_eq
  obtain ⟨i, hindex, hi⟩ := Option.bind_eq_some_iff.1 hget
  obtain ⟨hlt, -⟩ := Array.getElem?_eq_some_iff.1 hi
  simp only [Token.index?, Option.ite_none_right_eq_some, Option.some.injEq] at hindex hlast
  have hcount : t.count kind = (t.arena kind).size := rfl
  -- A row is one more than a place, and the new place is behind all others.
  have hentry : entry.row ≠ 0 := by simpa [Token.is] using (Bool.and_eq_true_iff.1 hindex.1).2
  omega

section

variable {β : Type} {read read' : (kind : SymbolKind) → Symbol kind → Option β} {value : β}

/-- Nothing was read off the token of a new symbol. -/
private theorem view_before : t.view read token = none :=
  view_of_unresolved (get?_of_tokenAfter? h.token_eq)

/-- What is read off the new token is read off the new symbol. -/
private theorem view_new : (t.registered kind symbol token).view read token = read kind symbol :=
  view_of_get? (get?_registered_new h.token_eq)

/-- What is read off an old symbol is what was read off it, up to what links back do to it. -/
private theorem view_old (hne : place ≠ token) (hread : ∀ {other} (found : Symbol other),
      read other (linkedBack kind symbol token place other found) = read' other found) :
    (t.registered kind symbol token).view read place = t.view read' place := by
  unfold view
  congr 1
  funext other
  rw [get?_registered_old h.token_eq hne, Option.bind_map]
  congr 1
  funext found
  exact hread found

/-- What was read off a symbol can be read off it after the registration. -/
private theorem view_of_some (hread : ∀ {other} (found : Symbol other),
      read other (linkedBack kind symbol token place other found) = read other found)
    (hvalue : t.view read place = some value) :
    (t.registered kind symbol token).view read place = some value := by
  have hne : place ≠ token := by
    rintro rfl
    rw [h.view_before] at hvalue
    cases hvalue
  rw [h.view_old hne hread, hvalue]

end

/-- What a list has after the registration: nothing if it belongs to the new symbol, and else what
    it had, with the new symbol behind if it stands in this list. -/
private theorem entries_cases (hadmissible : t.Admissible kind symbol) {listing : Listing}
    {entries : List Token}
    (hentries : (t.registered kind symbol token).view listing.entries? place = some entries) :
    (place = token ∧ entries = []) ∨ ∃ old, t.view listing.entries? place = some old ∧
      entries = if listing.holder kind symbol = some place then old ++ [token] else old := by
  by_cases hplace : place = token
  · -- The list of the new symbol is empty, since an admissible symbol brings none.
    rw [hplace, h.view_new] at hentries
    exact .inl ⟨hplace, hadmissible.entries_eq hentries⟩
  · rw [h.view_old hplace listing.entries?_linkedBack, view_map,
      Option.map_eq_some_iff] at hentries
    obtain ⟨old, hold, heq⟩ := hentries
    exact .inr ⟨old, hold, heq.symm⟩

end Registers

namespace Intact

/-- A holder that some symbol names is there. -/
theorem resolves_holder (h : t.Intact) {listing : Listing} {entry : Token}
    (hholder : t.view listing.holder entry = some place) :
    t.resolves listing.holderKind place := by
  obtain ⟨_, _, hget, hholder⟩ := view_eq_some_iff.1 hholder
  exact h.links_resolve hget _ (Listing.mem_links hholder)

/-- Where a chain leads is there. -/
private theorem resolves_target (h : t.Intact) {link : ChainLink} {source target : Token}
    (htarget : t.view link.target source = some target) : t.resolves link.targetKind target := by
  obtain ⟨_, _, hget, htarget⟩ := view_eq_some_iff.1 htarget
  exact h.links_resolve hget _ (ChainLink.mem_links htarget)

/-! ## Registering a symbol -/

section

variable (h : t.Intact) (hregisters : t.Registers kind symbol token)

include h hregisters

/-- After a registration every link resolves: the new symbol was looked up, the others keep theirs.
    -/
private theorem links_resolve_registered {other : SymbolKind} {found : Symbol other}
    (hfound : (t.registered kind symbol token).get? other place = some found) :
    ∀ link ∈ found.links other, (t.registered kind symbol token).resolves link.1 link.2 := by
  have htoken := hregisters.token_eq
  intro link hlink
  apply resolves_registered htoken
  obtain ⟨rfl, heq, hsymbol⟩ | ⟨old, -, hold, rfl⟩ := get?_registered_cases htoken hfound
  · subst heq hsymbol
    exact hregisters.links_resolve link hlink
  · rw [links_linkedBack] at hlink
    exact h.links_resolve hold link hlink

/-- After a registration a list still has exactly the symbols that name its holder. -/
private theorem mem_entries_registered (hadmissible : t.Admissible kind symbol) (listing : Listing)
    {entries : List Token}
    (hentries : (t.registered kind symbol token).view listing.entries? place = some entries)
    (entry : Token) :
    entry ∈ entries ↔
      (t.registered kind symbol token).view listing.holder entry = some place := by
  have hnew : ∀ {place}, listing.holder kind symbol = some place →
      t.resolves listing.holderKind place :=
    fun hholder => hregisters.links_resolve _ (Listing.mem_links hholder)
  obtain ⟨rfl, rfl⟩ | ⟨old, hold, rfl⟩ := hregisters.entries_cases hadmissible hentries
  · -- No symbol names the new token.
    refine iff_of_false List.not_mem_nil fun hholder => ?_
    by_cases hentry : entry = place
    · rw [hentry, hregisters.view_new] at hholder
      exact hregisters.not_resolves _ (hnew hholder)
    · rw [hregisters.view_old hentry listing.holder_linkedBack] at hholder
      exact hregisters.not_resolves _ (h.resolves_holder hholder)
  · -- The new token is in the list if it names the holder; all others are there as before.
    have hmem := h.mem_entries_iff listing hold
    by_cases hentry : entry = token
    · have hnot : token ∉ old := by simp [hmem, hregisters.view_before]
      rw [hentry, hregisters.view_new]
      split <;> simp_all
    · rw [hregisters.view_old hentry listing.holder_linkedBack, ← hmem]
      split <;> simp [hentry]

/-- The new symbol has the largest row of its kind, so at the end of a list it keeps rows
    increasing. -/
private theorem entries_increasing_registered (hadmissible : t.Admissible kind symbol)
    (listing : Listing)
    {entries : List Token}
    (hentries : (t.registered kind symbol token).view listing.entries? place = some entries) :
    entries.Pairwise fun earlier later =>
      earlier.kind? = later.kind? → earlier.row < later.row := by
  obtain ⟨-, rfl⟩ | ⟨old, hold, rfl⟩ := hregisters.entries_cases hadmissible hentries
  · exact .nil
  · have hincreasing := h.entries_increasing listing hold
    split
    · refine List.pairwise_append.2 ⟨hincreasing, List.pairwise_singleton _ _, ?_⟩
      intro entry hentry later hlater hkind
      obtain rfl := List.mem_singleton.1 hlater
      -- The entry resolves, and it is of the kind of the new symbol.
      obtain ⟨other, _, hget, -⟩ :=
        view_eq_some_iff.1 ((h.mem_entries_iff listing hold entry).1 hentry)
      have hother := kind?_of_resolves (resolves_of_get? hget)
      have hnew := hregisters.kind?_eq
      obtain rfl : other = kind := Option.some.inj (hother.symm.trans (hkind.trans hnew))
      exact hregisters.row_lt hget
    · exact hincreasing

/-- After a registration the ordinal of a parameter is its position. -/
private theorem ordinal_eq_registered (hadmissible : t.Admissible kind symbol)
    {entries : List Token}
    (hentries : (t.registered kind symbol token).view Listing.parameters.entries? place =
      some entries) (i : Nat) (entry : Token) (hentry : entries[i]? = some entry) :
    (t.registered kind symbol token).view Symbol.ordinal? entry = some i := by
  obtain ⟨-, rfl⟩ | ⟨old, hold, rfl⟩ := hregisters.entries_cases hadmissible hentries
  · cases hentry
  have hkept : old[i]? = some entry →
      (t.registered kind symbol token).view Symbol.ordinal? entry = some i := fun hbefore =>
    hregisters.view_of_some Symbol.ordinal?_linkedBack (h.ordinal_eq hold i entry hbefore)
  split at hentry
  · next howner =>
    by_cases hi : i < old.length
    · rw [List.getElem?_append_left hi] at hentry
      exact hkept hentry
    · -- The new parameter stands behind all others, and it has their number as its ordinal.
      rw [List.getElem?_append_right (by omega)] at hentry
      obtain ⟨hlast, heq⟩ : i - old.length = 0 ∧ token = entry := by
        simpa using List.getElem?_singleton.symm.trans hentry
      have hlength : i = old.length := by omega
      rw [← heq, hregisters.view_new, hlength]
      exact hadmissible.ordinal_eq howner hold
  · exact hkept hentry

/-- A registration makes no circle, since nothing leads to the new symbol. -/
private theorem chain_wellFounded_registered (link : ChainLink) :
    WellFounded fun target source =>
      (t.registered kind symbol token).view link.target source = some target := by
  have hsame : ∀ source, source ≠ token →
      (t.registered kind symbol token).view link.target source = t.view link.target source :=
    fun source hne => hregisters.view_old hne link.target_linkedBack
  refine wellFounded_redirect (h.chain_wellFounded link) hsame fun target htarget hreaches => ?_
  rw [hregisters.view_new] at htarget
  -- Nothing leads to the new token, so only the token itself reaches it.
  rcases hreaches.cases_tail with heq | ⟨source, -, hsource⟩
  · subst heq
    exact hregisters.not_resolves _
      (hregisters.links_resolve _ (ChainLink.mem_links htarget))
  · exact hregisters.not_resolves _ (h.resolves_target hsource)

end

/-- Registering a symbol keeps a table intact. -/
theorem registered (h : t.Intact) (hregisters : t.Registers kind symbol token)
    (hadmissible : t.Admissible kind symbol) : (t.registered kind symbol token).Intact where
  links_resolve := links_resolve_registered h hregisters
  mem_entries_iff listing _ _ := mem_entries_registered h hregisters hadmissible listing
  entries_increasing listing _ _ := entries_increasing_registered h hregisters hadmissible listing
  ordinal_eq := ordinal_eq_registered h hregisters hadmissible
  chain_wellFounded := chain_wellFounded_registered h hregisters

/-! ## Editing a symbol -/

/-- Editing a symbol keeps a table intact if the edit leaves alone its lists, the list that it
    stands in and its ordinal, if all links resolve after it, and if it leads no chain back. -/
theorem modify (h : t.Intact) {f : Symbol kind → Symbol kind}
    (hget : t.get? kind token = some symbol)
    (hentries : ∀ listing : Listing,
      listing.entries? kind (f symbol) = listing.entries? kind symbol)
    (hholder : ∀ listing : Listing, listing.holder kind (f symbol) = listing.holder kind symbol)
    (hordinal : (f symbol).ordinal? kind = symbol.ordinal? kind)
    (hlinks : ∀ link ∈ (f symbol).links kind, t.resolves link.1 link.2)
    (hchain : ∀ (link : ChainLink) (target : Token), link.target kind (f symbol) = some target →
      link.target kind symbol = some target ∨
        ¬Relation.ReflTransGen (fun source target => t.view link.target source = some target)
          target token) :
    (t.modify kind token f).Intact where
  links_resolve := by
    intro other place found hfound link hlink
    rw [resolves_modify]
    by_cases heq : kind = other
    · subst heq
      rw [get?_modify_same] at hfound
      split at hfound
      · -- This is the edited symbol, whose links resolve by assumption.
        next hplace =>
        subst hplace
        rw [hget, Option.map_some, Option.some.injEq] at hfound
        exact hlinks link (hfound ▸ hlink)
      · exact h.links_resolve hfound link hlink
    · rw [get?_modify_other t token f heq] at hfound
      exact h.links_resolve hfound link hlink
  mem_entries_iff listing place entries hfound entry := by
    -- Neither the lists nor the symbols that stand in them say anything new.
    rw [view_modify_eq hget (hentries listing)] at hfound
    rw [view_modify_eq hget (hholder listing)]
    exact h.mem_entries_iff listing hfound entry
  entries_increasing listing place entries hfound := by
    rw [view_modify_eq hget (hentries listing)] at hfound
    exact h.entries_increasing listing hfound
  ordinal_eq {place entries} hfound i entry hentry := by
    rw [view_modify_eq hget (hentries _)] at hfound
    rw [view_modify_eq hget hordinal]
    exact h.ordinal_eq hfound i entry hentry
  chain_wellFounded link := by
    -- Only the chain from the edited symbol takes another way.
    refine wellFounded_redirect (h.chain_wellFounded link)
      (fun source => view_modify_other) fun target htarget => ?_
    rw [view_modify_same hget] at htarget
    rcases hchain link target htarget with hsame | hback
    · -- A link that stays does not come back either, or there would be a circle already.
      intro hreaches
      have hold : t.view link.target token = some target := (view_of_get? hget).trans hsame
      exact not_transGen_of_wellFounded (h.chain_wellFounded link) token (.head' hold hreaches)
    · exact hback

/-- Editing a type keeps a table intact if the edit leaves its members and its other links alone
    and makes no circle of base types. -/
theorem modifyType {type : Token} {found : TypeSymbol} {f : TypeSymbol → TypeSymbol}
    (h : t.Intact) (hget : t.type? type = some found)
    (hmembers : (f found).members = found.members)
    (hcontaining : (f found).containingType = found.containingType)
    (hdefinition : (f found).definition = found.definition)
    (hmodule : (f found).module = found.module)
    (hbase : ∀ base, (f found).base = some base → t.MayDerive type found base) :
    (t.modify .type type f).Intact := by
  have hlinks := h.links_resolve hget
  refine Intact.modify h hget (fun listing => ?_) (fun listing => ?_) rfl ?_ ?_
  · cases listing with
    | members => exact congrArg some hmembers
    | parameters => rfl
  · cases listing <;> rfl
  · -- Only the base type may be a new link, and that one is asked for.
    simp only [Symbol.links, List.forall_mem_append, List.forall_mem_map] at hlinks ⊢
    obtain ⟨⟨⟨hbases, hcontainers⟩, hdefinitions⟩, hmodules⟩ := hlinks
    rw [hcontaining, hdefinition, hmodule]
    refine ⟨⟨⟨fun base hmem => ?_, hcontainers⟩, hdefinitions⟩, hmodules⟩
    rcases hbase base (Option.mem_toList.1 hmem) with hsame | ⟨hresolves, -⟩
    · exact hbases base (Option.mem_toList.2 hsame)
    · exact hresolves
  · -- Only the chain of base types can change.
    intro link target htarget
    cases link with
    | base => exact (hbase target htarget).imp id And.right
    | containingType => exact .inl (hcontaining.symm.trans htarget)
    | containingMethod => cases htarget
    | overridden => cases htarget

/-- Linking accessors keeps a table intact: what a method belongs to is no link of it. -/
theorem linked (h : t.Intact) (accessors : List Token) (owner : Token) :
    (t.linked accessors owner).Intact := by
  unfold SymbolTable.linked
  induction accessors generalizing t with
  | nil => exact h
  | cons accessor rest ih =>
    refine ih ?_
    dsimp only
    cases hget : t.get? .method accessor with
    | none =>
      -- There is nothing to edit.
      rw [modify_eq_self fun symbol hsymbol => absurd (hget.symm.trans hsymbol) nofun]
      exact h
    | some method =>
      have hlinks := h.links_resolve hget
      exact h.modify hget (fun listing => by cases listing <;> rfl)
        (fun listing => by cases listing <;> rfl) rfl hlinks
        fun link target htarget => .inl (by cases link <;> exact htarget)

end Intact

/-! ## Calls -/

/-- A symbol without lists that is no parameter may be registered. -/
private theorem admissible_of_plain
    (hentries : ∀ listing : Listing, listing.entries? kind symbol = none)
    (howner : symbol.owner kind = none) : t.Admissible kind symbol where
  entries_eq h := by simp [hentries] at h
  ordinal_eq h := by simp [howner] at h

/-- A type without members may be registered. -/
private theorem admissible_type {type : TypeSymbol} (h : type.members = []) :
    t.Admissible .type type where
  entries_eq {listing _} hentries := by
    cases listing with
    | members => exact (Option.some.inj hentries).symm.trans h
    | parameters => cases hentries
  ordinal_eq := nofun

/-- A method without parameters may be registered. -/
private theorem admissible_method {method : MethodSymbol} (h : method.parameters = []) :
    t.Admissible .method method where
  entries_eq {listing _} hentries := by
    cases listing with
    | members => cases hentries
    | parameters => exact (Option.some.inj hentries).symm.trans h
  ordinal_eq := nofun

/-- A parameter may be registered with the next position of its method as its ordinal. -/
private theorem admissible_parameter {parameter : ParameterSymbol} {method : Token}
    {owner : MethodSymbol}
    (hmethod : parameter.containingMethod = some method) (howner : t.method? method = some owner)
    (hordinal : parameter.ordinal = owner.parameters.length) :
    t.Admissible .parameter parameter where
  entries_eq {listing _} hentries := by cases listing <;> cases hentries
  ordinal_eq {place entries} hplace hentries := by
    obtain rfl : method = place := Option.some.inj (hmethod.symm.trans hplace)
    rw [view_of_get? howner] at hentries
    cases hentries
    exact congrArg some hordinal

/-- The symbol of a call may be registered, if the call is handed a fresh one. -/
theorem admissible_of_isFresh {call : RegistrationCall} (hfresh : call.IsFresh)
    (hsymbol : call.symbol? t = some ⟨kind, symbol⟩) : t.Admissible kind symbol := by
  cases call with
  | addType type =>
    cases hsymbol
    exact admissible_type hfresh
  | construct definition typeArguments =>
    -- The members stay with the definition.
    obtain ⟨_, -, heq⟩ := Option.map_eq_some_iff.1 hsymbol
    cases heq
    exact admissible_type rfl
  | nullableOf core underlying =>
    obtain ⟨_, -, heq⟩ := Option.map_eq_some_iff.1 hsymbol
    cases heq
    exact admissible_type rfl
  | addMethod method =>
    cases hsymbol
    exact admissible_method hfresh.1
  | addParameter method parameter =>
    obtain ⟨owner, howner, heq⟩ := Option.map_eq_some_iff.1 hsymbol
    cases heq
    exact admissible_parameter rfl howner rfl
  | addAssembly _ | addModule _ | addField _ | addProperty _ | addEvent _ | addSlot _ =>
    cases hsymbol
    exact admissible_of_plain (fun listing => by cases listing <;> rfl) rfl

end SymbolTable

end DefensiveCopy
