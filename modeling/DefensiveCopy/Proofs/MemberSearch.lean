import DefensiveCopy.SymbolTable.Ancestry
import Mathlib.Data.List.Chain

/-!
# Searching the members of a type and its base types

Overrides and implementations of a method are searched for in one order: the type itself first, then
its base types one after the other, and in each type the members as they are listed.

The base types are the longest list that follows the links from type to base type without meeting a
type twice, up to `Chain.limit` types (`SymbolTable.IsBaseChain`).  The members of a type are its
own, or those of its definition if it is constructed and has none (`SymbolTable.Lists`).  What a
search finds is the first member with a property in this order (`SymbolTable.IsFirstListed`).

## Key results

- `SymbolTable.isBaseChain_typeAndBases`: which types are searched
- `SymbolTable.find?_members_eq_iff`: a search through the members of types finds the first one
- `SymbolTable.find?_inheritedMethods`: the same for methods
-/

namespace DefensiveCopy

/-! ## Chains -/

section

variable {α : Type} {next : α → Option α} {fuel : Nat} {passed items : List α} {start item : α}

/-- The items are the ones from `start` on, each linked to the next one.  They avoid what is passed
    and each other, and they end only where a link is missing, leads to one of these or would make
    more than `fuel` items. -/
structure IsChainAvoiding (next : α → Option α) (fuel : Nat) (passed : List α) (start : α)
    (items : List α) : Prop where
  starts : ∀ first ∈ items.head?, first = start
  nonempty : 0 < fuel → start ∉ passed → items ≠ []
  linked : items.IsChain fun item following => next item = some following
  nodup : items.Nodup
  avoids : ∀ item ∈ items, item ∉ passed
  length_le : items.length ≤ fuel
  complete : ∀ last ∈ items.getLast?, ∀ following, next last = some following →
    following ∉ passed → following ∉ items → items.length = fuel

/-- A chain that avoids an item and starts where its link leads to goes on from that item. -/
theorem IsChainAvoiding.cons (h : IsChainAvoiding next fuel (start :: passed) item items)
    (hnew : start ∉ passed) (hnext : next start = some item) :
    IsChainAvoiding next (fuel + 1) passed start (start :: items) where
  starts := by simp
  nonempty := by simp
  linked := by
    refine List.isChain_cons.2 ⟨fun first hfirst => ?_, h.linked⟩
    rw [h.starts first hfirst, hnext]
  nodup := List.nodup_cons.2 ⟨fun hmem => h.avoids start hmem List.mem_cons_self, h.nodup⟩
  avoids := List.forall_mem_cons.2
    ⟨hnew, fun other hmem hpassed => h.avoids other hmem (List.mem_cons_of_mem _ hpassed)⟩
  length_le := Nat.succ_le_succ h.length_le
  complete := by
    intro last hlast following hfollowing hpassed hitems
    -- What the longer chain avoids, the shorter one avoids together with the start.
    have havoids : following ∉ start :: passed ∧ following ∉ items := by
      rw [List.mem_cons, not_or] at hitems ⊢
      exact ⟨⟨hitems.1, hpassed⟩, hitems.2⟩
    cases items with
    | nil =>
      -- The chain from the next item is empty, so there was no fuel for it.
      obtain rfl : start = last := by simpa using hlast
      obtain rfl : item = following := Option.some.inj (hnext.symm.trans hfollowing)
      have hfuel : ¬0 < fuel := fun hpos => h.nonempty hpos havoids.1 rfl
      have hlength : [start].length = 1 := rfl
      omega
    | cons first rest =>
      rw [List.getLast?_cons_cons] at hlast
      rw [List.length_cons, h.complete last hlast following hfollowing havoids.1 havoids.2]

/-- Following links gives such a chain. -/
private theorem isChainAvoiding_chainAvoiding [DecidableEq α] (next : α → Option α) (fuel : Nat)
    (passed : List α) (start : α) :
    IsChainAvoiding next fuel passed start (chainAvoiding next fuel passed start) := by
  induction fuel generalizing passed start with
  | zero => constructor <;> simp [chainAvoiding]
  | succ fuel ih =>
    rw [chainAvoiding]
    -- The chain stops before an item that it has passed.
    by_cases hmem : start ∈ passed
    · rw [if_pos hmem]
      constructor <;> simp [hmem]
    · rw [if_neg hmem]
      cases hnext : next start with
      | none => constructor <;> simp [hmem, hnext]
      | some item => exact (ih (start :: passed) item).cons hmem hnext

end

namespace SymbolTable

variable {t : SymbolTable} {type : Token}

/-! ## Base types -/

/-- The type has the base type, which may fail to resolve. -/
def HasBase (t : SymbolTable) (type base : Token) : Prop :=
  ∃ symbol, t.type? type = some symbol ∧ symbol.base = some base

/-- The types are the given one, if it resolves, and its base types, each after the type that has
    it.  They resolve, none is listed twice, and they end only where there is no other base type
    that resolves or where there would be more than 256 types. -/
structure IsBaseChain (t : SymbolTable) (type : Token) (types : List Token) : Prop where
  starts : ∀ first ∈ types.head?, first = type
  nonempty : t.resolves .type type → types ≠ []
  linked : types.IsChain t.HasBase
  resolves : ∀ token ∈ types, t.resolves .type token
  nodup : types.Nodup
  length_le : types.length ≤ 256
  complete : ∀ last ∈ types.getLast?, ∀ base, t.HasBase last base → t.resolves .type base →
    base ∉ types → types.length = 256

/-- A base type is followed if the type names it and it resolves. -/
theorem base?_eq_some_iff {base : Token} :
    t.base? type = some base ↔ t.HasBase type base ∧ t.resolves .type base := by
  simp only [base?, HasBase, Option.filter_eq_some_iff, Option.bind_eq_some_iff]

/-- The types that are searched for members are the base chain. -/
theorem isBaseChain_typeAndBases (t : SymbolTable) (type : Token) :
    t.IsBaseChain type (t.typeAndBases type) := by
  unfold typeAndBases
  by_cases hresolves : t.resolves .type type
  · rw [if_pos hresolves]
    have hchain := isChainAvoiding_chainAvoiding t.base? Chain.limit [] type
    have hlinked : (chain t.base? type).IsChain fun item following =>
        t.HasBase item following ∧ t.resolves .type following :=
      hchain.linked.imp fun _ _ => base?_eq_some_iff.1
    -- The type itself resolves, and a link to a base type is followed only if that one does.
    have hall : ∀ token ∈ chain t.base? type, t.resolves .type token := by
      refine hlinked.induction (t.resolves .type ·) _ (fun _ _ hlink _ => hlink.2) fun hne => ?_
      rwa [hchain.starts _ (List.head?_eq_some_head hne)]
    exact {
      starts := hchain.starts
      nonempty := fun _ => hchain.nonempty (by decide) List.not_mem_nil
      linked := hlinked.imp fun _ _ => And.left
      resolves := hall
      nodup := hchain.nodup
      length_le := hchain.length_le
      complete := fun last hlast base hbase hresolves =>
        hchain.complete last hlast base (base?_eq_some_iff.2 ⟨hbase, hresolves⟩) List.not_mem_nil }
  · rw [if_neg hresolves]
    constructor <;> simp [hresolves]

/-! ## Members -/

/-- The type lists the members: its own, or those of its definition if it is constructed and has
    none of its own. -/
inductive Lists (t : SymbolTable) (type : Token) : List Token → Prop where
  | own {symbol : TypeSymbol} (hget : t.type? type = some symbol)
    (hown : symbol.definition = none ∨ symbol.members ≠ []) : Lists t type symbol.members
  | shared {symbol generic : TypeSymbol} {definition : Token} (hget : t.type? type = some symbol)
    (hdefinition : symbol.definition = some definition) (hnone : symbol.members = [])
    (hgeneric : t.type? definition = some generic) : Lists t type generic.members

/-- There is only one list of members, and it is the one that is searched. -/
theorem members_of_lists {listed : List Token} (h : t.Lists type listed) :
    t.members type = listed := by
  cases h with
  | @own symbol hget hown =>
    rw [members, hget]
    rcases hown with hdefinition | hmembers
    · simp [hdefinition]
    · cases hdefinition : symbol.definition <;> simp [hdefinition, hmembers]
  | shared hget hdefinition hnone hgeneric => simp [members, hget, hdefinition, hnone, hgeneric]

/-- Members that are found are listed by the type. -/
theorem lists_of_members_ne_nil (h : t.members type ≠ []) : t.Lists type (t.members type) := by
  cases hget : t.type? type with
  | none => exact absurd (by simp [members, hget]) h
  | some symbol =>
    by_cases hown : symbol.definition = none ∨ symbol.members ≠ []
    · have hlists := Lists.own hget hown
      rwa [members_of_lists hlists]
    · -- Only a constructed type without members of its own is left.
      rw [not_or, not_not] at hown
      obtain ⟨definition, hdefinition⟩ := Option.ne_none_iff_exists'.1 hown.1
      cases hgeneric : t.type? definition with
      | none => exact absurd (by simp [members, hget, hdefinition, hown.2, hgeneric]) h
      | some generic =>
        have hlists := Lists.shared hget hdefinition hown.2 hgeneric
        rwa [members_of_lists hlists]

/-- The result of a search through the members that types list, one type after the other: the first
    member with the property, or nothing if no member has it. -/
inductive IsFirstListed (t : SymbolTable) (P : Token → Prop) (types : List Token) :
    Option Token → Prop where
  | found {before after front back : List Token} {owner member : Token}
    (htypes : types = before ++ owner :: after) (hlists : t.Lists owner (front ++ member :: back))
    (hmember : P member) (hfront : ∀ earlier ∈ front, ¬P earlier)
    (hbefore : ∀ derived ∈ before, ∀ listed, t.Lists derived listed →
      ∀ earlier ∈ listed, ¬P earlier) : IsFirstListed t P types (some member)
  | nothing (hnone : ∀ owner ∈ types, ∀ listed, t.Lists owner listed →
      ∀ member ∈ listed, ¬P member) : IsFirstListed t P types none

/-- A search through the members of types that succeeds has gone through all types before the one
    that it stops at. -/
private theorem find?_flatMap_members_eq_some_iff {p : Token → Bool} {types : List Token}
    {member : Token} :
    (types.flatMap t.members).find? p = some member ↔
      ∃ before owner after, types = before ++ owner :: after ∧
        (t.members owner).find? p = some member ∧ (before.flatMap t.members).find? p = none := by
  constructor
  · intro h
    induction types with
    | nil => cases h
    | cons type rest ih =>
      rw [List.flatMap_cons, List.find?_append, Option.or_eq_some_iff] at h
      rcases h with hhere | ⟨hnone, hrest⟩
      · exact ⟨[], type, rest, rfl, hhere, rfl⟩
      · -- The search has passed this type without a result.
        obtain ⟨before, owner, after, rfl, howner, hbefore⟩ := ih hrest
        refine ⟨type :: before, owner, after, rfl, howner, ?_⟩
        rw [List.flatMap_cons, List.find?_append, hnone, hbefore, Option.none_or]
  · rintro ⟨before, owner, after, rfl, howner, hbefore⟩
    rw [List.flatMap_append, List.flatMap_cons, List.find?_append, List.find?_append, hbefore,
      howner, Option.none_or, Option.some_or]

section

variable {p : Token → Bool} {P : Token → Prop} {types : List Token}
  (hp : ∀ token, p token ↔ P token)

include hp

/-- A search through the members of a type fails exactly if it lists none with the property. -/
private theorem find?_members_eq_none_iff :
    (t.members type).find? p = none ↔
      ∀ listed, t.Lists type listed → ∀ member ∈ listed, ¬P member := by
  rw [List.find?_eq_none]
  simp only [hp]
  constructor
  · intro hnone listed hlists
    rwa [← members_of_lists hlists]
  · intro hnone
    -- A type without members need not list anything, so the empty case stands apart.
    by_cases hmembers : t.members type = []
    · simp [hmembers]
    · exact hnone _ (lists_of_members_ne_nil hmembers)

/-- A search through several types fails exactly if none of them lists such a member. -/
private theorem find?_flatMap_members_eq_none_iff :
    (types.flatMap t.members).find? p = none ↔
      ∀ owner ∈ types, ∀ listed, t.Lists owner listed → ∀ member ∈ listed, ¬P member := by
  simp only [← find?_members_eq_none_iff hp, List.find?_eq_none, List.mem_flatMap]
  constructor
  · intro hnone owner howner member hmember
    exact hnone member ⟨owner, howner, hmember⟩
  · rintro hnone member ⟨owner, howner, hmember⟩
    exact hnone owner howner member hmember

/-- A search through the members of types finds the first one. -/
theorem find?_members_eq_iff {found : Option Token} :
    (types.flatMap t.members).find? p = found ↔ t.IsFirstListed P types found := by
  cases found with
  | none =>
    rw [find?_flatMap_members_eq_none_iff hp]
    constructor
    · exact .nothing
    · intro h
      cases h with
      | nothing hnone => exact hnone
  | some member =>
    rw [find?_flatMap_members_eq_some_iff]
    constructor
    · rintro ⟨before, owner, after, htypes, howner, hbefore⟩
      obtain ⟨hmember, front, back, hmembers, hfront⟩ := List.find?_eq_some_iff_append.1 howner
      -- The members that were searched are the ones that the type lists.
      have hlists : t.Lists owner (front ++ member :: back) := by
        rw [← hmembers]
        exact lists_of_members_ne_nil (by simp [hmembers])
      have hfront : ∀ earlier ∈ front, ¬P earlier := by
        intro earlier hearlier
        simpa [← hp] using hfront earlier hearlier
      exact .found htypes hlists ((hp member).1 hmember) hfront
        ((find?_flatMap_members_eq_none_iff hp).1 hbefore)
    · intro h
      cases h with
      | @found before after front back owner _ htypes hlists hmember hfront hbefore =>
        refine ⟨before, owner, after, htypes, ?_, (find?_flatMap_members_eq_none_iff hp).2 hbefore⟩
        -- A type lists its members in one way only.
        rw [members_of_lists hlists]
        refine List.find?_eq_some_iff_append.2 ⟨(hp member).2 hmember, front, back, rfl, ?_⟩
        intro earlier hearlier
        simpa [← hp] using hfront earlier hearlier

end

/-! ## Methods -/

/-- A search through the methods of a type and its base types is a search through their members that
    skips all but methods. -/
theorem find?_inheritedMethods (t : SymbolTable) (type : Token) (q : MethodSymbol → Bool) :
    ((t.inheritedMethods type).find? fun entry => q entry.2).map (·.1) =
      ((t.typeAndBases type).flatMap t.members).find? fun token => (t.method? token).any q := by
  have hentries : t.inheritedMethods type =
      ((t.typeAndBases type).flatMap t.members).filterMap t.methodWithToken? := by
    rw [List.filterMap_flatMap, inheritedMethods]
    rfl
  have hentry : ∀ token, ((t.methodWithToken? token).any fun entry => q entry.2) =
      (t.method? token).any q := by
    intro token
    simp only [methodWithToken?, Option.any_map]
  rw [hentries, List.find?_filterMap]
  simp only [hentry]
  -- What is found is a method, so its entry has its own token.
  cases hfind : ((t.typeAndBases type).flatMap t.members).find? fun token =>
      (t.method? token).any q with
  | none => rfl
  | some token =>
    obtain ⟨symbol, hsymbol, -⟩ := (Option.any_eq_true _ _).1 (List.find?_some hfind :)
    simp [methodWithToken?, hsymbol]

end SymbolTable

end DefensiveCopy
