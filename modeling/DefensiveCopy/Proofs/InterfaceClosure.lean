import DefensiveCopy.SymbolTable.Interfaces
import Mathlib.Data.List.Basic
import Mathlib.Logic.Relation

/-!
# All interfaces of a type

The interfaces of a type are collected by a walk that keeps the interfaces still to be looked at in
one list.  An interface counts as visited when it is taken from the list, not when it is put there,
so the list may hold an interface several times, and interfaces that run in circles put themselves
there again.

The walk is compared with two things.  As a set, what it collects is everything that interface links
lead to (`SymbolTable.NamesInterface`), with no bound on the number of links.  As a list, it is the
depth-first preorder (`SymbolTable.preorder`), which is defined by recursion: an interface is
followed by what the interfaces that it names lead to, and then by what the rest of its list leads
to.

## Key results

- `SymbolTable.visit_induction`: the cases of the walk
- `SymbolTable.visitInterfaces_append`: the walk through two lists, one after the other
- `SymbolTable.visitInterfaces_eq_preorder`: the walk is the recursive one
- `SymbolTable.mem_visitInterfaces_iff`: the walk collects what is reachable
- `SymbolTable.allInterfaces_exact`: the same for all interfaces of a type
-/

namespace DefensiveCopy.SymbolTable

variable {t : SymbolTable} {type interface : Token} {visited pending : List Token}

/-! ## Interface links -/

/-- The type lists the interface among those that it names. -/
def NamesInterface (t : SymbolTable) (type interface : Token) : Prop :=
  ∃ symbol, t.type? type = some symbol ∧ interface ∈ symbol.interfaces

/-- The interfaces of a type are those that it names. -/
private theorem mem_interfacesOf_iff :
    interface ∈ t.interfacesOf type ↔ t.NamesInterface type interface := by
  unfold interfacesOf NamesInterface
  cases t.type? type <;> simp

/-- A type that does not resolve names no interface. -/
private theorem interfacesOf_of_not_resolves (h : ¬t.resolves .type type) :
    t.interfacesOf type = [] := by
  have hnone : t.type? type = none := by simpa [resolves, type?] using h
  simp [interfacesOf, hnone]

/-! ## The recursive preorder -/

/-- The number of registered types that are not visited. -/
def unvisited (t : SymbolTable) (visited : List Token) : Nat :=
  (t.typeTokens.filter (· ∉ visited)).length

/-- The more has been visited, the less is left. -/
theorem unvisited_le {after : List Token} (h : visited ⊆ after) :
    t.unvisited after ≤ t.unvisited visited := by
  apply List.Sublist.length_le
  apply List.monotone_filter_right
  intro token hafter
  have hnot : token ∉ after := by simpa using hafter
  simpa using fun hvisited => hnot (h hvisited)

/-- The depth-first preorder: the interfaces in `visited`, then those that `pending` leads to, from
    left to right.  An interface that is not visited yet is followed by what the interfaces that it
    names lead to. -/
def preorder (t : SymbolTable) (visited : List Token) :
    List Token → { after : List Token // visited ⊆ after }
  | [] => ⟨visited, List.Subset.refl visited⟩
  | interface :: rest =>
    if interface ∈ visited then t.preorder visited rest
    else
      let ⟨named, hnamed⟩ := t.preorder (visited ++ [interface]) (t.interfacesOf interface)
      let ⟨after, hafter⟩ := t.preorder named rest
      ⟨after, fun _ h => hafter (hnamed (List.mem_append_left _ h))⟩
termination_by pending => (t.unvisited visited, pending.length)
decreasing_by
  · exact Prod.Lex.right _ (Nat.lt_succ_self _)
  · next hnew =>
    have hle := t.unvisited_le (List.subset_append_left visited [interface])
    rw [Prod.lex_def]
    by_cases hresolves : t.resolves .type interface
    · exact .inl (length_filter_notMem_lt (mem_typeTokens_of_resolves hresolves) hnew)
    · -- An interface that does not resolve names none.
      have hshorter : (t.interfacesOf interface).length < (interface :: rest).length := by
        simp [interfacesOf_of_not_resolves hresolves]
      omega
  · have hle := t.unvisited_le (List.Subset.trans (List.subset_append_left _ _) hnamed)
    have hshorter : rest.length < (interface :: rest).length := by simp
    rw [Prod.lex_def]
    omega

/-! ## The walk -/

/-- An interface that has been visited is passed over. -/
private theorem visitInterfaces_of_mem (h : interface ∈ visited) :
    t.visitInterfaces visited (interface :: pending) = t.visitInterfaces visited pending := by
  rw [visitInterfaces, if_pos h]

/-- A new interface puts the ones that it names in front of all others, also if it does not
    resolve. -/
private theorem visitInterfaces_of_notMem (h : interface ∉ visited) :
    t.visitInterfaces visited (interface :: pending) =
      t.visitInterfaces (visited ++ [interface]) (t.interfacesOf interface ++ pending) := by
  rw [visitInterfaces, if_neg h]
  split
  · rfl
  · next hresolves => rw [interfacesOf_of_not_resolves hresolves, List.nil_append]

/-- What holds when nothing is left to look at and is carried back over each step of the walk holds
    of every walk. -/
theorem visit_induction (t : SymbolTable) {motive : List Token → List Token → Prop}
    (nil : ∀ visited, motive visited [])
    (mem : ∀ visited interface pending, interface ∈ visited → motive visited pending →
      motive visited (interface :: pending))
    (notMem : ∀ visited interface pending, interface ∉ visited →
      motive (visited ++ [interface]) (t.interfacesOf interface ++ pending) →
        motive visited (interface :: pending))
    (visited pending : List Token) : motive visited pending := by
  fun_induction visitInterfaces t visited pending with
  | case1 visited => exact nil visited
  | case2 visited interface pending hmem ih => exact mem visited interface pending hmem ih
  | case3 visited interface pending hnew _ ih => exact notMem visited interface pending hnew ih
  | case4 visited interface pending hnew hresolves ih =>
    apply notMem visited interface pending hnew
    -- What does not resolve is visited all the same, and names no interface.
    rwa [interfacesOf_of_not_resolves hresolves]

/-- The walk through two lists is the walk through the second after the walk through the first. -/
theorem visitInterfaces_append (t : SymbolTable) (visited first second : List Token) :
    t.visitInterfaces visited (first ++ second) =
      t.visitInterfaces (t.visitInterfaces visited first) second := by
  induction visited, first using t.visit_induction with
  | nil visited => rw [List.nil_append, visitInterfaces]
  | mem visited interface pending hmem ih =>
    rw [List.cons_append, visitInterfaces_of_mem hmem, visitInterfaces_of_mem hmem, ih]
  | notMem visited interface pending hnew ih =>
    rw [List.cons_append, visitInterfaces_of_notMem hnew, visitInterfaces_of_notMem hnew,
      ← List.append_assoc, ih]

/-- The walk collects the interfaces in the order of the recursive preorder. -/
theorem visitInterfaces_eq_preorder (t : SymbolTable) (visited pending : List Token) :
    t.visitInterfaces visited pending = (t.preorder visited pending).1 := by
  fun_induction preorder t visited pending with
  | case1 visited => rw [visitInterfaces]
  | case2 visited interface rest hmem ih => rw [visitInterfaces_of_mem hmem, ih]
  | case3 visited interface rest hnew named hnamed heq after hafter heq' ihnamed ihafter =>
    -- What the interface names stands in front of the rest, so it is looked at first.
    rw [visitInterfaces_of_notMem hnew, visitInterfaces_append, ihnamed, heq, ihafter, heq']

/-! ## What the walk collects -/

/-- The walk forgets nothing that has been visited. -/
private theorem subset_visitInterfaces (t : SymbolTable) (visited pending : List Token) :
    visited ⊆ t.visitInterfaces visited pending := by
  rw [visitInterfaces_eq_preorder]
  exact (t.preorder visited pending).2

/-- The walk enters each interface once. -/
private theorem nodup_visitInterfaces (h : visited.Nodup) :
    (t.visitInterfaces visited pending).Nodup := by
  induction visited, pending using t.visit_induction with
  | nil visited => rwa [visitInterfaces]
  | mem visited interface pending hmem ih =>
    rw [visitInterfaces_of_mem hmem]
    exact ih h
  | notMem visited interface pending hnew ih =>
    rw [visitInterfaces_of_notMem hnew]
    apply ih
    -- The interface that is entered is a new one.
    have hother : ∀ before ∈ visited, before ≠ interface := by
      rintro before hbefore rfl
      exact hnew hbefore
    simpa [List.nodup_append, h] using hother

/-- The walk comes to everything that is to be looked at. -/
private theorem pending_subset_visitInterfaces (t : SymbolTable) (visited pending : List Token) :
    pending ⊆ t.visitInterfaces visited pending := by
  induction visited, pending using t.visit_induction with
  | nil visited => exact List.nil_subset _
  | mem visited interface pending hmem ih =>
    rw [visitInterfaces_of_mem hmem]
    exact List.cons_subset.2 ⟨t.subset_visitInterfaces visited pending hmem, ih⟩
  | notMem visited interface pending hnew ih =>
    rw [visitInterfaces_of_notMem hnew]
    have hhere := t.subset_visitInterfaces (visited ++ [interface])
      (t.interfacesOf interface ++ pending) (List.mem_append_right _ List.mem_cons_self)
    exact List.cons_subset.2 ⟨hhere, (List.append_subset.1 ih).2⟩

/-- The walk stops at nothing: what a new interface names is collected with it. -/
private theorem mem_visitInterfaces_of_namesInterface {named : Token}
    (hmem : interface ∈ t.visitInterfaces visited pending) (hnew : interface ∉ visited)
    (hnamed : t.NamesInterface interface named) : named ∈ t.visitInterfaces visited pending := by
  induction visited, pending using t.visit_induction with
  | nil visited =>
    rw [visitInterfaces] at hmem
    exact absurd hmem hnew
  | mem visited next pending hnext ih =>
    rw [visitInterfaces_of_mem hnext] at hmem ⊢
    exact ih hmem hnew
  | notMem visited next pending hnext ih =>
    rw [visitInterfaces_of_notMem hnext] at hmem ⊢
    by_cases heq : interface = next
    · -- It has just been entered, and what it names is to be looked at.
      subst heq
      apply t.pending_subset_visitInterfaces
      exact List.mem_append_left _ (mem_interfacesOf_iff.2 hnamed)
    · exact ih hmem (by simp [hnew, heq])

/-- Whatever the walk collects was visited before or is reached from what was to be looked at. -/
private theorem reaches_of_mem_visitInterfaces (h : interface ∈ t.visitInterfaces visited pending) :
    interface ∈ visited ∨
      ∃ start ∈ pending, Relation.ReflTransGen t.NamesInterface start interface := by
  induction visited, pending using t.visit_induction with
  | nil visited =>
    rw [visitInterfaces] at h
    exact .inl h
  | mem visited next pending hnext ih =>
    rw [visitInterfaces_of_mem hnext] at h
    rcases ih h with hvisited | ⟨start, hstart, hreaches⟩
    · exact .inl hvisited
    · exact .inr ⟨start, List.mem_cons_of_mem _ hstart, hreaches⟩
  | notMem visited next pending hnext ih =>
    rw [visitInterfaces_of_notMem hnext] at h
    rcases ih h with hvisited | ⟨start, hstart, hreaches⟩
    · -- It was visited before, or is the interface that has just been entered.
      rcases List.mem_append.1 hvisited with hbefore | hhere
      · exact .inl hbefore
      · obtain rfl := List.mem_singleton.1 hhere
        exact .inr ⟨interface, List.mem_cons_self, .refl⟩
    · -- What the interface names is one link further than the interface itself.
      rcases List.mem_append.1 hstart with hnamed | hrest
      · exact .inr ⟨next, List.mem_cons_self, .head (mem_interfacesOf_iff.1 hnamed) hreaches⟩
      · exact .inr ⟨start, List.mem_cons_of_mem _ hrest, hreaches⟩

/-- A walk that starts with nothing visited collects exactly what is reachable. -/
theorem mem_visitInterfaces_iff :
    interface ∈ t.visitInterfaces [] pending ↔
      ∃ start ∈ pending, Relation.ReflTransGen t.NamesInterface start interface := by
  constructor
  · intro h
    rcases reaches_of_mem_visitInterfaces h with hvisited | hreaches
    · cases hvisited
    · exact hreaches
  · rintro ⟨start, hstart, hreaches⟩
    -- By induction on the way: nothing was visited at first, so every step is taken.
    induction hreaches with
    | refl => exact t.pending_subset_visitInterfaces [] pending hstart
    | tail _ hnamed ih => exact mem_visitInterfaces_of_namesInterface ih List.not_mem_nil hnamed

/-! ## All interfaces of a type -/

/-- The walk goes through the interfaces of a type and of its base types as through one list. -/
private theorem allInterfaces_eq_visitInterfaces (t : SymbolTable) (type : Token) :
    t.allInterfaces type =
      t.visitInterfaces [] ((t.typeAndBases type).flatMap t.interfacesOf) := by
  -- One walk after the other, through the types in turn.
  have hfold : ∀ (owners visited : List Token),
      owners.foldl (fun visited owner => t.visitInterfaces visited (t.interfacesOf owner)) visited =
        t.visitInterfaces visited (owners.flatMap t.interfacesOf) := by
    intro owners
    induction owners with
    | nil =>
      intro visited
      rw [List.flatMap_nil, visitInterfaces, List.foldl_nil]
    | cons owner rest ih =>
      intro visited
      rw [List.foldl_cons, ih, List.flatMap_cons, visitInterfaces_append]
  exact hfold (t.typeAndBases type) []

/-- All interfaces of a type are listed once.  They are the ones that interface links lead to, any
    number of them, from the interfaces that the type or one of its base types names, whether the
    last one resolves or not.  Their order is the depth-first preorder through these types, most
    derived first, and through the interfaces that each of them names, from left to right. -/
theorem allInterfaces_exact (t : SymbolTable) (type : Token) :
    (t.allInterfaces type).Nodup ∧
    (∀ interface, interface ∈ t.allInterfaces type ↔
      ∃ owner ∈ t.typeAndBases type, ∃ named, t.NamesInterface owner named ∧
        Relation.ReflTransGen t.NamesInterface named interface) ∧
    t.allInterfaces type = (t.preorder [] ((t.typeAndBases type).flatMap t.interfacesOf)).1 := by
  rw [allInterfaces_eq_visitInterfaces]
  refine ⟨nodup_visitInterfaces List.nodup_nil, fun interface => ?_,
    t.visitInterfaces_eq_preorder [] _⟩
  rw [mem_visitInterfaces_iff]
  simp only [List.mem_flatMap, mem_interfacesOf_iff]
  constructor
  · rintro ⟨named, ⟨owner, howner, hnamed⟩, hreaches⟩
    exact ⟨owner, howner, named, hnamed, hreaches⟩
  · rintro ⟨owner, howner, named, hnamed, hreaches⟩
    exact ⟨named, ⟨owner, howner, hnamed⟩, hreaches⟩

end DefensiveCopy.SymbolTable
