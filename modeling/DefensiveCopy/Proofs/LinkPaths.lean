import DefensiveCopy.SymbolTable.Basic
import Mathlib.Data.List.Perm.Subperm
import Mathlib.Logic.Relation

/-!
# Paths along links

A path is given by the items that it leaves, one after the other; its length is the number of links
that it follows.  Links may run in circles, so the paths between two items may be arbitrarily long,
but one of them passes no item twice.  In a symbol table, a path that passes nothing twice is no
longer than the number of symbols that it can pass.

## Key results

- `IsPath.exists_nodup`: a path can be chosen that passes no item twice
- `IsPath.nodup_of_acyclic`: without circles, no path passes an item twice
- `SymbolTable.length_le_countP`: distinct tokens resolve to distinct symbols
-/

namespace DefensiveCopy

/-- The path from an item to another leaves the items of the list, one after the other. -/
inductive IsPath {α : Type} (r : α → α → Prop) : List α → α → α → Prop where
  | nil (item : α) : IsPath r [] item item
  | cons {item following last : α} {rest : List α} (hstep : r item following)
    (hrest : IsPath r rest following last) : IsPath r (item :: rest) item last

namespace IsPath

variable {α : Type} {r : α → α → Prop} {path : List α} {start last : α}

/-- A path leads from its start to its end. -/
theorem reflTransGen (h : IsPath r path start last) : Relation.ReflTransGen r start last := by
  induction h with
  | nil item => exact .refl
  | cons hstep _ ih => exact .head hstep ih

/-- A path that is not empty takes at least one link. -/
theorem transGen (h : IsPath r path start last) (hne : path ≠ []) :
    Relation.TransGen r start last := by
  cases h with
  | nil item => exact absurd rfl hne
  | cons hstep hrest => exact .head' hstep hrest.reflTransGen

/-- A path ends at once, or it begins with a link. -/
theorem exists_iff {P : List α → α → Prop} :
    (∃ path last, IsPath r path start last ∧ P path last) ↔
      P [] start ∨ ∃ following, r start following ∧
        ∃ path last, IsPath r path following last ∧ P (start :: path) last := by
  constructor
  · rintro ⟨path, last, hpath, h⟩
    cases hpath with
    | nil item => exact .inl h
    | cons hstep hrest => exact .inr ⟨_, hstep, _, last, hrest, h⟩
  · rintro (h | ⟨following, hstep, path, last, hpath, h⟩)
    · exact ⟨[], start, .nil start, h⟩
    · exact ⟨start :: path, last, .cons hstep hpath, h⟩

/-- Every item that a path leaves has a link. -/
theorem exists_step (h : IsPath r path start last) {item : α} (hmem : item ∈ path) :
    ∃ following, r item following := by
  induction h with
  | nil => cases hmem
  | @cons here following _ _ hstep _ ih =>
    rcases List.mem_cons.1 hmem with rfl | hrest
    · exact ⟨following, hstep⟩
    · exact ih hrest

/-- A path consists of a path to any item that it leaves and a path from there. -/
private theorem of_append {before after : List α} {item : α}
    (h : IsPath r (before ++ item :: after) start last) :
    IsPath r before start item ∧ IsPath r (item :: after) item last := by
  induction before generalizing start with
  | nil =>
    cases h with
    | cons hstep hrest => exact ⟨.nil item, .cons hstep hrest⟩
  | cons _ before ih =>
    cases h with
    | cons hstep hrest =>
      obtain ⟨hbefore, hafter⟩ := ih hrest
      exact ⟨.cons hstep hbefore, hafter⟩

/-- Between two items that links lead from one to the other, there is a path that passes no item
    twice. -/
theorem exists_nodup [DecidableEq α] (h : Relation.ReflTransGen r start last) :
    ∃ path, IsPath r path start last ∧ path.Nodup ∧ last ∉ path := by
  induction h using Relation.ReflTransGen.head_induction_on with
  | refl => exact ⟨[], .nil last, List.nodup_nil, List.not_mem_nil⟩
  | @head item following hstep _ ih =>
    obtain ⟨path, hpath, hnodup, hlast⟩ := ih
    by_cases heq : item = last
    · subst heq
      exact ⟨[], .nil item, List.nodup_nil, List.not_mem_nil⟩
    by_cases hmem : item ∈ path
    · -- The path comes back to the item, so it is enough to take it from there.
      obtain ⟨before, after, rfl⟩ := List.append_of_mem hmem
      exact ⟨item :: after, hpath.of_append.2, (List.nodup_append.1 hnodup).2.1,
        fun h => hlast (List.mem_append_right _ h)⟩
    · refine ⟨item :: path, .cons hstep hpath, List.nodup_cons.2 ⟨hmem, hnodup⟩, ?_⟩
      simp [hlast, Ne.symm heq]

/-- Links that lead on from an item make a path that is not empty. -/
theorem exists_of_transGen [DecidableEq α] (h : Relation.TransGen r start last) :
    ∃ path, IsPath r path start last ∧ 1 ≤ path.length := by
  obtain ⟨following, hstep, hreaches⟩ := Relation.TransGen.head'_iff.1 h
  obtain ⟨path, hpath, -⟩ := exists_nodup hreaches
  exact ⟨start :: path, .cons hstep hpath, by simp⟩

/-- Without circles, no path passes an item twice. -/
theorem nodup_of_acyclic (hacyclic : ∀ item, ¬Relation.TransGen r item item)
    (h : IsPath r path start last) : path.Nodup := by
  induction h with
  | nil => exact List.nodup_nil
  | @cons item following _ rest hstep hrest ih =>
    refine List.nodup_cons.2 ⟨fun hmem => ?_, ih⟩
    -- The part of the path up to the second visit is a circle.
    obtain ⟨before, after, rfl⟩ := List.append_of_mem hmem
    exact hacyclic item (.head' hstep hrest.of_append.1.reflTransGen)

end IsPath

namespace SymbolTable

/-- Distinct tokens resolve to distinct symbols: there are no more of them than symbols of the kind,
    also if only symbols with some property count. -/
theorem length_le_countP {t : SymbolTable} (kind : SymbolKind) {tokens : List Token}
    {p : Symbol kind → Bool} (hnodup : tokens.Nodup)
    (h : ∀ token ∈ tokens, ∃ symbol, t.get? kind token = some symbol ∧ p symbol) :
    tokens.length ≤ (t.arena kind).countP p := by
  -- The tokens are among those of the places where the property holds.
  have hsubset : tokens ⊆ ((List.range (t.arena kind).size).filter
      fun i => (t.arena kind)[i]?.any p).map fun i => .ofParts kind (i + 1) := by
    intro token htoken
    obtain ⟨symbol, hget, hp⟩ := h token htoken
    obtain ⟨i, hindex, hsymbol⟩ := Option.bind_eq_some_iff.1 hget
    have hi : i < (t.arena kind).size := (Array.getElem?_eq_some_iff.1 hsymbol).1
    refine List.mem_map.2 ⟨i, List.mem_filter.2 ⟨List.mem_range.2 hi, ?_⟩, ?_⟩
    · simp [hsymbol, hp]
    · exact (Token.eq_ofParts_of_index? hindex).symm
  -- Reading all places one by one gives the records.
  have hrecords : (List.range (t.arena kind).size).map ((t.arena kind)[·]?) =
      (t.arena kind).toList.map some := by
    apply List.ext_getElem <;> simp
  calc tokens.length
      ≤ (List.range (t.arena kind).size).countP fun i => (t.arena kind)[i]?.any p := by
        rw [List.countP_eq_length_filter]
        simpa using (hnodup.subperm hsubset).length_le
    _ = ((List.range (t.arena kind).size).map ((t.arena kind)[·]?)).countP (·.any p) := by
        rw [List.countP_map]
        rfl
    _ = (t.arena kind).countP p := by
        rw [hrecords, List.countP_map, ← Array.countP_toList]
        rfl

end SymbolTable

end DefensiveCopy
