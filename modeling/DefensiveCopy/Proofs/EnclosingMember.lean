import DefensiveCopy.Model
import DefensiveCopy.Proofs.MemberRegions

/-!
# The member around an operation

The member that an operation belongs to is looked up at the start of its span.  The start is not the
position that the operation took when it was inserted: it comes from its operands, and through them
from the operation below it that was inserted first.  So the member that is found is the one around
that first operation.

An operation may have operands that were built inside a member of its own, as the body of a lambda
is.  If the first operation below it stands there, the inner member is found; if it stands outside
all inner members, or only inside such that were given up, the operation belongs to the member that
it was inserted in.

## Key results

- `Builder.WellBuilt.exists_first`: a span starts with the position of the first operation below
- `Builder.History.exists_firstSite`: the first operation is inserted within the same member calls
- `Builder.History.enclosingSymbol?_of_isBuiltWithin`: the member that an operation belongs to
-/

namespace DefensiveCopy

/-! ## Operations below an operation -/

namespace Tree

/-- The operation is the outer one or stands below it. -/
def IsWithin (tree : Tree) (id outer : OpId) : Prop := id = outer ∨ outer ∈ tree.ancestors id

/-- The parent of an ancestor is an ancestor. -/
private theorem mem_ancestors_of_parent? {tree : Tree} {id ancestor parent : OpId}
    (h : ancestor ∈ tree.ancestors id) (hparent : tree.parent? ancestor = some parent) :
    parent ∈ tree.ancestors id := by
  obtain ⟨steps, hsteps⟩ := List.mem_iff_getElem?.1 h
  rw [ancestors_eq_climb] at hsteps
  refine List.mem_iff_getElem?.2 ⟨steps + 1, ?_⟩
  rw [ancestors_eq_climb, climb, hsteps, Option.bind_some, hparent]

/-- What stands within an operand stands within the operation. -/
private theorem IsWithin.of_parent? {tree : Tree} {id outer parent : OpId}
    (h : tree.IsWithin id outer)
    (hparent : tree.parent? outer = some parent) : tree.IsWithin id parent := by
  rcases h with rfl | hmem
  · right
    rw [ancestors_of_parent hparent]
    exact List.mem_cons_self
  · exact .inr (mem_ancestors_of_parent? hmem hparent)

/-- An operation with an ancestor exists. -/
private theorem isSome_get?_of_mem_ancestors {tree : Tree} {id ancestor : OpId}
    (h : ancestor ∈ tree.ancestors id) : (tree.get? id).isSome := by
  cases hget : tree.get? id with
  | some operation => rfl
  | none =>
    have hparent : tree.parent? id = none := by rw [parent?, hget, Option.bind_none]
    rw [ancestors_of_root hparent] at h
    cases h

end Tree

namespace Builder

/-! ## The first operation below an operation -/

/-- An operation without operands covers the position that it took and no other. -/
def HasTightLeaves (b : Builder) : Prop :=
  ∀ id operation, b.get? id = some operation → operation.shape.children = [] →
    operation.span.stop = operation.span.start + 1

/-- Inserting an operation keeps leaves tight: a new leaf covers its own position. -/
theorem HasTightLeaves.insertion {b after : Builder} {shape : Shape} {operation : Operation}
    (hb : b.HasTightLeaves) (h : b.Insertion shape operation after) : after.HasTightLeaves := by
  intro id found hfound hleaf
  obtain ⟨-, rfl⟩ | ⟨old, hold, hshape, hspan, -⟩ := h.get?_cases hfound
  · rw [h.shape_eq] at hleaf
    rw [h.span_eq, hleaf]
    rfl
  · rw [hspan]
    exact hb id old hold (hshape ▸ hleaf)

/-- A run keeps leaves tight. -/
theorem HasTightLeaves.run {b after : Builder} (hrun : Run b after) (hb : b.HasTightLeaves) :
    after.HasTightLeaves := by
  induction hrun with
  | refl b => exact hb
  | added _ h ih =>
    obtain ⟨-, shape, operation, hinsertion⟩ := insertion_of_add h
    exact (ih hb).insertion hinsertion
  | refused _ h ih =>
    rw [eq_of_add_error h]
    exact ih hb
  | completed _ _ _ ih ihBody => exact ihBody (ih hb)
  | abandoned _ _ ih ihBody => exact ihBody (ih hb)

namespace WellBuilt

variable {b : Builder} (hb : b.WellBuilt)

include hb

/-- An operation starts no later than the operations below it. -/
private theorem start_le_of_mem_ancestors {id ancestor : OpId} {operation above : Operation}
    (h : ancestor ∈ b.ancestors id) (hget : b.get? id = some operation)
    (habove : b.get? ancestor = some above) : above.span.start ≤ operation.span.start := by
  -- The induction goes up from the operation, and each parent starts no later.
  fun_induction Tree.ancestors b.toTree id generalizing operation with
  | case1 id hroot => cases h
  | case2 id parent hparent ih =>
    obtain ⟨found, hfound, hmem⟩ := hb.parent_iff.1 hparent
    obtain ⟨field, hstores⟩ := Shape.mem_children_iff.1 hmem
    have hle := (hb.start_least hfound hstores).2 operation hget
    rcases List.mem_cons.1 h with rfl | hmem
    · cases hfound.symm.trans habove
      exact hle
    · have := ih hmem hfound
      omega

/-- Some operation within an operation took the position that the operation starts with. -/
private theorem exists_start (hleaves : b.HasTightLeaves) {id : OpId} {operation : Operation}
    (hget : b.get? id = some operation) :
    ∃ first found, b.IsWithin first id ∧ b.get? first = some found ∧
      found.span.stop = operation.span.start + 1 := by
  -- The induction is on the number of the operation: operands have smaller ones.
  induction hindex : id.index using Nat.strongRecOn generalizing id operation with
  | _ index ih =>
    by_cases hchildren : operation.shape.children = []
    · exact ⟨id, operation, .inl rfl, hget, hleaves id operation hget hchildren⟩
    · -- One of the operands starts at the same position.
      have hmem := List.min?_mem (hb.start_min hget hchildren)
      obtain ⟨child, hchild, below, hbelow, hstart⟩ := Tree.mem_starts.1 hmem
      have hlt := Tree.index_lt_of_mem_children hget hchild
      obtain ⟨first, found, hwithin, hfound, hstop⟩ := ih child.index (by omega) hbelow rfl
      have hparent : b.parent? child = some id := hb.parent_iff.2 ⟨operation, hget, hchild⟩
      exact ⟨first, found, hwithin.of_parent? hparent, hfound, by rw [hstop, hstart]⟩

/-- The first operation that was inserted within an operation took the position that the operation
    starts with. -/
theorem exists_first (hleaves : b.HasTightLeaves) {id : OpId} {operation : Operation}
    (hget : b.get? id = some operation) :
    ∃ first found, b.IsWithin first id ∧
      (∀ other, b.IsWithin other id → first.index ≤ other.index) ∧
      b.get? first = some found ∧ found.span.stop = operation.span.start + 1 := by
  obtain ⟨first, found, hwithin, hfound, hstop⟩ := hb.exists_start hleaves hget
  refine ⟨first, found, hwithin, fun other hother => ?_, hfound, hstop⟩
  -- Every other one ends later, and those that end later were inserted later.
  have hsome : ∃ below, b.get? other = some below ∧ operation.span.start ≤ below.span.start := by
    rcases hother with rfl | hmem
    · exact ⟨operation, hget, Nat.le_refl _⟩
    · obtain ⟨below, hbelow⟩ := Option.isSome_iff_exists.1 (Tree.isSome_get?_of_mem_ancestors hmem)
      exact ⟨below, hbelow, hb.start_le_of_mem_ancestors hmem hbelow hget⟩
  obtain ⟨below, hbelow, hle⟩ := hsome
  have hlt := hb.start_lt hbelow
  by_contra hindex
  have hearlier := hb.stop_lt hbelow hfound (by omega)
  omega

end WellBuilt

/-! ## The member that is found -/

namespace History

variable {history : History} {typing : SymbolTable} {document : String}

/-- What a history builds from the start is well built. -/
private theorem wellBuilt_replay (history : History) (typing : SymbolTable) (document : String) :
    (history.replay (new typing document)).WellBuilt :=
  wellBuilt_of_run (history.run_replay (.refl _))

/-- What a history builds from the start has tight leaves. -/
private theorem hasTightLeaves_replay (history : History) (typing : SymbolTable)
    (document : String) :
    (history.replay (new typing document)).HasTightLeaves :=
  HasTightLeaves.run (history.run_replay (.refl _)) fun _ _ h => by cases h

/-- Everything below the operation was inserted while the member calls around it were active. -/
def IsBuiltWithin (history : History) (b : Builder) (site : Site) : Prop :=
  ∀ id, site.id ∈ (history.replay b).ancestors id →
    ∃ below ∈ history.sites b [], below.id = id ∧ site.active <:+ below.active

/-- The operation was inserted before all others within the outer one. -/
def IsFirstWithin (history : History) (b : Builder) (first outer : OpId) : Prop :=
  (history.replay b).IsWithin first outer ∧
    ∀ id, (history.replay b).IsWithin id outer → first.index ≤ id.index

/-- An operation that starts with the position that an insertion took belongs to the innermost
    member call that was active at that insertion and was completed later. -/
theorem enclosingSymbol?_of_start (symbols : SymbolTable) {id : OpId} {operation : Operation}
    {first : Site} (hfirst : first ∈ history.sites (new typing document) [])
    (hget : (history.replay (new typing document)).get? id = some operation)
    (hstart : operation.span.start = first.position) :
    Model.enclosingSymbol? { symbols, tree := (history.replay (new typing document)).toTree } id =
      first.member?.map (·.symbol) := by
  rw [Model.enclosingSymbol?, Model.get?, hget, Option.bind_some, hstart]
  exact history.enclosingAt?_of_mem_sites hfirst

/-- The first operation within one that is built within its member calls was inserted while these
    calls were active, and it took the position that the operation starts with. -/
theorem exists_firstSite {site : Site} (hsite : site ∈ history.sites (new typing document) [])
    (hwithin : history.IsBuiltWithin (new typing document) site) :
    ∃ first ∈ history.sites (new typing document) [],
      history.IsFirstWithin (new typing document) first.id site.id ∧
      site.active <:+ first.active ∧
      ∃ operation, (history.replay (new typing document)).get? site.id = some operation ∧
        operation.span.start = first.position := by
  obtain ⟨operation, hget, -⟩ := history.get?_of_mem_sites _ hsite
  obtain ⟨least, found, hleast, hfirst, hfound, hstop⟩ :=
    (history.wellBuilt_replay typing document).exists_first
      (history.hasTightLeaves_replay typing document) hget
  -- The first operation is the outer one itself, or stands below it within the same calls.
  have hexists : ∃ first ∈ history.sites (new typing document) [],
      first.id = least ∧ site.active <:+ first.active := by
    rcases hleast with rfl | hmem
    · exact ⟨site, hsite, rfl, List.suffix_rfl⟩
    · exact hwithin least hmem
  obtain ⟨first, hmem, rfl, hactive⟩ := hexists
  -- The span of an operation ends with the position that it took.
  obtain ⟨inserted, hinserted, hposition⟩ := history.get?_of_mem_sites _ hmem
  have heq : inserted = found := Option.some.inj (hinserted.symm.trans hfound)
  have hstart : operation.span.start = first.position := by
    rw [heq] at hposition
    omega
  exact ⟨first, hmem, ⟨hleast, hfirst⟩, hactive, operation, hget, hstart⟩

/-- Let an operation be inserted while a member call is the innermost active one, let that call be
    completed later, and let everything below the operation be built within the call.  Then the
    operation belongs to that member, unless the first operation below it stands in inner member
    calls and one of them is completed: then it belongs to the innermost such one. -/
theorem enclosingSymbol?_of_isBuiltWithin (symbols : SymbolTable) {site : Site} {call : MemberCall}
    {outer : List MemberCall} (hsite : site ∈ history.sites (new typing document) [])
    (hactive : site.active = call :: outer) (hcompletes : call.completes)
    (hwithin : history.IsBuiltWithin (new typing document) site) :
    ∃ first ∈ history.sites (new typing document) [], ∃ inner,
      history.IsFirstWithin (new typing document) first.id site.id ∧
      first.active = inner ++ call :: outer ∧
      Model.enclosingSymbol? { symbols, tree := (history.replay (new typing document)).toTree }
        site.id = some ((inner.find? (·.completes)).getD call).symbol := by
  obtain ⟨first, hmem, hfirst, ⟨inner, hinner⟩, operation, hget, hstart⟩ :=
    exists_firstSite hsite hwithin
  rw [hactive] at hinner
  refine ⟨first, hmem, inner, hfirst, hinner.symm, ?_⟩
  -- The first completed call is an inner one, or else the given one, which is completed.
  have hmember : first.member? = some ((inner.find? (·.completes)).getD call) := by
    rw [Site.member?, ← hinner, List.find?_append, List.find?_cons_of_pos hcompletes]
    cases inner.find? (·.completes) with
    | none => rfl
    | some nested => rfl
  rw [enclosingSymbol?_of_start symbols hmem hget hstart, hmember, Option.map_some]

/-- A method with a literal, a lambda that holds a literal, and a block around both. -/
def lambdaSecond : History :=
  .member .empty ⟨0x06000001⟩ (.add
    (.member (.add .empty (.literal none)) ⟨0x06000002⟩ (.add .empty (.literal none)) true)
    (.block [⟨0⟩, ⟨1⟩])) true

/-- The block around the literal and the lambda belongs to the method. -/
theorem enclosingSymbol?_lambdaSecond :
    lambdaSecond.IsBuiltWithin (new {} "Sample") ⟨⟨2⟩, 3, [⟨⟨0x06000001⟩, 0, true⟩]⟩ ∧
    (∃ first ∈ lambdaSecond.sites (new {} "Sample") [], ∃ inner,
      lambdaSecond.IsFirstWithin (new {} "Sample") first.id ⟨2⟩ ∧
      first.active = inner ++ [⟨⟨0x06000001⟩, 0, true⟩] ∧
      Model.enclosingSymbol? ⟨{}, (lambdaSecond.replay (new {} "Sample")).toTree⟩ ⟨2⟩ =
        some ((inner.find? (·.completes)).getD ⟨⟨0x06000001⟩, 0, true⟩).symbol) ∧
    Model.enclosingSymbol? ⟨{}, (lambdaSecond.replay (new {} "Sample")).toTree⟩ ⟨2⟩ =
      some ⟨0x06000001⟩ := by
  have hwithin : lambdaSecond.IsBuiltWithin (new {} "Sample")
      ⟨⟨2⟩, 3, [⟨⟨0x06000001⟩, 0, true⟩]⟩ := by
    intro id hmem
    -- Operands have smaller numbers, so there are two to look at.
    have hlt := Tree.index_lt_of_mem_ancestors hmem
    obtain ⟨index⟩ := id
    match index, hlt with
    | 0, _ => decide
    | 1, _ => decide
  exact ⟨hwithin, enclosingSymbol?_of_isBuiltWithin {} (by decide) rfl rfl hwithin, by decide⟩

/-- A method with a lambda that holds a literal, and a block around it. -/
def lambdaFirst : History :=
  .member .empty ⟨0x06000001⟩
    (.add (.member .empty ⟨0x06000002⟩ (.add .empty (.literal none)) true) (.block [⟨0⟩])) true

/-- The block is inserted directly in the method, and all that is below it within the method, but it
    belongs to the lambda. -/
theorem enclosingSymbol?_lambdaFirst :
    ⟨⟨1⟩, 2, [⟨⟨0x06000001⟩, 0, true⟩]⟩ ∈ lambdaFirst.sites (new {} "Sample") [] ∧
    lambdaFirst.IsBuiltWithin (new {} "Sample") ⟨⟨1⟩, 2, [⟨⟨0x06000001⟩, 0, true⟩]⟩ ∧
    Model.enclosingSymbol? ⟨{}, (lambdaFirst.replay (new {} "Sample")).toTree⟩ ⟨1⟩ =
      some ⟨0x06000002⟩ := by
  refine ⟨by decide, fun id hmem => ?_, by decide⟩
  have hlt := Tree.index_lt_of_mem_ancestors hmem
  obtain ⟨index⟩ := id
  match index, hlt with
  | 0, _ => decide

end History

end Builder

end DefensiveCopy
