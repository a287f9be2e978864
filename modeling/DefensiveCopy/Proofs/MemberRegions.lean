import DefensiveCopy.Proofs.Forest
import Mathlib.Data.List.Pairwise

/-!
# Regions of members

A member is declared around calls of its own, and its region is recorded when it is completed: inner
members before outer ones, and nothing for a member that is given up.  Nevertheless the regions nest
as the calls did, and looking up a position finds the innermost member around it.

A run says which builder is reached, but not when an operation was inserted.  A `History` keeps
this: it has the calls of a run in order, with the calls of each member inside it and with what
became of the member.  `History.sites` lists the insertions with the member calls that were active
at each of them.

## Key results

- `Builder.run_iff_exists_history`: runs are what histories lead to
- `Builder.History.pairwise_regions`: two regions are apart, or the earlier one is inside the later
- `Region.narrowest?_append_singleton`: a region around all others is the last choice
- `Builder.History.narrowest?_at_site`: what is found at the position of an insertion
- `Builder.History.enclosingAt?_spec`: the lookup of positions
-/

namespace DefensiveCopy

namespace Span

/-- No position lies in both ranges. -/
def IsApart (span other : Span) : Prop :=
  ∀ position, ¬(span.contains position ∧ other.contains position)

/-- The range starts no earlier than the other one and ends before it. -/
def IsInside (span other : Span) : Prop :=
  other.start ≤ span.start ∧ span.stop < other.stop

/-- A range holds the positions from its start up to its end, without the end. -/
private theorem contains_iff {span : Span} {position : Nat} :
    span.contains position ↔ span.start ≤ position ∧ position < span.stop := by
  simp [contains]

end Span

/-! ## The narrowest region -/

namespace Region

/-- Narrower is shorter, or equally long with a later start. -/
private theorem isNarrowerThan_iff {region other : Region} :
    region.isNarrowerThan other ↔ region.span.length < other.span.length ∨
      region.span.length = other.span.length ∧ other.span.start < region.span.start := by
  simp [isNarrowerThan]

/-- Some region is the narrowest unless there is none at all. -/
private theorem narrowest?_eq_none_iff {regions : List Region} :
    narrowest? regions = none ↔ regions = [] := by
  cases regions with
  | nil => simp [narrowest?]
  | cons region rest =>
    rw [narrowest?]
    split <;> [skip; split] <;> simp

/-- The narrowest region is one of the list, and no other is narrower. -/
private theorem narrowest?_spec {regions : List Region} {best : Region}
    (h : narrowest? regions = some best) :
    best ∈ regions ∧ ∀ region ∈ regions, ¬region.isNarrowerThan best := by
  induction regions generalizing best with
  | nil => cases h
  | cons region rest ih =>
    rw [narrowest?] at h
    cases hrest : narrowest? rest with
    | none =>
      rw [hrest] at h
      cases h
      rw [narrowest?_eq_none_iff.1 hrest]
      simp [isNarrowerThan_iff]
    | some found =>
      obtain ⟨hmem, hleast⟩ := ih hrest
      rw [hrest] at h
      dsimp only at h
      split at h
      · next hnarrower =>
        cases h
        refine ⟨List.mem_cons_of_mem _ hmem, List.forall_mem_cons.2 ⟨?_, hleast⟩⟩
        -- Being narrower goes one way only.
        rw [isNarrowerThan_iff] at hnarrower ⊢
        omega
      · next hnot =>
        cases h
        refine ⟨List.mem_cons_self, List.forall_mem_cons.2 ⟨by simp [isNarrowerThan_iff], ?_⟩⟩
        intro other hother
        -- What is narrower than the head would be narrower than the best of the rest.
        have hother := hleast other hother
        rw [isNarrowerThan_iff] at hnot hother ⊢
        omega

/-- A region behind all narrower ones is chosen only if there is no other. -/
theorem narrowest?_append_singleton {regions : List Region} {last : Region}
    (h : ∀ region ∈ regions, region.isNarrowerThan last) :
    narrowest? (regions ++ [last]) = (narrowest? regions).or (some last) := by
  induction regions with
  | nil => rfl
  | cons region rest ih =>
    obtain ⟨hregion, hrest⟩ := List.forall_mem_cons.1 h
    rw [List.cons_append, narrowest?, narrowest?, ih hrest]
    cases narrowest? rest with
    | none =>
      -- Alone with the head, the last region loses.
      have hnot : ¬last.isNarrowerThan region := by
        rw [isNarrowerThan_iff] at hregion ⊢
        omega
      simp [hnot]
    | some best =>
      simp only [Option.some_or]
      split <;> rfl

/-- If of any two regions one is inside the other or they are apart, then the narrowest region
    around a position is shorter than all others around it. -/
private theorem narrowest?_filter_eq_some_iff {regions : List Region} {position : Nat}
    {region : Region}
    (h : regions.Pairwise fun earlier later =>
      earlier.span.IsApart later.span ∨ earlier.span.IsInside later.span) :
    narrowest? (regions.filter (·.span.contains position)) = some region ↔
      region ∈ regions ∧ region.span.contains position ∧
        ∀ other ∈ regions, other ≠ region → other.span.contains position →
          region.span.length < other.span.length := by
  -- Regions around the same position are not apart, so one of them is shorter.
  have hshorter : ∀ {inner outer : Region}, inner.span.IsInside outer.span →
      inner.span.contains position → inner.span.length < outer.span.length := by
    intro inner outer hinside hcontains
    obtain ⟨hstart, hstop⟩ := hinside
    rw [Span.contains_iff] at hcontains
    simp only [Span.length]
    omega
  have hcompare : regions.Pairwise fun left right =>
      left.span.contains position → right.span.contains position →
        left.span.length < right.span.length ∨ right.span.length < left.span.length := by
    refine h.imp ?_
    rintro left right (hapart | hinside) hleft hright
    · exact absurd ⟨hleft, hright⟩ (hapart position)
    · exact .inl (hshorter hinside hleft)
  constructor
  · intro hbest
    obtain ⟨hmem, hleast⟩ := narrowest?_spec hbest
    obtain ⟨hregion, hcontains⟩ := List.mem_filter.1 hmem
    refine ⟨hregion, hcontains, fun other hother hne hcontains' => ?_⟩
    -- The comparison is the same from both sides, so the order of the list does not matter.
    have : Std.Symm fun left right : Region =>
        left.span.contains position → right.span.contains position →
          left.span.length < right.span.length ∨ right.span.length < left.span.length :=
      ⟨fun left right hor hleft hright => (hor hright hleft).symm⟩
    rcases hcompare.forall hother hregion hne hcontains' hcontains with hlt | hlt
    · have hnot := hleast other (List.mem_filter.2 ⟨hother, hcontains'⟩)
      rw [isNarrowerThan_iff] at hnot
      omega
    · exact hlt
  · rintro ⟨hregion, hcontains, hleast⟩
    have hmem : region ∈ regions.filter (·.span.contains position) :=
      List.mem_filter.2 ⟨hregion, hcontains⟩
    obtain ⟨best, hbest⟩ := Option.ne_none_iff_exists'.1
      (mt narrowest?_eq_none_iff.1 (List.ne_nil_of_mem hmem))
    obtain ⟨hmem', hnot⟩ := narrowest?_spec hbest
    obtain ⟨hbest', hcontains'⟩ := List.mem_filter.1 hmem'
    -- If another one were found, the region would be narrower.
    by_cases heq : best = region
    · rw [hbest, heq]
    · have hlt := hleast best hbest' heq hcontains'
      exact absurd (isNarrowerThan_iff.2 (.inl hlt)) (hnot region hmem)

end Region

namespace Builder

/-- Inserting an operation records no region. -/
private theorem regions_of_add {b after : Builder} {draft : Draft} {id : OpId}
    (h : add draft b = .ok id after) : after.regions = b.regions := by
  obtain ⟨shape, type, isImplicit, heq⟩ := exists_add_eq_insert draft b
  rw [heq] at h
  unfold insert at h
  split at h
  · cases h
  · cases h
    rfl

/-! ## Histories -/

/-- The calls that a builder has seen, the last one outermost.  An operation was added, or refused;
    a member was declared around calls of its own, and completed or given up. -/
inductive History where
  | empty
  | add (before : History) (draft : Draft)
  | member (before : History) (symbol : Token) (body : History) (completes : Bool)

/-- A call that declares a member, with the position at which it begins. -/
structure MemberCall where
  symbol : Token
  start : Nat
  completes : Bool
  deriving DecidableEq

/-- The insertion of an operation: the position that it takes, and the member calls that are active,
    innermost first. -/
structure Site where
  id : OpId
  position : Nat
  active : List MemberCall
  deriving DecidableEq

/-- The innermost of the active member calls that is completed later. -/
def Site.member? (site : Site) : Option MemberCall := site.active.find? (·.completes)

namespace History

/-- The builder that the calls lead to. -/
def replay : History → Builder → Builder
  | .empty, b => b
  | .add before draft, b =>
    match Builder.add draft (before.replay b) with
    | .ok _ after => after
    | .error _ after => after
  | .member before symbol body completes, b =>
    let entered := before.replay b
    let built := body.replay entered
    if completes then built.completeMember symbol entered.position else built

/-- The region of a member that began at one builder and is completed at the other. -/
def memberRegion (symbol : Token) (entered built : Builder) : Region :=
  { symbol, span := { start := entered.position, stop := built.position + 1 } }

/-- The regions that the calls record. -/
def regions : History → Builder → List Region
  | .empty, _ => []
  | .add before _, b => before.regions b
  | .member before symbol body completes, b =>
    let entered := before.replay b
    before.regions b ++ body.regions entered ++
      if completes then [memberRegion symbol entered (body.replay entered)] else []

/-- The insertions among the calls, in order, when the given member calls are active at first. -/
def sites : History → Builder → List MemberCall → List Site
  | .empty, _, _ => []
  | .add before draft, b, active =>
    let reached := before.replay b
    before.sites b active ++
      match Builder.add draft reached with
      | .ok id _ => [{ id, position := reached.position, active }]
      | .error _ _ => []
  | .member before symbol body completes, b, active =>
    let entered := before.replay b
    before.sites b active ++
      body.sites entered ({ symbol, start := entered.position, completes } :: active)

/-- What a history leads to is what some run leads to. -/
theorem run_replay (history : History) {b before : Builder} (hrun : Run b before) :
    Run b (history.replay before) := by
  induction history generalizing b before with
  | empty => exact hrun
  | add history draft ih =>
    rw [replay]
    split
    · next h => exact .added (ih hrun) h
    · next h => exact .refused (ih hrun) h
  | member history symbol body completes ih ihBody =>
    rw [replay]
    split
    · -- The body is a run of its own, from the builder at which the member begins.
      exact .completed symbol (ih hrun) (ihBody (.refl _))
    · exact .abandoned (ih hrun) (ihBody (.refl _))

end History

/-- Runs are what histories lead to. -/
theorem run_iff_exists_history {b after : Builder} :
    Run b after ↔ ∃ history : History, history.replay b = after := by
  constructor
  · intro hrun
    induction hrun with
    | refl b => exact ⟨.empty, rfl⟩
    | @added b before after draft id _ h ih =>
      obtain ⟨history, rfl⟩ := ih
      exact ⟨.add history draft, by rw [History.replay, h]⟩
    | @refused b before after draft error _ h ih =>
      obtain ⟨history, rfl⟩ := ih
      exact ⟨.add history draft, by rw [History.replay, h]⟩
    | completed symbol _ _ ih ihBody =>
      obtain ⟨history, rfl⟩ := ih
      obtain ⟨body, rfl⟩ := ihBody
      exact ⟨.member history symbol body true, rfl⟩
    | abandoned _ _ ih ihBody =>
      obtain ⟨history, rfl⟩ := ih
      obtain ⟨body, rfl⟩ := ihBody
      -- The name of a member that is given up leaves no trace.
      exact ⟨.member history default body false, rfl⟩
  · rintro ⟨history, rfl⟩
    exact history.run_replay (.refl b)

namespace History

variable (history : History) (b : Builder)

/-- Adding an operation inserts it and records no region, or it changes nothing. -/
private theorem replay_add_cases (draft : Draft) :
    (∃ shape operation,
      Builder.add draft (history.replay b) =
        .ok ⟨(history.replay b).size⟩ ((history.add draft).replay b) ∧
      (history.replay b).Insertion shape operation ((history.add draft).replay b) ∧
      ((history.add draft).replay b).regions = (history.replay b).regions) ∨
    (∃ error, Builder.add draft (history.replay b) = .error error (history.replay b)) ∧
      (history.add draft).replay b = history.replay b := by
  cases h : Builder.add draft (history.replay b) with
  | ok id after =>
    have hreplay : (history.add draft).replay b = after := by rw [replay, h]
    obtain ⟨rfl, shape, operation, hinsertion⟩ := insertion_of_add h
    rw [hreplay]
    exact .inl ⟨shape, operation, rfl, hinsertion, regions_of_add h⟩
  | error error after =>
    -- A refused operation leaves the builder as it was.
    obtain rfl := eq_of_add_error h
    exact .inr ⟨⟨error, rfl⟩, by rw [replay, h]⟩

/-! ## Positions -/

/-- Adding an operation takes no position back. -/
private theorem position_le_add (draft : Draft) :
    (history.replay b).position ≤ ((history.add draft).replay b).position := by
  obtain ⟨shape, operation, -, hinsertion, -⟩ | ⟨-, heq⟩ := history.replay_add_cases b draft
  · rw [hinsertion.position_eq]
    omega
  · exact Nat.le_of_eq (congrArg position heq.symm)

/-- Ending a member takes no position back. -/
private theorem position_le_member (symbol : Token) (body : History) (completes : Bool) :
    (body.replay (history.replay b)).position ≤
      ((history.member symbol body completes).replay b).position := by
  rw [replay]
  split
  · exact Nat.le_succ _
  · exact Nat.le_refl _

/-- Positions are handed out and not taken back. -/
private theorem position_le : b.position ≤ (history.replay b).position := by
  induction history generalizing b with
  | empty => exact Nat.le_refl _
  | add history draft ih => exact Nat.le_trans (ih b) (history.position_le_add b draft)
  | member history symbol body completes ih ihBody =>
    have hentered := ih b
    have hbuilt := ihBody (history.replay b)
    have hended := history.position_le_member b symbol body completes
    omega

/-- The regions of the builder are the old ones and then those that the calls record. -/
private theorem regions_replay : (history.replay b).regions = b.regions ++ history.regions b := by
  induction history generalizing b with
  | empty => simp [replay, regions]
  | add history draft ih =>
    obtain ⟨shape, operation, -, -, hregions⟩ | ⟨-, heq⟩ := history.replay_add_cases b draft
    · rw [hregions, regions, ih b]
    · rw [heq, regions, ih b]
  | member history symbol body completes ih ihBody =>
    rw [replay, regions]
    split
    · simp [completeMember, memberRegion, ihBody, ih]
    · simp [ihBody, ih]

/-- The regions that calls record lie between the positions before and after them. -/
private theorem mem_regions_bounds {region : Region} (h : region ∈ history.regions b) :
    b.position ≤ region.span.start ∧ region.span.start < region.span.stop ∧
      region.span.stop ≤ (history.replay b).position := by
  induction history generalizing b with
  | empty => cases h
  | add history draft ih =>
    have hbounds := ih b h
    have hended := history.position_le_add b draft
    omega
  | member history symbol body completes ih ihBody =>
    -- The positions at the beginning, before the end and at the end of the member are in order.
    have hentered := history.position_le b
    have hbuilt := body.position_le (history.replay b)
    have hended := history.position_le_member b symbol body completes
    rw [regions, List.mem_append, List.mem_append] at h
    rcases h with (hbefore | hbody) | hown
    · have := ih b hbefore
      omega
    · have := ihBody (history.replay b) hbody
      omega
    · -- The region of the member itself ends with the position that completing it takes.
      split at hown
      · next hcompletes =>
        obtain rfl := List.mem_singleton.1 hown
        rw [replay, if_pos hcompletes]
        show b.position ≤ (history.replay b).position ∧
          (history.replay b).position < (body.replay (history.replay b)).position + 1 ∧
            (body.replay (history.replay b)).position + 1 ≤
              (body.replay (history.replay b)).position + 1
        omega
      · cases hown

/-- Of two regions the later one is apart from the earlier one or around it. -/
theorem pairwise_regions : (history.regions b).Pairwise fun earlier later =>
    earlier.span.IsApart later.span ∨ earlier.span.IsInside later.span := by
  -- Regions that end before others start are apart from them.
  have hapart : ∀ {earlier later : Region} {position : Nat}, earlier.span.stop ≤ position →
      position ≤ later.span.start → earlier.span.IsApart later.span := by
    intro earlier later position hstop hstart at_ hboth
    rw [Span.contains_iff, Span.contains_iff] at hboth
    omega
  induction history generalizing b with
  | empty => exact .nil
  | add history draft ih => exact ih b
  | member history symbol body completes ih ihBody =>
    rw [regions]
    refine List.pairwise_append.2 ⟨List.pairwise_append.2 ⟨ih b, ihBody _, ?_⟩, ?_, ?_⟩
    · -- Regions from before the member end before those inside it start.
      intro earlier hearlier later hlater
      have hleft := history.mem_regions_bounds b hearlier
      have hright := body.mem_regions_bounds _ hlater
      exact .inl (hapart hleft.2.2 hright.1)
    · split
      · exact List.pairwise_singleton _ _
      · exact .nil
    · intro earlier hearlier later hlater
      -- The region of the member itself is recorded last, around those inside it.
      split at hlater
      · obtain rfl := List.mem_singleton.1 hlater
        rcases List.mem_append.1 hearlier with hbefore | hbody
        · have hleft := history.mem_regions_bounds b hbefore
          exact .inl (hapart hleft.2.2 (Nat.le_refl _))
        · have hinner := body.mem_regions_bounds _ hbody
          exact .inr ⟨hinner.1, Nat.lt_succ_of_le hinner.2.2⟩
      · cases hlater

/-! ## Insertions -/

/-- An insertion takes a position between those before and after the calls. -/
private theorem mem_sites_bounds {active : List MemberCall} {site : Site}
    (h : site ∈ history.sites b active) :
    b.position ≤ site.position ∧ site.position < (history.replay b).position := by
  induction history generalizing b active with
  | empty => cases h
  | add history draft ih =>
    have hle := history.position_le b
    rw [sites, List.mem_append] at h
    obtain ⟨shape, operation, hok, hinsertion, -⟩ | ⟨⟨error, herror⟩, heq⟩ :=
      history.replay_add_cases b draft
    · -- The new operation takes the position of the builder that it is added to.
      have hposition := hinsertion.position_eq
      rw [hok] at h
      rcases h with hbefore | hnew
      · have hsite := ih b hbefore
        omega
      · obtain rfl := List.mem_singleton.1 hnew
        dsimp only
        omega
    · rw [herror] at h
      rw [heq]
      rcases h with hbefore | hnew
      · exact ih b hbefore
      · cases hnew
  | member history symbol body completes ih ihBody =>
    have hentered := history.position_le b
    have hbuilt := body.position_le (history.replay b)
    have hended := history.position_le_member b symbol body completes
    rw [sites, List.mem_append] at h
    rcases h with hbefore | hbody
    · have := ih b hbefore
      omega
    · have := ihBody (history.replay b) hbody
      omega

/-- Calls before a position record no region around it. -/
private theorem filter_regions_of_le {position : Nat} (h : (history.replay b).position ≤ position) :
    (history.regions b).filter (·.span.contains position) = [] := by
  refine List.filter_eq_nil_iff.2 fun region hmem => ?_
  have hbounds := history.mem_regions_bounds b hmem
  rw [Span.contains_iff]
  omega

/-- Calls after a position record no region around it. -/
private theorem filter_regions_of_lt {position : Nat} (h : position < b.position) :
    (history.regions b).filter (·.span.contains position) = [] := by
  refine List.filter_eq_nil_iff.2 fun region hmem => ?_
  have hbounds := history.mem_regions_bounds b hmem
  rw [Span.contains_iff]
  omega

/-- Among the regions that calls record, the narrowest one at the position of an insertion is that
    of the innermost of these calls that was active then and was completed later. -/
theorem narrowest?_at_site {active : List MemberCall} {site : Site}
    (h : site ∈ history.sites b active) :
    ∃ inner, site.active = inner ++ active ∧
      (Region.narrowest? ((history.regions b).filter (·.span.contains site.position))).map
        (·.symbol) = (inner.find? (·.completes)).map (·.symbol) := by
  induction history generalizing b active with
  | empty => cases h
  | add history draft ih =>
    rw [sites, List.mem_append] at h
    rcases h with hbefore | hnew
    · exact ih b hbefore
    · -- At the new position there is no region yet.
      have hsite : site.position = (history.replay b).position ∧ site.active = active := by
        split at hnew
        · obtain rfl := List.mem_singleton.1 hnew
          exact ⟨rfl, rfl⟩
        · cases hnew
      refine ⟨[], hsite.2, ?_⟩
      rw [regions, history.filter_regions_of_le b (by omega)]
      rfl
  | member history symbol body completes ih ihBody =>
    rw [sites, List.mem_append] at h
    rw [regions, List.filter_append, List.filter_append]
    rcases h with hbefore | hbody
    · -- The member begins after the position.
      have hsite := history.mem_sites_bounds b hbefore
      have hown : ∀ built, (if completes then [memberRegion symbol (history.replay b) built]
          else []).filter (·.span.contains site.position) = [] := by
        intro built
        refine List.filter_eq_nil_iff.2 fun region hmem => ?_
        split at hmem
        · obtain rfl := List.mem_singleton.1 hmem
          rw [Span.contains_iff, memberRegion]
          dsimp only
          omega
        · cases hmem
      rw [body.filter_regions_of_lt _ hsite.2, hown, List.append_nil, List.append_nil]
      exact ih b hbefore
    · -- The member is around the position; its region is behind all that it encloses.
      have hsite := body.mem_sites_bounds _ hbody
      obtain ⟨inner, hactive, hfound⟩ := ihBody _ hbody
      refine ⟨inner ++ [_], by rw [hactive, List.append_assoc, List.singleton_append], ?_⟩
      rw [history.filter_regions_of_le b hsite.1, List.nil_append, List.find?_append]
      cases completes with
      | false =>
        -- A member that is given up has no region, and is passed over among the active calls.
        simp only [Bool.false_eq_true, if_false, List.filter_nil, List.append_nil]
        rw [hfound]
        simp
      | true =>
        have hown : (memberRegion symbol (history.replay b)
            (body.replay (history.replay b))).span.contains site.position := by
          rw [Span.contains_iff, memberRegion]
          dsimp only
          omega
        -- What was recorded inside the member is shorter than its own region.
        have hnarrower : ∀ region ∈
            (body.regions (history.replay b)).filter (·.span.contains site.position),
            region.isNarrowerThan
              (memberRegion symbol (history.replay b) (body.replay (history.replay b))) := by
          intro region hmem
          have hbounds := body.mem_regions_bounds _ (List.mem_filter.1 hmem).1
          rw [Region.isNarrowerThan_iff]
          simp only [Span.length, memberRegion]
          omega
        rw [if_pos rfl, List.filter_singleton, hown, cond_true,
          Region.narrowest?_append_singleton hnarrower, Option.map_or, Option.map_or, hfound]
        rfl

/-! ## Operations and their insertions -/

/-- Calls keep the shapes and spans of the operations that are there. -/
private theorem get?_replay {id : OpId} {old : Operation} (h : b.get? id = some old) :
    ∃ found, (history.replay b).get? id = some found ∧ found.shape = old.shape ∧
      found.span = old.span := by
  induction history generalizing b old with
  | empty => exact ⟨old, h, rfl, rfl⟩
  | add history draft ih =>
    obtain ⟨found, hfound, hshape, hspan⟩ := ih b h
    obtain ⟨shape, operation, -, hinsertion, -⟩ | ⟨-, heq⟩ := history.replay_add_cases b draft
    · obtain ⟨kept, hkept, hshape', hspan', -⟩ := hinsertion.get?_old hfound
      exact ⟨kept, hkept, hshape'.trans hshape, hspan'.trans hspan⟩
    · rw [heq]
      exact ⟨found, hfound, hshape, hspan⟩
  | member history symbol body completes ih ihBody =>
    obtain ⟨entered, hentered, hshape, hspan⟩ := ih b h
    obtain ⟨found, hfound, hshape', hspan'⟩ := ihBody _ hentered
    refine ⟨found, ?_, hshape'.trans hshape, hspan'.trans hspan⟩
    rw [replay]
    -- Completing a member adds a region and no operation.
    split <;> exact hfound

/-- An operation that is inserted is found under its number, and its span ends with the position
    that it takes. -/
theorem get?_of_mem_sites {active : List MemberCall} {site : Site}
    (h : site ∈ history.sites b active) :
    ∃ operation, (history.replay b).get? site.id = some operation ∧
      operation.span.stop = site.position + 1 := by
  induction history generalizing b active with
  | empty => cases h
  | add history draft ih =>
    rw [sites, List.mem_append] at h
    obtain ⟨shape, operation, hok, hinsertion, -⟩ | ⟨⟨error, herror⟩, heq⟩ :=
      history.replay_add_cases b draft
    · rw [hok] at h
      rcases h with hbefore | hnew
      · obtain ⟨old, hold, hstop⟩ := ih b hbefore
        obtain ⟨kept, hkept, -, hspan, -⟩ := hinsertion.get?_old hold
        exact ⟨kept, hkept, by rw [hspan, hstop]⟩
      · obtain rfl := List.mem_singleton.1 hnew
        -- The span of the new operation ends behind the position that it takes.
        exact ⟨operation, hinsertion.get?_new, by rw [hinsertion.span_eq]⟩
    · rw [herror] at h
      rw [heq]
      rcases h with hbefore | hnew
      · exact ih b hbefore
      · cases hnew
  | member history symbol body completes ih ihBody =>
    -- Completing a member changes no operation.
    have hbuilt : ∀ {id : OpId} {operation : Operation},
        (body.replay (history.replay b)).get? id = some operation →
          ((history.member symbol body completes).replay b).get? id = some operation := by
      intro id operation hget
      rw [replay]
      split <;> exact hget
    rw [sites, List.mem_append] at h
    rcases h with hbefore | hbody
    · obtain ⟨old, hold, hstop⟩ := ih b hbefore
      obtain ⟨kept, hkept, -, hspan⟩ := body.get?_replay _ hold
      exact ⟨kept, hbuilt hkept, by rw [hspan, hstop]⟩
    · obtain ⟨operation, hget, hstop⟩ := ihBody _ hbody
      exact ⟨operation, hbuilt hget, hstop⟩

/-- Every operation that was not there before the calls was inserted by one of them. -/
private theorem exists_mem_sites {id : OpId} (active : List MemberCall) (hnew : b.get? id = none)
    (h : ((history.replay b).get? id).isSome) : ∃ site ∈ history.sites b active, site.id = id := by
  induction history generalizing b active with
  | empty =>
    rw [replay, hnew] at h
    cases h
  | add history draft ih =>
    rw [sites]
    by_cases hbefore : ((history.replay b).get? id).isSome
    · obtain ⟨site, hsite, hid⟩ := ih b active hnew hbefore
      exact ⟨site, List.mem_append_left _ hsite, hid⟩
    · obtain ⟨shape, operation, hok, hinsertion, -⟩ | ⟨-, heq⟩ := history.replay_add_cases b draft
      · -- Only the new operation was not there yet.
        obtain ⟨found, hfound⟩ := Option.isSome_iff_exists.1 h
        obtain ⟨rfl, -⟩ | ⟨old, hold, -⟩ := hinsertion.get?_cases hfound
        · rw [hok]
          exact ⟨_, List.mem_append_right _ (List.mem_singleton.2 rfl), rfl⟩
        · exact absurd (Option.isSome_of_eq_some hold) hbefore
      · rw [heq] at h
        exact absurd h hbefore
  | member history symbol body completes ih ihBody =>
    have hbuilt : ((body.replay (history.replay b)).get? id).isSome := by
      rw [replay] at h
      split at h <;> exact h
    rw [sites]
    -- The operation was there when the member began, or it was inserted inside.
    cases hentered : (history.replay b).get? id with
    | some operation =>
      obtain ⟨site, hsite, hid⟩ := ih b active hnew (Option.isSome_of_eq_some hentered)
      exact ⟨site, List.mem_append_left _ hsite, hid⟩
    | none =>
      obtain ⟨site, hsite, hid⟩ := ihBody _ _ hentered hbuilt
      exact ⟨site, List.mem_append_right _ hsite, hid⟩

end History

end Builder

/-! ## Looking up positions -/

namespace Tree

/-- The region is around the position and shorter than all other regions around it. -/
def IsShortestAt (tree : Tree) (position : Nat) (region : Region) : Prop :=
  region ∈ tree.regions ∧ region.span.contains position ∧
    ∀ other ∈ tree.regions, other ≠ region → other.span.contains position →
      region.span.length < other.span.length

/-- The regions of a tree nest, and a position belongs to the shortest one around it. -/
structure HasNestedRegions (tree : Tree) : Prop where
  /-- Of two regions the later one is apart from the earlier one or around it. -/
  nested : tree.regions.Pairwise fun earlier later =>
    earlier.span.IsApart later.span ∨ earlier.span.IsInside later.span
  /-- The symbol that is found is that of the shortest region. -/
  enclosingAt?_eq_some_iff : ∀ position symbol, tree.enclosingAt? position = some symbol ↔
    ∃ region, tree.IsShortestAt position region ∧ region.symbol = symbol
  /-- Nothing is found if there is no region. -/
  enclosingAt?_eq_none_iff : ∀ position, tree.enclosingAt? position = none ↔
    ∀ region ∈ tree.regions, ¬region.span.contains position

/-- If the regions of a tree nest, the narrowest region is the shortest one. -/
private theorem hasNestedRegions_of_pairwise {tree : Tree}
    (h : tree.regions.Pairwise fun earlier later =>
      earlier.span.IsApart later.span ∨ earlier.span.IsInside later.span) :
    tree.HasNestedRegions where
  nested := h
  enclosingAt?_eq_some_iff := by
    intro position symbol
    rw [enclosingAt?, Option.map_eq_some_iff]
    simp only [Region.narrowest?_filter_eq_some_iff h, IsShortestAt]
  enclosingAt?_eq_none_iff := by
    intro position
    rw [enclosingAt?, Option.map_eq_none_iff, Region.narrowest?_eq_none_iff,
      List.filter_eq_nil_iff]

end Tree

namespace Builder.History

/-- A new builder has no regions, so all of them are recorded by the calls. -/
private theorem regions_replay_new (history : History) (symbols : SymbolTable) (document : String) :
    (history.replay (new symbols document)).regions = history.regions (new symbols document) := by
  rw [regions_replay]
  rfl

/-- The position of an insertion belongs to the innermost member call that was active then and was
    completed later. -/
theorem enclosingAt?_of_mem_sites (history : History) {symbols : SymbolTable} {document : String}
    {site : Site} (h : site ∈ history.sites (new symbols document) []) :
    (history.replay (new symbols document)).enclosingAt? site.position =
      site.member?.map (·.symbol) := by
  obtain ⟨inner, hactive, hfound⟩ := history.narrowest?_at_site _ h
  rw [Tree.enclosingAt?, regions_replay_new, hfound, Site.member?, hactive, List.append_nil]

/-- Whatever calls a builder has seen, also with failed ones and with members that were given up,
    the regions of the tree nest and every position belongs to the shortest one around it.  Every
    operation was inserted by one of the calls, and the position that it took then belongs to the
    innermost member call that was active and was completed later. -/
theorem enclosingAt?_spec (symbols : SymbolTable) (document : String) :
    (∀ built, Run (new symbols document) built ↔
      ∃ history : History, history.replay (new symbols document) = built) ∧
    ∀ history : History, (history.replay (new symbols document)).HasNestedRegions ∧
      (∀ id, ((history.replay (new symbols document)).get? id).isSome →
        ∃ site ∈ history.sites (new symbols document) [], site.id = id) ∧
      ∀ site ∈ history.sites (new symbols document) [],
        (∃ operation, (history.replay (new symbols document)).get? site.id = some operation ∧
          operation.span.stop = site.position + 1) ∧
        (history.replay (new symbols document)).enclosingAt? site.position =
          site.member?.map (·.symbol) := by
  refine ⟨fun built => run_iff_exists_history, fun history => ⟨?_, fun id => ?_, ?_⟩⟩
  · apply Tree.hasNestedRegions_of_pairwise
    rw [regions_replay_new]
    exact history.pairwise_regions _
  · exact history.exists_mem_sites _ [] rfl
  · intro site hsite
    exact ⟨history.get?_of_mem_sites _ hsite, history.enclosingAt?_of_mem_sites hsite⟩

end Builder.History

end DefensiveCopy
