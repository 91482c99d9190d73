import DisjointTraps.Proofs.Audit
import DisjointTraps.Proofs.Boundaries
import DisjointTraps.Proofs.Timeline
import Mathlib.Data.List.Count
import Mathlib.Data.List.Nodup

set_option autoImplicit false

namespace DisjointTraps

variable {ε : Type}

theorem Canonical.not_joins {blocks : List (TryBlock ε)} (canonical : Canonical blocks)
    {block other : TryBlock ε} (member : block ∈ blocks) (also : other ∈ blocks) :
    ¬ block.Joins other := by
  rintro ⟨touch, equal⟩
  have nonempty := canonical.nonempty block member
  have before := canonical.dispatchIn_of_mem member (Span.last_mem nonempty)
  have after := canonical.dispatchIn_of_mem also (Span.first_mem (canonical.nonempty other also))
  have positive : 0 < block.span.limit := by grind
  apply canonical.change_of_boundary member positive (.inr rfl)
  rw [before, touch, after, equal]

section Boundaries

def edges (blocks : List (TryBlock ε)) : List Position :=
  blocks.flatMap fun block => [block.span.first, block.span.limit]

theorem edges_cons (block : TryBlock ε) (rest : List (TryBlock ε)) :
    edges (block :: rest) = [block.span.first, block.span.limit] ++ edges rest := rfl

theorem mem_edges_iff {blocks : List (TryBlock ε)} {p : Position} :
    p ∈ edges blocks ↔ HasBoundary blocks p := by
  simp only [edges, HasBoundary, List.mem_flatMap, List.mem_cons, List.not_mem_nil, or_false]

theorem forall_allowed_iff (rule : BoundaryRule) (count : Position) (blocks : List (TryBlock ε)) :
    (∀ block ∈ blocks, ∀ p ∈ [block.span.first, block.span.limit],
        rule.forbids count p = false) ↔
      ∀ p, HasBoundary blocks p → rule.forbids count p = false := by
  constructor
  · rintro allowed p ⟨block, member, boundary⟩
    exact allowed block member p (by simpa using boundary)
  · intro allowed block member p boundary
    exact allowed p ⟨block, member, by simpa using boundary⟩

variable {rule : BoundaryRule} {count : Position}

/-- The pass over boundaries can be interrupted if the one reported last is kept. -/
theorem boundaryFindings_append (last : Option Position) (front back : List Position) :
    (boundaryFindings (ε := ε) rule count last (front ++ back)).1 =
      (boundaryFindings rule count last front).1 ++
        (boundaryFindings rule count (boundaryFindings (ε := ε) rule count last front).2 back).1 := by
  induction front generalizing last with
  | nil => rfl
  | cons p rest ih =>
      rw [List.cons_append, boundaryFindings, boundaryFindings]
      split
      · exact congrArg (.forbiddenBoundary p :: ·) (ih (some p))
      · exact ih last

/-- After a report, the pass reports what follows without repetitions of the report. -/
theorem boundaryFindings_some (q : Position) (positions : List Position) :
    .forbiddenBoundary q :: (boundaryFindings (ε := ε) rule count (some q) positions).1 =
      (withoutRepeats (q :: positions.filter (rule.forbids count))).map .forbiddenBoundary := by
  induction positions generalizing q with
  | nil => rfl
  | cons p rest ih =>
      by_cases forbidden : rule.forbids count p = true
      · rw [List.filter_cons_of_pos forbidden, withoutRepeats, boundaryFindings]
        by_cases same : q = p
        · rw [if_neg (fun both => both.1 (congrArg some same)), if_pos same, ← same]
          exact ih q
        · rw [if_pos ⟨fun equal => same (Option.some.inj equal), forbidden⟩, if_neg same,
            List.map_cons, ← ih p]
      · rw [List.filter_cons_of_neg forbidden, boundaryFindings,
          if_neg (fun both => forbidden both.2)]
        exact ih q

/-- A pass from the beginning reports the forbidden boundaries without the repetitions that
directly follow a report. -/
theorem boundaryFindings_none (positions : List Position) :
    (boundaryFindings (ε := ε) rule count none positions).1 =
      (withoutRepeats (positions.filter (rule.forbids count))).map .forbiddenBoundary := by
  induction positions with
  | nil => rfl
  | cons p rest ih =>
      by_cases forbidden : rule.forbids count p = true
      · rw [List.filter_cons_of_pos forbidden, ← boundaryFindings_some, boundaryFindings,
          if_pos ⟨Option.some_ne_none p |>.symm, forbidden⟩]
      · rw [List.filter_cons_of_neg forbidden, boundaryFindings,
          if_neg (fun both => forbidden both.2), ih]

theorem mem_forbidden_edges_iff (blocks : List (TryBlock ε)) (p : Position) :
    p ∈ withoutRepeats ((edges blocks).filter (rule.forbids count)) ↔
      HasBoundary blocks p ∧ 0 < p ∧ p < count ∧ rule p = true := by
  rw [mem_withoutRepeats, List.mem_filter, mem_edges_iff, BoundaryRule.forbids_iff]

end Boundaries

variable [DecidableEq ε] {rule : BoundaryRule} {count : Position}

theorem count_blockFindings (block : TryBlock ε) (p : Position) :
    (blockFindings count block).count (.forbiddenBoundary p) = 0 := by
  apply List.count_eq_zero_of_not_mem
  intro member
  simp only [blockFindings, List.mem_append, List.mem_map] at member
  grind

theorem count_neighbourFindings (previous : Option (TryBlock ε)) (block : TryBlock ε)
    (p : Position) : (neighbourFindings previous block).count (.forbiddenBoundary p) = 0 := by
  apply List.count_eq_zero_of_not_mem
  intro member
  unfold neighbourFindings at member
  grind

/-- Block by block or all at once, the same boundaries are reported: the one reported last is
carried from each block to the next. -/
theorem count_structureFrom (previous : Option (TryBlock ε)) (last : Option Position)
    (blocks : List (TryBlock ε)) (p : Position) :
    (structureFrom rule count previous last blocks).count (.forbiddenBoundary p) =
      (boundaryFindings (ε := ε) rule count last (edges blocks)).1.count
        (.forbiddenBoundary p) := by
  induction blocks generalizing previous last with
  | nil => rfl
  | cons block rest ih =>
      rw [structureFrom, edges_cons, boundaryFindings_append]
      simp only [List.count_append, count_blockFindings, count_neighbourFindings, ih,
        Nat.zero_add, Nat.add_zero]

theorem count_checkStructure (rule : BoundaryRule) (table : Table ε) (p : Position) :
    (checkStructure rule table).count (.forbiddenBoundary p) =
      (withoutRepeats ((edges table.blocks).filter (rule.forbids table.count))).count p := by
  have apart : Function.Injective (Finding.forbiddenBoundary : Position → Finding ε) :=
    fun _ _ same => Finding.forbiddenBoundary.inj same
  rw [checkStructure, count_structureFrom, boundaryFindings_none,
    List.count_map_of_injective _ _ apart]

/-- The check accepts exactly the tables of the documented form: no block is empty or reaches past
the end of the body, each has handlers and none for an exception type twice, each ends before all
later ones begin, no forbidden position inside the body is a boundary, and no two blocks that touch
have equal lists. -/
theorem checkStructure_decides_form (rule : BoundaryRule) (table : Table ε) :
    checkStructure rule table = [] ↔
      (∀ block ∈ table.blocks,
        block.span.first < block.span.limit ∧ block.span.limit ≤ table.count) ∧
      (∀ block ∈ table.blocks, block.handlers ≠ [] ∧ block.handlers.Distinct) ∧
      (table.blocks.Pairwise fun block later => block.span.limit ≤ later.span.first) ∧
      (∀ p, 0 < p → p < table.count → rule p = true → ¬ HasBoundary table.blocks p) ∧
      ∀ block ∈ table.blocks, ∀ other ∈ table.blocks,
        block.span.limit = other.span.first → block.handlers ≠ other.handlers := by
  rw [checkStructure_eq_nil_iff]
  constructor
  · intro legal
    have allowed := (forall_allowed_iff rule table.count table.blocks).mp legal.allowed
    refine ⟨fun block member => ⟨legal.nonempty block member, legal.inside block member⟩,
      fun block member => ⟨legal.handled block member, legal.distinct block member⟩,
      legal.ordered, ?_, ?_⟩
    · intro p positive inside illegal boundary
      have forbidden := (rule.forbids_iff table.count p).mpr ⟨positive, inside, illegal⟩
      exact Bool.false_ne_true ((allowed p boundary).symm.trans forbidden)
    · intro block member other also touch equal
      exact legal.toCanonical.not_joins member also ⟨touch, equal⟩
  · rintro ⟨spans, lists, ordered, allowed, differ⟩
    exact {
      nonempty := fun block member => (spans block member).1
      ordered := ordered
      handled := fun block member => (lists block member).1
      coalesced := ordered.isChain.imp_of_mem_imp fun block next member also _ joins =>
        differ block member next also joins.1 joins.2
      inside := fun block member => (spans block member).2
      distinct := fun block member => (lists block member).2
      allowed := (forall_allowed_iff rule table.count table.blocks).mpr fun p boundary => by
        rw [← Bool.not_eq_true, rule.forbids_iff]
        rintro ⟨positive, inside, illegal⟩
        exact allowed p positive inside illegal boundary }

/-- Whatever the table is, the forbidden boundaries that the check names are exactly those of its
blocks. If the boundaries never decrease from one to the next, each is named once. -/
theorem checkStructure_names_forbidden_boundaries (rule : BoundaryRule) (table : Table ε) :
    (∀ p, .forbiddenBoundary p ∈ checkStructure rule table ↔
      HasBoundary table.blocks p ∧ 0 < p ∧ p < table.count ∧ rule p = true) ∧
    ((edges table.blocks).Pairwise (· ≤ ·) →
      ∀ p, HasBoundary table.blocks p → 0 < p → p < table.count → rule p = true →
        (checkStructure rule table).count (.forbiddenBoundary p) = 1) := by
  constructor
  · intro p
    rw [← List.count_pos_iff, count_checkStructure, List.count_pos_iff, mem_forbidden_edges_iff]
  · intro sorted p boundary positive inside illegal
    have once : (withoutRepeats ((edges table.blocks).filter (rule.forbids table.count))).Nodup :=
      (withoutRepeats_sorted (sorted.filter _)).imp UInt32.ne_of_lt
    rw [count_checkStructure]
    apply List.count_eq_one_of_mem once
    exact (mem_forbidden_edges_iff table.blocks p).mpr ⟨boundary, positive, inside, illegal⟩

/-- Three blocks share a boundary, one of them empty, and the last one reaches past the end. -/
theorem checkStructure_names_forbidden_boundaries_touching :
    ∃ table : Table Nat,
      table.count = 8 ∧ table.blocks.map (·.span) = [⟨0, 3⟩, ⟨3, 3⟩, ⟨3, 5⟩, ⟨6, 9⟩] ∧
      (checkStructure (.ofList [3, 9]) table).count (.forbiddenBoundary 3) = 1 ∧
      .forbiddenBoundary 9 ∉ checkStructure (.ofList [3, 9]) table := by
  let table : Table Nat :=
    ⟨8, [⟨⟨0, 3⟩, [⟨0, 1⟩]⟩, ⟨⟨3, 3⟩, []⟩, ⟨⟨3, 5⟩, [⟨0, 1⟩]⟩, ⟨⟨6, 9⟩, [⟨0, 1⟩]⟩]⟩
  obtain ⟨named, once⟩ := checkStructure_names_forbidden_boundaries (.ofList [3, 9]) table
  have shared : HasBoundary table.blocks 3 := ⟨⟨⟨3, 3⟩, []⟩, by decide, .inl rfl⟩
  refine ⟨table, rfl, rfl, once (by decide) 3 shared (by decide) (by decide) rfl, ?_⟩
  intro member
  exact absurd ((named 9).mp member).2.2.1 (by decide)

/-- In blocks that are out of order a boundary can be named again. -/
example : (checkStructure (.ofList [3, 5])
    (⟨8, [⟨⟨3, 5⟩, [⟨0, 1⟩]⟩, ⟨⟨0, 3⟩, [⟨0, 1⟩]⟩]⟩ : Table Nat)).count (.forbiddenBoundary 3) = 2 := by
  decide

end DisjointTraps
