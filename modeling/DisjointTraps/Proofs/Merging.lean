import DisjointTraps.Proofs.Seams
import Mathlib.Logic.Relation

set_option autoImplicit false

namespace DisjointTraps

variable {ε : Type}

/-- Two neighbours that touch and have equal dispatch lists become one block. -/
inductive Merge : List (TryBlock ε) → List (TryBlock ε) → Prop
  | join (before : List (TryBlock ε)) {block next : TryBlock ε} (joins : block.Joins next)
      (after : List (TryBlock ε)) :
      Merge (before ++ block :: next :: after)
        (before ++ block.extend next.span.limit :: after)

/-- Any number of merges, one after the other. -/
abbrev Merges : List (TryBlock ε) → List (TryBlock ε) → Prop := Relation.ReflTransGen Merge

section Steps

variable {blocks merged final : List (TryBlock ε)}

theorem Merge.cons (block : TryBlock ε) (step : Merge blocks merged) :
    Merge (block :: blocks) (block :: merged) := by
  cases step with
  | join before joins after => exact .join (block :: before) joins after

theorem Merges.cons (block : TryBlock ε) (steps : Merges blocks merged) :
    Merges (block :: blocks) (block :: merged) :=
  steps.lift (block :: ·) fun _ _ step => step.cons block

theorem Merge.length_lt (step : Merge blocks merged) : merged.length < blocks.length := by
  cases step with
  | join before joins after =>
      simp only [List.length_append, List.length_cons]
      omega

/-- No sequence of merges goes on for ever. -/
theorem merge_wellFounded :
    WellFounded fun later earlier : List (TryBlock ε) => Merge earlier later :=
  Subrelation.wf (fun step => step.length_lt) (measure List.length).wf

theorem Merges.keep (kept : List (TryBlock ε) → Prop)
    (step : ∀ {earlier later}, Merge earlier later → kept earlier → kept later)
    (steps : Merges blocks merged) (start : kept blocks) : kept merged := by
  induction steps with
  | refl => exact start
  | tail _ last ih => exact step last ih

/-- Nothing can be merged exactly if no two neighbours touch and have equal lists. -/
theorem not_merge_iff :
    (∀ merged, ¬ Merge blocks merged) ↔ blocks.IsChain fun block next => ¬ block.Joins next := by
  constructor
  · intro stuck
    induction blocks with
    | nil => exact .nil
    | cons block rest ih =>
        have later := ih fun merged step => stuck _ (step.cons block)
        cases rest with
        | nil => exact .singleton block
        | cons next rest =>
            exact List.isChain_cons_cons.mpr ⟨fun joins => stuck _ (.join [] joins rest), later⟩
  · intro apart merged step
    cases step with
    | join before joins after =>
        exact (List.isChain_cons_cons.mp apart.right_of_append).1 joins

variable [DecidableEq ε]

theorem coalesce_of_isChain (apart : blocks.IsChain fun block next => ¬ block.Joins next) :
    coalesce blocks = blocks := by
  induction blocks with
  | nil => rfl
  | cons block rest ih =>
      cases rest with
      | nil => rfl
      | cons next rest =>
          obtain ⟨differ, later⟩ := List.isChain_cons_cons.mp apart
          have kept := ih later
          rw [coalesce] at kept ⊢
          rw [coalesceFrom_cons_apart rest differ, kept]

/-- A merge anywhere in the list leaves the result of the pass as it is. -/
theorem Merge.coalesce_eq (step : Merge blocks merged) : coalesce merged = coalesce blocks := by
  cases step with
  | join before joins after =>
      -- The blocks before the merge are attached to the result for the others, one by one.
      induction before with
      | nil => exact coalesce_extend joins after
      | cons block before ih =>
          rw [List.cons_append, List.cons_append, coalesce_cons, coalesce_cons, ih]

theorem Merges.coalesce_eq (steps : Merges blocks merged) : coalesce merged = coalesce blocks :=
  steps.keep (fun reached => coalesce reached = coalesce blocks)
    (fun step same => step.coalesce_eq.trans same) rfl

theorem merges_coalesceFrom (current : TryBlock ε) (rest : List (TryBlock ε)) :
    Merges (current :: rest) (coalesceFrom current rest) := by
  induction rest generalizing current with
  | nil => exact .refl
  | cons next rest ih =>
      by_cases joins : current.Joins next
      · rw [coalesceFrom_cons_join rest joins]
        exact .head (.join [] joins rest) (ih _)
      · rw [coalesceFrom_cons_apart rest joins]
        exact (ih next).cons current

/-- The pass from the first block to the last is one of the ways to merge. -/
theorem merges_coalesce (blocks : List (TryBlock ε)) : Merges blocks (coalesce blocks) := by
  cases blocks with
  | nil => exact .refl
  | cons first rest => exact merges_coalesceFrom first rest

/-- The pass leaves nothing to merge. -/
theorem not_merge_coalesce (blocks : List (TryBlock ε)) :
    ∀ merged, ¬ Merge (coalesce blocks) merged :=
  not_merge_iff.mpr (coalesce_isChain blocks)

end Steps

section Coverage

variable {blocks merged : List (TryBlock ε)}

/-- No block ends before it begins. An empty one is allowed. -/
def Forward (blocks : List (TryBlock ε)) : Prop :=
  ∀ block ∈ blocks, block.span.first ≤ block.span.limit

theorem Merge.forward (step : Merge blocks merged) (forward : Forward blocks) : Forward merged := by
  cases step with
  | @join before block next joins after =>
      simp only [Forward, List.forall_mem_append, List.forall_mem_cons] at forward ⊢
      obtain ⟨earlier, one, other, later⟩ := forward
      refine ⟨earlier, ?_, later⟩
      show block.span.first ≤ next.span.limit
      exact UInt32.le_trans one (joins.1 ▸ other)

theorem Merge.exists_first_eq (step : Merge blocks merged) {block : TryBlock ε}
    (member : block ∈ merged) : ∃ earlier ∈ blocks, earlier.span.first = block.span.first := by
  cases step with
  | join before joins after =>
      rcases List.mem_append.mp member with front | back
      · exact ⟨block, List.mem_append_left _ front, rfl⟩
      · rcases List.mem_cons.mp back with rfl | rest
        · exact ⟨_, List.mem_append_right before List.mem_cons_self, rfl⟩
        · refine ⟨block, List.mem_append_right before ?_, rfl⟩
          exact List.mem_cons_of_mem _ (List.mem_cons_of_mem _ rest)

theorem Merge.apart (step : Merge blocks merged) (apart : Apart blocks) : Apart merged := by
  cases step with
  | join before joins after =>
      induction before with
      | nil => exact apart.merge joins.1
      | cons head before ih =>
          -- What comes later begins where it did, so the first block still ends before it.
          obtain ⟨nonempty, later, tail⟩ := (apart_cons head _).mp apart
          refine (apart_cons head _).mpr ⟨nonempty, fun other member => ?_, ih tail⟩
          obtain ⟨earlier, listed, same⟩ := (Merge.join before joins after).exists_first_eq member
          rw [← same]
          exact later earlier listed

variable [DecidableEq ε]

/-- How many of the blocks with this dispatch list contain `p`. -/
def countAt (blocks : List (TryBlock ε)) (p : Position) (list : Dispatch ε) : Nat :=
  blocks.countP fun block => p ∈ block.span ∧ block.handlers = list

theorem countAt_cons (block : TryBlock ε) (rest : List (TryBlock ε)) (p : Position)
    (list : Dispatch ε) :
    countAt (block :: rest) p list =
      countAt rest p list + if p ∈ block.span ∧ block.handlers = list then 1 else 0 := by
  simp only [countAt, List.countP_cons, decide_eq_true_eq]

theorem countAt_append (front back : List (TryBlock ε)) (p : Position) (list : Dispatch ε) :
    countAt (front ++ back) p list = countAt front p list + countAt back p list :=
  List.countP_append

/-- A position of the merged block lies in exactly one of its two parts. -/
theorem countAt_extend {block next : TryBlock ε} (joins : block.Joins next)
    (one : block.span.first ≤ block.span.limit) (other : next.span.first ≤ next.span.limit)
    (rest : List (TryBlock ε)) (p : Position) (list : Dispatch ε) :
    countAt (block.extend next.span.limit :: rest) p list =
      countAt (block :: next :: rest) p list := by
  have spans := mem_extend_iff joins.1 one other p
  have once : ¬ (p ∈ block.span ∧ p ∈ next.span) := by
    rintro ⟨⟨-, early⟩, late, -⟩
    rw [← joins.1] at late
    exact absurd early (UInt32.not_lt.mpr late)
  have kept : (block.extend next.span.limit).handlers = next.handlers := joins.2
  simp only [countAt_cons, spans, kept, joins.2, Nat.add_assoc, Nat.add_left_cancel_iff]
  by_cases listed : next.handlers = list
  · by_cases first : p ∈ block.span
    · have second : p ∉ next.span := fun inside => once ⟨first, inside⟩
      simp only [first, second, listed, true_or, and_self, false_and, ↓reduceIte]
    · simp only [first, listed, false_or, false_and, ↓reduceIte, Nat.add_zero]
  · simp only [listed, and_false, ↓reduceIte]

theorem Merge.countAt_eq (step : Merge blocks merged) (forward : Forward blocks) (p : Position)
    (list : Dispatch ε) : countAt merged p list = countAt blocks p list := by
  cases step with
  | join before joins after =>
      simp only [Forward, List.forall_mem_append, List.forall_mem_cons] at forward
      obtain ⟨-, one, other, -⟩ := forward
      rw [countAt_append, countAt_append, countAt_extend joins one other]

theorem Merges.countAt_eq (steps : Merges blocks merged) (forward : Forward blocks) (p : Position)
    (list : Dispatch ε) : countAt merged p list = countAt blocks p list := by
  have kept := steps.keep
    (fun reached => Forward reached ∧ countAt reached p list = countAt blocks p list)
    (fun step now => ⟨step.forward now.1, (step.countAt_eq now.1 p list).trans now.2⟩)
    ⟨forward, rfl⟩
  exact kept.2

end Coverage

variable [DecidableEq ε]

/-- Merging has one end, whatever the blocks are. Single merges cannot go on for ever, and however
they are chosen, the blocks that are left when no two neighbours can be merged any more are those
of the pass from the first block to the last. So the pass leaves nothing to merge, and a second
pass changes nothing. -/
theorem coalesce_only_end_of_merging (blocks : List (TryBlock ε)) :
    (WellFounded fun later earlier : List (TryBlock ε) => Merge earlier later) ∧
    (∀ final, (Merges blocks final ∧ ∀ merged, ¬ Merge final merged) ↔ final = coalesce blocks) ∧
    isCoalesced (coalesce blocks) = true ∧
    coalesce (coalesce blocks) = coalesce blocks := by
  refine ⟨merge_wellFounded, fun final => ⟨?_, ?_⟩, ?_, ?_⟩
  · rintro ⟨steps, stuck⟩
    rw [← coalesce_of_isChain (not_merge_iff.mp stuck)]
    exact steps.coalesce_eq
  · rintro rfl
    exact ⟨merges_coalesce blocks, not_merge_coalesce blocks⟩
  · exact (isCoalesced_iff _).mpr (coalesce_isChain blocks)
  · exact coalesce_of_isChain (coalesce_isChain blocks)

/-- Blocks out of order, the first of them the wrong way round, merged from the middle outwards. -/
theorem coalesce_only_end_of_merging_outwards :
    ∃ blocks final : List (TryBlock Nat),
      blocks.map (·.span) = [⟨6, 4⟩, ⟨4, 5⟩, ⟨5, 9⟩, ⟨8, 9⟩] ∧ Merges blocks final ∧
      final.map (·.span) = [⟨6, 9⟩, ⟨8, 9⟩] ∧ coalesce blocks = final ∧
      coalesce (coalesce blocks) = final := by
  let list : Dispatch Nat := [⟨0, 3⟩, ⟨1, 2⟩]
  let reversed : TryBlock Nat := ⟨⟨6, 4⟩, list⟩
  let middle : TryBlock Nat := ⟨⟨4, 5⟩, list⟩
  let longer : TryBlock Nat := ⟨⟨4, 9⟩, list⟩
  let last : TryBlock Nat := ⟨⟨8, 9⟩, list⟩
  let blocks : List (TryBlock Nat) := [reversed, middle, ⟨⟨5, 9⟩, list⟩, last]
  let final : List (TryBlock Nat) := [⟨⟨6, 9⟩, list⟩, last]
  have inside : middle.Joins ⟨⟨5, 9⟩, list⟩ := ⟨rfl, rfl⟩
  have outside : reversed.Joins longer := ⟨rfl, rfl⟩
  have inner : Merge blocks [reversed, longer, last] := .join [reversed] inside [last]
  have outer : Merge [reversed, longer, last] final := .join [] outside [last]
  have steps : Merges blocks final := .tail (.single inner) outer
  have stuck : ∀ merged, ¬ Merge final merged :=
    not_merge_iff.mpr ((isCoalesced_iff final).mp (by decide))
  obtain ⟨-, only, -, again⟩ := coalesce_only_end_of_merging blocks
  have same : final = coalesce blocks := (only final).mp ⟨steps, stuck⟩
  exact ⟨blocks, final, rfl, steps, rfl, same.symm, again.trans same.symm⟩

/-- Merging neither loses, adds nor duplicates coverage: of the blocks that have a given dispatch
list, as many contain a given position afterwards as before, in whatever order they are and however
they overlap. Blocks that are in order and apart stay so. -/
theorem coalesce_keeps_coverage (blocks : List (TryBlock ε)) :
    ((∀ block ∈ blocks, block.span.first ≤ block.span.limit) →
      ∀ p list, countAt (coalesce blocks) p list = countAt blocks p list) ∧
    (Apart blocks → Apart (coalesce blocks)) := by
  have steps := merges_coalesce blocks
  exact ⟨steps.countAt_eq, steps.keep Apart Merge.apart⟩

/-- Overlapping blocks out of order, with an empty one between two that become one, and blocks that
are in order and apart. -/
theorem coalesce_keeps_coverage_overlapping :
    ∃ blocks ordered : List (TryBlock Nat),
      blocks.map (·.span) = [⟨4, 6⟩, ⟨6, 6⟩, ⟨6, 9⟩, ⟨2, 7⟩, ⟨5, 8⟩] ∧
      (coalesce blocks).map (·.span) = [⟨4, 9⟩, ⟨2, 7⟩, ⟨5, 8⟩] ∧
      countAt (coalesce blocks) 6 [⟨0, 3⟩] = 2 ∧ countAt (coalesce blocks) 6 [⟨1, 3⟩] = 1 ∧
      ordered.map (·.span) = [⟨1, 3⟩, ⟨3, 5⟩, ⟨6, 8⟩] ∧ Apart ordered ∧
      (coalesce ordered).map (·.span) = [⟨1, 5⟩, ⟨6, 8⟩] ∧ Apart (coalesce ordered) := by
  let blocks : List (TryBlock Nat) :=
    [⟨⟨4, 6⟩, [⟨0, 3⟩]⟩, ⟨⟨6, 6⟩, [⟨0, 3⟩]⟩, ⟨⟨6, 9⟩, [⟨0, 3⟩]⟩, ⟨⟨2, 7⟩, [⟨0, 3⟩]⟩,
      ⟨⟨5, 8⟩, [⟨1, 3⟩]⟩]
  let ordered : List (TryBlock Nat) :=
    [⟨⟨1, 3⟩, [⟨0, 3⟩]⟩, ⟨⟨3, 5⟩, [⟨0, 3⟩]⟩, ⟨⟨6, 8⟩, [⟨0, 3⟩]⟩]
  have apart : Apart ordered := ⟨by decide, by decide⟩
  have kept := (coalesce_keeps_coverage blocks).1 (by decide)
  have stays := (coalesce_keeps_coverage ordered).2 apart
  exact ⟨blocks, ordered, rfl, rfl, kept 6 [⟨0, 3⟩], kept 6 [⟨1, 3⟩], rfl, apart, rfl, stays⟩

end DisjointTraps
