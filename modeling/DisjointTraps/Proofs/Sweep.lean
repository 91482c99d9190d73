import DisjointTraps.Proofs.Pieces
import DisjointTraps.Split
import Mathlib.Data.List.Sort

set_option autoImplicit false

namespace DisjointTraps

variable {ε : Type}

/-- The pairs of an element and the one after it. -/
def neighbours (cuts : List Position) : List (Position × Position) := cuts.zip cuts.tail

theorem neighbours_cons_cons (first limit : Position) (rest : List Position) :
    neighbours (first :: limit :: rest) = (first, limit) :: neighbours (limit :: rest) := rfl

theorem rel_of_mem_neighbours {related : Position → Position → Prop} {cuts : List Position}
    (chain : cuts.IsChain related) {first limit : Position}
    (member : (first, limit) ∈ neighbours cuts) : related first limit := by
  induction cuts with
  | nil => cases member
  | cons cut rest ih =>
      cases rest with
      | nil => cases member
      | cons next rest =>
          obtain ⟨here, later⟩ := List.isChain_cons_cons.mp chain
          rw [neighbours_cons_cons, List.mem_cons] at member
          cases member with
          | inl pair =>
              cases pair
              exact here
          | inr member => exact ih later member

def blockBetween (lists : Position → Dispatch ε) (pair : Position × Position) :
    Option (TryBlock ε) :=
  if (lists pair.1).isEmpty then none else some ⟨⟨pair.1, pair.2⟩, lists pair.1⟩

theorem cutAt_eq_filterMap (lists : Position → Dispatch ε) (cuts : List Position) :
    cutAt lists cuts = (neighbours cuts).filterMap (blockBetween lists) := by
  induction cuts with
  | nil => rfl
  | cons first rest ih =>
      cases rest with
      | nil => rfl
      | cons limit rest =>
          rw [neighbours_cons_cons, List.filterMap_cons, blockBetween]
          by_cases gap : lists first = []
          · rw [cutAt_gap limit rest gap, ih, gap, List.isEmpty_nil, if_pos rfl]
          · rw [cutAt_block limit rest gap, ih, if_neg (by simpa using gap)]

/-- The boundaries are the only list that has the positions where a trap begins or ends in
increasing order. -/
theorem Timeline.boundaries_unique {traps : List (Trap ε)} {cuts : List Position}
    (sorted : cuts.Pairwise (· < ·))
    (ends : ∀ p, p ∈ cuts ↔ ∃ trap ∈ traps, p = trap.span.first ∨ p = trap.span.limit) :
    (ofTraps traps).boundaries = cuts := by
  apply List.Pairwise.eq_of_mem_iff (boundaries_sorted traps) sorted
  intro p
  rw [mem_boundaries, ends]
  rfl

theorem requireWellFormed_eq_ok_iff (count : Position) (traps : List (Trap ε)) :
    requireWellFormed count traps = .ok () ↔ ∀ trap ∈ traps, trap.WellFormed count := by
  rw [← malformed_eq_nil_iff, requireWellFormed]
  cases malformed count traps with
  | nil => exact iff_of_true rfl rfl
  | cons d rest => exact iff_of_false (by intro passed; cases passed) (by intro none; cases none)

variable [DecidableEq ε]

/-- On traps that fit, going along the timeline is the same as looking at every piece on its own.
The boundaries are all positions where a trap begins or ends, in order and each once. Between two
neighbouring ones the dispatch list stays that of the first, and the pieces are these spans with
these lists, without the gaps. -/
theorem pieces_eq_blocks_between (count : Position) (traps : List (Trap ε))
    (accepted : requireWellFormed count traps = .ok ()) :
    let cuts := (Timeline.ofTraps traps).boundaries
    cuts.Pairwise (· < ·) ∧
    (∀ p, p ∈ cuts ↔ ∃ trap ∈ traps, p = trap.span.first ∨ p = trap.span.limit) ∧
    (Timeline.ofTraps traps).pieces =
      (neighbours cuts).filterMap (fun pair =>
        if (dispatchAt traps pair.1).isEmpty then none
        else some ⟨⟨pair.1, pair.2⟩, dispatchAt traps pair.1⟩) ∧
    ∀ first limit, (first, limit) ∈ neighbours cuts →
      ∀ p ∈ Span.mk first limit, dispatchAt traps p = dispatchAt traps first := by
  have fits := (requireWellFormed_eq_ok_iff count traps).mp accepted
  refine ⟨Timeline.boundaries_sorted traps, Timeline.mem_boundaries traps, ?_, ?_⟩
  · rw [Timeline.pieces_eq_cutAt fits, cutAt_eq_filterMap]
    rfl
  · intro first limit member p inside
    have steady := rel_of_mem_neighbours (Timeline.boundaries_steady traps) member
    exact steady.2 p inside.1 inside.2

/-- Overlapping traps, the later one shadowed in part, and a gap before the last one. -/
theorem pieces_eq_blocks_between_overlapping :
    ∃ traps : List (Trap Nat),
      requireWellFormed 9 traps = .ok () ∧
      (Timeline.ofTraps traps).boundaries = [1, 2, 4, 5, 7, 8] ∧
      (Timeline.ofTraps traps).pieces =
        [⟨⟨1, 2⟩, [⟨1, 3⟩]⟩, ⟨⟨2, 4⟩, [⟨0, 3⟩, ⟨1, 3⟩]⟩, ⟨⟨4, 5⟩, [⟨0, 3⟩]⟩, ⟨⟨7, 8⟩, [⟨0, 0⟩]⟩] ∧
      dispatchAt traps 3 = dispatchAt traps 2 := by
  let traps : List (Trap Nat) :=
    [⟨⟨2, 5⟩, ⟨0, 3⟩⟩, ⟨⟨1, 4⟩, ⟨1, 3⟩⟩, ⟨⟨2, 4⟩, ⟨0, 6⟩⟩, ⟨⟨7, 8⟩, ⟨0, 0⟩⟩]
  have accepted : requireWellFormed 9 traps = .ok () := by decide
  have cuts : (Timeline.ofTraps traps).boundaries = [1, 2, 4, 5, 7, 8] := by
    apply Timeline.boundaries_unique
    · decide
    · intro p
      simp only [traps, List.mem_cons, List.not_mem_nil, exists_eq_or_imp]
      tauto
  obtain ⟨-, -, pieces, steady⟩ := pieces_eq_blocks_between 9 traps accepted
  rw [cuts] at pieces steady
  refine ⟨traps, accepted, cuts, pieces, ?_⟩
  exact steady 2 4 (by decide) 3 (by decide)

end DisjointTraps
