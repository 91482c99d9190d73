import DisjointTraps.Proofs.Partition

set_option autoImplicit false

namespace DisjointTraps

variable {ε : Type}

theorem length_withoutRepeats_le (items : List Position) :
    (withoutRepeats items).length ≤ items.length := by
  fun_induction withoutRepeats items with
  | case1 q rest ih => exact Nat.le_succ_of_le ih
  | case2 q next rest differ ih => exact Nat.succ_le_succ ih
  | case3 items short => exact Nat.le_refl _

theorem Timeline.length_boundaries_le (traps : List (Trap ε)) :
    (ofTraps traps).boundaries.length ≤ 2 * traps.length := by
  refine Nat.le_trans (length_withoutRepeats_le _) ?_
  simp only [List.length_mergeSort, List.length_append, List.length_map, declared,
    List.length_zipIdx]
  omega

theorem length_cutAt_le (lists : Position → Dispatch ε) (cuts : List Position) :
    (cutAt lists cuts).length ≤ cuts.length - 1 := by
  fun_induction cutAt lists cuts with
  | case1 first limit rest gap ih => exact Nat.le_succ_of_le ih
  | case2 first limit rest covered ih => exact Nat.succ_le_succ ih
  | case3 cuts short => exact Nat.zero_le _

variable [DecidableEq ε]

theorem Dispatch.length_add_le (list : Dispatch ε) (handler : Handler ε) :
    (list.add handler).length ≤ list.length + 1 := by
  rcases list.add_cases handler with ⟨-, kept⟩ | ⟨-, grown⟩
  · rw [kept]
    exact Nat.le_succ _
  · rw [grown, List.length_append, List.length_singleton]

theorem length_foldl_add_le (handlers : List (Handler ε)) (list : Dispatch ε) :
    (handlers.foldl Dispatch.add list).length ≤ list.length + handlers.length := by
  induction handlers generalizing list with
  | nil => exact Nat.le_refl _
  | cons handler rest ih =>
      have step := list.length_add_le handler
      have later := ih (list.add handler)
      rw [List.foldl_cons, List.length_cons]
      omega

theorem length_dispatchAt_le (traps : List (Trap ε)) (p : Position) :
    (dispatchAt traps p).length ≤ traps.length := by
  have entries := length_foldl_add_le ((traps.filter fun trap => p ∈ trap.span).map (·.handler)) []
  have covering := List.length_filter_le (fun trap => decide (p ∈ trap.span)) traps
  rw [List.length_map, List.length_nil, Nat.zero_add] at entries
  exact Nat.le_trans entries covering

/-- The blocks between neighbouring trap boundaries cut the body in a way that keeps the dispatch. -/
theorem Timeline.cutAt_boundaries_partition (count : Position) (traps : List (Trap ε)) :
    Partition count (dispatchAt traps) (cutAt (dispatchAt traps) (ofTraps traps).boundaries) := by
  obtain ⟨placed, dispatch⟩ := cutAt_boundaries_realizes traps
  refine ⟨placed.toApart.scattered, fun p _ => ?_⟩
  have list := listAt_dispatchIn (cutAt (dispatchAt traps) (ofTraps traps).boundaries) p
  rwa [dispatch] at list

/-- The split of `m` traps has at most `2 * m - 1` blocks with at most `m` handlers each, whatever
the number of instructions, the boundary rule and the algorithm. -/
theorem split_size_bounded_by_traps (rule : BoundaryRule) (options : SplitOptions)
    (count : Position) (traps : List (Trap ε)) (declares : traps ≠ []) (table : Table ε)
    (done : split rule options count traps = .ok table) :
    table.size + 1 ≤ 2 * traps.length ∧
      ∀ block ∈ table.blocks, block.handlers.length ≤ traps.length := by
  obtain ⟨fits, allowed, splits⟩ := ((split_outcome rule options count traps).ok_iff table).mp done
  have legal := splits.legal fits allowed
  constructor
  · have fewest : table.blocks.length ≤
        (cutAt (dispatchAt traps) (Timeline.ofTraps traps).boundaries).length := by
      apply splits.finished.length_le _ (Timeline.cutAt_boundaries_partition count traps)
      intro block member
      exact UInt32.lt_of_lt_of_le (legal.nonempty block member) (legal.inside block member)
    have blocks := length_cutAt_le (dispatchAt traps) (Timeline.ofTraps traps).boundaries
    have cuts := Timeline.length_boundaries_le traps
    have some := List.length_pos_iff.mpr declares
    rw [Table.size]
    omega
  · intro block member
    have begins := Span.first_mem (legal.nonempty block member)
    rw [← splits.finished.dispatchIn_of_mem member begins, splits.finished.dispatch]
    exact length_dispatchAt_le traps block.span.first

/-- Of two traps, one inside the other: both bounds are reached. -/
theorem split_size_bounded_by_traps_nested :
    ∃ (traps : List (Trap Nat)) (table : Table Nat), traps.length = 2 ∧
      split BoundaryRule.free ⟨.instructionwise, true⟩ 5 traps = .ok table ∧
      table.size = 3 ∧ (∃ block ∈ table.blocks, block.handlers.length = 2) ∧
      table.size + 1 ≤ 2 * traps.length ∧
      ∀ block ∈ table.blocks, block.handlers.length ≤ traps.length := by
  have done : split BoundaryRule.free ⟨.instructionwise, true⟩ 5
      [⟨⟨2, 3⟩, ⟨0, 4⟩⟩, ⟨⟨0, 5⟩, ⟨1, 4⟩⟩] =
        .ok (⟨5, [⟨⟨0, 2⟩, [⟨1, 4⟩]⟩, ⟨⟨2, 3⟩, [⟨0, 4⟩, ⟨1, 4⟩]⟩, ⟨⟨3, 5⟩, [⟨1, 4⟩]⟩]⟩ :
          Table Nat) := by decide
  exact ⟨_, _, rfl, done, rfl, by decide,
    split_size_bounded_by_traps _ _ _ _ (by decide) _ done⟩

end DisjointTraps
