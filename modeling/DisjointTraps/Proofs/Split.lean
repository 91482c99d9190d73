import DisjointTraps.Proofs.Outcome

set_option autoImplicit false

namespace DisjointTraps

variable {ε : Type} [DecidableEq ε]

/-- A split keeps the dispatch list of every instruction. -/
theorem split_keeps_dispatch (rule : BoundaryRule) (options : SplitOptions) (count : Position)
    (traps : List (Trap ε)) (table : Table ε)
    (done : split rule options count traps = .ok table) :
    table.count = count ∧
      (∀ p, p < count → table.dispatchAt p = dispatchAt traps p ∧
        (table.dispatchAt p = [] ↔ ∀ trap ∈ traps, p ∉ trap.span)) ∧
      ∀ p, count ≤ p → table.dispatchAt p = [] := by
  obtain ⟨fits, -, splits⟩ := ((split_outcome rule options count traps).ok_iff table).mp done
  have dispatch : ∀ p, table.dispatchAt p = dispatchAt traps p := by
    intro p
    rw [← splits.finished.dispatch]
    exact splits.finished.dispatchAt_eq p
  refine ⟨splits.count_eq, fun p _ => ⟨dispatch p, ?_⟩, fun p past => ?_⟩
  · rw [dispatch]
    exact dispatchAt_eq_nil_iff traps p
  · rw [dispatch]
    exact dispatchAt_past fits past

/-- Where the first trap shadows the second one, and where a third one adds another type. -/
theorem split_keeps_dispatch_shadowed :
    ∃ (traps : List (Trap Nat)) (table : Table Nat),
      split BoundaryRule.free ⟨.instructionwise, false⟩ 6 traps = .ok table ∧
        table.dispatchAt 2 = dispatchAt traps 2 ∧ dispatchAt traps 2 = [⟨0, 5⟩, ⟨1, 0⟩] := by
  have done : split BoundaryRule.free ⟨.instructionwise, false⟩ 6
      [⟨⟨1, 4⟩, ⟨0, 5⟩⟩, ⟨⟨2, 5⟩, ⟨0, 0⟩⟩, ⟨⟨2, 3⟩, ⟨1, 0⟩⟩] =
        .ok (⟨6, [⟨⟨1, 2⟩, [⟨0, 5⟩]⟩, ⟨⟨2, 3⟩, [⟨0, 5⟩, ⟨1, 0⟩]⟩,
          ⟨⟨3, 4⟩, [⟨0, 5⟩]⟩, ⟨⟨4, 5⟩, [⟨0, 0⟩]⟩]⟩ : Table Nat) := by decide
  obtain ⟨-, same, -⟩ := split_keeps_dispatch _ _ _ _ _ done
  exact ⟨_, _, done, (same 2 (by decide)).1, by decide⟩

/-- Both algorithms have the same result, errors included. -/
theorem split_sweep_eq_instructionwise (rule : BoundaryRule) (checked : Bool) (count : Position)
    (traps : List (Trap ε)) :
    split rule ⟨.sweep, checked⟩ count traps = split rule ⟨.instructionwise, checked⟩ count traps :=
  (split_outcome rule ⟨.sweep, checked⟩ count traps).unique
    (split_outcome rule ⟨.instructionwise, checked⟩ count traps)

/-- The check of a table accepts exactly the result of the split. So it accepts one table at most,
and a split may be checked without any change to its result. -/
theorem checkTable_accepts_split (rule : BoundaryRule) (count : Position) (traps : List (Trap ε)) :
    (∀ table, checkTable rule count traps table = some [] ↔ split rule {} count traps = .ok table) ∧
      (∀ table other, checkTable rule count traps table = some [] →
        checkTable rule count traps other = some [] → table = other) ∧
      ∀ algorithm, split rule ⟨algorithm, true⟩ count traps =
        split rule ⟨algorithm, false⟩ count traps := by
  refine ⟨fun table => ?_, fun table other accepted also => ?_, fun algorithm => ?_⟩
  · rw [(split_outcome rule {} count traps).ok_iff, checkTable_eq_nil_iff_splits]
  · rw [checkTable_eq_nil_iff_splits] at accepted also
    exact accepted.2.2.unique also.2.2
  · exact (split_outcome rule ⟨algorithm, true⟩ count traps).unique
      (split_outcome rule ⟨algorithm, false⟩ count traps)

/-- A split fails exactly on a trap that does not fit, and then names the lowest one, or else on
a change of the dispatch list at a forbidden position inside the body, and then names the lowest
one with the lists on both sides. -/
theorem split_fails_exactly (rule : BoundaryRule) (options : SplitOptions) (count : Position)
    (traps : List (Trap ε)) :
    -- Some trap does not fit.
    ((∃ index span target size,
        split rule options count traps = .error (.malformedTrap index span target size)) ↔
      ∃ trap ∈ traps, trap.span.limit ≤ trap.span.first ∨ count < trap.span.limit ∨
        count ≤ trap.handler.target) ∧
    (∀ index span target size,
      split rule options count traps = .error (.malformedTrap index span target size) ↔
        size = count ∧ ∃ trap, traps[index]? = some trap ∧ trap.span = span ∧
          trap.handler.target = target ∧ ¬ trap.WellFormed count ∧
          ∀ i < index, ∀ earlier, traps[i]? = some earlier → earlier.WellFormed count) ∧
    -- All traps fit, and some change is forbidden.
    ((∃ p before after,
        split rule options count traps = .error (.illegalSplit p before after)) ↔
      (∀ trap ∈ traps, trap.WellFormed count) ∧
        ∃ p, 0 < p ∧ p < count ∧ rule p = true ∧ dispatchAt traps (p - 1) ≠ dispatchAt traps p) ∧
    (∀ p before after,
      split rule options count traps = .error (.illegalSplit p before after) ↔
        (∀ trap ∈ traps, trap.WellFormed count) ∧
          (0 < p ∧ p < count ∧ rule p = true ∧ dispatchAt traps (p - 1) ≠ dispatchAt traps p) ∧
          (∀ q < p, 0 < q → q < count → rule q = true →
            dispatchAt traps (q - 1) = dispatchAt traps q) ∧
          before = dispatchAt traps (p - 1) ∧ after = dispatchAt traps p) ∧
    -- Neither is the case.
    ((∃ table, split rule options count traps = .ok table) ↔
      (∀ trap ∈ traps, trap.WellFormed count) ∧ ∀ p, 0 < p → p < count → rule p = true →
        dispatchAt traps (p - 1) = dispatchAt traps p) := by
  have outcome := split_outcome rule options count traps
  have misfit := outcome.exists_malformedTrap_iff
  have illegal := outcome.illegalSplit_iff
  have refused := outcome.exists_illegalSplit_iff
  have finished := outcome.exists_ok_iff
  simp only [Trap.not_wellFormed_iff] at misfit
  simp only [forbiddenChange_iff, not_and, not_not] at illegal refused finished
  exact ⟨misfit, outcome.malformedTrap_iff, refused, illegal, finished⟩

-- A forbidden position where one trap ends and an equal one begins is no change of the list.
example : split (BoundaryRule.ofList [3]) ⟨.instructionwise, false⟩ 5
    [⟨⟨1, 3⟩, ⟨0, 4⟩⟩, ⟨⟨3, 4⟩, ⟨0, 4⟩⟩] =
      .ok (⟨5, [⟨⟨1, 4⟩, [⟨0, 4⟩]⟩]⟩ : Table Nat) := by decide

example : split (BoundaryRule.ofList [3, 4]) ⟨.instructionwise, false⟩ 5
    [⟨⟨1, 3⟩, ⟨0, 4⟩⟩, ⟨⟨3, 4⟩, ⟨0, 4⟩⟩] =
      (.error (.illegalSplit 4 [⟨0, 4⟩] []) : Except (SplitError Nat) (Table Nat)) := by decide

end DisjointTraps
