import DisjointTraps.Proofs.Comparison

set_option autoImplicit false

namespace DisjointTraps

/-- The list holds exactly what is wanted, each once and in increasing order. -/
structure Enumerates {α : Type} [LT α] (wanted : α → Prop) (items : List α) : Prop where
  increasing : items.Pairwise (· < ·)
  mem_iff : ∀ item, item ∈ items ↔ wanted item

variable {ε : Type}

/-- The trap with this index is declared and does not fit into a body of `count` instructions. -/
def MalformedAt (count : Position) (traps : List (Trap ε)) (index : Nat) : Prop :=
  ∃ trap, traps[index]? = some trap ∧ ¬ trap.WellFormed count

theorem malformed_enumerates (count : Position) (traps : List (Trap ε)) :
    Enumerates (MalformedAt count traps) ((malformed count traps).map (·.index)) := by
  constructor
  · exact List.pairwise_map.mpr (malformed_sorted count traps)
  · intro index
    rw [List.mem_map]
    constructor
    · rintro ⟨d, member, rfl⟩
      exact ⟨d.trap, mem_malformed.mp member⟩
    · rintro ⟨trap, here, wrong⟩
      exact ⟨⟨index, trap⟩, mem_malformed.mpr ⟨here, wrong⟩, rfl⟩

theorem malformedFindings_eq (side : Side) (count : Position) (traps : List (Trap ε)) :
    malformedFindings side count traps =
      ((malformed count traps).map (·.index)).map (.malformedTrap side) := by
  rw [malformedFindings, List.map_map]
  rfl

variable [DecidableEq ε]

theorem differences_enumerates (count : Position) (expected actual : Position → Dispatch ε) :
    Enumerates (fun p => p < count ∧ expected p ≠ actual p)
      ((upFrom 0 count.toNat).filter fun p => expected p ≠ actual p) := by
  constructor
  · exact (upFrom_zero_sorted count).filter _
  · intro p
    rw [List.mem_filter, mem_upFrom_zero, decide_eq_true_eq]

/-- If a trap does not fit, the malformed traps are all that is reported. -/
theorem compareTraps_eq_malformedFindings {count : Position} {before after : List (Trap ε)}
    (declared : before ≠ []) (misfit : ∃ trap ∈ before ++ after, ¬ trap.WellFormed count) :
    compareTraps count before count after =
      some (malformedFindings .before count before ++ malformedFindings .after count after) := by
  have found : malformedFindings .before count before ++ malformedFindings .after count after ≠
      [] := by
    intro clean
    obtain ⟨trap, member, wrong⟩ := misfit
    obtain ⟨early, late⟩ := List.append_eq_nil_iff.mp clean
    rw [malformedFindings_eq_nil_iff] at early late
    rcases List.mem_append.mp member with one | other
    · exact wrong (early trap one)
    · exact wrong (late trap other)
  rw [compareTraps, if_neg (not_not.mpr rfl), if_neg (by simpa using declared),
    if_pos (by simpa using found)]

/-- The comparison reports every problem once and in order. Bodies of different lengths are one
problem, and no other is looked for. A body without traps may be given any. If a trap of one of the
lists does not fit, each such trap is reported, those of the first list before those of the second,
by rising index. Otherwise each instruction with different dispatch lists is reported with these
lists, by rising position, and there is no report if no instruction has them. -/
theorem compareTraps_reports_each_problem (before after : List (Trap ε)) :
    (∀ countBefore countAfter, countBefore ≠ countAfter →
      compareTraps countBefore before countAfter after =
        some [.lengthsDiffer countBefore countAfter]) ∧
    (∀ count, before = [] → compareTraps count before count after = some []) ∧
    (∀ count, before ≠ [] → (∃ trap ∈ before ++ after, ¬ trap.WellFormed count) →
      ∃ early late, Enumerates (MalformedAt count before) early ∧
        Enumerates (MalformedAt count after) late ∧
        compareTraps count before count after =
          some (early.map (.malformedTrap .before) ++ late.map (.malformedTrap .after))) ∧
    (∀ count, before ≠ [] → (∀ trap ∈ before ++ after, trap.WellFormed count) →
      ∃ positions,
        Enumerates (fun p => p < count ∧ dispatchAt before p ≠ dispatchAt after p) positions ∧
        compareTraps count before count after =
          some (positions.map fun p => .mismatch p (dispatchAt before p) (dispatchAt after p))) := by
  refine ⟨?_, ?_, ?_, ?_⟩
  · intro countBefore countAfter differ
    rw [compareTraps, if_pos differ]
  · rintro count rfl
    rw [compareTraps, if_neg (not_not.mpr rfl), List.isEmpty_nil, if_pos rfl]
  · intro count declared misfit
    refine ⟨_, _, malformed_enumerates count before, malformed_enumerates count after, ?_⟩
    rw [compareTraps_eq_malformedFindings declared misfit, malformedFindings_eq,
      malformedFindings_eq]
  · intro count declared fits
    rw [List.forall_mem_append] at fits
    refine ⟨_, differences_enumerates count (dispatchAt before) (dispatchAt after), ?_⟩
    rw [compareTraps_eq_mismatches declared fits.1 fits.2, mismatches_upFrom]

/-- Two traps of each list do not fit into 6 instructions. All of them fit into 10, and there the
lists differ in what they say about instructions 4 and 8. -/
theorem compareTraps_reports_each_problem_by_length :
    ∃ before after : List (Trap Nat),
      compareTraps 6 before 10 after = some [.lengthsDiffer 6 10] ∧
      compareTraps 6 [] 6 after = some [] ∧
      (compareTraps 6 before 6 after = some [.malformedTrap .before 1, .malformedTrap .before 2,
          .malformedTrap .after 0, .malformedTrap .after 2] ∧
        ∃ early late, Enumerates (MalformedAt 6 before) early ∧
          Enumerates (MalformedAt 6 after) late ∧
          compareTraps 6 before 6 after =
            some (early.map (.malformedTrap .before) ++ late.map (.malformedTrap .after))) ∧
      (compareTraps 10 before 10 after =
          some [.mismatch 4 [⟨1, 2⟩] [], .mismatch 8 [⟨1, 2⟩] [⟨0, 2⟩, ⟨1, 2⟩]] ∧
        ∃ positions,
          Enumerates (fun p => p < 10 ∧ dispatchAt before p ≠ dispatchAt after p) positions ∧
          compareTraps 10 before 10 after =
            some (positions.map fun p =>
              .mismatch p (dispatchAt before p) (dispatchAt after p))) := by
  let before : List (Trap Nat) := [⟨⟨0, 3⟩, ⟨0, 5⟩⟩, ⟨⟨4, 9⟩, ⟨1, 2⟩⟩, ⟨⟨1, 2⟩, ⟨0, 8⟩⟩]
  let after : List (Trap Nat) := [⟨⟨8, 9⟩, ⟨0, 2⟩⟩, ⟨⟨0, 3⟩, ⟨0, 5⟩⟩, ⟨⟨5, 9⟩, ⟨1, 2⟩⟩]
  obtain ⟨lengths, -, misfits, differences⟩ := compareTraps_reports_each_problem before after
  obtain ⟨-, free, -⟩ := compareTraps_reports_each_problem [] after
  exact ⟨before, after, lengths 6 10 (by decide), free 6 rfl,
    ⟨by decide, misfits 6 (by decide) (by decide)⟩,
    ⟨by decide, differences 10 (by decide) (by decide)⟩⟩

end DisjointTraps
