import DisjointTraps.Proofs.Guarded.Absorbed
import DisjointTraps.Proofs.Guarded.Audit
import DisjointTraps.Proofs.Guarded.Runs
import DisjointTraps.Proofs.Outcome

set_option autoImplicit false

namespace DisjointTraps

variable {ε : Type} [DecidableEq ε]

namespace Guarded

def requireChecked? (rule : PartialRule) (count : Position) (traps : List (Trap ε))
    (table : Table ε) : Guarded ε (Table ε) := do
  let findings ← checkTable? rule count traps table
  if findings.isEmpty then return table else throw (.rejected findings)

def split? (rule : PartialRule) (options : SplitOptions) (count : Position)
    (traps : List (Trap ε)) : Guarded ε (Table ε) := do
  let table ← match options.algorithm with
    | .sweep => splitBySweep? rule count traps
    | .instructionwise => splitByInstruction? rule count traps
  if options.checked then requireChecked? rule count traps table else return table

variable {rule : PartialRule} {count : Position}

theorem requireChecked?_eq (answers : rule.AnswersInside count) (traps : List (Trap ε))
    (table : Table ε) :
    requireChecked? rule count traps table =
      settled (requireChecked rule.total count traps table) := by
  obtain ⟨findings, guarded, plain⟩ := checkTable?_eq answers traps table
  rw [requireChecked?, requireChecked, guarded, plain, lift_bind]
  cases findings with
  | nil => rfl
  | cons finding rest => rfl

theorem checkedEnd?_eq (answers : rule.AnswersInside count) (options : SplitOptions)
    (traps : List (Trap ε)) (table : Table ε) :
    (if options.checked then requireChecked? rule count traps table else return table) =
      settled (if options.checked then requireChecked rule.total count traps table
        else return table) := by
  split
  · exact requireChecked?_eq answers traps table
  · rfl

/-- The split comes to a result unless it goes along the boundaries of traps that fit and absorbs
too many of them. -/
theorem split?_eq_settled (answers : rule.AnswersInside count) (options : SplitOptions)
    (traps : List (Trap ε))
    (counts : ¬ (options.algorithm = .sweep ∧ (∀ trap ∈ traps, trap.WellFormed count) ∧
      AbsorbsTooMany rule.total count traps)) :
    split? rule options count traps = settled (split rule.total options count traps) := by
  have ending := checkedEnd?_eq answers options traps
  rw [split?, split]
  cases algorithm : options.algorithm with
  | sweep =>
      by_cases fits : ∀ trap ∈ traps, trap.WellFormed count
      · have few : ¬ AbsorbsTooMany rule.total count traps :=
          fun many => counts ⟨algorithm, fits, many⟩
        dsimp only
        rw [splitBySweep?_eq answers fits,
          counted_eq_settled ((length_absorbed_pieces_lt_iff fits).mpr few)]
        exact settled_bind ending
      · -- Traps that do not fit are refused before anything is counted.
        cases checked : requireWellFormed count traps with
        | error reason =>
            dsimp only
            rw [splitBySweep?, splitBySweep, checked]
            rfl
        | ok passed => exact absurd ((requireWellFormed_eq_ok_iff count traps).mp checked) fits
  | instructionwise =>
      dsimp only
      rw [splitByInstruction?_eq answers]
      exact settled_bind ending

theorem split?_eq_failed (answers : rule.AnswersInside count) {options : SplitOptions}
    (sweeps : options.algorithm = .sweep) {traps : List (Trap ε)}
    (fits : ∀ trap ∈ traps, trap.WellFormed count)
    (many : AbsorbsTooMany rule.total count traps) :
    split? rule options count traps = failed := by
  have full : ¬ (absorbed rule.total count (Timeline.ofTraps traps).pieces).length < 2 ^ 31 :=
    fun less => (length_absorbed_pieces_lt_iff fits).mp less many
  rw [split?, sweeps]
  dsimp only
  rw [splitBySweep?_eq answers fits, counted, if_neg full]
  rfl

end Guarded

theorem Outcome.ne_outOfRange {rule : BoundaryRule} {count : Position} {traps : List (Trap ε)}
    {result : Except (SplitError ε) (Table ε)} (outcome : Outcome rule count traps result) :
    result ≠ .error .outOfRange := by
  intro failed
  cases outcome with
  | misfit d first => cases failed
  | screened fits pass =>
      cases pass with
      | refused p positive change lowest => cases failed
      | passed table allowed splits => cases failed

/-- The one way to make a split or a check come to nothing is a split along the boundaries of traps
that fit and absorb too many of them, at least `2 ^ 31`. Otherwise no access fails, whatever the
traps, the tables and the size of the body. The rule has to answer strictly inside the body only. -/
theorem fails_only_on_too_many_absorbed :
    (∀ (rule : PartialRule) (options : SplitOptions) (count : Position) (traps : List (Trap ε)),
      rule.AnswersInside count →
        let tooMany := options.algorithm = .sweep ∧ (∀ trap ∈ traps, trap.WellFormed count) ∧
          AbsorbsTooMany rule.total count traps
        (tooMany → Guarded.split? rule options count traps = Guarded.failed) ∧
        (¬ tooMany → Guarded.split? rule options count traps =
          Guarded.settled (split rule.total options count traps)) ∧
        split rule.total options count traps ≠ .error .outOfRange) ∧
    (∀ (countBefore : Position) (before : List (Trap ε)) (countAfter : Position)
      (after : List (Trap ε)), ∃ findings,
        Guarded.compareTraps? countBefore before countAfter after = some findings ∧
        compareTraps countBefore before countAfter after = some findings) ∧
    (∀ (rule : PartialRule) (table : Table ε), rule.AnswersInside table.count →
      Guarded.checkStructure? rule table = some (checkStructure rule.total table)) ∧
    ∀ (rule : PartialRule) (count : Position) (traps : List (Trap ε)) (table : Table ε),
      rule.AnswersInside count → ∃ findings,
        Guarded.checkTable? rule count traps table = some findings ∧
        checkTable rule.total count traps table = some findings := by
  refine ⟨?_, Guarded.compareTraps?_eq, ?_, ?_⟩
  · intro rule options count traps answers tooMany
    have outcome := split_outcome rule.total options count traps
    refine ⟨?_, ?_, outcome.ne_outOfRange⟩
    · rintro ⟨sweeps, fits, many⟩
      exact Guarded.split?_eq_failed answers sweeps fits many
    · exact Guarded.split?_eq_settled answers options traps
  · intro rule table answers
    exact Guarded.checkStructure?_eq answers
  · intro rule count traps table answers
    exact Guarded.checkTable?_eq answers traps table

/-- The longest body, with a rule that has no answer at its two ends, traps up to the last
instruction, a trap the wrong way round, and a table with a reversed block before one that lies
past the end; and the fewest traps that are too many. -/
theorem fails_only_on_too_many_absorbed_longest :
    ∃ (rule : PartialRule) (traps : List (Trap Nat)) (table : Table Nat),
      rule.AnswersInside 4294967295 ∧ rule 0 = none ∧ rule 4294967295 = none ∧
      Guarded.split? rule {} 4294967295 traps = Guarded.settled (.ok ⟨4294967295,
        [⟨⟨1, 2⟩, [⟨1, 3⟩]⟩, ⟨⟨2, 4⟩, [⟨0, 3⟩, ⟨1, 3⟩]⟩, ⟨⟨4, 4294967295⟩, [⟨0, 3⟩]⟩]⟩) ∧
      Guarded.compareTraps? 4294967295 traps 4294967295 [⟨⟨3, 2⟩, ⟨0, 0⟩⟩] =
        some [.malformedTrap .after 0] ∧
      Guarded.checkStructure? rule table =
        some [.emptyBlock ⟨7, 4⟩, .noHandlers ⟨7, 4⟩, .forbiddenBoundary 7,
          .overlap ⟨7, 4⟩ ⟨3, 4294967295⟩] ∧
      Guarded.checkTable? rule 4294967295 traps table =
        Guarded.checkStructure? rule table ∧
      Guarded.split? (fun _ => some true) {} 2147483649 (unitTraps ⟨0, 0⟩ 2147483649) =
        (Guarded.failed : Guarded Nat (Table Nat)) := by
  let rule : PartialRule := fun p => if 0 < p ∧ p < 4294967295 then some (p == 7) else none
  let traps : List (Trap Nat) := [⟨⟨2, 4294967295⟩, ⟨0, 3⟩⟩, ⟨⟨1, 4⟩, ⟨1, 3⟩⟩]
  let table : Table Nat := ⟨4294967295, [⟨⟨7, 4⟩, []⟩, ⟨⟨3, 4294967295⟩, [⟨0, 3⟩]⟩]⟩
  have answers : rule.AnswersInside 4294967295 := by
    intro p positive inside
    have asked : rule p = some (p == 7) := if_pos ⟨positive, inside⟩
    rw [asked]
    rfl
  obtain ⟨splits, compares, forms, checks⟩ := @fails_only_on_too_many_absorbed Nat _
  have formed := forms rule table answers
  have few : ¬ AbsorbsTooMany rule.total 4294967295 traps :=
    not_absorbsTooMany_of_few (by decide)
  have done := (splits rule {} 4294967295 traps answers).2.1 fun tooMany => few tooMany.2.2
  have fits : ∀ trap ∈ traps, trap.WellFormed 4294967295 := by decide
  have cuts : (Timeline.ofTraps traps).boundaries = [1, 2, 4, 4294967295] := by
    apply Timeline.boundaries_unique
    · decide
    · intro p
      simp only [traps, List.mem_cons, List.not_mem_nil, exists_eq_or_imp, or_false,
        exists_eq_left, ← eq_iff_iff]
      ac_rfl
  have pieces := Timeline.pieces_eq_cutAt fits
  rw [cuts] at pieces
  have result : split rule.total {} 4294967295 traps = .ok ⟨4294967295,
      [⟨⟨1, 2⟩, [⟨1, 3⟩]⟩, ⟨⟨2, 4⟩, [⟨0, 3⟩, ⟨1, 3⟩]⟩, ⟨⟨4, 4294967295⟩, [⟨0, 3⟩]⟩]⟩ := by
    rw [split, splitBySweep, pieces]
    rfl
  rw [result] at done
  obtain ⟨findings, guarded, plain⟩ :=
    compares 4294967295 traps 4294967295 [⟨⟨3, 2⟩, ⟨0, 0⟩⟩]
  have compared : compareTraps 4294967295 traps 4294967295 [⟨⟨3, 2⟩, ⟨0, 0⟩⟩] =
      some [.malformedTrap .after 0] := by decide
  rw [plain] at compared
  rw [compared] at guarded
  obtain ⟨found, checked, unchecked⟩ := checks rule 4294967295 traps table answers
  have refused : checkTable rule.total 4294967295 traps table =
      some (checkStructure rule.total table) := by decide
  rw [unchecked] at refused
  rw [refused] at checked
  have many : AbsorbsTooMany .fixed 2147483649 (unitTraps (⟨0, 0⟩ : Handler Nat) 2147483649) :=
    absorbsTooMany_unitTraps (by decide)
  have fails := (splits (fun _ => some true) {} 2147483649 (unitTraps ⟨0, 0⟩ 2147483649)
    fun _ _ _ => rfl).1 ⟨rfl, unitTraps_wellFormed (by decide), many⟩
  exact ⟨rule, traps, table, answers, by decide, by decide, done, guarded, formed,
    checked.trans formed.symm, fails⟩

/-- A rule that allows no boundary inside the body and a trap of its own for every instruction: from
`2 ^ 31 + 1` traps on, the split along the boundaries comes to nothing. -/
theorem fails_on_unit_traps :
    let rule : PartialRule := fun _ => some true
    let traps : List (Trap Nat) := unitTraps ⟨0, 0⟩ 2147483649
    rule.AnswersInside 2147483649 ∧ traps.length < 2 ^ 32 ∧
      ∀ result, Guarded.split? rule {} 2147483649 traps ≠ Guarded.settled result := by
  intro rule traps
  have answers : rule.AnswersInside 2147483649 := fun _ _ _ => rfl
  refine ⟨answers, ?_, fun result settles => ?_⟩
  · rw [length_unitTraps]
    decide
  · have many : AbsorbsTooMany rule.total 2147483649 traps := absorbsTooMany_unitTraps (by decide)
    have fits : ∀ trap ∈ traps, trap.WellFormed 2147483649 := unitTraps_wellFormed (by decide)
    rw [Guarded.split?_eq_failed answers rfl fits many] at settles
    cases settles

end DisjointTraps
