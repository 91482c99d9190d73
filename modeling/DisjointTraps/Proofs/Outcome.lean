import DisjointTraps.Proofs.Audit
import DisjointTraps.Proofs.Pieces
import DisjointTraps.Proofs.Runs
import DisjointTraps.Split

set_option autoImplicit false

namespace DisjointTraps

variable {ε : Type} [DecidableEq ε] {rule : BoundaryRule} {count : Position}
variable {traps : List (Trap ε)}

/-- The finished table of a body's dispatch. -/
structure Splits (count : Position) (traps : List (Trap ε)) (table : Table ε) : Prop where
  count_eq : table.count = count
  finished : Finished (dispatchAt traps) table.blocks

theorem Splits.congr {others : List (Trap ε)} {table : Table ε}
    (splits : Splits count traps table) (same : dispatchAt traps = dispatchAt others) :
    Splits count others table :=
  ⟨splits.count_eq, same ▸ splits.finished⟩

theorem Splits.unique {table other : Table ε} (one : Splits count traps table)
    (two : Splits count traps other) : table = other := by
  obtain ⟨size, blocks⟩ := table
  obtain ⟨length, others⟩ := other
  have same : blocks = others := one.finished.unique two.finished
  have first : size = count := one.count_eq
  have second : length = count := two.count_eq
  rw [first, second, same]

/-- The lowest trap that does not fit, or else the lowest forbidden change, or else the finished
table. -/
inductive Outcome (rule : BoundaryRule) (count : Position) (traps : List (Trap ε)) :
    Except (SplitError ε) (Table ε) → Prop
  | misfit (d : Declared ε) (first : (malformed count traps).head? = some d) :
      Outcome rule count traps
        (.error (.malformedTrap d.index d.trap.span d.trap.handler.target count))
  | screened {result : Except (SplitError ε) (Table ε)}
      (fits : ∀ trap ∈ traps, trap.WellFormed count)
      (pass : Screened rule count (dispatchAt traps) 0 (Splits count traps) result) :
      Outcome rule count traps result

namespace Outcome

theorem unique {one two : Except (SplitError ε) (Table ε)} (here : Outcome rule count traps one)
    (there : Outcome rule count traps two) : one = two := by
  cases here with
  | misfit d first =>
      cases there with
      | misfit e other =>
          rw [first, Option.some_inj] at other
          rw [other]
      | screened fits pass => exact absurd fits (not_fits_of_head? first)
  | screened fits pass =>
      cases there with
      | misfit e other => exact absurd fits (not_fits_of_head? other)
      | screened _ other => exact pass.unique (fun _ _ => Splits.unique) other

theorem of_requireWellFormed {later : Except (SplitError ε) (Table ε)}
    (pass : (∀ trap ∈ traps, trap.WellFormed count) →
      Screened rule count (dispatchAt traps) 0 (Splits count traps) later) :
    Outcome rule count traps (do requireWellFormed count traps; later) := by
  unfold requireWellFormed
  cases first : (malformed count traps).head? with
  | some d => exact .misfit d first
  | none =>
      have fits := (malformed_eq_nil_iff count traps).mp (List.head?_eq_none_iff.mp first)
      exact .screened fits (pass fits)

variable {result : Except (SplitError ε) (Table ε)}

theorem ok_iff (outcome : Outcome rule count traps result) (table : Table ε) :
    result = .ok table ↔ (∀ trap ∈ traps, trap.WellFormed count) ∧
      (∀ p, ¬ ForbiddenChange rule count (dispatchAt traps) p) ∧ Splits count traps table := by
  constructor
  · rintro rfl
    cases outcome with
    | screened fits pass =>
        cases pass with
        | passed _ allowed splits =>
            exact ⟨fits, fun p change => allowed p change.positive change, splits⟩
  · rintro ⟨fits, allowed, splits⟩
    exact outcome.unique (.screened fits (.passed table (fun p _ => allowed p) splits))

theorem malformedTrap_iff (outcome : Outcome rule count traps result) (index : Nat) (span : Span)
    (target size : Position) :
    result = .error (.malformedTrap index span target size) ↔
      size = count ∧ ∃ trap, traps[index]? = some trap ∧ trap.span = span ∧
        trap.handler.target = target ∧ ¬ trap.WellFormed count ∧
        ∀ i < index, ∀ earlier, traps[i]? = some earlier → earlier.WellFormed count := by
  constructor
  · rintro rfl
    cases outcome with
    | misfit d first =>
        obtain ⟨found, bad, lowest⟩ := (head?_malformed_eq_some_iff count traps d).mp first
        exact ⟨rfl, d.trap, found, rfl, rfl, bad, lowest⟩
    | screened fits pass => cases pass
  · rintro ⟨rfl, trap, found, rfl, rfl, bad, lowest⟩
    have first := (head?_malformed_eq_some_iff size traps ⟨index, trap⟩).mpr ⟨found, bad, lowest⟩
    exact outcome.unique (.misfit ⟨index, trap⟩ first)

theorem illegalSplit_iff (outcome : Outcome rule count traps result) (p : Position)
    (before after : Dispatch ε) :
    result = .error (.illegalSplit p before after) ↔
      (∀ trap ∈ traps, trap.WellFormed count) ∧
      ForbiddenChange rule count (dispatchAt traps) p ∧
      (∀ q < p, ¬ ForbiddenChange rule count (dispatchAt traps) q) ∧
      before = dispatchAt traps (p - 1) ∧ after = dispatchAt traps p := by
  constructor
  · rintro rfl
    cases outcome with
    | screened fits pass =>
        cases pass with
        | refused _ positive change lowest =>
            exact ⟨fits, change, fun q early other => lowest q other.positive early other, rfl, rfl⟩
  · rintro ⟨fits, change, lowest, rfl, rfl⟩
    exact outcome.unique (.screened fits (.refused p change.positive change
      fun q _ early => lowest q early))

theorem exists_malformedTrap_iff (outcome : Outcome rule count traps result) :
    (∃ index span target size, result = .error (.malformedTrap index span target size)) ↔
      ∃ trap ∈ traps, ¬ trap.WellFormed count := by
  constructor
  · rintro ⟨index, span, target, size, failed⟩
    obtain ⟨-, trap, found, -, -, bad, -⟩ := (outcome.malformedTrap_iff ..).mp failed
    exact ⟨trap, List.mem_of_getElem? found, bad⟩
  · rintro ⟨trap, member, bad⟩
    cases outcome with
    | misfit d first => exact ⟨d.index, d.trap.span, d.trap.handler.target, count, rfl⟩
    | screened fits pass => exact absurd (fits trap member) bad

theorem exists_illegalSplit_iff (outcome : Outcome rule count traps result) :
    (∃ p before after, result = .error (.illegalSplit p before after)) ↔
      (∀ trap ∈ traps, trap.WellFormed count) ∧
        ∃ p, ForbiddenChange rule count (dispatchAt traps) p := by
  constructor
  · rintro ⟨p, before, after, failed⟩
    obtain ⟨fits, change, -⟩ := (outcome.illegalSplit_iff ..).mp failed
    exact ⟨fits, p, change⟩
  · rintro ⟨fits, p, change⟩
    cases outcome with
    | misfit d first => exact absurd fits (not_fits_of_head? first)
    | screened _ pass =>
        cases pass with
        | refused q positive found lowest => exact ⟨q, _, _, rfl⟩
        | passed table allowed splits => exact absurd change (allowed p change.positive)

theorem exists_ok_iff (outcome : Outcome rule count traps result) :
    (∃ table, result = .ok table) ↔ (∀ trap ∈ traps, trap.WellFormed count) ∧
      ∀ p, ¬ ForbiddenChange rule count (dispatchAt traps) p := by
  constructor
  · rintro ⟨table, done⟩
    obtain ⟨fits, allowed, -⟩ := (outcome.ok_iff table).mp done
    exact ⟨fits, allowed⟩
  · rintro ⟨fits, allowed⟩
    cases outcome with
    | misfit d first => exact absurd fits (not_fits_of_head? first)
    | screened _ pass =>
        cases pass with
        | refused p positive change lowest => exact absurd change (allowed p)
        | passed table none splits => exact ⟨table, rfl⟩

/-- Traps that fit have a table or are refused for a change of their dispatch. -/
theorem ok_or_illegalSplit (outcome : Outcome rule count traps result)
    (fits : ∀ trap ∈ traps, trap.WellFormed count) :
    (∃ table, result = .ok table) ∨
      ∃ p before after, result = .error (.illegalSplit p before after) := by
  cases outcome with
  | misfit d first => exact absurd fits (not_fits_of_head? first)
  | screened _ pass =>
      cases pass with
      | refused p positive change lowest => exact .inr ⟨p, _, _, rfl⟩
      | passed table allowed splits => exact .inl ⟨table, rfl⟩

/-- Only the dispatch of traps that fit matters. -/
theorem congr {others : List (Trap ε)} (outcome : Outcome rule count traps result)
    (fits : ∀ trap ∈ traps, trap.WellFormed count)
    (refits : ∀ trap ∈ others, trap.WellFormed count)
    (same : dispatchAt traps = dispatchAt others) : Outcome rule count others result := by
  cases outcome with
  | misfit d first => exact absurd fits (not_fits_of_head? first)
  | screened _ pass =>
      rw [same] at pass
      exact .screened refits (pass.imp fun _ splits => splits.congr same)

end Outcome

theorem Splits.legal {table : Table ε} (splits : Splits count traps table)
    (fits : ∀ trap ∈ traps, trap.WellFormed count)
    (allowed : ∀ p, ¬ ForbiddenChange rule count (dispatchAt traps) p) :
    Legal rule count table.blocks := by
  obtain ⟨-, canonical, dispatch⟩ := splits
  have list : ∀ block ∈ table.blocks, ∀ p ∈ block.span, dispatchAt traps p = block.handlers := by
    intro block member p inside
    rw [← dispatch, canonical.dispatchIn_of_mem member inside]
  refine ⟨canonical, fun block member => ?_, fun block member => ?_, fun block member p ends => ?_⟩
  · by_contra past
    have nonempty := canonical.nonempty block member
    have last := list block member (block.span.limit - 1) (Span.last_mem nonempty)
    rw [dispatchAt_past fits (by grind)] at last
    exact canonical.handled block member last.symm
  · have nonempty := canonical.nonempty block member
    rw [← list block member block.span.first (Span.first_mem nonempty)]
    exact dispatchAt_distinct traps _
  · by_contra forbidden
    rw [Bool.not_eq_false] at forbidden
    have positive := ((rule.forbids_iff count p).mp forbidden).1
    refine allowed p ⟨forbidden, ?_⟩
    rw [← dispatch]
    exact canonical.change_of_boundary member positive (by simpa using ends)

/-- The check accepts the finished tables that are allowed, and no others. -/
theorem checkTable_eq_nil_iff_splits (table : Table ε) :
    checkTable rule count traps table = some [] ↔ (∀ trap ∈ traps, trap.WellFormed count) ∧
      (∀ p, ¬ ForbiddenChange rule count (dispatchAt traps) p) ∧ Splits count traps table := by
  rw [checkTable_eq_nil_iff]
  constructor
  · rintro ⟨size, fits, legal, agree⟩
    have dispatch : dispatchIn table.blocks = dispatchAt traps := by
      funext p
      have look : table.dispatchAt p = dispatchIn table.blocks p := legal.dispatchAt_eq p
      rw [← look]
      by_cases within : p < count
      · exact (agree p within).symm
      · rw [look, dispatchAt_past fits (by grind), dispatchIn_eq_nil]
        intro block member inside
        have limit := legal.inside block member
        grind
    have changes := not_forbiddenChange_of_allowed legal.allowed
    rw [dispatch] at changes
    exact ⟨fits, changes, size.symm, legal.toCanonical, dispatch⟩
  · rintro ⟨fits, allowed, splits⟩
    refine ⟨splits.count_eq.symm, fits, splits.legal fits allowed, fun p _ => ?_⟩
    rw [splits.finished.dispatchAt_eq, splits.finished.dispatch]

theorem splitBySweep_outcome (rule : BoundaryRule) (count : Position) (traps : List (Trap ε)) :
    Outcome rule count traps (splitBySweep rule count traps) := by
  refine .of_requireWellFormed fun fits => ?_
  have placed := legalize_screened rule count (Timeline.pieces_realizes fits)
  exact placed.map (fun blocks => Table.mk count (coalesce blocks)) fun blocks realizes =>
    ⟨rfl, coalesce_finished realizes⟩

theorem splitByInstruction_outcome (rule : BoundaryRule) (count : Position)
    (traps : List (Trap ε)) : Outcome rule count traps (splitByInstruction rule count traps) := by
  refine .of_requireWellFormed fun fits => ?_
  obtain ⟨lists, computed, entries⟩ := dispatchAll_eq fun trap member _ => (fits trap member).2.1
  have runs := blocksOfLists_screened rule count fun p past => dispatchAt_past fits past
  rw [← entries] at runs
  rw [computed]
  exact runs.map (fun blocks => Table.mk count blocks) fun blocks finished => ⟨rfl, finished⟩

/-- The check of an outcome changes nothing. -/
theorem Outcome.checked_eq {result : Except (SplitError ε) (Table ε)}
    (outcome : Outcome rule count traps result) (checked : Bool) :
    (do
      let table ← result
      if checked then requireChecked rule count traps table else return table) = result := by
  cases found : result with
  | error error => rfl
  | ok table =>
      have accepted := (checkTable_eq_nil_iff_splits table).mpr ((outcome.ok_iff table).mp found)
      cases checked with
      | false => rfl
      | true =>
          change requireChecked rule count traps table = .ok table
          rw [requireChecked, accepted]

/-- Every way to split has the outcome. -/
theorem split_outcome (rule : BoundaryRule) (options : SplitOptions) (count : Position)
    (traps : List (Trap ε)) : Outcome rule count traps (split rule options count traps) := by
  obtain ⟨algorithm, checked⟩ := options
  cases algorithm with
  | sweep =>
      have outcome := splitBySweep_outcome rule count traps
      have same : split rule ⟨.sweep, checked⟩ count traps = splitBySweep rule count traps :=
        outcome.checked_eq checked
      rw [same]
      exact outcome
  | instructionwise =>
      have outcome := splitByInstruction_outcome rule count traps
      have same : split rule ⟨.instructionwise, checked⟩ count traps =
          splitByInstruction rule count traps := outcome.checked_eq checked
      rw [same]
      exact outcome

end DisjointTraps
