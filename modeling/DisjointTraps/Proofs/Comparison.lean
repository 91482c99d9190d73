import DisjointTraps.Proofs.Outcome

set_option autoImplicit false

namespace DisjointTraps

variable {ε : Type} [DecidableEq ε] {count : Position} {before after : List (Trap ε)}

/-- Traps that fit into the body are compared instruction by instruction. -/
theorem compareTraps_eq_mismatches (declared : before ≠ [])
    (fits : ∀ trap ∈ before, trap.WellFormed count)
    (refits : ∀ trap ∈ after, trap.WellFormed count) :
    compareTraps count before count after = some (mismatches
      ((upFrom 0 count.toNat).map (dispatchAt before))
      ((upFrom 0 count.toNat).map (dispatchAt after))) := by
  obtain ⟨expected, computed, wanted⟩ := dispatchAll_eq fun trap member _ => (fits trap member).2.1
  obtain ⟨actual, also, found⟩ := dispatchAll_eq fun trap member _ => (refits trap member).2.1
  have clean := (malformedFindings_eq_nil_iff .before count before).mpr fits
  have neat := (malformedFindings_eq_nil_iff .after count after).mpr refits
  rw [compareTraps, if_neg (not_not.mpr rfl), if_neg (by simpa using declared), clean, neat,
    computed, also, ← wanted, ← found]
  rfl

/-- No trap that fits covers a position past the end, so lists that agree inside the body agree
everywhere. -/
theorem dispatchAt_eq_iff_inside (fits : ∀ trap ∈ before, trap.WellFormed count)
    (refits : ∀ trap ∈ after, trap.WellFormed count) :
    (∀ p, p < count → dispatchAt before p = dispatchAt after p) ↔
      dispatchAt before = dispatchAt after := by
  constructor
  · intro agree
    funext p
    by_cases inside : p < count
    · exact agree p inside
    · have past := UInt32.not_lt.mp inside
      rw [dispatchAt_past fits past, dispatchAt_past refits past]
  · intro same p _
    rw [same]

theorem compareTraps_eq_nil_iff (declared : before ≠ [])
    (fits : ∀ trap ∈ before, trap.WellFormed count)
    (refits : ∀ trap ∈ after, trap.WellFormed count) :
    compareTraps count before count after = some [] ↔ dispatchAt before = dispatchAt after := by
  rw [compareTraps_eq_mismatches declared fits refits, Option.some_inj,
    mismatches_upFrom_eq_nil_iff, dispatchAt_eq_iff_inside fits refits]

/-- A table gives the dispatch back that it was made from. -/
theorem Splits.dispatchAt_eq {table : Table ε} (one : Splits count before table)
    (other : Splits count after table) : dispatchAt before = dispatchAt after :=
  one.finished.dispatch.symm.trans other.finished.dispatch

theorem exists_split_free (options : SplitOptions)
    (fits : ∀ trap ∈ before, trap.WellFormed count) :
    ∃ table, split .free options count before = .ok table := by
  apply (split_outcome .free options count before).exists_ok_iff.mpr
  refine ⟨fits, ?_⟩
  intro p change
  have forbidden := change.forbidden
  rw [BoundaryRule.forbids_free] at forbidden
  cases forbidden

/-- Traps with the same dispatch have the same split, however they differ otherwise. -/
theorem split_congr (rule : BoundaryRule) (options : SplitOptions)
    (fits : ∀ trap ∈ before, trap.WellFormed count)
    (refits : ∀ trap ∈ after, trap.WellFormed count)
    (same : dispatchAt before = dispatchAt after) :
    split rule options count before = split rule options count after := by
  apply ((split_outcome rule options count before).congr fits refits same).unique
  exact split_outcome rule options count after

/-- The comparison accepts two trap lists exactly if they have the same table where all boundaries
are allowed. Under any rule they then have the same table, or are refused for the same change. -/
theorem compareTraps_accepts_iff_same_split (count : Position) (before after : List (Trap ε))
    (declared : before ≠ []) (fits : ∀ trap ∈ before, trap.WellFormed count)
    (refits : ∀ trap ∈ after, trap.WellFormed count) :
    (compareTraps count before count after = some [] ↔
      ∃ table, split .free {} count before = .ok table ∧ split .free {} count after = .ok table) ∧
    (compareTraps count before count after = some [] → ∀ rule options,
      (∃ table, split rule options count before = .ok table ∧
        split rule options count after = .ok table) ∨
      ∃ p left right, split rule options count before = .error (.illegalSplit p left right) ∧
        split rule options count after = .error (.illegalSplit p left right)) := by
  rw [compareTraps_eq_nil_iff declared fits refits]
  constructor
  · constructor
    · intro same
      obtain ⟨table, done⟩ := exists_split_free {} fits
      exact ⟨table, done, (split_congr .free {} fits refits same).symm.trans done⟩
    · intro equal
      obtain ⟨table, done, also⟩ := equal
      have one := ((split_outcome .free {} count before).ok_iff table).mp done
      have other := ((split_outcome .free {} count after).ok_iff table).mp also
      exact one.2.2.dispatchAt_eq other.2.2
  · intro same rule options
    rw [← split_congr rule options fits refits same]
    rcases (split_outcome rule options count before).ok_or_illegalSplit fits with
      ⟨table, done⟩ | ⟨p, left, right, refused⟩
    · exact .inl ⟨table, done, done⟩
    · exact .inr ⟨p, left, right, refused, refused⟩

/-- The second list cuts the first trap in two and leaves out what is shadowed. -/
theorem compareTraps_accepts_iff_same_split_recut :
    ∃ table, split .free {} 6 [⟨⟨0, 4⟩, ⟨0, 5⟩⟩, ⟨⟨2, 5⟩, ⟨0, 3⟩⟩] = .ok table ∧
      split .free {} 6 [⟨⟨4, 5⟩, ⟨0, 3⟩⟩, ⟨⟨0, 1⟩, ⟨0, 5⟩⟩, (⟨⟨1, 4⟩, ⟨0, 5⟩⟩ : Trap Nat)] =
        .ok table :=
  (compareTraps_accepts_iff_same_split 6 _ _ (by decide) (by decide) (by decide)).1.mp (by decide)

end DisjointTraps
