import DisjointTraps.Split

set_option autoImplicit false

namespace DisjointTraps

variable {ε α β : Type} {rule : BoundaryRule} {count start : Position}
variable {lists : Position → Dispatch ε} {good : α → Prop}

theorem BoundaryRule.forbids_iff (rule : BoundaryRule) (count p : Position) :
    rule.forbids count p = true ↔ 0 < p ∧ p < count ∧ rule p = true := by
  simp only [BoundaryRule.forbids, Bool.and_eq_true, decide_eq_true_eq, and_assoc]

theorem BoundaryRule.forbids_free (count p : Position) : free.forbids count p = false := by
  simp only [BoundaryRule.forbids, BoundaryRule.free, Bool.and_false]

/-- The dispatch list changes at `p`, and the rule forbids a boundary there. -/
structure ForbiddenChange (rule : BoundaryRule) (count : Position) (lists : Position → Dispatch ε)
    (p : Position) : Prop where
  forbidden : rule.forbids count p = true
  differ : lists (p - 1) ≠ lists p

theorem ForbiddenChange.positive {p : Position} (change : ForbiddenChange rule count lists p) :
    0 < p :=
  ((rule.forbids_iff count p).mp change.forbidden).1

theorem ForbiddenChange.inside {p : Position} (change : ForbiddenChange rule count lists p) :
    p < count :=
  ((rule.forbids_iff count p).mp change.forbidden).2.1

theorem forbiddenChange_iff (rule : BoundaryRule) (count : Position)
    (lists : Position → Dispatch ε) (p : Position) :
    ForbiddenChange rule count lists p ↔
      0 < p ∧ p < count ∧ rule p = true ∧ lists (p - 1) ≠ lists p := by
  constructor
  · rintro ⟨forbidden, differ⟩
    obtain ⟨positive, inside, illegal⟩ := (rule.forbids_iff count p).mp forbidden
    exact ⟨positive, inside, illegal, differ⟩
  · rintro ⟨positive, inside, illegal, differ⟩
    exact ⟨(rule.forbids_iff count p).mpr ⟨positive, inside, illegal⟩, differ⟩

theorem ForbiddenChange.congr {others : Position → Dispatch ε} {p : Position}
    (change : ForbiddenChange rule count lists p) (before : lists (p - 1) = others (p - 1))
    (here : lists p = others p) : ForbiddenChange rule count others p := by
  refine ⟨change.forbidden, ?_⟩
  rw [← before, ← here]
  exact change.differ

/-- The result of a pass over the positions after `start`: the lowest forbidden change with the
lists on both sides of it, or a good value if there is none. -/
inductive Screened (rule : BoundaryRule) (count : Position) (lists : Position → Dispatch ε)
    (start : Position) (good : α → Prop) : Except (SplitError ε) α → Prop
  | refused (p : Position) (after : start < p) (change : ForbiddenChange rule count lists p)
      (lowest : ∀ q, start < q → q < p → ¬ ForbiddenChange rule count lists q) :
      Screened rule count lists start good (.error (.illegalSplit p (lists (p - 1)) (lists p)))
  | passed (value : α) (allowed : ∀ q, start < q → ¬ ForbiddenChange rule count lists q)
      (holds : good value) : Screened rule count lists start good (.ok value)

namespace Screened

theorem skip {next : Position} {result : Except (SplitError ε) α} (le : start ≤ next)
    (allowed : ∀ q, start < q → q ≤ next → ¬ ForbiddenChange rule count lists q)
    (later : Screened rule count lists next good result) :
    Screened rule count lists start good result := by
  cases later with
  | refused p after change lowest =>
      refine .refused p (by grind) change fun q past before => ?_
      by_cases skipped : q ≤ next
      · exact allowed q past skipped
      · exact lowest q (by grind) before
  | passed value later holds =>
      refine .passed value (fun q past => ?_) holds
      by_cases skipped : q ≤ next
      · exact allowed q past skipped
      · exact later q (by grind)

/-- A pass may go straight to the next position where the list changes, if it stops there in case
the change is forbidden. -/
theorem guard {p : Position} {before after : Dispatch ε} {later : Except (SplitError ε) α}
    (past : start < p) (steady : ∀ q, start < q → q < p → lists (q - 1) = lists q)
    (left : lists (p - 1) = before) (right : lists p = after) (differ : before ≠ after)
    (rest : Screened rule count lists p good later) :
    Screened rule count lists start good
      (do requireAllowed rule count p before after; later) := by
  subst left right
  unfold requireAllowed
  split
  · rename_i forbidden
    refine .refused p past ⟨forbidden, differ⟩ fun q begun early change => ?_
    exact change.differ (steady q begun early)
  · rename_i allowed
    refine rest.skip (by grind) fun q begun reached change => ?_
    by_cases here : q = p
    · exact allowed (here ▸ change.forbidden)
    · exact change.differ (steady q begun (by grind))

theorem congr {others : Position → Dispatch ε} {result : Except (SplitError ε) α}
    (same : ∀ p, start ≤ p → lists p = others p)
    (screened : Screened rule count lists start good result) :
    Screened rule count others start good result := by
  have change : ∀ q, start < q →
      (ForbiddenChange rule count lists q ↔ ForbiddenChange rule count others q) := by
    intro q past
    have before := same (q - 1) (by grind)
    have here := same q (by grind)
    exact ⟨fun found => found.congr before here, fun found => found.congr before.symm here.symm⟩
  cases screened with
  | refused p after found lowest =>
      rw [same (p - 1) (by grind), same p (by grind)]
      exact .refused p after ((change p after).mp found)
        fun q past early other => lowest q past early ((change q past).mpr other)
  | passed value allowed holds =>
      exact .passed value (fun q past other => allowed q past ((change q past).mpr other)) holds

theorem imp {better : α → Prop} {result : Except (SplitError ε) α}
    (keeps : ∀ value, good value → better value)
    (screened : Screened rule count lists start good result) :
    Screened rule count lists start better result := by
  cases screened with
  | refused p after change lowest => exact .refused p after change lowest
  | passed value allowed holds => exact .passed value allowed (keeps value holds)

theorem map {better : β → Prop} {result : Except (SplitError ε) α} (f : α → β)
    (keeps : ∀ value, good value → better (f value))
    (screened : Screened rule count lists start good result) :
    Screened rule count lists start better (do return f (← result)) := by
  cases screened with
  | refused p after change lowest => exact .refused p after change lowest
  | passed value allowed holds => exact .passed (f value) allowed (keeps value holds)

/-- Two passes have the same result if there is only one good value. -/
theorem unique {one two : Except (SplitError ε) α}
    (only : ∀ value other, good value → good other → value = other)
    (first : Screened rule count lists start good one)
    (second : Screened rule count lists start good two) : one = two := by
  cases first with
  | refused p after change lowest =>
      cases second with
      | refused q past other least =>
          have low : ¬ p < q := fun below => least p after below change
          have high : ¬ q < p := fun below => lowest q past below other
          have same : p = q := by grind
          rw [same]
      | passed value allowed holds => exact absurd change (allowed p after)
  | passed value allowed holds =>
      cases second with
      | refused q past other least => exact absurd other (allowed q past)
      | passed other _ also => rw [only value other holds also]

end Screened

end DisjointTraps
