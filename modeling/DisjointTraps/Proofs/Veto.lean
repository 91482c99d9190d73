import DisjointTraps.Proofs.Outcome

set_option autoImplicit false

namespace DisjointTraps

variable {ε α : Type} {rule other : BoundaryRule} {count start : Position}
variable {lists : Position → Dispatch ε} {good : α → Prop}

theorem forbiddenChange_iff_of_agree
    (agree : ∀ p, 0 < p → p < count → lists (p - 1) ≠ lists p → rule p = other p) (p : Position) :
    ForbiddenChange rule count lists p ↔ ForbiddenChange other count lists p := by
  rw [forbiddenChange_iff, forbiddenChange_iff]
  constructor
  · rintro ⟨positive, inside, illegal, differ⟩
    exact ⟨positive, inside, agree p positive inside differ ▸ illegal, differ⟩
  · rintro ⟨positive, inside, illegal, differ⟩
    exact ⟨positive, inside, (agree p positive inside differ).symm ▸ illegal, differ⟩

/-- A pass depends on its rule only through the changes that the rule forbids. -/
theorem Screened.congr_rule {result : Except (SplitError ε) α}
    (same : ∀ p, ForbiddenChange rule count lists p ↔ ForbiddenChange other count lists p)
    (screened : Screened rule count lists start good result) :
    Screened other count lists start good result := by
  cases screened with
  | refused p after change lowest =>
      refine .refused p after ((same p).mp change) ?_
      intro q past early forbidden
      exact lowest q past early ((same q).mpr forbidden)
  | passed value allowed holds =>
      refine .passed value ?_ holds
      intro q past forbidden
      exact allowed q past ((same q).mpr forbidden)

variable [DecidableEq ε] {traps : List (Trap ε)}

theorem Outcome.congr_rule {result : Except (SplitError ε) (Table ε)}
    (same : ∀ p, ForbiddenChange rule count (dispatchAt traps) p ↔
      ForbiddenChange other count (dispatchAt traps) p)
    (outcome : Outcome rule count traps result) : Outcome other count traps result := by
  cases outcome with
  | misfit d first => exact .misfit d first
  | screened fits pass => exact .screened fits (pass.congr_rule same)

theorem split_congr_rule (options : SplitOptions)
    (agree : ∀ p, 0 < p → p < count → dispatchAt traps (p - 1) ≠ dispatchAt traps p →
      rule p = other p) :
    split rule options count traps = split other options count traps := by
  have outcome := split_outcome rule options count traps
  have moved := outcome.congr_rule (forbiddenChange_iff_of_agree agree)
  exact moved.unique (split_outcome other options count traps)

/-- Rules that agree where the dispatch list changes inside the body have the same result, errors
included. So two rules that a split passes have the same table, and it has no effect to forbid the
ends of the body, positions past it, or positions where the list stays the same. -/
theorem rules_only_veto (options : SplitOptions) (count : Position) (traps : List (Trap ε)) :
    (∀ rule other : BoundaryRule,
      (∀ p, 0 < p → p < count → dispatchAt traps (p - 1) ≠ dispatchAt traps p →
        rule p = other p) →
      split rule options count traps = split other options count traps) ∧
    (∀ (rule other : BoundaryRule) (table also : Table ε),
      split rule options count traps = .ok table →
      split other options count traps = .ok also → table = also) ∧
    (∀ rule extra : BoundaryRule,
      (∀ p, extra p = true →
        p = 0 ∨ count ≤ p ∨ dispatchAt traps (p - 1) = dispatchAt traps p) →
      split (fun p => rule p || extra p) options count traps = split rule options count traps) := by
  refine ⟨fun rule other agree => split_congr_rule options agree, ?_, ?_⟩
  · intro rule other table also done passed
    have one := ((split_outcome rule options count traps).ok_iff table).mp done
    have two := ((split_outcome other options count traps).ok_iff also).mp passed
    exact one.2.2.unique two.2.2
  · intro rule extra idle
    apply split_congr_rule
    intro p positive inside differ
    have unheard : extra p = false := by
      rw [← Bool.not_eq_true]
      intro forbidden
      rcases idle p forbidden with atStart | past | same
      · exact UInt32.lt_irrefl 0 (atStart ▸ positive)
      · exact UInt32.not_le.mpr inside past
      · exact differ same
    rw [unheard, Bool.or_false]

/-- Two touching traps with one handler. Without a rule the cut between them is made and merged
away again; forbidden, it is never made. -/
theorem rules_only_veto_between_equal_traps :
    split (fun p => BoundaryRule.free p || BoundaryRule.ofList [0, 3, 6, 9] p) {} 6
      [⟨⟨1, 3⟩, ⟨0, 5⟩⟩, ⟨⟨3, 5⟩, ⟨0, 5⟩⟩] =
      split .free {} 6 [⟨⟨1, 3⟩, ⟨0, 5⟩⟩, (⟨⟨3, 5⟩, ⟨0, 5⟩⟩ : Trap Nat)] := by
  apply (rules_only_veto {} 6 [⟨⟨1, 3⟩, ⟨0, 5⟩⟩, ⟨⟨3, 5⟩, ⟨0, 5⟩⟩]).2.2
  intro p forbidden
  have listed : p = 0 ∨ p = 3 ∨ p = 6 ∨ p = 9 := by simpa [BoundaryRule.ofList] using forbidden
  rcases listed with rfl | rfl | rfl | rfl
  · exact .inl rfl
  · exact .inr (.inr (by decide))
  · exact .inr (.inl (by decide))
  · exact .inr (.inl (by decide))

end DisjointTraps
