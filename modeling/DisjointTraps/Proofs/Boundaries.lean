import DisjointTraps.Proofs.Seams

set_option autoImplicit false

namespace DisjointTraps

variable {ε : Type}

/-- Some block begins or ends at `p`. -/
def HasBoundary (blocks : List (TryBlock ε)) (p : Position) : Prop :=
  ∃ block ∈ blocks, p = block.span.first ∨ p = block.span.limit

theorem not_hasBoundary_nil (p : Position) : ¬ HasBoundary ([] : List (TryBlock ε)) p := by
  intro boundary
  obtain ⟨block, member, -⟩ := boundary
  cases member

theorem hasBoundary_cons (block : TryBlock ε) (rest : List (TryBlock ε)) (p : Position) :
    HasBoundary (block :: rest) p ↔
      (p = block.span.first ∨ p = block.span.limit) ∨ HasBoundary rest p := by
  simp only [HasBoundary, List.mem_cons, exists_eq_or_imp]

variable {rule : BoundaryRule} {count : Position}

theorem hasBoundary_extend {block next : TryBlock ε} (touch : block.span.limit = next.span.first)
    {p : Position} (elsewhere : p ≠ next.span.first) (rest : List (TryBlock ε)) :
    HasBoundary (block.extend next.span.limit :: rest) p ↔
      HasBoundary (block :: next :: rest) p := by
  have begins : (block.extend next.span.limit).span.first = block.span.first := rfl
  have ends : (block.extend next.span.limit).span.limit = next.span.limit := rfl
  simp only [hasBoundary_cons, begins, ends, touch, elsewhere, or_false, false_or, or_assoc]

theorem allowed_of_requireAllowed {p : Position} {before after : Dispatch ε}
    (passed : requireAllowed rule count p before after = .ok ()) :
    rule.forbids count p = false := by
  unfold requireAllowed at passed
  split at passed
  · cases passed
  · rename_i allowed
    exact Bool.eq_false_iff.mpr allowed

theorem ok_of_bind_ok {first : Except (SplitError ε) Unit}
    {next : Unit → Except (SplitError ε) Unit} (passed : first >>= next = .ok ()) :
    first = .ok () ∧ next () = .ok () := by
  cases first with
  | error reason => cases passed
  | ok done => exact ⟨rfl, passed⟩

variable [DecidableEq ε]

theorem allowed_of_requireSeam {block next : TryBlock ε}
    (passed : requireSeam rule count block next = .ok ())
    (kept : ¬ (block.Joins next ∧ rule.forbids count next.span.first = true)) :
    rule.forbids count block.span.limit = false ∧ rule.forbids count next.span.first = false := by
  unfold requireSeam at passed
  split at passed
  · rename_i joins
    have allowed : rule.forbids count next.span.first = false :=
      Bool.eq_false_iff.mpr fun forbidden => kept ⟨joins, forbidden⟩
    rw [joins.1]
    exact ⟨allowed, allowed⟩
  · split at passed
    · rename_i touch
      have allowed := allowed_of_requireAllowed passed
      rw [touch]
      exact ⟨allowed, allowed⟩
    · obtain ⟨ends, begins⟩ := ok_of_bind_ok passed
      exact ⟨allowed_of_requireAllowed ends, allowed_of_requireAllowed begins⟩

/-- Absorbing takes the forbidden boundaries away and no others. -/
theorem hasBoundary_absorbFrom {current : TryBlock ε} {rest : List (TryBlock ε)}
    (begins : rule.forbids count current.span.first = false)
    (passed : requireSeamsFrom rule count current rest = .ok ()) (p : Position) :
    HasBoundary (absorbFrom rule count current rest) p ↔
      HasBoundary (current :: rest) p ∧ rule.forbids count p = false := by
  induction rest generalizing current with
  | nil =>
      have ends := allowed_of_requireAllowed passed
      have allowed : HasBoundary [current] p → rule.forbids count p = false := by
        intro boundary
        rcases (hasBoundary_cons current [] p).mp boundary with (rfl | rfl) | none
        · exact begins
        · exact ends
        · exact absurd none (not_hasBoundary_nil p)
      exact (and_iff_left_of_imp allowed).symm
  | cons next rest ih =>
      rw [absorbFrom]
      by_cases absorbed : current.Joins next ∧ rule.forbids count next.span.first = true
      · have start : rule.forbids count (current.extend next.span.limit).span.first = false :=
          begins
        have onward := (requireSeamsFrom_extend absorbed.1 rest).trans passed
        rw [if_pos absorbed, ih start onward]
        apply and_congr_left
        intro allowed
        apply hasBoundary_extend absorbed.1.1
        intro here
        rw [here, absorbed.2] at allowed
        cases allowed
      · obtain ⟨seam, later⟩ := ok_of_bind_ok passed
        obtain ⟨ends, starts⟩ := allowed_of_requireSeam seam absorbed
        have edges : p = current.span.first ∨ p = current.span.limit →
            rule.forbids count p = false := by
          intro edge
          cases edge with
          | inl first => exact first ▸ begins
          | inr limit => exact limit ▸ ends
        rw [if_neg absorbed, hasBoundary_cons, ih starts later, hasBoundary_cons current,
          or_and_right, and_iff_left_of_imp edges]

/-- The boundaries of a placement are the allowed ones of the blocks it was given, in whatever
order these are. -/
theorem hasBoundary_of_legalize {blocks legal : List (TryBlock ε)}
    (placed : legalize rule count blocks = .ok legal) (p : Position) :
    HasBoundary legal p ↔ HasBoundary blocks p ∧ rule.forbids count p = false := by
  rw [legalize_eq] at placed
  cases asked : requireSeams rule count blocks with
  | error reason =>
      rw [asked] at placed
      cases placed
  | ok done =>
      rw [asked] at placed
      cases placed
      cases blocks with
      | nil => simp only [absorb, not_hasBoundary_nil, false_and]
      | cons first rest =>
          obtain ⟨begins, later⟩ := ok_of_bind_ok asked
          exact hasBoundary_absorbFrom (allowed_of_requireAllowed begins) later p

/-- Placing blocks that are in order fails exactly if their dispatch list changes at a forbidden
position inside the body, and then names the lowest one with the lists on both sides. Otherwise the
blocks stay in order, every position keeps its list, and of all boundaries the forbidden ones and
no others are gone. -/
theorem legalize_keeps_allowed_boundaries (rule : BoundaryRule) (count : Position)
    (blocks : List (TryBlock ε)) (placed : Placed blocks) :
    ((∃ error, legalize rule count blocks = .error error) ↔
      ∃ p, 0 < p ∧ p < count ∧ rule p = true ∧ dispatchIn blocks (p - 1) ≠ dispatchIn blocks p) ∧
    (∀ error, legalize rule count blocks = .error error →
      ∃ p, error = .illegalSplit p (dispatchIn blocks (p - 1)) (dispatchIn blocks p) ∧
        (0 < p ∧ p < count ∧ rule p = true ∧ dispatchIn blocks (p - 1) ≠ dispatchIn blocks p) ∧
        ∀ q < p, 0 < q → q < count → rule q = true →
          dispatchIn blocks (q - 1) = dispatchIn blocks q) ∧
    (∀ legal, legalize rule count blocks = .ok legal →
      Placed legal ∧ (∀ p, dispatchIn legal p = dispatchIn blocks p) ∧
        (∀ p, HasBoundary legal p → ¬ (0 < p ∧ p < count ∧ rule p = true)) ∧
        ∀ p, HasBoundary blocks p → ¬ (0 < p ∧ p < count ∧ rule p = true) →
          HasBoundary legal p) := by
  have realizes : Realizes (dispatchIn blocks) blocks := ⟨placed, rfl⟩
  have pass := legalize_screened rule count realizes
  refine ⟨?_, ?_, ?_⟩
  · simp only [← forbiddenChange_iff]
    constructor
    · intro refused
      obtain ⟨error, failed⟩ := refused
      rw [failed] at pass
      cases pass with
      | refused p after change lowest => exact ⟨p, change⟩
    · intro change
      obtain ⟨p, change⟩ := change
      generalize legalize rule count blocks = result at pass
      cases pass with
      | refused q after found lowest => exact ⟨_, rfl⟩
      | passed legal allowed kept => exact absurd change (allowed p change.positive)
  · intro error failed
    rw [failed] at pass
    cases pass with
    | refused p after change lowest =>
        refine ⟨p, rfl, (forbiddenChange_iff rule count _ p).mp change, ?_⟩
        intro q below positive inside forbidden
        by_contra differ
        apply lowest q positive below
        exact (forbiddenChange_iff rule count _ q).mpr ⟨positive, inside, forbidden, differ⟩
  · intro legal done
    have boundaries := hasBoundary_of_legalize done
    rw [done] at pass
    cases pass with
    | passed _ allowed kept =>
        simp only [← BoundaryRule.forbids_iff, Bool.not_eq_true]
        refine ⟨kept.placed, congrFun kept.dispatch, ?_, ?_⟩
        · intro p boundary
          exact ((boundaries p).mp boundary).2
        · intro p boundary free
          exact (boundaries p).mpr ⟨boundary, free⟩

/-- Four touching blocks with one list, two of whose three seams are forbidden, and a gap. -/
theorem legalize_keeps_allowed_boundaries_chain :
    ∃ blocks legal : List (TryBlock Nat),
      blocks.map (·.span) = [⟨1, 3⟩, ⟨3, 4⟩, ⟨4, 6⟩, ⟨6, 8⟩, ⟨9, 12⟩] ∧
      legal.map (·.span) = [⟨1, 6⟩, ⟨6, 8⟩, ⟨9, 12⟩] ∧ Placed blocks ∧
      legalize (BoundaryRule.ofList [3, 4, 12]) 12 blocks = .ok legal ∧
      dispatchIn legal 3 = dispatchIn blocks 3 ∧ HasBoundary legal 6 := by
  let blocks : List (TryBlock Nat) :=
    [⟨⟨1, 3⟩, [⟨0, 9⟩]⟩, ⟨⟨3, 4⟩, [⟨0, 9⟩]⟩, ⟨⟨4, 6⟩, [⟨0, 9⟩]⟩, ⟨⟨6, 8⟩, [⟨0, 9⟩]⟩,
      ⟨⟨9, 12⟩, [⟨1, 0⟩]⟩]
  have placed : Placed blocks := ⟨⟨by decide, by decide⟩, by decide⟩
  have done : legalize (BoundaryRule.ofList [3, 4, 12]) 12 blocks =
      .ok [⟨⟨1, 6⟩, [⟨0, 9⟩]⟩, ⟨⟨6, 8⟩, [⟨0, 9⟩]⟩, ⟨⟨9, 12⟩, [⟨1, 0⟩]⟩] := by decide
  obtain ⟨-, -, kept⟩ := legalize_keeps_allowed_boundaries (.ofList [3, 4, 12]) 12 blocks placed
  obtain ⟨-, same, -, survives⟩ := kept _ done
  have boundary : HasBoundary blocks 6 := ⟨⟨⟨4, 6⟩, [⟨0, 9⟩]⟩, by decide, .inr rfl⟩
  exact ⟨blocks, _, rfl, rfl, placed, done, same 3, survives 6 boundary (by decide)⟩

end DisjointTraps
