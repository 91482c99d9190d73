import DisjointTraps.Proofs.Placement

set_option autoImplicit false

namespace DisjointTraps

variable {ε : Type}

theorem TryBlock.joins_congr {block other next later : TryBlock ε}
    (ends : block.span.limit = other.span.limit) (same : block.handlers = other.handlers)
    (begins : next.span.first = later.span.first) (equal : next.handlers = later.handlers) :
    block.Joins next ↔ other.Joins later := by
  unfold TryBlock.Joins
  rw [ends, same, begins, equal]

/-- A result that is refused, if at all, for a change of the dispatch list. -/
def OnlyIllegal (result : Except (SplitError ε) Unit) : Prop :=
  ∀ error, result = .error error → ∃ p before after, error = .illegalSplit p before after

theorem OnlyIllegal.bind {first : Except (SplitError ε) Unit}
    {next : Unit → Except (SplitError ε) Unit} (one : OnlyIllegal first)
    (other : OnlyIllegal (next ())) : OnlyIllegal (first >>= next) := by
  cases first with
  | error reason => exact one
  | ok done => exact other

theorem onlyIllegal_ok : OnlyIllegal (.ok () : Except (SplitError ε) Unit) := by
  intro error failed
  cases failed

theorem requireAllowed_onlyIllegal {rule : BoundaryRule} {count p : Position}
    {before after : Dispatch ε} :
    OnlyIllegal (requireAllowed rule count p before after) := by
  intro error failed
  unfold requireAllowed at failed
  split at failed
  · cases failed
    exact ⟨p, before, after, rfl⟩
  · cases failed

section Merge

variable [DecidableEq ε]

def attach (block : TryBlock ε) : List (TryBlock ε) → List (TryBlock ε)
  | [] => [block]
  | next :: rest =>
      if block.Joins next then block.extend next.span.limit :: rest else block :: next :: rest

theorem exists_attach_eq (block : TryBlock ε) (blocks : List (TryBlock ε)) :
    ∃ limit others, attach block blocks = block.extend limit :: others := by
  cases blocks with
  | nil => exact ⟨block.span.limit, [], rfl⟩
  | cons next rest =>
      rw [attach]
      split
      · exact ⟨next.span.limit, rest, rfl⟩
      · exact ⟨block.span.limit, next :: rest, rfl⟩

theorem attach_attach_of_joins {block next : TryBlock ε} (joins : block.Joins next)
    (blocks : List (TryBlock ε)) :
    attach block (attach next blocks) = attach (block.extend next.span.limit) blocks := by
  cases blocks with
  | nil => exact if_pos joins
  | cons later rest =>
      have same : (block.extend next.span.limit).Joins later ↔ next.Joins later :=
        TryBlock.joins_congr rfl joins.2 rfl rfl
      by_cases onward : next.Joins later
      · rw [attach, if_pos onward, attach, attach, if_pos (same.mpr onward)]
        exact if_pos joins
      · rw [attach, if_neg onward, attach, attach, if_neg (fun found => onward (same.mp found))]
        exact if_pos joins

theorem attach_attach_of_apart {block next : TryBlock ε} (apart : ¬ block.Joins next)
    (blocks : List (TryBlock ε)) :
    attach block (attach next blocks) = block :: attach next blocks := by
  obtain ⟨limit, others, grown⟩ := exists_attach_eq next blocks
  rw [grown]
  exact if_neg apart

theorem coalesceFrom_eq_attach (block : TryBlock ε) (rest : List (TryBlock ε)) :
    coalesceFrom block rest = attach block (coalesce rest) := by
  induction rest generalizing block with
  | nil => rfl
  | cons next rest ih =>
      change _ = attach block (coalesceFrom next rest)
      by_cases joins : block.Joins next
      · rw [coalesceFrom_cons_join rest joins, ih, ih, attach_attach_of_joins joins]
      · rw [coalesceFrom_cons_apart rest joins, ih, attach_attach_of_apart joins]

/-- Merging may go from the last block to the first as well. -/
theorem coalesce_cons (block : TryBlock ε) (rest : List (TryBlock ε)) :
    coalesce (block :: rest) = attach block (coalesce rest) :=
  coalesceFrom_eq_attach block rest

theorem coalesce_extend {block next : TryBlock ε} (joins : block.Joins next)
    (rest : List (TryBlock ε)) :
    coalesce (block.extend next.span.limit :: rest) = coalesce (block :: next :: rest) := by
  rw [coalesce_cons, coalesce_cons, coalesce_cons, attach_attach_of_joins joins]

end Merge

section Checks

variable [DecidableEq ε] (rule : BoundaryRule) (count : Position)

/-- What is asked between two neighbours: nothing if they can be one block, one boundary where they
only touch, and both edges of a gap. -/
def requireSeam (block next : TryBlock ε) : Except (SplitError ε) Unit :=
  if block.Joins next then .ok ()
  else if block.span.limit = next.span.first then
    requireAllowed rule count next.span.first block.handlers next.handlers
  else do
    requireAllowed rule count block.span.limit block.handlers []
    requireAllowed rule count next.span.first [] next.handlers

/-- What is asked from a block on, its own beginning apart. -/
def requireSeamsFrom (block : TryBlock ε) : List (TryBlock ε) → Except (SplitError ε) Unit
  | [] => requireAllowed rule count block.span.limit block.handlers []
  | next :: rest => do
      requireSeam rule count block next
      requireSeamsFrom next rest

/-- Everything that is asked of a list of blocks, in the order of asking. -/
def requireSeams : List (TryBlock ε) → Except (SplitError ε) Unit
  | [] => .ok ()
  | first :: rest => do
      requireAllowed rule count first.span.first [] first.handlers
      requireSeamsFrom rule count first rest

/-- The blocks from `current` on, without the forbidden seams between equal lists. -/
def absorbFrom (current : TryBlock ε) : List (TryBlock ε) → List (TryBlock ε)
  | [] => [current]
  | next :: rest =>
      if current.Joins next ∧ rule.forbids count next.span.first then
        absorbFrom (current.extend next.span.limit) rest
      else current :: absorbFrom next rest

/-- The blocks without the forbidden seams between equal lists. -/
def absorb : List (TryBlock ε) → List (TryBlock ε)
  | [] => []
  | first :: rest => absorbFrom rule count first rest

variable {rule count}

/-- A seam is judged by where the earlier block ends and the later one begins, and by their
lists. -/
theorem requireSeam_congr {block other next later : TryBlock ε}
    (ends : block.span.limit = other.span.limit) (same : block.handlers = other.handlers)
    (begins : next.span.first = later.span.first) (equal : next.handlers = later.handlers) :
    requireSeam rule count block next = requireSeam rule count other later := by
  simp only [requireSeam, TryBlock.joins_congr ends same begins equal, ends, same, begins, equal]

theorem requireSeamsFrom_congr {block other : TryBlock ε}
    (ends : block.span.limit = other.span.limit) (same : block.handlers = other.handlers)
    (rest : List (TryBlock ε)) :
    requireSeamsFrom rule count block rest = requireSeamsFrom rule count other rest := by
  cases rest with
  | nil => rw [requireSeamsFrom, requireSeamsFrom, ends, same]
  | cons next rest =>
      rw [requireSeamsFrom, requireSeamsFrom, requireSeam_congr ends same rfl rfl]

theorem requireSeamsFrom_cons_join {block next : TryBlock ε} (joins : block.Joins next)
    (rest : List (TryBlock ε)) :
    requireSeamsFrom rule count block (next :: rest) = requireSeamsFrom rule count next rest := by
  rw [requireSeamsFrom, requireSeam, if_pos joins]
  rfl

theorem requireSeamsFrom_extend {block next : TryBlock ε} (joins : block.Joins next)
    (rest : List (TryBlock ε)) :
    requireSeamsFrom rule count (block.extend next.span.limit) rest =
      requireSeamsFrom rule count block (next :: rest) := by
  rw [requireSeamsFrom_cons_join joins]
  apply requireSeamsFrom_congr
  · rfl
  · exact joins.2

theorem legalizeFrom_cons_absorb {current next : TryBlock ε} (joins : current.Joins next)
    (forbidden : rule.forbids count next.span.first = true) (rest : List (TryBlock ε)) :
    legalizeFrom rule count current (next :: rest) =
      legalizeFrom rule count (current.extend next.span.limit) rest := by
  rw [legalizeFrom, if_pos joins.1, if_pos forbidden, if_pos joins.2]

theorem legalizeFrom_cons_keep {current next : TryBlock ε}
    (kept : ¬ (current.Joins next ∧ rule.forbids count next.span.first = true))
    (rest : List (TryBlock ε)) :
    legalizeFrom rule count current (next :: rest) = do
      requireSeam rule count current next
      let later ← legalizeFrom rule count next rest
      return current :: later := by
  rw [legalizeFrom, requireSeam]
  by_cases touch : current.span.limit = next.span.first
  · rw [if_pos touch]
    by_cases equal : current.handlers = next.handlers
    · have joins : current.Joins next := ⟨touch, equal⟩
      rw [if_neg (fun forbidden => kept ⟨joins, forbidden⟩), if_pos joins]
      rfl
    · have apart : ¬ current.Joins next := fun joins => equal joins.2
      rw [if_neg apart, if_pos touch, if_neg equal, requireAllowed]
      split
      · rfl
      · rfl
  · have apart : ¬ current.Joins next := fun joins => touch joins.1
    rw [if_neg touch, if_neg apart, if_neg touch, bind_assoc]

/-- A placement first asks, and then absorbs. -/
theorem legalizeFrom_eq (current : TryBlock ε) (rest : List (TryBlock ε)) :
    legalizeFrom rule count current rest = do
      requireSeamsFrom rule count current rest
      return absorbFrom rule count current rest := by
  induction rest generalizing current with
  | nil => rfl
  | cons next rest ih =>
      rw [absorbFrom]
      by_cases absorbed : current.Joins next ∧ rule.forbids count next.span.first = true
      · rw [if_pos absorbed, legalizeFrom_cons_absorb absorbed.1 absorbed.2, ih,
          requireSeamsFrom_extend absorbed.1]
      · rw [if_neg absorbed, legalizeFrom_cons_keep absorbed, requireSeamsFrom, ih]
        simp only [bind_assoc, pure_bind]

theorem legalize_eq (blocks : List (TryBlock ε)) :
    legalize rule count blocks = do
      requireSeams rule count blocks
      return absorb rule count blocks := by
  cases blocks with
  | nil => rfl
  | cons first rest =>
      rw [legalize, requireSeams, absorb, legalizeFrom_eq, bind_assoc]

theorem requireSeams_attach (block : TryBlock ε) (blocks : List (TryBlock ε)) :
    requireSeams rule count (attach block blocks) = requireSeams rule count (block :: blocks) := by
  cases blocks with
  | nil => rfl
  | cons next rest =>
      rw [attach]
      split
      · rename_i joins
        rw [requireSeams, requireSeams, requireSeamsFrom_extend joins]
        rfl
      · rfl

theorem requireSeamsFrom_attach (block next : TryBlock ε) (blocks : List (TryBlock ε)) :
    requireSeamsFrom rule count block (attach next blocks) =
      requireSeamsFrom rule count block (next :: blocks) := by
  cases blocks with
  | nil => rfl
  | cons later rest =>
      rw [attach]
      split
      · rename_i joins
        rw [requireSeamsFrom, requireSeamsFrom_extend joins]
        rfl
      · rfl

theorem requireSeamsFrom_coalesce (block : TryBlock ε) (rest : List (TryBlock ε)) :
    requireSeamsFrom rule count block (coalesce rest) = requireSeamsFrom rule count block rest := by
  induction rest generalizing block with
  | nil => rfl
  | cons next rest ih =>
      rw [coalesce_cons, requireSeamsFrom_attach, requireSeamsFrom, ih, requireSeamsFrom]

/-- Merging leaves the same to be asked. -/
theorem requireSeams_coalesce (blocks : List (TryBlock ε)) :
    requireSeams rule count (coalesce blocks) = requireSeams rule count blocks := by
  cases blocks with
  | nil => rfl
  | cons first rest =>
      rw [coalesce_cons, requireSeams_attach, requireSeams, requireSeamsFrom_coalesce, requireSeams]

theorem coalesce_absorbFrom (current : TryBlock ε) (rest : List (TryBlock ε)) :
    coalesce (absorbFrom rule count current rest) = coalesce (current :: rest) := by
  induction rest generalizing current with
  | nil => rfl
  | cons next rest ih =>
      rw [absorbFrom]
      split
      · rename_i absorbed
        rw [ih, coalesce_extend absorbed.1]
      · rw [coalesce_cons, ih, ← coalesce_cons]

/-- Seams that a placement has taken away are among those that merging takes away. -/
theorem coalesce_absorb (blocks : List (TryBlock ε)) :
    coalesce (absorb rule count blocks) = coalesce blocks := by
  cases blocks with
  | nil => rfl
  | cons first rest => exact coalesce_absorbFrom first rest

theorem absorbFrom_of_isChain {current : TryBlock ε} {rest : List (TryBlock ε)}
    (apart : (current :: rest).IsChain fun block next => ¬ block.Joins next) :
    absorbFrom rule count current rest = current :: rest := by
  induction rest generalizing current with
  | nil => rfl
  | cons next rest ih =>
      obtain ⟨differ, later⟩ := List.isChain_cons_cons.mp apart
      rw [absorbFrom, if_neg (fun both => differ both.1), ih later]

theorem absorb_coalesce (blocks : List (TryBlock ε)) :
    absorb rule count (coalesce blocks) = coalesce blocks := by
  have apart := coalesce_isChain blocks
  generalize coalesce blocks = merged at apart
  cases merged with
  | nil => rfl
  | cons first rest => exact absorbFrom_of_isChain apart

theorem requireSeam_onlyIllegal (block next : TryBlock ε) :
    OnlyIllegal (requireSeam rule count block next) := by
  unfold requireSeam
  split
  · exact onlyIllegal_ok
  · split
    · exact requireAllowed_onlyIllegal
    · exact requireAllowed_onlyIllegal.bind requireAllowed_onlyIllegal

theorem requireSeamsFrom_onlyIllegal (block : TryBlock ε) (rest : List (TryBlock ε)) :
    OnlyIllegal (requireSeamsFrom rule count block rest) := by
  induction rest generalizing block with
  | nil => exact requireAllowed_onlyIllegal
  | cons next rest ih => exact (requireSeam_onlyIllegal block next).bind (ih next)

theorem requireSeams_onlyIllegal (blocks : List (TryBlock ε)) :
    OnlyIllegal (requireSeams rule count blocks) := by
  cases blocks with
  | nil => exact onlyIllegal_ok
  | cons first rest =>
      exact requireAllowed_onlyIllegal.bind (requireSeamsFrom_onlyIllegal first rest)

end Checks

variable [DecidableEq ε]

/-- Placing and merging commute on every list of blocks, in order or not: both ways are refused
with the same error, or both give the merged blocks. -/
theorem legalize_commutes_with_coalesce (rule : BoundaryRule) (count : Position)
    (blocks : List (TryBlock ε)) :
    (∃ p before after,
      legalize rule count (coalesce blocks) = .error (.illegalSplit p before after) ∧
      (legalize rule count blocks).map coalesce = .error (.illegalSplit p before after)) ∨
    (legalize rule count (coalesce blocks) = .ok (coalesce blocks) ∧
      (legalize rule count blocks).map coalesce = .ok (coalesce blocks)) := by
  rw [legalize_eq, legalize_eq, requireSeams_coalesce, absorb_coalesce]
  have illegal : OnlyIllegal (requireSeams rule count blocks) := requireSeams_onlyIllegal blocks
  cases asked : requireSeams rule count blocks with
  | error reason =>
      left
      obtain ⟨p, before, after, rfl⟩ := illegal reason asked
      exact ⟨p, before, after, rfl, rfl⟩
  | ok done =>
      right
      refine ⟨rfl, ?_⟩
      change Except.ok (coalesce (absorb rule count blocks)) = _
      rw [coalesce_absorb]

-- Blocks out of order and overlapping: the first pair joins, and is merged or absorbed.
example : (legalize (BoundaryRule.ofList [4]) 9
    [⟨⟨6, 4⟩, [⟨0, 3⟩]⟩, ⟨⟨4, 5⟩, [⟨0, 3⟩]⟩, (⟨⟨2, 8⟩, [⟨1, 3⟩]⟩ : TryBlock Nat)]).map coalesce =
      .ok [⟨⟨6, 5⟩, [⟨0, 3⟩]⟩, ⟨⟨2, 8⟩, [⟨1, 3⟩]⟩] := by decide

end DisjointTraps
