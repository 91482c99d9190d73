import DisjointTraps.Proofs.Blocks
import DisjointTraps.Proofs.Changes

set_option autoImplicit false

namespace DisjointTraps

variable {ε : Type}

theorem Apart.steady_first {block : TryBlock ε} {rest : List (TryBlock ε)} {p : Position}
    (begun : block.span.first < p) (before : p < block.span.limit) :
    dispatchIn (block :: rest) (p - 1) = dispatchIn (block :: rest) p := by
  rw [dispatchIn_cons_inside block rest (by grind), dispatchIn_cons_inside block rest (by grind)]

theorem Apart.dispatchIn_last {block : TryBlock ε} {rest : List (TryBlock ε)}
    (apart : Apart (block :: rest)) :
    dispatchIn (block :: rest) (block.span.limit - 1) = block.handlers := by
  have nonempty := apart.nonempty block List.mem_cons_self
  exact dispatchIn_cons_inside block rest (Span.last_mem nonempty)

theorem Placed.dispatchIn_next {current next : TryBlock ε} {rest : List (TryBlock ε)}
    (placed : Placed (current :: next :: rest)) :
    dispatchIn (current :: next :: rest) next.span.first = next.handlers := by
  obtain ⟨-, -, later, tail⟩ := (placed_cons current (next :: rest)).mp placed
  rw [← tail.dispatchIn_first, placed.dispatchIn_tail, if_pos (later next List.mem_cons_self)]

theorem Placed.replace_tail {block : TryBlock ε} {rest others : List (TryBlock ε)}
    (placed : Placed (block :: rest)) (later : Placed others)
    (same : dispatchIn others = dispatchIn rest) :
    Realizes (dispatchIn (block :: rest)) (block :: others) := by
  obtain ⟨nonempty, handled, -, -⟩ := (placed_cons block rest).mp placed
  have gap : ∀ p, p < block.span.limit → dispatchIn others p = [] := by
    intro p early
    rw [same, placed.dispatchIn_tail, if_neg (by grind)]
  refine ⟨(placed_cons block others).mpr ⟨nonempty, handled, later.le_first gap, later⟩, ?_⟩
  funext p
  rw [dispatchIn_cons, dispatchIn_cons, same]

theorem mem_extend_iff {block next : TryBlock ε} (touch : block.span.limit = next.span.first)
    (one : block.span.first ≤ block.span.limit) (other : next.span.first ≤ next.span.limit)
    (p : Position) :
    p ∈ (block.extend next.span.limit).span ↔ p ∈ block.span ∨ p ∈ next.span := by
  change block.span.first ≤ p ∧ p < next.span.limit ↔ _
  simp only [Span.mem_iff, UInt32.le_iff_toNat_le, UInt32.lt_iff_toNat_lt] at *
  rw [touch] at one ⊢
  omega

theorem Apart.merge {block next : TryBlock ε} {rest : List (TryBlock ε)}
    (apart : Apart (block :: next :: rest)) (touch : block.span.limit = next.span.first) :
    Apart (block.extend next.span.limit :: rest) := by
  obtain ⟨nonempty, -, tail⟩ := (apart_cons block (next :: rest)).mp apart
  obtain ⟨grows, later, others⟩ := (apart_cons next rest).mp tail
  refine (apart_cons _ rest).mpr ⟨?_, later, others⟩
  show block.span.first < next.span.limit
  exact UInt32.lt_trans nonempty (touch ▸ grows)

theorem Placed.merge {block next : TryBlock ε} {rest : List (TryBlock ε)}
    (placed : Placed (block :: next :: rest)) (joins : block.Joins next) :
    Realizes (dispatchIn (block :: next :: rest)) (block.extend next.span.limit :: rest) := by
  obtain ⟨nonempty, handled, -, tail⟩ := (placed_cons block (next :: rest)).mp placed
  obtain ⟨grows, -, -, others⟩ := (placed_cons next rest).mp tail
  obtain ⟨touch, equal⟩ := joins
  constructor
  · exact ⟨placed.toApart.merge touch, List.forall_mem_cons.mpr ⟨handled, others.handled⟩⟩
  · funext p
    have spans := mem_extend_iff touch (UInt32.le_of_lt nonempty) (UInt32.le_of_lt grows) p
    have list : (block.extend next.span.limit).handlers = block.handlers := rfl
    simp only [dispatchIn_cons, spans, list, ← equal]
    by_cases first : p ∈ block.span
    · simp only [first, true_or, ↓reduceIte]
    · simp only [first, false_or, ↓reduceIte]

section Legalize

variable {rule : BoundaryRule} {count : Position} {good : List (TryBlock ε) → Prop}
variable {later : Except (SplitError ε) (List (TryBlock ε))}
variable {current next : TryBlock ε} {rest : List (TryBlock ε)}

theorem Placed.screened_tail (placed : Placed (current :: next :: rest))
    (pass : Screened rule count (dispatchIn (next :: rest)) next.span.first
      (Realizes (dispatchIn (next :: rest))) later) :
    Screened rule count (dispatchIn (current :: next :: rest)) next.span.first
      (Realizes (dispatchIn (current :: next :: rest))) (do return current :: (← later)) := by
  have order := List.rel_of_pairwise_cons placed.ordered List.mem_cons_self
  refine (pass.congr fun p past => ?_).map (current :: ·) ?_
  · rw [placed.dispatchIn_tail, if_pos (by grind)]
  · exact fun blocks kept => placed.replace_tail kept.placed kept.dispatch

theorem Placed.screened_touch (placed : Placed (current :: next :: rest))
    (touch : current.span.limit = next.span.first)
    (allowed : ¬ ForbiddenChange rule count (dispatchIn (current :: next :: rest)) next.span.first)
    (onward : Screened rule count (dispatchIn (current :: next :: rest)) next.span.first good later) :
    Screened rule count (dispatchIn (current :: next :: rest)) current.span.first good later := by
  have nonempty := placed.nonempty current List.mem_cons_self
  refine onward.skip (by grind) fun q begun reached change => ?_
  by_cases here : q = next.span.first
  · exact allowed (here ▸ change)
  · exact change.differ (Apart.steady_first begun (by grind))

theorem Placed.screened_gap (placed : Placed (current :: next :: rest))
    (apart : current.span.limit ≠ next.span.first)
    (onward : Screened rule count (dispatchIn (current :: next :: rest)) next.span.first good later) :
    Screened rule count (dispatchIn (current :: next :: rest)) current.span.first good (do
      requireAllowed rule count current.span.limit current.handlers []
      requireAllowed rule count next.span.first [] next.handlers
      later) := by
  obtain ⟨nonempty, handled, after, tail⟩ := (placed_cons current (next :: rest)).mp placed
  have order : current.span.limit ≤ next.span.first := after next List.mem_cons_self
  have filled : next.handlers ≠ [] := tail.handled next List.mem_cons_self
  have gap : ∀ p, current.span.limit ≤ p → p < next.span.first →
      dispatchIn (current :: next :: rest) p = [] := by
    intro p past early
    rw [dispatchIn_cons_outside current _ (by grind), tail.dispatchIn_before early]
  refine .guard nonempty (fun q => Apart.steady_first) placed.dispatchIn_last
    (gap _ (UInt32.le_refl _) (by grind)) handled ?_
  refine .guard (by grind) ?_ (gap _ (by grind) (by grind)) placed.dispatchIn_next filled.symm
    onward
  intro q past early
  rw [gap (q - 1) (by grind) (by grind), gap q (by grind) early]

variable [DecidableEq ε]

theorem Placed.screened_last (placed : Placed [current]) :
    Screened rule count (dispatchIn [current]) current.span.first
      (Realizes (dispatchIn [current])) (legalizeFrom rule count current []) := by
  have outside : ∀ p, current.span.limit ≤ p → dispatchIn [current] p = [] :=
    fun p past => dispatchIn_cons_outside current [] (by grind)
  refine .guard (placed.nonempty current List.mem_cons_self) (fun q => Apart.steady_first)
    placed.dispatchIn_last (outside _ (UInt32.le_refl _))
    (placed.handled current List.mem_cons_self) (.passed [current] ?_ ⟨placed, rfl⟩)
  intro q past change
  exact change.differ (by rw [outside (q - 1) (by grind), outside q (by grind)])

variable (rule count)

theorem legalizeFrom_screened (current : TryBlock ε) (rest : List (TryBlock ε))
    (placed : Placed (current :: rest)) :
    Screened rule count (dispatchIn (current :: rest)) current.span.first
      (Realizes (dispatchIn (current :: rest))) (legalizeFrom rule count current rest) := by
  induction rest generalizing current with
  | nil => exact placed.screened_last
  | cons next rest ih =>
      obtain ⟨nonempty, -, -, tail⟩ := (placed_cons current (next :: rest)).mp placed
      have onward := placed.screened_tail (ih next tail)
      rw [legalizeFrom]
      split
      · rename_i touch
        have last : dispatchIn (current :: next :: rest) (next.span.first - 1) =
            current.handlers := by rw [← touch, placed.dispatchIn_last]
        split
        · rename_i forbidden
          split
          · -- The grown block has the dispatch of both, so the pass goes on with it instead.
            rename_i equal
            obtain ⟨merged, same⟩ := placed.merge ⟨touch, equal⟩
            have absorbed := ih (current.extend next.span.limit) merged
            rw [same] at absorbed
            exact absorbed
          · rename_i differ
            rw [← last, ← placed.dispatchIn_next]
            refine .refused next.span.first (by grind)
              ⟨forbidden, by rwa [last, placed.dispatchIn_next]⟩ ?_
            intro q begun early change
            exact change.differ (Apart.steady_first begun (by grind))
        · rename_i free
          exact placed.screened_touch touch (fun change => free change.forbidden) onward
      · rename_i apart
        exact placed.screened_gap apart onward

/-- Placing blocks fails at the lowest forbidden change of their dispatch, and otherwise keeps the
dispatch. -/
theorem legalize_screened {lists : Position → Dispatch ε} {blocks : List (TryBlock ε)}
    (realizes : Realizes lists blocks) :
    Screened rule count lists 0 (Realizes lists) (legalize rule count blocks) := by
  obtain ⟨placed, rfl⟩ := realizes
  cases blocks with
  | nil => exact .passed [] (fun q past change => change.differ rfl) ⟨placed, rfl⟩
  | cons first rest =>
      have onward := legalizeFrom_screened rule count first rest placed
      have before : ∀ p, p < first.span.first → dispatchIn (first :: rest) p = [] :=
        fun p early => placed.dispatchIn_before early
      rw [legalize]
      by_cases begins : first.span.first = 0
      · have allowed : rule.forbids count first.span.first = false := by
          simp [BoundaryRule.forbids, begins]
        rw [requireAllowed, allowed]
        rw [begins] at onward
        exact onward
      · have filled : first.handlers ≠ [] := placed.handled first List.mem_cons_self
        refine .guard (by grind) ?_ (before _ (by grind)) placed.dispatchIn_first filled.symm
          onward
        intro q past early
        rw [before (q - 1) (by grind), before q early]

end Legalize

section Coalesce

variable [DecidableEq ε]

theorem coalesceFrom_cons_join {current next : TryBlock ε} (rest : List (TryBlock ε))
    (joins : current.Joins next) :
    coalesceFrom current (next :: rest) = coalesceFrom (current.extend next.span.limit) rest := by
  rw [coalesceFrom, if_pos joins]

theorem coalesceFrom_cons_apart {current next : TryBlock ε} (rest : List (TryBlock ε))
    (apart : ¬ current.Joins next) :
    coalesceFrom current (next :: rest) = current :: coalesceFrom next rest := by
  rw [coalesceFrom, if_neg apart]

/-- The first block only grows at its end. -/
theorem exists_coalesceFrom_eq (current : TryBlock ε) (rest : List (TryBlock ε)) :
    ∃ limit others, coalesceFrom current rest = current.extend limit :: others := by
  induction rest generalizing current with
  | nil => exact ⟨current.span.limit, [], rfl⟩
  | cons next rest ih =>
      by_cases joins : current.Joins next
      · obtain ⟨limit, others, grown⟩ := ih (current.extend next.span.limit)
        exact ⟨limit, others, by rw [coalesceFrom_cons_join rest joins, grown]; rfl⟩
      · exact ⟨current.span.limit, coalesceFrom next rest, coalesceFrom_cons_apart rest joins⟩

theorem coalesceFrom_isChain (current : TryBlock ε) (rest : List (TryBlock ε)) :
    (coalesceFrom current rest).IsChain fun block next => ¬ block.Joins next := by
  induction rest generalizing current with
  | nil => exact .singleton current
  | cons next rest ih =>
      by_cases joins : current.Joins next
      · rw [coalesceFrom_cons_join rest joins]
        exact ih _
      · have later := ih next
        obtain ⟨limit, others, grown⟩ := exists_coalesceFrom_eq next rest
        rw [grown] at later
        rw [coalesceFrom_cons_apart rest joins, grown]
        exact List.isChain_cons_cons.mpr ⟨joins, later⟩

/-- Merging leaves nothing to merge, whatever the blocks are. -/
theorem coalesce_isChain (blocks : List (TryBlock ε)) :
    (coalesce blocks).IsChain fun block next => ¬ block.Joins next := by
  cases blocks with
  | nil => exact .nil
  | cons first rest => exact coalesceFrom_isChain first rest

theorem isCoalesced_iff (blocks : List (TryBlock ε)) :
    isCoalesced blocks = true ↔ blocks.IsChain fun block next => ¬ block.Joins next := by
  induction blocks with
  | nil => exact iff_of_true rfl .nil
  | cons block rest ih =>
      cases rest with
      | nil => exact iff_of_true rfl (.singleton block)
      | cons next rest =>
          rw [isCoalesced, Bool.and_eq_true, ih, List.isChain_cons_cons, Bool.not_eq_true',
            decide_eq_false_iff_not]

theorem coalesceFrom_realizes (current : TryBlock ε) (rest : List (TryBlock ε))
    (placed : Placed (current :: rest)) :
    Realizes (dispatchIn (current :: rest)) (coalesceFrom current rest) := by
  induction rest generalizing current with
  | nil => exact ⟨placed, rfl⟩
  | cons next rest ih =>
      by_cases joins : current.Joins next
      · obtain ⟨merged, same⟩ := placed.merge joins
        obtain ⟨kept, equal⟩ := ih _ merged
        rw [coalesceFrom_cons_join rest joins]
        exact ⟨kept, equal.trans same⟩
      · obtain ⟨-, -, -, tail⟩ := (placed_cons current (next :: rest)).mp placed
        obtain ⟨kept, equal⟩ := ih next tail
        rw [coalesceFrom_cons_apart rest joins]
        exact placed.replace_tail kept equal

theorem coalesce_realizes {lists : Position → Dispatch ε} {blocks : List (TryBlock ε)}
    (realizes : Realizes lists blocks) : Realizes lists (coalesce blocks) := by
  obtain ⟨placed, rfl⟩ := realizes
  cases blocks with
  | nil => exact ⟨placed, rfl⟩
  | cons first rest => exact coalesceFrom_realizes first rest placed

/-- Merging makes a finished table of blocks in order. -/
theorem coalesce_finished {lists : Position → Dispatch ε} {blocks : List (TryBlock ε)}
    (realizes : Realizes lists blocks) : Finished lists (coalesce blocks) :=
  have kept := coalesce_realizes realizes
  ⟨⟨kept.placed, coalesce_isChain blocks⟩, kept.dispatch⟩

end Coalesce

end DisjointTraps
