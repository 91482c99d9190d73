import DisjointTraps.Proofs.Guarded.Sweep
import DisjointTraps.Proofs.Size

set_option autoImplicit false

namespace DisjointTraps

variable {ε : Type} {rule : BoundaryRule} {count : Position}

/-- A boundary of a trap that is taken away when blocks are placed: the rule forbids it, and no
change of the dispatch list is refused up to there. -/
structure Absorbed [DecidableEq ε] (rule : BoundaryRule) (count : Position)
    (traps : List (Trap ε)) (p : Position) : Prop where
  boundary : IsBoundary traps p
  forbidden : rule.forbids count p = true
  unchanged : ∀ q ≤ p, ¬ ForbiddenChange rule count (dispatchAt traps) q

/-- More boundaries are absorbed than a counter of 32 bits with a sign can count. -/
def AbsorbsTooMany [DecidableEq ε] (rule : BoundaryRule) (count : Position)
    (traps : List (Trap ε)) : Prop :=
  ∃ positions : List Position, positions.Nodup ∧ positions.length = 2 ^ 31 ∧
    ∀ p ∈ positions, Absorbed rule count traps p

section Blocks

variable {current next : TryBlock ε} {rest : List (TryBlock ε)}

/-- Among the blocks behind the current one, one that begins at `p`, where the rule forbids it and
no change of the dispatch list is refused up to there. -/
structure AbsorbedAfter (rule : BoundaryRule) (count : Position) (current : TryBlock ε)
    (rest : List (TryBlock ε)) (p : Position) : Prop where
  begins : ∃ block ∈ rest, p = block.span.first
  forbidden : rule.forbids count p = true
  unchanged : ∀ q, current.span.first < q → q ≤ p →
    ¬ ForbiddenChange rule count (dispatchIn (current :: rest)) q

theorem Placed.first_le_of_mem {block : TryBlock ε} (placed : Placed (next :: rest))
    (member : block ∈ next :: rest) : next.span.first ≤ block.span.first := by
  obtain ⟨nonempty, -, later, -⟩ := (placed_cons next rest).mp placed
  rcases List.mem_cons.mp member with rfl | member
  · exact UInt32.le_refl _
  · exact UInt32.le_trans (UInt32.le_of_lt nonempty) (later block member)

/-- From the beginning of a block to that of the next one, the list changes at the two edges of
what lies between them, if at all. -/
theorem Placed.change_of_le_next (placed : Placed (current :: next :: rest)) {q : Position}
    (past : current.span.first < q) (reached : q ≤ next.span.first)
    (change : dispatchIn (current :: next :: rest) (q - 1) ≠
      dispatchIn (current :: next :: rest) q) :
    q = current.span.limit ∨ q = next.span.first := by
  obtain ⟨-, -, -, tail⟩ := (placed_cons current (next :: rest)).mp placed
  obtain ⟨block, member, ends⟩ := exists_boundary_of_change (by grind) change
  have nonempty := placed.nonempty block member
  rcases List.mem_cons.mp member with rfl | member
  · exact .inl (by grind)
  · have above := tail.first_le_of_mem member
    exact .inr (by grind)

theorem Placed.not_absorbedAfter (placed : Placed (current :: next :: rest)) {c : Position}
    (past : current.span.first < c) (reached : c ≤ next.span.first)
    (change : ForbiddenChange rule count (dispatchIn (current :: next :: rest)) c) (p : Position) :
    ¬ AbsorbedAfter rule count current (next :: rest) p := by
  rintro ⟨⟨block, member, rfl⟩, -, unchanged⟩
  obtain ⟨-, -, -, tail⟩ := (placed_cons current (next :: rest)).mp placed
  exact unchanged c past (UInt32.le_trans reached (tail.first_le_of_mem member)) change

/-- If the next block begins where it may, and no change up to there is refused, what is absorbed
lies behind the next block. -/
theorem Placed.absorbedAfter_next (placed : Placed (current :: next :: rest))
    (free : rule.forbids count next.span.first = false)
    (ends : current.span.limit = next.span.first ∨
      rule.forbids count current.span.limit = false) (p : Position) :
    AbsorbedAfter rule count current (next :: rest) p ↔ AbsorbedAfter rule count next rest p := by
  obtain ⟨nonempty, -, later, tail⟩ := (placed_cons current (next :: rest)).mp placed
  have order := later next List.mem_cons_self
  have same : ∀ q, next.span.first ≤ q →
      dispatchIn (next :: rest) q = dispatchIn (current :: next :: rest) q := by
    intro q past
    rw [placed.dispatchIn_tail, if_pos (by grind)]
  have allowed : ∀ q, current.span.first < q → q ≤ next.span.first →
      ¬ ForbiddenChange rule count (dispatchIn (current :: next :: rest)) q := by
    intro q past reached change
    have forbidden := change.forbidden
    rcases placed.change_of_le_next past reached change.differ with here | here
    · grind
    · grind
  constructor
  · rintro ⟨⟨block, member, rfl⟩, forbidden, unchanged⟩
    refine ⟨?_, forbidden, fun q past early change => ?_⟩
    · rcases List.mem_cons.mp member with rfl | member
      · rw [free] at forbidden
        cases forbidden
      · exact ⟨block, member, rfl⟩
    · exact unchanged q (by grind) early
        (change.congr (same (q - 1) (by grind)) (same q (by grind)))
  · rintro ⟨⟨block, member, rfl⟩, forbidden, unchanged⟩
    refine ⟨⟨block, List.mem_cons_of_mem _ member, rfl⟩, forbidden, fun q past early change => ?_⟩
    by_cases begun : q ≤ next.span.first
    · exact allowed q past begun change
    · exact unchanged q (by grind) early
        (change.congr (same (q - 1) (by grind)).symm (same q (by grind)).symm)

/-- A next block that touches with an equal list is absorbed, and after it what the grown block
absorbs. -/
theorem Placed.absorbedAfter_merge (placed : Placed (current :: next :: rest))
    (joins : current.Joins next) (forbidden : rule.forbids count next.span.first = true)
    (p : Position) :
    AbsorbedAfter rule count current (next :: rest) p ↔
      p = next.span.first ∨
        AbsorbedAfter rule count (current.extend next.span.limit) rest p := by
  obtain ⟨touch, equal⟩ := joins
  obtain ⟨-, same⟩ := placed.merge ⟨touch, equal⟩
  constructor
  · rintro ⟨⟨block, member, rfl⟩, others, unchanged⟩
    rcases List.mem_cons.mp member with rfl | member
    · exact .inl rfl
    · rw [← same] at unchanged
      exact .inr ⟨⟨block, member, rfl⟩, others, unchanged⟩
  · rintro (rfl | ⟨⟨block, member, rfl⟩, others, unchanged⟩)
    · refine ⟨⟨next, List.mem_cons_self, rfl⟩, forbidden, fun q past early change => ?_⟩
      have here : q = next.span.first := by
        rw [← or_self (q = next.span.first), ← touch]
        simpa only [touch] using placed.change_of_le_next past early change.differ
      have differ := change.differ
      rw [here, placed.dispatchIn_next, ← touch, placed.dispatchIn_last] at differ
      exact differ equal
    · rw [same] at unchanged
      exact ⟨⟨block, List.mem_cons_of_mem _ member, rfl⟩, others, unchanged⟩

end Blocks

namespace Guarded

variable [DecidableEq ε]

theorem absorbedFrom_sublist (current : TryBlock ε) (rest : List (TryBlock ε)) :
    (absorbedFrom rule count current rest).Sublist (rest.map (·.span.first)) := by
  induction rest generalizing current with
  | nil => exact .slnil
  | cons next rest ih =>
      rw [absorbedFrom, List.map_cons]
      split
      · split
        · split
          · exact (ih _).cons_cons _
          · exact List.nil_sublist _
        · exact (ih next).cons _
      · split
        · exact List.nil_sublist _
        · exact (ih next).cons _

theorem absorbed_sublist (blocks : List (TryBlock ε)) :
    (absorbed rule count blocks).Sublist (blocks.map (·.span.first)) := by
  cases blocks with
  | nil => exact .slnil
  | cons first rest =>
      rw [absorbed]
      split
      · exact List.nil_sublist _
      · exact (absorbedFrom_sublist first rest).cons _

theorem absorbed_nodup {blocks : List (TryBlock ε)} (placed : Placed blocks) :
    (absorbed rule count blocks).Nodup := by
  have sorted : (blocks.map (·.span.first)).Pairwise (· < ·) := by
    rw [List.pairwise_map]
    refine placed.ordered.imp_of_mem fun {block other} member _ order => ?_
    exact UInt32.lt_of_lt_of_le (placed.nonempty block member) order
  refine (sorted.sublist (absorbed_sublist blocks)).imp fun less same => ?_
  exact UInt32.lt_irrefl _ (same ▸ less)

theorem mem_absorbedFrom {current : TryBlock ε} {rest : List (TryBlock ε)}
    (placed : Placed (current :: rest)) (p : Position) :
    p ∈ absorbedFrom rule count current rest ↔ AbsorbedAfter rule count current rest p := by
  induction rest generalizing current with
  | nil =>
      refine iff_of_false List.not_mem_nil ?_
      rintro ⟨⟨block, member, -⟩, -, -⟩
      cases member
  | cons next rest ih =>
      obtain ⟨nonempty, handled, after, tail⟩ := (placed_cons current (next :: rest)).mp placed
      have order := after next List.mem_cons_self
      have filled := tail.handled next List.mem_cons_self
      rw [absorbedFrom]
      split
      · rename_i touch
        split
        · rename_i forbidden
          split
          · rename_i equal
            rw [List.mem_cons, ih (placed.merge ⟨touch, equal⟩).placed,
              placed.absorbedAfter_merge ⟨touch, equal⟩ forbidden]
          · rename_i differ
            refine iff_of_false List.not_mem_nil (placed.not_absorbedAfter (by grind)
              (UInt32.le_refl _) ⟨forbidden, ?_⟩ p)
            rw [placed.dispatchIn_next, ← touch, placed.dispatchIn_last]
            exact differ
        · rename_i free
          rw [Bool.not_eq_true] at free
          rw [ih tail, placed.absorbedAfter_next free (.inl touch)]
      · rename_i apart
        have gap : ∀ q, current.span.limit ≤ q → q < next.span.first →
            dispatchIn (current :: next :: rest) q = [] := by
          intro q past early
          rw [dispatchIn_cons_outside current _ (by grind), tail.dispatchIn_before early]
        split
        · rename_i refused
          refine iff_of_false List.not_mem_nil ?_
          rcases refused with ends | begins
          · refine placed.not_absorbedAfter nonempty order ⟨ends, ?_⟩ p
            rw [placed.dispatchIn_last, gap _ (UInt32.le_refl _) (by grind)]
            exact handled
          · refine placed.not_absorbedAfter (by grind) (UInt32.le_refl _) ⟨begins, ?_⟩ p
            rw [gap _ (by grind) (by grind), placed.dispatchIn_next]
            exact filled.symm
        · rename_i passed
          obtain ⟨ends, begins⟩ := not_or.mp passed
          rw [Bool.not_eq_true] at ends begins
          rw [ih tail, placed.absorbedAfter_next begins (.inr ends)]

/-- The first block is never absorbed, because its beginning is a change of the dispatch list. -/
theorem mem_absorbed {blocks : List (TryBlock ε)} (placed : Placed blocks) (p : Position) :
    p ∈ absorbed rule count blocks ↔
      (∃ block ∈ blocks, p = block.span.first) ∧ rule.forbids count p = true ∧
      ∀ q ≤ p, ¬ ForbiddenChange rule count (dispatchIn blocks) q := by
  cases blocks with
  | nil => simp only [absorbed, List.not_mem_nil, false_and, exists_false]
  | cons first rest =>
      have handled := placed.handled first List.mem_cons_self
      have before : ∀ q, q < first.span.first → dispatchIn (first :: rest) q = [] :=
        fun q early => placed.dispatchIn_before early
      rw [absorbed]
      split
      · rename_i begins
        have positive := ((rule.forbids_iff count _).mp begins).1
        refine iff_of_false List.not_mem_nil ?_
        rintro ⟨⟨block, member, rfl⟩, -, unchanged⟩
        refine unchanged first.span.first (placed.first_le_of_mem member) ⟨begins, ?_⟩
        rw [before _ (by grind), placed.dispatchIn_first]
        exact handled.symm
      · rename_i begins
        rw [mem_absorbedFrom placed]
        constructor
        · rintro ⟨⟨block, member, rfl⟩, forbidden, unchanged⟩
          refine ⟨⟨block, List.mem_cons_of_mem _ member, rfl⟩, forbidden, ?_⟩
          intro q early change
          have positive := change.positive
          by_cases past : first.span.first < q
          · exact unchanged q past early change
          · by_cases here : q = first.span.first
            · exact begins (here ▸ change.forbidden)
            · exact change.differ (by rw [before (q - 1) (by grind), before q (by grind)])
        · rintro ⟨⟨block, member, rfl⟩, forbidden, unchanged⟩
          refine ⟨?_, forbidden, fun q _ => unchanged q⟩
          rcases List.mem_cons.mp member with rfl | member
          · exact absurd forbidden begins
          · exact ⟨block, member, rfl⟩

variable {traps : List (Trap ε)}

/-- A trap boundary inside a piece is where the piece begins. -/
theorem boundary_iff_first_of_piece (fits : ∀ trap ∈ traps, trap.WellFormed count) {p : Position}
    (covered : dispatchAt traps p ≠ []) :
    IsBoundary traps p ↔ ∃ block ∈ (Timeline.ofTraps traps).pieces, p = block.span.first := by
  have cut := Timeline.pieces_eq_cutAt fits
  rw [cutAt_eq_filterMap] at cut
  have ends : ∀ block ∈ (Timeline.ofTraps traps).pieces,
      (block.span.first, block.span.limit) ∈ neighbours (Timeline.ofTraps traps).boundaries := by
    intro block member
    rw [cut, List.mem_filterMap] at member
    obtain ⟨pair, adjacent, found⟩ := member
    rw [blockBetween] at found
    split at found
    · cases found
    · cases found
      exact adjacent
  constructor
  · intro boundary
    have dispatch := (Timeline.pieces_realizes fits).dispatch
    have inside : ∃ block ∈ (Timeline.ofTraps traps).pieces, p ∈ block.span := by
      by_contra outside
      rw [← dispatch] at covered
      exact covered (dispatchIn_eq_nil fun block member within => outside ⟨block, member, within⟩)
    obtain ⟨block, member, begun, before⟩ := inside
    have adjacent := rel_of_mem_neighbours (Timeline.boundaries_adjacent traps) (ends block member)
    have reached := adjacent.between p boundary before
    exact ⟨block, member, UInt32.le_antisymm reached begun⟩
  · rintro ⟨block, member, rfl⟩
    exact (Timeline.mem_boundaries traps _).mp (List.of_mem_zip (ends block member)).1

theorem mem_absorbed_pieces (fits : ∀ trap ∈ traps, trap.WellFormed count) (p : Position) :
    p ∈ absorbed rule count (Timeline.ofTraps traps).pieces ↔ Absorbed rule count traps p := by
  have realizes := Timeline.pieces_realizes fits
  have placed := realizes.placed
  rw [mem_absorbed placed, realizes.dispatch]
  have covered_first : ∀ block ∈ (Timeline.ofTraps traps).pieces,
      dispatchAt traps block.span.first ≠ [] := by
    intro block member
    rw [← realizes.dispatch,
      placed.dispatchIn_of_mem member (Span.first_mem (placed.nonempty block member))]
    exact placed.handled block member
  constructor
  · rintro ⟨⟨block, member, rfl⟩, forbidden, unchanged⟩
    have boundary := boundary_iff_first_of_piece fits (covered_first block member)
    exact ⟨boundary.mpr ⟨block, member, rfl⟩, forbidden, unchanged⟩
  · rintro ⟨boundary, forbidden, unchanged⟩
    have same : dispatchAt traps (p - 1) = dispatchAt traps p := by
      by_contra differ
      exact unchanged p (UInt32.le_refl p) ⟨forbidden, differ⟩
    -- A trap that begins at `p` covers it, and one that ends there covers the position before.
    have covered : dispatchAt traps p ≠ [] := by
      obtain ⟨trap, member, ends⟩ := boundary
      have nonempty := (fits trap member).1
      intro gap
      rcases ends with rfl | rfl
      · exact (dispatchAt_eq_nil_iff traps _).mp gap trap member (Span.first_mem nonempty)
      · rw [← same, dispatchAt_eq_nil_iff] at gap
        exact gap trap member (Span.last_mem nonempty)
    exact ⟨(boundary_iff_first_of_piece fits covered).mp boundary, forbidden, unchanged⟩

/-- The counter of a placement overflows exactly if too many boundaries are absorbed. -/
theorem length_absorbed_pieces_lt_iff (fits : ∀ trap ∈ traps, trap.WellFormed count) :
    (absorbed rule count (Timeline.ofTraps traps).pieces).length < 2 ^ 31 ↔
      ¬ AbsorbsTooMany rule count traps := by
  have member : ∀ p, p ∈ absorbed rule count (Timeline.ofTraps traps).pieces ↔
      Absorbed rule count traps p := mem_absorbed_pieces fits
  have distinct : (absorbed rule count (Timeline.ofTraps traps).pieces).Nodup :=
    absorbed_nodup (Timeline.pieces_realizes fits).placed
  rw [← Nat.not_le, not_iff_not]
  constructor
  · intro many
    refine ⟨(absorbed rule count (Timeline.ofTraps traps).pieces).take (2 ^ 31), ?_, ?_, ?_⟩
    · exact distinct.sublist (List.take_sublist _ _)
    · rw [List.length_take, Nat.min_eq_left many]
    · intro p taken
      exact (member p).mp (List.mem_of_mem_take taken)
  · rintro ⟨positions, different, many, listed⟩
    rw [← many]
    exact (different.subperm fun p here => (member p).mpr (listed p here)).length_le

end Guarded

/-- A trap for each single instruction of a body, all with the same handler. -/
def unitTraps (handler : Handler ε) (count : Position) : List (Trap ε) :=
  (upFrom 0 count.toNat).map fun p => ⟨⟨p, p + 1⟩, handler⟩

theorem length_unitTraps (handler : Handler ε) (count : Position) :
    (unitTraps handler count).length = count.toNat := by
  rw [unitTraps, upFrom_eq_map, List.length_map, List.length_map, List.length_range]

theorem mem_unitTraps {handler : Handler ε} {trap : Trap ε} :
    trap ∈ unitTraps handler count ↔ ∃ p < count, trap = ⟨⟨p, p + 1⟩, handler⟩ := by
  simp only [unitTraps, List.mem_map, mem_upFrom_zero, eq_comm]

theorem unitTraps_wellFormed {handler : Handler ε} (inside : handler.target < count) :
    ∀ trap ∈ unitTraps handler count, trap.WellFormed count := by
  intro trap member
  obtain ⟨p, before, rfl⟩ := mem_unitTraps.mp member
  refine ⟨?_, ?_, inside⟩
  · grind
  · grind

variable [DecidableEq ε] {traps : List (Trap ε)}

/-- Each trap has two boundaries, so fewer than `2 ^ 30` traps never have too many. -/
theorem not_absorbsTooMany_of_few (few : traps.length < 2 ^ 30) :
    ¬ AbsorbsTooMany rule count traps := by
  rintro ⟨positions, different, many, listed⟩
  have among : positions ⊆ (Timeline.ofTraps traps).boundaries := fun p here =>
    (Timeline.mem_boundaries traps p).mpr (listed p here).boundary
  have fewer := (different.subperm among).length_le
  have ends := Timeline.length_boundaries_le traps
  omega

theorem firstMatch_replicate (handler : Handler ε) {n : Nat} (some : n ≠ 0) :
    firstMatch (List.replicate n handler) = [handler] := by
  obtain ⟨m, rfl⟩ := Nat.exists_eq_succ_of_ne_zero some
  rw [firstMatch, List.replicate_succ, List.foldl_cons]
  have first : Dispatch.add [] handler = [handler] := Dispatch.add_of_free (by simp)
  rw [first]
  clear some first
  induction m with
  | zero => rfl
  | succ m ih =>
      rw [List.replicate_succ, List.foldl_cons,
        Dispatch.add_of_caught (List.mem_singleton_self handler) rfl, ih]

section UnitTraps

variable {handler : Handler ε}

theorem dispatchAt_unitTraps {p : Position} (inside : p < count) :
    dispatchAt (unitTraps handler count) p = [handler] := by
  have covering := List.eq_replicate_of_mem (a := handler)
    (l := ((unitTraps handler count).filter fun trap => p ∈ trap.span).map (·.handler))
    fun entry member => by
      obtain ⟨trap, kept, rfl⟩ := List.mem_map.mp member
      obtain ⟨q, -, rfl⟩ := mem_unitTraps.mp (List.mem_of_mem_filter kept)
      rfl
  rw [dispatchAt, covering]
  apply firstMatch_replicate
  rw [Ne, List.length_eq_zero_iff, List.map_eq_nil_iff, List.filter_eq_nil_iff]
  intro outside
  refine outside ⟨⟨p, p + 1⟩, handler⟩ (mem_unitTraps.mpr ⟨p, inside, rfl⟩) ?_
  rw [decide_eq_true_eq]
  exact ⟨UInt32.le_refl p, by grind⟩

/-- If no boundary is allowed, all those inside the body are absorbed. -/
theorem absorbed_unitTraps {p : Position} (positive : 0 < p) (inside : p < count) :
    Absorbed .fixed count (unitTraps handler count) p where
  boundary := ⟨_, mem_unitTraps.mpr ⟨p, inside, rfl⟩, .inl rfl⟩
  forbidden := (BoundaryRule.forbids_iff _ _ _).mpr ⟨positive, inside, rfl⟩
  unchanged q early change := by
    have := change.positive
    refine change.differ ?_
    rw [dispatchAt_unitTraps (by grind), dispatchAt_unitTraps (by grind)]

theorem absorbsTooMany_unitTraps (large : 2 ^ 31 < count.toNat) :
    AbsorbsTooMany .fixed count (unitTraps handler count) := by
  obtain ⟨n, size⟩ := Nat.exists_eq_succ_of_ne_zero (Nat.ne_zero_of_lt large)
  have sorted := upFrom_zero_sorted count
  have member := mem_upFrom_zero count
  rw [size, upFrom] at sorted member
  obtain ⟨positive, later⟩ := List.pairwise_cons.mp sorted
  have length : (upFrom (0 + 1) n).length = n := by
    rw [upFrom_eq_map, List.length_map, List.length_range]
  refine ⟨(upFrom (0 + 1) n).take (2 ^ 31), ?_, ?_, ?_⟩
  · refine (later.sublist (List.take_sublist _ _)).imp fun less same => ?_
    exact UInt32.lt_irrefl _ (same ▸ less)
  · rw [List.length_take, length, Nat.min_eq_left (by omega)]
  · intro p taken
    have listed := List.mem_of_mem_take taken
    exact absorbed_unitTraps (positive p listed) ((member p).mp (List.mem_cons_of_mem _ listed))

end UnitTraps

end DisjointTraps
