import DisjointTraps.Proofs.FirstMatch
import DisjointTraps.Proofs.Partition

set_option autoImplicit false

namespace DisjointTraps

variable {ε : Type} {count : Position} {blocks : List (TryBlock ε)}

theorem mem_toTraps {table : Table ε} {trap : Trap ε} :
    trap ∈ table.toTraps ↔
      ∃ block ∈ table.blocks, trap.span = block.span ∧ trap.handler ∈ block.handlers := by
  simp only [Table.toTraps, TryBlock.toTraps, List.mem_flatMap, List.mem_map]
  constructor
  · rintro ⟨block, member, handler, listed, rfl⟩
    exact ⟨block, member, rfl, listed⟩
  · rintro ⟨block, member, same, listed⟩
    exact ⟨block, member, trap.handler, listed, by rw [← same]⟩

theorem ListAt.distinct {p : Position} {list : Dispatch ε} (here : ListAt blocks p list)
    (distinct : ∀ block ∈ blocks, block.handlers.Distinct) : list.Distinct := by
  cases here with
  | covered block member inside => exact distinct block member
  | gap outside => exact List.nodup_nil

theorem TryBlock.covering_toTraps (block : TryBlock ε) (p : Position) :
    (block.toTraps.filter fun trap => p ∈ trap.span).map (·.handler) =
      if p ∈ block.span then block.handlers else [] := by
  rw [TryBlock.toTraps, List.filter_map, List.map_map]
  by_cases inside : p ∈ block.span
  · simp [Function.comp_def, inside]
  · simp [Function.comp_def, inside]

/-- The traps of disjoint blocks that apply at a position are those of the block around it. -/
theorem Scattered.covering_toTraps (scattered : Scattered blocks) (count p : Position) :
    ((Table.mk count blocks).toTraps.filter fun trap => p ∈ trap.span).map (·.handler) =
      dispatchIn blocks p := by
  induction blocks with
  | nil => rfl
  | cons block rest ih =>
      obtain ⟨apart, disjoint⟩ := List.pairwise_cons.mp scattered.disjoint
      have later := ih ⟨(List.forall_mem_cons.mp scattered.nonempty).2, disjoint⟩
      have both : (Table.mk count (block :: rest)).toTraps =
          block.toTraps ++ (Table.mk count rest).toTraps := List.flatMap_cons
      rw [both, List.filter_append, List.map_append, block.covering_toTraps, later]
      by_cases inside : p ∈ block.span
      · have gap : dispatchIn rest p = [] :=
          dispatchIn_eq_nil fun other member => apart other member p inside
        rw [if_pos inside, gap, List.append_nil, dispatchIn_cons_inside block rest inside]
      · rw [if_neg inside, List.nil_append, dispatchIn_cons_outside block rest inside]

theorem toTraps_wellFormed {table : Table ε}
    (nonempty : ∀ block ∈ table.blocks, block.span.first < block.span.limit)
    (inside : ∀ block ∈ table.blocks, block.span.limit ≤ count)
    (targets : ∀ block ∈ table.blocks, ∀ handler ∈ block.handlers, handler.target < count) :
    ∀ trap ∈ table.toTraps, trap.WellFormed count := by
  intro trap flat
  obtain ⟨block, member, same, listed⟩ := mem_toTraps.mp flat
  unfold Trap.WellFormed
  rw [same]
  exact ⟨nonempty block member, inside block member, targets block member _ listed⟩

theorem Legal.free {rule : BoundaryRule} (legal : Legal rule count blocks) :
    Legal BoundaryRule.free count blocks := by
  refine ⟨legal.toCanonical, legal.inside, legal.distinct, ?_⟩
  intro block _ p _
  exact BoundaryRule.forbids_free count p

variable [DecidableEq ε] {rule : BoundaryRule} {traps : List (Trap ε)} {table : Table ε}

theorem Scattered.dispatchAt_toTraps (scattered : Scattered blocks)
    (distinct : ∀ block ∈ blocks, block.handlers.Distinct) (count p : Position) :
    dispatchAt (Table.mk count blocks).toTraps p = dispatchIn blocks p := by
  rw [dispatchAt, scattered.covering_toTraps, firstMatch_of_distinct]
  exact (listAt_dispatchIn blocks p).distinct distinct

/-- A legal table is the split of its traps, in any order of the blocks. -/
theorem Legal.split_toTraps (legal : Legal rule table.count table.blocks)
    (targets : ∀ block ∈ table.blocks, ∀ handler ∈ block.handlers, handler.target < table.count)
    (order : blocks.Perm table.blocks) (options : SplitOptions) :
    split rule options table.count (Table.mk table.count blocks).toTraps = .ok table := by
  have member : ∀ {block}, block ∈ blocks → block ∈ table.blocks := order.mem_iff.mp
  have scattered := legal.toApart.scattered
  have dispatch : dispatchAt (Table.mk table.count blocks).toTraps = dispatchIn table.blocks := by
    rw [← scattered.dispatchIn_perm order.symm]
    funext p
    apply (scattered.perm order.symm).dispatchAt_toTraps
    exact fun block present => legal.distinct block (member present)
  apply ((split_outcome rule options _ _).ok_iff table).mpr
  refine ⟨?_, ?_, rfl, legal.toCanonical, dispatch.symm⟩
  · apply toTraps_wellFormed
    · exact fun block present => legal.nonempty block (member present)
    · exact fun block present => legal.inside block (member present)
    · exact fun block present => targets block (member present)
  · rw [dispatch]
    exact not_forbiddenChange_of_allowed legal.allowed

theorem Splits.exists_trap (splits : Splits count traps table) {block : TryBlock ε}
    (member : block ∈ table.blocks) {handler : Handler ε} (listed : handler ∈ block.handlers) :
    ∃ trap ∈ traps, trap.handler = handler := by
  have inside := Span.first_mem (splits.finished.nonempty block member)
  have list := splits.finished.dispatchIn_of_mem member inside
  rw [splits.finished.dispatch] at list
  rw [← list] at listed
  obtain ⟨trap, declared, -, same⟩ := exists_trap_of_mem_dispatchAt listed
  exact ⟨trap, declared, same⟩

theorem Splits.targets (splits : Splits count traps table)
    (fits : ∀ trap ∈ traps, trap.WellFormed count) :
    ∀ block ∈ table.blocks, ∀ handler ∈ block.handlers, handler.target < count := by
  intro block member handler listed
  obtain ⟨trap, declared, rfl⟩ := splits.exists_trap member listed
  exact (fits trap declared).2.2

/-- Splitting undoes flattening, in any order of the blocks and also without a rule. So the split
of a table that a split has made is that table. -/
theorem split_undoes_toTraps (rule : BoundaryRule) (options : SplitOptions) :
    (∀ table : Table ε, checkStructure rule table = [] →
      (∀ block ∈ table.blocks, ∀ handler ∈ block.handlers, handler.target < table.count) →
      ∀ blocks, blocks.Perm table.blocks →
        split rule options table.count (Table.mk table.count blocks).toTraps = .ok table ∧
        split .free options table.count (Table.mk table.count blocks).toTraps = .ok table) ∧
    (∀ (before : SplitOptions) (count : Position) (traps : List (Trap ε)) (table : Table ε),
      split rule before count traps = .ok table →
        split rule options count table.toTraps = .ok table ∧
        split .free options count table.toTraps = .ok table) := by
  constructor
  · intro table clean targets blocks order
    have legal := (checkStructure_eq_nil_iff rule table).mp clean
    exact ⟨legal.split_toTraps targets order options, legal.free.split_toTraps targets order options⟩
  · intro before count traps table done
    obtain ⟨fits, allowed, splits⟩ := ((split_outcome rule before count traps).ok_iff table).mp done
    obtain rfl := splits.count_eq
    have legal := splits.legal fits allowed
    have targets := splits.targets fits
    exact ⟨legal.split_toTraps targets (.refl _) options,
      legal.free.split_toTraps targets (.refl _) options⟩

/-- Three blocks, flattened from the last one to the first. -/
theorem split_undoes_toTraps_reversed :
    split (BoundaryRule.ofList [3]) {} 6 (Table.mk 6 [⟨⟨5, 6⟩, [⟨0, 5⟩]⟩,
      ⟨⟨2, 4⟩, [⟨1, 5⟩, ⟨0, 4⟩]⟩, ⟨⟨0, 2⟩, [⟨0, 5⟩]⟩]).toTraps =
        .ok (⟨6, [⟨⟨0, 2⟩, [⟨0, 5⟩]⟩, ⟨⟨2, 4⟩, [⟨1, 5⟩, ⟨0, 4⟩]⟩, ⟨⟨5, 6⟩, [⟨0, 5⟩]⟩]⟩ : Table Nat) :=
  ((split_undoes_toTraps (BoundaryRule.ofList [3]) {}).1
    ⟨6, [⟨⟨0, 2⟩, [⟨0, 5⟩]⟩, ⟨⟨2, 4⟩, [⟨1, 5⟩, ⟨0, 4⟩]⟩, ⟨⟨5, 6⟩, [⟨0, 5⟩]⟩]⟩
    (by decide) (by decide) _ (List.reverse_perm _)).1

end DisjointTraps
