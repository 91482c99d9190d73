import DisjointTraps.Proofs.Outcome
import Mathlib.Combinatorics.Enumerative.DoubleCounting
import Mathlib.Data.List.Pairwise

set_option autoImplicit false

namespace DisjointTraps

variable {ε : Type} {blocks others : List (TryBlock ε)} {p : Position} {list : Dispatch ε}

/-- Blocks in any order, none of them empty, and no position in two of them. -/
structure Scattered (blocks : List (TryBlock ε)) : Prop where
  nonempty : ∀ block ∈ blocks, block.span.first < block.span.limit
  disjoint : blocks.Pairwise fun block other => ∀ p ∈ block.span, p ∉ other.span

/-- The dispatch list at `p` by membership alone: that of a block around `p`, and the empty list
if there is no such block. -/
inductive ListAt (blocks : List (TryBlock ε)) (p : Position) : Dispatch ε → Prop
  | covered (block : TryBlock ε) (member : block ∈ blocks) (inside : p ∈ block.span) :
      ListAt blocks p block.handlers
  | gap (outside : ∀ block ∈ blocks, p ∉ block.span) : ListAt blocks p []

theorem ListAt.cons_outside {block : TryBlock ε} (outside : p ∉ block.span)
    (later : ListAt blocks p list) : ListAt (block :: blocks) p list := by
  cases later with
  | covered found member inside => exact .covered found (List.mem_cons_of_mem block member) inside
  | gap none => exact .gap (List.forall_mem_cons.mpr ⟨outside, none⟩)

/-- The first block around a position decides like any other one. -/
theorem listAt_dispatchIn (blocks : List (TryBlock ε)) (p : Position) :
    ListAt blocks p (dispatchIn blocks p) := by
  induction blocks with
  | nil => exact .gap (by simp)
  | cons block rest ih =>
      by_cases inside : p ∈ block.span
      · rw [dispatchIn_cons_inside block rest inside]
        exact .covered block List.mem_cons_self inside
      · rw [dispatchIn_cons_outside block rest inside]
        exact ih.cons_outside inside

theorem ListAt.perm (order : blocks.Perm others) (here : ListAt blocks p list) :
    ListAt others p list := by
  cases here with
  | covered block member inside => exact .covered block (order.mem_iff.mp member) inside
  | gap outside =>
      apply ListAt.gap
      intro block member
      exact outside block (order.mem_iff.mpr member)

theorem Apart.scattered (apart : Apart blocks) : Scattered blocks := by
  refine ⟨apart.nonempty, apart.ordered.imp ?_⟩
  intro block later order p inside also
  exact UInt32.not_lt.mpr (UInt32.le_trans order also.1) inside.2

namespace Scattered

theorem perm (order : blocks.Perm others) (scattered : Scattered blocks) : Scattered others := by
  constructor
  · intro block member
    exact scattered.nonempty block (order.mem_iff.mpr member)
  · apply order.pairwise scattered.disjoint
    intro block other apart p inside also
    exact apart p also inside

theorem nodup (scattered : Scattered blocks) : blocks.Nodup := by
  apply scattered.disjoint.imp_of_mem
  intro block other member _ apart same
  have inside := Span.first_mem (scattered.nonempty block member)
  exact apart _ inside (same ▸ inside)

theorem eq_of_mem (scattered : Scattered blocks) {block other : TryBlock ε}
    (member : block ∈ blocks) (also : other ∈ blocks) (here : p ∈ block.span)
    (there : p ∈ other.span) : block = other := by
  have symmetric : Std.Symm fun block other : TryBlock ε => ∀ p ∈ block.span, p ∉ other.span :=
    ⟨fun _ _ apart p inside also => apart p also inside⟩
  by_contra differ
  exact scattered.disjoint.forall member also differ p here there

theorem listAt_unique (scattered : Scattered blocks) {other : Dispatch ε}
    (one : ListAt blocks p list) (two : ListAt blocks p other) : list = other := by
  cases one with
  | covered block member inside =>
      cases two with
      | covered next also here => rw [scattered.eq_of_mem member also inside here]
      | gap outside => exact absurd inside (outside block member)
  | gap outside =>
      cases two with
      | covered next also here => exact absurd here (outside next also)
      | gap _ => rfl

theorem dispatchIn_eq (scattered : Scattered blocks) (here : ListAt blocks p list) :
    dispatchIn blocks p = list :=
  scattered.listAt_unique (listAt_dispatchIn blocks p) here

theorem dispatchIn_perm (scattered : Scattered blocks) (order : blocks.Perm others) :
    dispatchIn others = dispatchIn blocks := by
  funext p
  apply (scattered.perm order).dispatchIn_eq
  exact (listAt_dispatchIn blocks p).perm order

end Scattered

/-- Disjoint blocks in any order that give each instruction of a body its list. They may reach
past the end of the body. -/
structure Partition (count : Position) (lists : Position → Dispatch ε)
    (blocks : List (TryBlock ε)) : Prop extends Scattered blocks where
  dispatch : ∀ p, p < count → ListAt blocks p (lists p)

/-- A partition none of whose blocks begins or ends where the rule forbids it. -/
structure LegalPartition (rule : BoundaryRule) (count : Position) (lists : Position → Dispatch ε)
    (blocks : List (TryBlock ε)) : Prop extends Partition count lists blocks where
  allowed : ∀ block ∈ blocks, ∀ p ∈ [block.span.first, block.span.limit],
    rule.forbids count p = false

variable {rule : BoundaryRule} {count : Position} {lists : Position → Dispatch ε}

namespace Partition

theorem dispatchIn_eq (partition : Partition count lists blocks) (inside : p < count) :
    dispatchIn blocks p = lists p :=
  partition.toScattered.dispatchIn_eq (partition.dispatch p inside)

theorem list_eq (partition : Partition count lists blocks) {block : TryBlock ε}
    (member : block ∈ blocks) (here : p ∈ block.span) (inside : p < count) :
    lists p = block.handlers := by
  rw [← partition.dispatchIn_eq inside]
  exact partition.toScattered.dispatchIn_eq (.covered block member here)

theorem exists_mem (partition : Partition count lists blocks) (inside : p < count)
    (handled : lists p ≠ []) : ∃ block ∈ blocks, p ∈ block.span := by
  by_contra outside
  have gap : ListAt blocks p [] := .gap fun block member here => outside ⟨block, member, here⟩
  rw [← partition.dispatchIn_eq inside, partition.toScattered.dispatchIn_eq gap] at handled
  exact handled rfl

end Partition

/-- A change of the list needs a boundary in every partition, however the body is cut. -/
theorem LegalPartition.not_forbiddenChange (legal : LegalPartition rule count lists blocks)
    (p : Position) : ¬ ForbiddenChange rule count lists p := by
  intro change
  have inside := change.inside
  have before : p - 1 < count := by
    have := change.positive
    grind
  apply not_forbiddenChange_of_allowed legal.allowed p
  exact change.congr (legal.dispatchIn_eq before).symm (legal.dispatchIn_eq inside).symm

/-- Each block of a finished table begins with a change of the list, so no later one begins in a
span that has one list throughout. -/
theorem Canonical.first_le_of_steady (canonical : Canonical blocks) {block other : TryBlock ε}
    (member : other ∈ blocks) (inside : other.span.first < count) {span : Span}
    (steady : ∀ p ∈ span, p < count → dispatchIn blocks p = list)
    (here : block.span.first ∈ span) (there : other.span.first ∈ span) :
    other.span.first ≤ block.span.first := by
  by_contra later
  -- The position before `other` lies in the span as well, but has another list.
  have positive : 0 < other.span.first := by grind
  have before : other.span.first - 1 ∈ span ∧ other.span.first - 1 < count := by grind
  apply canonical.change_of_boundary member positive (.inl rfl)
  rw [steady _ before.1 before.2, steady _ there inside]

/-- A block of a partition holds the beginning of at most one block of a finished table. -/
theorem Canonical.eq_of_first_mem (canonical : Canonical blocks)
    (inside : ∀ block ∈ blocks, block.span.first < count) {span : Span}
    (steady : ∀ p ∈ span, p < count → dispatchIn blocks p = list) {block other : TryBlock ε}
    (member : block ∈ blocks) (also : other ∈ blocks) (here : block.span.first ∈ span)
    (there : other.span.first ∈ span) : block = other := by
  have low := canonical.first_le_of_steady also (inside other also) steady here there
  have high := canonical.first_le_of_steady member (inside block member) steady there here
  have same : block.span.first = other.span.first := UInt32.le_antisymm high low
  apply canonical.toApart.scattered.eq_of_mem member also
  · exact Span.first_mem (canonical.nonempty block member)
  · rw [same]
    exact Span.first_mem (canonical.nonempty other also)

/-- No partition has fewer blocks than the finished table. Each block of the table begins inside
some block of the partition, and no two of them begin inside the same one. -/
theorem Finished.length_le (finished : Finished lists blocks)
    (inside : ∀ block ∈ blocks, block.span.first < count)
    (partition : Partition count lists others) : blocks.length ≤ others.length := by
  classical
  have held : ∀ block ∈ blocks, ∃ other ∈ others, block.span.first ∈ other.span := by
    intro block member
    have begins := Span.first_mem (finished.nonempty block member)
    apply partition.exists_mem (inside block member)
    rw [← finished.dispatch, finished.dispatchIn_of_mem member begins]
    exact finished.handled block member
  have steady : ∀ other ∈ others, ∀ p ∈ other.span, p < count →
      dispatchIn blocks p = other.handlers := by
    intro other also p here within
    rw [finished.dispatch, partition.list_eq also here within]
  calc blocks.length = blocks.toFinset.card :=
        (List.toFinset_card_of_nodup finished.toApart.scattered.nodup).symm
    _ ≤ others.toFinset.card := by
        apply Finset.card_le_card_of_forall_subsingleton
          (fun block other => block.span.first ∈ other.span)
        · simpa only [List.mem_toFinset] using held
        · intro other also block here next there
          simp only [List.mem_toFinset] at also here there
          exact finished.eq_of_first_mem inside (steady other also) here.1 there.1 here.2 there.2
    _ ≤ others.length := others.toFinset_card_le

variable [DecidableEq ε] {traps : List (Trap ε)}

/-- The table of a split is itself a legal partition. -/
theorem Splits.legalPartition {table : Table ε} (splits : Splits count traps table)
    (legal : Legal rule count table.blocks) :
    LegalPartition rule count (dispatchAt traps) table.blocks := by
  refine ⟨⟨legal.toApart.scattered, fun p _ => ?_⟩, legal.allowed⟩
  rw [← splits.finished.dispatch]
  exact listAt_dispatchIn table.blocks p

/-- Traps that fit into their body are refused exactly if no way to cut the body is legal and
keeps the dispatch. -/
theorem split_refused_iff_no_legalPartition (rule : BoundaryRule) (options : SplitOptions)
    (count : Position) (traps : List (Trap ε)) (fits : ∀ trap ∈ traps, trap.WellFormed count) :
    (∃ p before after, split rule options count traps = .error (.illegalSplit p before after)) ↔
      ¬ ∃ blocks, LegalPartition rule count (dispatchAt traps) blocks := by
  have outcome := split_outcome rule options count traps
  constructor
  · intro refused partition
    obtain ⟨-, p, change⟩ := outcome.exists_illegalSplit_iff.mp refused
    obtain ⟨blocks, legal⟩ := partition
    exact legal.not_forbiddenChange p change
  · intro none
    rcases outcome.ok_or_illegalSplit fits with ⟨table, done⟩ | refused
    · obtain ⟨-, allowed, splits⟩ := (outcome.ok_iff table).mp done
      have legal := splits.legalPartition (splits.legal fits allowed)
      exact absurd ⟨table.blocks, legal⟩ none
    · exact refused

/-- Where the first of two traps ends at a forbidden position. -/
theorem split_refused_iff_no_legalPartition_at_end :
    ¬ ∃ blocks, LegalPartition (BoundaryRule.ofList [2]) 4
      (dispatchAt [(⟨⟨0, 2⟩, ⟨0, 3⟩⟩ : Trap Nat), ⟨⟨0, 4⟩, ⟨1, 3⟩⟩]) blocks := by
  apply (split_refused_iff_no_legalPartition _ ⟨.instructionwise, false⟩ _ _ (by decide)).mp
  exact ⟨2, [⟨0, 3⟩, ⟨1, 3⟩], [⟨1, 3⟩], by decide⟩

/-- The blocks of a split cut the body in a way that keeps the dispatch, and there is no such way
with fewer blocks, legal or not. -/
theorem split_has_fewest_blocks (rule : BoundaryRule) (options : SplitOptions) (count : Position)
    (traps : List (Trap ε)) (table : Table ε) (done : split rule options count traps = .ok table) :
    Partition count (dispatchAt traps) table.blocks ∧
      ∀ blocks, Partition count (dispatchAt traps) blocks → table.size ≤ blocks.length := by
  obtain ⟨fits, allowed, splits⟩ := ((split_outcome rule options count traps).ok_iff table).mp done
  have legal := splits.legal fits allowed
  refine ⟨(splits.legalPartition legal).toPartition, ?_⟩
  intro blocks partition
  apply splits.finished.length_le _ partition
  intro block member
  exact UInt32.lt_of_lt_of_le (legal.nonempty block member) (legal.inside block member)

/-- Three blocks, with a gap before the last one, which has the list of the first one again. -/
theorem split_has_fewest_blocks_around_gap :
    ∃ (traps : List (Trap Nat)) (table : Table Nat),
      split BoundaryRule.free ⟨.instructionwise, false⟩ 6 traps = .ok table ∧
        ∀ blocks, Partition 6 (dispatchAt traps) blocks → 3 ≤ blocks.length := by
  have done : split BoundaryRule.free ⟨.instructionwise, false⟩ 6
      [⟨⟨0, 3⟩, ⟨0, 5⟩⟩, ⟨⟨2, 3⟩, ⟨1, 5⟩⟩, ⟨⟨4, 6⟩, ⟨0, 5⟩⟩] =
        .ok (⟨6, [⟨⟨0, 2⟩, [⟨0, 5⟩]⟩, ⟨⟨2, 3⟩, [⟨0, 5⟩, ⟨1, 5⟩]⟩, ⟨⟨4, 6⟩, [⟨0, 5⟩]⟩]⟩ :
          Table Nat) := by decide
  exact ⟨_, _, done, (split_has_fewest_blocks _ _ _ _ _ done).2⟩

end DisjointTraps
