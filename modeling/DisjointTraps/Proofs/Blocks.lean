import DisjointTraps.Table
import Mathlib.Data.List.Chain

set_option autoImplicit false

namespace DisjointTraps

variable {ε : Type}

/-- The dispatch list that blocks give at `p`: that of the first block with `p` in its span. -/
def dispatchIn : List (TryBlock ε) → Position → Dispatch ε
  | [], _ => []
  | block :: rest, p => if p ∈ block.span then block.handlers else dispatchIn rest p

theorem dispatchIn_cons (block : TryBlock ε) (rest : List (TryBlock ε)) (p : Position) :
    dispatchIn (block :: rest) p =
      if p ∈ block.span then block.handlers else dispatchIn rest p := rfl

theorem dispatchIn_cons_inside (block : TryBlock ε) (rest : List (TryBlock ε)) {p : Position}
    (inside : p ∈ block.span) : dispatchIn (block :: rest) p = block.handlers := by
  rw [dispatchIn_cons, if_pos inside]

theorem dispatchIn_cons_outside (block : TryBlock ε) (rest : List (TryBlock ε)) {p : Position}
    (outside : p ∉ block.span) : dispatchIn (block :: rest) p = dispatchIn rest p := by
  rw [dispatchIn_cons, if_neg outside]

theorem dispatchIn_eq_nil {blocks : List (TryBlock ε)} {p : Position}
    (outside : ∀ block ∈ blocks, p ∉ block.span) : dispatchIn blocks p = [] := by
  induction blocks with
  | nil => rfl
  | cons block rest ih =>
      rw [dispatchIn_cons_outside block rest (outside block List.mem_cons_self)]
      exact ih fun later member => outside later (List.mem_cons_of_mem _ member)

/-- Blocks in order and apart from each other, none of them empty. -/
structure Apart (blocks : List (TryBlock ε)) : Prop where
  nonempty : ∀ block ∈ blocks, block.span.first < block.span.limit
  ordered : blocks.Pairwise fun block later => block.span.limit ≤ later.span.first

theorem apart_nil : Apart ([] : List (TryBlock ε)) := ⟨by simp, .nil⟩

theorem apart_cons (block : TryBlock ε) (rest : List (TryBlock ε)) :
    Apart (block :: rest) ↔ block.span.first < block.span.limit ∧
      (∀ later ∈ rest, block.span.limit ≤ later.span.first) ∧ Apart rest := by
  constructor
  · rintro ⟨nonempty, ordered⟩
    rw [List.forall_mem_cons] at nonempty
    rw [List.pairwise_cons] at ordered
    exact ⟨nonempty.1, ordered.1, nonempty.2, ordered.2⟩
  · rintro ⟨nonempty, before, apart⟩
    exact ⟨List.forall_mem_cons.mpr ⟨nonempty, apart.nonempty⟩,
      List.pairwise_cons.mpr ⟨before, apart.ordered⟩⟩

/-- It is enough to look at neighbours if no block is empty. -/
theorem Apart.of_chain {blocks : List (TryBlock ε)}
    (nonempty : ∀ block ∈ blocks, block.span.first < block.span.limit)
    (linked : blocks.IsChain fun block next => block.span.limit ≤ next.span.first) :
    Apart blocks := by
  induction blocks with
  | nil => exact apart_nil
  | cons block rest ih =>
      rw [List.forall_mem_cons] at nonempty
      obtain ⟨next, others⟩ := List.isChain_cons.mp linked
      have apart := ih nonempty.2 others
      refine (apart_cons block rest).mpr ⟨nonempty.1, fun later member => ?_, apart⟩
      cases rest with
      | nil => cases member
      | cons second rest =>
          have touch := next second rfl
          have grows := nonempty.2 second List.mem_cons_self
          rcases List.mem_cons.mp member with rfl | member
          · exact touch
          · have := (List.pairwise_cons.mp apart.ordered).1 later member
            grind

/-- Nothing is covered before the first block. -/
theorem Apart.dispatchIn_before {block : TryBlock ε} {rest : List (TryBlock ε)}
    (apart : Apart (block :: rest)) {p : Position} (before : p < block.span.first) :
    dispatchIn (block :: rest) p = [] := by
  obtain ⟨nonempty, later, -⟩ := (apart_cons block rest).mp apart
  apply dispatchIn_eq_nil
  intro other member inside
  rcases List.mem_cons.mp member with rfl | member
  · grind
  · have := later other member
    grind

/-- From the end of the first block on, only the other blocks count. -/
theorem Apart.dispatchIn_tail {block : TryBlock ε} {rest : List (TryBlock ε)}
    (apart : Apart (block :: rest)) (p : Position) :
    dispatchIn rest p = if block.span.limit ≤ p then dispatchIn (block :: rest) p else [] := by
  obtain ⟨-, later, -⟩ := (apart_cons block rest).mp apart
  split
  · rename_i after
    exact (dispatchIn_cons_outside block rest (by grind)).symm
  · rename_i early
    apply dispatchIn_eq_nil
    intro other member inside
    have := later other member
    grind

theorem Apart.dispatchIn_first {block : TryBlock ε} {rest : List (TryBlock ε)}
    (apart : Apart (block :: rest)) :
    dispatchIn (block :: rest) block.span.first = block.handlers := by
  obtain ⟨nonempty, -, -⟩ := (apart_cons block rest).mp apart
  exact dispatchIn_cons_inside block rest (Span.first_mem nonempty)

/-- Blocks that are apart have no position in common, so each decides on its own span. -/
theorem Apart.dispatchIn_of_mem {blocks : List (TryBlock ε)} (apart : Apart blocks)
    {block : TryBlock ε} (member : block ∈ blocks) {p : Position} (inside : p ∈ block.span) :
    dispatchIn blocks p = block.handlers := by
  induction blocks with
  | nil => cases member
  | cons head rest ih =>
      obtain ⟨-, later, tail⟩ := (apart_cons head rest).mp apart
      rcases List.mem_cons.mp member with rfl | member
      · exact dispatchIn_cons_inside block rest inside
      · have outside : p ∉ head.span := by
          have := later block member
          grind
        rw [dispatchIn_cons_outside head rest outside, ih tail member]

theorem Table.blockAt?_cons (count : Position) (block : TryBlock ε) (rest : List (TryBlock ε))
    (p : Position) :
    (Table.mk count (block :: rest)).blockAt? p =
      if block.span.limit ≤ p then (Table.mk count rest).blockAt? p
      else if p ∈ block.span then some block else none := by
  by_cases passed : block.span.limit ≤ p
  · simp only [Table.blockAt?, List.dropWhile_cons, passed, decide_true, ↓reduceIte]
  · simp only [Table.blockAt?, List.dropWhile_cons, passed, decide_false, Bool.false_eq_true,
      ↓reduceIte, List.head?_cons, Option.filter_some, decide_eq_true_eq]

/-- The look-up in blocks that are apart finds what going through all blocks finds. -/
theorem Apart.blockAt?_eq_find? {count : Position} {blocks : List (TryBlock ε)}
    (apart : Apart blocks) (p : Position) :
    (Table.mk count blocks).blockAt? p = blocks.find? fun block => p ∈ block.span := by
  induction blocks with
  | nil => rfl
  | cons block rest ih =>
      obtain ⟨-, later, tail⟩ := (apart_cons block rest).mp apart
      rw [Table.blockAt?_cons, List.find?_cons]
      by_cases inside : p ∈ block.span
      · rw [if_neg (UInt32.not_le.mpr inside.2), if_pos inside, decide_eq_true inside]
      · rw [decide_eq_false inside]
        by_cases passed : block.span.limit ≤ p
        · rw [if_pos passed, ih tail]
        · -- The position lies before the first block, and so before all others.
          rw [if_neg passed, if_neg inside, eq_comm, List.find?_eq_none]
          intro other member covered
          have begun := (of_decide_eq_true covered).1
          have order := later other member
          exact passed (UInt32.le_trans order begun)

theorem dispatchIn_eq_find? (blocks : List (TryBlock ε)) (p : Position) :
    dispatchIn blocks p =
      match blocks.find? fun block => p ∈ block.span with
      | some block => block.handlers
      | none => [] := by
  induction blocks with
  | nil => rfl
  | cons block rest ih =>
      rw [dispatchIn_cons, List.find?_cons]
      by_cases inside : p ∈ block.span
      · rw [if_pos inside, decide_eq_true inside]
      · rw [if_neg inside, decide_eq_false inside, ih]

/-- The look-up in a table of blocks that are apart finds the list of the block around `p`. -/
theorem Apart.dispatchAt_eq {count : Position} {blocks : List (TryBlock ε)} (apart : Apart blocks)
    (p : Position) : (Table.mk count blocks).dispatchAt p = dispatchIn blocks p := by
  rw [Table.dispatchAt, apart.blockAt?_eq_find?]
  exact (dispatchIn_eq_find? blocks p).symm

/-- Blocks that are apart and all have a handler. -/
structure Placed (blocks : List (TryBlock ε)) : Prop extends Apart blocks where
  handled : ∀ block ∈ blocks, block.handlers ≠ []

theorem placed_nil : Placed ([] : List (TryBlock ε)) := ⟨apart_nil, by simp⟩

theorem placed_cons (block : TryBlock ε) (rest : List (TryBlock ε)) :
    Placed (block :: rest) ↔ block.span.first < block.span.limit ∧ block.handlers ≠ [] ∧
      (∀ later ∈ rest, block.span.limit ≤ later.span.first) ∧ Placed rest := by
  constructor
  · rintro ⟨apart, handled⟩
    obtain ⟨nonempty, later, tail⟩ := (apart_cons block rest).mp apart
    rw [List.forall_mem_cons] at handled
    exact ⟨nonempty, handled.1, later, tail, handled.2⟩
  · rintro ⟨nonempty, handled, later, tail⟩
    exact ⟨(apart_cons block rest).mpr ⟨nonempty, later, tail.toApart⟩,
      List.forall_mem_cons.mpr ⟨handled, tail.handled⟩⟩

theorem Placed.le_first {blocks : List (TryBlock ε)} (placed : Placed blocks) {start : Position}
    (gap : ∀ p, p < start → dispatchIn blocks p = []) :
    ∀ block ∈ blocks, start ≤ block.span.first := by
  intro block member
  by_contra early
  have list := placed.dispatchIn_of_mem member (Span.first_mem (placed.nonempty block member))
  rw [gap _ (by grind)] at list
  exact placed.handled block member list.symm

/-- Placed blocks that give each position its list. -/
structure Realizes (lists : Position → Dispatch ε) (blocks : List (TryBlock ε)) : Prop where
  placed : Placed blocks
  dispatch : dispatchIn blocks = lists

/-- The form of a finished table: no two blocks can be merged. -/
structure Canonical (blocks : List (TryBlock ε)) : Prop extends Placed blocks where
  coalesced : blocks.IsChain fun block next => ¬ block.Joins next

theorem Canonical.tail {block : TryBlock ε} {rest : List (TryBlock ε)}
    (canonical : Canonical (block :: rest)) : Canonical rest :=
  ⟨((placed_cons block rest).mp canonical.toPlaced).2.2.2,
    (List.isChain_cons.mp canonical.coalesced).2⟩

/-- Where a block ends, its list ends: what follows is a gap or a block with another list. -/
theorem Canonical.dispatchIn_limit {block : TryBlock ε} {rest : List (TryBlock ε)}
    (canonical : Canonical (block :: rest)) :
    dispatchIn (block :: rest) block.span.limit ≠ block.handlers := by
  obtain ⟨-, handled, later, -⟩ := (placed_cons block rest).mp canonical.toPlaced
  have outside : block.span.limit ∉ block.span := by grind
  rw [dispatchIn_cons_outside block rest outside]
  cases rest with
  | nil => exact handled.symm
  | cons next others =>
      have touching := later next List.mem_cons_self
      have differ := (List.isChain_cons_cons.mp canonical.coalesced).1
      by_cases meet : block.span.limit = next.span.first
      · rw [meet, canonical.tail.dispatchIn_first]
        exact fun equal => differ ⟨meet, equal.symm⟩
      · rw [canonical.tail.dispatchIn_before (by grind)]
        exact handled.symm

private theorem Canonical.first_le {block other : TryBlock ε} {rest others : List (TryBlock ε)}
    (one : Canonical (block :: rest)) (two : Canonical (other :: others))
    (same : ∀ p, dispatchIn (block :: rest) p = dispatchIn (other :: others) p) :
    other.span.first ≤ block.span.first := by
  by_contra early
  have list := same block.span.first
  rw [one.dispatchIn_first, two.dispatchIn_before (by grind)] at list
  exact one.handled block List.mem_cons_self list

private theorem Canonical.limit_le {block other : TryBlock ε} {rest others : List (TryBlock ε)}
    (one : Canonical (block :: rest)) (equal : block.handlers = other.handlers)
    (meet : block.span.first = other.span.first)
    (same : ∀ p, dispatchIn (block :: rest) p = dispatchIn (other :: others) p) :
    other.span.limit ≤ block.span.limit := by
  by_contra longer
  have nonempty := one.nonempty block List.mem_cons_self
  have inside : block.span.limit ∈ other.span := ⟨by grind, by grind⟩
  have list := same block.span.limit
  rw [dispatchIn_cons_inside other others inside, ← equal] at list
  exact one.dispatchIn_limit list

/-- The blocks of a finished table are determined by the dispatch list of each position. -/
theorem Canonical.eq_of_dispatchIn_eq {blocks others : List (TryBlock ε)}
    (one : Canonical blocks) (two : Canonical others)
    (same : ∀ p, dispatchIn blocks p = dispatchIn others p) : blocks = others := by
  induction blocks generalizing others with
  | nil =>
      cases others with
      | nil => rfl
      | cons other others =>
          have list := same other.span.first
          rw [two.dispatchIn_first] at list
          exact absurd list.symm (two.handled other List.mem_cons_self)
  | cons block rest ih =>
      cases others with
      | nil =>
          have list := same block.span.first
          rw [one.dispatchIn_first] at list
          exact absurd list (one.handled block List.mem_cons_self)
      | cons other others =>
          have back : ∀ p, dispatchIn (other :: others) p = dispatchIn (block :: rest) p :=
            fun p => (same p).symm
          have begin : block.span.first = other.span.first := by
            have := one.first_le two same
            have := two.first_le one back
            grind
          have equal : block.handlers = other.handlers := by
            rw [← one.dispatchIn_first, ← two.dispatchIn_first, ← begin, same]
          have limit : block.span.limit = other.span.limit := by
            have := one.limit_le equal begin same
            have := two.limit_le equal.symm begin.symm back
            grind
          have head : block = other := by
            obtain ⟨⟨_, _⟩, _⟩ := block
            obtain ⟨⟨_, _⟩, _⟩ := other
            simp_all
          subst head
          congr 1
          refine ih one.tail two.tail fun p => ?_
          rw [one.dispatchIn_tail, two.dispatchIn_tail, same]

/-- The finished table of a map from positions to dispatch lists. -/
structure Finished (lists : Position → Dispatch ε) (blocks : List (TryBlock ε)) : Prop
    extends Canonical blocks where
  dispatch : dispatchIn blocks = lists

theorem Finished.unique {lists : Position → Dispatch ε} {blocks others : List (TryBlock ε)}
    (one : Finished lists blocks) (two : Finished lists others) : blocks = others :=
  one.eq_of_dispatchIn_eq two.toCanonical fun p => by rw [one.dispatch, two.dispatch]

/-- A change of the dispatch list needs a block that begins or ends there. -/
theorem exists_boundary_of_change {blocks : List (TryBlock ε)} {p : Position} (positive : 0 < p)
    (change : dispatchIn blocks (p - 1) ≠ dispatchIn blocks p) :
    ∃ block ∈ blocks, p = block.span.first ∨ p = block.span.limit := by
  induction blocks with
  | nil => exact absurd rfl change
  | cons block rest ih =>
      by_cases boundary : p = block.span.first ∨ p = block.span.limit
      · exact ⟨block, List.mem_cons_self, boundary⟩
      · have sides : p - 1 ∈ block.span ↔ p ∈ block.span := by grind
        simp only [dispatchIn_cons, sides] at change
        split at change
        · exact absurd rfl change
        · obtain ⟨found, member, boundary⟩ := ih change
          exact ⟨found, List.mem_cons_of_mem _ member, boundary⟩

/-- In a finished table the dispatch list changes wherever a block begins or ends. -/
theorem Canonical.change_of_boundary {blocks : List (TryBlock ε)} (canonical : Canonical blocks)
    {block : TryBlock ε} (member : block ∈ blocks) {p : Position} (positive : 0 < p)
    (boundary : p = block.span.first ∨ p = block.span.limit) :
    dispatchIn blocks (p - 1) ≠ dispatchIn blocks p := by
  induction blocks with
  | nil => cases member
  | cons head rest ih =>
      obtain ⟨nonempty, handled, later, -⟩ := (placed_cons head rest).mp canonical.toPlaced
      by_cases ends : p = head.span.limit
      · -- The end of the first block, whether or not the next one begins there.
        rw [ends, dispatchIn_cons_inside head rest (Span.last_mem nonempty)]
        exact canonical.dispatchIn_limit.symm
      · rcases List.mem_cons.mp member with rfl | member
        · rcases boundary with begins | limit
          · rw [begins, canonical.dispatchIn_first, canonical.dispatchIn_before (by grind)]
            exact handled.symm
          · exact absurd limit ends
        · have after := later block member
          have inner := canonical.tail.nonempty block member
          have past : head.span.limit ≤ p - 1 := by grind
          have before := canonical.dispatchIn_tail (p - 1)
          have here := canonical.dispatchIn_tail p
          rw [if_pos past] at before
          rw [if_pos (by grind)] at here
          rw [← before, ← here]
          exact ih canonical.tail member

end DisjointTraps
