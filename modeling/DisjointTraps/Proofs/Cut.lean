import DisjointTraps.Proofs.Blocks

set_option autoImplicit false

namespace DisjointTraps

variable {ε : Type} {lists : Position → Dispatch ε}

/-- The blocks between neighbouring cuts, each with the list of its first position, and gaps where
that list is empty. -/
def cutAt (lists : Position → Dispatch ε) : List Position → List (TryBlock ε)
  | first :: limit :: rest =>
      if (lists first).isEmpty then cutAt lists (limit :: rest)
      else ⟨⟨first, limit⟩, lists first⟩ :: cutAt lists (limit :: rest)
  | _ => []

/-- From a cut to the next one, the list stays the same. -/
def Steady (lists : Position → Dispatch ε) (first limit : Position) : Prop :=
  first < limit ∧ ∀ p, first ≤ p → p < limit → lists p = lists first

theorem cutAt_gap {first : Position} (limit : Position) (rest : List Position)
    (gap : lists first = []) :
    cutAt lists (first :: limit :: rest) = cutAt lists (limit :: rest) := by
  rw [cutAt, gap, List.isEmpty_nil, if_pos rfl]

theorem cutAt_block {first : Position} (limit : Position) (rest : List Position)
    (covered : lists first ≠ []) :
    cutAt lists (first :: limit :: rest) =
      ⟨⟨first, limit⟩, lists first⟩ :: cutAt lists (limit :: rest) := by
  rw [cutAt, if_neg (by simpa using covered)]

theorem le_first_of_mem_cutAt {first : Position} {rest : List Position}
    (steady : (first :: rest).IsChain (Steady lists)) :
    ∀ block ∈ cutAt lists (first :: rest), first ≤ block.span.first := by
  induction rest generalizing first with
  | nil => simp [cutAt]
  | cons limit rest ih =>
      obtain ⟨⟨less, -⟩, later⟩ := List.isChain_cons_cons.mp steady
      have above : ∀ block ∈ cutAt lists (limit :: rest), first ≤ block.span.first :=
        fun block member => by
          have := ih later block member
          grind
      by_cases gap : lists first = []
      · rw [cutAt_gap limit rest gap]
        exact above
      · rw [cutAt_block limit rest gap, List.forall_mem_cons]
        exact ⟨UInt32.le_refl first, above⟩

/-- A block with another list that ends at the first cut cannot be merged with what follows. -/
theorem not_joins_cutAt {first limit : Position} {rest : List Position} {block : TryBlock ε}
    (steady : (first :: limit :: rest).IsChain (Steady lists)) (ends : block.span.limit = first)
    (differ : block.handlers ≠ lists first) :
    ∀ next ∈ (cutAt lists (first :: limit :: rest)).head?, ¬ block.Joins next := by
  obtain ⟨⟨less, -⟩, later⟩ := List.isChain_cons_cons.mp steady
  intro next head joins
  by_cases gap : lists first = []
  · rw [cutAt_gap limit rest gap] at head
    have above := le_first_of_mem_cutAt later next (List.mem_of_mem_head? head)
    have touch := joins.1
    grind
  · rw [cutAt_block limit rest gap, List.head?_cons, Option.mem_some_iff] at head
    subst head
    exact differ joins.2

theorem cutAt_placed {cuts : List Position} (steady : cuts.IsChain (Steady lists)) :
    Placed (cutAt lists cuts) := by
  induction cuts with
  | nil => exact placed_nil
  | cons first rest ih =>
      cases rest with
      | nil => exact placed_nil
      | cons limit rest =>
          obtain ⟨⟨less, -⟩, later⟩ := List.isChain_cons_cons.mp steady
          by_cases gap : lists first = []
          · rw [cutAt_gap limit rest gap]
            exact ih later
          · rw [cutAt_block limit rest gap, placed_cons]
            exact ⟨less, gap, le_first_of_mem_cutAt later, ih later⟩

/-- From the first cut on, the blocks give back the map, if no position from the last cut on is
covered. -/
theorem dispatchIn_cutAt {first : Position} {rest : List Position}
    (steady : (first :: rest).IsChain (Steady lists))
    (ends : ∀ p, (∀ cut ∈ first :: rest, cut ≤ p) → lists p = []) {p : Position}
    (begun : first ≤ p) : dispatchIn (cutAt lists (first :: rest)) p = lists p := by
  induction rest generalizing first with
  | nil =>
      rw [ends p fun cut member => by rwa [List.mem_singleton.mp member]]
      rfl
  | cons limit rest ih =>
      obtain ⟨⟨less, same⟩, later⟩ := List.isChain_cons_cons.mp steady
      have tail : limit ≤ p → dispatchIn (cutAt lists (limit :: rest)) p = lists p := by
        intro reached
        refine ih later (fun q above => ends q ?_) reached
        rw [List.forall_mem_cons]
        have := above limit List.mem_cons_self
        exact ⟨by grind, above⟩
      by_cases reached : limit ≤ p
      · by_cases gap : lists first = []
        · rw [cutAt_gap limit rest gap, tail reached]
        · rw [cutAt_block limit rest gap, dispatchIn_cons_outside, tail reached]
          grind
      · have here := same p begun (by grind)
        by_cases gap : lists first = []
        · rw [cutAt_gap limit rest gap, here, gap]
          apply dispatchIn_eq_nil
          intro block member inside
          have := le_first_of_mem_cutAt later block member
          grind
        · rw [cutAt_block limit rest gap, dispatchIn_cons_inside, here]
          exact ⟨begun, by grind⟩

theorem Steady.chain_lt {cuts : List Position} (steady : cuts.IsChain (Steady lists)) :
    cuts.Pairwise (· < ·) := by
  induction cuts with
  | nil => exact .nil
  | cons first rest ih =>
      have later := ih (List.isChain_cons.mp steady).2
      refine List.pairwise_cons.mpr ⟨fun cut member => ?_, later⟩
      cases rest with
      | nil => cases member
      | cons limit rest =>
          have less := (List.isChain_cons_cons.mp steady).1.1
          rcases List.mem_cons.mp member with rfl | member
          · exact less
          · have := (List.pairwise_cons.mp later).1 cut member
            grind

/-- Cuts at all changes of a map give blocks of that map, if nothing is covered before the first
cut and from the last one on. -/
theorem cutAt_realizes {cuts : List Position} (steady : cuts.IsChain (Steady lists))
    (before : ∀ p, (∀ cut ∈ cuts, p < cut) → lists p = [])
    (after : ∀ p, (∀ cut ∈ cuts, cut ≤ p) → lists p = []) :
    Realizes lists (cutAt lists cuts) := by
  refine ⟨cutAt_placed steady, ?_⟩
  funext p
  cases cuts with
  | nil => exact (before p fun cut member => absurd member List.not_mem_nil).symm
  | cons first rest =>
      by_cases begun : first ≤ p
      · exact dispatchIn_cutAt steady after begun
      · have later := (List.pairwise_cons.mp (Steady.chain_lt steady)).1
        rw [before p, dispatchIn_eq_nil]
        · intro block member inside
          have := le_first_of_mem_cutAt steady block member
          grind
        · intro cut member
          rcases List.mem_cons.mp member with rfl | member
          · grind
          · have := later cut member
            grind

end DisjointTraps
