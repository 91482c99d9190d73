import DisjointTraps.Proofs.Cut
import DisjointTraps.Proofs.Dispatch
import DisjointTraps.Proofs.Trap
import DisjointTraps.Split

set_option autoImplicit false

namespace DisjointTraps

variable {ε : Type}

theorem mergeSort_by {α : Type} (key : α → Position) (items : List α) :
    (items.mergeSort fun a b => key a ≤ key b).Pairwise fun a b => key a ≤ key b := by
  have trans : ∀ a b c, decide (key a ≤ key b) → decide (key b ≤ key c) →
      decide (key a ≤ key c) := by
    simp only [decide_eq_true_eq]
    grind
  have total : ∀ a b, (decide (key a ≤ key b) || decide (key b ≤ key a)) = true := by
    simp only [Bool.or_eq_true, decide_eq_true_eq]
    grind
  simpa only [decide_eq_true_eq] using List.pairwise_mergeSort trans total items

theorem mem_withoutRepeats (items : List Position) (p : Position) :
    p ∈ withoutRepeats items ↔ p ∈ items := by
  fun_induction withoutRepeats items with
  | case1 q rest ih => simp only [ih, List.mem_cons, or_self_left]
  | case2 q next rest differ ih => simp only [List.mem_cons, ih]
  | case3 items short => rfl

theorem withoutRepeats_sorted {items : List Position} (sorted : items.Pairwise (· ≤ ·)) :
    (withoutRepeats items).Pairwise (· < ·) := by
  fun_induction withoutRepeats items with
  | case1 q rest ih => exact ih (List.pairwise_cons.mp sorted).2
  | case2 q next rest differ ih =>
      obtain ⟨below, later⟩ := List.pairwise_cons.mp sorted
      refine List.pairwise_cons.mpr ⟨fun p member => ?_, ih later⟩
      rw [mem_withoutRepeats] at member
      have step := below next List.mem_cons_self
      rcases List.mem_cons.mp member with rfl | member
      · grind
      · have := (List.pairwise_cons.mp later).1 p member
        grind
  | case3 items short =>
      match items with
      | [] => exact .nil
      | [p] => exact List.pairwise_singleton _ p
      | p :: q :: rest => exact absurd rfl (short p q rest)

/-- A position where some trap begins or ends. -/
def IsBoundary (traps : List (Trap ε)) (p : Position) : Prop :=
  ∃ trap ∈ traps, p = trap.span.first ∨ p = trap.span.limit

namespace Timeline

theorem mem_boundaries (traps : List (Trap ε)) (p : Position) :
    p ∈ (ofTraps traps).boundaries ↔ IsBoundary traps p := by
  simp only [ofTraps, mem_withoutRepeats, List.mem_mergeSort, List.mem_append, List.mem_map]
  constructor
  · rintro (⟨d, member, rfl⟩ | ⟨d, member, rfl⟩)
    · exact ⟨d.trap, trap_mem_of_mem_declared member, .inl rfl⟩
    · exact ⟨d.trap, trap_mem_of_mem_declared member, .inr rfl⟩
  · rintro ⟨trap, member, boundary⟩
    rw [← declared_map_trap traps, List.mem_map] at member
    obtain ⟨d, present, rfl⟩ := member
    rcases boundary with rfl | rfl
    · exact .inl ⟨d, present, rfl⟩
    · exact .inr ⟨d, present, rfl⟩

theorem boundaries_sorted (traps : List (Trap ε)) :
    (ofTraps traps).boundaries.Pairwise (· < ·) :=
  withoutRepeats_sorted (mergeSort_by id _)

/-- Two boundaries without another one between them. -/
structure Adjacent (traps : List (Trap ε)) (first limit : Position) : Prop where
  less : first < limit
  between : ∀ p, IsBoundary traps p → p < limit → p ≤ first

theorem boundaries_adjacent (traps : List (Trap ε)) :
    (ofTraps traps).boundaries.IsChain (Adjacent traps) := by
  have sorted := List.pairwise_iff_getElem.mp (boundaries_sorted traps)
  refine List.isChain_iff_getElem.mpr fun i inside => ⟨?_, ?_⟩
  · exact sorted i (i + 1) (by omega) inside (by omega)
  · intro p boundary before
    rw [← mem_boundaries] at boundary
    obtain ⟨j, present, rfl⟩ := List.getElem_of_mem boundary
    -- A boundary below the later one of two neighbours stands before it in the list.
    have order : j ≤ i := by
      by_contra later
      rcases Nat.lt_or_eq_of_le (show i + 1 ≤ j by omega) with less | rfl
      · have := sorted (i + 1) j inside present less
        grind
      · grind
    rcases Nat.lt_or_eq_of_le order with less | rfl
    · have := sorted j i present (by omega) less
      grind
    · exact UInt32.le_refl _

variable [DecidableEq ε]

/-- The dispatch list does not change between neighbouring boundaries. -/
theorem Adjacent.steady {traps : List (Trap ε)} {first limit : Position}
    (adjacent : Adjacent traps first limit) : Steady (dispatchAt traps) first limit := by
  refine ⟨adjacent.less, fun p begun before => dispatchAt_congr fun trap member => ?_⟩
  have begins := adjacent.between trap.span.first ⟨trap, member, .inl rfl⟩
  have ends := adjacent.between trap.span.limit ⟨trap, member, .inr rfl⟩
  grind

theorem boundaries_steady (traps : List (Trap ε)) :
    (ofTraps traps).boundaries.IsChain (Steady (dispatchAt traps)) :=
  (boundaries_adjacent traps).imp fun _ _ adjacent => adjacent.steady

theorem cutAt_boundaries_realizes (traps : List (Trap ε)) :
    Realizes (dispatchAt traps) (cutAt (dispatchAt traps) (ofTraps traps).boundaries) := by
  have boundary := mem_boundaries traps
  refine cutAt_realizes (boundaries_steady traps) (fun p below => ?_) fun p above => ?_
  · rw [dispatchAt_eq_nil_iff]
    intro trap member inside
    have := below _ ((boundary _).mpr ⟨trap, member, .inl rfl⟩)
    grind
  · rw [dispatchAt_eq_nil_iff]
    intro trap member inside
    have := above _ ((boundary _).mpr ⟨trap, member, .inr rfl⟩)
    grind

end Timeline

end DisjointTraps
