import DisjointTraps.Trap
import Mathlib.Data.List.Basic

set_option autoImplicit false

namespace DisjointTraps

variable {ε : Type}

theorem mem_declared (traps : List (Trap ε)) (d : Declared ε) :
    d ∈ declared traps ↔ traps[d.index]? = some d.trap := by
  rw [declared, List.mem_map, ← List.mk_mem_zipIdx_iff_getElem?]
  constructor
  · rintro ⟨⟨trap, index⟩, member, rfl⟩
    exact member
  · intro member
    exact ⟨(d.trap, d.index), member, rfl⟩

theorem declared_map_trap (traps : List (Trap ε)) : (declared traps).map (·.trap) = traps := by
  rw [declared, List.map_map]
  exact List.zipIdx_map_fst 0 traps

theorem trap_mem_of_mem_declared {traps : List (Trap ε)} {d : Declared ε}
    (member : d ∈ declared traps) : d.trap ∈ traps :=
  List.mem_of_getElem? ((mem_declared traps d).mp member)

theorem declared_sorted (traps : List (Trap ε)) :
    (declared traps).Pairwise fun d e => d.index < e.index := by
  rw [declared, List.pairwise_map]
  have indices : (traps.zipIdx.map (·.2)).Pairwise (· < ·) := by
    rw [List.zipIdx_map_snd]
    exact List.pairwise_lt_range'
  exact List.pairwise_map.mp indices

theorem eq_of_index_eq {traps : List (Trap ε)} {d e : Declared ε} (one : d ∈ declared traps)
    (other : e ∈ declared traps) (same : d.index = e.index) : d = e := by
  rw [mem_declared] at one other
  rw [same, other] at one
  cases d
  cases e
  simp_all

theorem Trap.not_wellFormed_iff (count : Position) (trap : Trap ε) :
    ¬ trap.WellFormed count ↔
      trap.span.limit ≤ trap.span.first ∨ count < trap.span.limit ∨
        count ≤ trap.handler.target := by
  simp only [Trap.WellFormed, Decidable.not_and_iff_not_or_not, UInt32.not_lt, UInt32.not_le]

theorem mem_malformed {count : Position} {traps : List (Trap ε)} {d : Declared ε} :
    d ∈ malformed count traps ↔ traps[d.index]? = some d.trap ∧ ¬ d.trap.WellFormed count := by
  rw [malformed, List.mem_filter, mem_declared, decide_eq_true_eq]

theorem malformed_sorted (count : Position) (traps : List (Trap ε)) :
    (malformed count traps).Pairwise fun d e => d.index < e.index :=
  (declared_sorted traps).sublist List.filter_sublist

theorem malformed_eq_nil_iff (count : Position) (traps : List (Trap ε)) :
    malformed count traps = [] ↔ ∀ trap ∈ traps, trap.WellFormed count := by
  simp only [malformed, List.filter_eq_nil_iff, decide_eq_true_eq, not_not]
  conv_rhs => rw [← declared_map_trap traps, List.forall_mem_map]

theorem not_fits_of_head? {count : Position} {traps : List (Trap ε)} {d : Declared ε}
    (first : (malformed count traps).head? = some d) :
    ¬ ∀ trap ∈ traps, trap.WellFormed count := by
  intro fits
  rw [(malformed_eq_nil_iff count traps).mpr fits] at first
  cases first

theorem head?_eq_some_iff_of_sorted {α : Type} {key : α → Nat} {items : List α}
    (sorted : items.Pairwise fun a b => key a < key b) (a : α) :
    items.head? = some a ↔ a ∈ items ∧ ∀ b ∈ items, key a ≤ key b := by
  cases items with
  | nil => exact iff_of_false (by intro none; cases none) (fun found => List.not_mem_nil found.1)
  | cons first rest =>
      have above := (List.pairwise_cons.mp sorted).1
      rw [List.head?_cons, Option.some_inj]
      constructor
      · rintro rfl
        refine ⟨List.mem_cons_self, List.forall_mem_cons.mpr ⟨Nat.le_refl _, ?_⟩⟩
        exact fun b member => Nat.le_of_lt (above b member)
      · rintro ⟨member, lowest⟩
        rcases List.mem_cons.mp member with same | later
        · exact same.symm
        · exact absurd (above a later) (Nat.not_lt.mpr (lowest first List.mem_cons_self))

/-- The first malformed trap is the one with the lowest index. -/
theorem head?_malformed_eq_some_iff (count : Position) (traps : List (Trap ε)) (d : Declared ε) :
    (malformed count traps).head? = some d ↔
      traps[d.index]? = some d.trap ∧ ¬ d.trap.WellFormed count ∧
        ∀ i < d.index, ∀ trap, traps[i]? = some trap → trap.WellFormed count := by
  rw [head?_eq_some_iff_of_sorted (malformed_sorted count traps), mem_malformed, and_assoc]
  refine and_congr_right fun _ => and_congr_right fun _ => ⟨?_, ?_⟩
  · intro lowest i below trap here
    by_contra wrong
    have reached := lowest ⟨i, trap⟩ (mem_malformed.mpr ⟨here, wrong⟩)
    exact absurd below (Nat.not_lt.mpr reached)
  · intro fits e member
    obtain ⟨here, wrong⟩ := mem_malformed.mp member
    by_contra below
    exact wrong (fits e.index (Nat.not_le.mp below) e.trap here)

end DisjointTraps
