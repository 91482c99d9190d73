import DisjointTraps.Proofs.Dispatch

set_option autoImplicit false

namespace DisjointTraps

namespace InstMap

variable {α : Type}

theorem size_eq_length_toList (map : InstMap α) : map.size = map.toList.length :=
  Array.length_toList.symm

theorem modifyFrom?_eq_none (map : InstMap α) (p : Position) (change : α → α) (n : Nat)
    (positive : 0 < n) (past : map.size < p.toNat + n) (small : p.toNat + n < UInt32.size) :
    map.modifyFrom? p change n = none := by
  induction n generalizing map p with
  | zero => omega
  | succ n ih =>
      -- As long as the entries lie inside, the last one is still to come.
      by_cases inside : p.toNat < map.size
      · obtain ⟨one, first, size, -⟩ := map.modify?_eq p change inside
        have next := toNat_succ (by omega : p.toNat + 1 < UInt32.size)
        rw [modifyFrom?, first, Option.bind_some]
        exact ih one (p + 1) (by omega) (by omega) (by omega)
      · have refused : map.modify? p change = none := if_neg inside
        rw [modifyFrom?, refused, Option.bind_none]

theorem modifySpan?_eq_none_iff (map : InstMap α) (span : Span) (change : α → α)
    (small : map.size < UInt32.size) :
    map.modifySpan? span change = none ↔
      span.first < span.limit ∧ map.size < span.limit.toNat := by
  constructor
  · intro refused
    by_contra fits
    obtain ⟨changed, done, -⟩ := map.modifySpan?_eq span change
      (fun order => Nat.not_lt.mp fun past => fits ⟨order, past⟩) small
    rw [refused] at done
    cases done
  · rintro ⟨order, past⟩
    have bound := span.limit.toNat_lt_size
    have reach : span.first.toNat + span.length = span.limit.toNat := by
      rw [UInt32.lt_iff_toNat_lt] at order
      simp only [Span.length]
      omega
    rw [UInt32.lt_iff_toNat_lt] at order
    exact map.modifyFrom?_eq_none span.first change span.length (by omega) (by omega) (by omega)

end InstMap

variable {ε : Type} [DecidableEq ε]

/-- One trap that covers an instruction past the end is enough, wherever it is declared. -/
theorem foldlM_modifySpan?_eq_none {size : Nat} (small : size < UInt32.size)
    {traps : List (Trap ε)}
    (past : ∃ trap ∈ traps, trap.span.first < trap.span.limit ∧ size < trap.span.limit.toNat)
    (lists : InstMap (Dispatch ε)) (full : lists.size = size) :
    traps.foldlM
      (fun lists trap => lists.modifySpan? trap.span (Dispatch.add · trap.handler)) lists =
        none := by
  induction traps generalizing lists with
  | nil =>
      obtain ⟨trap, member, -⟩ := past
      exact absurd member List.not_mem_nil
  | cons trap rest ih =>
      rw [List.foldlM_cons]
      by_cases here : trap.span.first < trap.span.limit ∧ size < trap.span.limit.toNat
      · have refused := (lists.modifySpan?_eq_none_iff trap.span (Dispatch.add · trap.handler)
          (by omega)).mpr (full ▸ here)
        rw [refused]
        rfl
      · obtain ⟨changed, first, sizes, -⟩ := lists.modifySpan?_eq trap.span
          (Dispatch.add · trap.handler)
          (fun order => full ▸ Nat.not_lt.mp fun past => here ⟨order, past⟩) (by omega)
        obtain ⟨other, member, reaches⟩ := past
        have later : other ∈ rest := by
          rcases List.mem_cons.mp member with rfl | later
          · exact absurd reaches here
          · exact later
        rw [first]
        exact ih ⟨other, later, reaches⟩ changed (sizes.trans full)

/-- The lists of a whole body. There is no result exactly if some trap that covers an instruction
reaches past the end; traps that cover none may lie anywhere. Otherwise there is one list for each
instruction, and it is the one that the instruction has when it is looked at on its own. -/
theorem dispatchAll_eq_dispatchAt (count : Position) (traps : List (Trap ε)) :
    (dispatchAll count traps = none ↔
      ∃ trap ∈ traps, trap.span.first < trap.span.limit ∧ count < trap.span.limit) ∧
    ∀ lists, dispatchAll count traps = some lists →
      lists.size = count.toNat ∧ ∀ p < count, lists.get? p = some (dispatchAt traps p) := by
  by_cases past : ∃ trap ∈ traps, trap.span.first < trap.span.limit ∧ count < trap.span.limit
  · have refused : dispatchAll count traps = none := by
      apply foldlM_modifySpan?_eq_none count.toNat_lt_size
      · simpa only [UInt32.lt_iff_toNat_lt] using past
      · exact Array.size_replicate
    refine ⟨iff_of_true refused past, fun lists computed => ?_⟩
    rw [refused] at computed
    cases computed
  · have inside : ∀ trap ∈ traps, trap.span.first < trap.span.limit → trap.span.limit ≤ count :=
      fun trap member order => UInt32.not_lt.mp fun reaches => past ⟨trap, member, order, reaches⟩
    obtain ⟨lists, computed, listed⟩ := dispatchAll_eq inside
    rw [computed]
    refine ⟨iff_of_false (Option.some_ne_none lists) past, ?_⟩
    intro other same
    obtain rfl := Option.some.inj same
    constructor
    · rw [InstMap.size_eq_length_toList, listed, upFrom_eq_map, List.length_map, List.length_map,
        List.length_range]
    · intro p within
      exact InstMap.get?_of_toList listed (UInt32.lt_iff_toNat_lt.mp within)

/-- Traps that overlap, one that is empty and one that is the wrong way round past the end; with a
further trap that covers the instruction after the last one there is no result. -/
theorem dispatchAll_eq_dispatchAt_reversed :
    ∃ (traps : List (Trap Nat)) (lists : InstMap (Dispatch Nat)),
      traps.map (·.span) = [⟨1, 4⟩, ⟨9, 7⟩, ⟨0, 3⟩, ⟨8, 8⟩] ∧ dispatchAll 4 traps = some lists ∧
      lists.size = 4 ∧ lists.get? 2 = some [⟨0, 3⟩, ⟨1, 9⟩] ∧
      dispatchAll 4 (traps ++ [⟨⟨4, 5⟩, ⟨2, 0⟩⟩]) = none := by
  let traps : List (Trap Nat) :=
    [⟨⟨1, 4⟩, ⟨0, 3⟩⟩, ⟨⟨9, 7⟩, ⟨2, 0⟩⟩, ⟨⟨0, 3⟩, ⟨1, 9⟩⟩, ⟨⟨8, 8⟩, ⟨3, 0⟩⟩]
  obtain ⟨fails, result⟩ := dispatchAll_eq_dispatchAt 4 traps
  have computed : (dispatchAll 4 traps).isSome = true := by
    rw [Option.isSome_iff_ne_none, Ne, fails]
    decide
  obtain ⟨lists, done⟩ := Option.isSome_iff_exists.mp computed
  obtain ⟨size, entries⟩ := result lists done
  have none := (dispatchAll_eq_dispatchAt 4 (traps ++ [⟨⟨4, 5⟩, ⟨2, 0⟩⟩])).1.mpr (by decide)
  exact ⟨traps, lists, rfl, done, size, entries 2 (by decide), none⟩

end DisjointTraps
