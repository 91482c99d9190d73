import DisjointTraps.Proofs.Dispatch
import DisjointTraps.Proofs.Trap
import Mathlib.Data.List.Induction

set_option autoImplicit false

namespace DisjointTraps

variable {ε : Type}

/-- The trap covers the instruction `p` and catches `exception` there. -/
def Trap.Catches (trap : Trap ε) (exception : ε) (p : Position) : Prop :=
  p ∈ trap.span ∧ trap.handler.exception = exception

/-- Of the declared traps that catch `exception` at `p`, the one with the lowest index. -/
structure Decides (traps : List (Trap ε)) (p : Position) (exception : ε) (d : Declared ε) :
    Prop where
  listed : d ∈ declared traps
  catches : d.trap.Catches exception p
  lowest : ∀ e ∈ declared traps, e.trap.Catches exception p → d.index ≤ e.index

section Declaration

variable {traps : List (Trap ε)} {p : Position} {exception : ε} {d : Declared ε}

theorem declared_concat (traps : List (Trap ε)) (trap : Trap ε) :
    declared (traps ++ [trap]) = declared traps ++ [⟨traps.length, trap⟩] := by
  simp only [declared, List.zipIdx_append, List.map_append, List.zipIdx_singleton, List.map_cons,
    List.map_nil, Nat.zero_add]

theorem index_lt_of_mem_declared (listed : d ∈ declared traps) : d.index < traps.length := by
  have found := (mem_declared traps d).mp listed
  exact (List.getElem?_eq_some_iff.mp found).1

/-- A further trap decides only what no trap before it catches. -/
theorem decides_concat (trap : Trap ε) :
    Decides (traps ++ [trap]) p exception d ↔
      Decides traps p exception d ∨
        d = ⟨traps.length, trap⟩ ∧ trap.Catches exception p ∧
          ∀ earlier ∈ traps, ¬ earlier.Catches exception p := by
  have entries : ∀ e, e ∈ declared (traps ++ [trap]) ↔
      e ∈ declared traps ∨ e = ⟨traps.length, trap⟩ := by
    intro e
    rw [declared_concat, List.mem_append, List.mem_singleton]
  constructor
  · rintro ⟨listed, catches, lowest⟩
    rcases (entries d).mp listed with old | rfl
    · exact .inl ⟨old, catches, fun e member => lowest e ((entries e).mpr (.inl member))⟩
    · -- All traps before it have lower indices, so none of them catches the type.
      refine .inr ⟨rfl, catches, fun earlier member caught => ?_⟩
      rw [← declared_map_trap traps] at member
      obtain ⟨e, old, rfl⟩ := List.mem_map.mp member
      have above := lowest e ((entries e).mpr (.inl old)) caught
      have below := index_lt_of_mem_declared old
      exact absurd below (Nat.not_lt.mpr above)
  · rintro (⟨listed, catches, lowest⟩ | ⟨rfl, catches, free⟩)
    · refine ⟨(entries d).mpr (.inl listed), catches, fun e member caught => ?_⟩
      rcases (entries e).mp member with old | rfl
      · exact lowest e old caught
      · exact Nat.le_of_lt (index_lt_of_mem_declared listed)
    · refine ⟨(entries _).mpr (.inr rfl), catches, fun e member caught => ?_⟩
      rcases (entries e).mp member with old | rfl
      · exact absurd caught (free e.trap (trap_mem_of_mem_declared old))
      · exact Nat.le_refl _

end Declaration

variable [DecidableEq ε]

theorem dispatchAt_append (before after : List (Trap ε)) (p : Position) :
    dispatchAt (before ++ after) p =
      ((after.filter fun trap => p ∈ trap.span).map (·.handler)).foldl Dispatch.add
        (dispatchAt before p) := by
  rw [dispatchAt, List.filter_append, List.map_append, firstMatch, List.foldl_append]
  rfl

theorem dispatchAt_concat (traps : List (Trap ε)) (trap : Trap ε) (p : Position) :
    dispatchAt (traps ++ [trap]) p =
      if p ∈ trap.span then (dispatchAt traps p).add trap.handler else dispatchAt traps p := by
  rw [dispatchAt_append, List.filter_cons]
  by_cases covered : p ∈ trap.span
  · simp only [covered, decide_true, ↓reduceIte, List.filter_nil, List.map_cons, List.map_nil,
      List.foldl_cons, List.foldl_nil]
  · simp only [covered, decide_false, Bool.false_eq_true, ↓reduceIte, List.filter_nil,
      List.map_nil, List.foldl_nil]

theorem Dispatch.exists_entry_add {list : Dispatch ε} {handler : Handler ε} {exception : ε} :
    (∃ entry ∈ list.add handler, entry.exception = exception) ↔
      (∃ entry ∈ list, entry.exception = exception) ∨ handler.exception = exception := by
  rcases list.add_cases handler with ⟨⟨other, member, same⟩, kept⟩ | ⟨-, grown⟩
  · rw [kept]
    refine ⟨.inl, fun either => either.elim id fun equal => ?_⟩
    exact ⟨other, member, same.trans equal⟩
  · simp only [grown, List.mem_append, List.mem_singleton, or_and_right, exists_or,
      exists_eq_left]

/-- A dispatch list has an entry for exactly those types that some trap catches. -/
theorem exists_entry_iff (traps : List (Trap ε)) (p : Position) (exception : ε) :
    (∃ entry ∈ dispatchAt traps p, entry.exception = exception) ↔
      ∃ trap ∈ traps, trap.Catches exception p := by
  induction traps using List.reverseRecOn with
  | nil =>
      apply iff_of_false
      · rintro ⟨entry, member, -⟩
        exact absurd member List.not_mem_nil
      · rintro ⟨trap, member, -⟩
        exact absurd member List.not_mem_nil
  | append_singleton traps trap ih =>
      simp only [List.mem_append, List.mem_singleton, or_and_right, exists_or, exists_eq_left]
      rw [dispatchAt_concat, ← ih]
      by_cases covered : p ∈ trap.span
      · simp only [covered, ↓reduceIte, Dispatch.exists_entry_add, Trap.Catches, true_and]
      · simp only [covered, ↓reduceIte, Trap.Catches, false_and, or_false]

theorem no_entry_iff (traps : List (Trap ε)) (p : Position) (exception : ε) :
    (∀ entry ∈ dispatchAt traps p, entry.exception ≠ exception) ↔
      ∀ trap ∈ traps, ¬ trap.Catches exception p := by
  have caught := not_congr (exists_entry_iff traps p exception)
  push Not at caught
  exact caught

/-- Each entry of a dispatch list comes from the trap that decides about its type. -/
theorem mem_dispatchAt_iff (traps : List (Trap ε)) (p : Position) (entry : Handler ε) :
    entry ∈ dispatchAt traps p ↔
      ∃ d, Decides traps p entry.exception d ∧ d.trap.handler = entry := by
  induction traps using List.reverseRecOn with
  | nil =>
      apply iff_of_false List.not_mem_nil
      rintro ⟨d, decides, -⟩
      exact absurd decides.listed List.not_mem_nil
  | append_singleton traps trap ih =>
      simp only [decides_concat, or_and_right, exists_or, ← ih]
      rw [dispatchAt_concat]
      by_cases covered : p ∈ trap.span
      · rw [if_pos covered, Dispatch.mem_add, no_entry_iff]
        apply or_congr_right
        constructor
        · rintro ⟨rfl, free⟩
          exact ⟨⟨traps.length, trap⟩, ⟨rfl, ⟨covered, rfl⟩, free⟩, rfl⟩
        · rintro ⟨d, ⟨rfl, -, free⟩, rfl⟩
          exact ⟨rfl, free⟩
      · rw [if_neg covered, or_iff_left]
        rintro ⟨d, ⟨-, caught, -⟩, -⟩
        exact covered caught.1

theorem exists_trap_of_mem_dispatchAt {traps : List (Trap ε)} {p : Position} {handler : Handler ε}
    (listed : handler ∈ dispatchAt traps p) :
    ∃ trap ∈ traps, p ∈ trap.span ∧ trap.handler = handler := by
  obtain ⟨d, decides, same⟩ := (mem_dispatchAt_iff traps p handler).mp listed
  exact ⟨d.trap, trap_mem_of_mem_declared decides.listed, decides.catches.1, same⟩

/-- A type that has been caught is decided by the same trap after one more trap. -/
theorem Decides.of_concat {traps : List (Trap ε)} {trap : Trap ε} {p : Position}
    {entry : Handler ε} (member : entry ∈ dispatchAt traps p) {d : Declared ε}
    (decides : Decides (traps ++ [trap]) p entry.exception d) :
    Decides traps p entry.exception d := by
  rcases (decides_concat trap).mp decides with old | ⟨-, -, free⟩
  · exact old
  · exact absurd rfl ((no_entry_iff traps p entry.exception).mpr free entry member)

/-- The entries stand in the order in which the traps that decide are declared. -/
theorem dispatchAt_ordered (traps : List (Trap ε)) (p : Position) :
    (dispatchAt traps p).Pairwise fun one other => ∀ d e,
      Decides traps p one.exception d → Decides traps p other.exception e → d.index < e.index := by
  induction traps using List.reverseRecOn with
  | nil => exact .nil
  | append_singleton traps trap ih =>
      -- The traps that decide about the entries so far stay the same.
      have old : (dispatchAt traps p).Pairwise fun one other => ∀ d e,
          Decides (traps ++ [trap]) p one.exception d →
          Decides (traps ++ [trap]) p other.exception e → d.index < e.index :=
        ih.imp_of_mem fun first second order d e one other =>
          order d e (one.of_concat first) (other.of_concat second)
      rw [dispatchAt_concat]
      by_cases covered : p ∈ trap.span
      · rw [if_pos covered]
        rcases (dispatchAt traps p).add_cases trap.handler with ⟨-, kept⟩ | ⟨free, grown⟩
        · rwa [kept]
        · rw [grown]
          refine List.pairwise_append.mpr ⟨old, List.pairwise_singleton _ _, ?_⟩
          intro one member other single d e first second
          rw [List.mem_singleton.mp single] at second
          have before := index_lt_of_mem_declared (first.of_concat member).listed
          rcases (decides_concat trap).mp second with early | ⟨rfl, -, -⟩
          · have caught := trap_mem_of_mem_declared early.listed
            exact absurd early.catches ((no_entry_iff traps p _).mp free e.trap caught)
          · exact before
      · rwa [if_neg covered]

/-- A trap that never decides can be left out. -/
theorem dispatchAt_without_shadowed {before after : List (Trap ε)} {trap : Trap ε}
    (shadowed : ∀ q ∈ trap.span, ∃ earlier ∈ before, earlier.Catches trap.handler.exception q)
    (p : Position) : dispatchAt (before ++ after) p = dispatchAt (before ++ trap :: after) p := by
  have same : dispatchAt (before ++ [trap]) p = dispatchAt before p := by
    rw [dispatchAt_concat]
    by_cases covered : p ∈ trap.span
    · obtain ⟨other, member, equal⟩ := (exists_entry_iff before p _).mpr (shadowed p covered)
      rw [if_pos covered, Dispatch.add_of_caught member equal]
    · rw [if_neg covered]
  rw [List.append_cons, dispatchAt_append, dispatchAt_append, same]

/-- Two neighbours that no instruction has in common can change places. -/
theorem dispatchAt_swap {before after : List (Trap ε)} {one other : Trap ε}
    (apart : ∀ q, ¬ (q ∈ one.span ∧ q ∈ other.span)) (p : Position) :
    dispatchAt (before ++ other :: one :: after) p =
      dispatchAt (before ++ one :: other :: after) p := by
  have covering : (other :: one :: after).filter (fun trap => p ∈ trap.span) =
      (one :: other :: after).filter fun trap => p ∈ trap.span := by
    simp only [List.filter_cons, decide_eq_true_eq]
    by_cases first : p ∈ one.span
    · have second : p ∉ other.span := fun inside => apart p ⟨first, inside⟩
      simp only [first, second, ↓reduceIte]
    · simp only [first, ↓reduceIte]
  rw [dispatchAt_append, dispatchAt_append, covering]

/-- The first match. At each instruction a dispatch list has no exception type twice, it has an
entry for a type exactly if some trap catches it there, with the target of the lowest such trap,
and the entries are in the order of these traps. So a trap makes no difference if a trap before it
catches its type at each of its instructions, and neither does the order of two neighbouring traps
that have no instruction in common. -/
theorem dispatchAt_first_match (traps : List (Trap ε)) :
    (∀ p,
      (dispatchAt traps p).Distinct ∧
      (∀ exception, (∃ entry ∈ dispatchAt traps p, entry.exception = exception) ↔
        ∃ trap ∈ traps, trap.Catches exception p) ∧
      (∀ exception target, ⟨exception, target⟩ ∈ dispatchAt traps p ↔
        ∃ d, Decides traps p exception d ∧ d.trap.handler.target = target) ∧
      (dispatchAt traps p).Pairwise fun one other => ∀ d e,
        Decides traps p one.exception d → Decides traps p other.exception e →
          d.index < e.index) ∧
    (∀ before trap after, traps = before ++ trap :: after →
      (∀ q ∈ trap.span, ∃ earlier ∈ before, earlier.Catches trap.handler.exception q) →
      ∀ p, dispatchAt (before ++ after) p = dispatchAt traps p) ∧
    (∀ before one other after, traps = before ++ one :: other :: after →
      (∀ q, ¬ (q ∈ one.span ∧ q ∈ other.span)) →
      ∀ p, dispatchAt (before ++ other :: one :: after) p = dispatchAt traps p) := by
  refine ⟨fun p => ⟨dispatchAt_distinct traps p, exists_entry_iff traps p, ?_,
    dispatchAt_ordered traps p⟩, ?_, ?_⟩
  · intro exception target
    rw [mem_dispatchAt_iff]
    apply exists_congr
    intro d
    apply and_congr_right
    intro decides
    constructor
    · intro entry
      rw [entry]
    · rintro rfl
      have same : d.trap.handler.exception = exception := decides.catches.2
      rw [← same]
  · rintro before trap after rfl shadowed
    exact dispatchAt_without_shadowed shadowed
  · rintro before one other after rfl apart
    exact dispatchAt_swap apart

/-- A trap that two others shadow together is left out, and these two change places. -/
theorem dispatchAt_first_match_shadowed :
    ∃ outer early late shadowed inner : Trap Nat,
      shadowed.span = ⟨2, 5⟩ ∧ early.span = ⟨0, 4⟩ ∧ late.span = ⟨4, 6⟩ ∧
      dispatchAt [outer, early, late, shadowed, inner] 3 = [⟨1, 20⟩, ⟨0, 21⟩, ⟨2, 23⟩] ∧
      (∃ d, Decides [outer, early, late, shadowed, inner] 4 0 d ∧ d.trap.handler.target = 24) ∧
      (∀ p, dispatchAt [outer, early, late, inner] p =
        dispatchAt [outer, early, late, shadowed, inner] p) ∧
      ∀ p, dispatchAt [outer, late, early, shadowed, inner] p =
        dispatchAt [outer, early, late, shadowed, inner] p := by
  let outer : Trap Nat := ⟨⟨0, 8⟩, ⟨1, 20⟩⟩
  let early : Trap Nat := ⟨⟨0, 4⟩, ⟨0, 21⟩⟩
  let late : Trap Nat := ⟨⟨4, 6⟩, ⟨0, 24⟩⟩
  let shadowed : Trap Nat := ⟨⟨2, 5⟩, ⟨0, 22⟩⟩
  let inner : Trap Nat := ⟨⟨2, 4⟩, ⟨2, 23⟩⟩
  obtain ⟨lists, without, swapped⟩ :=
    dispatchAt_first_match [outer, early, late, shadowed, inner]
  obtain ⟨-, -, entries, -⟩ := lists 4
  have decided := (entries 0 24).mp (by decide)
  have caught : ∀ q ∈ shadowed.span, ∃ earlier ∈ [outer, early, late],
      earlier.Catches shadowed.handler.exception q := by
    rintro q ⟨begun, before⟩
    by_cases first : q < 4
    · exact ⟨early, by decide, ⟨UInt32.zero_le, first⟩, rfl⟩
    · have second : q < 6 := UInt32.lt_trans before (by decide)
      exact ⟨late, by decide, ⟨UInt32.not_lt.mp first, second⟩, rfl⟩
  have apart : ∀ q, ¬ (q ∈ early.span ∧ q ∈ late.span) := by
    rintro q ⟨⟨-, before⟩, begun, -⟩
    exact absurd before (UInt32.not_lt.mpr begun)
  exact ⟨outer, early, late, shadowed, inner, rfl, rfl, rfl, by decide, decided,
    without [outer, early, late] shadowed [inner] rfl caught,
    swapped [outer] early late [shadowed, inner] rfl apart⟩

end DisjointTraps
