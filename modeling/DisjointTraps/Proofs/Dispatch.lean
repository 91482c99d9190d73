import DisjointTraps.Trap
import Mathlib.Data.List.Basic

set_option autoImplicit false

namespace DisjointTraps

def upFrom (p : Position) : Nat → List Position
  | 0 => []
  | n + 1 => p :: upFrom (p + 1) n

theorem toNat_succ {p : Position} (small : p.toNat + 1 < UInt32.size) :
    (p + 1).toNat = p.toNat + 1 := by
  rw [UInt32.toNat_add, UInt32.toNat_one]
  exact Nat.mod_eq_of_lt small

theorem toNat_ofNat_of_lt_count {count : Position} {i : Nat} (inside : i < count.toNat) :
    (UInt32.ofNat i).toNat = i :=
  UInt32.toNat_ofNat_of_lt' (Nat.lt_trans inside count.toNat_lt_size)

theorem upFrom_eq_map (p : Position) (n : Nat) :
    upFrom p n = (List.range n).map fun i => p + UInt32.ofNat i := by
  induction n generalizing p with
  | zero => rfl
  | succ n ih =>
      rw [upFrom, ih, List.range_succ_eq_map, List.map_cons, List.map_map]
      congr 1
      · exact (UInt32.add_zero p).symm
      · apply List.map_congr_left
        intro i _
        simp only [Function.comp_apply, Nat.succ_eq_add_one, UInt32.ofNat_add]
        ac_rfl

theorem mem_upFrom_zero (count p : Position) : p ∈ upFrom 0 count.toNat ↔ p < count := by
  rw [upFrom_eq_map, UInt32.lt_iff_toNat_lt]
  simp only [List.mem_map, List.mem_range, UInt32.zero_add]
  constructor
  · rintro ⟨i, inside, rfl⟩
    rwa [toNat_ofNat_of_lt_count inside]
  · intro inside
    exact ⟨p.toNat, inside, UInt32.ofNat_toNat⟩

theorem upFrom_zero_sorted (count : Position) : (upFrom 0 count.toNat).Pairwise (· < ·) := by
  rw [upFrom_eq_map, List.pairwise_map]
  refine List.pairwise_lt_range.imp_of_mem fun {i j} one other less => ?_
  have first := toNat_ofNat_of_lt_count (List.mem_range.mp one)
  have second := toNat_ofNat_of_lt_count (List.mem_range.mp other)
  rwa [UInt32.zero_add, UInt32.zero_add, UInt32.lt_iff_toNat_lt, first, second]

theorem zipIdx_upFrom (p : Position) (n : Nat) (small : p.toNat + n < UInt32.size) :
    (upFrom p n).zipIdx p.toNat = (upFrom p n).map fun q => (q, q.toNat) := by
  induction n generalizing p with
  | zero => rfl
  | succ n ih =>
      have next := toNat_succ (by omega : p.toNat + 1 < UInt32.size)
      have later := ih (p + 1) (by omega)
      rw [next] at later
      rw [upFrom, List.zipIdx_cons, later, List.map_cons]

theorem Span.take_body (count : Position) :
    (Span.mk 0 count).take count.toNat = upFrom 0 count.toNat := by
  simp only [Span.take, Span.length, upFrom_eq_map, UInt32.toNat_zero, Nat.sub_zero, Nat.min_self]

namespace InstMap

variable {α : Type}

theorem modify?_eq (map : InstMap α) (p : Position) (change : α → α)
    (inside : p.toNat < map.size) :
    ∃ changed, map.modify? p change = some changed ∧ changed.size = map.size ∧
      ∀ q, changed.get? q = if q = p then (map.get? q).map change else map.get? q := by
  refine ⟨⟨map.entries.modify p.toNat change⟩, if_pos inside, Array.size_modify, fun q => ?_⟩
  have same : p.toNat = q.toNat ↔ q = p := by rw [UInt32.toNat_inj, eq_comm]
  simp only [get?, Array.getElem?_modify, same]

theorem modifyFrom?_eq (map : InstMap α) (p : Position) (change : α → α) (n : Nat)
    (inside : p.toNat + n ≤ map.size) (small : map.size < UInt32.size) :
    ∃ changed, map.modifyFrom? p change n = some changed ∧ changed.size = map.size ∧
      ∀ q, changed.get? q =
        if p.toNat ≤ q.toNat ∧ q.toNat < p.toNat + n then (map.get? q).map change
        else map.get? q := by
  induction n generalizing map p with
  | zero =>
      refine ⟨map, rfl, rfl, fun q => ?_⟩
      rw [if_neg (by omega)]
  | succ n ih =>
      obtain ⟨one, first, size, here⟩ := map.modify?_eq p change (by omega)
      have next := toNat_succ (by omega : p.toNat + 1 < UInt32.size)
      obtain ⟨changed, rest, sizes, later⟩ := ih one (p + 1) (by omega) (by omega)
      refine ⟨changed, ?_, by omega, fun q => ?_⟩
      · rw [modifyFrom?, first, Option.bind_some, rest]
      · rw [later, here, next]
        by_cases same : q = p
        · subst same
          rw [if_pos rfl, if_neg (by omega), if_pos (by omega)]
        · have differ : q.toNat ≠ p.toNat := fun equal => same (UInt32.toNat_inj.mp equal)
          rw [if_neg same]
          congr 1
          apply propext
          omega

theorem modifySpan?_eq (map : InstMap α) (span : Span) (change : α → α)
    (inside : span.first < span.limit → span.limit.toNat ≤ map.size)
    (small : map.size < UInt32.size) :
    ∃ changed, map.modifySpan? span change = some changed ∧ changed.size = map.size ∧
      ∀ q, changed.get? q = if q ∈ span then (map.get? q).map change else map.get? q := by
  simp only [Span.mem_iff, UInt32.le_iff_toNat_le, UInt32.lt_iff_toNat_lt] at inside ⊢
  by_cases order : span.first.toNat < span.limit.toNat
  · have reach : span.first.toNat + span.length = span.limit.toNat := by
      simp only [Span.length]
      omega
    have bound := inside order
    obtain ⟨changed, done, size, entry⟩ :=
      map.modifyFrom?_eq span.first change span.length (by omega) small
    exact ⟨changed, done, size, fun q => by rw [entry, reach]⟩
  · have none : span.length = 0 := by
      simp only [Span.length]
      omega
    refine ⟨map, by rw [modifySpan?, none, modifyFrom?], rfl, fun q => ?_⟩
    rw [if_neg (by omega)]

theorem get?_of_toList {map : InstMap α} {values : Position → α} {count : Position}
    (entries : map.toList = (upFrom 0 count.toNat).map values) {p : Position}
    (inside : p.toNat < count.toNat) : map.get? p = some (values p) := by
  have entry : map.get? p = map.toList[p.toNat]? := Array.getElem?_toList.symm
  rw [entry, entries, upFrom_eq_map]
  simp only [List.getElem?_map, List.getElem?_range inside, Option.map_some, UInt32.zero_add,
    UInt32.ofNat_toNat]

end InstMap

variable {ε : Type} [DecidableEq ε]

theorem Dispatch.add_of_caught {list : Dispatch ε} {handler other : Handler ε}
    (member : other ∈ list) (same : other.exception = handler.exception) :
    list.add handler = list :=
  if_pos (List.any_eq_true.mpr ⟨other, member, decide_eq_true same⟩)

theorem Dispatch.add_of_free {list : Dispatch ε} {handler : Handler ε}
    (free : ∀ other ∈ list, other.exception ≠ handler.exception) :
    list.add handler = list ++ [handler] := by
  apply if_neg
  simpa only [List.any_eq_true, decide_eq_true_eq, not_exists, not_and] using free

theorem Dispatch.add_cases (list : Dispatch ε) (handler : Handler ε) :
    ((∃ other ∈ list, other.exception = handler.exception) ∧ list.add handler = list) ∨
      (∀ other ∈ list, other.exception ≠ handler.exception) ∧
        list.add handler = list ++ [handler] := by
  by_cases caught : ∃ other ∈ list, other.exception = handler.exception
  · obtain ⟨other, member, same⟩ := caught
    exact .inl ⟨⟨other, member, same⟩, add_of_caught member same⟩
  · have free : ∀ other ∈ list, other.exception ≠ handler.exception :=
      fun other member same => caught ⟨other, member, same⟩
    exact .inr ⟨free, add_of_free free⟩

theorem Dispatch.mem_add {list : Dispatch ε} {handler entry : Handler ε} :
    entry ∈ list.add handler ↔
      entry ∈ list ∨ entry = handler ∧ ∀ other ∈ list, other.exception ≠ handler.exception := by
  rcases list.add_cases handler with ⟨⟨other, member, same⟩, kept⟩ | ⟨free, grown⟩
  · rw [kept, or_iff_left]
    exact fun new => new.2 other member same
  · rw [grown, List.mem_append, List.mem_singleton, and_iff_left free]

theorem Dispatch.add_ne_nil (list : Dispatch ε) (handler : Handler ε) : list.add handler ≠ [] := by
  rcases list.add_cases handler with ⟨⟨other, member, -⟩, kept⟩ | ⟨-, grown⟩
  · rw [kept]
    exact List.ne_nil_of_mem member
  · rw [grown]
    exact List.append_ne_nil_of_right_ne_nil list (List.cons_ne_nil handler [])

theorem firstMatch_eq_nil_iff (handlers : List (Handler ε)) :
    firstMatch handlers = [] ↔ handlers = [] := by
  constructor
  · intro empty
    rcases List.eq_nil_or_concat handlers with rfl | ⟨before, last, rfl⟩
    · rfl
    · rw [firstMatch, List.concat_eq_append, List.foldl_append] at empty
      exact absurd empty (Dispatch.add_ne_nil _ last)
  · rintro rfl
    rfl

/-- A list of handlers catches each exception type at most once. -/
def Dispatch.Distinct (list : Dispatch ε) : Prop := (list.map (·.exception)).Nodup

instance (list : Dispatch ε) : Decidable list.Distinct :=
  inferInstanceAs (Decidable (list.map (·.exception)).Nodup)

theorem Dispatch.Distinct.add {list : Dispatch ε} (distinct : list.Distinct)
    (handler : Handler ε) : (list.add handler).Distinct := by
  rcases list.add_cases handler with ⟨-, kept⟩ | ⟨free, grown⟩
  · rwa [kept]
  · rw [grown, Dispatch.Distinct, List.map_append, List.map_singleton]
    refine List.nodup_append.mpr ⟨distinct, List.pairwise_singleton _ _, ?_⟩
    intro exception member other single
    obtain ⟨entry, listed, rfl⟩ := List.mem_map.mp member
    rw [List.mem_singleton.mp single]
    exact free entry listed

theorem firstMatch_distinct (handlers : List (Handler ε)) : (firstMatch handlers).Distinct := by
  have grows : ∀ list : Dispatch ε, list.Distinct →
      (handlers.foldl Dispatch.add list).Distinct := by
    induction handlers with
    | nil => exact fun list distinct => distinct
    | cons handler rest ih => exact fun list distinct => ih _ (distinct.add handler)
  exact grows [] List.nodup_nil

theorem dispatchAt_distinct (traps : List (Trap ε)) (p : Position) :
    (dispatchAt traps p).Distinct := firstMatch_distinct _

/-- Handlers for types that are not caught before are all kept, in their order. -/
theorem foldl_add_of_distinct {caught handlers : Dispatch ε}
    (distinct : Dispatch.Distinct (caught ++ handlers)) :
    handlers.foldl Dispatch.add caught = caught ++ handlers := by
  induction handlers generalizing caught with
  | nil => rw [List.foldl_nil, List.append_nil]
  | cons handler rest ih =>
      have free : ∀ other ∈ caught, other.exception ≠ handler.exception := by
        intro other member
        rw [Dispatch.Distinct, List.map_append, List.map_cons] at distinct
        exact (List.nodup_append.mp distinct).2.2 other.exception (List.mem_map_of_mem member)
          handler.exception List.mem_cons_self
      rw [List.append_cons] at distinct ⊢
      rw [List.foldl_cons, Dispatch.add_of_free free, ih distinct]

theorem firstMatch_of_distinct {list : Dispatch ε} (distinct : list.Distinct) :
    firstMatch list = list :=
  foldl_add_of_distinct distinct

/-- A dispatch list is empty exactly where no trap covers the instruction. -/
theorem dispatchAt_eq_nil_iff (traps : List (Trap ε)) (p : Position) :
    dispatchAt traps p = [] ↔ ∀ trap ∈ traps, p ∉ trap.span := by
  rw [dispatchAt, firstMatch_eq_nil_iff, List.map_eq_nil_iff, List.filter_eq_nil_iff]
  simp only [decide_eq_true_eq]

theorem dispatchAt_congr {traps : List (Trap ε)} {p q : Position}
    (same : ∀ trap ∈ traps, p ∈ trap.span ↔ q ∈ trap.span) :
    dispatchAt traps p = dispatchAt traps q := by
  unfold dispatchAt
  rw [List.filter_congr fun trap member => decide_eq_decide.mpr (same trap member)]

theorem dispatchAt_past {count : Position} {traps : List (Trap ε)}
    (fits : ∀ trap ∈ traps, trap.WellFormed count) {p : Position} (past : count ≤ p) :
    dispatchAt traps p = [] := by
  rw [dispatchAt_eq_nil_iff]
  intro trap member inside
  have limit := (fits trap member).2.1
  grind

/-- After the traps so far, each entry holds the dispatch list of these. -/
theorem foldlM_modifySpan?_eq (size : Nat) (small : size < UInt32.size) (traps : List (Trap ε))
    (inside : ∀ trap ∈ traps, trap.span.first < trap.span.limit → trap.span.limit.toNat ≤ size)
    (lists : InstMap (Dispatch ε)) (full : lists.size = size) :
    ∃ result, traps.foldlM
        (fun lists trap => lists.modifySpan? trap.span (Dispatch.add · trap.handler)) lists =
          some result ∧ result.size = size ∧
      ∀ p, result.get? p = (lists.get? p).map fun list =>
        ((traps.filter fun trap => p ∈ trap.span).map (·.handler)).foldl Dispatch.add list := by
  induction traps generalizing lists with
  | nil => exact ⟨lists, rfl, full, fun p => by simp⟩
  | cons trap rest ih =>
      rw [List.forall_mem_cons] at inside
      obtain ⟨changed, first, sizes, entry⟩ :=
        lists.modifySpan?_eq trap.span (Dispatch.add · trap.handler)
          (by simpa only [full] using inside.1) (by omega)
      obtain ⟨result, later, kept, entries⟩ := ih inside.2 changed (by omega)
      refine ⟨result, ?_, kept, fun p => ?_⟩
      · rw [List.foldlM_cons, first]
        exact later
      · rw [entries, entry]
        by_cases covered : p ∈ trap.span
        · simp only [covered, ↓reduceIte, Option.map_map, decide_true, List.filter_cons_of_pos,
            List.map_cons, List.foldl_cons]
          rfl
        · simp only [covered, ↓reduceIte, decide_false, Bool.false_eq_true, not_false_eq_true,
            List.filter_cons_of_neg]

/-- The lists that are computed trap by trap are those of the single positions. -/
theorem dispatchAll_eq {count : Position} {traps : List (Trap ε)}
    (inside : ∀ trap ∈ traps, trap.span.first < trap.span.limit → trap.span.limit ≤ count) :
    ∃ lists, dispatchAll count traps = some lists ∧
      lists.toList = (upFrom 0 count.toNat).map (dispatchAt traps) := by
  obtain ⟨lists, done, size, entries⟩ := foldlM_modifySpan?_eq count.toNat count.toNat_lt_size
    traps inside (InstMap.filled count []) Array.size_replicate
  refine ⟨lists, done, ?_⟩
  apply List.ext_getElem?
  intro i
  by_cases within : i < count.toNat
  · have index := toNat_ofNat_of_lt_count within
    have entry := entries (UInt32.ofNat i)
    simp only [InstMap.get?, InstMap.filled, index, Array.getElem?_replicate, within, ↓reduceIte,
      Option.map_some] at entry
    simp only [InstMap.toList, Array.getElem?_toList, entry, upFrom_eq_map, List.getElem?_map,
      List.getElem?_range within, Option.map_some, UInt32.zero_add]
    rfl
  · rw [List.getElem?_eq_none, List.getElem?_eq_none]
    · simp only [upFrom_eq_map, List.length_map, List.length_range]
      omega
    · have same : lists.toList.length = lists.size := Array.length_toList
      omega

end DisjointTraps
