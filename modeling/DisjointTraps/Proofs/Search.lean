import DisjointTraps.Proofs.Flattening

set_option autoImplicit false

namespace DisjointTraps

section Halving

variable {α : Type} {passed : α → Bool} {items : List α}

/-- The items before `turn` pass the test, and those from it on do not. -/
def TurnsAt (passed : α → Bool) (items : List α) (turn : Nat) : Prop :=
  ∀ i item, items[i]? = some item → (passed item = true ↔ i < turn)

/-- No item passes the test after one that does not. -/
def TurnsOnce (passed : α → Bool) (items : List α) : Prop :=
  items.Pairwise fun item later => passed later = true → passed item = true

/-- A search for the first item that does not pass a test. It may rely on it that no later one
passes the test again. -/
def FindsTurn (search : (α → Bool) → List α → Nat) : Prop :=
  ∀ passed items, TurnsOnce passed items → TurnsAt passed items (search passed items)

/-- Where the test turns, if that is from `low` to `high`. The middle item tells in which half. -/
def bisect (passed : α → Bool) (items : List α) (low high : Nat) : Nat :=
  if low < high then
    let middle := (low + high) / 2
    if items[middle]?.any passed then bisect passed items (middle + 1) high
    else bisect passed items low middle
  else low
termination_by high - low

def halving (passed : α → Bool) (items : List α) : Nat := bisect passed items 0 items.length

theorem TurnsOnce.passed_of_le (once : TurnsOnce passed items) {i j : Nat} {item later : α}
    (order : i ≤ j) (here : items[i]? = some item) (there : items[j]? = some later)
    (passes : passed later = true) : passed item = true := by
  obtain ⟨first, rfl⟩ := List.getElem?_eq_some_iff.mp here
  obtain ⟨second, rfl⟩ := List.getElem?_eq_some_iff.mp there
  rcases Nat.lt_or_eq_of_le order with less | rfl
  · exact List.pairwise_iff_getElem.mp once i j first second less passes
  · exact passes

/-- What halving keeps: all items before `low` pass the test, and none from `high` on does. -/
structure Narrowed (passed : α → Bool) (items : List α) (low high : Nat) : Prop where
  order : low ≤ high
  within : high ≤ items.length
  below : ∀ i item, items[i]? = some item → i < low → passed item = true
  above : ∀ i item, items[i]? = some item → high ≤ i → passed item = false

theorem narrowed_start (passed : α → Bool) (items : List α) :
    Narrowed passed items 0 items.length := by
  refine ⟨Nat.zero_le _, Nat.le_refl _, ?_, ?_⟩
  · intro i item here early
    exact absurd early (Nat.not_lt_zero i)
  · intro i item here late
    obtain ⟨present, -⟩ := List.getElem?_eq_some_iff.mp here
    exact absurd present (Nat.not_lt.mpr late)

/-- If the middle item passes, it and all before it are left out. -/
theorem Narrowed.upper {low high middle : Nat} (narrowed : Narrowed passed items low high)
    (once : TurnsOnce passed items) {item : α} (here : items[middle]? = some item)
    (before : middle < high) (passes : passed item = true) :
    Narrowed passed items (middle + 1) high := by
  refine ⟨before, narrowed.within, ?_, narrowed.above⟩
  intro i other there early
  exact once.passed_of_le (Nat.le_of_lt_succ early) there here passes

/-- If the middle item does not pass, no later one does, and the end moves there. -/
theorem Narrowed.lower {low high middle : Nat} (narrowed : Narrowed passed items low high)
    (once : TurnsOnce passed items) {item : α} (here : items[middle]? = some item)
    (after : low ≤ middle) (before : middle < high) (fails : passed item = false) :
    Narrowed passed items low middle := by
  refine ⟨after, Nat.le_trans (Nat.le_of_lt before) narrowed.within, narrowed.below, ?_⟩
  intro i other there late
  rw [← Bool.not_eq_true] at fails ⊢
  exact fun passes => fails (once.passed_of_le late here there passes)

theorem Narrowed.getElem?_middle {low high middle : Nat}
    (narrowed : Narrowed passed items low high) (before : middle < high) :
    ∃ item, items[middle]? = some item :=
  ⟨_, List.getElem?_eq_getElem (Nat.lt_of_lt_of_le before narrowed.within)⟩

/-- When nothing is left between the two ends, they are where the test turns. -/
theorem Narrowed.turnsAt {low high : Nat} (narrowed : Narrowed passed items low high)
    (once : TurnsOnce passed items) : TurnsAt passed items (bisect passed items low high) := by
  fun_induction bisect passed items low high with
  | case1 low high less middle passes ih =>
      have before : middle < high := by omega
      obtain ⟨item, here⟩ := narrowed.getElem?_middle before
      rw [here, Option.any_some] at passes
      exact ih (narrowed.upper once here before passes)
  | case2 low high less middle fails ih =>
      have before : middle < high := by omega
      have after : low ≤ middle := by omega
      obtain ⟨item, here⟩ := narrowed.getElem?_middle before
      rw [here, Option.any_some, Bool.not_eq_true] at fails
      exact ih (narrowed.lower once here after before fails)
  | case3 low high done =>
      intro i item here
      constructor
      · intro passes
        by_contra late
        have fails := narrowed.above i item here (by omega)
        exact Bool.false_ne_true (fails.symm.trans passes)
      · exact narrowed.below i item here

theorem halving_findsTurn : FindsTurn (halving (α := α)) :=
  fun passed items once => (narrowed_start passed items).turnsAt once

theorem TurnsAt.head?_dropWhile {turn : Nat} (turns : TurnsAt passed items turn) :
    (items.dropWhile passed).head? = items[turn]? := by
  induction items generalizing turn with
  | nil => rfl
  | cons item rest ih =>
      have first : passed item = true ↔ 0 < turn := turns 0 item rfl
      cases turn with
      | zero =>
          rw [List.dropWhile_cons_of_neg (by simpa using first)]
          rfl
      | succ turn =>
          have later : TurnsAt passed rest turn := fun i other there =>
            (turns (i + 1) other there).trans Nat.succ_lt_succ_iff
          rw [List.dropWhile_cons_of_pos (first.mpr (Nat.succ_pos turn))]
          exact ih later

end Halving

variable {ε : Type} {blocks : List (TryBlock ε)}

/-- Blocks in order also end in order, so those that end at or before a position come first. -/
theorem Apart.turnsOnce (apart : Apart blocks) (p : Position) :
    TurnsOnce (fun block => block.span.limit ≤ p) blocks := by
  refine apart.ordered.imp_of_mem fun {block later} _ member order passed => ?_
  have nonempty := apart.nonempty later member
  simp only [decide_eq_true_eq] at passed ⊢
  exact UInt32.le_trans order (UInt32.le_trans (UInt32.le_of_lt nonempty) passed)

/-- The look-up by a search for the first block that ends after `p`, which then has to have begun. -/
def Table.blockBy? (search : (TryBlock ε → Bool) → List (TryBlock ε) → Nat) (table : Table ε)
    (p : Position) : Option (TryBlock ε) :=
  table.blocks[search (fun block => block.span.limit ≤ p) table.blocks]?.filter fun block =>
    p ∈ block.span

theorem FindsTurn.blockBy?_eq {search : (TryBlock ε → Bool) → List (TryBlock ε) → Nat}
    (finds : FindsTurn search) {table : Table ε} (apart : Apart table.blocks) (p : Position) :
    table.blockBy? search p = table.blockAt? p := by
  have turns := finds _ _ (apart.turnsOnce p)
  rw [Table.blockBy?, Table.blockAt?, turns.head?_dropWhile]

theorem Scattered.find?_eq_some_iff (scattered : Scattered blocks) {p : Position}
    {block : TryBlock ε} :
    (blocks.find? fun block => p ∈ block.span) = some block ↔ block ∈ blocks ∧ p ∈ block.span := by
  constructor
  · intro found
    exact ⟨List.mem_of_find?_eq_some found, by simpa using List.find?_some found⟩
  · rintro ⟨member, inside⟩
    cases found : blocks.find? fun block => p ∈ block.span with
    | none => exact absurd (decide_eq_true inside) (List.find?_eq_none.mp found block member)
    | some other =>
        have also : p ∈ other.span := by simpa using List.find?_some found
        rw [scattered.eq_of_mem (List.mem_of_find?_eq_some found) member also inside]

theorem Scattered.index_eq (scattered : Scattered blocks) {p : Position} {i j : Nat}
    {block other : TryBlock ε} (here : blocks[i]? = some block) (there : blocks[j]? = some other)
    (inside : p ∈ block.span) (also : p ∈ other.span) : i = j := by
  have same : block = other :=
    scattered.eq_of_mem (List.mem_of_getElem? here) (List.mem_of_getElem? there) inside also
  obtain ⟨present, -⟩ := List.getElem?_eq_some_iff.mp here
  exact (List.getElem?_inj present scattered.nodup).mp (here.trans (same ▸ there).symm)

variable [DecidableEq ε]

/-- On blocks that are in order and apart, it makes no difference by which search the first block is
found that ends after a position: the look-up finds what going through all blocks finds. This is
the block around the position, which stands at one place only, or nothing if there is none. If no
block lists an exception type twice, the list found is that of the first match among the traps of
the table. -/
theorem lookup_eq_linear_search (table : Table ε) (apart : Apart table.blocks) (p : Position) :
    (∀ search, FindsTurn search → table.blockBy? search p = table.blockAt? p) ∧
    (table.blockAt? p = table.blocks.find? fun block => p ∈ block.span) ∧
    (∀ block, table.blockAt? p = some block ↔ block ∈ table.blocks ∧ p ∈ block.span) ∧
    (∀ (i j : Nat) (block other : TryBlock ε),
      table.blocks[i]? = some block → table.blocks[j]? = some other →
      p ∈ block.span → p ∈ other.span → i = j) ∧
    ((∀ block ∈ table.blocks, block.handlers.Distinct) →
      table.dispatchAt p = dispatchAt table.toTraps p) := by
  have linear : table.blockAt? p = table.blocks.find? fun block => p ∈ block.span :=
    apart.blockAt?_eq_find? p
  refine ⟨fun search finds => finds.blockBy?_eq apart p, linear, ?_, ?_, ?_⟩
  · intro block
    rw [linear, apart.scattered.find?_eq_some_iff]
  · intro i j block other here there
    exact apart.scattered.index_eq here there
  · intro distinct
    exact (apart.dispatchAt_eq p).trans (apart.scattered.dispatchAt_toTraps distinct _ p).symm

/-- Two blocks that touch and one after a gap, searched by halving where the first two meet, in the
gap and past the end of the body. -/
theorem lookup_eq_linear_search_around_gap :
    ∃ (table : Table Nat) (second : TryBlock Nat),
      table.count = 10 ∧ table.blocks.map (·.span) = [⟨1, 3⟩, ⟨3, 4⟩, ⟨6, 9⟩] ∧
      table.blockBy? halving 3 = some second ∧ second.span = ⟨3, 4⟩ ∧
      (∀ (i : Nat) block, table.blocks[i]? = some block → 3 ∈ block.span → i = 1) ∧
      table.blockBy? halving 5 = none ∧ table.blockBy? halving 20 = none ∧
      table.dispatchAt 3 = dispatchAt table.toTraps 3 := by
  let second : TryBlock Nat := ⟨⟨3, 4⟩, [⟨1, 2⟩, ⟨0, 4⟩]⟩
  let table : Table Nat := ⟨10, [⟨⟨1, 3⟩, [⟨0, 2⟩]⟩, second, ⟨⟨6, 9⟩, [⟨0, 2⟩]⟩]⟩
  have apart : Apart table.blocks := ⟨by decide, by decide⟩
  obtain ⟨touching, -, around, unique, list⟩ := lookup_eq_linear_search table apart 3
  obtain ⟨gap, nowhere, -⟩ := lookup_eq_linear_search table apart 5
  obtain ⟨past, outside, -⟩ := lookup_eq_linear_search table apart 20
  have found : table.blockAt? 3 = some second := (around second).mpr ⟨by decide, by decide⟩
  have place : ∀ (i : Nat) block, table.blocks[i]? = some block → 3 ∈ block.span → i = 1 :=
    fun i block here inside => unique i 1 block second here rfl inside (by decide)
  exact ⟨table, second, rfl, rfl, (touching halving halving_findsTurn).trans found, rfl, place,
    (gap halving halving_findsTurn).trans (nowhere.trans (by decide)),
    (past halving halving_findsTurn).trans (outside.trans (by decide)), list (by decide)⟩

end DisjointTraps
