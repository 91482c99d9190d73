import DisjointTraps.Proofs.Guarded.Basic
import DisjointTraps.Proofs.Pieces
import DisjointTraps.Proofs.Placement
import DisjointTraps.Proofs.Sweep
import DisjointTraps.Split

set_option autoImplicit false

namespace DisjointTraps

variable {ε : Type}

namespace Coverage

theorem mem_foldl_insert (entries active : List (Declared ε)) (d : Declared ε) :
    d ∈ entries.foldl (fun active d => insert d active) active ↔ d ∈ entries ∨ d ∈ active := by
  induction entries generalizing active with
  | nil => simp only [List.foldl_nil, List.not_mem_nil, false_or]
  | cons entry rest ih =>
      rw [List.foldl_cons, ih, mem_insert, List.mem_cons, or_left_comm, or_assoc]

theorem mem_of_mem_foldl_remove {entries active : List (Declared ε)} {d : Declared ε}
    (left : d ∈ entries.foldl (fun active d => remove d active) active) : d ∈ active := by
  induction entries generalizing active with
  | nil => exact left
  | cons entry rest ih => exact List.mem_of_mem_eraseP (ih left)

/-- All entries are declared traps, with the index that they have in the list. -/
structure Known (traps : List (Trap ε)) (coverage : Coverage ε) : Prop where
  active : ∀ d ∈ coverage.active, d ∈ declared traps
  opens : ∀ d ∈ coverage.opens, d ∈ declared traps

theorem known_start (traps : List (Trap ε)) : Known traps (start (Timeline.ofTraps traps)) where
  active _ member := absurd member List.not_mem_nil
  opens _ member := List.mem_mergeSort.mp member

theorem Known.reach {traps : List (Trap ε)} {coverage : Coverage ε} (known : Known traps coverage)
    (p : Position) : Known traps (coverage.reach p) where
  active d member := by
    cases (mem_foldl_insert _ _ d).mp member with
    | inl entered => exact known.opens d ((List.takeWhile_sublist _).mem entered)
    | inr stayed => exact known.active d (mem_of_mem_foldl_remove stayed)
  opens d member := known.opens d ((List.dropWhile_sublist _).mem member)

end Coverage

namespace Guarded

def trapsOf? (traps : List (Trap ε)) : List (Declared ε) → Option (List (Trap ε))
  | [] => some []
  | d :: rest => do
      let trap ← traps[d.index]?
      let later ← trapsOf? traps rest
      return trap :: later

theorem trapsOf?_eq {traps : List (Trap ε)} {entries : List (Declared ε)}
    (known : ∀ d ∈ entries, d ∈ declared traps) :
    trapsOf? traps entries = some (entries.map (·.trap)) := by
  induction entries with
  | nil => rfl
  | cons d rest ih =>
      obtain ⟨here, later⟩ := List.forall_mem_cons.mp known
      rw [trapsOf?, (mem_declared traps d).mp here, ih later]
      rfl

variable [DecidableEq ε]

/-- The dispatch list of the given entries, which is tested to have a handler. -/
def listOf? (traps : List (Trap ε)) (entries : List (Declared ε)) : Option (Dispatch ε) := do
  let covering ← trapsOf? traps entries
  let list := firstMatch (covering.map (·.handler))
  guard (list ≠ [])
  return list

/-- The pieces between neighbours of the list, without those that no trap covers. -/
def piecesFrom? (traps : List (Trap ε)) : List Position → Coverage ε → Option (List (TryBlock ε))
  | first :: limit :: rest, coverage =>
      let here := coverage.reach first
      if here.active.isEmpty then piecesFrom? traps (limit :: rest) here
      else do
        let list ← listOf? traps here.active
        let later ← piecesFrom? traps (limit :: rest) here
        return ⟨⟨first, limit⟩, list⟩ :: later
  | _, _ => some []

def pieces? (traps : List (Trap ε)) : Option (List (TryBlock ε)) :=
  let timeline := Timeline.ofTraps traps
  piecesFrom? traps timeline.boundaries (Coverage.start timeline)

/-- Where a trap covers a piece, the first of the covering traps has its handler in the list. -/
theorem listOf?_eq {traps : List (Trap ε)} {entries : List (Declared ε)}
    (known : ∀ d ∈ entries, d ∈ declared traps) (covered : entries ≠ []) :
    listOf? traps entries = some (firstMatch (entries.map (·.trap.handler))) := by
  let list := firstMatch (entries.map (·.trap.handler))
  have handled : list ≠ [] := by
    rw [Ne, firstMatch_eq_nil_iff, List.map_eq_nil_iff]
    exact covered
  have handlers : (entries.map (·.trap)).map (·.handler) = entries.map (·.trap.handler) :=
    List.map_map
  have tested : (guard (list ≠ []) : Option Unit) = some () := if_pos handled
  rw [listOf?, trapsOf?_eq known]
  change (do
    guard (firstMatch ((entries.map Declared.trap).map Trap.handler) ≠ [])
    some (firstMatch ((entries.map Declared.trap).map Trap.handler))) = _
  rw [handlers, tested]
  rfl

theorem piecesFrom?_eq {traps : List (Trap ε)} (cuts : List Position) {coverage : Coverage ε}
    (known : coverage.Known traps) :
    piecesFrom? traps cuts coverage = some (piecesFrom cuts coverage) := by
  induction cuts generalizing coverage with
  | nil => rfl
  | cons first rest ih =>
      cases rest with
      | nil => rfl
      | cons limit rest =>
          have reached := known.reach first
          have later := ih reached
          rw [piecesFrom?, piecesFrom]
          by_cases gap : (coverage.reach first).active = []
          · simp only [gap, List.isEmpty_nil, ↓reduceIte, later]
          · have covered : (coverage.reach first).active.isEmpty = false :=
              List.isEmpty_eq_false_iff.mpr gap
            simp only [covered, Bool.false_eq_true, ↓reduceIte, listOf?_eq reached.active gap,
              later, Option.bind_eq_bind, Option.bind_some, Option.pure_def]

theorem pieces?_eq (traps : List (Trap ε)) :
    pieces? traps = some (Timeline.ofTraps traps).pieces :=
  piecesFrom?_eq _ (Coverage.known_start traps)

section Legalize

variable (rule : PartialRule) (count : Position)

omit [DecidableEq ε] in
def requireAllowed? (p : Position) (before after : Dispatch ε) : Guarded ε Unit := do
  let forbidden ← rule.forbids? count p
  if forbidden then throw (.illegalSplit p before after) else return ()

/-- As `legalizeFrom`, but the rule may fail to answer, and the blocks absorbed so far are counted.
Nothing depends on their number, which goes into a debug message, but the count has to fit. -/
def legalizeFrom? (absorbed : Nat) (current : TryBlock ε) :
    List (TryBlock ε) → Guarded ε (List (TryBlock ε))
  | [] => do
      requireAllowed? rule count current.span.limit current.handlers []
      return [current]
  | next :: rest =>
      if current.span.limit = next.span.first then do
        let forbidden ← rule.forbids? count next.span.first
        if forbidden then
          if current.handlers = next.handlers then do
            let absorbed ← tally? absorbed
            legalizeFrom? absorbed (current.extend next.span.limit) rest
          else throw (.illegalSplit next.span.first current.handlers next.handlers)
        else do
          let later ← legalizeFrom? absorbed next rest
          return current :: later
      else do
        requireAllowed? rule count current.span.limit current.handlers []
        requireAllowed? rule count next.span.first [] next.handlers
        let later ← legalizeFrom? absorbed next rest
        return current :: later

def legalize? : List (TryBlock ε) → Guarded ε (List (TryBlock ε))
  | [] => return []
  | first :: rest => do
      requireAllowed? rule count first.span.first [] first.handlers
      legalizeFrom? rule count 0 first rest

end Legalize

section Absorbed

variable (rule : BoundaryRule) (count : Position)

/-- Where the blocks begin that a placement absorbs before it comes to its end or is refused. -/
def absorbedFrom (current : TryBlock ε) : List (TryBlock ε) → List Position
  | [] => []
  | next :: rest =>
      if current.span.limit = next.span.first then
        if rule.forbids count next.span.first then
          if current.handlers = next.handlers then
            next.span.first :: absorbedFrom (current.extend next.span.limit) rest
          else []
        else absorbedFrom next rest
      else if rule.forbids count current.span.limit ∨ rule.forbids count next.span.first then []
      else absorbedFrom next rest

def absorbed : List (TryBlock ε) → List Position
  | [] => []
  | first :: rest =>
      if rule.forbids count first.span.first then [] else absorbedFrom rule count first rest

end Absorbed

variable {rule : PartialRule} {count : Position}

omit [DecidableEq ε] in
theorem requireAllowed?_eq (answers : rule.AnswersInside count) (p : Position)
    (before after : Dispatch ε) :
    requireAllowed? rule count p before after =
      settled (requireAllowed rule.total count p before after) := by
  rw [requireAllowed?, requireAllowed, answers.forbids?_eq, lift_bind]
  split
  · rfl
  · rfl

/-- A placement comes to its result if the count of absorbed blocks fits. -/
theorem legalizeFrom?_eq (answers : rule.AnswersInside count) {before : Nat}
    (small : before < 2 ^ 31) (current : TryBlock ε) (rest : List (TryBlock ε)) :
    legalizeFrom? rule count before current rest =
      counted (before + (absorbedFrom rule.total count current rest).length)
        (legalizeFrom rule.total count current rest) := by
  induction rest generalizing before current with
  | nil =>
      rw [legalizeFrom?, legalizeFrom, requireAllowed?_eq answers, absorbedFrom, List.length_nil,
        Nat.add_zero, counted_eq_settled small]
      apply settled_bind
      intro _
      rfl
  | cons next rest ih =>
      have onward : (do return current :: (← legalizeFrom? rule count before next rest)) =
          counted (before + (absorbedFrom rule.total count next rest).length)
            (do return current :: (← legalizeFrom rule.total count next rest)) := by
        rw [ih small]
        apply counted_bind
        intro later
        rfl
      rw [legalizeFrom?, legalizeFrom, absorbedFrom]
      split
      · rw [answers.forbids?_eq, lift_bind]
        split
        · split
          · rw [tally?, List.length_cons]
            by_cases more : before + 1 < 2 ^ 31
            · rw [if_pos more, lift_bind, ih more, Nat.add_right_comm, Nat.add_assoc]
            · -- The counter is full, whatever is still to come.
              rw [if_neg more, counted, if_neg (by omega)]
              rfl
          · exact (counted_eq_settled small _).symm
        · exact onward
      · rw [requireAllowed?_eq answers, requireAllowed?_eq answers, requireAllowed, requireAllowed]
        by_cases ends : rule.total.forbids count current.span.limit = true
        · simp only [ends, ↓reduceIte, true_or, List.length_nil, Nat.add_zero,
            counted_eq_settled small]
          rfl
        · by_cases begins : rule.total.forbids count next.span.first = true
          · simp only [ends, begins, ↓reduceIte, or_true, List.length_nil, Nat.add_zero,
              counted_eq_settled small]
            rfl
          · simp only [ends, begins, or_self]
            exact onward

theorem legalize?_eq (answers : rule.AnswersInside count) (blocks : List (TryBlock ε)) :
    legalize? rule count blocks =
      counted (absorbed rule.total count blocks).length (legalize rule.total count blocks) := by
  cases blocks with
  | nil => rfl
  | cons first rest =>
      rw [legalize?, legalize, requireAllowed?_eq answers, requireAllowed, absorbed]
      split
      · rfl
      · have onward := legalizeFrom?_eq answers (by decide : 0 < 2 ^ 31) first rest
        rw [Nat.zero_add] at onward
        exact onward

/-- Merging, with a test that it has left nothing to merge. -/
def coalesce? (blocks : List (TryBlock ε)) : Option (List (TryBlock ε)) := do
  guard (isCoalesced (coalesce blocks))
  return coalesce blocks

theorem coalesce?_eq (blocks : List (TryBlock ε)) : coalesce? blocks = some (coalesce blocks) := by
  rw [coalesce?, (isCoalesced_iff _).mpr (coalesce_isChain blocks)]
  rfl

def splitBySweep? (rule : PartialRule) (count : Position) (traps : List (Trap ε)) :
    Guarded ε (Table ε) := do
  settled (requireWellFormed count traps)
  let pieces ← pieces? traps
  let legal ← legalize? rule count pieces
  let blocks ← coalesce? legal
  return ⟨count, blocks⟩

theorem splitBySweep?_eq (answers : rule.AnswersInside count) {traps : List (Trap ε)}
    (fits : ∀ trap ∈ traps, trap.WellFormed count) :
    splitBySweep? rule count traps =
      counted (absorbed rule.total count (Timeline.ofTraps traps).pieces).length
        (splitBySweep rule.total count traps) := by
  have passed := (requireWellFormed_eq_ok_iff count traps).mpr fits
  rw [splitBySweep?, splitBySweep, passed]
  change (do
    let pieces ← pieces? traps
    let legal ← legalize? rule count pieces
    let blocks ← coalesce? legal
    return Table.mk count blocks : Guarded ε (Table ε)) = counted _ (do
      let legal ← legalize rule.total count (Timeline.ofTraps traps).pieces
      return Table.mk count (coalesce legal))
  rw [pieces?_eq, lift_bind, legalize?_eq answers]
  apply counted_bind
  intro legal
  rw [coalesce?_eq, lift_bind]
  rfl

end Guarded

end DisjointTraps
