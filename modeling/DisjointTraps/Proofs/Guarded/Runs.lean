import DisjointTraps.Proofs.Guarded.Sweep
import DisjointTraps.Proofs.Sweep

set_option autoImplicit false

namespace DisjointTraps.Guarded

variable {ε : Type} [DecidableEq ε]

section Changes

variable (rule : PartialRule) (count : Position)

/-- Compares the lists on both sides of a position; the rule is asked only if they differ. -/
def requireUnchanged? (p : Position) (before after : Dispatch ε) : Guarded ε Unit :=
  if before ≠ after then requireAllowed? rule count p before after else return ()

/-- Compares the list at each position with the one before it. -/
def requireUnchangedAt? (lists : InstMap (Dispatch ε)) : List Position → Guarded ε Unit
  | [] => return ()
  | p :: rest => do
      let earlier ← Position.previous? p
      let before ← lists.get? earlier
      let after ← lists.get? p
      requireUnchanged? rule count p before after
      requireUnchangedAt? lists rest

end Changes

/-- The runs over the given positions, where `run` is the last block so far. A position with an
empty list leaves it as it is. -/
def runsAt? (lists : InstMap (Dispatch ε)) (run : Option (TryBlock ε)) :
    List Position → Option (List (TryBlock ε))
  | [] => some run.toList
  | p :: rest => do
      let list ← lists.get? p
      if list.isEmpty then runsAt? lists run rest
      else
        let limit ← Position.next? p
        match run with
        | none => runsAt? lists (some ⟨⟨p, limit⟩, list⟩) rest
        | some block =>
            if block.span.limit = p ∧ block.handlers = list then
              runsAt? lists (some (block.extend limit)) rest
            else
              let later ← runsAt? lists (some ⟨⟨p, limit⟩, list⟩) rest
              return block :: later

def splitByInstruction? (rule : PartialRule) (count : Position) (traps : List (Trap ε)) :
    Guarded ε (Table ε) := do
  settled (requireWellFormed count traps)
  let lists ← dispatchAll count traps
  requireUnchangedAt? rule count lists ((Span.mk 1 count).take count.toNat)
  let blocks ← runsAt? lists none ((Span.mk 0 count).take count.toNat)
  return ⟨count, blocks⟩

def changesAllowed (rule : BoundaryRule) (count p : Position) (lists : List (Dispatch ε)) :
    Except (SplitError ε) Unit :=
  match forbiddenChange? rule count p lists with
  | some error => .error error
  | none => .ok ()

variable {rule : PartialRule} {count : Position} {lists : InstMap (Dispatch ε)}
variable {values : Position → Dispatch ε}

theorem requireUnchanged?_bind (answers : rule.AnswersInside count) (p : Position)
    (before after : Dispatch ε) (rest : List (Dispatch ε)) :
    (do requireUnchanged? rule count p before after
        settled (changesAllowed rule.total count (p + 1) (after :: rest))) =
      settled (changesAllowed rule.total count p (before :: after :: rest)) := by
  rw [requireUnchanged?, changesAllowed, changesAllowed, forbiddenChange?]
  by_cases differ : before ≠ after
  · rw [if_pos differ, requireAllowed?_eq answers, requireAllowed]
    by_cases forbidden : rule.total.forbids count p = true
    · rw [if_pos forbidden, if_pos ⟨differ, forbidden⟩]
      rfl
    · rw [if_neg forbidden, if_neg (fun both => forbidden both.2)]
      rfl
  · rw [if_neg differ, if_neg (fun both => differ both.1)]
    rfl

theorem requireUnchangedAt?_eq (answers : rule.AnswersInside count)
    (entries : ∀ p : Position, p.toNat < count.toNat → lists.get? p = some (values p)) (n : Nat)
    (p : Position) (inside : p.toNat + n < count.toNat) :
    requireUnchangedAt? rule count lists (upFrom (p + 1) n) =
      settled (changesAllowed rule.total count (p + 1) ((upFrom p (n + 1)).map values)) := by
  induction n generalizing p with
  | zero => rfl
  | succ n ih =>
      have small := count.toNat_lt_size
      have next := toNat_succ (by omega : p.toNat + 1 < UInt32.size)
      have onward := ih (p + 1) (by omega)
      simp only [upFrom, List.map_cons] at onward ⊢
      rw [requireUnchangedAt?, Position.previous?_succ (by omega : p.toNat < count.toNat),
        lift_bind, entries p (by omega), lift_bind, entries (p + 1) (by omega), lift_bind, onward]
      exact requireUnchanged?_bind answers _ _ _ _

/-- The blocks are read off the lists in one of three states: before any block, with a block that
ends here, and with one that has ended before a gap. -/
theorem runsAt?_eq_runsFrom
    (entries : ∀ p : Position, p.toNat < count.toNat → lists.get? p = some (values p)) (n : Nat)
    (p : Position) (inside : p.toNat + n ≤ count.toNat) :
    runsAt? lists none (upFrom p n) = some (runsFrom none p ((upFrom p n).map values)) ∧
    (∀ block : TryBlock ε, block.span.limit = p → block.handlers ≠ [] →
      runsAt? lists (some block) (upFrom p n) =
        some (runsFrom (some block) p ((upFrom p n).map values))) ∧
    ∀ block : TryBlock ε, block.span.limit.toNat < p.toNat →
      runsAt? lists (some block) (upFrom p n) =
        some (block :: runsFrom none p ((upFrom p n).map values)) := by
  induction n generalizing p with
  | zero => exact ⟨rfl, fun block _ _ => rfl, fun block _ => rfl⟩
  | succ n ih =>
      have small := count.toNat_lt_size
      have next := toNat_succ (by omega : p.toNat + 1 < UInt32.size)
      obtain ⟨before, within, after⟩ := ih (p + 1) (by omega)
      have entry := entries p (by omega)
      have limit := Position.next?_eq (by omega : p.toNat < count.toNat)
      simp only [upFrom, List.map_cons, runsAt?, runsFrom, entry, limit, Option.bind_eq_bind,
        Option.bind_some, startRun]
      by_cases gap : values p = []
      · -- A block that ends here has ended before the next position.
        simp only [gap, List.isEmpty_nil, ↓reduceIte]
        refine ⟨before, ?_, ?_⟩
        · intro block ends handled
          rw [if_neg handled]
          exact after block (by rw [ends]; omega)
        · intro block ended
          exact after block (by omega)
      · have covered : (values p).isEmpty = false := List.isEmpty_eq_false_iff.mpr gap
        have fresh := within ⟨⟨p, p + 1⟩, values p⟩ rfl gap
        simp only [covered, Bool.false_eq_true, ↓reduceIte, fresh, Option.bind_some]
        refine ⟨trivial, ?_, ?_⟩
        · intro block ends handled
          by_cases same : block.handlers = values p
          · rw [if_pos ⟨ends, same⟩, if_pos same]
            exact within (block.extend (p + 1)) rfl handled
          · rw [if_neg (fun both => same both.2), if_neg same]
            rfl
        · -- Beyond a gap the lists may be equal, but the block does not reach up to here.
          intro block ended
          have apart : block.span.limit ≠ p := by
            intro ends
            rw [ends] at ended
            omega
          rw [if_neg (fun both => apart both.1)]
          rfl

theorem requireUnchangedAt?_body (answers : rule.AnswersInside count)
    (entries : ∀ p : Position, p.toNat < count.toNat → lists.get? p = some (values p)) :
    requireUnchangedAt? rule count lists ((Span.mk 1 count).take count.toNat) =
      settled (changesAllowed rule.total count 1 ((upFrom 0 count.toNat).map values)) := by
  rw [Span.take_after_first]
  cases size : count.toNat with
  | zero => rfl
  | succ n =>
      have inside : (0 : Position).toNat + n < count.toNat := by
        rw [UInt32.toNat_zero]
        omega
      exact requireUnchangedAt?_eq answers entries n 0 inside

theorem runsAt?_body
    (entries : ∀ p : Position, p.toNat < count.toNat → lists.get? p = some (values p)) :
    runsAt? lists none ((Span.mk 0 count).take count.toNat) =
      some (runs ((upFrom 0 count.toNat).map values)) := by
  have whole : (0 : Position).toNat + count.toNat ≤ count.toNat := by
    rw [UInt32.toNat_zero]
    omega
  rw [Span.take_body]
  exact (runsAt?_eq_runsFrom entries count.toNat 0 whole).1

/-- The traps fit once the check at the beginning has passed, so no list is added to outside. -/
theorem splitByInstruction?_eq (answers : rule.AnswersInside count) (traps : List (Trap ε)) :
    splitByInstruction? rule count traps =
      settled (splitByInstruction rule.total count traps) := by
  rw [splitByInstruction?, splitByInstruction]
  cases checked : requireWellFormed count traps with
  | error reason => rfl
  | ok passed =>
      have fits := (requireWellFormed_eq_ok_iff count traps).mp checked
      obtain ⟨lists, computed, listed, entries⟩ := exists_dispatchAll fits
      have changes := requireUnchangedAt?_body answers entries
      rw [← listed] at changes
      have blocks := runsAt?_body entries
      rw [← listed] at blocks
      rw [computed]
      change ((do
        requireUnchangedAt? rule count lists ((Span.mk 1 count).take count.toNat)
        let blocks ← runsAt? lists none ((Span.mk 0 count).take count.toNat)
        return Table.mk count blocks) : Guarded ε (Table ε)) = settled (do
          let blocks ← blocksOfLists rule.total count lists.toList
          return Table.mk count blocks)
      rw [changes, blocks, blocksOfLists, changesAllowed]
      cases forbiddenChange? rule.total count 1 lists.toList with
      | some error => rfl
      | none => rfl

end DisjointTraps.Guarded
