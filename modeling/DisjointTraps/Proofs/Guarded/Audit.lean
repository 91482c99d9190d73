import DisjointTraps.Proofs.Audit
import DisjointTraps.Proofs.Guarded.Basic

set_option autoImplicit false

namespace DisjointTraps.Guarded

variable {ε : Type} [DecidableEq ε]

def entriesBefore? (handlers : Dispatch ε) (index : Nat) : Option (Dispatch ε) :=
  if index ≤ handlers.length then some (handlers.take index) else none

/-- The exception types of the given entries, the first of them at `index`, that an earlier entry
of the whole list catches. -/
def repeatedFrom? (handlers : Dispatch ε) (index : Nat) : Dispatch ε → Option (List ε)
  | [] => some []
  | handler :: rest => do
      let earlier ← entriesBefore? handlers index
      let later ← repeatedFrom? handlers (index + 1) rest
      if earlier.any (·.exception = handler.exception) then return handler.exception :: later
      else return later

def blockFindings? (count : Position) (block : TryBlock ε) : Option (List (Finding ε)) := do
  let repeated ← repeatedFrom? block.handlers 0 block.handlers
  return (if block.span.isEmpty then [.emptyBlock block.span] else []) ++
    (if count < block.span.limit then [.outOfBody block.span count] else []) ++
    (if block.handlers.isEmpty then [.noHandlers block.span] else []) ++
    repeated.map (.repeatedException block.span)

/-- As `boundaryFindings`. The rule is not asked about a boundary that was reported last. -/
def boundaryFindings? (rule : PartialRule) (count : Position) (last : Option Position) :
    List Position → Option (List (Finding ε) × Option Position)
  | [] => some ([], last)
  | p :: rest =>
      if last = some p then boundaryFindings? rule count last rest
      else do
        let forbidden ← rule.forbids? count p
        if forbidden then
          let later ← boundaryFindings? rule count (some p) rest
          return (.forbiddenBoundary p :: later.1, later.2)
        else boundaryFindings? rule count last rest

def previousBlock? (blocks : List (TryBlock ε)) (index : Nat) : Option (Option (TryBlock ε)) :=
  if 0 < index then do
    let previous ← blocks[index - 1]?
    return some previous
  else return none

/-- As `structureFrom`, for the blocks of a table from `index` on. -/
def structureFrom? (rule : PartialRule) (count : Position) (blocks : List (TryBlock ε))
    (index : Nat) (last : Option Position) : List (TryBlock ε) → Option (List (Finding ε))
  | [] => some []
  | block :: rest => do
      let alone ← blockFindings? count block
      let boundaries ← boundaryFindings? rule count last [block.span.first, block.span.limit]
      let previous ← previousBlock? blocks index
      let later ← structureFrom? rule count blocks (index + 1) boundaries.2 rest
      return alone ++ boundaries.1 ++ neighbourFindings previous block ++ later

def checkStructure? (rule : PartialRule) (table : Table ε) : Option (List (Finding ε)) :=
  structureFrom? rule table.count table.blocks 0 none table.blocks

def mismatchesAt? (expected actual : Position → Option (Dispatch ε)) :
    List Position → Option (List (Finding ε))
  | [] => some []
  | p :: rest => do
      let wanted ← expected p
      let found ← actual p
      let later ← mismatchesAt? expected actual rest
      if wanted = found then return later else return .mismatch p wanted found :: later

def compareTraps? (countBefore : Position) (before : List (Trap ε)) (countAfter : Position)
    (after : List (Trap ε)) : Option (List (Finding ε)) :=
  if countBefore ≠ countAfter then some [.lengthsDiffer countBefore countAfter]
  else if before.isEmpty then some []
  else
    let bad := malformedFindings .before countBefore before ++
      malformedFindings .after countBefore after
    if !bad.isEmpty then some bad
    else do
      let expected ← dispatchAll countBefore before
      let actual ← dispatchAll countBefore after
      mismatchesAt? expected.get? actual.get? ((Span.mk 0 countBefore).take countBefore.toNat)

def checkTable? (rule : PartialRule) (count : Position) (traps : List (Trap ε))
    (table : Table ε) : Option (List (Finding ε)) :=
  if count ≠ table.count then some [.lengthsDiffer count table.count]
  else do
    let formed ← checkStructure? rule table
    let bad := malformedFindings .before count traps ++ formed
    if !bad.isEmpty then return bad
    else
      let expected ← dispatchAll count traps
      mismatchesAt? expected.get? (fun p => some (table.dispatchAt p))
        ((Span.mk 0 count).take count.toNat)

omit [DecidableEq ε] in
theorem entriesBefore?_append (earlier rest : Dispatch ε) :
    entriesBefore? (earlier ++ rest) earlier.length = some earlier := by
  have within : earlier.length ≤ (earlier ++ rest).length := by
    rw [List.length_append]
    omega
  rw [entriesBefore?, if_pos within, List.take_left]

/-- The index of an entry is the number of those before it, so the slice before it holds exactly
the entries whose types have been seen. -/
theorem repeatedFrom?_eq (earlier rest : Dispatch ε) :
    repeatedFrom? (earlier ++ rest) earlier.length rest =
      some (repeatedExceptions (earlier.map (·.exception)).reverse rest) := by
  induction rest generalizing earlier with
  | nil => rfl
  | cons handler rest ih =>
      have later := ih (earlier ++ [handler])
      simp only [List.append_assoc, List.singleton_append, List.length_append,
        List.length_singleton, List.map_append, List.map_cons, List.map_nil,
        List.reverse_append, List.reverse_cons, List.reverse_nil, List.nil_append] at later
      have caught : earlier.any (·.exception = handler.exception) = true ↔
          handler.exception ∈ (earlier.map (·.exception)).reverse := by
        simp only [List.any_eq_true, decide_eq_true_eq, List.mem_reverse, List.mem_map]
      rw [repeatedFrom?, repeatedExceptions, entriesBefore?_append, later]
      simp only [Option.bind_eq_bind, Option.bind_some, caught]
      split
      · rfl
      · rfl

theorem blockFindings?_eq (count : Position) (block : TryBlock ε) :
    blockFindings? count block = some (blockFindings count block) := by
  have repeated : repeatedFrom? block.handlers 0 block.handlers =
      some (repeatedExceptions [] block.handlers) := repeatedFrom?_eq [] block.handlers
  rw [blockFindings?, repeated]
  rfl

variable {rule : PartialRule} {count : Position}

omit [DecidableEq ε] in
theorem boundaryFindings?_eq (answers : rule.AnswersInside count) (last : Option Position)
    (boundaries : List Position) :
    (boundaryFindings? rule count last boundaries : Option (List (Finding ε) × Option Position)) =
      some (boundaryFindings rule.total count last boundaries) := by
  induction boundaries generalizing last with
  | nil => rfl
  | cons p rest ih =>
      rw [boundaryFindings?, boundaryFindings]
      by_cases reported : last = some p
      · rw [if_pos reported, if_neg (fun both => both.1 reported)]
        exact ih last
      · rw [if_neg reported, answers.forbids?_eq, Option.bind_eq_bind, Option.bind_some]
        by_cases forbidden : rule.total.forbids count p = true
        · rw [if_pos forbidden, if_pos ⟨reported, forbidden⟩, ih]
          rfl
        · rw [if_neg forbidden, if_neg (fun both => forbidden both.2)]
          exact ih last

omit [DecidableEq ε] in
theorem previousBlock?_append (earlier rest : List (TryBlock ε)) :
    previousBlock? (earlier ++ rest) earlier.length = some earlier.getLast? := by
  cases earlier using List.reverseRecOn with
  | nil => rfl
  | append_singleton earlier block =>
      have positive : 0 < (earlier ++ [block]).length := by
        rw [List.length_append, List.length_singleton]
        omega
      have entry : (earlier ++ [block] ++ rest)[(earlier ++ [block]).length - 1]? = some block := by
        simp
      rw [previousBlock?, if_pos positive, entry, List.getLast?_concat]
      rfl

/-- The index of a block is the number of those before it, so the block looked up is the one that
was checked last. -/
theorem structureFrom?_eq (answers : rule.AnswersInside count) (earlier rest : List (TryBlock ε))
    (last : Option Position) :
    structureFrom? rule count (earlier ++ rest) earlier.length last rest =
      some (structureFrom rule.total count earlier.getLast? last rest) := by
  induction rest generalizing earlier last with
  | nil => rfl
  | cons block rest ih =>
      let checked : List (Finding ε) × Option Position :=
        boundaryFindings rule.total count last [block.span.first, block.span.limit]
      have later := ih (earlier ++ [block]) checked.2
      rw [List.append_assoc, List.singleton_append, List.length_append, List.length_singleton,
        List.getLast?_concat] at later
      rw [structureFrom?, structureFrom, blockFindings?_eq, boundaryFindings?_eq answers,
        previousBlock?_append]
      change (do
        let found ← structureFrom? rule count (earlier ++ block :: rest) (earlier.length + 1)
          checked.2 rest
        some (blockFindings count block ++ checked.1 ++ neighbourFindings earlier.getLast? block ++
          found)) = _
      rw [later]
      rfl

theorem checkStructure?_eq {table : Table ε} (answers : rule.AnswersInside table.count) :
    checkStructure? rule table = some (checkStructure rule.total table) :=
  structureFrom?_eq answers [] table.blocks none

theorem mismatchesAt?_eq {expected actual : Position → Option (Dispatch ε)}
    {wanted found : Position → Dispatch ε} {positions : List Position}
    (left : ∀ p ∈ positions, expected p = some (wanted p))
    (right : ∀ p ∈ positions, actual p = some (found p)) :
    mismatchesAt? expected actual positions =
      some ((positions.filter fun p => wanted p ≠ found p).map fun p =>
        .mismatch p (wanted p) (found p)) := by
  induction positions with
  | nil => rfl
  | cons p rest ih =>
      rw [List.forall_mem_cons] at left right
      rw [mismatchesAt?, left.1, right.1, ih left.2 right.2]
      simp only [Option.bind_eq_bind, Option.bind_some]
      by_cases same : wanted p = found p
      · rw [if_pos same, List.filter_cons_of_neg (by simpa using same)]
        rfl
      · rw [if_neg same, List.filter_cons_of_pos (by simpa using same)]
        rfl

theorem mismatchesAt?_body {expected actual : Position → Option (Dispatch ε)}
    {wanted found : Position → Dispatch ε}
    (left : ∀ p : Position, p.toNat < count.toNat → expected p = some (wanted p))
    (right : ∀ p : Position, p.toNat < count.toNat → actual p = some (found p)) :
    mismatchesAt? expected actual ((Span.mk 0 count).take count.toNat) =
      some (mismatches ((upFrom 0 count.toNat).map wanted) ((upFrom 0 count.toNat).map found)) := by
  have within : ∀ p ∈ upFrom 0 count.toNat, p.toNat < count.toNat := fun p member =>
    UInt32.lt_iff_toNat_lt.mp ((mem_upFrom_zero count p).mp member)
  rw [Span.take_body, mismatches_upFrom]
  exact mismatchesAt?_eq (fun p member => left p (within p member)) fun p member =>
    right p (within p member)

omit [DecidableEq ε] in
theorem exists_findings {bad : List (Finding ε)} {guarded plain : Option (List (Finding ε))}
    (compared : bad = [] → ∃ findings, guarded = some findings ∧ plain = some findings) :
    ∃ findings, (if !bad.isEmpty then some bad else guarded) = some findings ∧
      (if !bad.isEmpty then some bad else plain) = some findings := by
  cases bad with
  | nil => exact compared rfl
  | cons finding rest => exact ⟨finding :: rest, rfl, rfl⟩

/-- Dispatch lists are computed only of traps that all fit. -/
theorem compareTraps?_eq (countBefore : Position) (before : List (Trap ε)) (countAfter : Position)
    (after : List (Trap ε)) :
    ∃ findings, compareTraps? countBefore before countAfter after = some findings ∧
      compareTraps countBefore before countAfter after = some findings := by
  rw [compareTraps?, compareTraps]
  by_cases lengths : countBefore ≠ countAfter
  · rw [if_pos lengths, if_pos lengths]
    exact ⟨_, rfl, rfl⟩
  rw [if_neg lengths, if_neg lengths]
  by_cases free : before.isEmpty = true
  · rw [if_pos free, if_pos free]
    exact ⟨_, rfl, rfl⟩
  rw [if_neg free, if_neg free]
  apply exists_findings
  intro clean
  have fits := List.append_eq_nil_iff.mp clean
  obtain ⟨expected, wanted, listed, left⟩ :=
    exists_dispatchAll ((malformedFindings_eq_nil_iff _ countBefore before).mp fits.1)
  obtain ⟨actual, found, also, right⟩ :=
    exists_dispatchAll ((malformedFindings_eq_nil_iff _ countBefore after).mp fits.2)
  rw [wanted, found]
  refine ⟨mismatches expected.toList actual.toList, ?_, rfl⟩
  rw [listed, also]
  exact mismatchesAt?_body left right

/-- Dispatch lists are computed only once the traps are known to fit and the table is known to
have its form. -/
theorem checkTable?_eq (answers : rule.AnswersInside count) (traps : List (Trap ε))
    (table : Table ε) :
    ∃ findings, checkTable? rule count traps table = some findings ∧
      checkTable rule.total count traps table = some findings := by
  rw [checkTable?, checkTable]
  by_cases lengths : count ≠ table.count
  · rw [if_pos lengths, if_pos lengths]
    exact ⟨_, rfl, rfl⟩
  have formed : checkStructure? rule table = some (checkStructure rule.total table) :=
    checkStructure?_eq (not_not.mp lengths ▸ answers)
  rw [if_neg lengths, if_neg lengths, formed]
  apply exists_findings
  intro clean
  have fits := (List.append_eq_nil_iff.mp clean).1
  obtain ⟨expected, wanted, listed, left⟩ :=
    exists_dispatchAll ((malformedFindings_eq_nil_iff _ count traps).mp fits)
  rw [wanted]
  refine ⟨mismatches expected.toList ((upFrom 0 count.toNat).map table.dispatchAt), ?_, ?_⟩
  · rw [listed]
    exact mismatchesAt?_body left fun p _ => rfl
  · rw [Span.take_body]
    rfl

end DisjointTraps.Guarded
