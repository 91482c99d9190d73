import DisjointTraps.Audit

set_option autoImplicit false

namespace DisjointTraps

variable {ε : Type}

/-- The list without the repetitions of an element that directly follow it. On a sorted list
each element is left once. -/
def withoutRepeats : List Position → List Position
  | p :: q :: rest =>
      if p = q then withoutRepeats (q :: rest) else p :: withoutRepeats (q :: rest)
  | short => short

/-- Each trap twice, once by where it begins and once by where it ends, with all these positions
in increasing order. Traps that share a position stand in declaration order. -/
structure Timeline (ε : Type) where
  boundaries : List Position
  opens : List (Declared ε)
  closes : List (Declared ε)

namespace Timeline

/-- Sorting is stable, so traps with equal positions keep their declaration order. -/
def ofTraps (traps : List (Trap ε)) : Timeline ε :=
  let opens := (declared traps).mergeSort fun d e => d.trap.span.first ≤ e.trap.span.first
  let closes := (declared traps).mergeSort fun d e => d.trap.span.limit ≤ e.trap.span.limit
  let ends := opens.map (·.trap.span.first) ++ closes.map (·.trap.span.limit)
  ⟨withoutRepeats (ends.mergeSort fun p q => p ≤ q), opens, closes⟩

def isEmpty (timeline : Timeline ε) : Bool := timeline.boundaries.isEmpty

end Timeline

/-- The covering traps in declaration order, and the boundaries not reached yet. -/
structure Coverage (ε : Type) where
  active : List (Declared ε)
  opens : List (Declared ε)
  closes : List (Declared ε)

namespace Coverage

def insert (entry : Declared ε) : List (Declared ε) → List (Declared ε)
  | [] => [entry]
  | first :: rest =>
      if entry.index ≤ first.index then entry :: first :: rest else first :: insert entry rest

def remove (entry : Declared ε) (active : List (Declared ε)) : List (Declared ε) :=
  active.eraseP fun other => other.index = entry.index

def start (timeline : Timeline ε) : Coverage ε := ⟨[], timeline.opens, timeline.closes⟩

/-- Passes all boundaries up to `p`: first the traps that end there leave, then those that begin
there enter. -/
def reach (p : Position) (coverage : Coverage ε) : Coverage ε :=
  let ends := fun (d : Declared ε) => decide (d.trap.span.limit ≤ p)
  let begins := fun (d : Declared ε) => decide (d.trap.span.first ≤ p)
  let left := (coverage.closes.takeWhile ends).foldl (fun active d => remove d active)
    coverage.active
  ⟨(coverage.opens.takeWhile begins).foldl (fun active d => insert d active) left,
    coverage.opens.dropWhile begins, coverage.closes.dropWhile ends⟩

end Coverage

section Pieces

variable [DecidableEq ε]

/-- The pieces between neighbours of the list, without those that no trap covers. -/
def piecesFrom : List Position → Coverage ε → List (TryBlock ε)
  | first :: limit :: rest, coverage =>
      let here := coverage.reach first
      let later := piecesFrom (limit :: rest) here
      if here.active.isEmpty then later
      else ⟨⟨first, limit⟩, firstMatch (here.active.map (·.trap.handler))⟩ :: later
  | _, _ => []

/-- The pieces of a body along the timeline of its traps. Neighbouring pieces may have equal
dispatch lists, and their ends take no notice of any boundary rule. -/
def Timeline.pieces (timeline : Timeline ε) : List (TryBlock ε) :=
  piecesFrom timeline.boundaries (Coverage.start timeline)

end Pieces

/-- Nothing is wrong with a change of the dispatch list where a boundary is allowed. -/
def requireAllowed (rule : BoundaryRule) (count p : Position) (before after : Dispatch ε) :
    Except (SplitError ε) Unit :=
  if rule.forbids count p then .error (.illegalSplit p before after) else .ok ()

variable [DecidableEq ε]

/-- The rest of a legal placement, where `current` is the block that may still absorb the
following ones. -/
def legalizeFrom (rule : BoundaryRule) (count : Position) (current : TryBlock ε) :
    List (TryBlock ε) → Except (SplitError ε) (List (TryBlock ε))
  | [] => do
      requireAllowed rule count current.span.limit current.handlers []
      return [current]
  | next :: rest =>
      if current.span.limit = next.span.first then
        if rule.forbids count next.span.first then
          if current.handlers = next.handlers then
            legalizeFrom rule count (current.extend next.span.limit) rest
          else .error (.illegalSplit next.span.first current.handlers next.handlers)
        else do
          let later ← legalizeFrom rule count next rest
          return current :: later
      else do
        -- A gap: the dispatch list changes on both of its sides.
        requireAllowed rule count current.span.limit current.handlers []
        requireAllowed rule count next.span.first [] next.handlers
        let later ← legalizeFrom rule count next rest
        return current :: later

/-- Blocks with the dispatch of the given ones and no boundary where the rule forbids it, or the
first change of the dispatch list that makes this impossible. -/
def legalize (rule : BoundaryRule) (count : Position) :
    List (TryBlock ε) → Except (SplitError ε) (List (TryBlock ε))
  | [] => .ok []
  | first :: rest => do
      requireAllowed rule count first.span.first [] first.handlers
      legalizeFrom rule count first rest

/-- The rest of `coalesce`, where `current` is the block that may still grow. A grown block has the
list of all its parts, so what follows it joins it exactly if it would have joined its last part. -/
def coalesceFrom (current : TryBlock ε) : List (TryBlock ε) → List (TryBlock ε)
  | [] => [current]
  | next :: rest =>
      if current.Joins next then coalesceFrom (current.extend next.span.limit) rest
      else current :: coalesceFrom next rest

/-- The blocks with all neighbours merged that touch and have equal dispatch lists. -/
def coalesce : List (TryBlock ε) → List (TryBlock ε)
  | [] => []
  | first :: rest => coalesceFrom first rest

def isCoalesced : List (TryBlock ε) → Bool
  | block :: next :: rest => !decide (block.Joins next) && isCoalesced (next :: rest)
  | _ => true

/-- The lowest position with a forbidden change between neighbouring lists, where the second list
of the given ones stands at `p`. -/
def forbiddenChange? (rule : BoundaryRule) (count : Position) (p : Position) :
    List (Dispatch ε) → Option (SplitError ε)
  | before :: after :: rest =>
      if before ≠ after ∧ rule.forbids count p then some (.illegalSplit p before after)
      else forbiddenChange? rule count (p + 1) (after :: rest)
  | _ => none

def startRun (p : Position) (list : Dispatch ε) : Option (TryBlock ε) :=
  if list.isEmpty then none else some ⟨⟨p, p + 1⟩, list⟩

/-- The runs of equal lists from position `p` on, where `run` is the block that ends at `p`, if
there is one. -/
def runsFrom (run : Option (TryBlock ε)) (p : Position) : List (Dispatch ε) → List (TryBlock ε)
  | [] => run.toList
  | list :: rest =>
      match run with
      | none => runsFrom (startRun p list) (p + 1) rest
      | some block =>
          if block.handlers = list then runsFrom (some (block.extend (p + 1))) (p + 1) rest
          else block :: runsFrom (startRun p list) (p + 1) rest

/-- The longest runs of equal lists, without those of empty ones. -/
def runs (lists : List (Dispatch ε)) : List (TryBlock ε) := runsFrom none 0 lists

/-- The blocks of a body with these dispatch lists, unless a change between them is forbidden. -/
def blocksOfLists (rule : BoundaryRule) (count : Position) (lists : List (Dispatch ε)) :
    Except (SplitError ε) (List (TryBlock ε)) :=
  match forbiddenChange? rule count 1 lists with
  | some error => .error error
  | none => .ok (runs lists)

inductive Algorithm where
  /-- Going along the positions where traps begin and end. -/
  | sweep
  /-- Instruction by instruction. -/
  | instructionwise
deriving DecidableEq

structure SplitOptions where
  algorithm : Algorithm := .sweep
  /-- Check the table against the traps before it is returned. -/
  checked : Bool := false
deriving DecidableEq

/-- Refuses the first trap that does not fit into a body of `count` instructions. -/
def requireWellFormed (count : Position) (traps : List (Trap ε)) : Except (SplitError ε) Unit :=
  match (malformed count traps).head? with
  | some d => .error (.malformedTrap d.index d.trap.span d.trap.handler.target count)
  | none => .ok ()

/-- The split along the positions where traps begin and end. -/
def splitBySweep (rule : BoundaryRule) (count : Position) (traps : List (Trap ε)) :
    Except (SplitError ε) (Table ε) := do
  requireWellFormed count traps
  let blocks ← legalize rule count (Timeline.ofTraps traps).pieces
  return ⟨count, coalesce blocks⟩

/-- The split by the dispatch list of each single instruction. -/
def splitByInstruction (rule : BoundaryRule) (count : Position) (traps : List (Trap ε)) :
    Except (SplitError ε) (Table ε) := do
  requireWellFormed count traps
  match dispatchAll count traps with
  | none => .error .outOfRange
  | some lists =>
      let blocks ← blocksOfLists rule count lists.toList
      return ⟨count, blocks⟩

def requireChecked (rule : BoundaryRule) (count : Position) (traps : List (Trap ε))
    (table : Table ε) : Except (SplitError ε) (Table ε) :=
  match checkTable rule count traps table with
  | none => .error .outOfRange
  | some [] => .ok table
  | some findings => .error (.rejected findings)

/-- The split of the traps of a body of `count` instructions. -/
def split (rule : BoundaryRule) (options : SplitOptions) (count : Position)
    (traps : List (Trap ε)) : Except (SplitError ε) (Table ε) := do
  let table ← match options.algorithm with
    | .sweep => splitBySweep rule count traps
    | .instructionwise => splitByInstruction rule count traps
  if options.checked then requireChecked rule count traps table else return table

end DisjointTraps
