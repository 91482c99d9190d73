import DisjointTraps.Table

set_option autoImplicit false

namespace DisjointTraps

variable {ε : Type}

inductive Side where
  | before
  | after
deriving DecidableEq

def Side.text : Side → String
  | .before => "Before"
  | .after => "After"

/-- One thing that a check found wrong. -/
inductive Finding (ε : Type) where
  /-- The bodies have different numbers of instructions, so their dispatch cannot be compared. -/
  | lengthsDiffer (before after : Position)
  /-- A trap does not fit into its body. -/
  | malformedTrap (side : Side) (index : Nat)
  /-- An instruction's dispatch list is not the one it should have. -/
  | mismatch (p : Position) (expected actual : Dispatch ε)
  | emptyBlock (span : Span)
  | outOfBody (span : Span) (count : Position)
  | noHandlers (span : Span)
  /-- A dispatch list has a second entry for an exception type. -/
  | repeatedException (span : Span) (exception : ε)
  /-- The first block does not end before the second begins. -/
  | overlap (first second : Span)
  /-- A block begins or ends where the boundary rule forbids it. -/
  | forbiddenBoundary (p : Position)
  /-- Two blocks that touch and have equal dispatch lists should be one. -/
  | notCoalesced (first second : Span)
deriving DecidableEq

def Finding.message [ToString ε] : Finding ε → String
  | .lengthsDiffer before after =>
      "bodies differ in length: " ++ Position.digits before ++ " instructions before, " ++
        Position.digits after ++ " after"
  | .malformedTrap side index => side.text ++ ": trap t" ++ index.repr ++ " is malformed"
  | .mismatch p expected actual =>
      "at " ++ Position.name p ++ ": expected handlers " ++ Dispatch.text expected ++
        ", found " ++ Dispatch.text actual
  | .emptyBlock span => "trap range " ++ span.text ++ " is empty"
  | .outOfBody span count =>
      "trap range " ++ span.text ++ " runs past the end of the body (" ++
        Position.digits count ++ " instructions)"
  | .noHandlers span => "trap range " ++ span.text ++ " has no handlers"
  | .repeatedException span exception =>
      "trap range " ++ span.text ++ " lists " ++ toString exception ++ " more than once"
  | .overlap first second =>
      "trap ranges " ++ first.text ++ " and " ++ second.text ++ " overlap or are out of order"
  | .forbiddenBoundary p => "trap range boundary at illegal position " ++ Position.name p
  | .notCoalesced first second =>
      "trap ranges " ++ first.text ++ " and " ++ second.text ++ " touch and have equal handlers"

def Finding.report [ToString ε] (findings : List (Finding ε)) : String :=
  findings.length.repr ++ " error(s)" ++
    String.join (findings.map fun finding => "\n  " ++ finding.message)

/-- Why a body cannot be split. -/
inductive SplitError (ε : Type) where
  /-- The trap with this index, of this span and target, does not fit into the body. -/
  | malformedTrap (index : Nat) (span : Span) (target : Position) (count : Position)
  /-- The dispatch list changes at `p`, where no block may begin or end. -/
  | illegalSplit (p : Position) (before after : Dispatch ε)
  /-- The check of the finished table found something wrong. -/
  | rejected (findings : List (Finding ε))
  /-- An instruction past the last one was asked for. -/
  | outOfRange
deriving DecidableEq

def SplitError.message [ToString ε] : SplitError ε → String
  | .malformedTrap index span target count =>
      "trap t" ++ index.repr ++ " is malformed: [" ++ Position.name span.first ++ ", " ++
        Position.name span.limit ++ ") -> " ++ Position.name target ++ " in a body of " ++
        Position.digits count ++ " instructions"
  | .illegalSplit p before after =>
      "cannot split trap ranges at " ++ Position.name p ++ ": handlers " ++
        Dispatch.text before ++ " before it, " ++ Dispatch.text after ++ " from it on"
  | .rejected findings => "checker failed: " ++ Finding.report findings
  | .outOfRange => "an instruction past the end of the body was asked for"

variable [DecidableEq ε]

def malformedFindings (side : Side) (count : Position) (traps : List (Trap ε)) :
    List (Finding ε) :=
  (malformed count traps).map fun d => .malformedTrap side d.index

def mismatches (expected actual : List (Dispatch ε)) : List (Finding ε) :=
  (expected.zip actual).zipIdx.filterMap fun ((wanted, found), index) =>
    if wanted = found then none else some (.mismatch (UInt32.ofNat index) wanted found)

/-- Whether the traps `after` give each instruction the dispatch list that `before` gives it.
A body without traps may be given any. None if a dispatch list cannot be computed. -/
def compareTraps (countBefore : Position) (before : List (Trap ε)) (countAfter : Position)
    (after : List (Trap ε)) : Option (List (Finding ε)) :=
  if countBefore ≠ countAfter then some [.lengthsDiffer countBefore countAfter]
  else if before.isEmpty then some []
  else
    let bad := malformedFindings .before countBefore before ++
      malformedFindings .after countBefore after
    if !bad.isEmpty then some bad
    else do
      let expected ← dispatchAll countBefore before
      let actual ← dispatchAll countBefore after
      return mismatches expected.toList actual.toList

/-- The second and later entries of a list for an exception type that an earlier one catches. -/
def repeatedExceptions (seen : List ε) : Dispatch ε → List ε
  | [] => []
  | handler :: rest =>
      let later := repeatedExceptions (handler.exception :: seen) rest
      if handler.exception ∈ seen then handler.exception :: later else later

def blockFindings (count : Position) (block : TryBlock ε) : List (Finding ε) :=
  (if block.span.isEmpty then [.emptyBlock block.span] else []) ++
  (if count < block.span.limit then [.outOfBody block.span count] else []) ++
  (if block.handlers.isEmpty then [.noHandlers block.span] else []) ++
  (repeatedExceptions [] block.handlers).map (.repeatedException block.span)

/-- The forbidden ones among some boundaries, and the one reported last. A boundary that was
reported last is not reported again, so that two blocks meeting there report it once. -/
def boundaryFindings (rule : BoundaryRule) (count : Position) (last : Option Position) :
    List Position → List (Finding ε) × Option Position
  | [] => ([], last)
  | p :: rest =>
      if last ≠ some p ∧ rule.forbids count p then
        let later := boundaryFindings rule count (some p) rest
        (.forbiddenBoundary p :: later.1, later.2)
      else boundaryFindings rule count last rest

def neighbourFindings (previous : Option (TryBlock ε)) (block : TryBlock ε) : List (Finding ε) :=
  match previous with
  | none => []
  | some earlier =>
      if block.span.first < earlier.span.limit then [.overlap earlier.span block.span]
      else if earlier.Joins block then [.notCoalesced earlier.span block.span]
      else []

/-- What is wrong with blocks that follow `previous`, with `last` as the boundary reported last. -/
def structureFrom (rule : BoundaryRule) (count : Position) (previous : Option (TryBlock ε))
    (last : Option Position) : List (TryBlock ε) → List (Finding ε)
  | [] => []
  | block :: rest =>
      let (forbidden, reported) :=
        boundaryFindings rule count last [block.span.first, block.span.limit]
      blockFindings count block ++ forbidden ++ neighbourFindings previous block ++
        structureFrom rule count (some block) reported rest

/-- Whether a table has the form of a finished one: blocks that are not empty, inside the body,
in order and apart, dispatch lists that are not empty and have one entry for each type, no
forbidden boundary, and no touching blocks with equal lists. -/
def checkStructure (rule : BoundaryRule) (table : Table ε) : List (Finding ε) :=
  structureFrom rule table.count none none table.blocks

/-- Whether a table is a split of these traps: it has the form of a finished one and gives each
instruction its dispatch list. None if a dispatch list cannot be computed. -/
def checkTable (rule : BoundaryRule) (count : Position) (traps : List (Trap ε))
    (table : Table ε) : Option (List (Finding ε)) :=
  if count ≠ table.count then some [.lengthsDiffer count table.count]
  else
    let bad := malformedFindings .before count traps ++ checkStructure rule table
    if !bad.isEmpty then some bad
    else do
      let expected ← dispatchAll count traps
      let positions := (Span.mk 0 count).take count.toNat
      return mismatches expected.toList (positions.map table.dispatchAt)

end DisjointTraps
