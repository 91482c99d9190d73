import DisjointTraps.Body

set_option autoImplicit false

namespace DisjointTraps.Samples

def trap (first limit : Position) (exception : UInt32) (target : Position) : Trap ExceptionType :=
  ⟨⟨first, limit⟩, ⟨⟨exception⟩, target⟩⟩

def single : Body where
  name := "single"
  insts := [.nop, .invoke, .moveResult, .nop, .invoke, .ret, .nop, .nop, .nop,
    .moveException, .throw]
  exceptionNames := ["TypeA"]
  traps := [trap 0 5 0 9]

/-- Two overlapping traps for one type. The first keeps the instructions that both cover, and the
second begins where no block may. -/
def overlapSameType : Body where
  name := "overlap_same_type"
  insts := [.nop, .invoke, .moveResult, .nop, .invoke, .nop, .ret, .nop,
    .moveException, .throw, .moveException, .throw]
  exceptionNames := ["TypeA"]
  traps := [trap 0 4 0 8, trap 2 6 0 10]

/-- The forbidden position lies strictly inside the trap. -/
def illegalInside : Body where
  name := "illegal_inside"
  insts := [.nop, .invoke, .moveResult, .ret, .moveException, .throw]
  exceptionNames := ["TypeA"]
  traps := [trap 1 3 0 4]

def noTraps : Body where
  name := "no_traps"
  insts := [.invoke, .moveResult, .ret]

def nested : Body where
  name := "nested"
  insts := [.nop, .invoke, .moveResult, .invoke, .moveResult, .nop, .goto 11,
    .moveException, .goto 11, .moveException, .throw, .ret]
  exceptionNames := ["java.io.IOException", "java.lang.Throwable"]
  traps := [trap 1 5 0 7, trap 0 7 1 9]

/-- A last resort for all types, which protects the handler of another trap too. -/
def lastResort : Body where
  name := "finally"
  insts := [.invoke, .moveResult, .invoke, .goto 11, .nop, .nop, .moveException, .invoke,
    .goto 11, .moveException, .throw, .ret]
  exceptionNames := ["java.io.IOException", "java.lang.Throwable"]
  traps := [trap 0 3 0 6, trap 0 3 1 9, trap 6 8 1 9]

/-- A trap that never applies, and a second type beside it. -/
def shadowed : Body where
  name := "shadowed"
  insts := [.nop, .invoke, .nop, .nop, .invoke, .nop, .ret, .moveException, .throw,
    .moveException, .throw]
  exceptionNames := ["TypeA", "TypeB"]
  traps := [trap 0 6 0 7, trap 2 4 0 9, trap 2 4 1 9]

def multiType : Body where
  name := "multi_type"
  insts := [.invoke, .moveResult, .nop, .invoke, .nop, .nop, .invoke, .moveResult, .nop, .ret,
    .moveException, .throw, .moveException, .throw, .moveException, .throw]
  exceptionNames := ["TypeA", "TypeB", "TypeC"]
  traps := [trap 0 6 0 10, trap 2 8 1 12, trap 4 10 0 14, trap 4 10 2 10]

/-- A call whose result is taken up, with a handler after the end. -/
def callWithResult : List Inst :=
  [.nop, .invoke, .moveResult, .nop, .ret, .nop, .moveException, .throw]

/-- Two traps meet between a call and its result, and agree. -/
def splitAtMoveResult : Body where
  name := "split_at_move_result"
  insts := callWithResult
  exceptionNames := ["TypeA"]
  traps := [trap 0 2 0 6, trap 2 4 0 6]

/-- Two traps meet between a call and its result, and do not agree. -/
def illegalSplit : Body where
  name := "illegal_split"
  insts := callWithResult
  exceptionNames := ["TypeA", "TypeB"]
  traps := [trap 0 2 0 6, trap 2 4 1 6]

/-- A trap ends between a call and its result. -/
def illegalGap : Body where
  name := "illegal_gap"
  insts := callWithResult
  exceptionNames := ["TypeA"]
  traps := [trap 0 2 0 6]

def all : List Body :=
  [single, overlapSameType, illegalInside, noTraps, nested, lastResort, shadowed, multiType,
    splitAtMoveResult, illegalSplit, illegalGap]

end DisjointTraps.Samples
