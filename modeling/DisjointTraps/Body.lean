import DisjointTraps.Split

set_option autoImplicit false

namespace DisjointTraps

inductive Inst where
  | nop
  /-- A call. Its result is taken up by the instruction right after it, if at all. -/
  | invoke
  /-- Takes up the result of the call before it. -/
  | moveResult
  /-- The usual first instruction of a handler. -/
  | moveException
  | throw
  | goto (target : Position)
  | ret
deriving DecidableEq

namespace Inst

/-- Control does not pass on to the instruction after a terminator. -/
def isTerminator : Inst → Bool
  | throw | goto _ | ret => true
  | _ => false

def mnemonic : Inst → String
  | nop => "nop"
  | invoke => "invoke"
  | moveResult => "move-result"
  | moveException => "move-exception"
  | throw => "throw"
  | goto _ => "goto"
  | ret => "return"

def plain : List Inst := [nop, invoke, moveResult, moveException, throw, ret]

def ofMnemonic? (word : String) : Option Inst := plain.find? (·.mnemonic = word)

def text : Inst → String
  | nop => "Nop"
  | invoke => "Invoke"
  | moveResult => "MoveResult"
  | moveException => "MoveException"
  | throw => "Throw"
  | goto target => "Goto \x7b target: " ++ Position.name target ++ " \x7d"
  | ret => "Return"

end Inst

/-- A method body. The traps are in declaration order, and an exception type is known by the place
of its name among the names. -/
structure Body where
  name : String
  insts : List Inst := []
  exceptionNames : List String := []
  traps : List (Trap ExceptionType) := []
deriving DecidableEq

namespace Body

def count (body : Body) : Position := UInt32.ofNat body.insts.length

def lookup? (body : Body) (name : String) : Option ExceptionType :=
  typeOf? body.exceptionNames name

/-- The body with this name among its exception names, and the exception type of the name. -/
def intern (body : Body) (name : String) : Body × ExceptionType :=
  ({ body with exceptionNames := addName body.exceptionNames name },
    typeOf body.exceptionNames name)

/-- The name of an exception type, or a stand-in for a number without a name. -/
def exceptionName (body : Body) (exception : ExceptionType) : String :=
  (nameOf? body.exceptionNames exception).getD "<unknown>"

def push (body : Body) (inst : Inst) : Body := { body with insts := body.insts ++ [inst] }

def pushAll (body : Body) (insts : List Inst) : Body := { body with insts := body.insts ++ insts }

/-- Declares a trap after all others, so with the lowest priority. -/
def declare (body : Body) (trap : Trap ExceptionType) : Body :=
  { body with traps := body.traps ++ [trap] }

/-- Whether the instruction at `p` is a terminator; none past the last one. -/
def terminates? (body : Body) (p : Position) : Option Bool :=
  body.insts[p.toNat]?.map Inst.isTerminator

/-- A call and the instruction that takes up its result have to stay in one block. -/
def rule (body : Body) : BoundaryRule := fun p =>
  decide (0 < p) && decide (p < body.count) &&
    decide (body.insts[p.toNat]? = some .moveResult) &&
    decide (body.insts[p.toNat - 1]? = some .invoke)

/-- The split of the declared traps under the body's own boundary rule. -/
def split (options : SplitOptions) (body : Body) :
    Except (SplitError ExceptionType) (Table ExceptionType) :=
  DisjointTraps.split body.rule options body.count body.traps

/-- The body with the traps of a table in place of the declared ones; none if the table is for
another number of instructions. -/
def install? (table : Table ExceptionType) (body : Body) : Option Body :=
  if table.count = body.count then some { body with traps := table.toTraps } else none

/-- Whether `after` gives each instruction the dispatch list that `before` gives it. -/
def compare (before after : Body) : Option (List (Finding ExceptionType)) :=
  compareTraps before.count before.traps after.count after.traps

end Body

inductive BodyFault where
  | noInstructions (name : String)
  | fallsOff (last : Inst)
  | gotoOutside (index : Nat)
  | strayMoveResult (index : Nat)
  | trapSpan (index : Nat) (span : Span)
  | handlerOutside (index : Nat)
  | undeclaredException (index : Nat)
deriving DecidableEq

def BodyFault.message : BodyFault → String
  | noInstructions name => "body " ++ name ++ " is empty"
  | fallsOff last => "final inst " ++ last.text ++ " must be a terminator"
  | gotoOutside index => "goto at i" ++ index.repr ++ " jumps outside the body"
  | strayMoveResult index => "move-result at i" ++ index.repr ++ " doesn't follow an invoke"
  | trapSpan index span => "trap " ++ index.repr ++ " covers invalid range " ++ span.text
  | handlerOutside index => "trap " ++ index.repr ++ " has its handler outside the body"
  | undeclaredException index => "trap " ++ index.repr ++ " has an undeclared exception type"

def Inst.fault? (count : Position) (previous : Option Inst) (inst : Inst) (index : Nat) :
    Option BodyFault :=
  match inst with
  | .goto target => if target < count then none else some (.gotoOutside index)
  | .moveResult => if previous = some .invoke then none else some (.strayMoveResult index)
  | _ => none

namespace Body

def lastFault? (body : Body) : Option BodyFault :=
  match body.insts.getLast? with
  | none => some (.noInstructions body.name)
  | some last => if last.isTerminator then none else some (.fallsOff last)

def instFault? (body : Body) : Option BodyFault :=
  ((none :: body.insts.map some).zip body.insts).zipIdx.findSome? fun ((previous, inst), index) =>
    inst.fault? body.count previous index

def trapFault? (body : Body) : Option BodyFault :=
  body.traps.zipIdx.findSome? fun (trap, index) =>
    if trap.span.isEmpty ∨ body.count < trap.span.limit then some (.trapSpan index trap.span)
    else if body.count ≤ trap.handler.target then some (.handlerOutside index)
    else if body.exceptionNames.length ≤ trap.handler.exception.number.toNat then
      some (.undeclaredException index)
    else none

/-- The first fault of a body: of its end, then of an instruction, then of a trap. -/
def fault? (body : Body) : Option BodyFault :=
  body.lastFault?.or (body.instFault?.or body.trapFault?)

def isValid (body : Body) : Bool := body.fault?.isNone

end Body

def Algorithm.name : Algorithm → String
  | .sweep => "sweep"
  | .instructionwise => "reference"

/-- How the two algorithms can fail to agree on a body. -/
inductive Disagreement where
  | tables (sweep instructionwise : Table ExceptionType)
  | errors (sweep instructionwise : SplitError ExceptionType)
  /-- Only this algorithm fails. -/
  | oneFails (algorithm : Algorithm) (error : SplitError ExceptionType)
  /-- The table of this algorithm gives some instruction another dispatch list. -/
  | dispatch (algorithm : Algorithm) (findings : List (Finding ExceptionType))
  /-- An instruction past the last one was asked for. -/
  | outOfRange
deriving DecidableEq

def Disagreement.message : Disagreement → String
  | tables sweep instructionwise =>
      "tables differ:\n  sweep:     " ++ bracketed (sweep.blocks.map TryBlock.text) ++
        "\n  reference: " ++ bracketed (instructionwise.blocks.map TryBlock.text)
  | errors sweep instructionwise =>
      "errors differ:\n  sweep:     " ++ sweep.message ++
        "\n  reference: " ++ instructionwise.message
  | oneFails algorithm error => "only the " ++ algorithm.name ++ " failed: " ++ error.message
  | dispatch algorithm findings =>
      algorithm.name ++ " result is not equivalent: " ++ Finding.report findings
  | outOfRange => "an instruction past the end of the body was asked for"

namespace Body

def checkDispatch (body : Body) (table : Table ExceptionType) :
    Option (List (Finding ExceptionType)) := do
  let after ← body.install? table
  body.compare after

def requireDispatch (body : Body) (algorithm : Algorithm) (table : Table ExceptionType) :
    Except Disagreement Unit :=
  match body.checkDispatch table with
  | none => .error .outOfRange
  | some [] => .ok ()
  | some findings => .error (.dispatch algorithm findings)

/-- Splits a body with both algorithms, each with its table checked. They agree if they make the
same table, which is then returned, or fail with the same error. -/
def crossCheck (body : Body) : Except Disagreement (Option (Table ExceptionType)) :=
  match body.split ⟨.sweep, true⟩, body.split ⟨.instructionwise, true⟩ with
  | .ok sweep, .ok instructionwise =>
      if sweep = instructionwise then do
        body.requireDispatch .sweep sweep
        body.requireDispatch .instructionwise instructionwise
        return some sweep
      else .error (.tables sweep instructionwise)
  | .error sweep, .error instructionwise =>
      if sweep = instructionwise then .ok none else .error (.errors sweep instructionwise)
  | .ok _, .error error => .error (.oneFails .instructionwise error)
  | .error error, .ok _ => .error (.oneFails .sweep error)

end Body

def padTo (width : Nat) (text : String) : String :=
  text ++ String.ofList (List.replicate (width - text.length) ' ')

/-- What is written for an instruction, padded so that the comments after it form a column. -/
def Inst.column : Inst → String
  | .goto target => "goto " ++ padTo 16 (Position.digits target)
  | inst => padTo 21 inst.mnemonic

def Inst.line (inst : Inst) (index : Nat) : String :=
  "  " ++ inst.column ++ "; i" ++ index.repr ++ "\n"

namespace Body

def trapLine (body : Body) (trap : Trap ExceptionType) : String :=
  "trap " ++ Position.digits trap.span.first ++ " " ++ Position.digits trap.span.limit ++ " " ++
    body.exceptionName trap.handler.exception ++ " " ++ Position.digits trap.handler.target ++ "\n"

/-- The written form of a body, with `title` and the body's name in the header. -/
def render (title : String) (body : Body) : String :=
  "; " ++ title ++ ": " ++ body.name ++ "\n" ++
    String.join (body.exceptionNames.map fun name => "exception " ++ name ++ "\n") ++
    String.join (body.insts.zipIdx.map fun (inst, index) => inst.line index) ++
    String.join (body.traps.map body.trapLine)

end Body

end DisjointTraps
