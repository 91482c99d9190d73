import DisjointTraps.Body

set_option autoImplicit false

namespace DisjointTraps

abbrev Choice (α : Type) := StateM (List UInt8) α

namespace Choice

/-- The next byte, or zero if none is left. -/
def byte : Choice Nat := fun bytes =>
  match bytes with
  | [] => (0, [])
  | next :: rest => (next.toNat, rest)

/-- A number from `low` to `high`, both included. No byte is used if there is only one. -/
def between (low high : Nat) : Choice Nat := do
  if low = high then return low
  else return low + (← byte) % (high - low + 1)

def flag : Choice Bool := return (← byte) % 2 = 1

end Choice

namespace Generator

def maxInsts : Nat := 48

def maxTraps : Nat := 10

def maxExceptions : Nat := 4

def position (count : Nat) : Choice Position := return UInt32.ofNat (← Choice.between 0 (count - 1))

/-- An instruction in a body of `count` instructions, a call for two of six choices. -/
def inst (count : Nat) : Choice Inst := do
  match ← Choice.between 0 5 with
  | 0 | 1 => return .invoke
  | 2 => return .moveException
  | 3 => return .goto (← position count)
  | 4 => return .throw
  | _ => return .nop

/-- Fills `room` places of a body of `count` instructions. If there is room after a call, its
result may be taken up. -/
def insts (count : Nat) : (room : Nat) → Choice (List Inst)
  | 0 => return []
  | room + 1 => do
      let next ← inst count
      let taken ← if next = .invoke ∧ 0 < room then Choice.flag else pure false
      if taken then return next :: .moveResult :: (← insts count (room - 1))
      else return next :: (← insts count room)
termination_by room => room
decreasing_by all_goals omega

def trap (count exceptions : Nat) : Choice (Trap ExceptionType) := do
  let first ← Choice.between 0 (count - 1)
  let limit ← Choice.between (first + 1) count
  let exception ← Choice.between 0 (exceptions - 1)
  let target ← position count
  return ⟨⟨UInt32.ofNat first, UInt32.ofNat limit⟩, ⟨.ofIndex exception, target⟩⟩

def traps (count exceptions : Nat) : (number : Nat) → Choice (List (Trap ExceptionType))
  | 0 => return []
  | number + 1 => return (← trap count exceptions) :: (← traps count exceptions number)

def body : Choice Body := do
  let count ← Choice.between 2 maxInsts
  let exceptions ← Choice.between 1 maxExceptions
  let chosen ← insts count (count - 1)
  let number ← Choice.between 0 maxTraps
  let declared ← traps count exceptions number
  return {
    name := "fuzz"
    insts := chosen ++ [.ret]
    exceptionNames := (List.range exceptions).map fun n => "E" ++ n.repr
    traps := declared }

end Generator

/-- The body that some bytes make, and the bytes that were not needed. -/
def Body.ofBytes (bytes : List UInt8) : Body × List UInt8 := Generator.body bytes

end DisjointTraps
