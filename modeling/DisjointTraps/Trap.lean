set_option autoImplicit false

namespace DisjointTraps

/-- An instruction is named by the number of instructions before it. A body holds fewer than
`2 ^ 32` instructions, so this fits, and so does the position of the body's end. -/
abbrev Position := UInt32

def Position.digits (p : Position) : String := p.toNat.repr

/-- A position as messages name it, such as `i7`. -/
def Position.name (p : Position) : String := "i" ++ Position.digits p

def bracketed (items : List String) : String := "[" ++ String.intercalate ", " items ++ "]"

/-- The positions from `first` on that lie before `limit`; none if `limit ≤ first`. -/
structure Span where
  first : Position
  limit : Position
deriving DecidableEq

namespace Span

instance : Membership Position Span where
  mem span p := span.first ≤ p ∧ p < span.limit

@[grind =] theorem mem_iff {span : Span} {p : Position} :
    p ∈ span ↔ span.first ≤ p ∧ p < span.limit :=
  Iff.rfl

theorem first_mem {span : Span} (nonempty : span.first < span.limit) : span.first ∈ span :=
  ⟨UInt32.le_refl _, nonempty⟩

theorem last_mem {span : Span} (nonempty : span.first < span.limit) : span.limit - 1 ∈ span :=
  ⟨by grind, by grind⟩

instance (p : Position) (span : Span) : Decidable (p ∈ span) :=
  inferInstanceAs (Decidable (span.first ≤ p ∧ p < span.limit))

/-- A span is empty if it ends where it begins, and also if its ends are the wrong way round. -/
def isEmpty (span : Span) : Bool := decide (span.limit ≤ span.first)

def length (span : Span) : Nat := span.limit.toNat - span.first.toNat

/-- The lowest `count` positions of a span, or all of them if there are fewer. -/
def take (count : Nat) (span : Span) : List Position :=
  (List.range (min count span.length)).map fun n => span.first + UInt32.ofNat n

/-- A span as messages show it, such as `[2, 5)`. -/
def text (span : Span) : String :=
  "[" ++ Position.digits span.first ++ ", " ++ Position.digits span.limit ++ ")"

end Span

/-- The positions that no block may begin or end at, because the instructions on both sides of
them have to stay together. -/
abbrev BoundaryRule := Position → Bool

namespace BoundaryRule

def free : BoundaryRule := fun _ => false

def fixed : BoundaryRule := fun _ => true

def ofList (positions : List Position) : BoundaryRule := fun p => positions.contains p

/-- Whether a rule forbids a boundary at `p` in a body of `count` instructions. A rule has no say
about the body's start and end, or past them. -/
def forbids (rule : BoundaryRule) (count p : Position) : Bool :=
  decide (0 < p) && decide (p < count) && rule p

end BoundaryRule

/-- One value of type `α` for each instruction, in order. -/
structure InstMap (α : Type) where
  entries : Array α
deriving DecidableEq

namespace InstMap

variable {α : Type}

def filled (count : Position) (value : α) : InstMap α := ⟨Array.replicate count.toNat value⟩

def ofList (values : List α) : InstMap α := ⟨values.toArray⟩

def toList (map : InstMap α) : List α := map.entries.toList

def size (map : InstMap α) : Nat := map.entries.size

def isEmpty (map : InstMap α) : Bool := map.entries.isEmpty

def push (map : InstMap α) (value : α) : InstMap α := ⟨map.entries.push value⟩

/-- The value at `p`; none past the last instruction. -/
def get? (map : InstMap α) (p : Position) : Option α := map.entries[p.toNat]?

/-- The map with the value at `p` changed by `change`; none past the last instruction. -/
def modify? (map : InstMap α) (p : Position) (change : α → α) : Option (InstMap α) :=
  if p.toNat < map.entries.size then some ⟨map.entries.modify p.toNat change⟩ else none

def set? (map : InstMap α) (p : Position) (value : α) : Option (InstMap α) :=
  map.modify? p fun _ => value

/-- The `count` entries from `p` on, each changed by `change`; none as soon as one of them lies
past the last instruction. -/
def modifyFrom? (map : InstMap α) (p : Position) (change : α → α) : Nat → Option (InstMap α)
  | 0 => some map
  | count + 1 => (map.modify? p change).bind fun changed => changed.modifyFrom? (p + 1) change count

def modifySpan? (map : InstMap α) (span : Span) (change : α → α) : Option (InstMap α) :=
  map.modifyFrom? span.first change span.length

end InstMap

/-- One entry of a dispatch list: exceptions of type `exception` go to the instruction `target`. -/
structure Handler (ε : Type) where
  exception : ε
  target : Position
deriving DecidableEq

/-- A declared trap: the handler applies to exceptions thrown inside the span, unless a trap
declared earlier catches the same type there. -/
structure Trap (ε : Type) where
  span : Span
  handler : Handler ε
deriving DecidableEq

variable {ε : Type}

/-- A body of `count` instructions can hold a trap that covers at least one instruction, reaches
no further than the body's end, and has its handler inside the body. -/
def Trap.WellFormed (count : Position) (trap : Trap ε) : Prop :=
  trap.span.first < trap.span.limit ∧ trap.span.limit ≤ count ∧ trap.handler.target < count

instance (count : Position) (trap : Trap ε) : Decidable (trap.WellFormed count) :=
  inferInstanceAs (Decidable
    (trap.span.first < trap.span.limit ∧ trap.span.limit ≤ count ∧ trap.handler.target < count))

/-- A trap with its place in the list of declared traps, which is also its priority: the lowest
index wins. -/
structure Declared (ε : Type) where
  index : Nat
  trap : Trap ε
deriving DecidableEq

def declared (traps : List (Trap ε)) : List (Declared ε) :=
  traps.zipIdx.map fun (trap, index) => ⟨index, trap⟩

def malformed (count : Position) (traps : List (Trap ε)) : List (Declared ε) :=
  (declared traps).filter fun d => ¬ d.trap.WellFormed count

def Handler.text [ToString ε] (handler : Handler ε) : String :=
  "Handler \x7b exception: " ++ toString handler.exception ++ ", target: " ++
    Position.name handler.target ++ " \x7d"

/-- The handlers in effect at an instruction, by falling priority, one for each exception type. -/
abbrev Dispatch (ε : Type) := List (Handler ε)

def Dispatch.text [ToString ε] (list : Dispatch ε) : String :=
  bracketed (list.map Handler.text)

variable [DecidableEq ε]

/-- The list with `handler` at its end, unless it already catches that exception type. -/
def Dispatch.add (list : Dispatch ε) (handler : Handler ε) : Dispatch ε :=
  if list.any (·.exception = handler.exception) then list else list ++ [handler]

/-- The dispatch list of handlers that all apply, given by falling priority. -/
def firstMatch (handlers : List (Handler ε)) : Dispatch ε := handlers.foldl Dispatch.add []

def dispatchAt (traps : List (Trap ε)) (p : Position) : Dispatch ε :=
  firstMatch ((traps.filter fun trap => p ∈ trap.span).map (·.handler))

/-- The dispatch lists of the first `count` instructions. Each trap is visited once, in declaration
order, and added to the list of each instruction it covers; none if a trap covers an instruction
past the last one. -/
def dispatchAll (count : Position) (traps : List (Trap ε)) : Option (InstMap (Dispatch ε)) :=
  traps.foldlM
    (fun lists trap => lists.modifySpan? trap.span (Dispatch.add · trap.handler))
    (InstMap.filled count [])

end DisjointTraps
