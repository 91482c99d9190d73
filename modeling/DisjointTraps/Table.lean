import DisjointTraps.Trap

set_option autoImplicit false

namespace DisjointTraps

/-- An exception type of a body, known by the number that its name has there. -/
structure ExceptionType where
  number : UInt32
deriving DecidableEq

instance : ToString ExceptionType where
  toString exception := "E" ++ exception.number.toNat.repr

def ExceptionType.ofIndex (index : Nat) : ExceptionType := ⟨UInt32.ofNat index⟩

def addName (names : List String) (name : String) : List String :=
  if name ∈ names then names else names ++ [name]

/-- The type that a name has, or will have once it is added. -/
def typeOf (names : List String) (name : String) : ExceptionType := .ofIndex (names.idxOf name)

def typeOf? (names : List String) (name : String) : Option ExceptionType :=
  if name ∈ names then some (typeOf names name) else none

def nameOf? (names : List String) (exception : ExceptionType) : Option String :=
  names[exception.number.toNat]?

/-- A span of instructions that all have the same dispatch list. -/
structure TryBlock (ε : Type) where
  span : Span
  handlers : Dispatch ε
deriving DecidableEq

variable {ε : Type}

def TryBlock.toTraps (block : TryBlock ε) : List (Trap ε) :=
  block.handlers.map fun handler => ⟨block.span, handler⟩

def TryBlock.extend (block : TryBlock ε) (limit : Position) : TryBlock ε :=
  ⟨⟨block.span.first, limit⟩, block.handlers⟩

/-- Two blocks that touch, in this order, and have equal dispatch lists. -/
def TryBlock.Joins (block next : TryBlock ε) : Prop :=
  block.span.limit = next.span.first ∧ block.handlers = next.handlers

instance [DecidableEq ε] (block next : TryBlock ε) : Decidable (block.Joins next) :=
  inferInstanceAs (Decidable (block.span.limit = next.span.first ∧ block.handlers = next.handlers))

def TryBlock.text [ToString ε] (block : TryBlock ε) : String :=
  "TrapRange \x7b range: " ++ block.span.text ++ ", handlers: " ++ Dispatch.text block.handlers ++
    " \x7d"

/-- The blocks of a body of `count` instructions. A table that splitting makes has them in order,
with a gap wherever no handler applies. -/
structure Table (ε : Type) where
  count : Position
  blocks : List (TryBlock ε)
deriving DecidableEq

namespace Table

def empty (count : Position) : Table ε := ⟨count, []⟩

def isEmpty (table : Table ε) : Bool := table.blocks.isEmpty

def size (table : Table ε) : Nat := table.blocks.length

/-- The block that contains `p`. The blocks are in order, so the first one that ends after `p` is
the only one that can. -/
def blockAt? (table : Table ε) (p : Position) : Option (TryBlock ε) :=
  (table.blocks.dropWhile fun block => block.span.limit ≤ p).head?.filter fun block =>
    p ∈ block.span

/-- The dispatch list that a table gives at `p`, which is empty in a gap. -/
def dispatchAt (table : Table ε) (p : Position) : Dispatch ε :=
  match table.blockAt? p with
  | some block => block.handlers
  | none => []

def toTraps (table : Table ε) : List (Trap ε) := table.blocks.flatMap TryBlock.toTraps

end Table

/-- The lowest `width` bytes of a number, lowest first. -/
def littleEndian : Nat → Nat → List UInt8
  | 0, _ => []
  | width + 1, value => UInt8.ofNat (value % 256) :: littleEndian width (value / 256)

/-- The number in the first `width` bytes, and the bytes after it; none if there are fewer. -/
def readLittleEndian? : Nat → List UInt8 → Option (Nat × List UInt8)
  | 0, bytes => some (0, bytes)
  | _ + 1, [] => none
  | width + 1, byte :: bytes =>
      (readLittleEndian? width bytes).map fun (high, rest) => (byte.toNat + 256 * high, rest)

def encodeWord (word : UInt32) : List UInt8 := littleEndian 4 word.toNat

def readWord? (bytes : List UInt8) : Option (UInt32 × List UInt8) :=
  (readLittleEndian? 4 bytes).map fun (value, rest) => (UInt32.ofNat value, rest)

/-- A list in its binary form: the length in 64 bits, then the items. -/
def encodeList {α : Type} (encode : α → List UInt8) (items : List α) : List UInt8 :=
  littleEndian 8 items.length ++ items.flatMap encode

/-- Reads `count` items one after the other, and stops at the first that cannot be read, so that
a large count without the bytes for it costs nothing. -/
def readItems? {α : Type} (read? : List UInt8 → Option (α × List UInt8)) :
    Nat → List UInt8 → Option (List α × List UInt8)
  | 0, bytes => some ([], bytes)
  | count + 1, bytes => do
      let (item, bytes) ← read? bytes
      let (items, bytes) ← readItems? read? count bytes
      return (item :: items, bytes)

def readList? {α : Type} (read? : List UInt8 → Option (α × List UInt8))
    (bytes : List UInt8) : Option (List α × List UInt8) := do
  let (count, bytes) ← readLittleEndian? 8 bytes
  readItems? read? count bytes

def Handler.encode (handler : Handler ExceptionType) : List UInt8 :=
  encodeWord handler.exception.number ++ encodeWord handler.target

def Handler.read? (bytes : List UInt8) : Option (Handler ExceptionType × List UInt8) := do
  let (number, bytes) ← readWord? bytes
  let (target, bytes) ← readWord? bytes
  return (⟨⟨number⟩, target⟩, bytes)

def TryBlock.encode (block : TryBlock ExceptionType) : List UInt8 :=
  encodeWord block.span.first ++ encodeWord block.span.limit ++
    encodeList Handler.encode block.handlers

def TryBlock.read? (bytes : List UInt8) : Option (TryBlock ExceptionType × List UInt8) := do
  let (first, bytes) ← readWord? bytes
  let (limit, bytes) ← readWord? bytes
  let (handlers, bytes) ← readList? Handler.read? bytes
  return (⟨⟨first, limit⟩, handlers⟩, bytes)

def Table.encode (table : Table ExceptionType) : List UInt8 :=
  encodeWord table.count ++ encodeList TryBlock.encode table.blocks

/-- The table that some bytes begin with, and the bytes after it. -/
def Table.read? (bytes : List UInt8) : Option (Table ExceptionType × List UInt8) := do
  let (count, bytes) ← readWord? bytes
  let (blocks, bytes) ← readList? TryBlock.read? bytes
  return (⟨count, blocks⟩, bytes)

def Table.decode? (bytes : List UInt8) : Option (Table ExceptionType) :=
  (Table.read? bytes).map (·.1)

end DisjointTraps
