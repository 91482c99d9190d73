import DisjointTraps.Table
import Mathlib.Algebra.Group.Nat.Defs

set_option autoImplicit false

namespace DisjointTraps

/-- Reading finds an item exactly where the bytes begin with its written form, and leaves the bytes
after that. Only items that fit are ever read. -/
abbrev ReadsExactly {α : Type} (Fits : α → Prop) (encode : α → List UInt8)
    (read? : List UInt8 → Option (α × List UInt8)) : Prop :=
  ∀ bytes rest item, read? bytes = some (item, rest) ↔ Fits item ∧ bytes = encode item ++ rest

theorem littleEndian_readsExactly (width : Nat) :
    ReadsExactly (· < 256 ^ width) (littleEndian width) (readLittleEndian? width) := by
  induction width with
  | zero =>
      intro bytes rest value
      simp only [readLittleEndian?, littleEndian, Option.some.injEq, Prod.mk.injEq, Nat.pow_zero,
        Nat.lt_one_iff, List.nil_append]
      rw [eq_comm (a := value)]
  | succ width ih =>
      intro bytes rest value
      cases bytes with
      | nil => simp [readLittleEndian?, littleEndian]
      | cons byte bytes =>
          simp only [readLittleEndian?, littleEndian, Option.map_eq_some_iff, Prod.exists,
            Prod.mk.injEq, List.cons_append, List.cons.injEq, ih _ _ _, Nat.pow_succ]
          have small := byte.toNat_lt
          constructor
          · rintro ⟨high, _, ⟨bounded, rfl⟩, rfl, rfl⟩
            have low : (byte.toNat + 256 * high) % 256 = byte.toNat := by omega
            have above : (byte.toNat + 256 * high) / 256 = high := by omega
            rw [low, above, UInt8.ofNat_toNat]
            exact ⟨by omega, rfl, rfl⟩
          · rintro ⟨bounded, rfl, rfl⟩
            refine ⟨value / 256, rest, ⟨by omega, rfl⟩, ?_, rfl⟩
            rw [UInt8.toNat_ofNat_of_lt' (Nat.mod_lt value (by decide))]
            exact Nat.mod_add_div value 256

theorem word_readsExactly : ReadsExactly (fun _ => True) encodeWord readWord? := by
  intro bytes rest word
  simp only [readWord?, encodeWord, Option.map_eq_some_iff, Prod.exists, Prod.mk.injEq,
    littleEndian_readsExactly 4 _ _ _, true_and]
  constructor
  · rintro ⟨value, _, ⟨bounded, rfl⟩, rfl, rfl⟩
    rw [UInt32.toNat_ofNat_of_lt' bounded]
  · rintro rfl
    exact ⟨word.toNat, rest, ⟨word.toNat_lt, rfl⟩, UInt32.ofNat_toNat, rfl⟩

section Lists

variable {α : Type} {Fits : α → Prop} {encode : α → List UInt8}
variable {read? : List UInt8 → Option (α × List UInt8)}

theorem ReadsExactly.items (law : ReadsExactly Fits encode read?) (count : Nat) :
    ReadsExactly (fun items => items.length = count ∧ ∀ item ∈ items, Fits item)
      (·.flatMap encode) (readItems? read? count) := by
  induction count with
  | zero =>
      intro bytes rest items
      simp only [readItems?, Option.some.injEq, Prod.mk.injEq, List.length_eq_zero_iff]
      constructor
      · rintro ⟨rfl, rfl⟩
        exact ⟨⟨rfl, by simp⟩, rfl⟩
      · rintro ⟨⟨rfl, -⟩, rfl⟩
        exact ⟨rfl, rfl⟩
  | succ count ih =>
      intro bytes rest items
      simp only [readItems?, bind, Option.bind_eq_some_iff, pure, Prod.exists, Option.some.injEq,
        Prod.mk.injEq, law _ _ _, ih _ _ _]
      constructor
      · rintro ⟨item, _, ⟨fits, rfl⟩, items, _, ⟨⟨rfl, others⟩, rfl⟩, rfl, rfl⟩
        refine ⟨⟨rfl, List.forall_mem_cons.mpr ⟨fits, others⟩⟩, ?_⟩
        rw [List.flatMap_cons, List.append_assoc]
      · rintro ⟨⟨length, fits⟩, rfl⟩
        cases items with
        | nil => cases length
        | cons item items =>
            obtain ⟨first, others⟩ := List.forall_mem_cons.mp fits
            refine ⟨item, _, ⟨first, ?_⟩, items, rest, ⟨⟨?_, others⟩, rfl⟩, rfl, rfl⟩
            · rw [List.flatMap_cons, List.append_assoc]
            · exact Nat.succ.inj length

theorem ReadsExactly.list (law : ReadsExactly Fits encode read?) :
    ReadsExactly (fun items => items.length < 2 ^ 64 ∧ ∀ item ∈ items, Fits item)
      (encodeList encode) (readList? read?) := by
  intro bytes rest items
  have width : 256 ^ 8 = 2 ^ 64 := rfl
  simp only [readList?, encodeList, bind, Option.bind_eq_some_iff, Prod.exists,
    littleEndian_readsExactly 8 _ _ _, law.items _ _ _ _, width, List.append_assoc]
  constructor
  · rintro ⟨_, _, ⟨bounded, rfl⟩, ⟨rfl, fits⟩, rfl⟩
    exact ⟨⟨bounded, fits⟩, rfl⟩
  · rintro ⟨⟨bounded, fits⟩, rfl⟩
    exact ⟨items.length, _, ⟨bounded, rfl⟩, ⟨rfl, fits⟩, rfl⟩

end Lists

theorem Handler.readsExactly : ReadsExactly (fun _ => True) Handler.encode Handler.read? := by
  rintro bytes rest ⟨⟨number⟩, target⟩
  simp only [Handler.read?, Handler.encode, bind, Option.bind_eq_some_iff, pure, Prod.exists,
    Option.some.injEq, Prod.mk.injEq, word_readsExactly _ _ _, List.append_assoc, true_and,
    Handler.mk.injEq, ExceptionType.mk.injEq]
  constructor
  · rintro ⟨_, _, rfl, _, _, rfl, ⟨rfl, rfl⟩, rfl⟩
    rfl
  · rintro rfl
    exact ⟨number, _, rfl, target, rest, rfl, ⟨rfl, rfl⟩, rfl⟩

def TryBlock.LengthFits (block : TryBlock ExceptionType) : Prop := block.handlers.length < 2 ^ 64

theorem TryBlock.readsExactly :
    ReadsExactly TryBlock.LengthFits TryBlock.encode TryBlock.read? := by
  rintro bytes rest ⟨⟨first, limit⟩, handlers⟩
  simp only [TryBlock.read?, TryBlock.encode, TryBlock.LengthFits, bind, Option.bind_eq_some_iff,
    pure, Prod.exists, Option.some.injEq, Prod.mk.injEq, word_readsExactly _ _ _,
    Handler.readsExactly.list _ _ _, List.append_assoc, true_and, TryBlock.mk.injEq,
    Span.mk.injEq, implies_true, and_true]
  constructor
  · rintro ⟨_, _, rfl, _, _, rfl, _, _, ⟨bounded, rfl⟩, ⟨⟨rfl, rfl⟩, rfl⟩, rfl⟩
    exact ⟨bounded, rfl⟩
  · rintro ⟨bounded, rfl⟩
    exact ⟨first, _, rfl, limit, _, rfl, handlers, rest, ⟨bounded, rfl⟩, ⟨⟨rfl, rfl⟩, rfl⟩, rfl⟩

/-- The numbers of blocks and of handlers can be written in 64 bits, as the length of every list in
memory can. -/
structure Table.LengthsFit (table : Table ExceptionType) : Prop where
  blocks : table.blocks.length < 2 ^ 64
  handlers : ∀ block ∈ table.blocks, block.LengthFits

theorem Table.readsExactly : ReadsExactly Table.LengthsFit Table.encode Table.read? := by
  rintro bytes rest ⟨count, blocks⟩
  simp only [Table.read?, Table.encode, bind, Option.bind_eq_some_iff, pure, Prod.exists,
    Option.some.injEq, Prod.mk.injEq, word_readsExactly _ _ _, TryBlock.readsExactly.list _ _ _,
    List.append_assoc, true_and, Table.mk.injEq]
  constructor
  · rintro ⟨_, _, rfl, _, _, ⟨⟨length, each⟩, rfl⟩, ⟨rfl, rfl⟩, rfl⟩
    exact ⟨⟨length, each⟩, rfl⟩
  · rintro ⟨⟨length, each⟩, rfl⟩
    exact ⟨count, _, rfl, blocks, rest, ⟨⟨length, each⟩, rfl⟩, ⟨rfl, rfl⟩, rfl⟩

theorem Table.decode?_eq_some_iff (bytes : List UInt8) (table : Table ExceptionType) :
    Table.decode? bytes = some table ↔ table.LengthsFit ∧ table.encode <+: bytes := by
  simp only [Table.decode?, Option.map_eq_some_iff, Prod.exists, Table.readsExactly _ _ _]
  constructor
  · rintro ⟨_, rest, ⟨fit, rfl⟩, rfl⟩
    exact ⟨fit, List.prefix_append ..⟩
  · rintro ⟨fit, rest, rfl⟩
    exact ⟨table, rest, ⟨fit, rfl⟩, rfl⟩

/-- More bytes after those of a table change nothing. -/
theorem Table.decode?_append {bytes : List UInt8} {table : Table ExceptionType}
    (decoded : Table.decode? bytes = some table) (more : List UInt8) :
    Table.decode? (bytes ++ more) = some table := by
  obtain ⟨fit, within⟩ := (Table.decode?_eq_some_iff bytes table).mp decoded
  have longer : table.encode <+: bytes ++ more := within.trans (List.prefix_append ..)
  exact (Table.decode?_eq_some_iff _ table).mpr ⟨fit, longer⟩

/-- A written table is decoded to itself whatever follows it, bytes that are decoded begin with the
written form of what they are decoded to, and nothing is decoded from a written form that was cut
short. -/
theorem Table.decode_undoes_encode (table : Table ExceptionType) :
    (table.LengthsFit → ∀ rest, Table.decode? (table.encode ++ rest) = some table) ∧
    (∀ bytes, Table.decode? bytes = some table → table.encode <+: bytes) ∧
    (table.LengthsFit → ∀ bytes, bytes <+: table.encode → bytes ≠ table.encode →
      Table.decode? bytes = none) := by
  refine ⟨?_, ?_, ?_⟩
  · intro fit rest
    exact (Table.decode?_eq_some_iff _ table).mpr ⟨fit, List.prefix_append ..⟩
  · intro bytes decoded
    exact ((Table.decode?_eq_some_iff bytes table).mp decoded).2
  · rintro fit bytes ⟨missing, whole⟩ short
    rw [Option.eq_none_iff_forall_ne_some]
    intro other decoded
    -- With the missing bytes it would be decoded to both tables, so it held all of them before.
    have again := Table.decode?_append decoded missing
    rw [whole, (Table.decode?_eq_some_iff _ table).mpr ⟨fit, List.prefix_rfl⟩] at again
    obtain rfl := Option.some.inj again
    have within := ((Table.decode?_eq_some_iff bytes table).mp decoded).2
    have cut : bytes <+: table.encode := ⟨missing, whole⟩
    exact short (within.eq_of_length_le cut.length_le).symm

/-- A table with an empty span, one the wrong way round and a list with one exception type twice:
nothing has to be right about a table that is written and read. -/
theorem Table.decode_undoes_encode_odd :
    ∃ table : Table ExceptionType, table.LengthsFit ∧
      Table.decode? (table.encode ++ [7, 7]) = some table ∧
      Table.decode? table.encode.dropLast = none := by
  have fit : (⟨3, [⟨⟨2, 2⟩, []⟩, ⟨⟨5, 1⟩, [⟨⟨0⟩, 9⟩, ⟨⟨0⟩, 4294967295⟩]⟩]⟩ :
      Table ExceptionType).LengthsFit := by
    refine ⟨by decide, ?_⟩
    intro block member
    simp only [List.mem_cons, List.not_mem_nil, or_false] at member
    rcases member with rfl | rfl
    · exact show 0 < 2 ^ 64 by decide
    · exact show 2 < 2 ^ 64 by decide
  refine ⟨_, fit, ?_, ?_⟩
  · exact (Table.decode_undoes_encode _).1 fit _
  · exact (Table.decode_undoes_encode _).2.2 fit _ (List.dropLast_prefix _) (by decide)

end DisjointTraps
