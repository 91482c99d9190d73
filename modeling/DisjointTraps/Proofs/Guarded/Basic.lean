import DisjointTraps.Trap
import DisjointTraps.Proofs.Changes
import DisjointTraps.Proofs.Dispatch
import Mathlib.Algebra.Group.Nat.Defs

set_option autoImplicit false

namespace DisjointTraps

/-- A value or an error, or nothing if an access failed on the way. -/
abbrev Guarded (ε α : Type) := ExceptT (SplitError ε) Option α

namespace Guarded

variable {ε α β : Type}

def settled (result : Except (SplitError ε) α) : Guarded ε α := ExceptT.mk (some result)

def failed : Guarded ε α := ExceptT.mk none

/-- A computation that counts up to `n` on the way, with a counter of 32 bits and a sign. -/
def counted (n : Nat) (result : Except (SplitError ε) α) : Guarded ε α :=
  if n < 2 ^ 31 then settled result else failed

theorem counted_eq_settled {n : Nat} (small : n < 2 ^ 31) (result : Except (SplitError ε) α) :
    counted n result = settled result := if_pos small

/-- If no access fails after a computation in which none has failed, then none fails at all. -/
theorem settled_bind {result : Except (SplitError ε) α} {next : α → Guarded ε β}
    {plain : α → Except (SplitError ε) β} (same : ∀ value, next value = settled (plain value)) :
    (settled result >>= next) = settled (result >>= plain) := by
  cases result with
  | error reason => rfl
  | ok value => exact same value

theorem counted_bind {n : Nat} {result : Except (SplitError ε) α} {next : α → Guarded ε β}
    {plain : α → Except (SplitError ε) β} (same : ∀ value, next value = settled (plain value)) :
    (counted n result >>= next) = counted n (result >>= plain) := by
  unfold counted
  split
  · exact settled_bind same
  · rfl

theorem lift_bind (value : α) (next : α → Guarded ε β) :
    ((liftM (some value) : Guarded ε α) >>= next) = next value := rfl

end Guarded

/-- A boundary rule that may have no answer at some positions. -/
abbrev PartialRule := Position → Option Bool

namespace PartialRule

/-- The rule has an answer at every position strictly inside a body of `count` instructions. -/
def AnswersInside (rule : PartialRule) (count : Position) : Prop :=
  ∀ p, 0 < p → p < count → (rule p).isSome = true

/-- The rule with `false` for every answer that it does not have. -/
def total (rule : PartialRule) : BoundaryRule := fun p => (rule p).getD false

/-- Whether the rule forbids a boundary at `p`. It is asked inside the body only. -/
def forbids? (rule : PartialRule) (count p : Position) : Option Bool :=
  if 0 < p ∧ p < count then rule p else some false

theorem AnswersInside.forbids?_eq {rule : PartialRule} {count : Position}
    (answers : rule.AnswersInside count) (p : Position) :
    rule.forbids? count p = some (rule.total.forbids count p) := by
  unfold forbids?
  by_cases inside : 0 < p ∧ p < count
  · obtain ⟨answer, given⟩ := Option.isSome_iff_exists.mp (answers p inside.1 inside.2)
    rw [if_pos inside, given, BoundaryRule.forbids, total, given]
    simp only [inside.1, inside.2, decide_true, Bool.and_self, Bool.true_and, Option.getD_some]
  · rw [if_neg inside, Option.some_inj, eq_comm, ← Bool.not_eq_true, BoundaryRule.forbids_iff]
    intro forbidden
    exact inside ⟨forbidden.1, forbidden.2.1⟩

end PartialRule

def Position.next? (p : Position) : Option Position :=
  if p.toNat + 1 < UInt32.size then some (p + 1) else none

def Position.previous? (p : Position) : Option Position :=
  if 0 < p.toNat then some (p - 1) else none

theorem Position.next?_eq {p count : Position} (inside : p.toNat < count.toNat) :
    Position.next? p = some (p + 1) := by
  have small := count.toNat_lt_size
  exact if_pos (by omega)

theorem Position.previous?_succ {p count : Position} (inside : p.toNat < count.toNat) :
    Position.previous? (p + 1) = some p := by
  have small := count.toNat_lt_size
  have next := toNat_succ (by omega : p.toNat + 1 < UInt32.size)
  have back : p + 1 - 1 = p := UInt32.add_sub_cancel p 1
  rw [Position.previous?, if_pos (by omega), back]

/-- One more in a counter of 32 bits with a sign, if they hold it. -/
def tally? (n : Nat) : Option Nat := if n + 1 < 2 ^ 31 then some (n + 1) else none

theorem Span.take_after_first (count : Position) :
    (Span.mk 1 count).take count.toNat = upFrom 1 (count.toNat - 1) := by
  have shorter : min count.toNat (count.toNat - 1) = count.toNat - 1 := by omega
  simp only [Span.take, Span.length, upFrom_eq_map, UInt32.toNat_one, shorter]

theorem exists_dispatchAll {ε : Type} [DecidableEq ε] {count : Position} {traps : List (Trap ε)}
    (fits : ∀ trap ∈ traps, trap.WellFormed count) :
    ∃ lists, dispatchAll count traps = some lists ∧
      lists.toList = (upFrom 0 count.toNat).map (dispatchAt traps) ∧
      ∀ p : Position, p.toNat < count.toNat → lists.get? p = some (dispatchAt traps p) := by
  obtain ⟨lists, computed, listed⟩ := dispatchAll_eq fun trap member _ => (fits trap member).2.1
  exact ⟨lists, computed, listed, fun p inside => InstMap.get?_of_toList listed inside⟩

/-- A trap that reaches past the end has to be refused before. -/
example : dispatchAll 2 [(⟨⟨0, 3⟩, ⟨0, 1⟩⟩ : Trap Nat)] = none := by decide

end DisjointTraps
