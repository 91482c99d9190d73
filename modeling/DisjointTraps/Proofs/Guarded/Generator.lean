import DisjointTraps.Proofs.Generated

set_option autoImplicit false

namespace DisjointTraps

/-- A choice that has no result if something goes wrong. -/
abbrev PartialChoice (α : Type) := StateT (List UInt8) Option α

namespace PartialChoice

variable {α β γ δ : Type}

def ofChoice (choice : Choice α) : PartialChoice α := fun bytes => some (choice bytes)

def between? (low high : Nat) : PartialChoice Nat :=
  if low ≤ high then ofChoice (Choice.between low high) else failure

def before? (n : Nat) : PartialChoice Nat := if 0 < n then return n - 1 else failure

/-- Whatever the bytes are, the guarded choice has a result and uses up the bytes that the plain one
uses up, and the results of both are related. -/
def Settles (guarded : PartialChoice α) (plain : Choice β) (good : α → β → Prop) : Prop :=
  ∀ bytes, ∃ value other left,
    guarded bytes = some (value, left) ∧ plain bytes = (other, left) ∧ good value other

/-- Equal results of a kind. -/
def Both (good : α → Prop) (value other : α) : Prop := value = other ∧ good value

theorem both {good : α → Prop} {value : α} (holds : good value) : Both good value value :=
  ⟨rfl, holds⟩

theorem settles_pure {good : α → β → Prop} {value : α} {other : β} (holds : good value other) :
    Settles (pure value) (pure other) good :=
  fun bytes => ⟨value, other, bytes, rfl, rfl, holds⟩

theorem Settles.bind {guarded : PartialChoice α} {plain : Choice β} {good : α → β → Prop}
    {next : α → PartialChoice γ} {after : β → Choice δ} {better : γ → δ → Prop}
    (first : Settles guarded plain good)
    (later : ∀ value other, good value other → Settles (next value) (after other) better) :
    Settles (guarded >>= next) (plain >>= after) better := by
  intro bytes
  obtain ⟨value, other, left, settled, chosen, holds⟩ := first bytes
  obtain ⟨result, also, rest, finished, done, kept⟩ := later value other holds left
  refine ⟨result, also, rest, ?_, ?_, kept⟩
  · simp only [Bind.bind, StateT.bind, settled, Option.bind_some, finished]
  · simp only [Bind.bind, StateT.bind, chosen, done]

theorem Settles.onto {guarded : PartialChoice α} {plain : Choice β} {good : α → β → Prop}
    (first : Settles guarded plain good) (finish : β → γ) {better : α → γ → Prop}
    (keeps : ∀ value other, good value other → better value (finish other)) :
    Settles guarded (do return finish (← plain)) better := by
  intro bytes
  obtain ⟨value, other, left, settled, chosen, holds⟩ := first bytes
  refine ⟨value, finish other, left, settled, ?_, keeps value other holds⟩
  simp only [Bind.bind, StateT.bind, chosen]
  rfl

theorem settles_ofChoice {choice : Choice α} {good : α → Prop}
    (holds : ∀ bytes, good (choice bytes).1) : Settles (ofChoice choice) choice (Both good) :=
  fun bytes => ⟨_, _, _, rfl, rfl, both (holds bytes)⟩

theorem settles_between {low high : Nat} (order : low ≤ high) :
    Settles (between? low high) (Choice.between low high)
      (Both fun n => low ≤ n ∧ n ≤ high) := by
  rw [between?, if_pos order]
  apply settles_ofChoice
  intro bytes
  rw [Choice.between]
  split
  · rename_i single
    exact ⟨Nat.le_refl low, order⟩
  · have rest : (Choice.byte bytes).1 % (high - low + 1) < high - low + 1 :=
      Nat.mod_lt _ (Nat.succ_pos _)
    change low ≤ low + (Choice.byte bytes).1 % (high - low + 1) ∧
      low + (Choice.byte bytes).1 % (high - low + 1) ≤ high
    omega

theorem lift_bind (value : α) (next : α → PartialChoice β) :
    ((liftM (some value) : PartialChoice α) >>= next) = next value := rfl

theorem before?_eq {n : Nat} (positive : 0 < n) : before? n = pure (n - 1) := if_pos positive

end PartialChoice

namespace Generator

open PartialChoice

def position? (count : Nat) : PartialChoice Position :=
  return UInt32.ofNat (← between? 0 (← before? count))

def inst? (count : Nat) : PartialChoice Inst := do
  match ← between? 0 5 with
  | 0 | 1 => return .invoke
  | 2 => return .moveException
  | 3 => return .goto (← position? count)
  | 4 => return .throw
  | _ => return .nop

/-- Goes on from the instructions chosen so far until `goal` places are filled. -/
def fill? (count goal : Nat) (insts : List Inst) : PartialChoice (List Inst) :=
  if insts.length < goal then do
    let next ← inst? count
    if next = .invoke ∧ (insts ++ [next]).length < goal then
      if ← ofChoice Choice.flag then fill? count goal (insts ++ [next] ++ [.moveResult])
      else fill? count goal (insts ++ [next])
    else fill? count goal (insts ++ [next])
  else return insts
termination_by goal - insts.length
decreasing_by all_goals simp only [List.length_append, List.length_singleton]; omega

def trap? (count : Nat) (exceptions : List ExceptionType) :
    PartialChoice (Trap ExceptionType) := do
  let first ← between? 0 (← before? count)
  let limit ← between? (first + 1) count
  let index ← between? 0 (← before? exceptions.length)
  let exception ← liftM exceptions[index]?
  let target ← position? count
  return ⟨⟨UInt32.ofNat first, UInt32.ofNat limit⟩, ⟨exception, target⟩⟩

def traps? (count : Nat) (exceptions : List ExceptionType) :
    (number : Nat) → PartialChoice (List (Trap ExceptionType))
  | 0 => return []
  | number + 1 => return (← trap? count exceptions) :: (← traps? count exceptions number)

end Generator

/-- The body with all these exception names, and their types. -/
def Body.internAll (body : Body) : List String → Body × List ExceptionType
  | [] => (body, [])
  | name :: names =>
      let (named, exception) := body.intern name
      let (all, exceptions) := named.internAll names
      (all, exception :: exceptions)

namespace Generator

open PartialChoice

def body? : PartialChoice Body := do
  let count ← between? 2 maxInsts
  let number ← between? 1 maxExceptions
  let (start, exceptions) := Body.internAll { name := "fuzz" } (exceptionNames number)
  let chosen ← fill? count (← before? count) []
  let filled := (start.pushAll chosen).push .ret
  if filled.insts.length = count then
    let traps ← traps? count exceptions (← between? 0 maxTraps)
    return { filled with traps }
  else failure

section Small

variable {count : Nat}

theorem position?_settles (positive : 0 < count) (small : count < UInt32.size) :
    Settles (position? count) (position count) (Both fun p => p < UInt32.ofNat count) := by
  rw [position?, before?_eq positive, pure_bind]
  refine (settles_between (Nat.zero_le _)).bind ?_
  rintro n _ ⟨rfl, -, high⟩
  refine settles_pure (both ?_)
  rw [UInt32.lt_iff_toNat_lt, UInt32.toNat_ofNat_of_lt' small,
    UInt32.toNat_ofNat_of_lt' (by omega)]
  omega

theorem inst?_settles (positive : 0 < count) (small : count < UInt32.size) :
    Settles (inst? count) (inst count) (Both (Free count)) := by
  refine (settles_between (Nat.zero_le 5)).bind ?_
  rintro n _ ⟨rfl, -, -⟩
  match n with
  | 0 | 1 | 2 | 4 | _ + 5 => exact settles_pure (both ⟨by simp, by simp, by simp⟩)
  | 3 =>
      refine (position?_settles positive small).bind ?_
      rintro p _ ⟨rfl, inside⟩
      refine settles_pure (both ⟨by simp, by simp, ?_⟩)
      rintro target ⟨⟩
      exact inside

/-- The loop that goes on from `start` chooses what the recursion chooses for the places left. -/
theorem fill?_settles (positive : 0 < count) (small : count < UInt32.size) (room : Nat)
    {goal : Nat} {start : List Inst} (left : start.length + room = goal) :
    Settles (fill? count goal start) (insts count room) fun full chosen =>
      full = start ++ chosen ∧ Chosen count room chosen := by
  induction room using Nat.strongRecOn generalizing start with
  | ind room ih =>
      rw [fill?]
      cases room with
      | zero =>
          rw [if_neg (by omega), insts]
          exact settles_pure ⟨(List.append_nil start).symm, chosen_nil count⟩
      | succ room =>
          rw [if_pos (by omega), insts]
          refine (inst?_settles positive small).bind ?_
          rintro next _ ⟨rfl, free⟩
          have grown : (start ++ [next]).length + room = goal := by
            rw [List.length_append, List.length_singleton]
            omega
          have alone : Settles (fill? count goal (start ++ [next]))
              (do return next :: (← insts count room)) fun full chosen =>
                full = start ++ chosen ∧ Chosen count (room + 1) chosen := by
            apply (ih room (Nat.lt_succ_self room) grown).onto
            rintro full chosen ⟨rfl, later⟩
            exact ⟨List.append_assoc start [next] chosen, later.cons free⟩
          have more : (start ++ [next]).length < goal ↔ 0 < room := by omega
          simp only [more]
          by_cases call : next = .invoke ∧ 0 < room
          · obtain ⟨rfl, another⟩ := call
            obtain ⟨room, rfl⟩ := Nat.exists_eq_add_of_lt another
            rw [if_pos ⟨rfl, another⟩, if_pos ⟨rfl, another⟩]
            have flag : Settles (ofChoice Choice.flag) Choice.flag (Both fun _ => True) :=
              settles_ofChoice fun _ => trivial
            refine flag.bind ?_
            rintro taken _ ⟨rfl, -⟩
            cases taken with
            | false => exact alone
            | true =>
                have grown : (start ++ [Inst.invoke] ++ [Inst.moveResult]).length + room =
                    goal := by
                  rw [List.length_append, List.length_singleton]
                  omega
                rw [Nat.zero_add, Nat.add_sub_cancel]
                apply (ih room (by omega) grown).onto
                rintro full chosen ⟨rfl, later⟩
                exact ⟨by simp, later.call⟩
          · rw [if_neg call, if_neg call]
            exact alone

theorem trap?_settles (positive : 0 < count) (small : count < UInt32.size) {number : Nat}
    (some : 0 < number) (fits : number < UInt32.size) :
    Settles (trap? count ((List.range number).map ExceptionType.ofIndex)) (trap count number)
      (Both (Fits count number)) := by
  rw [trap?, trap, before?_eq positive, pure_bind]
  refine (settles_between (Nat.zero_le _)).bind ?_
  rintro first _ ⟨rfl, -, begins⟩
  refine (settles_between (by omega)).bind ?_
  rintro limit _ ⟨rfl, nonempty, inside⟩
  rw [List.length_map, List.length_range, before?_eq some, pure_bind]
  refine (settles_between (Nat.zero_le _)).bind ?_
  rintro index _ ⟨rfl, -, listed⟩
  have there : ((List.range number).map ExceptionType.ofIndex)[index]? =
      Option.some (.ofIndex index) := by
    rw [List.getElem?_map, List.getElem?_range (by omega), Option.map_some]
  rw [there, lift_bind]
  refine (position?_settles positive small).bind ?_
  rintro target _ ⟨rfl, within⟩
  refine settles_pure (both ⟨⟨?_, ?_, within⟩, ?_⟩)
  · rw [UInt32.lt_iff_toNat_lt, UInt32.toNat_ofNat_of_lt' (by omega),
      UInt32.toNat_ofNat_of_lt' (by omega)]
    omega
  · rwa [UInt32.le_iff_toNat_le, UInt32.toNat_ofNat_of_lt' (by omega),
      UInt32.toNat_ofNat_of_lt' small]
  · change (UInt32.ofNat index).toNat < number
    rw [UInt32.toNat_ofNat_of_lt' (by omega)]
    omega

theorem traps?_settles (positive : 0 < count) (small : count < UInt32.size) {number : Nat}
    (some : 0 < number) (fits : number < UInt32.size) (n : Nat) :
    Settles (traps? count ((List.range number).map ExceptionType.ofIndex) n)
      (traps count number n)
      (Both fun traps => traps.length = n ∧ ∀ trap ∈ traps, Fits count number trap) := by
  induction n with
  | zero => exact settles_pure (both ⟨rfl, by simp⟩)
  | succ n ih =>
      refine (trap?_settles positive small some fits).bind ?_
      rintro trap _ ⟨rfl, here⟩
      refine ih.bind ?_
      rintro traps _ ⟨rfl, length, later⟩
      exact settles_pure (both ⟨by rw [List.length_cons, length],
        List.forall_mem_cons.mpr ⟨here, later⟩⟩)

end Small

end Generator

theorem Body.internAll_eq (body : Body) (names : List String)
    (once : (body.exceptionNames ++ names).Nodup) :
    body.internAll names = ({ body with exceptionNames := body.exceptionNames ++ names },
      (List.range names.length).map fun i => .ofIndex (body.exceptionNames.length + i)) := by
  induction names generalizing body with
  | nil => simp [internAll]
  | cons name names ih =>
      have fresh : name ∉ body.exceptionNames := by
        intro member
        exact (List.nodup_append.mp once).2.2 name member name List.mem_cons_self rfl
      have named : body.intern name = ({ body with exceptionNames := body.exceptionNames ++ [name] },
          .ofIndex body.exceptionNames.length) := by
        simp [intern, addName, typeOf, fresh]
      rw [List.append_cons] at once
      have later := ih { body with exceptionNames := body.exceptionNames ++ [name] } once
      simp only [internAll, named, later, List.length_cons, List.range_succ_eq_map, List.map_cons,
        List.map_map, List.append_assoc, List.singleton_append, List.length_append,
        List.length_nil, Nat.add_zero, Prod.mk.injEq, true_and, List.cons.injEq]
      apply List.map_congr_left
      intro i _
      simp only [Function.comp_apply, Nat.succ_eq_add_one]
      congr 1
      omega

namespace Generator

open PartialChoice

theorem body?_settles : Settles body? body (Both fun body =>
    Made body ∧ 2 ≤ body.insts.length ∧ body.insts.length ≤ maxInsts ∧
      body.traps.length ≤ maxTraps) := by
  refine (settles_between (by decide)).bind ?_
  rintro count _ ⟨rfl, several, few⟩
  refine (settles_between (by decide)).bind ?_
  rintro number _ ⟨rfl, some, fits⟩
  have once : (([] : List String) ++ exceptionNames number).Nodup := exceptionNames_nodup number
  have length : (exceptionNames number).length = number := by simp [exceptionNames]
  have interned := Body.internAll_eq { name := "fuzz" } (exceptionNames number) once
  simp only [List.length_nil, Nat.zero_add, List.nil_append, length] at interned
  rw [interned, before?_eq (by omega)]
  dsimp only
  rw [pure_bind]
  have small : maxInsts < UInt32.size := by decide
  refine (fill?_settles (by omega) (by omega) (count - 1) (Nat.zero_add _)).bind ?_
  rintro chosen _ ⟨rfl, here⟩
  have full : (chosen ++ [Inst.ret]).length = count := by
    rw [List.length_append, here.length_eq, List.length_singleton]
    omega
  have filled : ((Body.mk "fuzz" [] (exceptionNames number) []).pushAll chosen).push .ret =
      Body.mk "fuzz" (chosen ++ [.ret]) (exceptionNames number) [] := rfl
  rw [filled, if_pos full]
  refine (settles_between (Nat.zero_le _)).bind ?_
  rintro declared _ ⟨rfl, -, bounded⟩
  have exceptionsFit : number < UInt32.size := Nat.lt_of_le_of_lt fits (by decide)
  refine (traps?_settles (by omega) (by omega) some exceptionsFit declared).bind ?_
  rintro traps _ ⟨rfl, size, each⟩
  have made : Made ⟨"fuzz", chosen ++ [.ret], exceptionNames number, traps⟩ := by
    have inName : '\n' ∉ "fuzz".toList := by decide
    refine ⟨inName, ⟨count - 1, chosen, rfl, ?_⟩, ⟨number, rfl⟩, ?_⟩
    · rwa [full]
    · rwa [full, length]
  exact settles_pure (both ⟨made, by rwa [full], by rwa [full], by rwa [size]⟩)

end Generator

/-- Each list of bytes makes a body, and nothing goes wrong on the way. It has 2 to 48 instructions
and at most 10 traps, passes the validation, takes up results right after calls only, has its only
return at its end, and is read back from its written form. -/
theorem Body.ofBytes_makes_valid (bytes : List UInt8) :
    ∃ body left, Generator.body? bytes = some (body, left) ∧ Body.ofBytes bytes = (body, left) ∧
      2 ≤ body.insts.length ∧ body.insts.length ≤ 48 ∧ body.traps.length ≤ 10 ∧
      body.fault? = none ∧
      (∀ i, body.insts[i]? = some .moveResult → 0 < i ∧ body.insts[i - 1]? = some .invoke) ∧
      (∃ before, body.insts = before ++ [.ret] ∧ .ret ∉ before) ∧
      ∀ name title, '\n' ∉ title.toList →
        ∃ again, Body.parse name (body.render title) = .ok again ∧ Alike body again := by
  obtain ⟨body, _, left, settled, plain, rfl, made, several, few, traps⟩ :=
    Generator.body?_settles bytes
  refine ⟨body, left, settled, plain, several, few, traps, body.fault?_eq_none_iff.mpr made.valid,
    made.results, ?_, ?_⟩
  · obtain ⟨room, before, split, chosen⟩ := made.chosen
    exact ⟨before, split, chosen.noReturn⟩
  · intro name title inTitle
    exact ⟨_, made.parse_render name inTitle, rfl, rfl, rfl⟩

/-- Bytes that run out after the first number for a trap. -/
theorem Body.ofBytes_makes_valid_short :
    ∃ body, Body.ofBytes [1, 0, 0, 1, 1, 2] = (body, []) ∧
      body.insts = [.invoke, .moveResult, .ret] ∧ body.traps = [⟨⟨2, 3⟩, ⟨⟨0⟩, 0⟩⟩] ∧
      body.fault? = none ∧
      ∃ again, Body.parse "again" (body.render "body") = .ok again ∧ Alike body again := by
  obtain ⟨body, left, -, made, -, -, -, valid, -, -, back⟩ :=
    Body.ofBytes_makes_valid [1, 0, 0, 1, 1, 2]
  have explicit : Body.ofBytes [1, 0, 0, 1, 1, 2] = (⟨"fuzz", [.invoke, .moveResult, .ret], ["E0"],
      [⟨⟨2, 3⟩, ⟨⟨0⟩, 0⟩⟩]⟩, []) := by decide +kernel
  rw [made, Prod.mk.injEq] at explicit
  obtain ⟨rfl, rfl⟩ := explicit
  exact ⟨_, made, rfl, rfl, valid, back "again" "body" (by decide)⟩

end DisjointTraps
