import DisjointTraps.Body.Generator
import DisjointTraps.Proofs.RoundTrip
import DisjointTraps.Proofs.Validity

set_option autoImplicit false

namespace DisjointTraps.Generator

variable {count room exceptions : Nat} {inst : Inst} {rest : List Inst}

/-- An instruction that may stand anywhere in a body of `count` instructions but at its end. -/
structure Free (count : Nat) (inst : Inst) : Prop where
  noReturn : inst ≠ .ret
  noResult : inst ≠ .moveResult
  target : ∀ target, inst = .goto target → target < UInt32.ofNat count

structure Chosen (count room : Nat) (insts : List Inst) : Prop where
  length_eq : insts.length = room
  noReturn : .ret ∉ insts
  targets : ∀ target, .goto target ∈ insts → target < UInt32.ofNat count
  results : ∀ i, insts[i]? = some .moveResult → 0 < i ∧ insts[i - 1]? = some .invoke

theorem chosen_nil (count : Nat) : Chosen count 0 [] := ⟨rfl, by simp, by simp, by simp⟩

theorem Chosen.cons (free : Free count inst) (chosen : Chosen count room rest) :
    Chosen count (room + 1) (inst :: rest) where
  length_eq := by rw [List.length_cons, chosen.length_eq]
  noReturn := by
    rw [List.mem_cons, not_or]
    exact ⟨free.noReturn.symm, chosen.noReturn⟩
  targets := by
    intro target member
    rcases List.mem_cons.mp member with here | later
    · exact free.target target here.symm
    · exact chosen.targets target later
  results := by
    intro i found
    cases i with
    | zero => exact absurd (Option.some.inj found) free.noResult
    | succ i =>
        obtain ⟨positive, call⟩ := chosen.results i found
        obtain ⟨j, rfl⟩ := Nat.exists_eq_add_of_lt positive
        exact ⟨Nat.succ_pos _, by simpa using call⟩

theorem Chosen.call (chosen : Chosen count room rest) :
    Chosen count (room + 2) (.invoke :: .moveResult :: rest) where
  length_eq := by rw [List.length_cons, List.length_cons, chosen.length_eq]
  noReturn := by simpa using chosen.noReturn
  targets := by simpa using chosen.targets
  results := by
    intro i found
    match i with
    | 0 => cases found
    | 1 => exact ⟨Nat.one_pos, rfl⟩
    | i + 2 =>
        obtain ⟨positive, call⟩ := chosen.results i found
        obtain ⟨j, rfl⟩ := Nat.exists_eq_add_of_lt positive
        exact ⟨Nat.succ_pos _, by simpa using call⟩

def exceptionNames (exceptions : Nat) : List String :=
  (List.range exceptions).map fun n => "E" ++ n.repr

theorem exceptionNames_nodup (exceptions : Nat) : (exceptionNames exceptions).Nodup := by
  apply List.nodup_range.map
  intro m n same
  have digits := (String.append_right_inj "E").mp same
  have value : ∀ n : Nat, Nat.ofDigitChars 10 n.repr.toList 0 = n := by
    intro n
    rw [Nat.toList_repr, Nat.ofDigitChars_ten_toDigits]
  rw [← value m, digits, value n]

theorem isWord_of_mem_exceptionNames {name : String} (member : name ∈ exceptionNames exceptions) :
    Text.IsWord name := by
  obtain ⟨n, -, rfl⟩ := List.mem_map.mp member
  refine ⟨'E', n.repr.toList, by simp, by decide, fun d inside => ?_⟩
  simp [Text.isWordChar, Text.isDigit_of_mem_repr inside]

structure Fits (count exceptions : Nat) (trap : Trap ExceptionType) : Prop where
  wellFormed : trap.WellFormed (UInt32.ofNat count)
  declared : trap.handler.exception.number.toNat < exceptions

/-- A body that can be made from bytes, apart from its size. -/
structure Made (body : Body) : Prop where
  inName : '\n' ∉ body.name.toList
  chosen : ∃ room insts, body.insts = insts ++ [.ret] ∧ Chosen body.insts.length room insts
  names : ∃ exceptions, body.exceptionNames = exceptionNames exceptions
  traps : ∀ trap ∈ body.traps, Fits body.insts.length body.exceptionNames.length trap

variable {body : Body}

/-- Results are taken up right after calls, also in front of the return. -/
theorem Made.results (made : Made body) (i : Nat) (found : body.insts[i]? = some .moveResult) :
    0 < i ∧ body.insts[i - 1]? = some .invoke := by
  obtain ⟨room, insts, split, chosen⟩ := made.chosen
  rw [split] at found ⊢
  by_cases inside : i < insts.length
  · rw [List.getElem?_append_left inside] at found
    obtain ⟨positive, call⟩ := chosen.results i found
    exact ⟨positive, by rw [List.getElem?_append_left (by omega), call]⟩
  · rw [List.getElem?_append_right (Nat.not_lt.mp inside)] at found
    have last := List.mem_singleton.mp (List.mem_of_getElem? found)
    cases last

theorem Made.valid (made : Made body) : body.Valid where
  terminated := by
    obtain ⟨room, insts, split, -⟩ := made.chosen
    exact ⟨.ret, by rw [split, List.getLast?_concat], rfl⟩
  targets := by
    intro target member
    obtain ⟨room, insts, split, chosen⟩ := made.chosen
    rw [split, List.mem_append, List.mem_singleton] at member
    rcases member with inside | last
    · exact chosen.targets target inside
    · cases last
  results := made.results
  traps := fun trap member => (made.traps trap member).wellFormed
  exceptions := fun trap member => (made.traps trap member).declared

theorem Made.nodup (made : Made body) : body.exceptionNames.Nodup := by
  obtain ⟨exceptions, names⟩ := made.names
  rw [names]
  exact exceptionNames_nodup exceptions

theorem Made.wellNamed (made : Made body) : Text.WellNamed body where
  words := by
    intro name member
    obtain ⟨exceptions, names⟩ := made.names
    rw [names] at member
    exact isWord_of_mem_exceptionNames member
  declared := made.valid.exceptions

theorem Made.parse_render (made : Made body) (name : String) {title : String}
    (inTitle : '\n' ∉ title.toList) :
    Body.parse name (body.render title) = .ok { body with name } :=
  Text.parse_rename (Text.parse_render inTitle made.inName made.nodup made.wellNamed) name

end DisjointTraps.Generator
