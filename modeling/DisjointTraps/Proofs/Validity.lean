import DisjointTraps.Body
import DisjointTraps.Proofs.Comparison
import DisjointTraps.Proofs.Flattening

set_option autoImplicit false

namespace DisjointTraps

variable {body : Body} {table : Table ExceptionType} {p : Position}

/-- What the validation of a body makes sure of. -/
structure Body.Valid (body : Body) : Prop where
  terminated : ∃ last, body.insts.getLast? = some last ∧ last.isTerminator = true
  targets : ∀ target, Inst.goto target ∈ body.insts → target < body.count
  results : ∀ i, body.insts[i]? = some .moveResult → 0 < i ∧ body.insts[i - 1]? = some .invoke
  traps : ∀ trap ∈ body.traps, trap.WellFormed body.count
  exceptions : ∀ trap ∈ body.traps,
    trap.handler.exception.number.toNat < body.exceptionNames.length

theorem Inst.fault?_eq_none_iff (count : Position) (previous : Option Inst) (inst : Inst)
    (index : Nat) : inst.fault? count previous index = none ↔
      (∀ target, inst = .goto target → target < count) ∧
        (inst = .moveResult → previous = some .invoke) := by
  unfold Inst.fault?
  cases inst <;> simp

namespace Body

theorem lastFault?_eq_none_iff (body : Body) : body.lastFault? = none ↔
    ∃ last, body.insts.getLast? = some last ∧ last.isTerminator = true := by
  unfold lastFault?
  split
  · rename_i empty
    simp [empty]
  · rename_i last found
    simp [found]

theorem previous_eq_some_iff (insts : List Inst) (i : Nat) (inst : Inst) :
    (none :: insts.map some)[i]? = some (some inst) ↔ 0 < i ∧ insts[i - 1]? = some inst := by
  cases i with
  | zero => simp
  | succ i => simp

theorem exists_previous {insts : List Inst} {i : Nat} {inst : Inst} (found : insts[i]? = some inst) :
    ∃ previous, (none :: insts.map some)[i]? = some previous := by
  have inside := (List.getElem?_eq_some_iff.mp found).1
  refine ⟨_, List.getElem?_eq_getElem ?_⟩
  simp only [List.length_cons, List.length_map]
  omega

theorem instFault?_eq_none_iff_each (body : Body) : body.instFault? = none ↔ ∀ i previous inst,
    (none :: body.insts.map some)[i]? = some previous → body.insts[i]? = some inst →
      Inst.fault? body.count previous inst i = none := by
  simp only [instFault?, List.findSome?_eq_none_iff, Prod.forall, List.mem_zipIdx_iff_getElem?,
    List.getElem?_zip_eq_some]
  constructor
  · intro clear i previous inst before here
    exact clear previous inst i ⟨before, here⟩
  · intro clear previous inst i found
    exact clear i previous inst found.1 found.2

theorem instFault?_eq_none_iff (body : Body) : body.instFault? = none ↔
    (∀ target, Inst.goto target ∈ body.insts → target < body.count) ∧
      ∀ i, body.insts[i]? = some .moveResult → 0 < i ∧ body.insts[i - 1]? = some .invoke := by
  simp only [instFault?_eq_none_iff_each, Inst.fault?_eq_none_iff]
  constructor
  · intro clear
    constructor
    · intro target member
      obtain ⟨i, found⟩ := List.mem_iff_getElem?.mp member
      obtain ⟨previous, stands⟩ := exists_previous found
      exact (clear i previous _ stands found).1 target rfl
    · intro i found
      obtain ⟨previous, stands⟩ := exists_previous found
      rw [(clear i previous _ stands found).2 rfl] at stands
      exact (previous_eq_some_iff body.insts i .invoke).mp stands
  · rintro ⟨targets, results⟩ i previous inst stands found
    constructor
    · rintro target rfl
      exact targets target (List.mem_of_getElem? found)
    · rintro rfl
      have call := (previous_eq_some_iff body.insts i .invoke).mpr (results i found)
      rw [stands] at call
      exact Option.some.inj call

theorem trapFault?_eq_none_iff (body : Body) : body.trapFault? = none ↔
    ∀ trap ∈ body.traps, trap.WellFormed body.count ∧
      trap.handler.exception.number.toNat < body.exceptionNames.length := by
  have each : ∀ (trap : Trap ExceptionType) (index : Nat),
      (if trap.span.isEmpty ∨ body.count < trap.span.limit then some (.trapSpan index trap.span)
        else if body.count ≤ trap.handler.target then some (.handlerOutside index)
        else if body.exceptionNames.length ≤ trap.handler.exception.number.toNat then
          some (.undeclaredException index)
        else none : Option BodyFault) = none ↔
      trap.WellFormed body.count ∧
        trap.handler.exception.number.toNat < body.exceptionNames.length := by
    intro trap index
    simp [ite_eq_iff, Trap.WellFormed, Span.isEmpty, and_assoc]
  simp only [trapFault?, List.findSome?_eq_none_iff, Prod.forall, List.mem_zipIdx_iff_getElem?,
    each]
  constructor
  · intro clear trap member
    obtain ⟨index, found⟩ := List.mem_iff_getElem?.mp member
    exact clear trap index found
  · intro clear trap index found
    exact clear trap (List.mem_of_getElem? found)

/-- The validation finds no fault exactly in valid bodies. -/
theorem fault?_eq_none_iff (body : Body) : body.fault? = none ↔ body.Valid := by
  rw [fault?, Option.or_eq_none_iff, Option.or_eq_none_iff, lastFault?_eq_none_iff,
    instFault?_eq_none_iff, trapFault?_eq_none_iff]
  constructor
  · rintro ⟨terminated, ⟨targets, results⟩, traps⟩
    exact ⟨terminated, targets, results, fun trap member => (traps trap member).1,
      fun trap member => (traps trap member).2⟩
  · rintro ⟨terminated, targets, results, traps, exceptions⟩
    exact ⟨terminated, ⟨targets, results⟩,
      fun trap member => ⟨traps trap member, exceptions trap member⟩⟩

/-- The instruction at `p` takes up the result of a call, and has another dispatch list than the
call right before it. -/
structure SeversCall (body : Body) (p : Position) : Prop where
  inside : p < body.count
  result : body.insts[p.toNat]? = some .moveResult
  differ : dispatchAt body.traps (p - 1) ≠ dispatchAt body.traps p

/-- In a valid body each instruction that takes up a result is bound to the one before it. -/
theorem Valid.forbiddenChange_iff (valid : body.Valid) (p : Position) :
    ForbiddenChange body.rule body.count (dispatchAt body.traps) p ↔ body.SeversCall p := by
  rw [DisjointTraps.forbiddenChange_iff]
  simp only [rule, Bool.and_eq_true, decide_eq_true_eq]
  constructor
  · rintro ⟨-, inside, ⟨⟨-, result⟩, -⟩, differ⟩
    exact ⟨inside, result, differ⟩
  · rintro ⟨inside, result, differ⟩
    obtain ⟨after, call⟩ := valid.results p.toNat result
    have positive : 0 < p := UInt32.lt_iff_toNat_lt.mpr after
    exact ⟨positive, inside, ⟨⟨⟨positive, inside⟩, result⟩, call⟩, differ⟩

theorem Valid.withTraps (valid : body.Valid) (splits : Splits body.count body.traps table)
    (legal : Legal body.rule body.count table.blocks) :
    ({ body with traps := table.toTraps } : Body).Valid := by
  refine ⟨valid.terminated, valid.targets, valid.results, ?_, ?_⟩
  · exact toTraps_wellFormed legal.nonempty legal.inside (splits.targets valid.traps)
  · intro trap flat
    obtain ⟨block, member, -, listed⟩ := mem_toTraps.mp flat
    obtain ⟨source, declared, same⟩ := splits.exists_trap member listed
    rw [← same]
    exact valid.exceptions source declared

/-- A body with the traps of its table compares as equal to the body itself. -/
theorem Valid.compare_withTraps (valid : body.Valid)
    (splits : Splits body.count body.traps table)
    (legal : Legal body.rule body.count table.blocks) :
    body.compare { body with traps := table.toTraps } = some [] := by
  have dispatch : dispatchAt body.traps = dispatchAt table.toTraps := by
    funext p
    rw [← splits.finished.dispatch]
    exact (legal.toApart.scattered.dispatchAt_toTraps legal.distinct table.count p).symm
  change compareTraps body.count body.traps body.count table.toTraps = some []
  by_cases undeclared : body.traps = []
  · simp [compareTraps, undeclared]
  · exact (compareTraps_eq_nil_iff undeclared valid.traps
      (valid.withTraps splits legal).traps).mpr dispatch

/-- The split of a valid body is refused exactly where the dispatch list changes between a call
and the instruction that takes up its result, at the first such place. Otherwise there is a table,
and the body with its traps has the same dispatch, is valid, differs in nothing else, and has the
same table as its split. -/
theorem valid_split_installs (body : Body) (options : SplitOptions)
    (accepted : body.fault? = none) :
    (∀ index span target size,
      body.split options ≠ .error (.malformedTrap index span target size)) ∧
    ((∃ p before after, body.split options = .error (.illegalSplit p before after)) ↔
      ∃ p, body.SeversCall p) ∧
    (∀ p before after, body.split options = .error (.illegalSplit p before after) ↔
      body.SeversCall p ∧ (∀ q < p, ¬ body.SeversCall q) ∧
        before = dispatchAt body.traps (p - 1) ∧ after = dispatchAt body.traps p) ∧
    ((∀ p, ¬ body.SeversCall p) → ∃ table after, body.split options = .ok table ∧
      body.install? table = some after ∧ body.compare after = some [] ∧ after.fault? = none ∧
      after.insts = body.insts ∧ after.exceptionNames = body.exceptionNames ∧
      after.rule = body.rule ∧ ∀ again, after.split again = .ok table) := by
  have valid := body.fault?_eq_none_iff.mp accepted
  have outcome := split_outcome body.rule options body.count body.traps
  have illegal := outcome.illegalSplit_iff
  have refused := outcome.exists_illegalSplit_iff
  simp only [valid.forbiddenChange_iff] at illegal refused
  refine ⟨?_, ?_, ?_, ?_⟩
  · intro index span target size failed
    obtain ⟨-, trap, found, -, -, misfit, -⟩ :=
      (outcome.malformedTrap_iff index span target size).mp failed
    exact misfit (valid.traps trap (List.mem_of_getElem? found))
  · exact refused.trans (and_iff_right valid.traps)
  · intro p before after
    exact (illegal p before after).trans (and_iff_right valid.traps)
  · intro whole
    have allowed : ∀ p, ¬ ForbiddenChange body.rule body.count (dispatchAt body.traps) p :=
      fun p change => whole p ((valid.forbiddenChange_iff p).mp change)
    obtain ⟨table, done⟩ := outcome.exists_ok_iff.mpr ⟨valid.traps, allowed⟩
    obtain ⟨-, -, splits⟩ := (outcome.ok_iff table).mp done
    have legal := splits.legal valid.traps allowed
    have after := valid.withTraps splits legal
    refine ⟨table, { body with traps := table.toTraps }, done, ?_, ?_, ?_, rfl, rfl, rfl, ?_⟩
    · rw [install?, if_pos splits.count_eq]
    · exact valid.compare_withTraps splits legal
    · exact (fault?_eq_none_iff _).mpr after
    · -- The traps of a table in its own order are split back into it.
      intro again
      obtain ⟨size, blocks⟩ := table
      obtain rfl : size = body.count := splits.count_eq
      exact legal.split_toTraps (splits.targets valid.traps) (.refl _) again

/-- A call whose result is taken up inside the same trap, while a second trap ends right before the
call: the table cuts there and nowhere else. -/
theorem valid_split_installs_around_call :
    ∃ table after, Body.split {} ⟨"b", [.nop, .invoke, .moveResult, .ret], ["A", "B"],
        [⟨⟨0, 1⟩, ⟨⟨0⟩, 3⟩⟩, ⟨⟨0, 4⟩, ⟨⟨1⟩, 3⟩⟩]⟩ = .ok table ∧
      Body.install? table ⟨"b", [.nop, .invoke, .moveResult, .ret], ["A", "B"],
        [⟨⟨0, 1⟩, ⟨⟨0⟩, 3⟩⟩, ⟨⟨0, 4⟩, ⟨⟨1⟩, 3⟩⟩]⟩ = some after ∧ after.fault? = none ∧
      ∀ again, after.split again = .ok table := by
  obtain ⟨table, after, done, installed, -, clean, -, -, -, again⟩ :=
    (valid_split_installs ⟨"b", [.nop, .invoke, .moveResult, .ret], ["A", "B"],
      [⟨⟨0, 1⟩, ⟨⟨0⟩, 3⟩⟩, ⟨⟨0, 4⟩, ⟨⟨1⟩, 3⟩⟩]⟩ {} (by decide)).2.2.2 (by
        rintro p ⟨inside, result, differ⟩
        have short : p.toNat < 4 := UInt32.lt_iff_toNat_lt.mp inside
        have here : p.toNat = 2 := by
          generalize p.toNat = n at result short
          match n, short with
          | 0, _ | 1, _ | 3, _ => cases result
          | 2, _ => rfl
        obtain rfl : p = 2 := UInt32.toNat_inj.mp here
        exact differ (by decide))
  exact ⟨table, after, done, installed, clean, again⟩

variable {options : SplitOptions}

/-- How a body is split makes no difference. -/
theorem split_eq (body : Body) (options other : SplitOptions) :
    body.split options = body.split other :=
  (split_outcome body.rule options body.count body.traps).unique
    (split_outcome body.rule other body.count body.traps)

theorem splits_of_split_eq (done : body.split options = .ok table) :
    Splits body.count body.traps table ∧ Legal body.rule body.count table.blocks := by
  have outcome := split_outcome body.rule options body.count body.traps
  obtain ⟨fits, allowed, splits⟩ := (outcome.ok_iff table).mp done
  exact ⟨splits, splits.legal fits allowed⟩

theorem Valid.install?_eq (valid : body.Valid) (done : body.split options = .ok table) :
    body.install? table = some { body with traps := table.toTraps } ∧
      body.compare { body with traps := table.toTraps } = some [] := by
  obtain ⟨splits, legal⟩ := splits_of_split_eq done
  constructor
  · rw [install?, if_pos splits.count_eq]
  · exact valid.compare_withTraps splits legal

theorem Valid.checkDispatch_eq (valid : body.Valid) (done : body.split options = .ok table) :
    body.checkDispatch table = some [] := by
  obtain ⟨installed, equal⟩ := valid.install?_eq done
  rw [checkDispatch, installed]
  exact equal

theorem Valid.requireDispatch_eq (valid : body.Valid) (done : body.split options = .ok table)
    (algorithm : Algorithm) : body.requireDispatch algorithm table = .ok () := by
  rw [requireDispatch, valid.checkDispatch_eq done]

/-- The two algorithms always agree on a valid body, on its table or on there being none. -/
theorem Valid.crossCheck_eq (valid : body.Valid) :
    body.crossCheck = .ok (body.split {}).toOption := by
  unfold crossCheck
  rw [body.split_eq ⟨.sweep, true⟩ {}, body.split_eq ⟨.instructionwise, true⟩ {}]
  cases done : body.split {} with
  | error error => simp [Except.toOption]
  | ok table =>
      simp only [↓reduceIte, valid.requireDispatch_eq done]
      rfl

/-- A valid body has a table, or its split is refused for a forbidden change of the dispatch. -/
theorem Valid.split_cases (valid : body.Valid) (options : SplitOptions) :
    (∃ table, body.split options = .ok table) ∨
      ∃ p before after, body.split options = .error (.illegalSplit p before after) :=
  (split_outcome body.rule options body.count body.traps).ok_or_illegalSplit valid.traps

end Body

end DisjointTraps
