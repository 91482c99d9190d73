import DisjointTraps.Proofs.RoundTrip

set_option autoImplicit false

namespace DisjointTraps

variable {names more : List String} {name other : String} {exception : ExceptionType}

theorem addName_grows (names : List String) (name : String) : names <+: addName names name := by
  unfold addName
  split
  · exact List.prefix_rfl
  · exact List.prefix_append names [name]

theorem mem_addName (names : List String) (name : String) : name ∈ addName names name := by
  unfold addName
  split
  · assumption
  · exact List.mem_append_right names List.mem_cons_self

/-- A name keeps its number when others are added. -/
theorem typeOf_of_grows (member : name ∈ names) (grows : names <+: more) :
    typeOf more name = typeOf names name := by
  obtain ⟨added, rfl⟩ := grows
  rw [typeOf, typeOf, List.idxOf_append_of_mem member]

/-- The number that a name will have is the one that it gets. -/
theorem typeOf_addName (names : List String) (name : String) :
    typeOf (addName names name) name = typeOf names name := by
  unfold addName
  split
  · rfl
  · rename_i fresh
    rw [typeOf, typeOf, List.idxOf_append_of_notMem fresh, List.idxOf_cons_self, Nat.add_zero,
      List.idxOf_eq_length fresh]

theorem typeOf?_eq_some_iff : typeOf? names name = some exception ↔
    name ∈ names ∧ typeOf names name = exception := by
  unfold typeOf?
  split <;> simp_all

theorem typeOf?_addName (names : List String) (name other : String) :
    typeOf? (addName names name) other =
      if name = other then some (typeOf names name) else typeOf? names other := by
  by_cases same : name = other
  · subst same
    rw [if_pos rfl, typeOf?_eq_some_iff]
    exact ⟨mem_addName names name, typeOf_addName names name⟩
  · have members : other ∈ addName names name ↔ other ∈ names := by
      unfold addName
      split
      · rfl
      · simp [Ne.symm same]
    rw [if_neg same, typeOf?, typeOf?]
    simp only [members]
    split
    · rename_i member
      rw [typeOf_of_grows member (addName_grows names name)]
    · rfl

/-- Looking up a name and looking up a number are inverse to each other. -/
theorem typeOf?_eq_some_iff_nameOf? (once : names.Nodup) (few : names.length < UInt32.size) :
    typeOf? names name = some exception ↔ nameOf? names exception = some name := by
  rw [typeOf?_eq_some_iff, nameOf?]
  constructor
  · rintro ⟨member, rfl⟩
    have place := List.idxOf_lt_length_of_mem member
    have fits : (typeOf names name).number.toNat = names.idxOf name :=
      UInt32.toNat_ofNat_of_lt' (Nat.lt_trans place few)
    rw [fits, List.getElem?_eq_getElem place, List.getElem_idxOf]
  · intro found
    obtain ⟨place, rfl⟩ := List.getElem?_eq_some_iff.mp found
    refine ⟨List.getElem_mem place, ?_⟩
    rw [typeOf, once.idxOf_getElem, ExceptionType.ofIndex, UInt32.ofNat_toNat]

/-- A body with an index in which the numbers of its exception names are looked up. -/
structure IndexedBody where
  body : Body
  index : Std.HashMap String ExceptionType

namespace IndexedBody

def new (name : String) : IndexedBody := ⟨{ name }, ∅⟩

/-- A name in the index has its number already; another one gets the next free number and is entered
on both sides. -/
def intern (state : IndexedBody) (name : String) : IndexedBody × ExceptionType :=
  match state.index[name]? with
  | some exception => (state, exception)
  | none =>
      let exception := ExceptionType.ofIndex state.body.exceptionNames.length
      let names := state.body.exceptionNames ++ [name]
      (⟨{ state.body with exceptionNames := names }, state.index.insert name exception⟩, exception)

def internNames (state : IndexedBody) : List Text.Statement → IndexedBody × List ExceptionType
  | [] => (state, [])
  | .exception name :: rest => (state.intern name).1.internNames rest
  | .trap _ _ _ name _ :: rest =>
      let (named, exception) := state.intern name
      let (all, exceptions) := named.internNames rest
      (all, exception :: exceptions)
  | _ :: rest => state.internNames rest

/-- The body that a text describes, where a trap keeps the number that its exception type got when
the trap was read. -/
def read (name text : String) : Except Text.Error IndexedBody := do
  let body ← Body.parse name text
  let (all, exceptions) := (new name).internNames (Text.Source.ofText text).statements.1
  let traps := List.zipWith (fun (trap : Trap ExceptionType) exception =>
    ⟨trap.span, ⟨exception, trap.handler.target⟩⟩) body.traps exceptions
  return ⟨{ body with exceptionNames := all.body.exceptionNames, traps }, all.index⟩

/-- No name is there twice, and the index has exactly the names with their places. -/
structure Coherent (state : IndexedBody) : Prop where
  once : state.body.exceptionNames.Nodup
  index_eq : ∀ name, state.index[name]? = state.body.lookup? name

variable {state : IndexedBody}

theorem coherent_new (name : String) : (new name).Coherent := by
  refine ⟨List.nodup_nil, fun other => ?_⟩
  simp [new, Body.lookup?, typeOf?]

/-- A name keeps its number, or gets the next one on both sides. -/
theorem Coherent.intern_cases (coherent : state.Coherent) (name : String) :
    (name ∈ state.body.exceptionNames ∧
      state.intern name = (state, typeOf state.body.exceptionNames name)) ∨
    (name ∉ state.body.exceptionNames ∧
      state.intern name = (⟨{ state.body with exceptionNames := state.body.exceptionNames ++ [name] },
        state.index.insert name (typeOf state.body.exceptionNames name)⟩,
        typeOf state.body.exceptionNames name)) := by
  have indexed := coherent.index_eq name
  by_cases known : name ∈ state.body.exceptionNames
  · rw [Body.lookup?, typeOf?, if_pos known] at indexed
    exact .inl ⟨known, by rw [IndexedBody.intern, indexed]⟩
  · rw [Body.lookup?, typeOf?, if_neg known] at indexed
    have next : typeOf state.body.exceptionNames name =
        .ofIndex state.body.exceptionNames.length := by
      rw [typeOf, List.idxOf_eq_length known]
    exact .inr ⟨known, by rw [IndexedBody.intern, indexed, next]⟩

/-- Interning with the index does what interning without it does. -/
theorem Coherent.intern_eq (coherent : state.Coherent) (name : String) :
    (state.intern name).1.body = (state.body.intern name).1 ∧
      (state.intern name).2 = (state.body.intern name).2 := by
  rcases coherent.intern_cases name with ⟨known, same⟩ | ⟨fresh, grown⟩
  · simp [same, Body.intern, addName, known]
  · simp [grown, Body.intern, addName, fresh]

theorem Coherent.intern (coherent : state.Coherent) (name : String) :
    (state.intern name).1.Coherent := by
  have named := (coherent.intern_eq name).1
  refine ⟨?_, fun other => ?_⟩
  · rw [named]
    exact nodup_addName coherent.once name
  · rw [named, Body.lookup?, Body.intern, typeOf?_addName]
    rcases coherent.intern_cases name with ⟨known, same⟩ | ⟨fresh, grown⟩
    · rw [same, coherent.index_eq, Body.lookup?]
      split
      · rename_i here
        rw [typeOf?_eq_some_iff, ← here]
        exact ⟨known, rfl⟩
      · rfl
    · rw [grown, Std.HashMap.getElem?_insert, coherent.index_eq, Body.lookup?]
      simp only [beq_iff_eq]

theorem names_intern (coherent : state.Coherent) (name : String) :
    (state.intern name).1.body.exceptionNames = addName state.body.exceptionNames name := by
  rw [(coherent.intern_eq name).1, Body.intern]

end IndexedBody

def Text.Statement.trapName? : Text.Statement → Option String
  | .trap _ _ _ name _ => some name
  | _ => none

namespace IndexedBody

variable {state : IndexedBody}

/-- Names that are interned one by one become the names of all statements, and the number that a
trap got on the way is still the one of its name at the end. -/
theorem Coherent.internNames (coherent : state.Coherent) (statements : List Text.Statement) :
    (state.internNames statements).1.Coherent ∧
    (state.internNames statements).1.body.exceptionNames =
      (statements.filterMap Text.Statement.exceptionName?).foldl addName
        state.body.exceptionNames ∧
    (state.internNames statements).2 = (statements.filterMap Text.Statement.trapName?).map
      (typeOf (state.internNames statements).1.body.exceptionNames) := by
  induction statements generalizing state with
  | nil => exact ⟨coherent, rfl, rfl⟩
  | cons statement rest ih =>
      cases statement with
      | exception name =>
          have later := ih (coherent.intern name)
          rw [names_intern coherent] at later
          exact later
      | trap line first limit name target =>
          obtain ⟨done, names, numbers⟩ := ih (coherent.intern name)
          rw [names_intern coherent] at names
          have number : (state.intern name).2 =
              typeOf ((state.intern name).1.internNames rest).1.body.exceptionNames name := by
            rw [(coherent.intern_eq name).2, names, Text.foldl_addName,
              typeOf_of_grows (mem_addName _ name) (List.prefix_append _ _), typeOf_addName]
            rfl
          refine ⟨done, names, ?_⟩
          change (state.intern name).2 :: ((state.intern name).1.internNames rest).2 = _
          rw [number, numbers]
          rfl
      | _ => exact ih coherent

end IndexedBody

theorem Text.resolveTraps_exceptions {labels : Labels} {names : List String}
    {statements : List Statement} {traps : List (Trap ExceptionType)}
    (resolved : resolveTraps labels names statements = .ok traps) :
    traps.map (·.handler.exception) =
      (statements.filterMap Statement.trapName?).map (typeOf names) := by
  induction statements generalizing traps with
  | nil =>
      cases resolved
      rfl
  | cons statement rest ih =>
      cases statement with
      | trap line first limit name target =>
          obtain ⟨p, -, resolved⟩ := Source.bind_eq_ok resolved
          obtain ⟨q, -, resolved⟩ := Source.bind_eq_ok resolved
          obtain ⟨r, -, resolved⟩ := Source.bind_eq_ok resolved
          obtain ⟨others, later, finish⟩ := Source.bind_eq_ok resolved
          cases finish
          exact congrArg (typeOf names name :: ·) (ih later)
      | _ => exact ih resolved

namespace IndexedBody

/-- Reading with an index gives the body that reading without it gives. -/
theorem read_eq_ok {name text : String} {body : Body} (parses : Body.parse name text = .ok body) :
    ∃ index, read name text = .ok ⟨body, index⟩ ∧ Coherent ⟨body, index⟩ := by
  obtain ⟨statements, found, stated, -, assembled⟩ :=
    (Text.parse_eq_ok_iff_assemble name text body).mp parses
  obtain ⟨insts, -, assembled⟩ := Text.Source.bind_eq_ok assembled
  obtain ⟨traps, resolved, finish⟩ := Text.Source.bind_eq_ok assembled
  cases finish
  obtain ⟨⟨once, index_eq⟩, names, numbers⟩ := (coherent_new name).internNames statements
  have all : ((new name).internNames statements).1.body.exceptionNames =
      Text.exceptionNames statements := names
  refine ⟨((new name).internNames statements).1.index, ?_, ?_⟩
  · have kept : List.zipWith (fun (trap : Trap ExceptionType) exception =>
        (⟨trap.span, ⟨exception, trap.handler.target⟩⟩ : Trap ExceptionType)) traps
          ((new name).internNames statements).2 = traps := by
      rw [numbers, all, ← Text.resolveTraps_exceptions resolved, List.zipWith_map_right,
        List.zipWith_self, List.map_id'']
      exact fun _ => rfl
    rw [read, parses, stated]
    change Except.ok _ = Except.ok _
    rw [kept, all]
  · refine ⟨?_, fun other => ?_⟩
    · rwa [all] at once
    · rw [index_eq, Body.lookup?, Body.lookup?, all]

theorem read_eq_error {name text : String} {error : Text.Error}
    (refused : Body.parse name text = .error error) : read name text = .error error := by
  rw [read, refused]
  rfl

end IndexedBody

/-- What can be done to a body. -/
inductive Operation where
  | intern (name : String)
  | push (inst : Inst)
  | pushAll (insts : List Inst)
  | declare (trap : Trap ExceptionType)
  | install (table : Table ExceptionType)
  /-- A body that is read takes the place of the one before. -/
  | read (name text : String)

/-- How an operation ends: with a new state, with a text that is refused, or with the assertion that
a table is for as many instructions as the body has. -/
inductive Ending (σ : Type) where
  | done (state : σ)
  | refused (fault : Text.Error)
  | assertionFailed

namespace Ending

variable {σ τ : Type}

def map (f : σ → τ) : Ending σ → Ending τ
  | done state => .done (f state)
  | refused fault => .refused fault
  | assertionFailed => .assertionFailed

/-- The state afterwards, where only a new one takes the place of the one before. -/
def after (before : σ) : Ending σ → σ
  | done state => state
  | _ => before

theorem after_map (f : σ → τ) (before : σ) (ending : Ending σ) :
    (ending.map f).after (f before) = f (ending.after before) := by
  cases ending <;> rfl

end Ending

namespace Operation

def ending (body : Body) : Operation → Ending Body
  | intern name => .done (body.intern name).1
  | push inst => .done (body.push inst)
  | pushAll insts => .done (body.pushAll insts)
  | declare trap => .done (body.declare trap)
  | install table =>
      match body.install? table with
      | some installed => .done installed
      | none => .assertionFailed
  | read name text =>
      match Body.parse name text with
      | .ok fresh => .done fresh
      | .error fault => .refused fault

def endingIndexed (state : IndexedBody) : Operation → Ending IndexedBody
  | intern name => .done (state.intern name).1
  | read name text =>
      match IndexedBody.read name text with
      | .ok fresh => .done fresh
      | .error fault => .refused fault
  | other => (other.ending state.body).map fun body => { state with body }

def apply (body : Body) (operation : Operation) : Body := (operation.ending body).after body

def applyIndexed (state : IndexedBody) (operation : Operation) : IndexedBody :=
  (operation.endingIndexed state).after state

/-- A text is read without a fault, so nothing is left of the body before. -/
def Replaces (operation : Operation) : Prop :=
  ∃ name text body, operation = read name text ∧ Body.parse name text = .ok body

theorem names_install {body after : Body} {table : Table ExceptionType}
    (installed : body.install? table = some after) :
    after.exceptionNames = body.exceptionNames := by
  unfold Body.install? at installed
  split at installed
  · cases installed
    rfl
  · cases installed

/-- Without a replacement names are only added, at the end. -/
theorem names_grow {operation : Operation} (keeps : ¬ operation.Replaces) (body : Body) :
    body.exceptionNames <+: (operation.apply body).exceptionNames := by
  cases operation with
  | intern name => exact addName_grows body.exceptionNames name
  | push inst => exact List.prefix_rfl
  | pushAll insts => exact List.prefix_rfl
  | declare trap => exact List.prefix_rfl
  | install table =>
      rw [apply, ending]
      cases installed : body.install? table with
      | some after => exact names_install installed ▸ List.prefix_rfl
      | none => exact List.prefix_rfl
  | read name text =>
      cases parses : Body.parse name text with
      | ok fresh => exact absurd ⟨name, text, fresh, rfl, parses⟩ keeps
      | error fault =>
          rw [apply, ending, parses]
          exact List.prefix_rfl

end Operation

namespace IndexedBody

variable {state : IndexedBody}

/-- One operation keeps the index right and ends with the index as it does without, also where it
ends in the failed assertion. -/
theorem Coherent.ending (coherent : state.Coherent) (operation : Operation) :
    (∀ next, operation.endingIndexed state = .done next → next.Coherent) ∧
      (operation.endingIndexed state).map (·.body) = operation.ending state.body := by
  -- What changes neither names nor index leaves them coherent.
  have unnamed : ∀ body : Body, body.exceptionNames = state.body.exceptionNames →
      Coherent { state with body } := by
    intro body same
    refine ⟨same ▸ coherent.once, fun name => ?_⟩
    rw [coherent.index_eq, Body.lookup?, Body.lookup?, same]
  cases operation with
  | intern name =>
      refine ⟨?_, congrArg Ending.done (coherent.intern_eq name).1⟩
      rintro _ ⟨⟩
      exact coherent.intern name
  | push inst =>
      refine ⟨?_, rfl⟩
      rintro _ ⟨⟩
      exact unnamed _ rfl
  | pushAll insts =>
      refine ⟨?_, rfl⟩
      rintro _ ⟨⟩
      exact unnamed _ rfl
  | declare trap =>
      refine ⟨?_, rfl⟩
      rintro _ ⟨⟩
      exact unnamed _ rfl
  | install table =>
      have through : (Operation.install table).endingIndexed state =
          ((Operation.install table).ending state.body).map fun body => { state with body } := rfl
      rw [through, Operation.ending]
      cases installed : state.body.install? table with
      | some after =>
          refine ⟨?_, rfl⟩
          rintro _ ⟨⟩
          exact unnamed after (Operation.names_install installed)
      | none =>
          refine ⟨?_, rfl⟩
          rintro _ ⟨⟩
  | read name text =>
      rw [Operation.endingIndexed, Operation.ending]
      cases parses : Body.parse name text with
      | ok fresh =>
          obtain ⟨index, done, right⟩ := read_eq_ok parses
          rw [done]
          refine ⟨?_, rfl⟩
          rintro _ ⟨⟩
          exact right
      | error fault =>
          rw [read_eq_error parses]
          refine ⟨?_, rfl⟩
          rintro _ ⟨⟩

theorem Coherent.apply (coherent : state.Coherent) (operation : Operation) :
    (operation.applyIndexed state).Coherent ∧
      (operation.applyIndexed state).body = operation.apply state.body := by
  obtain ⟨kept, same⟩ := coherent.ending operation
  constructor
  · rw [Operation.applyIndexed]
    cases ended : operation.endingIndexed state with
    | done next => exact kept next ended
    | refused fault => exact coherent
    | assertionFailed => exact coherent
  · rw [Operation.applyIndexed, Operation.apply, ← same, Ending.after_map]

def run (state : IndexedBody) (operations : List Operation) : IndexedBody :=
  operations.foldl Operation.applyIndexed state

theorem Coherent.run (coherent : state.Coherent) (operations : List Operation) :
    (state.run operations).Coherent ∧
      (state.run operations).body = operations.foldl Operation.apply state.body := by
  induction operations generalizing state with
  | nil => exact ⟨coherent, rfl⟩
  | cons operation rest ih =>
      obtain ⟨step, same⟩ := coherent.apply operation
      obtain ⟨done, body⟩ := ih step
      rw [same] at body
      exact ⟨done, body⟩

/-- A run without a replacement keeps all names at their places. -/
theorem Coherent.run_grows (coherent : state.Coherent) {operations : List Operation}
    (keep : ∀ operation ∈ operations, ¬ operation.Replaces) :
    state.body.exceptionNames <+: (state.run operations).body.exceptionNames := by
  induction operations generalizing state with
  | nil => exact List.prefix_rfl
  | cons operation rest ih =>
      obtain ⟨here, later⟩ := List.forall_mem_cons.mp keep
      obtain ⟨step, same⟩ := coherent.apply operation
      have grows := Operation.names_grow here state.body
      rw [← same] at grows
      exact grows.trans (ih step later)

theorem Coherent.number_kept (coherent : state.Coherent) (name : String)
    {later : List Operation} (keep : ∀ operation ∈ later, ¬ operation.Replaces) :
    ((state.intern name).1.run later).index[name]? = some (state.intern name).2 := by
  have grows := (coherent.intern name).run_grows keep
  rw [names_intern coherent] at grows
  have member := mem_addName state.body.exceptionNames name
  rw [((coherent.intern name).run later).1.index_eq, Body.lookup?, typeOf?_eq_some_iff]
  refine ⟨grows.subset member, ?_⟩
  rw [typeOf_of_grows member grows, typeOf_addName, (coherent.intern_eq name).2]
  rfl

end IndexedBody

/-- Whatever is done to a new body, its names and the index of them stay inverse to each other, and
both show what the names alone show. A number that interning gives out belongs to its name until
another body is read, so a trap that is declared with it is a trap for this name. -/
theorem interning_stays_bijective (start : String) (operations : List Operation) :
    let state := (IndexedBody.new start).run operations
    state.body = operations.foldl Operation.apply { name := start } ∧
    (∀ name, state.index[name]? = state.body.lookup? name) ∧
    state.body.exceptionNames.Nodup ∧
    (state.body.exceptionNames.length < UInt32.size → ∀ name exception,
      state.index[name]? = some exception ↔
        nameOf? state.body.exceptionNames exception = some name) ∧
    ∀ name, (state.intern name).2 = (state.body.intern name).2 ∧
      ∀ later, (∀ operation ∈ later, ¬ operation.Replaces) →
        let final := (state.intern name).1.run later
        final.body.exceptionNames.length < UInt32.size →
          final.index[name]? = some (state.intern name).2 ∧
          final.body.exceptionName (state.intern name).2 = name ∧
          ∀ trap ∈ final.body.traps, trap.handler.exception = (state.intern name).2 →
            final.body.exceptionName trap.handler.exception = name := by
  intro state
  obtain ⟨coherent, same⟩ := (IndexedBody.coherent_new start).run operations
  refine ⟨same, coherent.index_eq, coherent.once, ?_, ?_⟩
  · intro few name exception
    rw [coherent.index_eq]
    exact typeOf?_eq_some_iff_nameOf? coherent.once few
  · intro name
    refine ⟨(coherent.intern_eq name).2, ?_⟩
    intro later keep final few
    have number : final.index[name]? = some (state.intern name).2 := coherent.number_kept name keep
    have done := ((coherent.intern name).run later).1
    have found := number
    rw [done.index_eq, Body.lookup?, typeOf?_eq_some_iff_nameOf? done.once few] at found
    have named : final.body.exceptionName (state.intern name).2 = name := by
      rw [Body.exceptionName, found, Option.getD_some]
    exact ⟨number, named, fun trap _ uses => by rw [uses, named]⟩

/-- A name that had a number in the body before gets another one after a text has been read, and
keeps it while a faulty text is refused and a table does not fit. -/
theorem interning_stays_bijective_after_reading :
    let later : List Operation := [.push .ret, .read "d" "exception C frob", .intern "C",
      .declare ⟨⟨0, 1⟩, ⟨⟨1⟩, 0⟩⟩, .install ⟨7, []⟩]
    let state := (IndexedBody.new "b").run [.intern "A", .read "c" "exception B return"]
    let final := (state.intern "A").1.run later
    (∀ operation ∈ later, ¬ operation.Replaces) ∧ (state.intern "A").2 = ⟨1⟩ ∧
      final.body = ⟨"c", [.ret, .ret], ["B", "A", "C"], [⟨⟨0, 1⟩, ⟨⟨1⟩, 0⟩⟩]⟩ ∧
      final.index["A"]? = some ⟨1⟩ ∧ final.body.exceptionName ⟨1⟩ = "A" := by
  intro later state final
  have fresh : Body.parse "c" "exception B return" = .ok ⟨"c", [.ret], ["B"], []⟩ := by
    decide +kernel
  have faulty : Body.parse "d" "exception C frob" = .error ⟨1, .unknownInstruction "frob"⟩ := by
    decide +kernel
  have keep : ∀ operation ∈ later, ¬ operation.Replaces := by
    simp [later, Operation.Replaces, faulty]
  obtain ⟨same, -, -, -, each⟩ :=
    interning_stays_bijective "b" [.intern "A", .read "c" "exception B return"]
  have before : state.body = ⟨"c", [.ret], ["B"], []⟩ := by
    rw [same]
    simp [Operation.apply, Operation.ending, Ending.after, fresh]
  obtain ⟨number, kept⟩ := each "A"
  have second : (state.intern "A").2 = ⟨1⟩ := by
    rw [number, before]
    decide
  have coherent := ((IndexedBody.coherent_new "b").run
    [.intern "A", .read "c" "exception B return"]).1
  have after : final.body = ⟨"c", [.ret, .ret], ["B", "A", "C"], [⟨⟨0, 1⟩, ⟨⟨1⟩, 0⟩⟩]⟩ := by
    rw [((coherent.intern "A").run later).2, (coherent.intern_eq "A").1, before]
    simp only [later, List.foldl_cons, List.foldl_nil, Operation.apply, Operation.ending, faulty]
    decide
  obtain ⟨found, named, -⟩ := kept later keep (by rw [after]; decide)
  rw [second] at found named
  exact ⟨keep, second, after, found, named⟩

end DisjointTraps
