import DisjointTraps.Proofs.Reading

set_option autoImplicit false

namespace DisjointTraps.Text

variable {program : List Clause} {known found : Labels} {statements : List Statement}
variable {name : String} {p : Nat} {q : Position}

theorem bind_eq_ok_iff {α β : Type} (first : Except Error α) (next : α → Except Error β)
    (result : β) :
    (first >>= next) = .ok result ↔ ∃ value, first = .ok value ∧ next value = .ok result := by
  constructor
  · exact Source.bind_eq_ok
  · rintro ⟨value, rfl, finish⟩
    exact finish

/-- A label is defined in front of the position `q`, where the first instruction of the program has
position `p`. -/
def DefinedAt (p : Nat) (program : List Clause) (name : String) (q : Position) : Prop :=
  ∃ before after, program = before ++ .label name :: after ∧
    q = UInt32.ofNat (p + before.countP Clause.isInst)

theorem not_definedAt_nil : ¬ DefinedAt p [] name q := by
  rintro ⟨before, after, split, -⟩
  simp at split

theorem definedAt_cons (clause : Clause) (rest : List Clause) :
    DefinedAt p (clause :: rest) name q ↔ (clause = .label name ∧ q = UInt32.ofNat p) ∨
      DefinedAt (p + if clause.isInst then 1 else 0) rest name q := by
  constructor
  · rintro ⟨before, after, split, rfl⟩
    cases before with
    | nil => exact .inl ⟨(List.cons.inj split).1, rfl⟩
    | cons first before =>
        obtain ⟨rfl, rfl⟩ := List.cons.inj split
        refine .inr ⟨before, after, rfl, ?_⟩
        rw [List.countP_cons, Nat.add_assoc, Nat.add_comm (before.countP _)]
  · rintro (⟨rfl, rfl⟩ | ⟨before, after, rfl, rfl⟩)
    · exact ⟨[], rest, rfl, rfl⟩
    · refine ⟨clause :: before, after, rfl, ?_⟩
      rw [List.countP_cons, Nat.add_assoc, Nat.add_comm (before.countP _)]

theorem names_label_iff : Names program (.label name) q ↔ DefinedAt 0 program name q := by
  constructor
  · rintro ⟨⟩
    rename_i before after defined
    exact ⟨before, after, defined, by rw [Nat.zero_add]⟩
  · rintro ⟨before, after, defined, rfl⟩
    rw [Nat.zero_add]
    exact .label defined

theorem collectLabels_label (known : Labels) (p line : Nat) (name : String)
    (rest : List Statement) :
    collectLabels known p (.label line name :: rest) =
      if (known.lookup name).isSome then .error ⟨line, .duplicateLabel⟩
      else collectLabels ((name, UInt32.ofNat p) :: known) p rest := rfl

theorem collectLabels_other (known : Labels) (p : Nat) {statement : Statement}
    (rest : List Statement) (other : ∀ line name, statement ≠ .label line name) :
    collectLabels known p (statement :: rest) =
      collectLabels known (p + if statement.clause.isInst then 1 else 0) rest := by
  cases statement with
  | label line name => exact absurd rfl (other line name)
  | _ => rfl

theorem lookup_cons_eq_none_iff (other : String) (p : Position) (known : Labels) (name : String) :
    List.lookup name ((other, p) :: known) = none ↔ name ≠ other ∧ known.lookup name = none := by
  by_cases same : name = other
  · simp [same]
  · have apart : (name == other) = false := beq_false_of_ne same
    simp [List.lookup_cons, apart, same]

/-- The labels that are collected name the positions in front of which they are defined. -/
theorem lookup_collectLabels (collected : collectLabels known p statements = .ok found) :
    found.lookup name = some q ↔
      known.lookup name = some q ∨ DefinedAt p (statements.map Statement.clause) name q := by
  induction statements generalizing known p with
  | nil =>
      cases collected
      simp [not_definedAt_nil]
  | cons statement rest ih =>
      rw [List.map_cons, definedAt_cons]
      by_cases label : ∃ line other, statement = .label line other
      · obtain ⟨line, other, rfl⟩ := label
        rw [collectLabels_label] at collected
        split at collected
        · cases collected
        · -- The name is new, so the entry in front hides no earlier one.
          rename_i fresh
          rw [Option.not_isSome_iff_eq_none] at fresh
          rw [ih collected]
          by_cases same : name = other
          · subst same
            simp [fresh, Statement.clause, Clause.isInst, eq_comm]
          · have apart : (name == other) = false := beq_false_of_ne same
            have differ : Clause.label other ≠ .label name := by
              intro equal
              exact same (Clause.label.inj equal).symm
            simp [apart, differ, Statement.clause, Clause.isInst, List.lookup_cons]
      · have other : ∀ line name, statement ≠ .label line name :=
          fun line name equal => label ⟨line, name, equal⟩
        rw [collectLabels_other known p rest other] at collected
        rw [ih collected]
        have differ : statement.clause ≠ .label name := by
          cases statement with
          | label line name => exact absurd rfl (other line name)
          | _ => simp [Statement.clause]
        simp [differ]

/-- Labels can be collected as long as none is defined twice. -/
theorem exists_collectLabels_iff (known : Labels) (p : Nat) (statements : List Statement) :
    (∃ found, collectLabels known p statements = .ok found) ↔
      (labels (statements.map Statement.clause)).Nodup ∧
        ∀ name ∈ labels (statements.map Statement.clause), known.lookup name = none := by
  induction statements generalizing known p with
  | nil => simp [collectLabels, labels]
  | cons statement rest ih =>
      by_cases label : ∃ line other, statement = .label line other
      · obtain ⟨line, other, rfl⟩ := label
        have first : labels ((Statement.label line other :: rest).map Statement.clause) =
            other :: labels (rest.map Statement.clause) := rfl
        rw [collectLabels_label, first, List.nodup_cons, List.forall_mem_cons]
        by_cases again : (known.lookup other).isSome
        · have defined : known.lookup other ≠ none := Option.isSome_iff_ne_none.mp again
          simp [again, defined]
        · rw [if_neg again, ih]
          rw [Option.not_isSome_iff_eq_none] at again
          simp only [lookup_cons_eq_none_iff]
          constructor
          · rintro ⟨once, fresh⟩
            exact ⟨⟨fun member => (fresh other member).1 rfl, once⟩, again,
              fun name member => (fresh name member).2⟩
          · rintro ⟨⟨apart, once⟩, -, fresh⟩
            exact ⟨once, fun name member => ⟨ne_of_mem_of_not_mem member apart, fresh name member⟩⟩
      · have other : ∀ line name, statement ≠ .label line name :=
          fun line name equal => label ⟨line, name, equal⟩
        have skip : labels ((statement :: rest).map Statement.clause) =
            labels (rest.map Statement.clause) := by
          cases statement with
          | label line name => exact absurd rfl (other line name)
          | _ => rfl
        rw [collectLabels_other known p rest other, ih, skip]

theorem names_number_iff (p : Position) : Names program (.number p) q ↔ q = p := by
  constructor
  · rintro ⟨⟩
    rfl
  · rintro rfl
    exact .number q

/-- The collected labels resolve each operand to the position that it names. -/
theorem resolve_eq_ok_iff
    (lookup : ∀ name q, found.lookup name = some q ↔ Names program (.label name) q)
    (line : Nat) (operand : Operand) (q : Position) :
    found.resolve line operand = .ok q ↔ Names program operand q := by
  cases operand with
  | number p =>
      rw [names_number_iff, Labels.resolve, Except.ok.injEq, eq_comm]
  | label name =>
      rw [← lookup, Labels.resolve]
      split
      · rename_i p there
        rw [there, Except.ok.injEq, Option.some_inj]
      · rename_i absent
        simp [absent]

theorem instOf_inst_iff (inst other : Inst) :
    InstOf program (.inst inst) other ↔ other = inst := by
  constructor
  · rintro ⟨⟩
    rfl
  · rintro rfl
    exact .plain other

theorem instOf_goto_iff (target : Operand) (inst : Inst) :
    InstOf program (.goto target) inst ↔ ∃ q, Names program target q ∧ inst = .goto q := by
  constructor
  · rintro ⟨⟩
    rename_i q names
    exact ⟨q, names, rfl⟩
  · rintro ⟨q, names, rfl⟩
    exact .goto names

theorem trapOf_iff (exceptions : List String) (first limit target : Operand) (name : String)
    (trap : Trap ExceptionType) :
    TrapOf program exceptions (.trap first limit name target) trap ↔
      ∃ p, Names program first p ∧ ∃ q, Names program limit q ∧ ∃ r, Names program target r ∧
        trap = ⟨⟨p, q⟩, ⟨typeOf exceptions name, r⟩⟩ := by
  constructor
  · rintro ⟨⟩
    rename_i p q r begins ends goes
    exact ⟨p, begins, q, ends, r, goes, rfl⟩
  · rintro ⟨p, begins, q, ends, r, goes, rfl⟩
    exact .trap name begins ends goes

theorem resolveInsts_eq_ok_iff
    (resolves : ∀ line operand q, found.resolve line operand = .ok q ↔ Names program operand q)
    (statements : List Statement) (insts : List Inst) :
    resolveInsts found statements = .ok insts ↔ List.Forall₂ (InstOf program)
      ((statements.map Statement.clause).filter Clause.isInst) insts := by
  induction statements generalizing insts with
  | nil => simp [resolveInsts, eq_comm]
  | cons statement rest ih =>
      cases statement with
      | inst inst =>
          have here : ((Statement.inst inst :: rest).map Statement.clause).filter Clause.isInst =
            .inst inst :: (rest.map Statement.clause).filter Clause.isInst := rfl
          rw [here, List.forall₂_cons_left_iff, resolveInsts, bind_eq_ok_iff]
          simp [ih, instOf_inst_iff, pure, Except.pure, eq_comm]
      | goto line target =>
          have here : ((Statement.goto line target :: rest).map Statement.clause).filter
            Clause.isInst = .goto target :: (rest.map Statement.clause).filter Clause.isInst := rfl
          rw [here, List.forall₂_cons_left_iff, resolveInsts]
          simp only [bind_eq_ok_iff, resolves, ih, instOf_goto_iff, pure, Except.pure]
          constructor
          · rintro ⟨p, names, later, all, finish⟩
            exact ⟨_, later, ⟨p, names, rfl⟩, all, (Except.ok.inj finish).symm⟩
          · rintro ⟨_, later, ⟨p, names, rfl⟩, all, rfl⟩
            exact ⟨p, names, later, all, rfl⟩
      | _ => exact ih insts

theorem resolveTraps_eq_ok_iff
    (resolves : ∀ line operand q, found.resolve line operand = .ok q ↔ Names program operand q)
    (exceptions : List String) (statements : List Statement)
    (traps : List (Trap ExceptionType)) :
    resolveTraps found exceptions statements = .ok traps ↔
      List.Forall₂ (TrapOf program exceptions)
        ((statements.map Statement.clause).filter Clause.isTrap) traps := by
  induction statements generalizing traps with
  | nil => simp [resolveTraps, eq_comm]
  | cons statement rest ih =>
      cases statement with
      | trap line first limit name target =>
          have here : ((Statement.trap line first limit name target :: rest).map
            Statement.clause).filter Clause.isTrap = .trap first limit name target ::
              (rest.map Statement.clause).filter Clause.isTrap := rfl
          rw [here, List.forall₂_cons_left_iff, resolveTraps]
          simp only [bind_eq_ok_iff, resolves, ih, trapOf_iff, pure, Except.pure]
          constructor
          · rintro ⟨p, begins, q, ends, r, goes, later, all, finish⟩
            exact ⟨_, later, ⟨p, begins, q, ends, r, goes, rfl⟩, all, (Except.ok.inj finish).symm⟩
          · rintro ⟨_, later, ⟨p, begins, q, ends, r, goes, rfl⟩, all, rfl⟩
            exact ⟨p, begins, q, ends, r, goes, later, all, rfl⟩
      | _ => exact ih traps

theorem foldl_addName (known names : List String) :
    names.foldl addName known = known ++ (names.filter (· ∉ known)).eraseDups := by
  induction names generalizing known with
  | nil => simp
  | cons name names ih =>
      rw [List.foldl_cons, ih]
      by_cases old : name ∈ known
      · simp [addName, old]
      · have both : (names.filter (· ∉ known ++ [name])) =
            (names.filter (· ∉ known)).filter fun other => !other == name := by
          rw [List.filter_filter]
          apply List.filter_congr
          intro other _
          by_cases same : other = name <;> simp [same]
        simp only [addName, old, ↓reduceIte]
        rw [both, List.filter_cons_of_pos (by simpa using old), List.eraseDups_cons,
          List.append_assoc]
        rfl

theorem exceptionNames_eq (statements : List Statement) :
    exceptionNames statements =
      ((statements.map Statement.clause).filterMap Clause.exceptionName?).eraseDups := by
  have each : Clause.exceptionName? ∘ Statement.clause = Statement.exceptionName? := by
    funext statement
    cases statement <;> rfl
  rw [exceptionNames, foldl_addName, List.filterMap_map, each]
  simp

theorem assemble_eq_ok_iff
    (lookup : ∀ name q, found.lookup name = some q ↔
      Names (statements.map Statement.clause) (.label name) q) (name : String) (body : Body) :
    assemble name found statements = .ok body ↔
      body.name = name ∧ Describes (statements.map Statement.clause) body := by
  have resolves := resolve_eq_ok_iff lookup
  simp only [assemble, bind_eq_ok_iff, resolveInsts_eq_ok_iff resolves,
    resolveTraps_eq_ok_iff resolves, exceptionNames_eq, pure, Except.pure]
  constructor
  · rintro ⟨insts, all, traps, each, finish⟩
    cases finish
    exact ⟨rfl, all, rfl, each⟩
  · rintro ⟨rfl, all, names, each⟩
    rw [names] at each
    refine ⟨body.insts, all, body.traps, each, ?_⟩
    rw [← names]

theorem parse_eq_ok_iff_assemble (name text : String) (body : Body) :
    Body.parse name text = .ok body ↔ ∃ statements found,
      (Source.ofText text).statements = (statements, none) ∧
        collectLabels [] 0 statements = .ok found ∧ assemble name found statements = .ok body := by
  unfold Body.parse
  rcases (Source.ofText text).statements with ⟨statements, fault⟩
  simp only [bind_eq_ok_iff]
  cases fault with
  | none => simp
  | some error => simp

/-- A text is read as a body exactly if it is written for a program that has no label twice and
describes the body. -/
theorem parse_eq_ok_iff (name text : String) (body : Body) :
    Body.parse name text = .ok body ↔ body.name = name ∧ ∃ program,
      Writes text.toList program ∧ (labels program).Nodup ∧ Describes program body := by
  simp only [parse_eq_ok_iff_assemble, writes_iff]
  have lookup : ∀ {statements : List Statement} {found : Labels},
      collectLabels [] 0 statements = .ok found → ∀ name q, found.lookup name = some q ↔
        Names (statements.map Statement.clause) (.label name) q := by
    intro statements found collected name q
    simp [lookup_collectLabels collected, names_label_iff]
  constructor
  · rintro ⟨statements, found, read, collected, assembled⟩
    obtain ⟨named, describes⟩ := (assemble_eq_ok_iff (lookup collected) name body).mp assembled
    have once := ((exists_collectLabels_iff [] 0 statements).mp ⟨found, collected⟩).1
    exact ⟨named, _, ⟨statements, read, rfl⟩, once, describes⟩
  · rintro ⟨named, _, ⟨statements, read, rfl⟩, once, describes⟩
    obtain ⟨found, collected⟩ := (exists_collectLabels_iff [] 0 statements).mpr ⟨once, by simp⟩
    have assembled := (assemble_eq_ok_iff (lookup collected) name body).mpr ⟨named, describes⟩
    exact ⟨statements, found, read, collected, assembled⟩

theorem exists_forall₂_iff {α β : Type} (R : α → β → Prop) (list : List α) :
    (∃ others, List.Forall₂ R list others) ↔ ∀ a ∈ list, ∃ b, R a b := by
  induction list with
  | nil => simp
  | cons a list ih =>
      rw [List.forall_mem_cons, ← ih]
      simp only [List.forall₂_cons_left_iff]
      constructor
      · rintro ⟨_, b, others, here, later, -⟩
        exact ⟨⟨b, here⟩, others, later⟩
      · rintro ⟨⟨b, here⟩, others, later⟩
        exact ⟨_, b, others, here, later, rfl⟩

theorem mem_labels_iff (program : List Clause) (name : String) :
    name ∈ labels program ↔ Clause.label name ∈ program := by
  rw [labels, List.mem_filterMap]
  constructor
  · rintro ⟨clause, member, defines⟩
    cases clause with
    | label other =>
        cases defines
        exact member
    | _ => cases defines
  · intro member
    exact ⟨_, member, rfl⟩

/-- An operand names a position unless it is a label that is not defined. -/
theorem exists_names_iff (program : List Clause) (operand : Operand) :
    (∃ q, Names program operand q) ↔
      ∀ name, operand = .label name → name ∈ labels program := by
  cases operand with
  | number p => simp [names_number_iff]
  | label name =>
      simp only [Operand.label.injEq, forall_eq', mem_labels_iff]
      constructor
      · rintro ⟨_, ⟨⟩⟩
        rename_i before after defined
        rw [defined]
        exact List.mem_append_right before List.mem_cons_self
      · intro member
        obtain ⟨before, after, defined⟩ := List.append_of_mem member
        exact ⟨_, .label defined⟩

theorem exists_instOf_iff {clause : Clause} (inst : clause.isInst = true) :
    (∃ inst, InstOf program clause inst) ↔
      ∀ operand ∈ clause.operands, ∃ q, Names program operand q := by
  cases clause with
  | inst plain => simp [instOf_inst_iff, Clause.operands]
  | goto target => simp [instOf_goto_iff, Clause.operands]
  | _ => cases inst

theorem exists_trapOf_iff (exceptions : List String) {clause : Clause}
    (trap : clause.isTrap = true) :
    (∃ trap, TrapOf program exceptions clause trap) ↔
      ∀ operand ∈ clause.operands, ∃ q, Names program operand q := by
  cases clause with
  | trap first limit name target => simp [trapOf_iff, Clause.operands]
  | _ => cases trap

/-- A program defines the labels that it uses exactly if all its operands name positions. -/
theorem defined_iff_exists_names (program : List Clause) :
    (∀ clause ∈ program, ∀ name, Operand.label name ∈ clause.operands → name ∈ labels program) ↔
      ∀ clause ∈ program, ∀ operand ∈ clause.operands, ∃ q, Names program operand q := by
  simp only [exists_names_iff]
  constructor
  · rintro defined clause member operand used name rfl
    exact defined clause member name used
  · intro defined clause member name used
    exact defined clause member _ used name rfl

theorem Clause.isTrap_of_operand {clause : Clause} {operand : Operand}
    (used : operand ∈ clause.operands) (other : clause.isInst = false) : clause.isTrap = true := by
  cases clause with
  | trap first limit name target => rfl
  | inst plain => simp [Clause.operands] at used
  | goto target => cases other
  | exception name => simp [Clause.operands] at used
  | label name => simp [Clause.operands] at used

/-- A program describes a body exactly if each label that it uses is defined. -/
theorem exists_describes_iff (program : List Clause) (name : String) :
    (∃ body : Body, body.name = name ∧ Describes program body) ↔
      ∀ clause ∈ program, ∀ name, Operand.label name ∈ clause.operands →
        name ∈ labels program := by
  rw [defined_iff_exists_names]
  constructor
  · rintro ⟨body, -, describes⟩ clause member operand used
    cases kind : clause.isInst with
    | true =>
        have resolved := (exists_forall₂_iff _ _).mp ⟨_, describes.insts⟩ clause
          (List.mem_filter.mpr ⟨member, kind⟩)
        exact (exists_instOf_iff kind).mp resolved operand used
    | false =>
        have trap := Clause.isTrap_of_operand used kind
        have resolved := (exists_forall₂_iff _ _).mp ⟨_, describes.traps⟩ clause
          (List.mem_filter.mpr ⟨member, trap⟩)
        exact (exists_trapOf_iff _ trap).mp resolved operand used
  · intro defined
    obtain ⟨insts, all⟩ := (exists_forall₂_iff (InstOf program) _).mpr fun clause member =>
      (exists_instOf_iff (List.mem_filter.mp member).2).mpr
        (defined clause (List.mem_filter.mp member).1)
    let exceptions := (program.filterMap Clause.exceptionName?).eraseDups
    obtain ⟨traps, every⟩ := (exists_forall₂_iff (TrapOf program exceptions) _).mpr
      fun clause member => (exists_trapOf_iff exceptions (List.mem_filter.mp member).2).mpr
        (defined clause (List.mem_filter.mp member).1)
    exact ⟨⟨name, insts, exceptions, traps⟩, rfl, all, rfl, every⟩

/-- The reader accepts exactly the texts of the grammar in which no label is defined twice and each
one that is used is defined, and makes of them the body that they describe. -/
theorem parse_denotes_grammar (name text : String) :
    ((∃ body, Body.parse name text = .ok body) ↔
      ∃ program, Writes text.toList program ∧ WellLabelled program) ∧
    ∀ body, Body.parse name text = .ok body ↔ body.name = name ∧
      ∃ program, Writes text.toList program ∧ WellLabelled program ∧ Describes program body := by
  constructor
  · simp only [parse_eq_ok_iff]
    constructor
    · rintro ⟨body, named, program, writes, once, describes⟩
      exact ⟨program, writes, once, (exists_describes_iff program name).mp ⟨body, named, describes⟩⟩
    · rintro ⟨program, writes, once, defined⟩
      obtain ⟨body, named, describes⟩ := (exists_describes_iff program name).mpr defined
      exact ⟨body, named, program, writes, once, describes⟩
  · intro body
    rw [parse_eq_ok_iff]
    constructor
    · rintro ⟨named, program, writes, once, describes⟩
      have defined := (exists_describes_iff program name).mp ⟨body, named, describes⟩
      exact ⟨named, program, writes, ⟨once, defined⟩, describes⟩
    · rintro ⟨named, program, writes, labelled, describes⟩
      exact ⟨named, program, writes, labelled.once, describes⟩

end DisjointTraps.Text
