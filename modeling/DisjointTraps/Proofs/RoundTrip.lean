import DisjointTraps.Body.Samples
import DisjointTraps.Proofs.Printing

set_option autoImplicit false

namespace DisjointTraps

theorem nodup_addName {names : List String} (once : names.Nodup) (name : String) :
    (addName names name).Nodup := by
  unfold addName
  split
  · exact once
  · rename_i fresh
    have apart : ∀ other ∈ names, other ≠ name :=
      fun other member => ne_of_mem_of_not_mem member fresh
    simpa [List.nodup_append, once] using apart

theorem nodup_foldl_addName {known : List String} (once : known.Nodup) (names : List String) :
    (names.foldl addName known).Nodup := by
  induction names generalizing known with
  | nil => exact once
  | cons name names ih => exact ih (nodup_addName once name)

theorem typeOf_exceptionName {body : Body} (once : body.exceptionNames.Nodup)
    {exception : ExceptionType} (declared : exception.number.toNat < body.exceptionNames.length) :
    typeOf body.exceptionNames (body.exceptionName exception) = exception := by
  have place := List.Nodup.idxOf_getElem once exception.number.toNat declared
  simp [typeOf, Body.exceptionName, nameOf?, List.getElem?_eq_getElem declared, place,
    ExceptionType.ofIndex]

namespace Text

variable {program : List Clause} {body : Body}

theorem eraseDups_of_nodup {names : List String} (once : names.Nodup) : names.eraseDups = names := by
  induction names with
  | nil => rfl
  | cons name names ih =>
      obtain ⟨fresh, once⟩ := List.nodup_cons.mp once
      have others : (names.filter fun other => !other == name) = names := by
        rw [List.filter_eq_self]
        intro other member
        simpa using ne_of_mem_of_not_mem member fresh
      rw [List.eraseDups_cons, others, ih once]

theorem nodup_eraseDups (names : List String) : names.eraseDups.Nodup := by
  have folded := nodup_foldl_addName List.nodup_nil names
  simpa [foldl_addName] using folded

theorem filter_isInst_programOf (body : Body) :
    (programOf body).filter Clause.isInst = body.insts.map instClause := by
  have insts : Clause.isInst ∘ instClause = fun _ => true := by
    funext inst
    cases inst <;> rfl
  have names : Clause.isInst ∘ Clause.exception = fun _ => false := rfl
  have traps : Clause.isInst ∘ trapClause body = fun _ => false := rfl
  simp [programOf, List.filter_map, insts, names, traps]

theorem filter_isTrap_programOf (body : Body) :
    (programOf body).filter Clause.isTrap = body.traps.map (trapClause body) := by
  have insts : Clause.isTrap ∘ instClause = fun _ => false := by
    funext inst
    cases inst <;> rfl
  have names : Clause.isTrap ∘ Clause.exception = fun _ => false := rfl
  have traps : Clause.isTrap ∘ trapClause body = fun _ => true := rfl
  simp [programOf, List.filter_map, insts, names, traps]

theorem exceptionNames_programOf (body : Body) :
    (programOf body).filterMap Clause.exceptionName? = body.exceptionNames ++
      body.traps.map fun trap => body.exceptionName trap.handler.exception := by
  have insts : (body.insts.map instClause).filterMap Clause.exceptionName? = [] := by
    rw [List.filterMap_eq_nil_iff, List.forall_mem_map]
    intro inst _
    cases inst <;> rfl
  have names : Clause.exceptionName? ∘ Clause.exception = some := rfl
  have traps : Clause.exceptionName? ∘ trapClause body =
    some ∘ fun trap => body.exceptionName trap.handler.exception := rfl
  simp only [programOf, List.filterMap_append, insts, List.filterMap_map, names, traps,
    List.filterMap_some, List.filterMap_eq_map, List.nil_append]

/-- A body whose names differ is the one that its program describes. -/
theorem describes_programOf (once : body.exceptionNames.Nodup) (named : WellNamed body) :
    Describes (programOf body) body where
  insts := by
    rw [filter_isInst_programOf, List.forall₂_map_left_iff, List.forall₂_same]
    intro inst _
    cases inst with
    | goto target => exact .goto (.number target)
    | _ => exact .plain _
  names := by
    have known : (body.traps.map fun trap => body.exceptionName trap.handler.exception).removeAll
        body.exceptionNames = [] := by
      rw [List.removeAll, List.filter_eq_nil_iff]
      intro name member
      obtain ⟨trap, inTraps, rfl⟩ := List.mem_map.mp member
      simpa using named.exceptionName inTraps
    rw [exceptionNames_programOf, List.eraseDups_append, known, eraseDups_of_nodup once,
      List.eraseDups_nil, List.append_nil]
  traps := by
    rw [filter_isTrap_programOf, List.forall₂_map_left_iff, List.forall₂_same]
    intro trap member
    have same := typeOf_exceptionName once (named.declared trap member)
    have trapOf : TrapOf (programOf body) body.exceptionNames (trapClause body trap) _ :=
      .trap _ (.number trap.span.first) (.number trap.span.limit) (.number trap.handler.target)
    rw [same] at trapOf
    exact trapOf

theorem labels_programOf (body : Body) : labels (programOf body) = [] := by
  rw [labels, List.filterMap_eq_nil_iff, programOf]
  simp only [List.forall_mem_append, List.forall_mem_map]
  refine ⟨fun _ _ => rfl, ?_, fun _ _ => rfl⟩
  intro inst _
  cases inst <;> rfl

theorem parse_render {title : String} (inTitle : '\n' ∉ title.toList)
    (inName : '\n' ∉ body.name.toList) (once : body.exceptionNames.Nodup)
    (named : WellNamed body) : Body.parse body.name (body.render title) = .ok body := by
  rw [parse_eq_ok_iff]
  refine ⟨rfl, programOf body, writes_render inTitle inName named, ?_,
    describes_programOf once named⟩
  rw [labels_programOf]
  exact List.nodup_nil

theorem isWord_of_spells {text : List Char} {lexemes : List Lexeme} (spells : Spells text lexemes)
    {name : String} (member : Lexeme.word name ∈ lexemes) : IsWord name := by
  induction spells with
  | nothing => simp at member
  | blank _ _ ih => exact ih member
  | comment _ _ _ ih => exact ih member
  | @word c text rest lexemes start chars _ _ ih =>
      rcases List.mem_cons.mp member with here | later
      · cases here
        exact ⟨c, text, String.toList_ofList, start, chars⟩
      · exact ih later
  | number _ _ _ _ _ _ ih =>
      rcases List.mem_cons.mp member with here | later
      · cases here
      · exact ih later
  | colon _ ih =>
      rcases List.mem_cons.mp member with here | later
      · cases here
      · exact ih later

theorem Phrase.exceptionName_mem {lexemes : List Lexeme} {clause : Clause}
    (phrase : Phrase lexemes clause) {name : String} (uses : clause.exceptionName? = some name) :
    Lexeme.word name ∈ lexemes := by
  cases phrase <;> cases uses <;> simp

theorem Forms.exceptionName_mem {lexemes : List Lexeme} (forms : Forms lexemes program)
    {clause : Clause} (member : clause ∈ program) {name : String}
    (uses : clause.exceptionName? = some name) : Lexeme.word name ∈ lexemes := by
  induction forms with
  | nothing => simp at member
  | statement phrase _ ih =>
      rcases List.mem_cons.mp member with rfl | later
      · exact List.mem_append_left _ (phrase.exceptionName_mem uses)
      · exact List.mem_append_right _ (ih later)

theorem exists_left_of_forall₂ {α β : Type} {R : α → β → Prop} {list : List α} {others : List β}
    (all : List.Forall₂ R list others) {b : β} (member : b ∈ others) : ∃ a ∈ list, R a b := by
  induction all with
  | nil => simp at member
  | cons here _ ih =>
      rcases List.mem_cons.mp member with rfl | later
      · exact ⟨_, List.mem_cons_self, here⟩
      · obtain ⟨a, inList, related⟩ := ih later
        exact ⟨a, List.mem_cons_of_mem _ inList, related⟩

theorem TrapOf.declared {exceptions : List String} {clause : Clause} {trap : Trap ExceptionType}
    (declares : TrapOf program exceptions clause trap)
    (known : ∀ name, clause.exceptionName? = some name → name ∈ exceptions) :
    trap.handler.exception.number.toNat < exceptions.length := by
  obtain ⟨name, -, -, -⟩ := declares
  have place := List.idxOf_lt_length_of_mem (known name rfl)
  -- A number that does not fit wraps to a smaller one, which is in use too.
  have wraps := Nat.mod_le (exceptions.idxOf name) (2 ^ 32)
  simp only [typeOf, ExceptionType.ofIndex, UInt32.toNat_ofNat']
  omega

theorem Describes.wellNamed {text : List Char} (describes : Describes program body)
    (writes : Writes text program) : WellNamed body where
  words := by
    intro name member
    obtain ⟨lexemes, spells, forms⟩ := writes
    rw [describes.names, List.mem_eraseDups, List.mem_filterMap] at member
    obtain ⟨clause, inProgram, uses⟩ := member
    exact isWord_of_spells spells (forms.exceptionName_mem inProgram uses)
  declared := by
    intro trap member
    obtain ⟨clause, inFilter, declares⟩ := exists_left_of_forall₂ describes.traps member
    have inProgram := List.mem_of_mem_filter inFilter
    apply declares.declared
    intro name uses
    rw [describes.names, List.mem_eraseDups, List.mem_filterMap]
    exact ⟨clause, inProgram, uses⟩

theorem parse_wellNamed {name text : String} (parses : Body.parse name text = .ok body) :
    WellNamed body := by
  obtain ⟨-, program, writes, -, describes⟩ := (parse_eq_ok_iff name text body).mp parses
  exact describes.wellNamed writes

theorem parse_nodup {name text : String} (parses : Body.parse name text = .ok body) :
    body.exceptionNames.Nodup := by
  obtain ⟨-, program, -, -, describes⟩ := (parse_eq_ok_iff name text body).mp parses
  rw [describes.names]
  exact nodup_eraseDups _

theorem parse_name {name text : String} (parses : Body.parse name text = .ok body) :
    body.name = name := ((parse_eq_ok_iff name text body).mp parses).1

/-- A text for the programs of another is read as the same body, apart from its name. -/
theorem parse_of_writes {name text other : String} (parses : Body.parse name text = .ok body)
    (same : ∀ program, Writes text.toList program → Writes other.toList program)
    (otherName : String) : Body.parse otherName other = .ok { body with name := otherName } := by
  obtain ⟨-, program, writes, once, describes⟩ := (parse_eq_ok_iff name text body).mp parses
  rw [parse_eq_ok_iff]
  exact ⟨rfl, program, same program writes, once, describes.insts, describes.names,
    describes.traps⟩

theorem parse_rename {name text : String} (parses : Body.parse name text = .ok body)
    (other : String) : Body.parse other text = .ok { body with name := other } :=
  parse_of_writes parses (fun _ writes => writes) other

end Text

namespace Body

/-- The bodies that can be made: a body begins empty or is read, and goes on by the operations. -/
inductive Built : Body → Prop
  | empty (name : String) : Built { name }
  | read {name text : String} {body : Body} (parses : Body.parse name text = .ok body) : Built body
  | intern {body : Body} (built : Built body) (name : String) : Built (body.intern name).1
  | push {body : Body} (built : Built body) (inst : Inst) : Built (body.push inst)
  | pushAll {body : Body} (built : Built body) (insts : List Inst) : Built (body.pushAll insts)
  | declare {body : Body} (built : Built body) (trap : Trap ExceptionType) :
      Built (body.declare trap)
  | install {body after : Body} (built : Built body) {table : Table ExceptionType}
      (fits : body.install? table = some after) : Built after

/-- No operation gives a body the same exception name twice. -/
theorem Built.nodup {body : Body} (built : Built body) : body.exceptionNames.Nodup := by
  induction built with
  | empty name => exact List.nodup_nil
  | read parses => exact Text.parse_nodup parses
  | intern _ name ih => exact nodup_addName ih name
  | push _ inst ih => exact ih
  | pushAll _ insts ih => exact ih
  | declare _ trap ih => exact ih
  | install _ fits ih =>
      unfold install? at fits
      split at fits
      · cases fits
        exact ih
      · cases fits

/-- Two bodies that agree in all but their own name. -/
structure Alike (body other : Body) : Prop where
  insts : other.insts = body.insts
  exceptionNames : other.exceptionNames = body.exceptionNames
  traps : other.traps = body.traps

/-- A body that can be made is read back from its written form exactly if its exception names are
words and its traps use no others. A body that was read always is, and is then written as before. -/
theorem read_back_iff :
    (∀ (body : Body) (title : String), Built body → '\n' ∉ title.toList →
      '\n' ∉ body.name.toList →
        ((∃ again, Body.parse body.name (body.render title) = .ok again ∧ Alike body again) ↔
          (∀ name ∈ body.exceptionNames, Text.IsWord name) ∧
            ∀ trap ∈ body.traps,
              trap.handler.exception.number.toNat < body.exceptionNames.length)) ∧
    ∀ (name text title : String) (body : Body), '\n' ∉ title.toList → '\n' ∉ name.toList →
      Body.parse name text = .ok body →
        ∃ again, Body.parse name (body.render title) = .ok again ∧ Alike body again ∧
          again.render title = body.render title := by
  constructor
  · intro body title built inTitle inName
    constructor
    · rintro ⟨again, parses, alike⟩
      have named := Text.parse_wellNamed parses
      have words := named.words
      have declared := named.declared
      rw [alike.exceptionNames] at words declared
      rw [alike.traps] at declared
      exact ⟨words, declared⟩
    · rintro ⟨words, declared⟩
      exact ⟨body, Text.parse_render inTitle inName built.nodup ⟨words, declared⟩, rfl, rfl, rfl⟩
  · intro name text title body inTitle inName parses
    obtain rfl := Text.parse_name parses
    have again := Text.parse_render inTitle inName (Text.parse_nodup parses)
      (Text.parse_wellNamed parses)
    exact ⟨body, again, ⟨rfl, rfl, rfl⟩, rfl⟩

/-- An exception type named like a keyword, a branch and a handler as far away as can be, and a
trap that ends before it begins: read back, and read back again under another title. -/
theorem read_back_keyword :
    ∃ again, Body.parse "odd" (Body.render "before" ⟨"odd", [.goto 4294967295, .moveResult],
        ["trap", "java.io.IOException"], [Samples.trap 7 2 0 4294967295]⟩) = .ok again ∧
      Alike ⟨"odd", [.goto 4294967295, .moveResult], ["trap", "java.io.IOException"],
        [Samples.trap 7 2 0 4294967295]⟩ again ∧
      ∃ third, Body.parse "odd" (again.render "after") = .ok third ∧ Alike again third ∧
        third.render "after" = again.render "after" := by
  have built : Built ⟨"odd", [.goto 4294967295, .moveResult], ["trap", "java.io.IOException"],
      [Samples.trap 7 2 0 4294967295]⟩ :=
    ((((Built.empty "odd").intern "trap").intern "java.io.IOException").pushAll
      [.goto 4294967295, .moveResult]).declare (Samples.trap 7 2 0 4294967295)
  obtain ⟨again, parses, alike⟩ :=
    (read_back_iff.1 _ "before" built (by decide) (by decide)).mpr (by decide)
  obtain ⟨third, second⟩ := read_back_iff.2 "odd" _ "after" again (by decide) (by decide) parses
  exact ⟨again, parses, alike, third, second⟩

end Body

end DisjointTraps
