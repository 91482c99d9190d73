import DisjointTraps.Body
import DisjointTraps.Proofs.Assembly

set_option autoImplicit false

namespace DisjointTraps.Text

def IsWord (name : String) : Prop :=
  ∃ c text, name.toList = c :: text ∧ isWordStart c = true ∧ ∀ d ∈ text, isWordChar d = true

instance : DecidablePred IsWord := fun name =>
  match chars : name.toList with
  | [] => isFalse (by simp [IsWord, chars])
  | c :: text => decidable_of_iff (isWordStart c = true ∧ text.all isWordChar = true) (by
      simp [IsWord, chars])

def Prints (text : List Char) (lexemes : List Lexeme) : Prop :=
  ∀ rest more, Spells rest more → Spells (text ++ rest) (lexemes ++ more)

section Pieces

variable {text other rest : List Char} {lexemes more : List Lexeme} {b : Char}

theorem prints_nil : Prints [] [] := fun _ _ later => later

theorem Prints.append (one : Prints text lexemes) (two : Prints other more) :
    Prints (text ++ other) (lexemes ++ more) := by
  intro rest following later
  rw [List.append_assoc, List.append_assoc]
  exact one _ _ (two rest following later)

theorem prints_blanks (blank : ∀ c ∈ text, isBlank c = true) : Prints text [] := by
  induction text with
  | nil => exact prints_nil
  | cons c text ih =>
      obtain ⟨here, others⟩ := List.forall_mem_cons.mp blank
      intro rest more later
      exact .blank here (ih others rest more later)

theorem prints_comment (inLine : '\n' ∉ text) : Prints (';' :: (text ++ ['\n'])) [] := by
  intro rest more later
  have ended : Ends (· ≠ '\n') ('\n' :: rest) := by
    rintro c ⟨⟩
    rfl
  have comment := Spells.comment inLine ended (.blank rfl later)
  simpa using comment

theorem ends_blank (blank : isBlank b = true) (rest : List Char) :
    Ends isWordChar (b :: rest) ∧ Ends isDigit (b :: rest) ∧ Ends isWordStart (b :: rest) := by
  have apart : ∀ c, isBlank c = true →
      isWordChar c = false ∧ isDigit c = false ∧ isWordStart c = false := by
    intro c blank
    simp only [isBlank, Bool.or_eq_true, decide_eq_true_eq] at blank
    rcases blank with ((rfl | rfl) | rfl) | rfl <;> decide
  obtain ⟨noChar, noDigit, noStart⟩ := apart b blank
  refine ⟨?_, ?_, ?_⟩ <;> rintro c ⟨⟩ <;> assumption

theorem prints_word (name : String) (word : IsWord name) (blank : isBlank b = true) :
    Prints (name.toList ++ [b]) [.word name] := by
  obtain ⟨c, text, spelled, start, chars⟩ := word
  intro rest more later
  have read := Spells.word start chars (ends_blank blank rest).1 (.blank blank later)
  rw [← spelled, String.ofList_toList] at read
  simpa [spelled] using read

theorem prints_keyword {name : String} (keyword : name ∈ keywords) :
    Prints (name.toList ++ [' ']) [.word name] := by
  have words : ∀ name ∈ keywords, IsWord name := by decide +kernel
  exact prints_word name (words name keyword) rfl

def positionLexeme (p : Position) : Lexeme := .number (Position.digits p).toList false

theorem isDigit_of_mem_repr {n : Nat} {c : Char} (member : c ∈ n.repr.toList) :
    isDigit c = true := by
  rw [Nat.toList_repr] at member
  have digit := Nat.isDigit_of_mem_toDigits (by decide) (by decide) member
  rw [isDigit_iff]
  simpa [Char.isDigit, UInt32.le_iff_toNat_le] using digit

theorem ofDigitChars_digits (p : Position) :
    Nat.ofDigitChars 10 (Position.digits p).toList 0 = p.toNat := by
  rw [Position.digits, Nat.toList_repr, Nat.ofDigitChars_ten_toDigits]

theorem reads_positionLexeme (p : Position) : (Operand.number p).Reads (positionLexeme p) :=
  .number (ofDigitChars_digits p).symm

theorem prints_digits (p : Position) (blank : isBlank b = true) :
    Prints ((Position.digits p).toList ++ [b]) [positionLexeme p] := by
  intro rest more later
  obtain ⟨-, longest, apart⟩ := ends_blank blank rest
  have nonempty : (Position.digits p).toList ≠ [] := by
    rw [Position.digits, Nat.toList_repr]
    exact Nat.toDigits_ne_nil
  have fits : Nat.ofDigitChars 10 (Position.digits p).toList 0 < UInt32.size := by
    rw [ofDigitChars_digits]
    exact p.toNat_lt_size
  have read := Spells.number nonempty (fun d => isDigit_of_mem_repr) longest apart fits
    (.blank blank later)
  simpa [positionLexeme] using read

theorem Prints.padTo {name : String} {width : Nat} (room : name.length < width)
    (prints : Prints (name.toList ++ [' ']) lexemes) :
    Prints (DisjointTraps.padTo width name).toList lexemes := by
  obtain ⟨more, rest⟩ := Nat.exists_eq_add_of_lt room
  have padded : (DisjointTraps.padTo width name).toList =
      (name.toList ++ [' ']) ++ List.replicate more ' ' := by
    have count : width - name.length = more + 1 := by omega
    rw [DisjointTraps.padTo, count, List.replicate_succ]
    simp
  have blanks : Prints (List.replicate more ' ') [] := by
    apply prints_blanks
    intro c member
    rw [List.eq_of_mem_replicate member]
    rfl
  rw [padded]
  simpa using prints.append blanks

end Pieces

def PrintsAs (text : List Char) (clause : Clause) : Prop :=
  ∃ lexemes, Phrase lexemes clause ∧ Prints text lexemes

def instClause : Inst → Clause
  | .goto target => .goto (.number target)
  | inst => .inst inst

def trapClause (body : Body) (trap : Trap ExceptionType) : Clause :=
  .trap (.number trap.span.first) (.number trap.span.limit)
    (body.exceptionName trap.handler.exception) (.number trap.handler.target)

theorem prints_exception {name : String} (word : IsWord name) :
    PrintsAs ("exception " ++ name ++ "\n").toList (.exception name) := by
  have keyword : Prints ("exception".toList ++ [' ']) [.word "exception"] :=
    prints_keyword (by simp [keywords])
  have named : Prints (name.toList ++ ['\n']) [.word name] := prints_word name word rfl
  refine ⟨_, .exception name, ?_⟩
  simpa using keyword.append named

theorem prints_plain {inst : Inst} (plain : inst ∈ Inst.plain) :
    PrintsAs (padTo 21 inst.mnemonic).toList (.inst inst) := by
  have short : ∀ inst ∈ Inst.plain, inst.mnemonic ∈ keywords ∧ inst.mnemonic.length < 21 := by
    decide +kernel
  obtain ⟨keyword, room⟩ := short inst plain
  exact ⟨_, .inst plain, .padTo room (prints_keyword keyword)⟩

theorem length_digits_lt (p : Position) : (Position.digits p).length < 16 := by
  have fits : p.toNat < 10 ^ 15 := by
    have bound := p.toNat_lt_size
    simp only [UInt32.size] at bound
    omega
  have few := (Nat.length_repr_le_iff (by decide)).mpr fits
  rw [Position.digits]
  omega

theorem prints_column (inst : Inst) : PrintsAs inst.column.toList (instClause inst) := by
  cases inst with
  | goto target =>
      have keyword : Prints ("goto".toList ++ [' ']) [.word "goto"] :=
        prints_keyword (by simp [keywords])
      have padded := Prints.padTo (length_digits_lt target) (prints_digits target rfl)
      refine ⟨_, .goto (reads_positionLexeme target), ?_⟩
      simpa [Inst.column] using keyword.append padded
  | _ => exact prints_plain (by decide)

theorem prints_inst (inst : Inst) (index : Nat) :
    PrintsAs (inst.line index).toList (instClause inst) := by
  obtain ⟨lexemes, phrase, column⟩ := prints_column inst
  have indent : Prints "  ".toList [] := prints_blanks (by simp [isBlank])
  have inLine : '\n' ∉ ' ' :: 'i' :: index.repr.toList := by
    have digits : '\n' ∉ index.repr.toList := fun member => by
      have digit := isDigit_of_mem_repr member
      revert digit
      decide
    simpa using digits
  have comment := prints_comment inLine
  refine ⟨lexemes, phrase, ?_⟩
  simpa [Inst.line] using indent.append (column.append comment)

theorem prints_trap (body : Body) (trap : Trap ExceptionType)
    (word : IsWord (body.exceptionName trap.handler.exception)) :
    PrintsAs (body.trapLine trap).toList (trapClause body trap) := by
  have keyword : Prints ("trap".toList ++ [' ']) [.word "trap"] :=
    prints_keyword (by simp [keywords])
  have first : Prints ((Position.digits trap.span.first).toList ++ [' ']) _ := prints_digits _ rfl
  have limit : Prints ((Position.digits trap.span.limit).toList ++ [' ']) _ := prints_digits _ rfl
  have named : Prints ((body.exceptionName trap.handler.exception).toList ++ [' ']) _ :=
    prints_word _ word rfl
  have target : Prints ((Position.digits trap.handler.target).toList ++ ['\n']) _ :=
    prints_digits _ rfl
  refine ⟨_, .trap _ (reads_positionLexeme _) (reads_positionLexeme _) (reads_positionLexeme _), ?_⟩
  simpa [Body.trapLine] using
    keyword.append (first.append (limit.append (named.append target)))

section Bodies

variable {rest : List Char} {more : List Clause}

theorem PrintsAs.writes {text : List Char} {clause : Clause} (prints : PrintsAs text clause)
    (later : Writes rest more) : Writes (text ++ rest) (clause :: more) := by
  obtain ⟨lexemes, phrase, here⟩ := prints
  obtain ⟨others, spells, forms⟩ := later
  exact ⟨lexemes ++ others, here rest others spells, .statement phrase forms⟩

theorem writes_join {α : Type} {items : List α} (line : α → String) (clause : α → Clause)
    (prints : ∀ item ∈ items, PrintsAs (line item).toList (clause item))
    (later : Writes rest more) :
    Writes ((String.join (items.map line)).toList ++ rest) (items.map clause ++ more) := by
  induction items with
  | nil => simpa using later
  | cons item items ih =>
      obtain ⟨here, others⟩ := List.forall_mem_cons.mp prints
      have text := here.writes (ih others)
      simpa using text

def programOf (body : Body) : List Clause :=
  body.exceptionNames.map .exception ++
    (body.insts.map instClause ++ body.traps.map (trapClause body))

/-- The names of a body can be read back, and its traps use no others. -/
structure WellNamed (body : Body) : Prop where
  words : ∀ name ∈ body.exceptionNames, IsWord name
  declared : ∀ trap ∈ body.traps,
    trap.handler.exception.number.toNat < body.exceptionNames.length

theorem WellNamed.exceptionName {body : Body} (named : WellNamed body)
    {trap : Trap ExceptionType} (member : trap ∈ body.traps) :
    body.exceptionName trap.handler.exception ∈ body.exceptionNames := by
  have there := named.declared trap member
  simp [Body.exceptionName, nameOf?, List.getElem?_eq_getElem there]

theorem prints_header {title name : String} (inTitle : '\n' ∉ title.toList)
    (inName : '\n' ∉ name.toList) :
    Prints ("; " ++ title ++ ": " ++ name ++ "\n").toList [] := by
  have inLine : '\n' ∉ ' ' :: (title.toList ++ ':' :: ' ' :: name.toList) := by
    simp [inTitle, inName]
  simpa using prints_comment inLine

/-- The written form of a body is a text for its program. -/
theorem writes_render {title : String} {body : Body} (inTitle : '\n' ∉ title.toList)
    (inName : '\n' ∉ body.name.toList) (named : WellNamed body) :
    Writes (body.render title).toList (programOf body) := by
  have nothing : Writes [] [] := ⟨[], .nothing, .nothing⟩
  have traps := writes_join body.trapLine (trapClause body)
    (fun trap member => prints_trap body trap (named.words _ (named.exceptionName member))) nothing
  rw [List.append_nil, List.append_nil] at traps
  -- The position of an instruction is only a comment of its line.
  have each : ∀ placed ∈ body.insts.zipIdx,
      PrintsAs (placed.1.line placed.2).toList (instClause placed.1) :=
    fun placed _ => prints_inst placed.1 placed.2
  have insts := writes_join _ _ each traps
  have written : (body.insts.zipIdx.map fun placed => instClause placed.1) =
      body.insts.map instClause := by
    rw [← Function.comp_def instClause, ← List.map_map, List.zipIdx_map_fst]
  rw [written] at insts
  obtain ⟨lexemes, spells, forms⟩ := writes_join (fun name => "exception " ++ name ++ "\n") .exception
    (fun name member => prints_exception (named.words name member)) insts
  have text := prints_header inTitle inName _ _ spells
  refine ⟨lexemes, ?_, forms⟩
  simpa [Body.render] using text

end Bodies

end DisjointTraps.Text
