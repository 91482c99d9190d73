import DisjointTraps.Proofs.Lexing

set_option autoImplicit false

namespace DisjointTraps.Text

theorem ofMnemonic?_eq_some_iff (word : String) (inst : Inst) :
    Inst.ofMnemonic? word = some inst ↔ inst ∈ Inst.plain ∧ word = inst.mnemonic := by
  constructor
  · intro found
    have named := List.find?_some found
    exact ⟨List.mem_of_find?_eq_some found, (of_decide_eq_true named).symm⟩
  · rintro ⟨plain, rfl⟩
    have each : ∀ inst ∈ Inst.plain, Inst.ofMnemonic? inst.mnemonic = some inst := by decide
    exact each inst plain

theorem mem_keywords_iff (word : String) : word ∈ keywords ↔
    (∃ inst ∈ Inst.plain, word = inst.mnemonic) ∨ word = "goto" ∨ word = "exception" ∨
      word = "trap" := by
  simp [keywords, Inst.plain, Inst.mnemonic, or_assoc]

theorem ofMnemonic?_eq_none {word : String} (free : word ∉ keywords) :
    Inst.ofMnemonic? word = none := by
  rw [Option.eq_none_iff_forall_ne_some]
  intro inst found
  apply free
  rw [mem_keywords_iff]
  exact .inl ⟨inst, (ofMnemonic?_eq_some_iff word inst).mp found⟩

namespace Source

variable {source rest : Source} {more : List Lexeme} {text : String} {operand : Operand}
variable {line : Nat} {statement : Statement} {clause : Clause}

def lexemes (source : Source) : List Lexeme := source.tokens.map Token.lexeme

theorem exists_token {lexeme : Lexeme} (next : source.lexemes = lexeme :: more) :
    ∃ line tokens, source.tokens = ⟨line, lexeme⟩ :: tokens ∧
      tokens.map Token.lexeme = more := by
  obtain ⟨⟨line, _⟩, tokens, both, rfl, later⟩ := List.map_eq_cons_iff.mp next
  exact ⟨line, tokens, both, later⟩

theorem word_sound (read : source.word = .ok (text, rest)) :
    source.lexemes = .word text :: rest.lexemes := by
  unfold word at read
  split at read
  · rename_i tokens
    cases read
    simp [lexemes, tokens]
  · cases read

theorem word_complete (next : source.lexemes = .word text :: more) :
    ∃ rest, source.word = .ok (text, rest) ∧ rest.lexemes = more := by
  obtain ⟨line, tokens, both, later⟩ := exists_token next
  exact ⟨{ source with tokens }, by rw [word, both], later⟩

theorem operand_sound (read : source.operand = .ok (operand, rest)) :
    ∃ lexeme, operand.Reads lexeme ∧ source.lexemes = lexeme :: rest.lexemes := by
  rw [Source.operand_eq] at read
  split at read
  · rename_i digits glued tail tokens
    split at read
    · cases read
    · rename_i p value
      split at read
      · cases read
      · rename_i free
        cases read
        have reads := Operand.Reads.number ((ofDigits?_eq_some_iff digits p).mp value)
        refine ⟨_, reads, ?_⟩
        simp [lexemes, tokens, free]
  · rename_i name tail tokens
    cases read
    exact ⟨_, .label name, by simp [lexemes, tokens]⟩
  · cases read

theorem operand_complete {lexeme : Lexeme} (reads : operand.Reads lexeme)
    (next : source.lexemes = lexeme :: more) :
    ∃ rest, source.operand = .ok (operand, rest) ∧ rest.lexemes = more := by
  obtain ⟨line, tokens, both, later⟩ := exists_token next
  refine ⟨{ source with tokens }, ?_, later⟩
  cases reads with
  | number value =>
      simp [Source.operand_eq, both, (ofDigits?_eq_some_iff _ _).mpr value]
  | label name => rw [Source.operand_eq, both]

theorem statementAfter_plain {inst : Inst} (plain : inst ∈ Inst.plain) :
    source.statementAfter line inst.mnemonic = .ok (.inst inst, source) := by
  rw [statementAfter, (ofMnemonic?_eq_some_iff _ inst).mpr ⟨plain, rfl⟩]

theorem statementAfter_goto (source : Source) (line : Nat) :
    source.statementAfter line "goto" = (do
      let (target, source) ← source.operand
      return (.goto line target, source)) := rfl

theorem statementAfter_exception (source : Source) (line : Nat) :
    source.statementAfter line "exception" = (do
      let (name, source) ← source.word
      return (.exception name, source)) := rfl

theorem statementAfter_trap (source : Source) (line : Nat) :
    source.statementAfter line "trap" = (do
      let (first, source) ← source.operand
      let (limit, source) ← source.operand
      let (name, source) ← source.word
      let (target, source) ← source.operand
      return (.trap line first limit name target, source)) := rfl

theorem statementAfter_label (free : text ∉ keywords) :
    source.statementAfter line text = source.labelEnd text := by
  have others := (mem_keywords_iff text).not.mp free
  simp only [not_or] at others
  obtain ⟨-, noGoto, noException, noTrap⟩ := others
  rw [statementAfter, ofMnemonic?_eq_none free]
  simp only [noGoto, noException, noTrap, ↓reduceIte]

theorem goto_sound (read : source.statementAfter line "goto" = .ok (statement, rest)) :
    ∃ phrase, Phrase (.word "goto" :: phrase) statement.clause ∧
      source.lexemes = phrase ++ rest.lexemes := by
  rw [statementAfter_goto] at read
  obtain ⟨⟨target, after⟩, readTarget, finish⟩ := bind_eq_ok read
  cases finish
  obtain ⟨lexeme, reads, next⟩ := operand_sound readTarget
  exact ⟨[lexeme], .goto reads, next⟩

theorem exception_sound (read : source.statementAfter line "exception" = .ok (statement, rest)) :
    ∃ phrase, Phrase (.word "exception" :: phrase) statement.clause ∧
      source.lexemes = phrase ++ rest.lexemes := by
  rw [statementAfter_exception] at read
  obtain ⟨⟨name, after⟩, readName, finish⟩ := bind_eq_ok read
  cases finish
  exact ⟨[.word name], .exception name, word_sound readName⟩

theorem trap_sound (read : source.statementAfter line "trap" = .ok (statement, rest)) :
    ∃ phrase, Phrase (.word "trap" :: phrase) statement.clause ∧
      source.lexemes = phrase ++ rest.lexemes := by
  rw [statementAfter_trap] at read
  obtain ⟨⟨first, one⟩, readFirst, read⟩ := bind_eq_ok read
  obtain ⟨⟨limit, two⟩, readLimit, read⟩ := bind_eq_ok read
  obtain ⟨⟨name, three⟩, readName, read⟩ := bind_eq_ok read
  obtain ⟨⟨target, four⟩, readTarget, finish⟩ := bind_eq_ok read
  cases finish
  obtain ⟨lexemeFirst, readsFirst, nextFirst⟩ := operand_sound readFirst
  obtain ⟨lexemeLimit, readsLimit, nextLimit⟩ := operand_sound readLimit
  obtain ⟨lexemeTarget, readsTarget, nextTarget⟩ := operand_sound readTarget
  refine ⟨_, .trap name readsFirst readsLimit readsTarget, ?_⟩
  rw [nextFirst, nextLimit, word_sound readName, nextTarget]
  rfl

theorem labelEnd_sound (free : text ∉ keywords)
    (read : source.labelEnd text = .ok (statement, rest)) :
    ∃ phrase, Phrase (.word text :: phrase) statement.clause ∧
      source.lexemes = phrase ++ rest.lexemes := by
  unfold labelEnd at read
  split at read
  · rename_i tokens
    cases read
    exact ⟨[.colon], .label free, by simp [lexemes, tokens]⟩
  · cases read

theorem statementAfter_sound (read : source.statementAfter line text = .ok (statement, rest)) :
    ∃ phrase, Phrase (.word text :: phrase) statement.clause ∧
      source.lexemes = phrase ++ rest.lexemes := by
  by_cases keyword : text ∈ keywords
  · rcases (mem_keywords_iff text).mp keyword with ⟨inst, plain, rfl⟩ | rfl | rfl | rfl
    · rw [statementAfter_plain plain] at read
      cases read
      exact ⟨[], .inst plain, rfl⟩
    · exact goto_sound read
    · exact exception_sound read
    · exact trap_sound read
  · rw [statementAfter_label keyword] at read
    exact labelEnd_sound keyword read

theorem statement_sound (read : source.statement = .ok (statement, rest)) :
    ∃ phrase, Phrase phrase statement.clause ∧ source.lexemes = phrase ++ rest.lexemes := by
  obtain ⟨⟨first, after⟩, readFirst, readRest⟩ := bind_eq_ok read
  obtain ⟨phrase, formed, next⟩ := statementAfter_sound readRest
  refine ⟨_, formed, ?_⟩
  rw [word_sound readFirst, next]
  rfl

theorem statement_of_word (read : source.word = .ok (text, rest)) :
    source.statement = rest.statementAfter source.line text := by
  rw [Source.statement, read]
  rfl

theorem statement_complete {phrase : List Lexeme} (formed : Phrase phrase clause)
    (next : source.lexemes = phrase ++ more) :
    ∃ statement rest, source.statement = .ok (statement, rest) ∧ statement.clause = clause ∧
      rest.lexemes = more := by
  cases formed with
  | inst plain =>
      obtain ⟨rest, read, later⟩ := word_complete next
      refine ⟨.inst _, rest, ?_, rfl, later⟩
      rw [statement_of_word read, statementAfter_plain plain]
  | goto reads =>
      obtain ⟨one, read, next⟩ := word_complete next
      obtain ⟨rest, readTarget, later⟩ := operand_complete reads next
      refine ⟨.goto source.line _, rest, ?_, rfl, later⟩
      rw [statement_of_word read, statementAfter_goto, readTarget]
      rfl
  | exception name =>
      obtain ⟨one, read, next⟩ := word_complete next
      obtain ⟨rest, readName, later⟩ := word_complete next
      refine ⟨.exception name, rest, ?_, rfl, later⟩
      rw [statement_of_word read, statementAfter_exception, readName]
      rfl
  | trap name readsFirst readsLimit readsTarget =>
      obtain ⟨one, read, next⟩ := word_complete next
      obtain ⟨two, readFirst, next⟩ := operand_complete readsFirst next
      obtain ⟨three, readLimit, next⟩ := operand_complete readsLimit next
      obtain ⟨four, readName, next⟩ := word_complete next
      obtain ⟨rest, readTarget, later⟩ := operand_complete readsTarget next
      refine ⟨.trap source.line _ _ name _, rest, ?_, rfl, later⟩
      rw [statement_of_word read, statementAfter_trap]
      simp only [readFirst, readLimit, readName, readTarget, bind, Except.bind, pure, Except.pure]
  | label free =>
      obtain ⟨one, read, next⟩ := word_complete next
      obtain ⟨line, tokens, both, later⟩ := exists_token next
      refine ⟨.label line _, { one with tokens }, ?_, rfl, later⟩
      rw [statement_of_word read, statementAfter_label free, labelEnd, both]

theorem statements_nil (empty : source.lexemes = []) : source.statements = ([], none) := by
  have none : source.tokens.isEmpty = true := by simpa [lexemes] using empty
  rw [statements, if_pos none]

theorem statements_of_error {error : Error} (unread : source.lexemes ≠ [])
    (failed : source.statement = .error error) : source.statements = ([], some error) := by
  have more : ¬ source.tokens.isEmpty = true := by simpa [lexemes] using unread
  rw [statements, if_neg more]
  split
  · rename_i found also
    rw [failed] at also
    cases also
    rfl
  · rename_i statement rest read
    rw [failed] at read
    cases read

theorem statements_cons (read : source.statement = .ok (statement, rest)) :
    source.statements = (statement :: rest.statements.1, rest.statements.2) := by
  have some : ¬ source.tokens.isEmpty = true := by
    have shorter := statement_length_lt read
    rw [List.isEmpty_iff_length_eq_zero]
    omega
  rw [statements, if_neg some]
  split
  · rename_i error failed
    rw [read] at failed
    cases failed
  · rename_i found after again
    rw [read] at again
    cases again
    rfl

/-- Statements that are read without a fault are formed by the lexemes. -/
theorem forms_statements (source : Source) (clean : source.statements.2 = none) :
    Forms source.lexemes (source.statements.1.map Statement.clause) := by
  induction size : source.tokens.length using Nat.strongRecOn generalizing source with
  | ind _ ih =>
      -- The reader stops at the end, at a fault, or goes on behind a statement.
      by_cases empty : source.lexemes = []
      · rw [empty, statements_nil empty]
        exact .nothing
      · cases read : source.statement with
        | error error =>
            rw [statements_of_error empty read] at clean
            cases clean
        | ok result =>
            obtain ⟨statement, rest⟩ := result
            rw [statements_cons read] at clean ⊢
            obtain ⟨phrase, formed, next⟩ := statement_sound read
            rw [next]
            have shorter := statement_length_lt read
            exact .statement formed (ih rest.tokens.length (size ▸ shorter) rest clean rfl)

/-- Lexemes that form a program are read as its statements. -/
theorem statements_of_forms {program : List Clause} {lexemes : List Lexeme}
    (forms : Forms lexemes program) (source : Source) (here : source.lexemes = lexemes) :
    ∃ statements, source.statements = (statements, none) ∧
      statements.map Statement.clause = program := by
  induction forms generalizing source with
  | nothing => exact ⟨[], statements_nil here, rfl⟩
  | statement phrase later ih =>
      obtain ⟨statement, rest, read, same, next⟩ := statement_complete phrase here
      obtain ⟨statements, found, program⟩ := ih rest next
      refine ⟨statement :: statements, ?_, by rw [List.map_cons, same, program]⟩
      rw [statements_cons read, found]

end Source

theorem Operand.Reads.sound {lexeme : Lexeme} {operand : Operand} (reads : operand.Reads lexeme) :
    lexeme.Sound := by
  cases reads with
  | @number digits p value =>
      have bounded := p.toNat_lt_size
      rw [value] at bounded
      exact ⟨rfl, bounded⟩
  | label name => exact Lexeme.sound_word name

/-- No stray character and no faulty number can be part of a statement. -/
theorem Phrase.sound {phrase : List Lexeme} {clause : Clause} (formed : Phrase phrase clause) :
    ∀ lexeme ∈ phrase, lexeme.Sound := by
  cases formed with
  | inst plain => simp
  | goto reads => simp [reads.sound]
  | exception name => simp
  | trap name readsFirst readsLimit readsTarget =>
      simp [readsFirst.sound, readsLimit.sound, readsTarget.sound]
  | label free => simp

theorem Forms.sound {lexemes : List Lexeme} {program : List Clause}
    (forms : Forms lexemes program) : ∀ lexeme ∈ lexemes, lexeme.Sound := by
  induction forms with
  | nothing => simp
  | statement phrase later ih => exact List.forall_mem_append.mpr ⟨phrase.sound, ih⟩

/-- A text is written for a program exactly if the program's statements are read from it. -/
theorem writes_iff (text : String) (program : List Clause) :
    Writes text.toList program ↔ ∃ statements,
      (Source.ofText text).statements = (statements, none) ∧
        statements.map Statement.clause = program := by
  constructor
  · rintro ⟨lexemes, spells, forms⟩
    exact Source.statements_of_forms forms _ (tokenize_of_spells spells 1)
  · rintro ⟨statements, read, rfl⟩
    have forms := (Source.ofText text).forms_statements (by rw [read])
    rw [read] at forms
    exact ⟨_, spells_tokenize 1 text.toList forms.sound, forms⟩

end DisjointTraps.Text
