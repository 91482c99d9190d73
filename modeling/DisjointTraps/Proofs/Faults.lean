import DisjointTraps.Proofs.Lines

set_option autoImplicit false

namespace DisjointTraps.Text

theorem bind_eq_error {α β : Type} {first : Except Error α} {next : α → Except Error β}
    {error : Error} (failed : (first >>= next) = .error error) :
    first = .error error ∨ ∃ value, first = .ok value ∧ next value = .error error := by
  cases first with
  | error other =>
      cases failed
      exact .inl rfl
  | ok value => exact .inr ⟨value, rfl, failed⟩

def Clause.word : Clause → String
  | inst plain => plain.mnemonic
  | goto _ => "goto"
  | exception _ => "exception"
  | trap _ _ _ _ => "trap"
  | label name => name

theorem Phrase.exists_word {lexemes : List Lexeme} {clause : Clause}
    (phrase : Phrase lexemes clause) : ∃ more, lexemes = .word clause.word :: more := by
  cases phrase <;> exact ⟨_, rfl⟩

/-- The line that messages about the labels that a statement uses name. -/
def Statement.useLine? : Statement → Option Nat
  | .goto line _ => some line
  | .trap line _ _ _ _ => some line
  | _ => none

namespace Source

variable {source rest : Source} {error : Error} {text name : String} {line : Nat}
variable {statement : Statement}

/-- What is wrong where no word or no operand can be read. -/
def readerFaults : List Fault := [.expectedWord, .expectedPosition, .numberTooLarge, .gluedNumber]

theorem word_fault (failed : source.word = .error error) : error.fault ∈ readerFaults := by
  unfold word at failed
  split at failed
  · cases failed
  · cases failed
    simp [readerFaults]

theorem operand_fault (failed : source.operand = .error error) : error.fault ∈ readerFaults := by
  rw [Source.operand_eq] at failed
  split at failed
  · split at failed
    · cases failed
      simp [readerFaults]
    · split at failed
      · cases failed
        simp [readerFaults]
      · cases failed
  · cases failed
  · cases failed
    simp [readerFaults]

/-- Behind a keyword only the reading of an operand or a word can fail. -/
theorem keyword_fault (keyword : text ∈ keywords)
    (failed : source.statementAfter line text = .error error) : error.fault ∈ readerFaults := by
  rcases (mem_keywords_iff text).mp keyword with ⟨inst, plain, rfl⟩ | rfl | rfl | rfl
  · rw [statementAfter_plain plain] at failed
    cases failed
  · rw [statementAfter_goto] at failed
    rcases bind_eq_error failed with target | ⟨_, -, done⟩
    · exact operand_fault target
    · cases done
  · rw [statementAfter_exception] at failed
    rcases bind_eq_error failed with name | ⟨_, -, done⟩
    · exact word_fault name
    · cases done
  · rw [statementAfter_trap] at failed
    rcases bind_eq_error failed with first | ⟨_, -, failed⟩
    · exact operand_fault first
    rcases bind_eq_error failed with limit | ⟨_, -, failed⟩
    · exact operand_fault limit
    rcases bind_eq_error failed with name | ⟨_, -, failed⟩
    · exact word_fault name
    rcases bind_eq_error failed with target | ⟨_, -, done⟩
    · exact operand_fault target
    · cases done

theorem word_eq_ok (read : source.word = .ok (text, rest)) : ∃ tokens,
    source.tokens = ⟨source.line, .word text⟩ :: tokens ∧ rest = { source with tokens } := by
  unfold word at read
  split at read
  · rename_i next
    cases read
    refine ⟨_, ?_, rfl⟩
    simp [Source.line, next]
  · cases read

/-- A word that is neither a keyword nor in front of a colon is unknown. The line of the message is
that of the token after it. -/
theorem statement_fault (failed : source.statement = .error error) :
    error.fault ∈ readerFaults ∨ ∃ line word tokens,
      source.tokens = ⟨line, .word word⟩ :: tokens ∧ word ∉ keywords ∧
      tokens.head?.map Token.lexeme ≠ some .colon ∧
      error = ⟨Source.line { source with tokens }, .unknownInstruction word⟩ := by
  rcases bind_eq_error failed with missing | ⟨⟨word, rest⟩, read, -⟩
  · exact .inl (word_fault missing)
  · rw [statement_of_word read] at failed
    obtain ⟨tokens, next, rfl⟩ := word_eq_ok read
    by_cases keyword : word ∈ keywords
    · exact .inl (keyword_fault keyword failed)
    · refine .inr ⟨_, word, tokens, next, keyword, ?_⟩
      rw [statementAfter_label keyword, labelEnd] at failed
      split at failed
      · cases failed
      · rename_i noColon
        cases failed
        refine ⟨?_, rfl⟩
        intro colon
        obtain ⟨⟨line, lexeme⟩, first, rfl⟩ := Option.map_eq_some_iff.mp colon
        obtain ⟨more, rfl⟩ := List.head?_eq_some_iff.mp first
        exact noColon line more rfl

theorem statement_word (read : source.statement = .ok (statement, rest)) : ∃ tokens,
    source.tokens = ⟨source.line, .word statement.clause.word⟩ :: tokens := by
  obtain ⟨phrase, formed, next⟩ := statement_sound read
  obtain ⟨more, rfl⟩ := formed.exists_word
  obtain ⟨line, tokens, both, -⟩ := exists_token next
  refine ⟨tokens, ?_⟩
  simp [Source.line, both]

/-- The line that a branch or trap notes is that of its keyword. -/
theorem statement_useLine (read : source.statement = .ok (statement, rest))
    (noted : statement.useLine? = some line) : line = source.line := by
  obtain ⟨⟨word, after⟩, readWord, -⟩ := bind_eq_ok read
  rw [statement_of_word readWord] at read
  rcases statementAfter_cases read with ⟨inst, -, -, rfl, -⟩ | ⟨target, -, -, rfl⟩ |
    ⟨name, -, -, rfl⟩ | ⟨first, one, limit, two, name, three, target, -, -, -, -, -, rfl⟩ |
    ⟨-, below, tokens, -, -, rfl⟩
  · cases noted
  · exact (Option.some.inj noted).symm
  · cases noted
  · exact (Option.some.inj noted).symm
  · cases noted

theorem statement_label (read : source.statement = .ok (.label line name, rest)) :
    name ∉ keywords ∧ ∃ tokens, source.tokens =
      ⟨source.line, .word name⟩ :: ⟨line, .colon⟩ :: tokens := by
  obtain ⟨⟨word, after⟩, readWord, -⟩ := bind_eq_ok read
  rw [statement_of_word readWord] at read
  obtain ⟨tokens, next, rfl⟩ := word_eq_ok readWord
  rcases statementAfter_cases read with ⟨inst, -, -, other, -⟩ | ⟨target, -, -, other⟩ |
    ⟨name, -, -, other⟩ | ⟨first, one, limit, two, name, three, target, -, -, -, -, -, other⟩ |
    ⟨free, below, more, colon, -, same⟩
  · cases other
  · cases other
  · cases other
  · cases other
  · cases same
    refine ⟨free, more, ?_⟩
    rw [next]
    exact congrArg _ colon

end Source

section Labels

variable {known found : Labels} {statements : List Statement} {error : Error} {name label : String}
variable {p : Nat}

/-- Collecting labels fails at the first one that has been defined before. -/
theorem collectLabels_fault (failed : collectLabels known p statements = .error error) :
    ∃ earlier line name later found, statements = earlier ++ .label line name :: later ∧
      collectLabels known p earlier = .ok found ∧ (found.lookup name).isSome ∧
      error = ⟨line, .duplicateLabel⟩ := by
  induction statements generalizing known p with
  | nil => cases failed
  | cons statement rest ih =>
      by_cases label : ∃ line other, statement = .label line other
      · obtain ⟨line, other, rfl⟩ := label
        rw [collectLabels_label] at failed
        split at failed
        · rename_i again
          cases failed
          exact ⟨[], line, other, rest, known, rfl, rfl, again, rfl⟩
        · rename_i fresh
          obtain ⟨earlier, below, name, later, found, rfl, collected, again, rfl⟩ := ih failed
          refine ⟨.label line other :: earlier, below, name, later, found, rfl, ?_, again, rfl⟩
          rw [collectLabels_label, if_neg fresh, collected]
      · have other : ∀ line name, statement ≠ .label line name :=
          fun line name equal => label ⟨line, name, equal⟩
        rw [collectLabels_other known p rest other] at failed
        obtain ⟨earlier, below, name, later, found, rfl, collected, again, rfl⟩ := ih failed
        refine ⟨statement :: earlier, below, name, later, found, rfl, ?_, again, rfl⟩
        rw [collectLabels_other known p earlier other, collected]

theorem isSome_lookup_iff (collected : collectLabels [] 0 statements = .ok found) (name : String) :
    (found.lookup name).isSome ↔ name ∈ labels (statements.map Statement.clause) := by
  have names : ∀ q, found.lookup name = some q ↔
      Names (statements.map Statement.clause) (.label name) q := by
    intro q
    simp [lookup_collectLabels collected, names_label_iff]
  rw [Option.isSome_iff_exists]
  simp only [names, exists_names_iff, Operand.label.injEq, forall_eq']

theorem resolve_fault {line : Nat} {operand : Operand}
    (failed : found.resolve line operand = .error error) :
    ∃ label, operand = .label label ∧ found.lookup label = none ∧
      error = ⟨line, .undefinedLabel label⟩ := by
  cases operand with
  | number q => cases failed
  | label name =>
      rw [Labels.resolve] at failed
      split at failed
      · cases failed
      · rename_i absent
        cases failed
        exact ⟨name, rfl, absent, rfl⟩

/-- One of the statements uses a label that has not been collected, and the message names the line
that it has noted. -/
def Misses (found : Labels) (statements : List Statement) (error : Error) : Prop :=
  ∃ statement ∈ statements, ∃ line label, statement.useLine? = some line ∧
    Operand.label label ∈ statement.clause.operands ∧ found.lookup label = none ∧
    error = ⟨line, .undefinedLabel label⟩

theorem Misses.later {statement : Statement} (misses : Misses found statements error) :
    Misses found (statement :: statements) error := by
  obtain ⟨other, member, use⟩ := misses
  exact ⟨other, List.mem_cons_of_mem statement member, use⟩

theorem misses_of_resolve {statement : Statement} {line : Nat} {operand : Operand}
    (noted : statement.useLine? = some line) (used : operand ∈ statement.clause.operands)
    (failed : found.resolve line operand = .error error) :
    Misses found (statement :: statements) error := by
  obtain ⟨label, rfl, absent, rfl⟩ := resolve_fault failed
  exact ⟨statement, List.mem_cons_self, line, label, noted, used, absent, rfl⟩

theorem resolveInsts_fault (failed : resolveInsts found statements = .error error) :
    Misses found statements error := by
  induction statements with
  | nil => cases failed
  | cons statement rest ih =>
      cases statement with
      | inst inst =>
          rcases bind_eq_error failed with later | ⟨_, -, done⟩
          · exact (ih later).later
          · cases done
      | goto line target =>
          rcases bind_eq_error failed with here | ⟨_, -, failed⟩
          · exact misses_of_resolve rfl List.mem_cons_self here
          rcases bind_eq_error failed with later | ⟨_, -, done⟩
          · exact (ih later).later
          · cases done
      | _ => exact (ih failed).later

theorem resolveTraps_fault {names : List String}
    (failed : resolveTraps found names statements = .error error) :
    Misses found statements error := by
  induction statements with
  | nil => cases failed
  | cons statement rest ih =>
      cases statement with
      | trap line first limit name target =>
          have uses : ∀ operand ∈ [first, limit, target],
              found.resolve line operand = .error error →
                Misses found (.trap line first limit name target :: rest) error :=
            fun operand used here => misses_of_resolve rfl used here
          rcases bind_eq_error failed with here | ⟨_, -, failed⟩
          · exact uses first (by simp) here
          rcases bind_eq_error failed with here | ⟨_, -, failed⟩
          · exact uses limit (by simp) here
          rcases bind_eq_error failed with here | ⟨_, -, failed⟩
          · exact uses target (by simp) here
          rcases bind_eq_error failed with later | ⟨_, -, done⟩
          · exact (ih later).later
          · cases done
      | _ => exact (ih failed).later

theorem assemble_fault (failed : assemble name found statements = .error error) :
    Misses found statements error := by
  rcases bind_eq_error failed with insts | ⟨_, -, failed⟩
  · exact resolveInsts_fault insts
  rcases bind_eq_error failed with traps | ⟨_, -, done⟩
  · exact resolveTraps_fault traps
  · cases done

end Labels

section Texts

variable {name text : String} {line : Nat}

/-- A label that is defined twice counts first, then the fault at which reading stopped, then a
label that is not defined. -/
theorem parse_fault {error : Error} (failed : Body.parse name text = .error error) :
    ∃ statements fault, (Source.ofText text).statements = (statements, fault) ∧
      (collectLabels [] 0 statements = .error error ∨
        ∃ found, collectLabels [] 0 statements = .ok found ∧
          (fault = some error ∨ fault = none ∧ assemble name found statements = .error error)) := by
  refine ⟨_, _, rfl, ?_⟩
  rcases bind_eq_error failed with labels | ⟨found, collected, failed⟩
  · exact .inl labels
  · refine .inr ⟨found, collected, ?_⟩
    split at failed
    · rename_i stopped
      cases failed
      exact .inl stopped
    · rename_i whole
      exact .inr ⟨whole, failed⟩

/-- The line of an unknown word is counted behind the gap after the word. -/
theorem stands_unknown {word : String}
    (failed : Body.parse name text = .error ⟨line, .unknownInstruction word⟩) :
    ∃ program before gap rest, Stands text.toList program before word gap rest ∧
      word ∉ keywords ∧ rest.head? ≠ some ':' ∧
      line = lineAfter (before ++ (word.toList ++ gap)) := by
  obtain ⟨statements, fault, read, twice | ⟨found, -, stopped | ⟨-, missing⟩⟩⟩ := parse_fault failed
  · obtain ⟨_, _, _, _, _, -, -, -, other⟩ := collectLabels_fault twice
    cases other
  · rw [stopped] at read
    obtain ⟨here, reaches, fails⟩ := Source.reaches_fault read
    rcases Source.statement_fault fails with other | ⟨_, word, tokens, next, free, noColon, same⟩
    · simp [Source.readerFaults] at other
    · cases same
      obtain ⟨before, gap, rest, stands, -, below, colon⟩ := reaches.stands next
      exact ⟨_, before, gap, rest, stands, free, fun found => noColon (colon.mpr found), below⟩
  · obtain ⟨_, -, _, _, -, -, -, other⟩ := assemble_fault missing
    cases other

/-- The line of a label that is defined again is that of the colon. -/
theorem stands_duplicate (failed : Body.parse name text = .error ⟨line, .duplicateLabel⟩) :
    ∃ program before word gap rest, Stands text.toList program before word gap (':' :: rest) ∧
      word ∉ keywords ∧ (labels program).Nodup ∧ word ∈ labels program ∧
      line = lineAfter (before ++ (word.toList ++ gap)) := by
  obtain ⟨statements, fault, read, twice | ⟨found, -, stopped | ⟨-, missing⟩⟩⟩ := parse_fault failed
  · obtain ⟨earlier, _, word, later, found, rfl, collected, again, same⟩ :=
      collectLabels_fault twice
    cases same
    obtain ⟨here, after, reaches, label⟩ := Source.reaches_statement (congrArg Prod.fst read)
    obtain ⟨free, tokens, next⟩ := Source.statement_label label
    obtain ⟨before, gap, rest, stands, -, below, colon⟩ := reaches.stands next
    obtain ⟨rest, rfl⟩ := List.head?_eq_some_iff.mp (colon.mp rfl)
    have once := ((exists_collectLabels_iff [] 0 earlier).mp ⟨found, collected⟩).1
    have known := (isSome_lookup_iff collected word).mp again
    exact ⟨_, before, word, gap, rest, stands, free, once, known, below⟩
  · rw [stopped] at read
    obtain ⟨here, -, fails⟩ := Source.reaches_fault read
    rcases Source.statement_fault fails with other | ⟨_, _, _, -, -, -, other⟩
    · simp [Source.readerFaults] at other
    · cases other
  · obtain ⟨_, -, _, _, -, -, -, other⟩ := assemble_fault missing
    cases other

/-- The line of a label that is not defined is that of the keyword in front of it. -/
theorem stands_undefined {label : String}
    (failed : Body.parse name text = .error ⟨line, .undefinedLabel label⟩) :
    ∃ program clause later before gap rest,
      Stands text.toList program before clause.word gap rest ∧
      Writes text.toList (program ++ clause :: later) ∧ .label label ∈ clause.operands ∧
      label ∉ labels (program ++ clause :: later) ∧ line = lineAfter before := by
  obtain ⟨statements, fault, read, twice | ⟨found, collected, stopped | ⟨rfl, missing⟩⟩⟩ :=
    parse_fault failed
  · obtain ⟨_, _, _, _, _, -, -, -, other⟩ := collectLabels_fault twice
    cases other
  · rw [stopped] at read
    obtain ⟨here, -, fails⟩ := Source.reaches_fault read
    rcases Source.statement_fault fails with other | ⟨_, _, _, -, -, -, other⟩
    · simp [Source.readerFaults] at other
    · cases other
  · obtain ⟨statement, member, _, _, noted, used, absent, same⟩ := assemble_fault missing
    cases same
    have writes := (writes_iff text _).mpr ⟨statements, read, rfl⟩
    have unknown := (isSome_lookup_iff collected label).not.mp (by simp [absent])
    obtain ⟨earlier, later, rfl⟩ := List.append_of_mem member
    obtain ⟨here, after, reaches, found⟩ := Source.reaches_statement (congrArg Prod.fst read)
    obtain ⟨tokens, next⟩ := Source.statement_word found
    obtain ⟨before, gap, rest, stands, here, -, -⟩ := reaches.stands next
    rw [List.map_append, List.map_cons] at writes unknown
    refine ⟨_, _, _, before, gap, rest, stands, writes, used, unknown, ?_⟩
    rw [Source.statement_useLine found noted, here]

end Texts

/-- The lines that messages name. A label that is not defined is reported on the line of the `goto`
or `trap` that uses it. An unknown word and a label that is defined again are reported on the line
of what comes after the gap behind them, and this is their own line exactly if no line feed is in
the gap. -/
theorem parse_error_line (name text : String) (line : Nat) :
    (∀ word, Body.parse name text = .error ⟨line, .unknownInstruction word⟩ →
      ∃ program before gap rest, Stands text.toList program before word gap rest ∧
        word ∉ keywords ∧ rest.head? ≠ some ':' ∧
        line = lineAfter (before ++ (word.toList ++ gap)) ∧
        (line = lineAfter before ↔ '\n' ∉ gap)) ∧
    (Body.parse name text = .error ⟨line, .duplicateLabel⟩ →
      ∃ program before word gap rest, Stands text.toList program before word gap (':' :: rest) ∧
        word ∉ keywords ∧ (labels program).Nodup ∧ word ∈ labels program ∧
        line = lineAfter (before ++ (word.toList ++ gap)) ∧
        (line = lineAfter before ↔ '\n' ∉ gap)) ∧
    ∀ label, Body.parse name text = .error ⟨line, .undefinedLabel label⟩ →
      ∃ program clause later before gap rest,
        Stands text.toList program before clause.word gap rest ∧
        Writes text.toList (program ++ clause :: later) ∧ .label label ∈ clause.operands ∧
        label ∉ labels (program ++ clause :: later) ∧ line = lineAfter before := by
  refine ⟨fun word failed => ?_, fun failed => ?_, fun label failed => stands_undefined failed⟩
  · obtain ⟨program, before, gap, rest, stands, free, noColon, below⟩ := stands_unknown failed
    refine ⟨program, before, gap, rest, stands, free, noColon, below, ?_⟩
    rw [below]
    exact lineAfter_gap_eq_iff stands.isWord before gap
  · obtain ⟨program, before, word, gap, rest, stands, free, once, known, below⟩ :=
      stands_duplicate failed
    refine ⟨program, before, word, gap, rest, stands, free, once, known, below, ?_⟩
    rw [below]
    exact lineAfter_gap_eq_iff stands.isWord before gap

/-- The second definition of a label begins on line 2 and has its colon on line 4, behind a comment.
The branch with the label that is not defined keeps line 2 although its operand comes later. -/
theorem parse_error_line_behind_comment :
    (Body.parse "b" "a: nop\na ; again\n\n: return" = .error ⟨4, .duplicateLabel⟩ ∧
      ∃ program before word gap rest,
        Stands "a: nop\na ; again\n\n: return".toList program before word gap (':' :: rest) ∧
        word ∈ labels program ∧ 4 = lineAfter (before ++ (word.toList ++ gap))) ∧
    Body.parse "b" "a: nop\ngoto ; on\n b" = .error ⟨2, .undefinedLabel "b"⟩ ∧
      ∃ program clause later before gap rest,
        Stands "a: nop\ngoto ; on\n b".toList program before clause.word gap rest ∧
        Writes "a: nop\ngoto ; on\n b".toList (program ++ clause :: later) ∧
        .label "b" ∈ clause.operands ∧ 2 = lineAfter before := by
  have twice : Body.parse "b" "a: nop\na ; again\n\n: return" = .error ⟨4, .duplicateLabel⟩ := by
    decide +kernel
  have missing : Body.parse "b" "a: nop\ngoto ; on\n b" = .error ⟨2, .undefinedLabel "b"⟩ := by
    decide +kernel
  obtain ⟨program, before, word, gap, rest, stands, -, -, known, below, -⟩ :=
    (parse_error_line "b" "a: nop\na ; again\n\n: return" 4).2.1 twice
  obtain ⟨others, clause, later, front, space, tail, place, writes, used, -, here⟩ :=
    (parse_error_line "b" "a: nop\ngoto ; on\n b" 2).2.2 "b" missing
  exact ⟨⟨twice, program, before, word, gap, rest, stands, known, below⟩, missing, others, clause,
    later, front, space, tail, place, writes, used, here⟩

/-- An unknown word on line 1 is reported on line 2. -/
theorem unknown_word_reported_below :
    Stands "frob\nnop".toList [] [] "frob" ['\n'] "nop".toList ∧ lineAfter [] = 1 ∧
      Body.parse "b" "frob\nnop" = .error ⟨2, .unknownInstruction "frob"⟩ ∧
      Error.message ⟨2, .unknownInstruction "frob"⟩ =
        "error at line 2: unknown instruction 'frob'" := by
  refine ⟨⟨by decide, ⟨[], prints_nil, .nothing⟩, by decide, ?_, .blank rfl .nothing, ?_⟩, rfl, ?_,
    ?_⟩
  · rintro c ⟨⟩
    rfl
  · rintro c ⟨⟩
    rfl
  · decide +kernel
  · decide

end DisjointTraps.Text
