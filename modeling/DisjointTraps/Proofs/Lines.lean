import DisjointTraps.Proofs.Printing

set_option autoImplicit false

namespace DisjointTraps.Text

section Characters

variable {p : Char → Bool} {before one two : List Char} {d : Char}

theorem ends_append_of_ne_nil (some : before ≠ []) (ended : Ends p (before ++ one)) :
    Ends p (before ++ two) := by
  obtain ⟨c, before, rfl⟩ := List.exists_cons_of_ne_nil some
  exact ended

theorem Ends.append (ended : Ends p one) (some : one ≠ []) (two : List Char) :
    Ends p (one ++ two) := by
  obtain ⟨c, one, rfl⟩ := List.exists_cons_of_ne_nil some
  exact ended

theorem ne_nil_of_ends (ended : Ends p (before ++ d :: one)) (here : p d = true) :
    before ≠ [] := by
  rintro rfl
  have stopped := ended d rfl
  rw [here] at stopped
  cases stopped

theorem isWordChar_of_isWordStart (start : isWordStart d = true) : isWordChar d = true := by
  simp [isWordChar, start]

theorem count_eq_zero_of_class (noLine : p '\n' = false) (chars : ∀ d ∈ before, p d = true) :
    before.count '\n' = 0 := by
  rw [List.count_eq_zero]
  intro member
  have here := chars '\n' member
  rw [noLine] at here
  cases here

end Characters

section Tokens

variable {c d : Char} {rest before after : List Char} {lexemes : List Lexeme}

/-- A sound lexeme in front of a word and what comes before it. No character of the word is needed
to read the lexeme, so another text may stand there as well. -/
theorem prints_readLexeme (sound : (readLexeme c rest).1.Sound)
    (next : (readLexeme c rest).2 = before ++ d :: after) (start : isWordStart d = true)
    (prints : Prints before lexemes) :
    ∃ piece, c :: rest = piece ++ (before ++ d :: after) ∧ piece.count '\n' = 0 ∧
      Prints (piece ++ before) ((readLexeme c rest).1 :: lexemes) := by
  rcases readLexeme_cases sound with ⟨text, _, rfl, begins, chars, longest, read⟩ |
    ⟨digits, _, rfl, chars, longest, apart, fits, read⟩ | ⟨rfl, read⟩
  · rw [read] at next ⊢
    obtain rfl : _ = before ++ d :: after := next
    have some := ne_nil_of_ends longest (isWordChar_of_isWordStart start)
    refine ⟨c :: text, rfl, ?_, ?_⟩
    · have all : ∀ d ∈ c :: text, isWordChar d = true :=
        List.forall_mem_cons.mpr ⟨isWordChar_of_isWordStart begins, chars⟩
      exact count_eq_zero_of_class rfl all
    · intro other more later
      have longest : Ends isWordChar (before ++ other) := ends_append_of_ne_nil some longest
      have spelled := Spells.word begins chars longest (prints other more later)
      simpa using spelled
  · rw [read] at next ⊢
    obtain rfl : _ = before ++ d :: after := next
    have some := ne_nil_of_ends apart start
    refine ⟨c :: digits, rfl, count_eq_zero_of_class rfl chars, ?_⟩
    intro other more later
    have longest : Ends isDigit (before ++ other) := ends_append_of_ne_nil some longest
    have apart : Ends isWordStart (before ++ other) := ends_append_of_ne_nil some apart
    have spelled := Spells.number (List.cons_ne_nil c digits) chars longest apart fits
      (prints other more later)
    simpa using spelled
  · rw [read] at next ⊢
    obtain rfl : rest = before ++ d :: after := next
    refine ⟨[':'], rfl, rfl, ?_⟩
    intro other more later
    exact .colon (prints other more later)

theorem readLexeme_eq_word {word : String} (read : readLexeme c rest = (.word word, after)) :
    ∃ text, word = String.ofList (c :: text) ∧ rest = text ++ after ∧ isWordStart c = true ∧
      (∀ d ∈ text, isWordChar d = true) ∧ Ends isWordChar after := by
  have sound : (readLexeme c rest).1.Sound := by
    rw [read]
    exact Lexeme.sound_word word
  rcases readLexeme_cases sound with ⟨text, tail, same, start, chars, longest, found⟩ |
    ⟨digits, tail, -, -, -, -, -, found⟩ | ⟨-, found⟩
  · rw [read] at found
    cases found
    exact ⟨text, rfl, same, start, chars, longest⟩
  · rw [read] at found
    cases found
  · rw [read] at found
    cases found

/-- Where a word stands. What comes before it spells the lexemes before it, its line counts the line
feeds up to its first character, and reading goes on right behind its last one. -/
theorem tokenize_eq_append {line last here : Nat} {text : List Char} {earlier later : List Token}
    {word : String} (split : tokenize line text = (earlier ++ ⟨here, .word word⟩ :: later, last))
    (sound : ∀ lexeme ∈ earlier.map Token.lexeme, lexeme.Sound) :
    ∃ before after, text = before ++ (word.toList ++ after) ∧
      Prints before (earlier.map Token.lexeme) ∧ IsWord word ∧ Ends isWordChar after ∧
      here = line + before.count '\n' ∧ tokenize here after = (later, last) := by
  fun_induction tokenize line text generalizing earlier with
  | case1 line => simp at split
  | case2 line rest ih =>
      obtain ⟨before, after, rfl, prints, isWord, whole, rfl, read⟩ := ih split sound
      refine ⟨'\n' :: before, after, rfl, ?_, isWord, whole, ?_, read⟩
      · exact fun other more later => .blank rfl (prints other more later)
      · rw [List.count_cons_self]
        omega
  | case3 line c rest noLine blank ih =>
      obtain ⟨before, after, rfl, prints, isWord, whole, rfl, read⟩ := ih split sound
      refine ⟨c :: before, after, rfl, ?_, isWord, whole, ?_, read⟩
      · exact fun other more later => .blank blank (prints other more later)
      · rw [List.count_cons_of_ne noLine]
  | case4 line rest _ _ ih =>
      obtain ⟨before, after, behind, prints, isWord, whole, rfl, read⟩ := ih split sound
      have inLine := notMem_takeWhile_line rest
      have ended := ends_dropWhile (· ≠ '\n') rest
      rw [behind] at ended
      -- A word does not begin with a line feed, so the comment has ended before it.
      have some : before ≠ [] := by
        obtain ⟨d, chars, spelled, start, -⟩ := isWord
        rw [spelled] at ended
        exact ne_nil_of_ends ended (decide_eq_true (not_skipped (.inl start)).1)
      refine ⟨';' :: (rest.takeWhile (· ≠ '\n') ++ before), after, ?_, ?_, isWord, whole, ?_, read⟩
      · rw [List.cons_append, List.append_assoc, ← behind, List.takeWhile_append_dropWhile]
      · intro other more later
        have ended : Ends (· ≠ '\n') (before ++ other) := ends_append_of_ne_nil some ended
        have spelled := Spells.comment inLine ended (prints other more later)
        simpa using spelled
      · rw [List.count_cons_of_ne (by decide), List.count_append, List.count_eq_zero.mpr inLine,
          Nat.zero_add]
  | case5 line c rest noLine noBlank noComment read tail =>
      rename_i ih
      obtain ⟨same, rfl⟩ := Prod.mk.inj split
      cases earlier with
      | nil =>
          obtain ⟨first, rfl⟩ := List.cons.inj same
          obtain ⟨rfl, lexeme⟩ := Token.mk.inj first
          have found : readLexeme c rest = (.word word, read.2) := Prod.ext lexeme rfl
          obtain ⟨text, rfl, split, start, chars, whole⟩ := readLexeme_eq_word found
          refine ⟨[], read.2, ?_, prints_nil, ⟨c, text, by simp, start, chars⟩, whole, rfl, rfl⟩
          rw [String.toList_ofList, split]
          rfl
      | cons token earlier =>
          obtain ⟨rfl, following⟩ := List.cons.inj same
          obtain ⟨first, others⟩ := List.forall_mem_cons.mp sound
          obtain ⟨before, after, behind, prints, isWord, whole, rfl, next⟩ :=
            ih (Prod.ext following rfl) others
          obtain ⟨d, text, spelled, start, chars⟩ := isWord
          rw [spelled] at behind
          obtain ⟨piece, split, inLine, prints⟩ := prints_readLexeme first behind start prints
          refine ⟨piece ++ before, after, ?_, prints, ⟨d, text, spelled, start, chars⟩, whole, ?_,
            next⟩
          · rw [split, spelled, List.append_assoc]
            rfl
          · rw [List.count_append, inLine, Nat.zero_add]

end Tokens

/-- Blanks and comments in front of `rest`. A comment goes on to the end of its line. -/
inductive Skipped (rest : List Char) : List Char → Prop
  | nothing : Skipped rest []
  | blank {c : Char} {gap : List Char} (blank : isBlank c = true) (later : Skipped rest gap) :
      Skipped rest (c :: gap)
  | comment {text gap : List Char} (inLine : '\n' ∉ text) (ended : Ends (· ≠ '\n') (gap ++ rest))
      (later : Skipped rest gap) : Skipped rest (';' :: (text ++ gap))

def opensGap (c : Char) : Bool := isBlank c || c = ';'

section Gaps

variable {line last : Nat} {text rest : List Char} {tokens : List Token}

/-- Reading skips a gap, which moves it down by the line feeds there, and goes on with a token or at
the end of the text. -/
theorem exists_gap (line : Nat) (text : List Char) :
    ∃ gap rest, text = gap ++ rest ∧ Skipped rest gap ∧ Ends opensGap rest ∧
      tokenize line text = tokenize (line + gap.count '\n') rest := by
  fun_induction tokenize line text with
  | case1 line =>
      refine ⟨[], [], rfl, .nothing, ?_, ?_⟩
      · rintro c ⟨⟩
      · rw [tokenize]
        rfl
  | case2 line rest ih =>
      obtain ⟨gap, rest, rfl, skipped, shown, same⟩ := ih
      refine ⟨'\n' :: gap, rest, rfl, .blank rfl skipped, shown, ?_⟩
      rw [same, List.count_cons_self, Nat.add_assoc, Nat.add_comm 1]
  | case3 line c rest noLine blank ih =>
      obtain ⟨gap, rest, rfl, skipped, shown, same⟩ := ih
      refine ⟨c :: gap, rest, rfl, .blank blank skipped, shown, ?_⟩
      rw [same, List.count_cons_of_ne noLine]
  | case4 line rest _ _ ih =>
      obtain ⟨gap, others, behind, skipped, shown, same⟩ := ih
      have inLine := notMem_takeWhile_line rest
      have ended := ends_dropWhile (· ≠ '\n') rest
      rw [behind] at ended
      refine ⟨';' :: (rest.takeWhile (· ≠ '\n') ++ gap), others, ?_, .comment inLine ended skipped,
        shown, ?_⟩
      · rw [List.cons_append, List.append_assoc, ← behind, List.takeWhile_append_dropWhile]
      · rw [same, List.count_cons_of_ne (by decide), List.count_append,
          List.count_eq_zero.mpr inLine, Nat.zero_add]
  | case5 line c rest noLine noBlank noComment read tail =>
      refine ⟨[], c :: rest, rfl, .nothing, ?_, ?_⟩
      · rintro d ⟨⟩
        simp [opensGap, noBlank, noComment]
      · rw [List.count_nil, Nat.add_zero, tokenize, if_neg noLine, if_neg noBlank,
          if_neg noComment]

/-- Reading skips any gap that stands where it is. -/
theorem tokenize_skipped {gap : List Char} (skipped : Skipped rest gap) (line : Nat) :
    tokenize line (gap ++ rest) = tokenize (line + gap.count '\n') rest := by
  induction skipped generalizing line with
  | nothing => rfl
  | @blank c gap blank later ih =>
      rw [List.cons_append, tokenize]
      by_cases feed : c = '\n'
      · rw [if_pos feed, ih, feed, List.count_cons_self, Nat.add_assoc, Nat.add_comm 1]
      · rw [if_neg feed, if_pos blank, ih, List.count_cons_of_ne feed]
  | @comment text gap inLine ended later ih =>
      have chars : ∀ d ∈ text, decide (d ≠ '\n') = true :=
        fun d member => decide_eq_true (ne_of_mem_of_not_mem member inLine)
      rw [List.cons_append, List.append_assoc, tokenize, if_neg (by decide), if_neg (by decide),
        if_pos rfl, dropWhile_eq_of_ends chars ended, ih, List.count_cons_of_ne (by decide),
        List.count_append, List.count_eq_zero.mpr inLine, Nat.zero_add]

theorem readLexeme_eq_colon_iff (c : Char) (rest : List Char) :
    (readLexeme c rest).1 = .colon ↔ c = ':' := by
  constructor
  · intro colon
    have sound : (readLexeme c rest).1.Sound := by
      rw [colon]
      exact Lexeme.sound_colon
    rcases readLexeme_cases sound with ⟨_, _, -, -, -, -, read⟩ | ⟨_, _, -, -, -, -, -, read⟩ |
      ⟨same, -⟩
    · rw [read] at colon
      cases colon
    · rw [read] at colon
      cases colon
    · exact same
  · rintro rfl
    rfl

theorem not_skipped_of_ends {c : Char} (shown : Ends opensGap (c :: rest)) :
    c ≠ '\n' ∧ isBlank c = false ∧ c ≠ ';' := by
  have here := shown c rfl
  simp only [opensGap, Bool.or_eq_false_iff, decide_eq_false_iff_not] at here
  obtain ⟨noBlank, noComment⟩ := here
  refine ⟨?_, noBlank, noComment⟩
  rintro rfl
  cases noBlank

/-- Where nothing is skipped the next token has the line that reading has come to, and it is a
colon exactly if the next character is one. -/
theorem next_of_ends (shown : Ends opensGap rest) (read : tokenize line rest = (tokens, last)) :
    Source.line ⟨tokens, last⟩ = line ∧
      (tokens.head?.map Token.lexeme = some .colon ↔ rest.head? = some ':') := by
  cases rest with
  | nil =>
      rw [tokenize] at read
      cases read
      exact ⟨rfl, by simp⟩
  | cons c rest =>
      obtain ⟨noLine, noBlank, noComment⟩ := not_skipped_of_ends shown
      rw [tokenize_cons noLine noBlank noComment] at read
      cases read
      refine ⟨rfl, ?_⟩
      simp only [List.head?_cons, Option.map_some, Option.some_inj]
      exact readLexeme_eq_colon_iff c rest

end Gaps

namespace Source

variable {source rest here : Source} {text : String} {operand : Operand} {line : Nat}
variable {statement : Statement} {earlier later : List Statement}

def Leaves (source rest : Source) : Prop :=
  rest.tokens <:+ source.tokens ∧ rest.lastLine = source.lastLine

theorem Leaves.refl (source : Source) : source.Leaves source := ⟨List.suffix_rfl, rfl⟩

theorem Leaves.trans (first : source.Leaves rest) (second : rest.Leaves here) :
    source.Leaves here :=
  ⟨second.1.trans first.1, second.2.trans first.2⟩

theorem leaves_of_cons {token : Token} {tokens : List Token}
    (next : source.tokens = token :: tokens) :
    source.Leaves { source with tokens } := by
  refine ⟨?_, rfl⟩
  rw [next]
  exact List.suffix_cons token tokens

theorem word_leaves (read : source.word = .ok (text, rest)) : source.Leaves rest := by
  unfold word at read
  split at read
  · rename_i next
    cases read
    exact leaves_of_cons next
  · cases read

theorem operand_leaves (read : source.operand = .ok (operand, rest)) : source.Leaves rest := by
  rw [Source.operand_eq] at read
  split at read
  · rename_i next
    split at read
    · cases read
    · split at read
      · cases read
      · cases read
        exact leaves_of_cons next
  · rename_i next
    cases read
    exact leaves_of_cons next
  · cases read

/-- The statements by their first word, with what each reads behind it. -/
theorem statementAfter_cases (read : source.statementAfter line text = .ok (statement, rest)) :
    (∃ inst ∈ Inst.plain, text = inst.mnemonic ∧ statement = .inst inst ∧ rest = source) ∨
    (∃ target, source.operand = .ok (target, rest) ∧ text = "goto" ∧
      statement = .goto line target) ∨
    (∃ name, source.word = .ok (name, rest) ∧ text = "exception" ∧
      statement = .exception name) ∨
    (∃ first one limit two name three target, source.operand = .ok (first, one) ∧
      one.operand = .ok (limit, two) ∧ two.word = .ok (name, three) ∧
      three.operand = .ok (target, rest) ∧ text = "trap" ∧
      statement = .trap line first limit name target) ∨
    (text ∉ keywords ∧ ∃ below tokens, source.tokens = ⟨below, .colon⟩ :: tokens ∧
      rest = { source with tokens } ∧ statement = .label below text) := by
  by_cases keyword : text ∈ keywords
  · rcases (mem_keywords_iff text).mp keyword with ⟨inst, plain, rfl⟩ | rfl | rfl | rfl
    · rw [statementAfter_plain plain] at read
      cases read
      exact .inl ⟨inst, plain, rfl, rfl, rfl⟩
    · rw [statementAfter_goto] at read
      obtain ⟨⟨target, after⟩, readTarget, finish⟩ := bind_eq_ok read
      cases finish
      exact .inr (.inl ⟨target, readTarget, rfl, rfl⟩)
    · rw [statementAfter_exception] at read
      obtain ⟨⟨name, after⟩, readName, finish⟩ := bind_eq_ok read
      cases finish
      exact .inr (.inr (.inl ⟨name, readName, rfl, rfl⟩))
    · rw [statementAfter_trap] at read
      obtain ⟨⟨first, one⟩, readFirst, read⟩ := bind_eq_ok read
      obtain ⟨⟨limit, two⟩, readLimit, read⟩ := bind_eq_ok read
      obtain ⟨⟨name, three⟩, readName, read⟩ := bind_eq_ok read
      obtain ⟨⟨target, four⟩, readTarget, finish⟩ := bind_eq_ok read
      cases finish
      exact .inr (.inr (.inr (.inl ⟨first, one, limit, two, name, three, target, readFirst,
        readLimit, readName, readTarget, rfl, rfl⟩)))
  · rw [statementAfter_label keyword, labelEnd] at read
    split at read
    · rename_i next
      cases read
      exact .inr (.inr (.inr (.inr ⟨keyword, _, _, next, rfl, rfl⟩)))
    · cases read

theorem statementAfter_leaves (read : source.statementAfter line text = .ok (statement, rest)) :
    source.Leaves rest := by
  rcases statementAfter_cases read with ⟨inst, -, -, -, rfl⟩ | ⟨target, readTarget, -, -⟩ |
    ⟨name, readName, -, -⟩ | ⟨first, one, limit, two, name, three, target, readFirst, readLimit,
      readName, readTarget, -, -⟩ | ⟨-, below, tokens, next, rfl, -⟩
  · exact Leaves.refl _
  · exact operand_leaves readTarget
  · exact word_leaves readName
  · have operands := (operand_leaves readFirst).trans (operand_leaves readLimit)
    exact (operands.trans (word_leaves readName)).trans (operand_leaves readTarget)
  · exact leaves_of_cons next

/-- A statement that is read takes the tokens of its phrase. -/
theorem statement_takes (read : source.statement = .ok (statement, rest)) :
    ∃ taken, source = ⟨taken ++ rest.tokens, rest.lastLine⟩ ∧
      Phrase (taken.map Token.lexeme) statement.clause := by
  obtain ⟨⟨first, after⟩, readFirst, readRest⟩ := bind_eq_ok read
  obtain ⟨⟨taken, split⟩, last⟩ := (word_leaves readFirst).trans (statementAfter_leaves readRest)
  obtain ⟨phrase, formed, lexemes⟩ := statement_sound read
  have same : taken.map Token.lexeme = phrase := by
    rw [Source.lexemes, ← split, List.map_append] at lexemes
    exact List.append_cancel_right lexemes
  refine ⟨taken, ?_, same ▸ formed⟩
  rw [split, last]

/-- The reader comes to `here` after some statements. -/
inductive Reaches : Source → List Statement → Source → Prop
  | start (source : Source) : Reaches source [] source
  | next {source rest here : Source} {statement : Statement} {earlier : List Statement}
      (read : source.statement = .ok (statement, rest)) (later : Reaches rest earlier here) :
      Reaches source (statement :: earlier) here

theorem Reaches.takes (reaches : Reaches source earlier here) :
    ∃ taken, source = ⟨taken ++ here.tokens, here.lastLine⟩ ∧
      Forms (taken.map Token.lexeme) (earlier.map Statement.clause) := by
  induction reaches with
  | start source => exact ⟨[], rfl, .nothing⟩
  | next read later ih =>
      obtain ⟨phrase, rfl, formed⟩ := statement_takes read
      obtain ⟨others, rfl, forms⟩ := ih
      refine ⟨phrase ++ others, by rw [List.append_assoc], ?_⟩
      rw [List.map_append]
      exact .statement formed forms

/-- The reader stops at the end or at a fault, or goes on behind a statement. -/
theorem statements_cases (source : Source) :
    source.statements = ([], none) ∨
    (∃ error, source.statement = .error error ∧ source.statements = ([], some error)) ∨
    ∃ statement rest, source.statement = .ok (statement, rest) ∧
      source.statements = (statement :: rest.statements.1, rest.statements.2) := by
  by_cases empty : source.lexemes = []
  · exact .inl (statements_nil empty)
  · cases read : source.statement with
    | error error => exact .inr (.inl ⟨error, rfl, statements_of_error empty read⟩)
    | ok result => exact .inr (.inr ⟨result.1, result.2, rfl, statements_cons read⟩)

theorem reaches_statement (split : source.statements.1 = earlier ++ statement :: later) :
    ∃ here rest, Reaches source earlier here ∧ here.statement = .ok (statement, rest) := by
  induction earlier generalizing source with
  | nil =>
      rcases statements_cases source with none | ⟨error, -, none⟩ | ⟨first, rest, read, some⟩
      · simp [none] at split
      · simp [none] at split
      · rw [some] at split
        obtain ⟨rfl, -⟩ := List.cons.inj split
        exact ⟨source, rest, .start source, read⟩
  | cons other earlier ih =>
      rcases statements_cases source with none | ⟨error, -, none⟩ | ⟨first, rest, read, some⟩
      · simp [none] at split
      · simp [none] at split
      · rw [some] at split
        obtain ⟨rfl, others⟩ := List.cons.inj split
        obtain ⟨here, following, reaches, found⟩ := ih others
        exact ⟨here, following, .next read reaches, found⟩

/-- The reader comes to the statement at which it fails. -/
theorem reaches_fault {error : Error} (failed : source.statements = (earlier, some error)) :
    ∃ here, Reaches source earlier here ∧ here.statement = .error error := by
  induction earlier generalizing source with
  | nil =>
      rcases statements_cases source with none | ⟨_, read, found⟩ | ⟨first, rest, read, some⟩
      · simp [none] at failed
      · rw [found] at failed
        cases failed
        exact ⟨source, .start source, read⟩
      · simp [some] at failed
  | cons other earlier ih =>
      rcases statements_cases source with none | ⟨_, read, found⟩ | ⟨first, rest, read, some⟩
      · simp [none] at failed
      · simp [found] at failed
      · rw [some] at failed
        obtain ⟨both, fault⟩ := Prod.mk.inj failed
        obtain ⟨rfl, others⟩ := List.cons.inj both
        obtain ⟨here, reaches, fails⟩ := ih (Prod.ext others fault)
        exact ⟨here, .next read reaches, fails⟩

end Source

/-- A piece of text is the statements of a program, whatever comes after it. -/
def Opens (text : List Char) (program : List Clause) : Prop :=
  ∃ lexemes, Prints text lexemes ∧ Forms lexemes program

/-- Behind the statements of a program, whose text is `before`, comes one that begins with `word`.
The gap between this word and the next token, or the end of the text, goes as far as it can. -/
structure Stands (text : List Char) (program : List Clause) (before : List Char) (word : String)
    (gap rest : List Char) : Prop where
  text_eq : text = before ++ (word.toList ++ (gap ++ rest))
  earlier : Opens before program
  isWord : IsWord word
  whole : Ends isWordChar (gap ++ rest)
  skipped : Skipped rest gap
  shown : Ends opensGap rest

/-- The line of the character that comes after `before`. -/
def lineAfter (before : List Char) : Nat := 1 + before.count '\n'

theorem IsWord.count_eq_zero {word : String} (isWord : IsWord word) :
    word.toList.count '\n' = 0 := by
  obtain ⟨c, text, spelled, start, chars⟩ := isWord
  rw [spelled]
  exact count_eq_zero_of_class (p := isWordChar) rfl
    (List.forall_mem_cons.mpr ⟨isWordChar_of_isWordStart start, chars⟩)

/-- The token after a word is on the line of the word exactly if the gap between them has no line
feed. -/
theorem lineAfter_gap_eq_iff {word : String} (isWord : IsWord word) (before gap : List Char) :
    lineAfter (before ++ (word.toList ++ gap)) = lineAfter before ↔ '\n' ∉ gap := by
  rw [← List.count_eq_zero]
  simp only [lineAfter, List.count_append, isWord.count_eq_zero]
  omega

/-- Where a statement stands that the reader comes to, the line of its word, and the line of the
token after this word. -/
theorem Source.Reaches.stands {text word : String} {earlier : List Statement} {here : Source}
    {line : Nat} {tokens : List Token} (reaches : Reaches (ofText text) earlier here)
    (next : here.tokens = ⟨line, .word word⟩ :: tokens) :
    ∃ before gap rest,
      Stands text.toList (earlier.map Statement.clause) before word gap rest ∧
      line = lineAfter before ∧
      Source.line { here with tokens } = lineAfter (before ++ (word.toList ++ gap)) ∧
      (tokens.head?.map Token.lexeme = some .colon ↔ rest.head? = some ':') := by
  obtain ⟨taken, split, forms⟩ := reaches.takes
  have read : tokenize 1 text.toList = (taken ++ ⟨line, .word word⟩ :: tokens, here.lastLine) := by
    rw [← next]
    exact Prod.ext (congrArg Source.tokens split) (congrArg Source.lastLine split)
  obtain ⟨before, after, place, prints, isWord, whole, counted, later⟩ :=
    tokenize_eq_append read forms.sound
  obtain ⟨gap, rest, rfl, skipped, shown, same⟩ := exists_gap line after
  rw [same] at later
  obtain ⟨below, colon⟩ := next_of_ends shown later
  refine ⟨before, gap, rest, ⟨place, ⟨_, prints, forms⟩, isWord, whole, skipped, shown⟩, counted,
    ?_, colon⟩
  rw [below, counted]
  simp only [lineAfter, List.count_append, isWord.count_eq_zero]
  omega

end DisjointTraps.Text
