import DisjointTraps.Proofs.Lines

set_option autoImplicit false

namespace DisjointTraps.Text

/-- What is left to read where reading has come to a line and this text is still ahead. A whole text
is left on line 1. -/
def Source.fromLine (line : Nat) (text : List Char) : Source :=
  ⟨(tokenize line text).1, (tokenize line text).2⟩

/-- A text goes on with blanks and comments, then with all the digits that stand there, maybe none,
then with `rest`. -/
structure DigitsAhead (text gap digits rest : List Char) : Prop where
  text_eq : text = gap ++ (digits ++ rest)
  skipped : Skipped (digits ++ rest) gap
  shown : Ends opensGap (digits ++ rest)
  chars : ∀ d ∈ digits, isDigit d = true
  longest : Ends isDigit rest

theorem exists_digitsAhead (text : List Char) :
    ∃ gap digits rest, DigitsAhead text gap digits rest := by
  obtain ⟨gap, behind, same, skipped, shown, -⟩ := exists_gap 1 text
  have parts : behind.takeWhile isDigit ++ behind.dropWhile isDigit = behind :=
    List.takeWhile_append_dropWhile
  refine ⟨gap, behind.takeWhile isDigit, behind.dropWhile isDigit, ?_⟩
  constructor
  · rw [parts, same]
  · rw [parts]
    exact skipped
  · rw [parts]
    exact shown
  · exact fun d => List.mem_takeWhile_imp
  · exact ends_dropWhile isDigit behind

theorem readLexeme_ne_number {c : Char} (other : isDigit c = false) (rest digits : List Char)
    (glued : Bool) : (readLexeme c rest).1 ≠ .number digits glued := by
  rw [readLexeme, other, if_neg Bool.false_ne_true]
  split
  · simp
  · split <;> simp

namespace Source

variable {text gap digits rest : List Char}

theorem fromLine_cons {c : Char} (shown : Ends opensGap (c :: rest)) (line : Nat) :
    fromLine line (c :: rest) =
      ⟨⟨line, (readLexeme c rest).1⟩ :: (fromLine line (readLexeme c rest).2).tokens,
        (fromLine line (readLexeme c rest).2).lastLine⟩ := by
  obtain ⟨noLine, noBlank, noComment⟩ := not_skipped_of_ends shown
  simp only [fromLine, tokenize_cons noLine noBlank noComment]

theorem fromLine_eq (ahead : DigitsAhead text gap digits rest) (line : Nat) :
    fromLine line text = fromLine (line + gap.count '\n') (digits ++ rest) := by
  rw [fromLine, fromLine, ahead.text_eq, tokenize_skipped ahead.skipped]

theorem number_of_no_digit (shown : Ends opensGap rest) (longest : Ends isDigit rest)
    (line : Nat) : (fromLine line rest).number = .ok (none, fromLine line rest) := by
  cases rest with
  | nil =>
      rw [fromLine, tokenize]
      rfl
  | cons c rest =>
      have other := readLexeme_ne_number (longest c rfl) rest
      rw [fromLine_cons shown]
      cases lexeme : (readLexeme c rest).1 with
      | number digits glued => exact absurd lexeme (other digits glued)
      | _ => rfl

/-- Where digits come next their number is read, unless it is too large or runs into a word. -/
theorem number_of_digits (nonempty : digits ≠ []) (chars : ∀ d ∈ digits, isDigit d = true)
    (longest : Ends isDigit rest) (line : Nat) :
    (fromLine line (digits ++ rest)).number =
      if 4294967295 < Nat.ofDigitChars 10 digits 0 then .error ⟨line, .numberTooLarge⟩
      else if rest.head?.any isWordStart then .error ⟨line, .gluedNumber⟩
      else .ok (some (UInt32.ofNat (Nat.ofDigitChars 10 digits 0)), fromLine line rest) := by
  obtain ⟨c, more, rfl⟩ := List.exists_cons_of_ne_nil nonempty
  obtain ⟨digit, others⟩ := List.forall_mem_cons.mp chars
  have shown : Ends opensGap (c :: (more ++ rest)) := by
    rintro d ⟨⟩
    obtain ⟨-, noBlank, noComment⟩ := not_skipped (.inr digit)
    simp [opensGap, noBlank, noComment]
  rw [List.cons_append, fromLine_cons shown, readLexeme_digits digit others longest]
  cases value : ofDigits? (c :: more) with
  | none =>
      have large : 4294967295 < Nat.ofDigitChars 10 (c :: more) 0 :=
        (ofDigits?_eq_none_iff _).mp value
      simp only [number, value, fail, Source.line]
      rw [if_pos large]
  | some p =>
      have same := (ofDigits?_eq_some_iff _ _).mp value
      have fits : ¬ 4294967295 < Nat.ofDigitChars 10 (c :: more) 0 := by
        have bounded := p.toNat_lt_size
        simp only [UInt32.size] at bounded
        omega
      simp only [number, value, fail, Source.line]
      rw [if_neg fits, ← same, UInt32.ofNat_toNat]

theorem number_cases (ahead : DigitsAhead text gap digits rest) (line : Nat) :
    let read := (fromLine line text).number
    let here := line + gap.count '\n'
    let value := Nat.ofDigitChars 10 digits 0
    (digits = [] ∧ read = .ok (none, fromLine here rest)) ∨
    (digits ≠ [] ∧ 4294967295 < value ∧ read = .error ⟨here, .numberTooLarge⟩) ∨
    (digits ≠ [] ∧ value ≤ 4294967295 ∧ ¬ Ends isWordStart rest ∧
      read = .error ⟨here, .gluedNumber⟩) ∨
    (digits ≠ [] ∧ value ≤ 4294967295 ∧ Ends isWordStart rest ∧
      ∃ p : Position, p.toNat = value ∧ read = .ok (some p, fromLine here rest)) := by
  intro read here value
  have skips : read = (fromLine here (digits ++ rest)).number :=
    congrArg number (fromLine_eq ahead line)
  by_cases empty : digits = []
  · subst empty
    left
    exact ⟨rfl, skips.trans (number_of_no_digit ahead.shown ahead.longest here)⟩
  · right
    rw [skips, number_of_digits empty ahead.chars ahead.longest here]
    by_cases large : 4294967295 < value
    · left
      exact ⟨empty, large, if_pos large⟩
    · right
      have fits : value ≤ 4294967295 := Nat.le_of_not_lt large
      rw [if_neg large]
      by_cases apart : Ends isWordStart rest
      · right
        have free := (ends_iff_any isWordStart rest).mp apart
        have same : (UInt32.ofNat value).toNat = value :=
          UInt32.toNat_ofNat_of_lt' (Nat.lt_succ_of_le fits)
        refine ⟨empty, fits, apart, UInt32.ofNat value, same, ?_⟩
        rw [free, if_neg Bool.false_ne_true]
      · left
        have glued : rest.head?.any isWordStart = true := by
          rw [ends_iff_any] at apart
          simpa using apart
        exact ⟨empty, fits, apart, if_pos glued⟩

end Source

/-- Numbers are exact. From any place of a text on, reading skips blanks and comments and takes all
the digits that come next. They are read as their value if it fits into 32 bits and no character
that can begin a word follows, else one of the two faults is found on their line. Where no digit
comes next nothing more is read. -/
theorem number_exact (line : Nat) (text : List Char) :
    (∃ gap digits rest, DigitsAhead text gap digits rest) ∧
    ∀ gap digits rest, DigitsAhead text gap digits rest →
      let source := Source.fromLine line text
      let here := line + gap.count '\n'
      let value := Nat.ofDigitChars 10 digits 0
      ((∃ p after, source.number = .ok (some p, after)) ↔
        digits ≠ [] ∧ value ≤ 4294967295 ∧ Ends isWordStart rest) ∧
      (∀ p after, source.number = .ok (some p, after) →
        p.toNat = value ∧ after = Source.fromLine here rest) ∧
      (∀ after, source.number = .ok (none, after) ↔
        digits = [] ∧ after = Source.fromLine here rest) ∧
      ((∃ error, source.number = .error error ∧ error.fault.message = "integer too large") ↔
        4294967295 < value) ∧
      ((∃ error, source.number = .error error ∧
          error.fault.message = "unexpected character after number") ↔
        digits ≠ [] ∧ value ≤ 4294967295 ∧ ¬ Ends isWordStart rest) ∧
      ∀ error, source.number = .error error → error.line = here := by
  refine ⟨exists_digitsAhead text, ?_⟩
  intro gap digits rest ahead source here value
  have tooLarge : Fault.numberTooLarge.message = "integer too large" := rfl
  have glued : Fault.gluedNumber.message = "unexpected character after number" := rfl
  rcases Source.number_cases ahead line with ⟨empty, read⟩ | ⟨some, large, read⟩ |
    ⟨some, fits, runs, read⟩ | ⟨some, fits, apart, p, same, read⟩
  · subst empty
    simp [source, here, value, read, eq_comm]
  · have exceeds : ¬ value ≤ 4294967295 := Nat.not_le_of_lt large
    simp [source, here, value, read, some, large, exceeds, tooLarge]
  · simp [source, here, value, read, some, fits, runs, glued]
  · simp [source, here, value, read, some, fits, apart, same, eq_comm]

/-- The largest number behind a comment and leading zeros, on the line after the comment. One more
is too large, even where it runs into a word. -/
theorem number_exact_at_limit :
    (∃ p : Position, p.toNat = 4294967295 ∧
      (Source.fromLine 7 "; 1\n 004294967295:".toList).number =
        .ok (some p, Source.fromLine 8 [':'])) ∧
    ∃ error, (Source.fromLine 7 "04294967296x".toList).number = .error error ∧ error.line = 7 ∧
      error.fault.message = "integer too large" := by
  have fits : DigitsAhead "; 1\n 004294967295:".toList [';', ' ', '1', '\n', ' ']
      "004294967295".toList [':'] := by
    have inLine : '\n' ∉ [' ', '1'] := by decide
    have ended : ∀ rest, Ends (· ≠ '\n') ('\n' :: rest) := by
      rintro rest c ⟨⟩
      rfl
    refine ⟨by decide, .comment inLine (ended _) (.blank rfl (.blank rfl .nothing)), ?_,
      List.all_eq_true.mp (by decide), ?_⟩
    · rintro c ⟨⟩
      rfl
    · rintro c ⟨⟩
      rfl
  have large : DigitsAhead "04294967296x".toList [] "04294967296".toList ['x'] := by
    refine ⟨by decide, .nothing, ?_, List.all_eq_true.mp (by decide), ?_⟩
    · rintro c ⟨⟩
      rfl
    · rintro c ⟨⟩
      rfl
  have apart : Ends isWordStart [':'] := by
    rintro c ⟨⟩
    rfl
  obtain ⟨reads, valued, -⟩ := (number_exact 7 _).2 _ _ _ fits
  obtain ⟨p, after, read⟩ := reads.mpr ⟨by decide, by decide, apart⟩
  obtain ⟨value, rfl⟩ := valued p after read
  obtain ⟨-, -, -, tooLarge, -, onLine⟩ := (number_exact 7 _).2 _ _ _ large
  obtain ⟨error, failed, message⟩ := tooLarge.mpr (by decide)
  exact ⟨⟨p, value, read⟩, error, failed, onLine error failed, message⟩

end DisjointTraps.Text
